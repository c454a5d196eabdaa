import PluginForge.Generation.Replication

/-! Outcomes of replication steps. A step that fails keeps the state it failed in, so a run is followed
by its outcome together with its last state; the rules for successful runs are read off that. -/

namespace PluginForge.Proofs.ReplicationLogic

variable {α β : Type}

/-- What a step comes to from a state, and the state it leaves. -/
def outcome (step : ReplicationM α) (s : ReplicationState) : Except GenerateError α × ReplicationState :=
  step.run.run s

theorem outcome_pure (value : α) (s : ReplicationState) : outcome (pure value) s = (.ok value, s) := rfl

theorem outcome_throw (e : GenerateError) (s : ReplicationState) :
    outcome (throw e : ReplicationM α) s = (.error e, s) := rfl

theorem outcome_get (s : ReplicationState) : outcome get s = (.ok s, s) := rfl

theorem outcome_modify (f : ReplicationState → ReplicationState) (s : ReplicationState) :
    outcome (modify f) s = (.ok (), f s) := rfl

theorem outcome_lift (result : Except GenerateError α) (s : ReplicationState) :
    outcome (liftM result) s = (result, s) := by
  cases result <;> rfl

theorem outcome_bind (step : ReplicationM α) (next : α → ReplicationM β) (s : ReplicationState) :
    outcome (step >>= next) s =
      match outcome step s with
      | (.ok value, middle) => outcome (next value) middle
      | (.error e, middle) => (.error e, middle) := by
  unfold outcome ExceptT.run StateT.run
  simp only [bind, ExceptT.bind, ExceptT.mk, StateT.bind, ExceptT.bindCont]
  cases step s with
  | mk result middle => cases result <;> rfl

theorem outcome_tryCatch (step : ReplicationM α) (handle : GenerateError → ReplicationM α)
    (s : ReplicationState) :
    outcome (tryCatch step handle) s =
      match outcome step s with
      | (.ok value, middle) => (.ok value, middle)
      | (.error e, middle) => outcome (handle e) middle := by
  unfold outcome ExceptT.run StateT.run
  simp only [tryCatch, tryCatchThe, MonadExceptOf.tryCatch, ExceptT.tryCatch, ExceptT.mk, bind, StateT.bind]
  cases step s with
  | mk result middle => cases result <;> rfl

/-- The step succeeds from `s` with a value and leaves the state `after`. -/
def Yields (step : ReplicationM α) (s : ReplicationState) (value : α) (after : ReplicationState) : Prop :=
  outcome step s = (.ok value, after)

variable {s after : ReplicationState}

theorem yields_unique {step : ReplicationM α} {value other : α} {later : ReplicationState}
    (first : Yields step s value after) (second : Yields step s other later) : value = other ∧ after = later := by
  obtain ⟨same, equal⟩ := Prod.mk.inj (first.symm.trans second)
  exact ⟨Except.ok.inj same, equal⟩

theorem yields_pure {value result : α} : Yields (pure value) s result after ↔ value = result ∧ s = after := by
  simp [Yields, outcome_pure]

theorem yields_throw {e : GenerateError} {result : α} : ¬ Yields (throw e : ReplicationM α) s result after := by
  simp [Yields, outcome_throw]

theorem yields_lift {given : Except GenerateError α} {result : α} :
    Yields (liftM given) s result after ↔ given = .ok result ∧ s = after := by
  simp [Yields, outcome_lift]

theorem yields_bind {step : ReplicationM α} {next : α → ReplicationM β} {result : β} :
    Yields (step >>= next) s result after ↔
      ∃ value middle, Yields step s value middle ∧ Yields (next value) middle result after := by
  unfold Yields
  rw [outcome_bind]
  generalize outcome step s = first
  obtain ⟨value, middle⟩ := first
  cases value with
  | error e => simp
  | ok value =>
    constructor
    · exact fun finishes => ⟨value, middle, rfl, finishes⟩
    · rintro ⟨_, _, same, finishes⟩
      cases same
      exact finishes

theorem yields_lift_bind {value : α} {next : α → ReplicationM β} {result : β} :
    Yields (liftM (Except.ok value : Except GenerateError α) >>= next) s result after ↔
      Yields (next value) s result after := by
  unfold Yields
  rw [outcome_bind, outcome_lift]

theorem yields_get_bind {next : ReplicationState → ReplicationM β} {result : β} :
    Yields (get >>= next) s result after ↔ Yields (next s) s result after := by
  unfold Yields
  rw [outcome_bind, outcome_get]

theorem yields_modify_bind {f : ReplicationState → ReplicationState} {next : Unit → ReplicationM β} {result : β} :
    Yields (modify f >>= next) s result after ↔ Yields (next ()) (f s) result after := by
  unfold Yields
  rw [outcome_bind, outcome_modify]

/-- A handler that fails again does not make a step succeed. -/
theorem yields_rethrow {step : ReplicationM α} {f : ReplicationState → ReplicationState} {result : α} :
    Yields (tryCatch step fun e => do modify f; throw e) s result after ↔ Yields step s result after := by
  unfold Yields
  rw [outcome_tryCatch]
  generalize outcome step s = first
  obtain ⟨value, middle⟩ := first
  cases value with
  | error e => simp [outcome_bind, outcome_modify, outcome_throw]
  | ok value => simp

end PluginForge.Proofs.ReplicationLogic

import Mathlib.Data.List.Induction
import PluginForge.Proofs.AttemptedWrites

/-! Validation that a failed write interrupts. The types that a call reached stay processed, so a repeated call passes
and writes nothing: what a call that passes covers is in the store, unless an interrupted call of the pass covers it. -/

namespace PluginForge.Proofs.InterruptedValidation
open Validator ValidationWalk ValidatorVerdicts AttemptedWrites ModelTypes

variable {σ : Type} {catalog : Catalog} {store : DocStore σ}

/-- A failed write ended a call on the task, in the pass that the calls end in. -/
def Stopped (catalog : Catalog) (store : DocStore σ) (docs : σ) (calls : List Call) (task : String) : Prop :=
  ∃ before after, calls = before ++ .validate task :: after ∧ Call.start ∉ after ∧
    ∃ unwritten e, verdict catalog store docs before task = .error (.javadoc unwritten e)

/-- A task on which a call was stopped covers the type. -/
def LeftOut (catalog : Catalog) (store : DocStore σ) (docs : σ) (calls : List Call) (name : String) : Prop :=
  ∃ task, Stopped catalog store docs calls task ∧ Covers catalog task name

theorem LeftOut.later {docs : σ} {calls : List Call} {name : String} (left : LeftOut catalog store docs calls name)
    (task : String) : LeftOut catalog store docs (calls ++ [.validate task]) name := by
  obtain ⟨stopped, ⟨before, after, rfl, within, fails⟩, covers⟩ := left
  refine ⟨stopped, ⟨before, after ++ [.validate task], by simp, ?_, fails⟩, covers⟩
  simpa using within

theorem LeftOut.onward {docs : σ} {calls : List Call} {name : String} {d : Descriptor} {p : Property}
    (left : LeftOut catalog store docs calls name) (loaded : catalog.load? name = some d) (member : p ∈ d.properties)
    (isModel : catalog.isModel p.ty = true) : LeftOut catalog store docs calls p.ty.name := by
  obtain ⟨task, stopped, covers⟩ := left
  exact ⟨task, stopped, .property covers loaded member isModel⟩

/-- A new pass leaves nothing out. -/
theorem not_leftOut_start (docs : σ) (calls : List Call) (name : String) :
    ¬ LeftOut catalog store docs (calls ++ [.start]) name := by
  rintro ⟨task, ⟨before, after, same, within, _⟩, _⟩
  rcases List.eq_nil_or_concat after with rfl | ⟨middle, last, rfl⟩
  · obtain ⟨_, ends⟩ := List.append_inj' same rfl
    cases ends
  · rw [List.concat_eq_append] at same within
    rw [← List.cons_append, ← List.append_assoc] at same
    obtain ⟨_, ends⟩ := List.append_inj' same rfl
    cases ends
    exact within (List.mem_append_right _ (List.mem_singleton_self _))

/-- The invariant of a pass: a processed type is left out, or it is stored and the model types among its properties
are processed too. -/
def Accounted (catalog : Catalog) (store : DocStore σ) (left : String → Prop) (v : Validator) (docs : σ) : Prop :=
  ∀ name ∈ v.processed, left name ∨ Held catalog store docs name ∧
    ∀ d, catalog.load? name = some d → ∀ p ∈ d.properties, catalog.isModel p.ty = true → p.ty.name ∈ v.processed

theorem Accounted.called (remembers : Remembers store) {left left' : String → Prop} {v after : Validator}
    {task : String} {docs last : σ} {result : Except GenerateError Unit} (accounted : Accounted catalog store left v docs)
    (called : Called catalog store v task docs result after last) (wider : ∀ name, left name → left' name)
    (stops : ∀ unwritten e, result = .error (.javadoc unwritten e) → ∀ name, Covers catalog task name → left' name) :
    Accounted catalog store left' after last := by
  cases called with
  | again known => exact fun name member => (accounted name member).imp_left (wider name)
  | rejected fresh fails => exact fun name member => (accounted name member).imp_left (wider name)
  | @attempted d stored reached _ _ fresh passes loaded walk attempts =>
    have judged := Judged.accepted fresh passes loaded walk
    rw [← name_of_load? loaded] at stops
    have covered : ∀ e ∈ d :: stored, Covers catalog d.name e.name :=
      List.forall_mem_cons.mpr ⟨.root, walk.covered (name_of_load? loaded ▸ loaded)⟩
    intro name member
    rcases mem_grown.mp member with new | old
    · obtain ⟨e, inside, rfl⟩ := List.mem_map.mp new
      cases result with
      | error cause =>
        obtain ⟨failed, _, e', rfl⟩ := attempts.error_reached
        exact .inl (stops _ _ rfl _ (covered e (attempts.sublist.subset inside)))
      | ok done =>
        cases attempts.reached_eq
        refine .inr ⟨⟨e, judged.loaded e inside, ?_⟩, fun found again p held isModel => ?_⟩
        · exact (attempts.stores remembers judged.fresh.1 e inside).resolve_left fun ⟨_, fails⟩ => nomatch fails
        · cases (judged.loaded e inside).symm.trans again
          rw [grown_cons, name_of_load? loaded]
          exact judged.inside e inside p held isModel
    · have beyond : name ∉ reached.map (·.name) :=
        fun again => judged.fresh.2 name ((attempts.sublist.map _).subset again) old
      refine (accounted name old).imp (wider name) fun ⟨⟨e, found, read⟩, closed⟩ => ⟨⟨e, found, ?_⟩, ?_⟩
      · rw [attempts.untouched remembers beyond, read]
      · exact fun e found p member isModel => mem_grown.mpr (.inr (closed e found p member isModel))

theorem performAll_append (docs : σ) (calls : List Call) (call : Call) :
    performAll catalog store docs (calls ++ [call]) = perform catalog store (performAll catalog store docs calls) call :=
  List.foldl_append ..

/-- One more call on a task, from wherever the calls before it lead. -/
theorem performAll_called (docs : σ) (calls : List Call) (task : String) :
    Called catalog store (performAll catalog store docs calls).1 task (performAll catalog store docs calls).2
      (verdict catalog store docs calls task) (performAll catalog store docs (calls ++ [.validate task])).1
      (performAll catalog store docs (calls ++ [.validate task])).2 := by
  rw [performAll_append]
  exact validate_called ..

theorem performAll_accounted (remembers : Remembers store) (docs : σ) (calls : List Call) :
    Accounted catalog store (LeftOut catalog store docs calls) (performAll catalog store docs calls).1
      (performAll catalog store docs calls).2 := by
  induction calls using List.reverseRecOn with
  | nil => exact List.forall_mem_nil _
  | append_singleton calls call ih =>
    cases call with
    | start =>
      rw [performAll_append]
      exact List.forall_mem_nil _
    | validate task =>
      refine ih.called remembers (performAll_called docs calls task) (fun name left => left.later task) ?_
      exact fun unwritten e fails name covers =>
        ⟨task, ⟨calls, [], rfl, List.not_mem_nil, unwritten, e, fails⟩, covers⟩

/-- After a call that passes, all that the task covers is processed, or left out. -/
theorem covers_accounted {left : String → Prop} {v after : Validator} {task : String} {docs last : σ}
    (called : Called catalog store v task docs (.ok ()) after last) (accounted : Accounted catalog store left after last)
    (passes : ∀ name d, catalog.load? name = some d → left name → ∀ p ∈ d.properties, catalog.isModel p.ty = true →
      left p.ty.name) {name : String} (covers : Covers catalog task name) : name ∈ after.processed ∨ left name := by
  induction covers with
  | root =>
    refine .inl ?_
    cases called with
    | again known => exact known
    | attempted fresh passes loaded walk attempts =>
      cases attempts.reached_eq
      exact mem_grown.mpr (.inl (by simp [name_of_load? loaded]))
  | property before loaded inside isModel ih =>
    have onward : left _ → left _ := fun out => passes _ _ loaded out _ inside isModel
    rcases ih with member | out
    · rcases accounted _ member with out | ⟨_, closed⟩
      · exact .inr (onward out)
      · exact .inl (closed _ loaded _ inside isModel)
    · exact .inr (onward out)

/-- A task and the class of its property, with documentation of their own. -/
def build : Descriptor where
  name := "com.acme.Build"
  javadoc := { summary := some "Builds." }
  properties := [{ name := "settings", ty := .ofName "com.acme.Settings" }]
  methods := [{ name := "run", executable := true }]

def settings : Descriptor where
  name := "com.acme.Settings"
  javadoc := { summary := some "How to build." }

def builds : Catalog := ((∅ : Catalog).add build).add settings

private theorem restarted_passes :
    verdict builds (faulty .memory) (∅, [true]) [.validate "com.acme.Build", .start] "com.acme.Build" = .ok () := by
  change (storeModels builds (faulty .memory) [.ofName "com.acme.Settings"] ["com.acme.Build"] _).1 = _
  unfold storeModels
  split
  next seen => cases seen
  next fresh =>
    rw [if_neg (by decide)]
    split
    next missing => cases missing
    next d found =>
      cases (show builds.load? "com.acme.Settings" = some settings from rfl).symm.trans found
      unfold storeModels
      rfl

/-- When a call passes, the store holds the documentation of what the task covers, up to what a call covers that a
failed write stopped earlier in the pass. Such a call leaves one type processed that is not stored, and when it is
repeated it passes and changes nothing. -/
theorem held_or_left (remembers : Remembers store) (docs : σ) (calls : List Call) (task : String) :
    (verdict catalog store docs calls task = .ok () → ∀ name, Covers catalog task name →
      Held catalog store (performAll catalog store docs (calls ++ [.validate task])).2 name ∨
        LeftOut catalog store docs calls name) ∧
    ∀ unwritten e, verdict catalog store docs calls task = .error (.javadoc unwritten e) →
      Covers catalog task unwritten ∧
      (∀ name ∈ (performAll catalog store docs (calls ++ [.validate task])).1.processed,
        name ∈ (performAll catalog store docs calls).1.processed ∨ name = unwritten ∨
          Held catalog store (performAll catalog store docs (calls ++ [.validate task])).2 name) ∧
      verdict catalog store docs (calls ++ [.validate task]) task = .ok () ∧
      performAll catalog store docs (calls ++ [.validate task, .validate task]) =
        performAll catalog store docs (calls ++ [.validate task]) := by
  have called := @performAll_called _ catalog store docs calls task
  refine ⟨fun passes name covers => ?_, fun unwritten e fails => ?_⟩
  · rw [passes] at called
    have accounted : Accounted catalog store (LeftOut catalog store docs calls)
        (performAll catalog store docs (calls ++ [.validate task])).1
        (performAll catalog store docs (calls ++ [.validate task])).2 :=
      (performAll_accounted remembers docs calls).called remembers called (fun _ => id) fun _ _ fails => nomatch fails
    rcases covers_accounted called accounted (fun _ _ loaded left _ => left.onward loaded) covers with member | left
    · exact (accounted name member).symm.imp_left (·.1)
    · exact .inr left
  · rw [fails] at called
    obtain ⟨covers, known, rest⟩ := called.stopped remembers
    have skips : (performAll catalog store docs (calls ++ [.validate task])).1.validate catalog store task
        (performAll catalog store docs (calls ++ [.validate task])).2 =
          (.ok (), performAll catalog store docs (calls ++ [.validate task])) := by
      rw [validate, if_pos (by simpa using known)]
    refine ⟨covers, rest, by rw [verdict, skips], ?_⟩
    rw [show calls ++ [.validate task, .validate task] = (calls ++ [.validate task]) ++ [.validate task] by simp,
      performAll_append _ (calls ++ _), perform, skips]

/-- The first write fails, and the next pass makes up for it. -/
theorem builds_held : Remembers (faulty .memory) ∧
    verdict builds (faulty .memory) (∅, [true]) [] "com.acme.Build" =
      .error (.javadoc "com.acme.Build" (.io "com.acme.Build")) ∧
    verdict builds (faulty .memory) (∅, [true]) [.validate "com.acme.Build"] "com.acme.Build" = .ok () ∧
    Held builds (faulty .memory)
      (performAll builds (faulty .memory) (∅, [true]) [.validate "com.acme.Build", .start, .validate "com.acme.Build"]).2
      "com.acme.Settings" := by
  have stops : verdict builds (faulty .memory) (∅, [true]) [] "com.acme.Build" =
      .error (.javadoc "com.acme.Build" (.io "com.acme.Build")) := rfl
  have covers : Covers builds "com.acme.Build" "com.acme.Settings" :=
    .property (d := build) .root rfl (List.mem_singleton_self _) rfl
  obtain ⟨_, _, again, _⟩ := (held_or_left memory_remembers.faulty (∅, [true]) [] "com.acme.Build").2 _ _ stops
  refine ⟨memory_remembers.faulty, stops, again, ?_⟩
  have held := (held_or_left memory_remembers.faulty (∅, [true]) [.validate "com.acme.Build", .start] "com.acme.Build").1
    restarted_passes "com.acme.Settings" covers
  exact held.resolve_right (not_leftOut_start (∅, [true]) [.validate "com.acme.Build"] "com.acme.Settings")

/-- After a failed write a call passes that stored nothing. -/
theorem passes_unstored : ¬ ∀ (catalog : Catalog) (σ : Type) (store : DocStore σ) (docs : σ) (calls : List Call)
    (task : String), Remembers store → verdict catalog store docs calls task = .ok () → ∀ name,
      Covers catalog task name → Held catalog store (performAll catalog store docs (calls ++ [.validate task])).2 name := by
  intro held
  have skipped : performAll builds (faulty .memory) (∅, [true]) [.validate "com.acme.Build", .validate "com.acme.Build"] =
      (⟨["com.acme.Build"]⟩, ∅, []) := rfl
  obtain ⟨d, loaded, read⟩ := held builds _ (faulty .memory) (∅, [true]) [.validate "com.acme.Build"] "com.acme.Build"
    memory_remembers.faulty rfl "com.acme.Build" .root
  cases (show builds.load? "com.acme.Build" = some build from rfl).symm.trans loaded
  rw [List.singleton_append, skipped] at read
  cases read

end PluginForge.Proofs.InterruptedValidation

import Mathlib.Data.List.Perm.Basic
import PluginForge.Proofs.ScopedDefinitions
import PluginForge.Proofs.SessionWrites

/-! Triggers in any order. What a session has generated, how each trigger ends and how many definitions are
written in all depend on the set of triggers alone: not on their order, not on their repetitions, and not on
the passes they are asked for in. -/

namespace PluginForge.Proofs.TriggerOrder
open Session SessionWrites

/-- The call reads its types from this context. -/
def Within (cx : Context) : Call → Prop
  | .start => True
  | .generate _ used _ _ => used = cx

/-- The trigger that a call is for, with its build tool. -/
def key? : Call → Option (BuildTool × String)
  | .start => none
  | .generate tool _ trigger _ => some (tool, trigger)

/-- The triggers of a sequence of calls, with their build tools. -/
def asked (calls : List Call) : List (BuildTool × String) := calls.filterMap key?

/-- What a session answers to a call that generates. -/
structure Answer where
  key : BuildTool × String
  result : Except GenerateError Nat

namespace Answer

/-- Whether the call succeeded, and the error if not. -/
def ending (a : Answer) : Except GenerateError Unit := a.result.map fun _ => ()

def count (a : Answer) : Nat := a.result.toOption.getD 0

end Answer

def answer (s : Session) : Call → List Answer
  | .start => []
  | .generate tool cx trigger sink => [⟨(tool, trigger), (generate s tool cx trigger sink).1⟩]

def answers (s : Session) : List Call → List Answer
  | [] => []
  | call :: rest => answer s call ++ answers (perform s call).1 rest

/-- The number of definitions that the answers report in all. -/
def total : List Answer → Nat
  | [] => 0
  | a :: rest => a.count + total rest

/-- The emitter of the call accepts whatever it is asked to write. -/
def Accepting : Call → Prop
  | .start => True
  | .generate _ _ _ sink => ∀ state definition owner, (sink.emitter.write state definition owner).1 = .ok ()

/-- The definitions of a trigger in a session that has done nothing yet. -/
def definitions (cx : Context) (supported : List ArtifactKind) (key : BuildTool × String) :
    Except GenerateError (List ObjectDef) := requested { supported } key.1 cx key.2

/-- Generating for the trigger brings a definition of this name. -/
def Brings (cx : Context) (supported : List ArtifactKind) (key : BuildTool × String) (name : String) : Prop :=
  ∃ built, definitions cx supported key = .ok built ∧ name ∈ built.map (·.name)

/-- How generating for the trigger ends if no write is refused. -/
def verdict (cx : Context) (supported : List ArtifactKind) (key : BuildTool × String) : Except GenerateError Unit :=
  match definitions cx supported key with
  | .ok _ => .ok ()
  | .error e => .error (report key.1 key.2 e)

/-- The triggers that the session takes for processed could be built, and their definitions are generated. -/
structure Kept (cx : Context) (supported : List ArtifactKind) (s : Session) : Prop where
  kinds : s.supported = supported
  once : s.generated.Nodup
  processed : ∀ key ∈ s.processed, ∃ built, definitions cx supported key = .ok built ∧
    ∀ name ∈ built.map (·.name), name ∈ s.generated

variable {cx : Context} {supported : List ArtifactKind} {s : Session}

theorem kept_new (cx : Context) (supported : List ArtifactKind) : Kept cx supported { supported } :=
  ⟨rfl, List.nodup_nil, List.forall_mem_nil _⟩

theorem Kept.start (kept : Kept cx supported s) : Kept cx supported s.start :=
  ⟨kept.kinds, kept.once, List.forall_mem_nil _⟩

/-- What a trigger asks for depends on nothing that the session did before. -/
theorem requested_eq (kinds : s.supported = supported) (tool : BuildTool) (trigger : String) :
    requested s tool cx trigger = definitions cx supported (tool, trigger) := by
  cases tool with
  | gradle => exact congrArg (cx.gradleDefinitions · trigger) kinds
  | maven => rfl

theorem brings_iff {key : BuildTool × String} {built : List ObjectDef}
    (made : definitions cx supported key = .ok built) {name : String} :
    Brings cx supported key name ↔ name ∈ built.map (·.name) := by
  constructor
  · rintro ⟨other, same, member⟩
    cases made.symm.trans same
    exact member
  · exact fun member => ⟨built, made, member⟩

/-- One call whose writes are all accepted: it ends as any other for this trigger does, it makes the names of
the trigger known and no others, and it reports how many of them are new. -/
theorem generate_kept (kept : Kept cx supported s) {tool : BuildTool} {trigger : String} {sink : Sink}
    (accepted : ∀ write ∈ (generate s tool cx trigger sink).2.2, write.accepted = true) :
    Kept cx supported (generate s tool cx trigger sink).2.1 ∧
    (∀ name, name ∈ (generate s tool cx trigger sink).2.1.generated ↔
      name ∈ s.generated ∨ Brings cx supported (tool, trigger) name) ∧
    ∀ a ∈ answer s (.generate tool cx trigger sink), a.ending = verdict cx supported a.key ∧
      (generate s tool cx trigger sink).2.1.generated.length = s.generated.length + a.count := by
  rw [answer, List.forall_mem_singleton]
  have ran := generate_ran s tool cx trigger sink
  rw [requested_eq kept.kinds] at ran
  generalize generate s tool cx trigger sink = outcome at ran accepted ⊢
  obtain ⟨result, after, writes⟩ := outcome
  dsimp only at ran accepted ⊢
  cases ran with
  | skipped again =>
    obtain ⟨built, made, known⟩ := kept.processed _ (by simpa using again)
    refine ⟨kept, fun name => ?_, by rw [verdict, made]; rfl, rfl⟩
    rw [brings_iff made, or_iff_left_of_imp (known name)]
  | @unbuilt fresh e failed =>
    refine ⟨kept, fun name => ?_, by rw [verdict, failed]; rfl, rfl⟩
    have nothing : ¬ Brings cx supported (tool, trigger) name := by
      rintro ⟨built, made, _⟩
      cases failed.symm.trans made
    rw [or_iff_left nothing]
  | @finished fresh built made =>
    have names (name : String) : name ∈ grown (unwritten built s.generated) s.generated ↔
        name ∈ s.generated ∨ Brings cx supported (tool, trigger) name := by
      rw [mem_grown_unwritten, brings_iff made, or_comm]
    refine ⟨⟨kept.kinds, grown_unwritten_nodup built kept.once, ?_⟩, names, by rw [verdict, made]; rfl, ?_⟩
    · intro key member
      rcases List.mem_cons.mp member with rfl | member
      · exact ⟨built, made, fun name inside => (names name).mpr (.inr ((brings_iff made).mpr inside))⟩
      · obtain ⟨earlier, earlierMade, known⟩ := kept.processed key member
        exact ⟨earlier, earlierMade, fun name inside => (names name).mpr (.inl (known name inside))⟩
    · simp [grown, Answer.count, Except.toOption, Nat.add_comm]
  | @refused fresh built done later refused failure made parts =>
    have refusal := accepted ⟨refused, false⟩ (by simp)
    cases refusal

/-- A whole sequence of calls whose writes are all accepted, each in the same context. -/
theorem performAll_kept (kept : Kept cx supported s) {calls : List Call} (within : ∀ call ∈ calls, Within cx call)
    (accepted : ∀ write ∈ (performAll s calls).2, write.accepted = true) :
    (performAll s calls).1.generated.Nodup ∧
    (∀ name, name ∈ (performAll s calls).1.generated ↔
      name ∈ s.generated ∨ ∃ key ∈ asked calls, Brings cx supported key name) ∧
    (performAll s calls).1.generated.length = s.generated.length + total (answers s calls) ∧
    ∀ a ∈ answers s calls, a.ending = verdict cx supported a.key := by
  induction calls generalizing s with
  | nil => exact ⟨kept.once, by simp [performAll, asked], rfl, List.forall_mem_nil _⟩
  | cons call rest ih =>
    obtain ⟨now, later⟩ := List.forall_mem_cons.mp within
    rw [performAll] at accepted ⊢
    obtain ⟨acceptedNow, acceptedLater⟩ := List.forall_mem_append.mp accepted
    cases call with
    | start =>
      obtain ⟨once, names, count, endings⟩ := ih kept.start later acceptedLater
      exact ⟨once, names, count, endings⟩
    | generate tool used trigger sink =>
      cases now
      obtain ⟨next, namesNow, answered⟩ := generate_kept kept acceptedNow
      obtain ⟨ending, countNow⟩ := List.forall_mem_singleton.mp answered
      obtain ⟨once, names, count, endings⟩ := ih next later acceptedLater
      refine ⟨once, fun name => ?_, ?_, List.forall_mem_cons.mpr ⟨ending, endings⟩⟩
      · calc name ∈ (performAll (generate s tool cx trigger sink).2.1 rest).1.generated
            ↔ (name ∈ s.generated ∨ Brings cx supported (tool, trigger) name) ∨
                ∃ key ∈ asked rest, Brings cx supported key name := by rw [names, namesNow]
          _ ↔ name ∈ s.generated ∨ ∃ key ∈ (tool, trigger) :: asked rest, Brings cx supported key name := by
            rw [List.exists_mem_cons_iff, or_assoc]
      · rw [countNow, Nat.add_assoc] at count
        exact count

/-- Neither the order nor the repetition of triggers matters, nor the start of a new pass between them. Two
sequences of calls on new sessions, in one context and with every write accepted, that are for the same set of
triggers with their build tools, end with the same names generated and have written equally many definitions
in all; and calls for one trigger all succeed or all end with the same error, in either sequence. -/
theorem trigger_order_irrelevant {cx : Context} {supported : List ArtifactKind} {first second : List Call}
    (within : ∀ call ∈ first ++ second, Within cx call) (same : ∀ key, key ∈ asked first ↔ key ∈ asked second)
    (accepted : ∀ write ∈ (performAll { supported } first).2 ++ (performAll { supported } second).2,
      write.accepted = true) :
    (∀ name, (performAll { supported } first).1.isGenerated name =
      (performAll { supported } second).1.isGenerated name) ∧
    (∀ a ∈ answers { supported } first ++ answers { supported } second,
      ∀ b ∈ answers { supported } first ++ answers { supported } second, a.key = b.key → a.ending = b.ending) ∧
    total (answers { supported } first) = total (answers { supported } second) := by
  obtain ⟨withinFirst, withinSecond⟩ := List.forall_mem_append.mp within
  obtain ⟨acceptedFirst, acceptedSecond⟩ := List.forall_mem_append.mp accepted
  obtain ⟨onceFirst, namesFirst, countFirst, endingsFirst⟩ :=
    performAll_kept (kept_new cx supported) withinFirst acceptedFirst
  obtain ⟨onceSecond, namesSecond, countSecond, endingsSecond⟩ :=
    performAll_kept (kept_new cx supported) withinSecond acceptedSecond
  have names (name : String) : name ∈ (performAll { supported } first).1.generated ↔
      name ∈ (performAll { supported } second).1.generated := by
    simp only [namesFirst, namesSecond, same]
  refine ⟨fun name => ?_, fun a ofA b ofB key => ?_, ?_⟩
  · rw [Bool.eq_iff_iff]
    simpa [isGenerated] using names name
  · have endings := List.forall_mem_append.mpr ⟨endingsFirst, endingsSecond⟩
    rw [endings a ofA, endings b ofB, key]
  · have sizes := ((List.perm_ext_iff_of_nodup onceFirst onceSecond).mpr names).length_eq
    rw [countFirst, countSecond] at sizes
    exact Nat.add_left_cancel sizes

theorem writeNew_accepting {σ : Type} {emitter : Emitter σ}
    (accepts : ∀ state definition owner, (emitter.write state definition owner).1 = .ok ()) (owner : String)
    (definitions : List ObjectDef) (generated : List String) (out : σ) :
    ∃ count, (writeNew emitter owner definitions generated out).1 = .ok count := by
  induction definitions generalizing generated out with
  | nil => exact ⟨0, rfl⟩
  | cons definition rest ih =>
    rw [writeNew]
    split
    next => exact ih generated out
    next =>
      have acceptance := accepts out definition owner
      generalize emitter.write out definition owner = outcome at acceptance ⊢
      obtain ⟨_, left⟩ := outcome
      cases acceptance
      obtain ⟨count, done⟩ := ih (definition.name :: generated) left
      exact ⟨count + 1, by simp only [done]; rfl⟩

theorem run_accepting {σ : Type} {emitter : Emitter σ}
    (accepts : ∀ state definition owner, (emitter.write state definition owner).1 = .ok ()) (s : Session)
    (tool : BuildTool) (trigger : String) (built : List ObjectDef) (out : σ) :
    ∃ count, (s.run tool trigger emitter (.ok built) out).1 = .ok count := by
  rw [run]
  split
  next => exact ⟨0, rfl⟩
  next =>
    obtain ⟨count, done⟩ := writeNew_accepting accepts trigger built (s.mark (tool, trigger)).generated out
    generalize written : writeNew emitter trigger built (s.mark (tool, trigger)).generated out = outcome at done
    obtain ⟨result, known, left⟩ := outcome
    cases done
    exact ⟨count, by simp only [written]⟩

/-- An emitter that accepts whatever it is asked to write refuses nothing in a run. -/
theorem generate_accepting {tool : BuildTool} {trigger : String} {sink : Sink}
    (accepts : Accepting (.generate tool cx trigger sink)) :
    ∀ write ∈ (generate s tool cx trigger sink).2.2, write.accepted = true := by
  have ran := generate_ran s tool cx trigger sink
  have succeeds : ∀ built, requested s tool cx trigger = .ok built →
      ∃ count, (generate s tool cx trigger sink).1 = .ok count := by
    intro built made
    have done := @run_accepting _ (recorded sink.emitter)
      (fun state definition owner => accepts state.1 definition owner) s tool trigger built (sink.out, [])
    rw [← made] at done
    cases tool <;> exact done
  generalize generate s tool cx trigger sink = outcome at ran succeeds ⊢
  obtain ⟨result, after, writes⟩ := outcome
  cases ran with
  | skipped again => exact List.forall_mem_nil _
  | unbuilt fresh failed => exact List.forall_mem_nil _
  | finished fresh made => simp
  | refused fresh failure made parts =>
    obtain ⟨count, done⟩ := succeeds _ made
    cases done

theorem performAll_accepting {calls : List Call} (accepts : ∀ call ∈ calls, Accepting call) :
    ∀ write ∈ (performAll s calls).2, write.accepted = true := by
  induction calls generalizing s with
  | nil => exact List.forall_mem_nil _
  | cons call rest ih =>
    obtain ⟨now, later⟩ := List.forall_mem_cons.mp accepts
    refine List.forall_mem_append.mpr ⟨?_, ih later⟩
    cases call with
    | start => exact List.forall_mem_nil _
    | generate tool used trigger sink => exact generate_accepting now

open ScopedDefinitions CarriedModels

/-- A trigger of the sample world, or a name that it has no type for, with an emitter that keeps everything. -/
def sample (tool : BuildTool) (trigger : String) : Call := .generate tool world trigger ⟨_, .recording, []⟩

def straight : List Call := [sample .gradle plugin.name, sample .maven plugin.name, sample .maven "com.acme.Gone"]

def roundabout : List Call :=
  [sample .maven "com.acme.Gone", sample .maven plugin.name, .start, sample .gradle plugin.name,
    sample .maven "com.acme.Gone", sample .maven plugin.name]

theorem samples_ordered_alike :
    (∀ call ∈ straight ++ roundabout, Within world call) ∧ (∀ key, key ∈ asked straight ↔ key ∈ asked roundabout) ∧
    (∀ write ∈ (performAll {} straight).2 ++ (performAll {} roundabout).2, write.accepted = true) ∧
    (performAll {} straight).1.generated ≠ (performAll {} roundabout).1.generated ∧
    (∀ name, (performAll {} straight).1.isGenerated name = (performAll {} roundabout).1.isGenerated name) ∧
    (∀ a ∈ answers {} straight ++ answers {} roundabout, ∀ b ∈ answers {} straight ++ answers {} roundabout,
      a.key = b.key → a.ending = b.ending) ∧
    total (answers {} straight) = 8 ∧ total (answers {} roundabout) = 8 := by
  have within : ∀ call ∈ straight ++ roundabout, Within world call := by
    simp [straight, roundabout, sample, Within]
  have same : ∀ key, key ∈ asked straight ↔ key ∈ asked roundabout := by
    intro key
    simp [asked, straight, roundabout, sample, key?]
    tauto
  have accepts : ∀ call ∈ straight ++ roundabout, Accepting call := by
    simp [straight, roundabout, sample, Accepting, Emitter.recording]
  obtain ⟨first, second⟩ := List.forall_mem_append.mp accepts
  have accepted : ∀ write ∈ (performAll {} straight).2 ++ (performAll {} roundabout).2, write.accepted = true :=
    List.forall_mem_append.mpr ⟨performAll_accepting first, performAll_accepting second⟩
  have written : total (answers {} straight) = 8 := by decide +kernel
  have differ : (performAll {} straight).1.generated ≠ (performAll {} roundabout).1.generated := by decide +kernel
  obtain ⟨names, endings, totals⟩ := trigger_order_irrelevant within same accepted
  exact ⟨within, same, accepted, differ, names, endings, written, totals ▸ written⟩

end PluginForge.Proofs.TriggerOrder

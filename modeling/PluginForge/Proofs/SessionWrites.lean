import Mathlib.Data.List.Nodup
import PluginForge.Session

/-! What a session writes, seen from its emitters. Every attempted write is put on record, and the record
shows that the names a session takes for generated are exactly those of the accepted definitions, whatever
is called in which order and whatever the emitters refuse. -/

namespace PluginForge.Proofs.SessionWrites
open Session

variable {σ : Type}

/-- A write that an emitter was asked for, and whether it accepted. -/
structure Write where
  definition : ObjectDef
  accepted : Bool

def acceptedIn (writes : List Write) : List ObjectDef := (writes.filter (·.accepted)).map (·.definition)

/-- The emitter with a record of the writes it is asked for, in their order. -/
def recorded (emitter : Emitter σ) : Emitter (σ × List Write) where
  write state definition owner :=
    let (outcome, out) := emitter.write state.1 definition owner
    (outcome, out, state.2 ++ [⟨definition, outcome.isOk⟩])

/-- The definitions of a batch that are still to be written: each name once, and none generated before. -/
def unwritten : List ObjectDef → List String → List ObjectDef
  | [], _ => []
  | definition :: rest, generated =>
    if generated.contains definition.name then unwritten rest generated
    else definition :: unwritten rest (definition.name :: generated)

/-- The names a session knows after the definitions were accepted one after the other. -/
def grown (accepted : List ObjectDef) (generated : List String) : List String :=
  (accepted.map (·.name)).reverse ++ generated

theorem grown_cons (definition : ObjectDef) (rest : List ObjectDef) (generated : List String) :
    grown (definition :: rest) generated = grown rest (definition.name :: generated) := by simp [grown]

/-- How a batch ends: everything unwritten is accepted, or the writes stop at a definition that is refused. -/
inductive Ends (definitions : List ObjectDef) (generated : List String) :
    Except WriteFailure Nat → List String → List Write → Prop where
  | finished : Ends definitions generated (.ok (unwritten definitions generated).length)
      (grown (unwritten definitions generated) generated)
      ((unwritten definitions generated).map (⟨·, true⟩))
  | refused (failure : WriteFailure) {done later : List ObjectDef} {refused : ObjectDef}
      (parts : unwritten definitions generated = done ++ refused :: later) :
      Ends definitions generated (.error failure) (grown done generated)
        (done.map (⟨·, true⟩) ++ [⟨refused, false⟩])

private theorem Ends.skip {definition : ObjectDef} {rest : List ObjectDef} {generated known : List String}
    {outcome : Except WriteFailure Nat} {writes : List Write} (present : generated.contains definition.name = true)
    (ends : Ends rest generated outcome known writes) : Ends (definition :: rest) generated outcome known writes := by
  have same : unwritten (definition :: rest) generated = unwritten rest generated := by
    rw [unwritten, if_pos present]
  cases ends with
  | finished => rw [← same]; exact .finished
  | refused failure parts => exact .refused failure (same.trans parts)

private theorem Ends.accept {definition : ObjectDef} {rest : List ObjectDef} {generated known : List String}
    {outcome : Except WriteFailure Nat} {writes : List Write} (absent : generated.contains definition.name = false)
    (ends : Ends rest (definition.name :: generated) outcome known writes) :
    Ends (definition :: rest) generated (outcome.map (· + 1)) known (⟨definition, true⟩ :: writes) := by
  have first : unwritten (definition :: rest) generated =
      definition :: unwritten rest (definition.name :: generated) := by
    rw [unwritten, if_neg (by simpa using absent)]
  cases ends with
  | finished =>
    have all := @Ends.finished (definition :: rest) generated
    rw [first, grown_cons] at all
    exact all
  | refused failure parts =>
    rw [← grown_cons]
    exact .refused failure (by rw [first, parts]; rfl)

theorem writeNew_ends (emitter : Emitter σ) (owner : String) (definitions : List ObjectDef)
    (generated : List String) (out : σ) (before : List Write) :
    ∃ writes, (writeNew (recorded emitter) owner definitions generated (out, before)).2.2.2 = before ++ writes ∧
      Ends definitions generated (writeNew (recorded emitter) owner definitions generated (out, before)).1
        (writeNew (recorded emitter) owner definitions generated (out, before)).2.1 writes := by
  induction definitions generalizing generated out before with
  | nil => exact ⟨[], by simp [writeNew], .finished⟩
  | cons definition rest ih =>
    rw [writeNew]
    split
    next present =>
      obtain ⟨writes, record, ends⟩ := ih generated out before
      exact ⟨writes, record, ends.skip present⟩
    next absent =>
      have absent : generated.contains definition.name = false := by simpa using absent
      obtain ⟨outcome, next⟩ : ∃ outcome, (emitter.write out definition owner).1 = outcome := ⟨_, rfl⟩
      cases outcome with
      | error failure =>
        have refusal : (recorded emitter).write (out, before) definition owner =
            (.error failure, (emitter.write out definition owner).2, before ++ [⟨definition, false⟩]) := by
          simp [recorded, next, Except.isOk, Except.toBool]
        rw [refusal]
        have stop : unwritten (definition :: rest) generated =
            [] ++ definition :: unwritten rest (definition.name :: generated) := by
          rw [unwritten, if_neg (by simpa using absent)]; rfl
        exact ⟨_, rfl, .refused failure stop⟩
      | ok done =>
        have acceptance : (recorded emitter).write (out, before) definition owner =
            (.ok (), (emitter.write out definition owner).2, before ++ [⟨definition, true⟩]) := by
          simp [recorded, next, Except.isOk, Except.toBool]
        rw [acceptance]
        obtain ⟨writes, record, ends⟩ :=
          ih (definition.name :: generated) (emitter.write out definition owner).2 (before ++ [⟨definition, true⟩])
        exact ⟨⟨definition, true⟩ :: writes, by simpa using record, ends.accept absent⟩

theorem mark_unmark {s : Session} {key : BuildTool × String} (fresh : s.processed.contains key = false)
    (generated : List String) : { s.mark key with generated }.unmark key = { s with generated } := by
  have kept : s.processed.filter (· != key) = s.processed := by
    apply List.filter_eq_self.mpr
    intro other member
    simp only [bne_iff_ne, ne_eq]
    rintro rfl
    exact absurd member (by simpa using fresh)
  simp [mark, unmark, kept]

inductive Ran (s : Session) (tool : BuildTool) (trigger : String)
    (built : Except GenerateError (List ObjectDef)) :
    Except GenerateError Nat → Session → List Write → Prop where
  | skipped (again : s.processed.contains (tool, trigger) = true) : Ran s tool trigger built (.ok 0) s []
  | unbuilt (fresh : s.processed.contains (tool, trigger) = false) {e : GenerateError} (failed : built = .error e) :
      Ran s tool trigger built (.error (report tool trigger e)) s []
  | finished (fresh : s.processed.contains (tool, trigger) = false) {definitions : List ObjectDef}
      (made : built = .ok definitions) :
      Ran s tool trigger built (.ok (unwritten definitions s.generated).length)
        { s.mark (tool, trigger) with generated := grown (unwritten definitions s.generated) s.generated }
        ((unwritten definitions s.generated).map (⟨·, true⟩))
  | refused (fresh : s.processed.contains (tool, trigger) = false) {definitions done later : List ObjectDef}
      {refused : ObjectDef} (failure : WriteFailure) (made : built = .ok definitions)
      (parts : unwritten definitions s.generated = done ++ refused :: later) :
      Ran s tool trigger built (.error (report tool trigger (.unwritable failure.name failure.path)))
        { s with generated := grown done s.generated } (done.map (⟨·, true⟩) ++ [⟨refused, false⟩])

theorem run_ran (s : Session) (tool : BuildTool) (trigger : String) (emitter : Emitter σ)
    (built : Except GenerateError (List ObjectDef)) (out : σ) :
    Ran s tool trigger built (s.run tool trigger (recorded emitter) built (out, [])).1
      (s.run tool trigger (recorded emitter) built (out, [])).2.1
      (s.run tool trigger (recorded emitter) built (out, [])).2.2.2 := by
  rw [run]
  split
  next again => exact .skipped again
  next fresh =>
    have fresh : s.processed.contains (tool, trigger) = false := by simpa using fresh
    cases built with
    | error e =>
      have restored := mark_unmark fresh s.generated
      simp only
      rw [show (s.mark (tool, trigger)).unmark (tool, trigger) = s from restored]
      exact .unbuilt fresh rfl
    | ok definitions =>
      obtain ⟨writes, record, ends⟩ := writeNew_ends emitter trigger definitions s.generated out []
      simp only [show (s.mark (tool, trigger)).generated = s.generated from rfl]
      generalize writeNew (recorded emitter) trigger definitions s.generated (out, []) = outcome at record ends ⊢
      obtain ⟨result, known, _, log⟩ := outcome
      simp only [List.nil_append] at record ends
      subst record
      cases ends with
      | finished => exact .finished fresh rfl
      | refused failure parts =>
        simp only [mark_unmark fresh]
        exact .refused fresh failure rfl parts

/-- An emitter of any kind, in the state it is handed over in. -/
structure Sink : Type 1 where
  State : Type
  emitter : Emitter State
  out : State

/-- What a trigger asks for of a build tool. -/
def requested (s : Session) (tool : BuildTool) (cx : Context) (trigger : String) :
    Except GenerateError (List ObjectDef) :=
  match tool with
  | .gradle => cx.gradleDefinitions s.supported trigger
  | .maven => cx.mavenDefinitions trigger

/-- Generates for a trigger and keeps the record of the writes. -/
def generate (s : Session) (tool : BuildTool) (cx : Context) (trigger : String) (sink : Sink) :
    Except GenerateError Nat × Session × List Write :=
  let (result, after, _, writes) :=
    match tool with
    | .gradle => s.generateGradle cx trigger (recorded sink.emitter) (sink.out, [])
    | .maven => s.generateMaven cx trigger (recorded sink.emitter) (sink.out, [])
  (result, after, writes)

theorem generate_ran (s : Session) (tool : BuildTool) (cx : Context) (trigger : String) (sink : Sink) :
    Ran s tool trigger (requested s tool cx trigger) (generate s tool cx trigger sink).1
      (generate s tool cx trigger sink).2.1 (generate s tool cx trigger sink).2.2 := by
  cases tool <;> exact run_ran s _ trigger sink.emitter _ sink.out

def unrecorded {α β : Type} (outcome : α × β × σ × List Write) : α × β × σ :=
  (outcome.1, outcome.2.1, outcome.2.2.1)

private theorem writeNew_recorded (emitter : Emitter σ) (owner : String) (definitions : List ObjectDef)
    (generated : List String) (out : σ) (writes : List Write) :
    unrecorded (writeNew (recorded emitter) owner definitions generated (out, writes)) =
      writeNew emitter owner definitions generated out := by
  induction definitions generalizing generated out writes with
  | nil => rfl
  | cons definition rest ih =>
    rw [writeNew, writeNew]
    by_cases present : generated.contains definition.name = true
    · rw [if_pos present, if_pos present]
      exact ih generated out writes
    · rw [if_neg present, if_neg present]
      generalize next : emitter.write out definition owner = outcome
      obtain ⟨result, after⟩ := outcome
      simp only [recorded, next]
      cases result with
      | error failure => rfl
      | ok done =>
        simp only [← ih (definition.name :: generated) after (writes ++ [⟨definition, true⟩])]
        rfl

/-- Keeping the record changes neither the result nor the session nor what becomes of the emitter. -/
theorem run_recorded (s : Session) (tool : BuildTool) (trigger : String) (emitter : Emitter σ)
    (built : Except GenerateError (List ObjectDef)) (out : σ) (writes : List Write) :
    unrecorded (s.run tool trigger (recorded emitter) built (out, writes)) =
      s.run tool trigger emitter built out := by
  rw [run, run]
  by_cases again : s.processed.contains (tool, trigger) = true
  · rw [if_pos again, if_pos again]
    rfl
  · rw [if_neg again, if_neg again]
    cases built with
    | error e => rfl
    | ok definitions =>
      simp only [← writeNew_recorded emitter trigger definitions _ out writes]
      generalize writeNew (recorded emitter) trigger definitions _ (out, writes) = outcome
      obtain ⟨result, known, state⟩ := outcome
      cases result <;> rfl

/-- What a host can ask of a session. -/
inductive Call : Type 1 where
  | start
  | generate (tool : BuildTool) (cx : Context) (trigger : String) (sink : Sink)

def perform (s : Session) : Call → Session × List Write
  | .start => (s.start, [])
  | .generate tool cx trigger sink => (generate s tool cx trigger sink).2

def performAll (s : Session) : List Call → Session × List Write
  | [] => (s, [])
  | call :: rest =>
    let (next, writes) := perform s call
    let (last, more) := performAll next rest
    (last, writes ++ more)

/-- The names a session takes for generated are those of the accepted definitions, the last one first,
and none comes twice. -/
structure Faithful (s : Session) (writes : List Write) : Prop where
  names : s.generated = grown (acceptedIn writes) []
  once : s.generated.Nodup

@[simp] theorem acceptedIn_append (first rest : List Write) :
    acceptedIn (first ++ rest) = acceptedIn first ++ acceptedIn rest := by simp [acceptedIn]

@[simp] theorem acceptedIn_accepted (definitions : List ObjectDef) :
    acceptedIn (definitions.map (⟨·, true⟩)) = definitions := by
  induction definitions with
  | nil => rfl
  | cons definition rest ih => simpa [acceptedIn] using ih

@[simp] theorem acceptedIn_refused (definition : ObjectDef) : acceptedIn [⟨definition, false⟩] = [] := rfl

theorem grown_append (first rest : List ObjectDef) (generated : List String) :
    grown (first ++ rest) generated = grown rest (grown first generated) := by simp [grown]

theorem grown_unwritten_nodup (definitions : List ObjectDef) {generated : List String} (once : generated.Nodup) :
    (grown (unwritten definitions generated) generated).Nodup := by
  induction definitions generalizing generated with
  | nil => simpa [unwritten, grown] using once
  | cons definition rest ih =>
    rw [unwritten]
    split
    next => exact ih once
    next absent =>
      have absent : definition.name ∉ generated := by simpa using absent
      have later := ih (List.nodup_cons.mpr ⟨absent, once⟩)
      simpa [grown] using later

/-- Writing what is unwritten of a batch adds exactly the names of the batch. -/
theorem mem_grown_unwritten {definitions : List ObjectDef} {generated : List String} {name : String} :
    name ∈ grown (unwritten definitions generated) generated ↔
      name ∈ definitions.map (·.name) ∨ name ∈ generated := by
  induction definitions generalizing generated with
  | nil => simp [unwritten, grown]
  | cons definition rest ih =>
    rw [unwritten, List.map_cons, List.mem_cons, or_assoc]
    split
    next present =>
      have present : definition.name ∈ generated := by simpa using present
      rw [ih, or_iff_right_of_imp (fun same : name = definition.name => .inr (same ▸ present))]
    next absent =>
      rw [grown_cons, ih, List.mem_cons, or_left_comm]

/-- However a run ends, the session comes to know the names of what was accepted, and no others. -/
theorem Ran.generated {s after : Session} {tool : BuildTool} {trigger : String}
    {built : Except GenerateError (List ObjectDef)} {result : Except GenerateError Nat} {writes : List Write}
    (ran : Ran s tool trigger built result after writes) :
    after.generated = grown (acceptedIn writes) s.generated := by
  cases ran with
  | skipped again => rfl
  | unbuilt fresh failed => rfl
  | finished fresh made => simp
  | refused fresh failure made parts => simp

theorem Ran.once {s after : Session} {tool : BuildTool} {trigger : String}
    {built : Except GenerateError (List ObjectDef)} {result : Except GenerateError Nat} {writes : List Write}
    (ran : Ran s tool trigger built result after writes) (once : s.generated.Nodup) : after.generated.Nodup := by
  cases ran with
  | skipped again => exact once
  | unbuilt fresh failed => exact once
  | @finished fresh definitions made => exact grown_unwritten_nodup definitions once
  | @refused fresh definitions done later refused failure made parts =>
    have all := grown_unwritten_nodup definitions once
    rw [parts, grown_append] at all
    exact (List.nodup_append.mp all).2.1

theorem Ran.counts {s after : Session} {tool : BuildTool} {trigger : String}
    {built : Except GenerateError (List ObjectDef)} {writes : List Write} {count : Nat}
    (ran : Ran s tool trigger built (.ok count) after writes) : (acceptedIn writes).length = count := by
  cases ran with
  | skipped again => rfl
  | finished fresh made => simp

theorem perform_faithful {s : Session} {writes : List Write} (faithful : Faithful s writes) (call : Call) :
    Faithful (perform s call).1 (writes ++ (perform s call).2) := by
  cases call with
  | start => exact ⟨by simpa [perform, start, acceptedIn] using faithful.names, faithful.once⟩
  | generate tool cx trigger sink =>
    have ran := generate_ran s tool cx trigger sink
    refine ⟨?_, ran.once faithful.once⟩
    rw [acceptedIn_append, grown_append, ← faithful.names]
    exact ran.generated

theorem performAll_faithful {s : Session} {writes : List Write} (faithful : Faithful s writes)
    (calls : List Call) : Faithful (performAll s calls).1 (writes ++ (performAll s calls).2) := by
  induction calls generalizing s writes with
  | nil => simpa [performAll] using faithful
  | cons call rest ih => simpa [performAll] using ih (perform_faithful faithful call)

/-- A session writes no name twice. After any calls on a new session it takes exactly the names of the
accepted definitions for generated, each once; a call that succeeds reports how many definitions it got
accepted; and a new pass forgets none of the names. -/
theorem accepted_at_most_once (supported : List ArtifactKind) (calls : List Call) :
    let (s, writes) := performAll { supported } calls
    ((acceptedIn writes).map (·.name)).Nodup ∧
    (∀ name, s.isGenerated name = true ↔ name ∈ (acceptedIn writes).map (·.name)) ∧
    s.generatedCount = (acceptedIn writes).length ∧
    (∀ tool cx trigger sink count, (generate s tool cx trigger sink).1 = .ok count →
      (acceptedIn (generate s tool cx trigger sink).2.2).length = count) ∧
    s.start.generated = s.generated ∧ ∀ name, s.start.isGenerated name = s.isGenerated name := by
  have fresh : Faithful { supported } [] := ⟨rfl, .nil⟩
  have faithful := performAll_faithful fresh calls
  generalize performAll { supported } calls = outcome at faithful ⊢
  obtain ⟨s, writes⟩ := outcome
  obtain ⟨names, once⟩ := faithful
  simp only [List.nil_append] at names
  refine ⟨?_, ?_, ?_, ?_, rfl, fun name => rfl⟩
  · rw [names] at once
    simpa [grown, List.nodup_reverse] using once
  · intro name
    rw [isGenerated, names]
    simp [grown]
  · rw [generatedCount, names]
    simp [grown]
  · intro tool cx trigger sink count done
    have ran := generate_ran s tool cx trigger sink
    rw [done] at ran
    exact ran.counts

end PluginForge.Proofs.SessionWrites

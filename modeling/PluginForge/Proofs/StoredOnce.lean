import PluginForge.Proofs.ValidatorVerdicts

/-! Each type is stored once. The writes of a pass are one for each type that the tasks of the pass cover, with the
documentation of that type, and there are no others: a walk stores no type that was processed before it. -/

namespace PluginForge.Proofs.StoredOnce
open Validator ValidationWalk ValidatorVerdicts ModelTypes

variable {σ : Type} {catalog : Catalog}

/-- What a store was asked to write, in order. -/
abbrev Record := List (String × TypeDoc)

/-- The store with a record of the writes it is asked for. -/
def recorded (store : DocStore σ) : DocStore (σ × Record) where
  read state name := store.read state.1 name
  write state name doc :=
    let (outcome, docs) := store.write state.1 name doc
    (outcome, docs, state.2 ++ [(name, doc)])

def writesOf (types : List Descriptor) : Record := types.map fun d => (d.name, d.javadoc)

theorem writesOf_names (types : List Descriptor) : (writesOf types).map (·.1) = types.map (·.name) := by
  rw [writesOf, List.map_map]
  rfl

theorem recorded_accepts {store : DocStore σ} (accepts : Accepts store) : Accepts (recorded store) :=
  fun state name doc => accepts state.1 name doc

theorem writeEach_recorded (store : DocStore σ) (types : List Descriptor) (docs : σ) (record : Record) :
    writeEach (recorded store) (docs, record) types = (writeEach store docs types, record ++ writesOf types) := by
  induction types generalizing docs record with
  | nil => simp [writeEach, writesOf]
  | cons d rest ih =>
    have first : writeEach (recorded store) (docs, record) (d :: rest) =
        writeEach (recorded store) ((store.write docs d.name d.javadoc).2, record ++ [(d.name, d.javadoc)]) rest := rfl
    rw [first, ih]
    simp [writeEach, writesOf]

/-- Validates types one after the other. -/
def validateAll (catalog : Catalog) (store : DocStore σ) (tasks : List String) (state : Validator × σ) : Validator × σ :=
  tasks.foldl (fun state task => (state.1.validate catalog store task state.2).2) state

/-- One write for each of the types, with the documentation of the type, and no other. -/
structure WrittenOnce (catalog : Catalog) (types : String → Prop) (writes : Record) : Prop where
  once : (writes.map (·.1)).Nodup
  exactly : ∀ name, name ∈ writes.map (·.1) ↔ types name
  own : ∀ write ∈ writes, ∃ d, catalog.load? write.1 = some d ∧ write.2 = d.javadoc

theorem WrittenOnce.judged {v after : Validator} {name : String} {result : Except GenerateError Unit}
    {stored : List Descriptor} {writes : Record} (written : WrittenOnce catalog (· ∈ v.processed) writes)
    (judged : Judged catalog v name result after stored) :
    WrittenOnce catalog (· ∈ after.processed) (writes ++ writesOf stored) where
  once := by
    obtain ⟨distinct, apart⟩ := judged.fresh
    rw [List.map_append, writesOf_names]
    refine List.nodup_append.mpr ⟨written.once, distinct, ?_⟩
    rintro old before new member rfl
    exact apart old member ((written.exactly old).mp before)
  exactly other := by
    rw [List.map_append, List.mem_append, writesOf_names, written.exactly other, judged.processed_iff other]
    exact or_comm
  own := by
    refine List.forall_mem_append.mpr ⟨written.own, List.forall_mem_map.mpr fun d member => ?_⟩
    exact ⟨d, judged.loaded d member, rfl⟩

/-- The invariant of a pass: the validator tracks the tasks so far, and what is processed was written once. -/
theorem pass_writes {store : DocStore σ} (accepts : Accepts store) {before : List String} {v : Validator}
    {writes : Record} (tracks : Tracks catalog before v) (written : WrittenOnce catalog (· ∈ v.processed) writes)
    (tasks : List String) (docs : σ) (record : Record) :
    ∃ after last more, validateAll catalog (recorded store) tasks (v, docs, record) = (after, last, record ++ more) ∧
      Tracks catalog (tasks.reverse ++ before) after ∧
      WrittenOnce catalog (· ∈ after.processed) (writes ++ more) := by
  induction tasks generalizing before v docs record writes with
  | nil => exact ⟨v, docs, [], by simp [validateAll], tracks, by simpa using written⟩
  | cons task rest ih =>
    obtain ⟨stored, judged, result⟩ := @validate_judged _ catalog _ (recorded_accepts accepts) v task (docs, record)
    rw [writeEach_recorded] at result
    obtain ⟨after, last, more, run, tracked, covered⟩ := ih (tracks.judged judged) (written.judged judged)
      (writeEach store docs stored) (record ++ writesOf stored)
    refine ⟨after, last, writesOf stored ++ more, ?_, ?_, ?_⟩
    · rw [validateAll, List.foldl_cons, ← List.append_assoc, ← run, validateAll, ← result]
    · simpa using tracked
    · simpa using covered

theorem started_writes {store : DocStore σ} (accepts : Accepts store) (v : Validator) (tasks : List String) (docs : σ)
    (record : Record) : ∃ after last writes,
      validateAll catalog (recorded store) tasks (v.start, docs, record) = (after, last, record ++ writes) ∧
      WrittenOnce catalog (CoveredBy catalog tasks) writes := by
  have tracks : Tracks catalog [] v.start := fun name => by simp [Validator.start, CoveredBy]
  have nothing : WrittenOnce catalog (· ∈ v.start.processed) [] :=
    ⟨.nil, fun _ => Iff.rfl, List.forall_mem_nil _⟩
  obtain ⟨after, last, writes, run, tracked, written⟩ := pass_writes accepts tracks nothing tasks docs record
  refine ⟨after, last, writes, run, written.once, fun name => ?_, written.own⟩
  have same : CoveredBy catalog (tasks.reverse ++ []) name ↔ CoveredBy catalog tasks name := by simp [CoveredBy]
  exact (written.exactly name).trans ((tracked name).trans same)

/-- A task that is covered by one of its properties, and a class that contains itself. -/
def build : Descriptor where
  name := "com.acme.Build"
  javadoc := { summary := some "Builds." }
  properties := [{ name := "root", ty := .ofName "com.acme.Node" }, { name := "title", ty := .ofName "java.lang.String" }]
  methods := [{ name := "run", executable := true }]

def node : Descriptor where
  name := "com.acme.Node"
  properties := [{ name := "next", ty := .ofName "com.acme.Node" }, { name := "owner", ty := .ofName "com.acme.Build" }]

def ring : Catalog := ((∅ : Catalog).add build).add node

/-- A validator that begins a pass, as a new one does, stores a task and the model types that properties lead to from
there, each with one write of its own documentation, and writes nothing else. Nor does any number of further calls
write a type again before the next pass: the writes are one for each type that some task of the pass covers. -/
theorem stored_once {store : DocStore σ} (accepts : Accepts store) (v : Validator) (docs : σ) (record : Record) :
    (∀ task, IsTask catalog task → ∃ after last writes,
      v.start.validate catalog (recorded store) task (docs, record) = (.ok (), after, last, record ++ writes) ∧
      WrittenOnce catalog (Covers catalog task) writes) ∧
    ∀ tasks, ∃ after last writes,
      validateAll catalog (recorded store) tasks (v.start, docs, record) = (after, last, record ++ writes) ∧
      WrittenOnce catalog (CoveredBy catalog tasks) writes := by
  refine ⟨fun task isTask => ?_, fun tasks => started_writes accepts v tasks docs record⟩
  obtain ⟨after, last, writes, run, written⟩ := @started_writes _ catalog _ accepts v [task] docs record
  have passes : (v.start.validate catalog (recorded store) task (docs, record)).1 = .ok () :=
    (verdict_eq_ok_iff (recorded_accepts accepts) (docs, record) [] task).1.mpr (.inl isTask)
  refine ⟨after, last, writes, Prod.ext passes run, written.once, fun name => ?_, written.own⟩
  rw [written.exactly name]
  simp [CoveredBy, isTask]

theorem ring_stored_once : ∃ after last writes,
    ({} : Validator).start.validate ring (recorded .memory) "com.acme.Build" (∅, []) = (.ok (), after, last, writes) ∧
    writes = [("com.acme.Build", { summary := some "Builds." }), ("com.acme.Node", {})] ∧
    WrittenOnce ring (Covers ring "com.acme.Build") writes := by
  have isTask : IsTask ring "com.acme.Build" := ⟨build, { name := "run", executable := true }, rfl, rfl, rfl, rfl⟩
  obtain ⟨after, last, writes, run, written⟩ := (stored_once memory_accepts {} ∅ []).1 "com.acme.Build" isTask
  -- The walk meets the class itself and the task again, and passes over both.
  have walk : Walked ring [.ofName "com.acme.Node", .ofName "java.lang.String"] ["com.acme.Build"] [node] :=
    .store (by decide) rfl rfl (.skip (.inl (by decide)) (.skip (.inl (by decide)) (.skip (.inr rfl) .done)))
  have judged : Judged ring {} "com.acme.Build" (.ok ()) ⟨grown [node] ["com.acme.Build"]⟩ [build, node] :=
    .accepted List.not_mem_nil rfl rfl walk
  have ran := validate_of_judged (recorded_accepts memory_accepts) judged (∅, [])
  rw [writeEach_recorded] at ran
  exact ⟨after, last, writes, run, congrArg (·.2.2.2) (run.symm.trans ran), written⟩

end PluginForge.Proofs.StoredOnce

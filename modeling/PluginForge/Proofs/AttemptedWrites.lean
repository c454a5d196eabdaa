import PluginForge.Proofs.ValidatorVerdicts

/-! Validation over a store whose writes may fail. A call walks the types as over a store that takes every write, and
stops at the first write that fails: what it reached by then counts as processed, the type of the failed write with it. -/

namespace PluginForge.Proofs.AttemptedWrites
open Validator ValidationWalk ValidatorVerdicts ModelTypes

variable {σ : Type} {catalog : Catalog} {store : DocStore σ}

/-- The writes of some types in order, up to the first that fails, with the types that were reached. -/
inductive Attempts (store : DocStore σ) :
    σ → List Descriptor → Except GenerateError Unit → List Descriptor → σ → Prop where
  | done {docs : σ} : Attempts store docs [] (.ok ()) [] docs
  | failed {docs last : σ} {d : Descriptor} {rest : List Descriptor} {e : DescriptorError}
      (refused : store.write docs d.name d.javadoc = (.error e, last)) :
      Attempts store docs (d :: rest) (.error (.javadoc d.name e)) [d] last
  | wrote {docs next last : σ} {d : Descriptor} {rest reached : List Descriptor} {result : Except GenerateError Unit}
      (taken : store.write docs d.name d.javadoc = (.ok (), next))
      (others : Attempts store next rest result reached last) :
      Attempts store docs (d :: rest) result (d :: reached) last

theorem storeModels_attempts (pending : List SourceType) (processed : List String) (docs : σ) :
    ∃ stored reached result last, Walked catalog pending processed stored ∧
      Attempts store docs stored result reached last ∧
      storeModels catalog store pending processed docs = (result, grown reached processed, last) := by
  fun_induction storeModels catalog store pending processed docs with
  | case1 processed docs => exact ⟨[], [], .ok (), docs, .done, .done, rfl⟩
  | case2 processed docs ty rest seen ih =>
    obtain ⟨stored, reached, result, last, walk, attempts, same⟩ := ih
    exact ⟨stored, reached, result, last, .skip (.inl (by simpa using seen)) walk, attempts, same⟩
  | case3 processed docs ty rest fresh other ih =>
    obtain ⟨stored, reached, result, last, walk, attempts, same⟩ := ih
    exact ⟨stored, reached, result, last, .skip (.inr (by simpa using other)) walk, attempts, same⟩
  | case4 processed docs ty rest fresh isModel missing ih =>
    obtain ⟨d, loaded⟩ := @isModel_loads catalog ty (by simpa using isModel)
    cases loaded.symm.trans missing
  | case5 processed docs ty rest fresh isModel d found fewer e last written =>
    -- The walk goes on over a store that takes the write.
    obtain ⟨stored, walk, _⟩ := @storeModels_walked _ catalog _ memory_accepts
      (d.properties.map (·.ty) ++ rest) (ty.name :: processed) ∅
    refine ⟨d :: stored, [d], _, last, .store (by simpa using fresh) (by simpa using isModel) found walk,
      .failed written, ?_⟩
    rw [grown_cons, name_of_load? found]
    rfl
  | case6 processed docs ty rest fresh isModel d found fewer next written ih =>
    obtain ⟨stored, reached, result, last, walk, attempts, same⟩ := ih
    refine ⟨d :: stored, d :: reached, result, last, .store (by simpa using fresh) (by simpa using isModel) found walk,
      .wrote written attempts, ?_⟩
    rw [same, grown_cons, name_of_load? found]

/-- What is read back is what was written, and a write, even one that fails, touches nothing else. -/
structure Remembers (store : DocStore σ) : Prop where
  kept : ∀ docs name doc, (store.write docs name doc).1 = .ok () →
    store.read (store.write docs name doc).2 name = .ok doc
  apart : ∀ docs name doc other, other ≠ name → store.read (store.write docs name doc).2 other = store.read docs other

theorem memory_remembers : Remembers DocStore.memory where
  kept docs name doc _ := by simp [DocStore.memory, KeyMap.get?_insert]
  apart docs name doc other distinct := by simp [DocStore.memory, KeyMap.get?_insert, distinct]

/-- The store with a list of which of the next writes fail. -/
def faulty (store : DocStore σ) : DocStore (σ × List Bool) where
  read state name := store.read state.1 name
  write state name doc :=
    match state with
    | (docs, true :: faults) => (.error (.io name), docs, faults)
    | (docs, faults) =>
      let (outcome, docs) := store.write docs name doc
      (outcome, docs, faults.tail)

theorem Remembers.faulty (remembers : Remembers store) : Remembers (faulty store) where
  kept state name doc taken := by
    obtain ⟨docs, _ | ⟨_ | _, faults⟩⟩ := state
    · exact remembers.kept docs name doc taken
    · exact remembers.kept docs name doc taken
    · cases taken
  apart state name doc other distinct := by
    obtain ⟨docs, _ | ⟨_ | _, faults⟩⟩ := state
    · exact remembers.apart docs name doc other distinct
    · exact remembers.apart docs name doc other distinct
    · rfl

/-- The store holds what the type says of itself. -/
def Held (catalog : Catalog) (store : DocStore σ) (docs : σ) (name : String) : Prop :=
  ∃ d, catalog.load? name = some d ∧ store.read docs name = .ok d.javadoc

namespace Attempts
variable {docs last : σ} {types reached : List Descriptor} {result : Except GenerateError Unit}

theorem reached_eq (attempts : Attempts store docs types (.ok ()) reached last) : reached = types := by
  generalize passes : (Except.ok () : Except GenerateError Unit) = result at attempts
  induction attempts with
  | done => rfl
  | failed refused => cases passes
  | wrote taken others ih => rw [ih passes]

theorem sublist (attempts : Attempts store docs types result reached last) : reached.Sublist types := by
  induction attempts with
  | done => exact .slnil
  | failed refused => exact .cons_cons _ (List.nil_sublist _)
  | wrote taken others ih => exact .cons_cons _ ih

/-- What is not reached reads as before. -/
theorem untouched (remembers : Remembers store) (attempts : Attempts store docs types result reached last)
    {name : String} (beyond : name ∉ reached.map (·.name)) : store.read last name = store.read docs name := by
  induction attempts with
  | done => rfl
  | @failed docs last d rest e refused =>
    have apart := remembers.apart docs d.name d.javadoc name (by simpa using beyond)
    rwa [refused] at apart
  | @wrote docs next last d rest reached result taken others ih =>
    obtain ⟨distinct, beyond⟩ := not_or.mp (mt List.mem_cons.mpr beyond)
    have apart := remembers.apart docs d.name d.javadoc name distinct
    rw [taken] at apart
    exact (ih beyond).trans apart

/-- What is reached is stored, all but the type whose write failed. -/
theorem stores (remembers : Remembers store) (attempts : Attempts store docs types result reached last)
    (distinct : (types.map (·.name)).Nodup) : ∀ d ∈ reached,
      (∃ e, result = .error (.javadoc d.name e)) ∨ store.read last d.name = .ok d.javadoc := by
  induction attempts with
  | done => exact List.forall_mem_nil _
  | failed refused => exact List.forall_mem_singleton.mpr (.inl ⟨_, rfl⟩)
  | @wrote docs next last d rest reached result taken others ih =>
    obtain ⟨first, distinct⟩ := List.nodup_cons.mp distinct
    refine List.forall_mem_cons.mpr ⟨.inr ?_, ih distinct⟩
    have beyond : d.name ∉ reached.map (·.name) := fun again => first ((others.sublist.map _).subset again)
    have kept := remembers.kept docs d.name d.javadoc
    rw [taken] at kept
    exact (others.untouched remembers beyond).trans (kept rfl)

/-- The error of an attempt names a type that was reached. -/
theorem error_reached {e : GenerateError} (attempts : Attempts store docs types (.error e) reached last) :
    ∃ d ∈ reached, ∃ cause, e = .javadoc d.name cause := by
  generalize fails : (Except.error e : Except GenerateError Unit) = result at attempts
  induction attempts with
  | done => cases fails
  | @failed docs last d rest cause refused =>
    cases fails
    exact ⟨d, List.mem_singleton_self d, cause, rfl⟩
  | wrote taken others ih =>
    obtain ⟨d, member, named⟩ := ih fails
    exact ⟨d, List.mem_cons_of_mem _ member, named⟩

end Attempts

/-- How a call ends over a store whose writes may fail. -/
inductive Called (catalog : Catalog) (store : DocStore σ) (v : Validator) (name : String) (docs : σ) :
    Except GenerateError Unit → Validator → σ → Prop where
  | again (known : name ∈ v.processed) : Called catalog store v name docs (.ok ()) v docs
  | rejected {e : GenerateError} (fresh : name ∉ v.processed) (fails : check catalog name = .error e) :
      Called catalog store v name docs (.error e) v docs
  | attempted {d : Descriptor} {stored reached : List Descriptor} {result : Except GenerateError Unit} {last : σ}
      (fresh : name ∉ v.processed) (passes : check catalog name = .ok ()) (loaded : catalog.load? name = some d)
      (walk : Walked catalog (d.properties.map (·.ty)) (name :: v.processed) stored)
      (attempts : Attempts store docs (d :: stored) result reached last) :
      Called catalog store v name docs result ⟨grown reached v.processed⟩ last

theorem validate_called (v : Validator) (name : String) (docs : σ) :
    Called catalog store v name docs (v.validate catalog store name docs).1 (v.validate catalog store name docs).2.1
      (v.validate catalog store name docs).2.2 := by
  rw [validate]
  by_cases known : name ∈ v.processed
  · rw [if_pos (by simpa using known)]
    exact .again known
  rw [if_neg (by simpa using known)]
  cases loaded : catalog.load? name with
  | none => exact .rejected known (by rw [check, loaded])
  | some d =>
    cases method : d.taskMethod with
    | error e =>
      simp only [method]
      exact .rejected known (by simp only [check, loaded, method]; rfl)
    | ok m =>
      have passes : check catalog name = .ok () := by simp only [check, loaded, method]; rfl
      have same := name_of_load? loaded
      subst same
      simp only [method]
      cases written : store.write docs d.name d.javadoc with
      | mk outcome next =>
        cases outcome with
        | error e =>
          obtain ⟨stored, walk, _⟩ := @storeModels_walked _ catalog _ memory_accepts (d.properties.map (·.ty))
            (d.name :: v.processed) ∅
          have called := Called.attempted known passes loaded walk (.failed written)
          rwa [grown_cons] at called
        | ok done =>
          obtain ⟨stored, reached, result, last, walk, attempts, ends⟩ :=
            @storeModels_attempts _ catalog store (d.properties.map (·.ty)) (d.name :: v.processed) next
          have called := Called.attempted known passes loaded walk (.wrote written attempts)
          rw [grown_cons] at called
          simpa only [ends] using called

theorem check_ne_javadoc {name unwritten : String} {e : DescriptorError} :
    check catalog name ≠ .error (.javadoc unwritten e) := by
  intro fails
  unfold check at fails
  split at fails
  · cases fails
  next d loaded =>
    unfold Descriptor.taskMethod at fails
    repeat' split at fails
    all_goals cases fails

/-- What a call that a failed write ends leaves behind: the type of that write, and all others that it reached stored. -/
theorem Called.stopped (remembers : Remembers store) {v after : Validator} {task unwritten : String} {docs last : σ}
    {e : DescriptorError} (called : Called catalog store v task docs (.error (.javadoc unwritten e)) after last) :
    Covers catalog task unwritten ∧ task ∈ after.processed ∧
      ∀ name ∈ after.processed, name ∈ v.processed ∨ name = unwritten ∨ Held catalog store last name := by
  cases called with
  | rejected fresh fails => exact absurd fails check_ne_javadoc
  | @attempted d stored reached _ _ fresh passes loaded walk attempts =>
    have same := name_of_load? loaded
    subst same
    have judged := Judged.accepted fresh passes loaded walk
    have within := attempts.sublist.subset
    refine ⟨?_, ?_, fun name member => ?_⟩
    · obtain ⟨failed, member, cause, named⟩ := attempts.error_reached
      cases named
      exact List.forall_mem_cons.mpr ⟨.root, walk.covered loaded⟩ failed (within member)
    · refine mem_grown.mpr (.inl ?_)
      cases attempts with
      | failed refused => exact List.mem_cons_self
      | wrote taken others => exact List.mem_cons_self
    · refine (mem_grown.mp member).symm.imp_right fun new => ?_
      obtain ⟨e, inside, rfl⟩ := List.mem_map.mp new
      refine (attempts.stores remembers judged.fresh.1 e inside).imp ?_ fun read => ?_
      · rintro ⟨cause, named⟩
        cases named
        rfl
      · exact ⟨e, judged.loaded e (within inside), read⟩

end PluginForge.Proofs.AttemptedWrites

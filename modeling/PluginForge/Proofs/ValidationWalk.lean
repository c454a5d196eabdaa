import PluginForge.Validator
import PluginForge.Proofs.ModelTypes

/-! What validating a task type leaves behind where every write succeeds. The walk over the properties stores
each model type that it meets for the first time, so the types processed in a pass are those that the accepted
types cover: each type itself, and the model types that properties lead to directly. -/

namespace PluginForge.Proofs.ValidationWalk
open Validator ModelTypes

/-- The types whose documentation goes with that of a type: itself and, from property to property, every type
that is a model itself. The elements of collections are not among them. -/
inductive Covers (catalog : Catalog) (root : String) : String → Prop where
  | root : Covers catalog root root
  | property {name : String} {d : Descriptor} {p : Property} (before : Covers catalog root name)
      (loaded : catalog.load? name = some d) (member : p ∈ d.properties) (isModel : catalog.isModel p.ty = true) :
      Covers catalog root p.ty.name

/-- Beside each name stand those of the model types among its properties. -/
def Closed (catalog : Catalog) (names : List String) : Prop :=
  ∀ name ∈ names, ∀ d, catalog.load? name = some d → ∀ p ∈ d.properties, catalog.isModel p.ty = true →
    p.ty.name ∈ names

variable {σ : Type} {catalog : Catalog} {names : List String}

theorem Closed.covers (closed : Closed catalog names) {root name : String} (member : root ∈ names)
    (covered : Covers catalog root name) : name ∈ names := by
  induction covered with
  | root => exact member
  | property _ loaded inside isModel ih => exact closed _ ih _ loaded _ inside isModel

def Accepts (store : DocStore σ) : Prop := ∀ docs name doc, (store.write docs name doc).1 = .ok ()

theorem memory_accepts : Accepts DocStore.memory := fun _ _ _ => rfl

def writeEach (store : DocStore σ) (docs : σ) (types : List Descriptor) : σ :=
  types.foldl (fun docs d => (store.write docs d.name d.javadoc).2) docs

/-- The types that a walk stores, in the order of their writes. -/
inductive Walked (catalog : Catalog) : List SourceType → List String → List Descriptor → Prop where
  | done {processed : List String} : Walked catalog [] processed []
  | skip {ty : SourceType} {rest : List SourceType} {processed : List String} {stored : List Descriptor}
      (settled : ty.name ∈ processed ∨ catalog.isModel ty = false) (walk : Walked catalog rest processed stored) :
      Walked catalog (ty :: rest) processed stored
  | store {ty : SourceType} {rest : List SourceType} {processed : List String} {stored : List Descriptor}
      {d : Descriptor} (fresh : ty.name ∉ processed) (isModel : catalog.isModel ty = true)
      (loaded : catalog.load? ty.name = some d)
      (walk : Walked catalog (d.properties.map (·.ty) ++ rest) (ty.name :: processed) stored) :
      Walked catalog (ty :: rest) processed (d :: stored)

/-- The processed names after a walk, the last one stored first. -/
def grown (stored : List Descriptor) (processed : List String) : List String :=
  (stored.map (·.name)).reverse ++ processed

theorem grown_cons (d : Descriptor) (stored : List Descriptor) (processed : List String) :
    grown (d :: stored) processed = grown stored (d.name :: processed) := by simp [grown]

theorem mem_grown {stored : List Descriptor} {processed : List String} {name : String} :
    name ∈ grown stored processed ↔ name ∈ stored.map (·.name) ∨ name ∈ processed := by simp [grown]

theorem storeModels_walked {store : DocStore σ} (accepts : Accepts store) (pending : List SourceType)
    (processed : List String) (docs : σ) :
    ∃ stored, Walked catalog pending processed stored ∧
      storeModels catalog store pending processed docs =
        (.ok (), grown stored processed, writeEach store docs stored) := by
  fun_induction storeModels catalog store pending processed docs with
  | case1 processed docs => exact ⟨[], .done, rfl⟩
  | case2 processed docs ty rest seen ih =>
    obtain ⟨stored, walk, result⟩ := ih
    exact ⟨stored, .skip (.inl (by simpa using seen)) walk, result⟩
  | case3 processed docs ty rest fresh other ih =>
    obtain ⟨stored, walk, result⟩ := ih
    exact ⟨stored, .skip (.inr (by simpa using other)) walk, result⟩
  | case4 processed docs ty rest fresh isModel missing ih =>
    obtain ⟨d, loaded⟩ := @isModel_loads catalog ty (by simpa using isModel)
    cases loaded.symm.trans missing
  | case5 processed docs ty rest fresh isModel d found fewer e failed written =>
    have taken := accepts docs d.name d.javadoc
    rw [written] at taken
    cases taken
  | case6 processed docs ty rest fresh isModel d found fewer next written ih =>
    obtain ⟨stored, walk, result⟩ := ih
    refine ⟨d :: stored, .store (by simpa using fresh) (by simpa using isModel) found walk, ?_⟩
    rw [result, grown_cons, name_of_load? found, writeEach, writeEach, List.foldl_cons, written]

namespace Walked
variable {pending : List SourceType} {processed : List String} {stored : List Descriptor}

theorem loaded (walk : Walked catalog pending processed stored) :
    ∀ d ∈ stored, catalog.load? d.name = some d := by
  induction walk with
  | done => simp
  | skip settled walk ih => exact ih
  | store fresh isModel loaded walk ih =>
    exact List.forall_mem_cons.mpr ⟨name_of_load? loaded ▸ loaded, ih⟩

theorem reaches (walk : Walked catalog pending processed stored) :
    ∀ ty ∈ pending, catalog.isModel ty = true → ty.name ∈ grown stored processed := by
  induction walk with
  | done => simp
  | skip settled walk ih =>
    refine List.forall_mem_cons.mpr ⟨fun isModel => ?_, ih⟩
    rcases settled with known | other
    · exact mem_grown.mpr (.inr known)
    · rw [other] at isModel
      cases isModel
  | @store ty rest processed stored d fresh isModel loaded walk ih =>
    rw [grown_cons, name_of_load? loaded]
    refine List.forall_mem_cons.mpr ⟨fun _ => mem_grown.mpr (.inr (List.mem_cons_self ..)), ?_⟩
    exact fun other member => ih other (List.mem_append_right _ member)

/-- What holds of the pending model types and passes on along properties holds of all that is stored. -/
theorem forall_stored {property : String → Prop} (walk : Walked catalog pending processed stored)
    (waiting : ∀ ty ∈ pending, catalog.isModel ty = true → property ty.name)
    (passes : ∀ name d, catalog.load? name = some d → property name → ∀ p ∈ d.properties,
      catalog.isModel p.ty = true → property p.ty.name) : ∀ d ∈ stored, property d.name := by
  induction walk with
  | done => simp
  | skip settled walk ih => exact ih (List.forall_mem_cons.mp waiting).2
  | @store ty rest processed stored d fresh isModel loaded walk ih =>
    obtain ⟨first, waiting⟩ := List.forall_mem_cons.mp waiting
    have here := first isModel
    refine List.forall_mem_cons.mpr ⟨name_of_load? loaded ▸ here, ih ?_⟩
    refine List.forall_mem_append.mpr ⟨?_, waiting⟩
    intro other member isModel
    obtain ⟨p, inside, rfl⟩ := List.mem_map.mp member
    exact passes ty.name d loaded here p inside isModel

/-- No type is stored that was processed already, and none twice. -/
theorem fresh (walk : Walked catalog pending processed stored) :
    (stored.map (·.name)).Nodup ∧ ∀ name ∈ stored.map (·.name), name ∉ processed := by
  induction walk with
  | done => exact ⟨.nil, List.forall_mem_nil _⟩
  | skip settled walk ih => exact ih
  | @store ty rest processed stored d fresh isModel loaded walk ih =>
    obtain ⟨distinct, apart⟩ := ih
    rw [← name_of_load? loaded] at fresh apart
    have first : d.name ∉ stored.map (·.name) := fun again => apart d.name again (List.mem_cons_self ..)
    refine ⟨List.nodup_cons.mpr ⟨first, distinct⟩, List.forall_mem_cons.mpr ⟨fresh, fun name member => ?_⟩⟩
    exact fun known => apart name member (List.mem_cons_of_mem _ known)

/-- The model types among the properties of what is stored are processed in the end. -/
theorem inside (walk : Walked catalog pending processed stored) : ∀ d ∈ stored, ∀ p ∈ d.properties,
    catalog.isModel p.ty = true → p.ty.name ∈ grown stored processed := by
  induction walk with
  | done => exact List.forall_mem_nil _
  | skip settled walk ih => exact ih
  | @store ty rest processed stored d fresh isModel loaded walk ih =>
    rw [grown_cons, name_of_load? loaded]
    refine List.forall_mem_cons.mpr ⟨fun p member => ?_, ih⟩
    exact walk.reaches p.ty (List.mem_append_left _ (List.mem_map_of_mem member))

/-- A walk that starts from the properties of a type stores what the type covers. -/
theorem covered {name : String} {d : Descriptor} (loaded : catalog.load? name = some d)
    (walk : Walked catalog (d.properties.map (·.ty)) processed stored) : ∀ e ∈ stored, Covers catalog name e.name := by
  refine walk.forall_stored (List.forall_mem_map.mpr fun p inside isModel => ?_) ?_
  · exact .property .root loaded inside isModel
  · exact fun other d found covered p inside isModel => .property covered found inside isModel

/-- A walk stores what it stores and nothing else. -/
theorem unique {other : List Descriptor} (walk : Walked catalog pending processed stored)
    (again : Walked catalog pending processed other) : stored = other := by
  induction walk generalizing other with
  | done =>
    cases again
    rfl
  | skip settled _ ih =>
    cases again with
    | skip _ walk => exact ih walk
    | store fresh isModel =>
      rcases settled with known | notModel
      · exact absurd known fresh
      · cases isModel.symm.trans notModel
  | store fresh isModel loaded _ ih =>
    cases again with
    | skip settled =>
      rcases settled with known | notModel
      · exact absurd known fresh
      · cases isModel.symm.trans notModel
    | store _ _ found walk =>
      cases loaded.symm.trans found
      rw [ih walk]

end Walked

/-- The verdict on a type that nothing was validated before: what is wrong with it as a task, if anything. -/
def check (catalog : Catalog) (name : String) : Except GenerateError Unit :=
  match catalog.load? name with
  | none => .error (.unknownType name)
  | some d => d.taskMethod.map fun _ => ()

/-- How a call of the validator ends, with the types that it stores. -/
inductive Judged (catalog : Catalog) (v : Validator) (name : String) :
    Except GenerateError Unit → Validator → List Descriptor → Prop where
  | again (known : name ∈ v.processed) : Judged catalog v name (.ok ()) v []
  | rejected {e : GenerateError} (fresh : name ∉ v.processed) (fails : check catalog name = .error e) :
      Judged catalog v name (.error e) v []
  | accepted {d : Descriptor} {stored : List Descriptor} (fresh : name ∉ v.processed)
      (passes : check catalog name = .ok ()) (loaded : catalog.load? name = some d)
      (walk : Walked catalog (d.properties.map (·.ty)) (name :: v.processed) stored) :
      Judged catalog v name (.ok ()) ⟨grown stored (name :: v.processed)⟩ (d :: stored)

theorem validate_judged {store : DocStore σ} (accepts : Accepts store) (v : Validator) (name : String) (docs : σ) :
    ∃ stored, Judged catalog v name (v.validate catalog store name docs).1 (v.validate catalog store name docs).2.1
        stored ∧
      (v.validate catalog store name docs).2.2 = writeEach store docs stored := by
  rw [validate]
  by_cases known : name ∈ v.processed
  · rw [if_pos (by simpa using known)]
    exact ⟨[], .again known, rfl⟩
  rw [if_neg (by simpa using known)]
  cases loaded : catalog.load? name with
  | none => exact ⟨[], .rejected known (by rw [check, loaded]), rfl⟩
  | some d =>
    cases method : d.taskMethod with
    | error e =>
      have fails : check catalog name = .error e := by simp only [check, loaded, method]; rfl
      simp only [method]
      exact ⟨[], .rejected known fails, rfl⟩
    | ok m =>
      have passes : check catalog name = .ok () := by simp only [check, loaded, method]; rfl
      have taken := accepts docs d.name d.javadoc
      obtain ⟨next, written⟩ : ∃ next, store.write docs d.name d.javadoc = (.ok (), next) := ⟨_, Prod.ext taken rfl⟩
      obtain ⟨stored, walk, result⟩ :=
        @storeModels_walked _ catalog _ accepts (d.properties.map (·.ty)) (name :: v.processed) next
      simp only [method, written, result]
      exact ⟨d :: stored, .accepted known passes loaded walk, by simp [writeEach, written]⟩

namespace Judged
variable {v after : Validator} {name : String} {verdict : Except GenerateError Unit} {stored : List Descriptor}

/-- A call ends in one way. -/
theorem unique {other : Except GenerateError Unit} {later : Validator} {more : List Descriptor}
    (judged : Judged catalog v name verdict after stored) (again : Judged catalog v name other later more) :
    verdict = other ∧ after = later ∧ stored = more := by
  cases judged with
  | again known =>
    cases again with
    | again => exact ⟨rfl, rfl, rfl⟩
    | rejected fresh | accepted fresh => exact absurd known fresh
  | rejected fresh fails =>
    cases again with
    | again known => exact absurd known fresh
    | rejected _ stops => exact ⟨fails.symm.trans stops, rfl, rfl⟩
    | accepted _ passes => cases fails.symm.trans passes
  | accepted fresh passes loaded walk =>
    cases again with
    | again known => exact absurd known fresh
    | rejected _ fails => cases passes.symm.trans fails
    | accepted _ _ found other =>
      cases loaded.symm.trans found
      rw [walk.unique other]
      exact ⟨rfl, rfl, rfl⟩

theorem rejects {e : GenerateError} (judged : Judged catalog v name (.error e) after stored) :
    after = v ∧ stored = [] ∧ check catalog name = .error e := by
  cases judged with
  | rejected fresh fails => exact ⟨rfl, rfl, fails⟩

/-- Every call adds to the processed names just those that it stores. -/
theorem processed_iff (judged : Judged catalog v name verdict after stored) (other : String) :
    other ∈ after.processed ↔ other ∈ stored.map (·.name) ∨ other ∈ v.processed := by
  cases judged with
  | again known => simp
  | rejected fresh fails => simp
  | accepted fresh passes loaded walk => simp [mem_grown, name_of_load? loaded, or_assoc, or_left_comm]

theorem loaded (judged : Judged catalog v name verdict after stored) :
    ∀ d ∈ stored, catalog.load? d.name = some d := by
  cases judged with
  | again known => simp
  | rejected fresh fails => simp
  | accepted fresh passes loaded walk =>
    exact List.forall_mem_cons.mpr ⟨name_of_load? loaded ▸ loaded, walk.loaded⟩

theorem fresh (judged : Judged catalog v name verdict after stored) :
    (stored.map (·.name)).Nodup ∧ ∀ other ∈ stored.map (·.name), other ∉ v.processed := by
  cases judged with
  | again known => exact ⟨.nil, List.forall_mem_nil _⟩
  | rejected fresh fails => exact ⟨.nil, List.forall_mem_nil _⟩
  | @accepted d stored fresh passes loaded walk =>
    obtain ⟨distinct, apart⟩ := walk.fresh
    have same := name_of_load? loaded
    subst same
    have first : d.name ∉ stored.map (·.name) := fun again => apart d.name again (List.mem_cons_self ..)
    refine ⟨List.nodup_cons.mpr ⟨first, distinct⟩, List.forall_mem_cons.mpr ⟨fresh, fun other member => ?_⟩⟩
    exact fun known => apart other member (List.mem_cons_of_mem _ known)

theorem inside (judged : Judged catalog v name verdict after stored) : ∀ d ∈ stored, ∀ p ∈ d.properties,
    catalog.isModel p.ty = true → p.ty.name ∈ after.processed := by
  cases judged with
  | again known => exact List.forall_mem_nil _
  | rejected fresh fails => exact List.forall_mem_nil _
  | accepted fresh passes loaded walk =>
    exact List.forall_mem_cons.mpr ⟨fun p member => walk.reaches p.ty (List.mem_map_of_mem member), walk.inside⟩

theorem closed (judged : Judged catalog v name verdict after stored) (before : Closed catalog v.processed) :
    Closed catalog after.processed := by
  intro other member d found p inside isModel
  rcases (judged.processed_iff other).mp member with new | old
  · obtain ⟨e, known, rfl⟩ := List.mem_map.mp new
    cases (judged.loaded e known).symm.trans found
    exact judged.inside _ known p inside isModel
  · exact (judged.processed_iff _).mpr (.inr (before other old d found p inside isModel))

/-- A type that passes comes to be processed with all that it covers, and nothing else does. -/
theorem covers_iff (judged : Judged catalog v name (.ok ()) after stored) (before : Closed catalog v.processed)
    (other : String) : other ∈ after.processed ↔ other ∈ v.processed ∨ Covers catalog name other := by
  have closed := judged.closed before
  cases judged with
  | again known =>
    constructor
    · exact .inl
    · rintro (member | covered)
      · exact member
      · exact before.covers known covered
  | @accepted d stored fresh passes loaded walk =>
    have kept : ∀ other ∈ name :: v.processed, other ∈ grown stored (name :: v.processed) :=
      fun other member => mem_grown.mpr (.inr member)
    constructor
    · intro member
      rcases mem_grown.mp member with member | member
      · obtain ⟨d, inside, rfl⟩ := List.mem_map.mp member
        exact .inr (walk.covered loaded d inside)
      · rcases List.mem_cons.mp member with rfl | member
        · exact .inr .root
        · exact .inl member
    · rintro (member | covered)
      · exact kept other (List.mem_cons_of_mem _ member)
      · exact closed.covers (kept name (List.mem_cons_self ..)) covered

end Judged

/-- What a call does, as soon as it is known how it ends. -/
theorem validate_of_judged {store : DocStore σ} (accepts : Accepts store) {v after : Validator} {name : String}
    {verdict : Except GenerateError Unit} {stored : List Descriptor}
    (judged : Judged catalog v name verdict after stored) (docs : σ) :
    v.validate catalog store name docs = (verdict, after, writeEach store docs stored) := by
  obtain ⟨_, ran, written⟩ := @validate_judged _ catalog _ accepts v name docs
  obtain ⟨result, left, rfl⟩ := ran.unique judged
  exact Prod.ext result (Prod.ext left written)

end PluginForge.Proofs.ValidationWalk

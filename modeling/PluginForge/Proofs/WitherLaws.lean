import PluginForge.Proofs.AttemptedCopies
import PluginForge.Proofs.MethodSignatures
import PluginForge.Proofs.SourceLibrary

/-! Withers of copies. A wither passes the fields of an instance to the constructor of the copy, one of them replaced, and
the constructor assigns what it is passed to a blank instance. The two lists match position by position, so withers obey
the laws of lenses. -/

namespace PluginForge.Proofs.WitherLaws
open Evaluation EvaluationRules ObjectTrees SourceLibrary NamedEntries
open Replication ModelTypes BuiltTypes RegistryEntries ReplicationLogic ReplicationInvariant ReferenceIntegrity
open AttemptedCopies MethodSignatures

section Instances

/-- An instance of the class whose properties have these values, in order. -/
def instanceOf (body : ClassDef) (values : List Value) : Cell :=
  .object .copy body.name ((body.properties.map (·.name)).zip values)

def Instance (body : ClassDef) (o : Cell) : Prop :=
  ∃ values, values.length = body.properties.length ∧ o = instanceOf body values

def valueOf? : Cell → String → Option Value
  | .object _ _ fields, name => fields.lookup name
  | _, _ => none

def readField (receiver : Value) (name : String) : Run Heap Value := do
  match receiver with
  | .ref a => ofOption ((← get)[a]?.bind (valueOf? · name))
  | _ => throw .stuck

/-- Assigns a field that the object has. -/
def writeField (receiver : Value) (name : String) (value : Value) : Run Heap Unit := do
  match receiver with
  | .ref a =>
    match (← get)[a]? with
    | some (.object origin className fields) =>
      if name ∈ fields.map (·.1) then store a (.object origin className (setField fields name value)) else throw .stuck
    | _ => throw .stuck
  | _ => throw .stuck

/-- An instance as it is before its constructor runs, with whatever values fields have at first. -/
def blank (body : ClassDef) (initial : String → Value) : Cell :=
  instanceOf body (body.properties.map fun p => initial p.name)

/-- Runs the constructor that takes so many arguments on a blank instance. -/
def construct (body : ClassDef) (initial : String → Value) (run : MethodDef → Value → List Value → Run Heap Value)
    (args : List Value) : Run Heap Value := do
  let constructor ← ofOption (body.constructors.find? fun m => m.parameters.length == args.length)
  let object ← allocate (blank body initial)
  let _ ← run constructor object args
  return object

def libraryWith (body : ClassDef) (create : List Value → Run Heap Value) : Library Heap where
  method? heap receiver method :=
    match receiver with
    | .ref a =>
      match heap[a]? with
      | some (.object .copy className _) =>
        if className = body.name then body.methods.find? (·.name == method) else none
      | _ => none
    | _ => none
  invoke _ _ _ := throw .stuck
  invokeStatic _ _ _ := throw .stuck
  create ty args :=
    match ty with
    | .this => create args
    | _ => throw .stuck
  readField := readField
  writeField := writeField
  readStatic _ _ := throw .stuck

/-- What the methods of a class run against: its instances, which its own constructors make. -/
def library (body : ClassDef) (initial : String → Value) : Nat → Library Heap
  | 0 => libraryWith body fun _ => throw .stuck
  | depth + 1 => libraryWith body (construct body initial (callMethod (library body initial depth) (depth + 1)))

theorem library_fields (body : ClassDef) (initial : String → Value) (depth : Nat) :
    (library body initial depth).readField = readField ∧ (library body initial depth).writeField = writeField := by
  cases depth <;> exact ⟨rfl, rfl⟩

variable {body : ClassDef} {values : List Value} {heap : Heap} {a : Nat} {value : Value} {name : String}

theorem gives_readField {o : Cell} (known : heap[a]? = some o) (has : valueOf? o name = some value) :
    Gives (readField (.ref a) name) heap value heap := by
  refine (gives_get heap).bind (gives_ofOption ?_ heap)
  rw [known, Option.bind_some, has]

theorem gives_writeField {origin : Origin} {className : String} {fields : List (String × Value)}
    (known : heap[a]? = some (.object origin className fields)) (has : name ∈ fields.map (·.1)) :
    Gives (writeField (.ref a) name value) heap () (heap.set a (.object origin className (setField fields name value))) := by
  refine (gives_get heap).bind ?_
  simp only [known]
  rw [if_pos has]
  exact gives_store _

theorem fields_names {names : List String} (whole : values.length = names.length) :
    (names.zip values).map (·.1) = names := List.map_fst_zip (Nat.le_of_eq whole.symm)

theorem setField_of_notMem {fields : List (String × Value)} (absent : name ∉ fields.map (·.1)) :
    setField fields name value = fields := by
  have kept : ∀ field ∈ fields, (if field.1 = name then (name, value) else field) = field := by
    intro field member
    apply if_neg
    rintro rfl
    exact absent (List.mem_map_of_mem member)
  rw [setField, List.map_congr_left kept, List.map_id']

theorem setField_between {done rest : List (String × Value)} {old : Value}
    (distinct : ((done ++ (name, old) :: rest).map (·.1)).Nodup) :
    setField (done ++ (name, old) :: rest) name value = done ++ (name, value) :: rest := by
  rw [List.map_append, List.map_cons, List.nodup_middle, List.nodup_cons, List.mem_append] at distinct
  obtain ⟨absent, -⟩ := distinct
  have before : setField done name value = done := setField_of_notMem fun member => absent (.inl member)
  have behind : setField rest name value = rest := setField_of_notMem fun member => absent (.inr member)
  calc setField (done ++ (name, old) :: rest) name value
    _ = setField done name value ++ (name, value) :: setField rest name value := by
      simp only [setField, List.map_append, List.map_cons, if_true]
    _ = done ++ (name, value) :: rest := by rw [before, behind]

theorem valueOf?_instanceOf (distinct : (body.properties.map (·.name)).Nodup)
    (whole : values.length = body.properties.length) {i : Nat} {p : PropertyDef} (known : body.properties[i]? = some p) :
    valueOf? (instanceOf body values) p.name = values[i]? := by
  obtain ⟨within, rfl⟩ := List.getElem?_eq_some_iff.mp known
  have inside : i < values.length := whole ▸ within
  have names : values.length = (body.properties.map (·.name)).length := by rw [whole, List.length_map]
  have member : (body.properties[i].name, values[i]) ∈ (body.properties.map (·.name)).zip values := by
    rw [List.mem_iff_getElem]
    exact ⟨i, by simp [whole, within], by simp⟩
  rw [List.getElem?_eq_getElem inside]
  exact lookup_of_nodup ((fields_names names).symm ▸ distinct) member

end Instances

section Evaluations
variable {body : ClassDef} {initial : String → Value} {lib : Library Heap} {heap : Heap} {a : Nat} {frame : Frame}
  {call : MethodDef → Value → List Value → Run Heap Value} {rounds : Nat} {locals : Locals} {values : List Value}

/-- Assignments of parameters to the fields of their names replace the values of these fields one after the other. -/
theorem runAll_assignments (writes : lib.writeField = writeField) (self : frame.this = .ref a) {origin : Origin}
    {className : String} {settable : List Variable} {done : List (String × Value)} {old args : List Value}
    (known : heap[a]? = some (.object origin className (done ++ (settable.map (·.name)).zip old)))
    (before : old.length = settable.length) (given : args.length = settable.length)
    (distinct : (done.map (·.1) ++ settable.map (·.name)).Nodup)
    (passed : ∀ entry ∈ (settable.map (·.name)).zip args, frame.parameters.lookup entry.1 = some entry.2) :
    Gives (runAll lib call rounds frame (settable.map fun v => .assignField .this v.name v.ty v.toParam) locals) heap
      (.next locals) (heap.set a (.object origin className (done ++ (settable.map (·.name)).zip args))) := by
  induction settable generalizing heap done old args with
  | nil =>
    obtain ⟨inside, same⟩ := List.getElem?_eq_some_iff.mp known
    have unchanged : heap.set a (.object origin className (done ++ (([] : List Variable).map (·.name)).zip args)) = heap := by
      rw [List.map_nil, List.zip_nil_left]
      rw [List.map_nil, List.zip_nil_left] at same
      rw [← same, List.set_getElem_self]
    rw [unchanged]
    exact runAll_nil
  | cons v settable ih =>
    obtain ⟨first, others, rfl⟩ := List.exists_cons_of_length_eq_add_one before
    obtain ⟨arg, args, rfl⟩ := List.exists_cons_of_length_eq_add_one given
    rw [List.map_cons, List.zip_cons_cons] at known
    have fields : ((settable.map (·.name)).zip others).map (·.1) = settable.map (·.name) := by
      apply fields_names
      simpa using before
    have replaced : setField (done ++ (v.name, first) :: (settable.map (·.name)).zip others) v.name arg =
        done ++ [(v.name, arg)] ++ (settable.map (·.name)).zip others := by
      rw [setField_between, List.append_assoc, List.singleton_append]
      rw [List.map_append, List.map_cons, fields]
      exact distinct
    have declared : v.name ∈ (done ++ (v.name, first) :: (settable.map (·.name)).zip others).map (·.1) := by simp
    have assigned : Gives (writeField (.ref a) v.name arg) heap () _ := gives_writeField known declared
    have reads : frame.parameters.lookup v.name = some arg := passed (v.name, arg) (List.mem_cons_self ..)
    obtain ⟨inside, -⟩ := List.getElem?_eq_some_iff.mp known
    have now : (heap.set a (.object origin className
        (done ++ [(v.name, arg)] ++ (settable.map (·.name)).zip others)))[a]? =
          some (.object origin className (done ++ [(v.name, arg)] ++ (settable.map (·.name)).zip others)) := by
      rw [List.getElem?_set_self inside]
    have continues := ih now (by simpa using before) (by simpa using given) (by simpa using distinct)
      fun entry member => passed entry (List.mem_cons_of_mem _ member)
    rw [List.set_set] at continues
    rw [replaced] at assigned
    simp only [List.map_cons, List.zip_cons_cons]
    rw [List.append_cons]
    refine runAll_cons (run_assignField (self ▸ eval_this) (eval_param reads) ?_) continues
    rw [writes]
    exact assigned

/-- The constructor that takes all properties makes an instance with these values of whatever instance it runs on. -/
theorem call_settingConstructor {modifiers : List Modifier} {old : List Value} {budget : Nat}
    (writes : lib.writeField = writeField) (bare : body.fields = []) (distinct : (body.properties.map (·.name)).Nodup)
    (known : heap[a]? = some (instanceOf body old)) (before : old.length = body.properties.length)
    (given : values.length = body.properties.length) :
    Gives (callMethod lib (budget + 1) (body.settingConstructor modifiers) (.ref a) values) heap .null
      (heap.set a (instanceOf body values)) := by
  have settable : body.settable = body.properties.map fun p => ⟨p.name, p.ty⟩ := by
    rw [ClassDef.settable, bare, List.filter_nil, List.map_nil, List.append_nil]
  have names : body.settable.map (·.name) = body.properties.map (·.name) := by
    rw [settable, List.map_map]
    rfl
  have count : body.settable.length = body.properties.length := by rw [settable, List.length_map]
  have passed : ∀ entry ∈ (body.settable.map (·.name)).zip values,
      ((body.settable.map (·.name)).zip values).lookup entry.1 = some entry.2 := by
    intro entry member
    rw [names] at member ⊢
    have same : values.length = (body.properties.map (·.name)).length := by rw [given, List.length_map]
    exact lookup_of_nodup ((fields_names same).symm ▸ distinct) member
  have runs : Gives (runAll lib (callMethod lib budget) budget ⟨.ref a, (body.settable.map (·.name)).zip values⟩
      (body.settable.map fun v => .assignField .this v.name v.ty v.toParam) []) heap (.next [])
      (heap.set a (.object .copy body.name ([] ++ (body.settable.map (·.name)).zip values))) :=
    runAll_assignments writes rfl (names ▸ known) (before.trans count.symm) (given.trans count.symm)
      (names.symm ▸ distinct) passed
  rw [instanceOf, ← names]
  exact call_block rfl (count.trans given.symm) runs

/-- What withers rely on: the class has no fields beside its properties, the constructor that takes them all is the first
that takes so many arguments, and each property has its wither in its own place. -/
structure Plain (body : ClassDef) : Prop where
  bare : body.fields = []
  distinct : (body.properties.map (·.name)).Nodup
  full : ∃ modifiers, body.constructors.find? (fun m => m.parameters.length == body.properties.length) =
    some (body.settingConstructor modifiers)
  withers : ∀ i p, body.properties[i]? = some p → ∃ doc, body.methods[i]? = some (wither body.properties doc i p)

theorem gives_create {depth : Nat} (plain : Plain body) (given : values.length = body.properties.length) :
    Gives ((library body initial (depth + 1)).create .this values) heap (.ref heap.length)
      (heap ++ [instanceOf body values]) := by
  obtain ⟨modifiers, full⟩ := plain.full
  have fits : body.constructors.find? (fun m => m.parameters.length == values.length) =
      some (body.settingConstructor modifiers) := by
    rw [given, full]
  have allocated : (heap ++ [blank body initial])[heap.length]? = some (blank body initial) := by simp
  have runs := @call_settingConstructor body (library body initial depth) _ heap.length values modifiers _ depth
    (library_fields body initial depth).2 plain.bare plain.distinct allocated (List.length_map ..) given
  rw [List.set_append_right _ _ (Nat.le_refl _), Nat.sub_self] at runs
  exact (gives_ofOption fits heap).bind ((gives_allocate _).bind (runs.bind (gives_pure _ _)))

/-- A wither passes each field on, and its argument in place of one of them. -/
theorem evalAll_wither {i : Nat} {p : PropertyDef} {v : Value} (reads : lib.readField = readField)
    (distinct : (body.properties.map (·.name)).Nodup) (self : frame.this = .ref a)
    (passed : frame.parameters.lookup p.name = some v) (known : heap[a]? = some (instanceOf body values))
    (whole : values.length = body.properties.length) :
    Gives (evalAll lib call frame locals (body.properties.mapIdx fun j (other : PropertyDef) =>
      if j = i then Expr.param ⟨p.name, p.ty⟩ else Expr.this.field other.name other.ty)) heap (values.set i v) heap := by
  apply evalAll_pure
  rw [List.forall₂_iff_get]
  refine ⟨by simp [whole], fun j inside within => ?_⟩
  simp only [List.get_eq_getElem, List.getElem_mapIdx, List.getElem_set]
  rw [List.length_mapIdx] at inside
  by_cases same : j = i
  · rw [if_pos same, if_pos same.symm]
    exact eval_param passed
  · rw [if_neg same, if_neg (Ne.symm same), evalExpr]
    have has : valueOf? (instanceOf body values) body.properties[j].name = some values[j] := by
      rw [valueOf?_instanceOf distinct whole (List.getElem?_eq_getElem inside)]
      exact List.getElem?_eq_getElem _
    refine (self ▸ eval_this).bind ?_
    rw [reads]
    exact gives_readField known has

theorem call_wither {doc : Option String} {i : Nat} {p : PropertyDef} {v : Value} {depth budget : Nat} (plain : Plain body)
    (known : heap[a]? = some (instanceOf body values)) (whole : values.length = body.properties.length) :
    Gives (callMethod (library body initial (depth + 1)) (budget + 1) (wither body.properties doc i p) (.ref a) [v]) heap
      (.ref heap.length) (heap ++ [instanceOf body (values.set i v)]) := by
  refine call_ret rfl rfl (run_ret (eval_create ?_ (gives_create plain (by simpa using whole))))
  exact evalAll_wither (library_fields body initial (depth + 1)).1 plain.distinct rfl (List.lookup_cons_self ..) known whole

end Evaluations

section Laws
variable {body : ClassDef} {initial : String → Value} {lib : Library Heap} {m n : MethodDef} {o r t : Cell} {i j : Nat}
  {p q : PropertyDef} {v w : Value} {depth : Nat}

/-- A call of the method on such an object with this argument makes such a new object and leaves all others alone. -/
def Turns (lib : Library Heap) (m : MethodDef) (o : Cell) (v : Value) (r : Cell) : Prop :=
  ∀ heap a budget, heap[a]? = some o →
    Gives (callMethod lib (budget + 1) m (.ref a) [v]) heap (.ref heap.length) (heap ++ [r])

/-- The property in this place and its wither. -/
structure WitherAt (body : ClassDef) (i : Nat) (p : PropertyDef) (m : MethodDef) : Prop where
  property : body.properties[i]? = some p
  method : body.methods[i]? = some m

/-- The constructor and the withers of a class make its properties lenses on its instances. -/
structure Lawful (lib : Library Heap) (body : ClassDef) : Prop where
  constructs : ∀ heap values, values.length = body.properties.length →
    Gives (lib.create .this values) heap (.ref heap.length) (heap ++ [instanceOf body values])
  sets : ∀ i p m, WitherAt body i p m → ∀ o v, Instance body o → ∃ r, Instance body r ∧ Turns lib m o v r ∧
    valueOf? r p.name = some v ∧
    ∀ j q, body.properties[j]? = some q → j ≠ i → valueOf? r q.name = valueOf? o q.name
  restores : ∀ i p m, WitherAt body i p m → ∀ o v, Instance body o → valueOf? o p.name = some v → Turns lib m o v o
  overwrites : ∀ i p m, WitherAt body i p m → ∀ o v w, Instance body o →
    ∃ first last, Turns lib m o v first ∧ Turns lib m first w last ∧ Turns lib m o w last
  commutes : ∀ i p m, WitherAt body i p m → ∀ j q n, WitherAt body j q n → i ≠ j → ∀ o v w, Instance body o →
    ∃ first second both, Turns lib m o v first ∧ Turns lib n first w both ∧
      Turns lib n o w second ∧ Turns lib m second v both

theorem WitherAt.turns (place : WitherAt body i p m) (plain : Plain body) (initial : String → Value) (depth : Nat)
    {values : List Value} (whole : values.length = body.properties.length) (v : Value) :
    Turns (library body initial (depth + 1)) m (instanceOf body values) v (instanceOf body (values.set i v)) := by
  intro heap a budget known
  obtain ⟨doc, is⟩ := plain.withers i p place.property
  cases place.method.symm.trans is
  exact call_wither plain known whole

theorem Plain.lawful (plain : Plain body) (initial : String → Value) (depth : Nat) :
    Lawful (library body initial (depth + 1)) body where
  constructs heap values whole := gives_create plain whole
  sets := by
    rintro i p m place o v ⟨values, whole, rfl⟩
    have count : (values.set i v).length = body.properties.length := by rw [List.length_set, whole]
    obtain ⟨within, -⟩ := List.getElem?_eq_some_iff.mp place.property
    refine ⟨_, ⟨_, count, rfl⟩, place.turns plain initial depth whole v, ?_, ?_⟩
    · rw [valueOf?_instanceOf plain.distinct count place.property, List.getElem?_set_self (whole.symm ▸ within)]
    · intro j q other different
      rw [valueOf?_instanceOf plain.distinct count other, valueOf?_instanceOf plain.distinct whole other]
      exact List.getElem?_set_ne (Ne.symm different)
  restores := by
    rintro i p m place o v ⟨values, whole, rfl⟩ has
    rw [valueOf?_instanceOf plain.distinct whole place.property] at has
    obtain ⟨within, same⟩ := List.getElem?_eq_some_iff.mp has
    have turns := place.turns plain initial depth whole v
    rwa [← same, List.set_getElem_self, same] at turns
  overwrites := by
    rintro i p m place o v w ⟨values, whole, rfl⟩
    have count : (values.set i v).length = body.properties.length := by rw [List.length_set, whole]
    have again := place.turns plain initial depth count w
    rw [List.set_set] at again
    exact ⟨_, _, place.turns plain initial depth whole v, again, place.turns plain initial depth whole w⟩
  commutes := by
    rintro i p m place j q n other different o v w ⟨values, whole, rfl⟩
    have count : (values.set i v).length = body.properties.length := by rw [List.length_set, whole]
    have countOther : (values.set j w).length = body.properties.length := by rw [List.length_set, whole]
    have last := place.turns plain initial depth countOther v
    rw [← List.set_comm v w different] at last
    exact ⟨_, _, _, place.turns plain initial depth whole v, other.turns plain initial depth count w,
      other.turns plain initial depth whole w, last⟩

end Laws

section Copies
variable {d : Descriptor} {doc : TypeDoc} {name : String} {properties : List PropertyDef}

theorem withers_filter (doc : TypeDoc) (properties : List PropertyDef) :
    (withers doc properties).filter MethodDef.isConstructor = [] := by
  apply List.filter_eq_nil_iff.mpr
  intro m member constructor
  exact withers_apart doc properties m member (beq_iff_eq.mp constructor)

/-- The constructor that takes all properties comes first. -/
theorem copyClass_constructors (d : Descriptor) (doc : TypeDoc) (name : String) (properties : List PropertyDef) :
    (copyClass d doc name properties).constructors.head? = some ((copyClass d doc name properties).settingConstructor [.pub]) := by
  unfold copyClass
  split <;>
    simp [ClassDef.constructors, ClassDef.addSettingConstructor, ClassDef.addMethod, withers_filter,
      ClassDef.settingConstructor, ClassDef.settable, MethodDef.isConstructor]

theorem copyClass_withers {i : Nat} {p : PropertyDef} (known : properties[i]? = some p) :
    (copyClass d doc name properties).methods[i]? = some (wither properties (doc.element? p.name) i p) := by
  obtain ⟨within, rfl⟩ := List.getElem?_eq_some_iff.mp known
  have own : (withers doc properties)[i]? = some (wither properties (doc.element? properties[i].name) i properties[i]) := by
    simp [withers, within]
  have inside : i < (withers doc properties).length := by simpa [withers] using within
  have first (more : List MethodDef) : (withers doc properties ++ more)[i]? = (withers doc properties)[i]? :=
    List.getElem?_append_left inside
  rw [← own]
  unfold copyClass
  split
  · exact first _
  · exact (congrArg (·[i]?) (List.append_assoc ..)).trans (first _)

theorem copyClass_plain (distinct : (properties.map (·.name)).Nodup) : Plain (copyClass d doc name properties) := by
  obtain ⟨same, bare, -⟩ := copyClass_members d doc name properties
  refine ⟨bare, same.symm ▸ distinct, ⟨[.pub], ?_⟩, fun i p known => ⟨doc.element? p.name, ?_⟩⟩
  · obtain ⟨more, constructors⟩ := List.head?_eq_some_iff.mp (copyClass_constructors d doc name properties)
    rw [constructors, List.find?_cons_of_pos]
    simp [ClassDef.settingConstructor, ClassDef.settable, bare]
  · rw [same] at known ⊢
    exact copyClass_withers known

end Copies

section Main
variable {cx : Context} {package : String} {calls : List Call} {s : ReplicationState} {d : Descriptor} {name : String}
  {e : Registry.Entry}

/-- What there is in the place of each property of a copy: a method named after it that takes a value of its type. It is
the method found under that name unless an earlier property has the same name but for the case of its first letter. -/
def Withers (body : ClassDef) : Prop :=
  ∀ i p, body.properties[i]? = some p → ∃ m, WitherAt body i p m ∧ m.name = "with" ++ Naming.capitalize p.name ∧
    m.parameters = [⟨p.name, p.ty⟩] ∧ m.returns = .this ∧
    ((∀ j q, body.properties[j]? = some q → j < i → Naming.capitalize q.name ≠ Naming.capitalize p.name) →
      body.methods.find? (·.name == m.name) = some m)

theorem copyClass_withers_placed (d : Descriptor) (doc : TypeDoc) (name : String) (properties : List PropertyDef) :
    Withers (copyClass d doc name properties) := by
  obtain ⟨same, -⟩ := copyClass_members d doc name properties
  intro i p known
  rw [same] at known
  have placed : (copyClass d doc name properties).methods[i]? = some (wither properties (doc.element? p.name) i p) :=
    copyClass_withers known
  refine ⟨_, ⟨same.symm ▸ known, placed⟩, rfl, rfl, rfl, ?_⟩
  intro earlier
  obtain ⟨within, -⟩ := List.getElem?_eq_some_iff.mp placed
  apply List.find?_eq_some_iff_getElem.mpr
  refine ⟨by simp, i, within, (List.getElem?_eq_some_iff.mp placed).2, ?_⟩
  intro j before
  have inside : j < properties.length := by
    obtain ⟨bound, -⟩ := List.getElem?_eq_some_iff.mp known
    omega
  have other : (copyClass d doc name properties).methods[j]? =
      some (wither properties (doc.element? properties[j].name) j properties[j]) :=
    copyClass_withers (List.getElem?_eq_getElem inside)
  have known : (copyClass d doc name properties).properties[j]? = some properties[j] := by
    rw [same, List.getElem?_eq_getElem inside]
  have different := earlier j properties[j] known before
  rw [(List.getElem?_eq_some_iff.mp other).2]
  simpa [wither] using different

/-- After whatever calls, a finished copy of a class whose properties have distinct names keeps these in order and has a
wither for each. In whatever way fields are blank at first, the constructor of the copy and its withers obey the laws of
lenses: what has been set is read, and nothing else changes; setting what is there changes nothing; the last of two
settings counts; and settings of different properties commute. -/
theorem withers_lawful (performed : Performed calls s) (alike : Alike cx package calls)
    (found : s.registry.find? name = some e) (loaded : cx.catalog.load? name = some d) (notEnum : d.isEnum = false)
    (distinct : (d.properties.map (·.name)).Nodup) :
    ∃ replica body, e.replica = some replica ∧ replica.definition = .class body [] ∧
      body.properties.map (·.name) = d.properties.map (·.name) ∧ Withers body ∧
      ∀ initial depth, Lawful (library body initial (depth + 1)) body := by
  obtain ⟨other, fits⟩ : ∃ other, Fits cx package name e other :=
    performed_fitting performed alike _ (mem_of_find? found)
  obtain rfl := Option.some.inj (loaded.symm.trans fits.loaded)
  obtain ⟨replica, made⟩ := Option.isSome_iff_exists.mp (performed.all_finished _ (mem_of_find? found))
  have copy := fits.copy replica made
  generalize e.deps = deps at copy
  cases copy with
  | enum isEnum => exact absurd isEnum (by simp [notEnum])
  | @plain doc parts converter notEnum documented whole refs converts =>
    have same : (copiedProperties doc parts).map (·.name) = d.properties.map (·.name) := by
      rw [← whole, copiedProperties, List.map_map, List.map_map]
      rfl
    have members := copyClass_members d doc (copyName package d.name) (copiedProperties doc parts)
    have plain : Plain (copyClass d doc (copyName package d.name) (copiedProperties doc parts)) :=
      copyClass_plain (same.symm ▸ distinct)
    refine ⟨_, _, made, rfl, ?_, copyClass_withers_placed d doc _ _, fun initial depth => plain.lawful initial depth⟩
    rw [members.1, same]

end Main

section Sample

/-- A class with two properties of one type, which a shift by one would swap. -/
def segment : Descriptor where
  name := "com.acme.Segment"
  properties := [{ name := "start", ty := .named "int" [] 0 }, { name := "stop", ty := .named "int" [] 0 }]
  constructors := [{ parameters := [⟨"start", .named "int" [] 0⟩, ⟨"stop", .named "int" [] 0⟩] }]

def segments : Context where
  catalog := Catalog.empty.add segment
  storedDoc _ := .ok {}

def segmentCall : Call where
  cx := segments
  package := "gen.model"
  ty := .named segment.name [] 0
  result := (outcome (segments.replicate "gen.model" (.named segment.name [] 0)) {}).1

def segmentState : ReplicationState := (outcome (segments.replicate "gen.model" (.named segment.name [] 0)) {}).2

theorem segment_turned : ∃ e replica body, segmentState.registry.find? segment.name = some e ∧ e.replica = some replica ∧
    replica.definition = .class body [] ∧ body.properties.map (·.name) = ["start", "stop"] ∧
    ∃ m, body.methods[1]? = some m ∧ m.name = "withStop" ∧ ∀ initial heap a o v, heap[a]? = some o → Instance body o →
      ∃ r, Gives (callMethod (library body initial 1) 1 m (.ref a) [v]) heap (.ref heap.length) (heap ++ [r]) ∧
        valueOf? r "stop" = some v ∧ valueOf? r "start" = valueOf? o "start" := by
  have performed : Performed [segmentCall] segmentState := .call .fresh rfl
  have alike : Alike segments "gen.model" [segmentCall] := List.forall_mem_singleton.mpr ⟨rfl, rfl⟩
  have present : (segmentState.registry.find? segment.name).isSome = true := by decide +kernel
  obtain ⟨e, found⟩ := Option.isSome_iff_exists.mp present
  have loaded : segments.catalog.load? segment.name = some segment := by rfl
  have distinct : (segment.properties.map (·.name)).Nodup := by decide
  obtain ⟨replica, body, made, isClass, named, withers, lawful⟩ := withers_lawful performed alike found loaded rfl distinct
  have names : body.properties.map (·.name) = ["start", "stop"] := named
  refine ⟨e, replica, body, found, made, isClass, names, ?_⟩
  obtain ⟨start, stop, properties⟩ : ∃ start stop, body.properties = [start, stop] := by
    apply List.length_eq_two.mp
    simpa using congrArg List.length names
  rw [properties] at names
  obtain ⟨isStart, isStop⟩ : start.name = "start" ∧ stop.name = "stop" := by simpa using names
  have first : body.properties[0]? = some start := by rw [properties]; rfl
  obtain ⟨m, place, called, -⟩ := withers 1 stop (by rw [properties]; rfl)
  rw [isStop] at called
  refine ⟨m, place.method, called, fun initial heap a o v known inside => ?_⟩
  obtain ⟨r, -, turns, set, others⟩ := (lawful initial 0).sets 1 stop m place o v inside
  rw [isStop] at set
  have kept := others 0 start first (by decide)
  rw [isStart] at kept
  exact ⟨r, turns heap a 0 known, set, kept⟩

end Sample

end PluginForge.Proofs.WitherLaws

import PluginForge.Proofs.ConverterBodies
import PluginForge.Proofs.ReplicaNames

/-! Converters undo copying. With the converters of all model types within reach at hand, a call of one turns
every finite copy back into what it is a copy of, by induction on the depth of calls. -/

namespace PluginForge.Proofs.ConverterCorrectness
open Replication Evaluation EvaluationRules ObjectTrees SourceLibrary ModelTypes ReplicationLogic RegistryEntries
open NamedEntries ReplicationInvariant ReplicaNames CollectionFilling PropertyConversion InstanceConstruction
open ConverterBodies

variable {cx : Context} {package : String} {ty : SourceType} {w : World} {owner : Nat}

/-- Each model type that a type leads to has its converter, and the classes among them can be constructed. -/
structure Equipped (cx : Context) (package : String) (ty : SourceType) (w : World) : Prop where
  catalog : w.catalog = cx.catalog
  converters : ∀ name, Reaches cx.catalog ty name → ∃ d replica deps, cx.catalog.load? name = some d ∧
    Copy cx package d replica deps ∧ w.methods.find? (·.name == converterOf name) = some replica.converter
  bindable : ∀ name d, Reaches cx.catalog ty name → cx.catalog.load? name = some d → d.isEnum = false → Bindable d

/-- A call goes only as deep as the copy it is made for. -/
theorem Equipped.serves (equipped : Equipped cx package ty w) (budget : Nat) (model : SourceType)
    (copied : w.catalog.isModel model = true) (reached : Reaches cx.catalog ty model.name) :
    Serves w package (callMethod w.library budget) owner model budget := by
  induction budget generalizing model with
  | zero =>
    obtain ⟨d, replica, deps, _, _, found⟩ := equipped.converters model.name reached
    refine ⟨replica.converter, found, fun inside heap value tree _ _ _ _ small => ?_⟩
    exact absurd tree.size_pos (Nat.not_lt.mpr small)
  | succ budget ih =>
    obtain ⟨d, replica, deps, loaded, copy, found⟩ := equipped.converters model.name reached
    refine ⟨replica.converter, found, ?_⟩
    obtain ⟨kind, copied⟩ := isModel_iff.mp copied
    obtain ⟨other, isModel, rfl⟩ := model_of_classify copied
    have same : other = d := by
      have known := isModel.loaded
      rw [← isModel.name_eq, equipped.catalog, loaded] at known
      exact (Option.some.inj known).symm
    subst same
    have sort := classify_of_modelKind? copied
    cases copy with
    | enum isEnum made =>
      rw [isEnum, if_pos rfl] at sort
      exact enum_restores isModel sort isEnum made
    | plain notEnum documented whole refs converts =>
      rw [notEnum, if_neg Bool.false_ne_true] at sort
      have bindable := equipped.bindable model.name other reached loaded notEnum
      refine plain_restores isModel sort bindable whole (fun part member => equipped.catalog ▸ refs part member) converts ?_
      intro p member inner innerCopied leads
      refine ih inner innerCopied (.property reached loaded notEnum member ?_)
      rw [← equipped.catalog]
      exact leads

/-- The methods that turn copies of a type back: the converters of all model types that it leads to. -/
def converters (r : Registry) (ty : SourceType) : List MethodDef :=
  (r.replicasOf (r.touchAll [ty.name] [])).map (·.converter)

variable {s : ReplicationState}

/-- Among converters of different names each is found under its own. -/
theorem find?_converter (reached : Reached cx package s) {names : List String} {name : String} {e : Registry.Entry}
    {replica : Replica} (distinct : ∀ other ∈ names, converterOf other = converterOf name → other = name)
    (member : name ∈ names) (found : s.registry.find? name = some e) (finished : e.replica = some replica) :
    ((s.registry.replicasOf names).map (·.converter)).find? (·.name == converterOf name) = some replica.converter := by
  have named {other : String} {entry : Registry.Entry} {copy : Replica} (known : s.registry.find? other = some entry)
      (done : entry.replica = some copy) : copy.converter.name = converterOf other := by
    obtain ⟨d, fits⟩ := reached.good.fits other entry known
    obtain ⟨same, isSame, _, _, converter, _⟩ := entry_holds reached known
    cases done.symm.trans isSame
    rw [converter, fits.converter]
  have present : replica.converter ∈ (s.registry.replicasOf names).map (·.converter) :=
    List.mem_map_of_mem ((mem_replicasOf reached.good.unique).mpr ⟨name, e, found, member, finished⟩)
  have exists_ : (((s.registry.replicasOf names).map (·.converter)).find? (·.name == converterOf name)).isSome = true :=
    List.find?_isSome.mpr ⟨replica.converter, present, beq_iff_eq.mpr (named found finished)⟩
  obtain ⟨first, isFirst⟩ := Option.isSome_iff_exists.mp exists_
  obtain ⟨copy, inside, rfl⟩ := List.mem_map.mp (List.mem_of_find?_eq_some isFirst)
  obtain ⟨other, entry, known, isNamed, done⟩ := (mem_replicasOf reached.good.unique).mp inside
  have isName : copy.converter.name = converterOf name := by simpa using List.find?_some isFirst
  have same := distinct other isNamed ((named known done).symm.trans isName)
  subst same
  cases found.symm.trans known
  cases finished.symm.trans done
  exact isFirst

theorem converters_known {e : Registry.Entry} (reached : Reached cx package s) (isModel : cx.catalog.isModel ty = true)
    (found : s.registry.find? ty.name = some e)
    (distinct : ∀ a b, Reaches cx.catalog ty a → Reaches cx.catalog ty b → converterOf a = converterOf b → a = b)
    {name : String} (leads : Reaches cx.catalog ty name) :
    ∃ entry replica, s.registry.find? name = some entry ∧ entry.replica = some replica ∧
      (converters s.registry ty).find? (·.name == converterOf name) = some replica.converter := by
  obtain ⟨kind, copied⟩ := isModel_iff.mp isModel
  have closure := touchAll_iff reached copied found
  have touching := @Good.touch cx package _ reached.again.good ty.name (by simp [found])
  have member := (closure name).mpr leads
  obtain ⟨entry, known⟩ := Option.isSome_iff_exists.mp (touching.present name member)
  obtain ⟨replica, finished⟩ := reached.finished known
  refine ⟨entry, replica, known, finished, ?_⟩
  refine find?_converter reached (fun other inside same => ?_) member known finished
  exact distinct other name ((closure other).mp inside) leads same

/-- The converter of a model type that was copied turns every finite copy back: null into null, a constant into
the original constant of its name, an object into an instance of the original class in which each property is
what the property of the copy is turned back into, and a list or set of copies element by element. Whatever
existed before stays as it was. -/
theorem converter_restores {after : ReplicationState} {ref : ReplicaRef} (reached : Reached cx package s)
    (isModel : cx.catalog.isModel ty = true) (yields : Yields (cx.replicate package ty) s ref after)
    (distinct : ∀ a b, Reaches cx.catalog ty a → Reaches cx.catalog ty b → converterOf a = converterOf b → a = b)
    (bindable : ∀ name d, Reaches cx.catalog ty name → cx.catalog.load? name = some d → d.isEnum = false → Bindable d)
    (initial : String → String → Value) (equality : Equality) :
    ∃ replica, after.registry.replica? ty.name = some replica ∧
      (converters after.registry ty).find? (·.name == converterName ty) = some replica.converter ∧
      ∀ heap owner value tree fuel, heap[owner]? = some .host → Holds (fun _ => True) heap value tree →
        IsCopy cx.catalog package ty tree → tree.size ≤ fuel →
        ∃ result final, Gives (callMethod (World.library ⟨cx.catalog, converters after.registry ty, initial, equality⟩)
            fuel replica.converter (.ref owner) [value]) heap result final ∧
          heap <+: final ∧ Holds (fun _ => True) final result (original cx.catalog equality tree ty) := by
  obtain ⟨kind, copied⟩ := isModel_iff.mp isModel
  have leads := modelOf?_model copied
  have done := replicate_copied reached.good yields
  have reachedAfter := reached.copy yields
  obtain ⟨e, found⟩ := Option.isSome_iff_exists.mp (done.good.present ty.name (done.touched _ leads))
  have equipped : Equipped cx package ty ⟨cx.catalog, converters after.registry ty, initial, equality⟩ := by
    refine ⟨rfl, fun name within => ?_, bindable⟩
    obtain ⟨entry, replica, known, finished, isConverter⟩ := converters_known reachedAfter isModel found distinct within
    obtain ⟨d, fits⟩ := done.good.fits name entry known
    exact ⟨d, replica, entry.deps, fits.loaded, fits.copy replica finished, isConverter⟩
  obtain ⟨entry, replica, known, finished, isConverter⟩ :=
    converters_known reachedAfter isModel found distinct (.here leads)
  cases found.symm.trans known
  refine ⟨replica, ?_, isConverter, ?_⟩
  · rw [Registry.replica?, found]
    exact finished
  · intro heap owner value tree fuel host holds isCopy small
    obtain ⟨converter, isFirst, restores⟩ := @Equipped.serves cx package ty _ owner equipped fuel ty isModel (.here leads)
    cases isConverter.symm.trans isFirst
    obtain ⟨result, final, gives, restored⟩ := restores (fun a => True ∧ a < heap.length) heap value tree
      (fun a within => within.2) host holds.bounded isCopy small
    exact ⟨result, final, gives, restored.grows, restored.holds.mono fun _ _ => trivial⟩

def identity : Equality where
  onTrees _ _ := false
  onValues _ _ _ := false
  agrees _ _ _ _ _ _ _ _ _ := rfl

def levels : SourceType := .named "java.util.Set" [.ofName "com.acme.Level"] 0

/-- A class that refers to itself and to a set of constants. -/
def rule : Descriptor where
  name := "com.acme.Rule"
  properties := [{ name := "next", ty := .ofName "com.acme.Rule" }, Property.addSetter { name := "levels", ty := levels }]
  constructors := [{ parameters := [⟨"next", .ofName "com.acme.Rule"⟩] }]

def rules : Context where
  catalog := ((∅ : Catalog).add { name := "com.acme.Level", kind := .enum, enumConstants := ["LOW", "HIGH"] }).add rule
  storedDoc := fun _ => .ok {}

private theorem rule_reaches {name : String} (leads : Reaches rules.catalog (.ofName "com.acme.Rule") name) :
    name = "com.acme.Rule" ∨ name = "com.acme.Level" := by
  have self : modelOf? rules.catalog (.ofName "com.acme.Rule") = some "com.acme.Rule" := by decide +kernel
  have held : modelOf? rules.catalog levels = some "com.acme.Level" := by decide +kernel
  induction leads with
  | here leads =>
    cases self.symm.trans leads
    exact .inl rfl
  | property _ loaded notEnum member leads ih =>
    rcases ih with rfl | rfl
    · cases (show rules.catalog.load? "com.acme.Rule" = some rule from rfl).symm.trans loaded
      rcases List.mem_pair.mp member with rfl | rfl
      · cases self.symm.trans leads
        exact .inl rfl
      · cases held.symm.trans leads
        exact .inr rfl
    · cases loaded
      cases notEnum

private theorem rule_distinct (a b : String) (here : Reaches rules.catalog (.ofName "com.acme.Rule") a)
    (there : Reaches rules.catalog (.ofName "com.acme.Rule") b) (same : converterOf a = converterOf b) : a = b := by
  have apart : converterOf "com.acme.Rule" ≠ converterOf "com.acme.Level" := by decide +kernel
  rcases rule_reaches here with rfl | rfl
  · rcases rule_reaches there with rfl | rfl
    · rfl
    · exact absurd same apart
  · rcases rule_reaches there with rfl | rfl
    · exact absurd same.symm apart
    · rfl

private theorem rule_bindable (name : String) (d : Descriptor)
    (leads : Reaches rules.catalog (.ofName "com.acme.Rule") name) (loaded : rules.catalog.load? name = some d)
    (notEnum : d.isEnum = false) : Bindable d := by
  rcases rule_reaches leads with rfl | rfl
  · cases (show rules.catalog.load? "com.acme.Rule" = some rule from rfl).symm.trans loaded
    refine ⟨by decide +kernel, by decide +kernel, by decide +kernel, fun _ p member => ?_⟩
    rcases List.mem_pair.mp member with rfl | rfl
    · exact .inl ⟨_, rfl, by decide⟩
    · exact .inr (.inl rfl)
  · cases loaded
    cases notEnum

def ruleHeap : Heap :=
  [.host, .object .copy (copyName "gen.model" "com.acme.Rule") [("next", .null), ("levels", .ref 2)],
    .collection .set [.constant (copyName "gen.model" "com.acme.Level") "LOW"]]

def ruleCopy : ObjectTree :=
  .object .copy (copyName "gen.model" "com.acme.Rule") [("next", .null),
    ("levels", .collection .set [.leaf (.constant (copyName "gen.model" "com.acme.Level") "LOW")])]

private theorem ruleCopy_holds : Holds (fun _ => True) ruleHeap (.ref 1) ruleCopy := by
  refine .object trivial rfl rfl fun name value tree isValue isField => ?_
  have value := mem_of_lookup isValue
  have field := mem_of_lookup isField
  rcases List.mem_pair.mp value with same | same <;> cases same
  · rcases List.mem_pair.mp field with same | same
    · cases same
      exact .null
    · simp at same
  · rcases List.mem_pair.mp field with same | same
    · simp at same
    · cases same
      refine .collection trivial rfl rfl fun pair member => ?_
      cases List.mem_singleton.mp member
      exact .leaf fun a reference => nomatch reference

private theorem ruleCopy_isCopy : IsCopy rules.catalog "gen.model" (.ofName "com.acme.Rule") ruleCopy := by
  have isPlain : rules.catalog.classify (.ofName "com.acme.Rule") = .plain :=
    @classify_of_modelKind? _ _ rule (by decide +kernel)
  have isEnum : rules.catalog.classify (.ofName "com.acme.Level") = .enum := rfl
  refine .object isPlain rfl rfl fun name tree member => ?_
  rcases List.mem_pair.mp member with same | same <;> cases same
  · exact .null
  · refine @IsCopy.collection _ _ _ (.ofName "com.acme.Level") .set _ _ rfl (by decide +kernel) fun tree member => ?_
    cases List.mem_singleton.mp member
    exact .constant isEnum rfl (by decide)

theorem rule_restored : ∃ ref after replica result final,
    Yields (rules.replicate "gen.model" (.ofName "com.acme.Rule")) {} ref after ∧
    after.registry.replica? "com.acme.Rule" = some replica ∧
    Gives (callMethod (World.library ⟨rules.catalog, converters after.registry (.ofName "com.acme.Rule"), fun _ _ => .null,
      identity⟩) 6 replica.converter (.ref 0) [.ref 1]) ruleHeap result final ∧
    Holds (fun _ => True) final result (.object .source "com.acme.Rule" [("next", .null),
      ("levels", .collection .set [.leaf (.constant "com.acme.Level" "LOW")])]) := by
  have copied : (outcome (rules.replicate "gen.model" (.ofName "com.acme.Rule")) {}).1.isOk = true := by decide +kernel
  obtain ⟨ref, after, yields⟩ : ∃ ref after, Yields (rules.replicate "gen.model" (.ofName "com.acme.Rule")) {} ref after := by
    cases run : outcome (rules.replicate "gen.model" (.ofName "com.acme.Rule")) {} with
    | mk outcome after =>
      rw [run] at copied
      cases outcome with
      | error e => cases copied
      | ok ref => exact ⟨ref, after, run⟩
  obtain ⟨replica, found, _, restores⟩ := converter_restores .fresh (by decide +kernel) yields rule_distinct rule_bindable
    (fun _ _ => .null) identity
  obtain ⟨result, final, gives, _, holds⟩ := restores ruleHeap 0 (.ref 1) ruleCopy 6 rfl ruleCopy_holds ruleCopy_isCopy
    (by decide)
  exact ⟨ref, after, replica, result, final, yields, found, gives, holds⟩

end PluginForge.Proofs.ConverterCorrectness

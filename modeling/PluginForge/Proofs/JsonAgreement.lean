import PluginForge.Code.Json
import PluginForge.Proofs.JsonPrinting
import PluginForge.Proofs.NamedEntries

/-! JSON values that agree. The order of the keys in an object does not count, so what is encoded is told apart by the
names of the forms and by what stands under each key. -/

namespace PluginForge.Proofs.JsonAgreement
open Json JsonPrinting NamedEntries

/-- The values are the same where the order of the keys in an object does not count. -/
inductive Alike : Json → Json → Prop where
  | null : Alike .null .null
  | bool (value : Bool) : Alike (.bool value) (.bool value)
  | int (value : Int) : Alike (.int value) (.int value)
  | decimal (spelling : String) : Alike (.decimal spelling) (.decimal spelling)
  | str (text : String) : Alike (.str text) (.str text)
  | unpaired : Alike .unpaired .unpaired
  | arr {items others : List Json} (same : items.length = others.length)
      (each : ∀ pair ∈ items.zip others, Alike pair.1 pair.2) : Alike (.arr items) (.arr others)
  | obj {pairs others : List (String × Json)}
      (keys : ∀ key, (find? key (.obj pairs)).isSome = (find? key (.obj others)).isSome)
      (under : ∀ key value other, find? key (.obj pairs) = some value → find? key (.obj others) = some other →
        Alike value other) : Alike (.obj pairs) (.obj others)

/-- The values of the pairs agree, place by place. -/
def InOrder : List (String × Json) → List (String × Json) → Prop
  | pair :: pairs, other :: others => Alike pair.2 other.2 ∧ InOrder pairs others
  | _, _ => True

/-- The value is a form of that name: the bare name, or an object with it among the keys. -/
def HasTag : Json → String → Prop
  | .str word, tag => word = tag
  | .obj pairs, tag => (find? tag (.obj pairs)).isSome = true
  | _, _ => False

theorem find?_mem {pairs : List (String × Json)} {key : String} {value : Json}
    (found : find? key (.obj pairs) = some value) : (key, value) ∈ pairs := List.mem_reverse.mp (mem_of_lookup found)

theorem find?_of_mem {pairs : List (String × Json)} (distinct : (pairs.map (·.1)).Nodup) {pair : String × Json}
    (member : pair ∈ pairs) : find? pair.1 (.obj pairs) = some pair.2 := by
  have backwards : (pairs.reverse.map (·.1)).Nodup := by rwa [List.map_reverse, List.nodup_reverse]
  exact lookup_of_nodup backwards (List.mem_reverse.mpr member)

theorem eq_of_mem_zip {α : Type} {items : List α} {pair : α × α} (member : pair ∈ items.zip items) : pair.1 = pair.2 := by
  induction items with
  | nil => cases member
  | cons item rest ih =>
    rcases List.mem_cons.mp member with rfl | member
    · rfl
    · exact ih member

namespace Alike
variable {value other : Json} {items others : List Json}

theorem of_eq (exact : Exact value) (same : value = other) : Alike value other := by
  subst same
  induction exact with
  | null => exact .null
  | bool value => exact .bool value
  | int value => exact .int value
  | str text => exact .str text
  | arr each ih =>
    refine .arr rfl fun pair member => ?_
    rw [← eq_of_mem_zip member]
    exact ih pair.1 (List.of_mem_zip member).1
  | obj each ih =>
    refine .obj (fun _ => rfl) fun key value other found again => ?_
    cases found.symm.trans again
    exact ih (key, value) (find?_mem found)

theorem str_eq {text text' : String} (alike : Alike (.str text) (.str text')) : text = text' := by
  cases alike
  rfl

theorem int_eq {n m : Int} (alike : Alike (.int n) (.int m)) : n = m := by
  cases alike
  rfl

theorem bool_eq {value value' : Bool} (alike : Alike (.bool value) (.bool value')) : value = value' := by
  cases alike
  rfl

theorem hasTag {tag : String} (alike : Alike value other) (has : HasTag value tag) : HasTag other tag := by
  cases alike with
  | str text => exact has
  | obj keys under => exact (keys tag).symm.trans has
  | _ => cases has

theorem content {tag : String} (alike : Alike (tagged tag value) (tagged tag other)) : Alike value other := by
  cases alike with
  | obj keys under => exact under tag value other (by simp [find?]) (by simp [find?])

theorem head {item other : Json} (alike : Alike (.arr (item :: items)) (.arr (other :: others))) : Alike item other := by
  cases alike with
  | arr same each => exact each (item, other) (by simp)

theorem tail {item other : Json} (alike : Alike (.arr (item :: items)) (.arr (other :: others))) :
    Alike (.arr items) (.arr others) := by
  cases alike with
  | arr same each => exact .arr (by simpa using same) fun pair member => each pair (List.mem_cons_of_mem _ member)

theorem length_eq (alike : Alike (.arr items) (.arr others)) : items.length = others.length := by
  cases alike with
  | arr same each => exact same

/-- What stands under one key in two objects agrees. -/
theorem under {pairs pairs' : List (String × Json)} {key : String} (alike : Alike (.obj pairs) (.obj pairs'))
    (found : find? key (.obj pairs) = some value) (found' : find? key (.obj pairs') = some other) : Alike value other := by
  cases alike with
  | obj _ under => exact under key value other found found'

theorem inOrder {pairs pairs' some others : List (String × Json)} (alike : Alike (.obj pairs) (.obj pairs'))
    (keys : some.map (·.1) = others.map (·.1)) (first : ∀ pair ∈ some, find? pair.1 (.obj pairs) = pair.2)
    (second : ∀ pair ∈ others, find? pair.1 (.obj pairs') = pair.2) : InOrder some others := by
  induction some generalizing others with
  | nil =>
    cases others with
    | nil => trivial
    | cons other others => cases keys
  | cons pair rest ih =>
    cases others with
    | nil => cases keys
    | cons other others =>
      obtain ⟨key, keys⟩ : pair.1 = other.1 ∧ rest.map (·.1) = others.map (·.1) := List.cons.inj keys
      obtain ⟨found, more⟩ := List.forall_mem_cons.mp first
      obtain ⟨found', more'⟩ := List.forall_mem_cons.mp second
      exact ⟨alike.under found (key ▸ found'), ih keys more more'⟩

/-- Objects of one shape agree pair by pair. -/
theorem values {pairs pairs' : List (String × Json)} (alike : Alike (.obj pairs) (.obj pairs'))
    (keys : pairs.map (·.1) = pairs'.map (·.1)) (distinct : (pairs.map (·.1)).Nodup) : InOrder pairs pairs' :=
  alike.inOrder keys (fun _ => find?_of_mem distinct) fun _ => find?_of_mem (keys ▸ distinct)

end Alike

section Containers
variable {α : Type} {encode : α → Json}

theorem ofList_eq {items others : List α} (each : ∀ x ∈ items, ∀ y, Alike (encode x) (encode y) → x = y)
    (alike : Alike (ofList encode items) (ofList encode others)) : items = others := by
  induction items generalizing others with
  | nil =>
    cases others with
    | nil => rfl
    | cons y others => cases alike.length_eq
  | cons x items ih =>
    cases others with
    | nil => cases alike.length_eq
    | cons y others =>
      obtain ⟨first, more⟩ := List.forall_mem_cons.mp each
      rw [first y alike.head, ih more alike.tail]

theorem ofOption_eq {value other : Option α} (tags : ∀ x, ∃ tag, HasTag (encode x) tag)
    (each : ∀ x, value = some x → ∀ y, Alike (encode x) (encode y) → x = y)
    (alike : Alike (ofOption encode value) (ofOption encode other)) : value = other := by
  cases value with
  | none =>
    cases other with
    | none => rfl
    | some y =>
      obtain ⟨tag, has⟩ := tags y
      change Alike .null (encode y) at alike
      generalize encode y = encoded at alike has
      cases alike
      exact has.elim
  | some x =>
    cases other with
    | none =>
      obtain ⟨tag, has⟩ := tags x
      cases alike.hasTag has
    | some y => rw [each x rfl y alike]

theorem hasTag_tagged {tag other : String} {content : Json} : HasTag (tagged tag content) other ↔ tag = other := by
  simp only [tagged, HasTag, find?, List.reverse_singleton, List.lookup_cons]
  by_cases same : tag = other
  · simp [same]
  · simp [same, beq_eq_false_iff_ne.mpr (Ne.symm same)]

/-- Forms that are alike have one tag. -/
theorem tag_eq {tagOf : α → String} (has : ∀ x tag, HasTag (encode x) tag ↔ tagOf x = tag) {x y : α}
    (alike : Alike (encode x) (encode y)) : tagOf x = tagOf y :=
  ((has y _).mp (alike.hasTag ((has x _).mpr rfl))).symm

theorem exact_nil : Exact (.obj []) := .obj (List.forall_mem_nil _)

theorem exact_cons {key : String} {value : Json} {pairs : List (String × Json)} (first : Exact value)
    (rest : Exact (.obj pairs)) : Exact (.obj ((key, value) :: pairs)) := by
  cases rest with
  | obj each => exact .obj (List.forall_mem_cons.mpr ⟨first, each⟩)

theorem exact_tagged {tag : String} {content : Json} (exact : Exact content) : Exact (tagged tag content) :=
  exact_cons exact exact_nil

theorem exact_ofList {items : List α} (each : ∀ x ∈ items, Exact (encode x)) : Exact (ofList encode items) :=
  .arr (List.forall_mem_map.mpr each)

theorem exact_ofOption {value : Option α} (each : ∀ x, value = some x → Exact (encode x)) :
    Exact (ofOption encode value) := by
  cases value with
  | none => exact .null
  | some x => exact each x rfl

end Containers

end PluginForge.Proofs.JsonAgreement

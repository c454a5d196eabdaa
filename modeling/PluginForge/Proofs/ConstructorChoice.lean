import Mathlib.Data.List.Perm.Basic
import PluginForge.Proofs.CalledConstructors

/-! The choice of a constructor. Where the constructors that are not private differ in the names of their parameters and at
most one of them is marked, which one is chosen is told by what they are, so neither their order nor any private ones
beside them matter. -/

namespace PluginForge.Proofs.ConstructorChoice
open NamedEntries CalledConstructors

/-- The constructors that are not private. -/
def shown (constructors : List SourceConstructor) : List SourceConstructor := constructors.filter (·.visibility != .priv)

def parameterNames (c : SourceConstructor) : List String := c.parameters.map (·.name)

/-- There are candidates, at most one of them is marked, and they differ in the names of their parameters. -/
structure Unambiguous (candidates : List SourceConstructor) : Prop where
  present : candidates ≠ []
  marked : (candidates.filter (·.primary)).length ≤ 1
  distinct : (candidates.map parameterNames).Nodup

/-- The candidate that generated code calls, whatever its place: the one that is marked; where none is, a record's canonical
one, and in another type the only one or the one without parameters. -/
inductive Chosen (d : Descriptor) (candidates : List SourceConstructor) (c : SourceConstructor) : Prop where
  | marked (member : c ∈ candidates) (mark : c.primary = true)
  | canonical (member : c ∈ candidates) (unmarked : ∀ other ∈ candidates, other.primary = false)
      (record : d.isRecord = true) (components : parameterNames c = d.properties.map (·.name))
  | only (member : c ∈ candidates) (unmarked : ∀ other ∈ candidates, other.primary = false)
      (bean : d.isRecord = false) (alone : ∀ other ∈ candidates, other = c)
  | bare (member : c ∈ candidates) (unmarked : ∀ other ∈ candidates, other.primary = false)
      (bean : d.isRecord = false) (bare : c.parameters = [])

theorem unambiguous_iff (candidates : List SourceConstructor) : Unambiguous candidates ↔ candidates.isEmpty = false ∧
    (candidates.filter (·.primary)).length ≤ 1 ∧ (candidates.map parameterNames).Nodup := by
  rw [List.isEmpty_eq_false_iff]
  exact ⟨fun all => ⟨all.present, all.marked, all.distinct⟩, fun ⟨present, marked, distinct⟩ => ⟨present, marked, distinct⟩⟩

instance (candidates : List SourceConstructor) : Decidable (Unambiguous candidates) :=
  decidable_of_iff _ (unambiguous_iff candidates).symm

section Candidates
variable {candidates others : List SourceConstructor} {c other : SourceConstructor}

theorem Unambiguous.perm (unambiguous : Unambiguous candidates) (perm : others.Perm candidates) : Unambiguous others where
  present := fun none => unambiguous.present (List.nil_perm.mp (none ▸ perm))
  marked := by
    rw [(perm.filter _).length_eq]
    exact unambiguous.marked
  distinct := (perm.map parameterNames).nodup_iff.mpr unambiguous.distinct

theorem Unambiguous.eq_of_marked (unambiguous : Unambiguous candidates) (member : c ∈ candidates) (mark : c.primary = true)
    (otherMember : other ∈ candidates) (otherMark : other.primary = true) : other = c := by
  have here : c ∈ candidates.filter (·.primary) := List.mem_filter.mpr ⟨member, mark⟩
  have there : other ∈ candidates.filter (·.primary) := List.mem_filter.mpr ⟨otherMember, otherMark⟩
  obtain ⟨only, single⟩ := List.length_eq_one_iff.mp (Nat.le_antisymm unambiguous.marked (List.length_pos_of_mem here))
  rw [single, List.mem_singleton] at here there
  exact there.trans here.symm

theorem Unambiguous.eq_of_names (unambiguous : Unambiguous candidates) (member : c ∈ candidates)
    (otherMember : other ∈ candidates) (same : parameterNames other = parameterNames c) : other = c :=
  List.inj_on_of_nodup_map unambiguous.distinct otherMember member same

theorem Unambiguous.eq_singleton (unambiguous : Unambiguous candidates) (member : c ∈ candidates)
    (alone : ∀ other ∈ candidates, other = c) : candidates = [c] := by
  have once : candidates.Nodup := List.Nodup.of_map _ unambiguous.distinct
  refine List.perm_singleton.mp ((List.perm_ext_iff_of_nodup once (List.nodup_singleton c)).mpr fun other => ?_)
  rw [List.mem_singleton]
  exact ⟨alone other, fun same => same ▸ member⟩

/-- Private constructors that come or go and another order of the rest leave the same candidates. -/
theorem shown_perm {constructors rest added removed : List SourceConstructor}
    (hidden : ∀ c ∈ added ++ removed, c.visibility = .priv) (perm : (rest ++ removed).Perm (constructors ++ added)) :
    (shown rest).Perm (shown constructors) := by
  have unseen {cs : List SourceConstructor} (all : ∀ c ∈ cs, c.visibility = .priv) : shown cs = [] :=
    List.filter_eq_nil_iff.mpr fun c member => by simp [all c member]
  obtain ⟨addedHidden, removedHidden⟩ := List.forall_mem_append.mp hidden
  have seen : (shown rest ++ shown removed).Perm (shown constructors ++ shown added) := by
    rw [shown, shown, shown, shown, ← List.filter_append, ← List.filter_append]
    exact perm.filter _
  rwa [unseen removedHidden, unseen addedHidden, List.append_nil, List.append_nil] at seen

end Candidates

section Choice
variable {d : Descriptor} {c : SourceConstructor}

/-- Where there are candidates, the type declares constructors. -/
theorem primaryConstructor?_eq (present : shown d.constructors ≠ []) :
    d.primaryConstructor? =
      match (shown d.constructors).find? (·.primary) with
      | some c => some c
      | none =>
        if d.isRecord then (shown d.constructors).find? d.isCanonical
        else match shown d.constructors with
          | [only] => some only
          | _ => (shown d.constructors).find? (·.parameters.isEmpty) := by
  have declared : d.constructors.isEmpty = false := by
    cases none : d.constructors with
    | nil => exact absurd (by rw [none]; rfl) present
    | cons first rest => rfl
  rw [Descriptor.primaryConstructor?, declared]
  rfl

theorem primaryConstructor?_unmarked (present : shown d.constructors ≠ [])
    (unmarked : ∀ other ∈ shown d.constructors, other.primary = false) :
    d.primaryConstructor? =
      if d.isRecord then (shown d.constructors).find? d.isCanonical
      else match shown d.constructors with
        | [only] => some only
        | _ => (shown d.constructors).find? (·.parameters.isEmpty) := by
  rw [primaryConstructor?_eq present, List.find?_eq_none.mpr (by simpa using unmarked)]

theorem chosen_of_primary (present : shown d.constructors ≠ []) (primary : d.primaryConstructor? = some c) :
    Chosen d (shown d.constructors) c := by
  rw [primaryConstructor?_eq present] at primary
  split at primary
  next marked found =>
    cases primary
    exact .marked (List.mem_of_find?_eq_some found) (List.find?_some found)
  next none =>
    have unmarked : ∀ other ∈ shown d.constructors, other.primary = false := by simpa using none
    split at primary
    next record =>
      have components := isCanonical_iff.mp (List.find?_some primary)
      exact .canonical (List.mem_of_find?_eq_some primary) unmarked record components
    next bean =>
      rw [Bool.not_eq_true] at bean
      split at primary
      next only single =>
        cases primary
        rw [single] at unmarked ⊢
        exact .only (List.mem_singleton_self _) unmarked bean fun _ member => List.mem_singleton.mp member
      next =>
        have bare : c.parameters.isEmpty = true := (List.find?_some primary :)
        exact .bare (List.mem_of_find?_eq_some primary) unmarked bean (List.isEmpty_iff.mp bare)

theorem primary_of_chosen (unambiguous : Unambiguous (shown d.constructors)) (chosen : Chosen d (shown d.constructors) c) :
    d.primaryConstructor? = some c := by
  cases chosen with
  | marked member mark =>
    rw [primaryConstructor?_eq unambiguous.present,
      find?_of_only member mark fun other otherMember => unambiguous.eq_of_marked member mark otherMember]
  | canonical member unmarked record components =>
    rw [primaryConstructor?_unmarked unambiguous.present unmarked, if_pos record]
    refine find?_of_only member (isCanonical_iff.mpr components) fun other otherMember canonical => ?_
    exact unambiguous.eq_of_names member otherMember ((isCanonical_iff.mp canonical).trans components.symm)
  | only member unmarked bean alone =>
    rw [primaryConstructor?_unmarked unambiguous.present unmarked, if_neg (Bool.eq_false_iff.mp bean),
      unambiguous.eq_singleton member alone]
  | bare member unmarked bean bare =>
    rw [primaryConstructor?_unmarked unambiguous.present unmarked, if_neg (Bool.eq_false_iff.mp bean)]
    split
    next only single =>
      rw [single, List.mem_singleton] at member
      rw [member]
    next =>
      refine find?_of_only member (List.isEmpty_iff.mpr bare) fun other otherMember otherBare => ?_
      refine unambiguous.eq_of_names member otherMember ?_
      rw [parameterNames, List.isEmpty_iff.mp otherBare, parameterNames, bare]

theorem primaryConstructor?_iff (unambiguous : Unambiguous (shown d.constructors)) :
    d.primaryConstructor? = some c ↔ Chosen d (shown d.constructors) c :=
  ⟨chosen_of_primary unambiguous.present, primary_of_chosen unambiguous⟩

/-- What is chosen depends on which candidates there are. -/
theorem Chosen.among {candidates others : List SourceConstructor} (same : ∀ other, other ∈ others ↔ other ∈ candidates)
    (constructors : List SourceConstructor) (chosen : Chosen d candidates c) :
    Chosen { d with constructors } others c := by
  have each {P : SourceConstructor → Prop} (all : ∀ other ∈ candidates, P other) : ∀ other ∈ others, P other :=
    fun other member => all other ((same other).mp member)
  cases chosen with
  | marked member mark => exact .marked ((same c).mpr member) mark
  | canonical member unmarked record components =>
    exact .canonical ((same c).mpr member) (each unmarked) record components
  | only member unmarked bean alone => exact .only ((same c).mpr member) (each unmarked) bean (each alone)
  | bare member unmarked bean bare => exact .bare ((same c).mpr member) (each unmarked) bean bare

theorem primaryConstructor?_perm (unambiguous : Unambiguous (shown d.constructors)) {constructors : List SourceConstructor}
    (perm : (shown constructors).Perm (shown d.constructors)) :
    ({ d with constructors } : Descriptor).primaryConstructor? = d.primaryConstructor? := by
  ext c
  rw [primaryConstructor?_iff (unambiguous.perm perm), primaryConstructor?_iff unambiguous]
  exact ⟨Chosen.among (fun _ => perm.mem_iff.symm) d.constructors, Chosen.among (fun _ => perm.mem_iff) constructors⟩

theorem visible_of_primary (primary : d.primaryConstructor? = some c) : c.visibility ≠ .priv := by
  rcases chosen_cases primary with ⟨-, rfl⟩ | ⟨-, seen⟩
  · exact nofun
  · exact seen

/-- A private constructor is never chosen. Between unambiguous candidates the choice is told by what they are, and it is the
same, also where nothing is chosen, when constructors change places and private ones are added and removed. -/
theorem choice_blind_to_order (d : Descriptor) :
    (∀ c, d.primaryConstructor? = some c → c.visibility ≠ .priv) ∧
    (Unambiguous (shown d.constructors) →
      (∀ c, d.primaryConstructor? = some c ↔ Chosen d (shown d.constructors) c) ∧
      ∀ constructors added removed, (∀ c ∈ added ++ removed, c.visibility = .priv) →
        (constructors ++ removed).Perm (d.constructors ++ added) →
        ({ d with constructors } : Descriptor).primaryConstructor? = d.primaryConstructor?) := by
  refine ⟨fun c => visible_of_primary, fun unambiguous => ⟨fun c => primaryConstructor?_iff unambiguous, ?_⟩⟩
  intro constructors added removed hidden perm
  exact primaryConstructor?_perm unambiguous (shown_perm hidden perm)

/-- Makes an archive of nothing. -/
def emptyArchive : SourceConstructor := { visibility := .prot }

/-- A class that keeps the constructor that is marked to itself. -/
def archive : Descriptor where
  name := "com.acme.Archive"
  constructors := [{ parameters := [⟨"folder", .ofName "java.io.File"⟩], visibility := .priv, primary := true },
    { parameters := [⟨"folder", .ofName "java.io.File"⟩, ⟨"level", .ofName "int"⟩] }, emptyArchive]

/-- The private constructor goes, another one that takes nothing comes, and the rest change places. -/
theorem archive_rearranged : Unambiguous (shown archive.constructors) ∧
    archive.primaryConstructor? = some emptyArchive ∧ emptyArchive.visibility ≠ .priv ∧
    ({ archive with constructors := { visibility := .priv } :: archive.constructors.tail.reverse } :
      Descriptor).primaryConstructor? = archive.primaryConstructor? := by
  have unambiguous : Unambiguous (shown archive.constructors) := by decide
  obtain ⟨visible, told⟩ := choice_blind_to_order archive
  obtain ⟨-, same⟩ := told unambiguous
  refine ⟨unambiguous, rfl, visible _ rfl, same _ [{ visibility := .priv }] (archive.constructors.take 1) (by decide) ?_⟩
  exact List.reverse_perm (archive.constructors ++ [{ visibility := .priv }])

end Choice

end PluginForge.Proofs.ConstructorChoice

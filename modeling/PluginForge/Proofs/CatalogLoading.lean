import Mathlib.Data.List.Induction
import Mathlib.Data.List.Nodup
import Mathlib.Data.List.Sort
import PluginForge.Descriptor.Catalog
import PluginForge.Proofs.ByteOrder
import PluginForge.Proofs.NamedEntries

/-! Loading a list of descriptors. Either every descriptor is found again under its own name, or the first one whose name came
before is reported. A catalog stands in the order of the names, so it does not show the order that it was loaded in. -/

namespace PluginForge.Proofs.CatalogLoading
open ByteOrder

def names (types : List Descriptor) : List String := types.map (·.name)

/-- The first descriptor in a list whose name occurred earlier. -/
def FirstClash (types : List Descriptor) (d : Descriptor) : Prop :=
  ∃ before after, types = before ++ d :: after ∧ (names before).Nodup ∧ d.name ∈ names before

/-- A catalog of exactly the listed descriptors, in the order of the bytes of their names. -/
structure Provides (catalog : Catalog) (types : List Descriptor) : Prop where
  present : ∀ d ∈ types, catalog.load? d.name = some d
  absent : ∀ name ∉ names types, catalog.load? name = none
  size : catalog.size = types.length
  once : catalog.toList.Perm types
  ordered : catalog.toList.Pairwise fun a b => bytes a.name < bytes b.name

section Clashes
variable {types : List Descriptor} {d : Descriptor}

theorem FirstClash.not_nodup (clash : FirstClash types d) : ¬ (names types).Nodup := by
  obtain ⟨before, after, rfl, -, earlier⟩ := clash
  intro distinct
  rw [names, List.map_append, List.nodup_append] at distinct
  exact distinct.2.2 d.name earlier d.name (by simp) rfl

/-- Distinct names, or a first one that came before. -/
theorem nodup_or_firstClash (types : List Descriptor) : (names types).Nodup ∨ ∃ d, FirstClash types d := by
  induction types using List.reverseRecOn with
  | nil => exact .inl List.nodup_nil
  | append_singleton before d ih =>
    rcases ih with distinct | ⟨e, early, late, rfl, distinct, earlier⟩
    · by_cases seen : d.name ∈ names before
      · exact .inr ⟨d, before, [], rfl, distinct, seen⟩
      · refine .inl ?_
        rw [names, List.map_append, List.nodup_append]
        refine ⟨distinct, List.nodup_singleton _, fun name earlier other isLast => ?_⟩
        obtain rfl := List.mem_singleton.mp isLast
        rintro rfl
        exact seen earlier
    · exact .inr ⟨e, early, late ++ [d], by simp, distinct, earlier⟩

end Clashes

section Catalogs
variable {catalog other : Catalog} {d : Descriptor} {name : String}

theorem keys_eq (catalog : Catalog) : catalog.classes.entries.map (·.1) = names catalog.toList := by
  rw [names, Catalog.toList, KeyMap.values, List.map_map]
  exact List.map_congr_left catalog.keyed

theorem names_sorted (catalog : Catalog) : catalog.toList.Pairwise fun a b => a.name < b.name := by
  have sorted := List.pairwise_map.mpr catalog.classes.sorted
  rwa [keys_eq, names, List.pairwise_map] at sorted

theorem names_nodup (catalog : Catalog) : (names catalog.toList).Nodup :=
  List.pairwise_map.mpr ((names_sorted catalog).imp fun before => String.ne_of_lt before)

theorem entries_eq (catalog : Catalog) : catalog.classes.entries = catalog.toList.map fun d => (d.name, d) := by
  rw [Catalog.toList, KeyMap.values, List.map_map]
  refine (List.map_id _).symm.trans (List.map_congr_left fun entry member => ?_)
  exact Prod.ext (catalog.keyed entry member) rfl

/-- A catalog is the list of its descriptors. -/
theorem eq_of_toList (same : catalog.toList = other.toList) : catalog = other := by
  have entries : catalog.classes = other.classes := KeyMap.ext (by rw [entries_eq, entries_eq, same])
  cases catalog
  cases other
  cases entries
  rfl

theorem load?_of_mem (member : d ∈ catalog.toList) : catalog.load? d.name = some d := by
  refine NamedEntries.lookup_of_nodup ?_ ?_
  · rw [keys_eq]
    exact names_nodup catalog
  · rw [entries_eq]
    exact List.mem_map_of_mem member

theorem load?_eq_none_iff : catalog.load? name = none ↔ name ∉ names catalog.toList := by
  rw [← keys_eq]
  refine ⟨fun missing member => ?_, NamedEntries.lookup_of_notMem⟩
  obtain ⟨d, found⟩ := NamedEntries.lookup_of_mem member
  exact absurd (found.symm.trans missing) (Option.some_ne_none d)

end Catalogs

section Additions
variable {catalog full : Catalog} {types : List Descriptor} {d : Descriptor}

theorem insertEntry_perm {α : Type} {key : String} {value : α} {entries : List (String × α)}
    (fresh : key ∉ entries.map (·.1)) : (insertEntry key value entries).Perm ((key, value) :: entries) := by
  induction entries with
  | nil => rfl
  | cons head rest ih =>
    obtain ⟨present, old⟩ := head
    have other : key ≠ present := List.ne_of_not_mem_cons fresh
    rw [insertEntry]
    split
    next => rfl
    next notBefore =>
      rw [if_pos (lt_of_le_of_ne (String.not_lt.mp notBefore) other.symm)]
      exact ((ih (List.not_mem_of_not_mem_cons fresh)).cons _).trans (List.Perm.swap ..)

/-- A descriptor of a new name is added and nothing is lost. -/
theorem add_perm (missing : catalog.load? d.name = none) : (catalog.add d).toList.Perm (d :: catalog.toList) := by
  have fresh : d.name ∉ catalog.classes.entries.map (·.1) := keys_eq catalog ▸ load?_eq_none_iff.mp missing
  exact (insertEntry_perm fresh).map Prod.snd

/-- Adding goes on over distinct new names and ends with all descriptors. -/
theorem addAll_perm (distinct : (names (catalog.toList ++ types)).Nodup) :
    ∃ full, catalog.addAll types = .ok full ∧ full.toList.Perm (catalog.toList ++ types) := by
  induction types generalizing catalog with
  | nil => exact ⟨catalog, rfl, by rw [List.append_nil]⟩
  | cons d types ih =>
    have missing : catalog.load? d.name = none := by
      rw [names, List.map_append, List.nodup_append] at distinct
      exact load?_eq_none_iff.mpr fun earlier => distinct.2.2 d.name earlier d.name (by simp) rfl
    have moved : ((catalog.add d).toList ++ types).Perm (catalog.toList ++ d :: types) :=
      ((add_perm missing).append_right types).trans List.perm_middle.symm
    obtain ⟨full, added, all⟩ := ih ((moved.map _).nodup_iff.mpr distinct)
    refine ⟨full, ?_, all.trans moved⟩
    rw [Catalog.addAll, missing]
    exact added

theorem addAll_append {before after : List Descriptor} (added : catalog.addAll before = .ok full) :
    catalog.addAll (before ++ after) = full.addAll after := by
  induction before generalizing catalog with
  | nil =>
    cases added
    rfl
  | cons d before ih =>
    rw [Catalog.addAll] at added
    rw [List.cons_append, Catalog.addAll]
    split at added
    next => cases added
    next missing => rw [if_neg missing, ih added]

/-- Adding stops at the first name that is there already. -/
theorem addAll_stops {before after : List Descriptor} (distinct : (names (catalog.toList ++ before)).Nodup)
    (earlier : d.name ∈ names (catalog.toList ++ before)) :
    catalog.addAll (before ++ d :: after) = .error (.duplicateType d.name) := by
  obtain ⟨full, added, all⟩ := addAll_perm distinct
  have known : (full.load? d.name).isSome := by
    rw [Option.isSome_iff_ne_none, Ne, load?_eq_none_iff, not_not]
    exact (all.map _).mem_iff.mpr earlier
  rw [addAll_append added, Catalog.addAll, if_pos known]

end Additions

section Lists
variable {types : List Descriptor} {catalog : Catalog} {d : Descriptor}

theorem ofList_stops (clash : FirstClash types d) : Catalog.ofList types = .error (.duplicateType d.name) := by
  obtain ⟨before, after, rfl, distinct, earlier⟩ := clash
  exact addAll_stops distinct earlier

theorem ofList_perm (distinct : (names types).Nodup) : ∃ catalog, Catalog.ofList types = .ok catalog ∧ catalog.toList.Perm types :=
  addAll_perm distinct

theorem nodup_of_ofList (loaded : Catalog.ofList types = .ok catalog) : (names types).Nodup := by
  rcases nodup_or_firstClash types with distinct | ⟨d, clash⟩
  · exact distinct
  · cases (ofList_stops clash).symm.trans loaded

theorem provides (loaded : Catalog.ofList types = .ok catalog) : Provides catalog types := by
  obtain ⟨full, isFull, all⟩ := ofList_perm (nodup_of_ofList loaded)
  obtain rfl := Except.ok.inj (isFull.symm.trans loaded)
  exact {
    present := fun d member => load?_of_mem (all.mem_iff.mpr member)
    absent := fun name missing => load?_eq_none_iff.mpr fun member => missing ((all.map _).mem_iff.mp member)
    size := by
      rw [← all.length_eq, Catalog.toList, KeyMap.values, List.length_map]
      rfl
    once := all
    ordered := (names_sorted full).imp fun before => bytes_lt before }

/-- There is one order of the names. -/
theorem eq_of_perm {first second : Catalog} (all : first.toList.Perm second.toList) : first = second :=
  eq_of_toList (all.eq_of_pairwise (fun _ _ _ _ before after => absurd after (String.lt_asymm before))
    (names_sorted first) (names_sorted second))

theorem ofList_perm_eq {other : List Descriptor} (loaded : Catalog.ofList types = .ok catalog) (all : other.Perm types) :
    Catalog.ofList other = .ok catalog := by
  obtain ⟨full, isFull, permuted⟩ := ofList_perm ((all.map _).nodup_iff.mpr (nodup_of_ofList loaded))
  rw [isFull, eq_of_perm (permuted.trans (all.trans (provides loaded).once.symm))]

/-- Loading stops at the first name that occurred earlier, and only there. Without one, every descriptor is found under its
name and nothing else is, the listing has each of them once in the order of the bytes of their names, and the order in
which they were given makes no difference. -/
theorem loads_all_or_first_clash (types : List Descriptor) :
    (∀ error, Catalog.ofList types = .error error ↔ ∃ d, FirstClash types d ∧ error = .duplicateType d.name) ∧
    ((∃ error, Catalog.ofList types = .error error) ↔ ¬ (names types).Nodup) ∧
    ∀ catalog, Catalog.ofList types = .ok catalog →
      Provides catalog types ∧ ∀ other, other.Perm types → Catalog.ofList other = .ok catalog := by
  have stops : ∀ error, Catalog.ofList types = .error error ↔ ∃ d, FirstClash types d ∧ error = .duplicateType d.name := by
    refine fun error => ⟨fun failed => ?_, ?_⟩
    · rcases nodup_or_firstClash types with distinct | ⟨d, clash⟩
      · obtain ⟨catalog, loaded, -⟩ := ofList_perm distinct
        cases loaded.symm.trans failed
      · exact ⟨d, clash, Except.error.inj (failed.symm.trans (ofList_stops clash))⟩
    · rintro ⟨d, clash, rfl⟩
      exact ofList_stops clash
  refine ⟨stops, ⟨?_, fun repeated => ?_⟩, fun catalog loaded => ⟨provides loaded, fun other => ofList_perm_eq loaded⟩⟩
  · rintro ⟨error, failed⟩
    obtain ⟨d, clash, -⟩ := (stops error).mp failed
    exact clash.not_nodup
  · obtain ⟨d, clash⟩ := (nodup_or_firstClash types).resolve_left repeated
    exact ⟨_, ofList_stops clash⟩

/-- The second name has a letter of two bytes and the third a character of four. -/
def stations : List Descriptor :=
  [{ name := "com.acme.Z" }, { name := "com.acme.Á" }, { name := "com.acme.𐐀" }, { name := "com.acme.A" }]

theorem stations_listed :
    ∃ catalog, Catalog.ofList stations = .ok catalog ∧ Catalog.ofList stations.reverse = .ok catalog ∧
      Provides catalog stations ∧
      names catalog.toList = ["com.acme.A", "com.acme.Z", "com.acme.Á", "com.acme.𐐀"] ∧
      Catalog.ofList (stations ++ stations) = .error (.duplicateType "com.acme.Z") := by
  obtain ⟨catalog, loaded, -⟩ := ofList_perm (show (names stations).Nodup by decide)
  obtain ⟨-, -, accepted⟩ := loads_all_or_first_clash stations
  obtain ⟨provided, anyOrder⟩ := accepted catalog loaded
  obtain ⟨stops, -, -⟩ := loads_all_or_first_clash (stations ++ stations)
  refine ⟨catalog, loaded, anyOrder _ (List.reverse_perm _), provided, ?_, ?_⟩
  · have listed : (Catalog.ofList stations).toOption.map (fun catalog => names catalog.toList) =
        some ["com.acme.A", "com.acme.Z", "com.acme.Á", "com.acme.𐐀"] := by decide +kernel
    rw [loaded] at listed
    exact Option.some.inj listed
  · exact (stops _).mpr ⟨{ name := "com.acme.Z" }, ⟨stations, stations.tail, rfl, by decide, by decide⟩, rfl⟩

end Lists

end PluginForge.Proofs.CatalogLoading

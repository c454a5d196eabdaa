import Mathlib.Data.List.Nodup
import PluginForge.Proofs.ReplicationInvariant
import PluginForge.Proofs.Results

/-! Names of copies and of their converters. The registry knows a type by its full name, but a copy and its
converter carry the plain name alone, so the copies of two types share their names exactly when the types
share their plain name. -/

namespace PluginForge.Proofs.ReplicaNames
open Replication ModelTypes RegistryEntries Results ReplicationLogic ReplicationInvariant

theorem copyName_inj {package a b : String} : copyName package a = copyName package b ↔ plainName a = plainName b := by
  simp [copyName, toString, String.append_right_inj]

theorem converterOf_inj {a b : String} : converterOf a = converterOf b ↔ plainName a = plainName b :=
  String.append_right_inj "convert"

variable {cx : Context} {package : String} {d : Descriptor} {replica : Replica} {deps : List String}

theorem classConverter_name {ty : TypeRef} {parts : List (Property × ReplicaRef)} {converter : MethodDef}
    (converts : classConverter d ty parts = .ok converter) : converter.name = converterName d.sourceType := by
  obtain ⟨made, _, rest⟩ := except_bind.mp converts
  cases rest
  rfl

theorem copyEnum_names {name : String} (made : copyEnum cx d name = .ok replica) :
    replica.ty = .generated name .enum ∧ replica.definition.toTypeRef = replica.ty ∧
      replica.converter.name = converterName d.sourceType ∧ replica.source = d.sourceType := by
  obtain ⟨doc, _, rest⟩ := except_bind.mp made
  cases rest
  exact ⟨rfl, rfl, rfl, rfl⟩

theorem copyClass_ref (d : Descriptor) (doc : TypeDoc) (name : String) (properties : List PropertyDef) :
    (ObjectDef.class (copyClass d doc name properties) []).toTypeRef = .generated name .class := by
  have named : (copyClass d doc name properties).name = name := by
    unfold copyClass
    split <;> rfl
  exact congrArg (TypeRef.generated · .class) named

theorem copy_names (copy : Copy cx package d replica deps) :
    replica.ty = .generated (copyName package d.name) (copyKind d) ∧ replica.definition.toTypeRef = replica.ty ∧
      replica.converter.name = converterName d.sourceType ∧ replica.source = d.sourceType := by
  cases copy with
  | enum isEnum made =>
    rw [copyKind, if_pos isEnum]
    exact copyEnum_names made
  | plain notEnum documented whole refs converts =>
    have kind : copyKind d = .class := by simp [copyKind, notEnum]
    rw [kind]
    exact ⟨rfl, copyClass_ref .., classConverter_name converts, rfl⟩

/-- Different types have copies and converters of different names. -/
def Distinct (r : Registry) : Prop :=
  ∀ a b first second, r.find? a = some first → r.find? b = some second → a ≠ b →
    first.ty.name? ≠ second.ty.name? ∧ first.converter ≠ second.converter

variable {s : ReplicationState}

theorem entry_holds (reached : Reached cx package s) {name : String} {e : Registry.Entry}
    (found : s.registry.find? name = some e) : ∃ replica, e.replica = some replica ∧ replica.ty = e.ty ∧
      replica.definition.toTypeRef = e.ty ∧ replica.converter.name = e.converter ∧ replica.source.name = name := by
  obtain ⟨d, fits⟩ := reached.good.fits name e found
  obtain ⟨replica, finished⟩ := reached.finished found
  obtain ⟨ty, defined, converter, source⟩ := copy_names (fits.copy replica finished)
  have named : d.sourceType.name = name := by
    rw [Descriptor.sourceType, SourceType.ofName, if_neg fits.model.notWildcard]
    exact fits.named
  refine ⟨replica, finished, ?_, ?_, ?_, ?_⟩
  · rw [ty, fits.ty, fits.named]
  · rw [defined, ty, fits.ty, fits.named]
  · rw [converter, converterName_eq, named, fits.converter]
  · rw [source, named]

theorem replicas_names (reached : Reached cx package s) :
    s.replicas.map (fun replica => (replica.definition.name, replica.converter.name)) =
      (s.registry.entries.filter fun entry => s.touched.contains entry.1).map fun entry =>
        (copyName package entry.1, converterOf entry.1) := by
  have known : ∀ entry ∈ s.registry.entries.filter (fun entry => s.touched.contains entry.1), ∃ replica,
      entry.2.replica = some replica ∧
        (replica.definition.name, replica.converter.name) = (copyName package entry.1, converterOf entry.1) := by
    intro entry member
    have found := find?_of_mem reached.good.unique (List.mem_of_mem_filter member)
    obtain ⟨d, fits⟩ := reached.good.fits entry.1 entry.2 found
    obtain ⟨replica, finished, _, defined, converter, _⟩ := entry_holds reached found
    rw [fits.ty] at defined
    rw [fits.converter] at converter
    exact ⟨replica, finished, by rw [converter, ← (TypeRef.generated.inj defined).1]⟩
  rw [ReplicationState.replicas, Registry.replicasOf]
  generalize s.registry.entries.filter _ = entries at known ⊢
  induction entries with
  | nil => rfl
  | cons entry rest ih =>
    obtain ⟨⟨replica, finished, names⟩, others⟩ := List.forall_mem_cons.mp known
    have first : List.filterMap (fun entry => entry.2.replica) (entry :: rest) =
      replica :: rest.filterMap (fun entry => entry.2.replica) := List.filterMap_cons_some finished
    rw [first, List.map_cons, List.map_cons, names, ih others]

private theorem nodup_iff_of_meet {name : String → String} {entries : List (String × Registry.Entry)}
    (meet : ∀ a b, name a = name b ↔ plainName a = plainName b) :
    (entries.map fun entry => name entry.1).Nodup ↔ (entries.map fun entry => plainName entry.1).Nodup := by
  simp only [List.Nodup, List.pairwise_map, ne_eq, meet]

/-- Among the copies of one task no two share a name exactly when no two of their types share a plain name. -/
theorem replicas_nodup_iff (reached : Reached cx package s) :
    ((s.replicas.map (·.definition.name)).Nodup ↔
      ((s.registry.entries.filter fun entry => s.touched.contains entry.1).map fun entry =>
        plainName entry.1).Nodup) ∧
    ((s.replicas.map (·.converter.name)).Nodup ↔
      ((s.registry.entries.filter fun entry => s.touched.contains entry.1).map fun entry =>
        plainName entry.1).Nodup) := by
  have names := congrArg (List.map Prod.fst) (replicas_names reached)
  have converters := congrArg (List.map Prod.snd) (replicas_names reached)
  simp only [List.map_map, Function.comp_def] at names converters
  rw [names, converters]
  exact ⟨nodup_iff_of_meet fun a b => copyName_inj, nodup_iff_of_meet fun a b => converterOf_inj⟩

theorem entries_meet (good : Good cx package s) {a b : String} {first second : Registry.Entry}
    (here : s.registry.find? a = some first) (there : s.registry.find? b = some second) :
    (first.ty.name? = second.ty.name? ↔ plainName a = plainName b) ∧
      (first.converter = second.converter ↔ plainName a = plainName b) := by
  obtain ⟨_, fitsFirst⟩ := good.fits a first here
  obtain ⟨_, fitsSecond⟩ := good.fits b second there
  constructor
  · rw [fitsFirst.ty, fitsSecond.ty, TypeRef.name?, TypeRef.name?, Option.some.injEq, copyName_inj]
  · rw [fitsFirst.converter, fitsSecond.converter, converterOf_inj]

theorem distinct_iff (good : Good cx package s) :
    Distinct s.registry ↔ (s.registry.entries.map fun entry => plainName entry.1).Nodup := by
  constructor
  · intro distinct
    refine List.Nodup.map_on ?_ (List.Nodup.of_map _ good.unique)
    rintro ⟨a, first⟩ here ⟨b, second⟩ there same
    have foundFirst := find?_of_mem good.unique here
    have foundSecond := find?_of_mem good.unique there
    by_cases name : a = b
    · subst name
      rw [foundFirst] at foundSecond
      rw [Option.some.inj foundSecond]
    · have apart := distinct a b first second foundFirst foundSecond name
      exact absurd ((entries_meet good foundFirst foundSecond).2.mpr same) apart.2
  · intro nodup a b first second here there different
    have apart : plainName a ≠ plainName b := by
      intro same
      have entry := List.inj_on_of_nodup_map nodup (mem_of_find? here) (mem_of_find? there) same
      exact different (congrArg Prod.fst entry)
    obtain ⟨names, converters⟩ := entries_meet good here there
    exact ⟨fun same => apart (names.mp same), fun same => apart (converters.mp same)⟩

/-- An enum can be copied wherever its documentation can be read. -/
theorem enum_copied {ty : SourceType} {doc : TypeDoc} (isEnum : cx.catalog.classify ty = .enum)
    (documented : cx.javadoc ty.name = .ok doc) (s : ReplicationState) :
    ∃ ref after, Yields (cx.replicate package ty) s ref after := by
  have isModel : modelKind? (cx.catalog.classify ty) = some .enum := by rw [isEnum]; rfl
  obtain ⟨d, model, _⟩ := model_of_classify isModel
  have loads : cx.load ty.name = .ok d := load_eq_ok_iff.mpr model.loads
  cases found : s.registry.find? ty.name with
  | some entry => exact ⟨_, _, replicate_again isModel found⟩
  | none =>
    simp only [Context.replicate, typeWith, isEnum, modelWithin, yields_get_bind, found]
    have copied : copyEnum cx d (replicaName package ty) = .ok _ :=
      except_bind.mpr ⟨doc, model.name_eq ▸ documented, rfl⟩
    simp only [loads, copyModel, copied, yields_lift_bind, yields_modify_bind, yields_rethrow, bind_assoc, pure_bind,
      yields_pure]
    exact ⟨_, _, rfl, rfl⟩

/-- Two enums of the same plain name in different packages. -/
def modes : Context where
  catalog := ((∅ : Catalog).add { name := "com.acme.fast.Mode", kind := .enum, enumConstants := ["ON", "OFF"] }).add
    { name := "com.acme.slow.Mode", kind := .enum, enumConstants := ["LOW", "HIGH"] }
  storedDoc := fun _ => .ok {}

private theorem modes_reached : ∃ s first second, Reached modes "gen.model" s ∧
    s.registry.find? "com.acme.fast.Mode" = some first ∧ s.registry.find? "com.acme.slow.Mode" = some second := by
  obtain ⟨_, middle, early⟩ := @enum_copied modes "gen.model" (.ofName "com.acme.fast.Mode") {} rfl rfl {}
  obtain ⟨_, last, later⟩ := @enum_copied modes "gen.model" (.ofName "com.acme.slow.Mode") {} rfl rfl middle
  have reachedMiddle := Reached.fresh.copy early
  have fast := replicate_copied Reached.fresh.good early
  have slow := replicate_copied reachedMiddle.good later
  obtain ⟨first, here⟩ := Option.isSome_iff_exists.mp (fast.good.present _ (fast.touched _ rfl))
  obtain ⟨second, there⟩ := Option.isSome_iff_exists.mp (slow.good.present _ (slow.touched _ rfl))
  exact ⟨last, first, second, reachedMiddle.copy later, slow.step.find? here, there⟩

private theorem modes_plainName : plainName "com.acme.fast.Mode" = plainName "com.acme.slow.Mode" := by cbv

/-- After any successful copying into one package each entry holds a copy under the entry's own names, and
the entries of two types share the name of the copy, like that of the converter, exactly when the types share
their plain name. So the names are distinct exactly when the plain names of the copied types are. -/
theorem names_meet_iff (reached : Reached cx package s) :
    (∀ name e, s.registry.find? name = some e → ∃ replica, e.replica = some replica ∧ replica.ty = e.ty ∧
      replica.definition.toTypeRef = e.ty ∧ replica.converter.name = e.converter ∧ replica.source.name = name) ∧
    (∀ a b first second, s.registry.find? a = some first → s.registry.find? b = some second →
      (first.ty.name? = second.ty.name? ↔ plainName a = plainName b) ∧
      (first.converter = second.converter ↔ plainName a = plainName b)) ∧
    (Distinct s.registry ↔ (s.registry.entries.map fun entry => plainName entry.1).Nodup) ∧
    ((s.replicas.map (·.definition.name)).Nodup ↔
      ((s.registry.entries.filter fun entry => s.touched.contains entry.1).map fun entry =>
        plainName entry.1).Nodup) ∧
    ((s.replicas.map (·.converter.name)).Nodup ↔
      ((s.registry.entries.filter fun entry => s.touched.contains entry.1).map fun entry =>
        plainName entry.1).Nodup) := by
  refine ⟨?_, ?_, distinct_iff reached.good, replicas_nodup_iff reached⟩
  · exact fun name e found => entry_holds reached found
  · exact fun a b first second here there => entries_meet reached.good here there

theorem modes_meet : ∃ s first second, Reached modes "gen.model" s ∧
    s.registry.find? "com.acme.fast.Mode" = some first ∧ s.registry.find? "com.acme.slow.Mode" = some second ∧
      first.ty.name? = second.ty.name? ∧ first.converter = second.converter := by
  obtain ⟨s, first, second, reached, here, there⟩ := modes_reached
  obtain ⟨names, converters⟩ := (names_meet_iff reached).2.1 _ _ first second here there
  exact ⟨s, first, second, reached, here, there, names.mpr modes_plainName, converters.mpr modes_plainName⟩

theorem modes_not_distinct : ¬ ∀ cx package s, Reached cx package s → Distinct s.registry := by
  intro all
  obtain ⟨s, first, second, reached, here, there⟩ := modes_reached
  have apart := all modes "gen.model" s reached _ _ first second here there (by decide)
  exact apart.2 ((entries_meet reached.good here there).2.mpr modes_plainName)

end PluginForge.Proofs.ReplicaNames

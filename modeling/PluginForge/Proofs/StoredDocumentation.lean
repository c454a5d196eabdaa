import PluginForge.Proofs.Redocumentation
import PluginForge.Proofs.Results
import PluginForge.Proofs.ValidationWalk

/-! Documentation that is read back from a store after the types lost their own. Validating tasks stores what
they cover, and generation looks up what it copies: the elements of collections are copied but not covered, so
their documentation is lost, and nothing else is. -/

namespace PluginForge.Proofs.StoredDocumentation
open Validator ValidationWalk Redocumentation ModelTypes ReplicationInvariant

variable {catalog : Catalog} {tasks : List String} {name : String}

/-- What a store holds after tasks were validated one after the other, as long as each of them passes. -/
def harvest (catalog : Catalog) : List String → Validator → KeyMap TypeDoc → Except GenerateError (KeyMap TypeDoc)
  | [], _, docs => .ok docs
  | task :: rest, v, docs =>
    match v.validate catalog .memory task docs with
    | (.error e, _, _) => .error e
    | (.ok (), v, docs) => harvest catalog rest v docs

def Covered (catalog : Catalog) (tasks : List String) (name : String) : Prop := ∃ task ∈ tasks, Covers catalog task name

/-- The store holds the documentation of the processed types and of no others. -/
structure Holds (catalog : Catalog) (v : Validator) (docs : KeyMap TypeDoc) : Prop where
  closed : Closed catalog v.processed
  kept : ∀ name ∈ v.processed, docs.get? name = (catalog.load? name).map (·.javadoc)
  clean : ∀ name ∉ v.processed, docs.get? name = none

theorem get?_writeEach {types : List Descriptor} (loaded : ∀ d ∈ types, catalog.load? d.name = some d)
    (docs : KeyMap TypeDoc) : (writeEach .memory docs types).get? name =
      if name ∈ types.map (·.name) then (catalog.load? name).map (·.javadoc) else docs.get? name := by
  induction types generalizing docs with
  | nil => rfl
  | cons d rest ih =>
    obtain ⟨first, others⟩ := List.forall_mem_cons.mp loaded
    have stored : writeEach .memory docs (d :: rest) = writeEach .memory (docs.insert d.name d.javadoc) rest := rfl
    rw [stored, ih others, KeyMap.get?_insert, List.map_cons]
    by_cases again : name ∈ rest.map (·.name)
    · simp [again]
    · by_cases here : name = d.name
      · simp [here, first]
      · simp [again, here]

theorem Holds.judged {v after : Validator} {docs : KeyMap TypeDoc} {verdict : Except GenerateError Unit}
    {stored : List Descriptor} (holds : Holds catalog v docs) (judged : Judged catalog v name verdict after stored) :
    Holds catalog after (writeEach .memory docs stored) where
  closed := judged.closed holds.closed
  kept other member := by
    rw [get?_writeEach judged.loaded]
    split
    · rfl
    next old => exact holds.kept other (((judged.processed_iff other).mp member).resolve_left old)
  clean other absent := by
    obtain ⟨new, old⟩ := not_or.mp (mt (judged.processed_iff other).mpr absent)
    rw [get?_writeEach judged.loaded, if_neg new]
    exact holds.clean other old

theorem harvest_holds {v : Validator} {docs last : KeyMap TypeDoc} (holds : Holds catalog v docs)
    (harvested : harvest catalog tasks v docs = .ok last) :
    ∃ after, Holds catalog after last ∧
      ∀ name, name ∈ after.processed ↔ name ∈ v.processed ∨ Covered catalog tasks name := by
  induction tasks generalizing v docs with
  | nil =>
    cases harvested
    exact ⟨v, holds, by simp [Covered]⟩
  | cons task rest ih =>
    obtain ⟨stored, judged, written⟩ := @validate_judged _ catalog _ memory_accepts v task docs
    unfold harvest at harvested
    generalize v.validate catalog .memory task docs = outcome at judged written harvested
    obtain ⟨verdict, middle, kept⟩ := outcome
    subst written
    cases verdict with
    | error e => cases harvested
    | ok done =>
      obtain ⟨after, holdsLast, processed⟩ := ih (holds.judged judged) harvested
      refine ⟨after, holdsLast, fun name => ?_⟩
      rw [processed name, judged.covers_iff holds.closed name]
      simp only [Covered, List.exists_mem_cons_iff, or_assoc]

theorem harvest_get? {docs : KeyMap TypeDoc} (harvested : harvest catalog tasks {} ∅ = .ok docs) (name : String) :
    (Covered catalog tasks name → docs.get? name = (catalog.load? name).map (·.javadoc)) ∧
      (¬ Covered catalog tasks name → docs.get? name = none) := by
  have fresh : Holds catalog {} ∅ := by
    refine ⟨?_, ?_, fun _ _ => rfl⟩
    · exact fun _ member => nomatch member
    · exact fun _ member => nomatch member
  obtain ⟨after, holds, processed⟩ := harvest_holds fresh harvested
  constructor
  · exact fun covered => holds.kept name ((processed name).mpr (.inr covered))
  · intro uncovered
    refine holds.clean name fun member => ?_
    rcases (processed name).mp member with known | covered
    · cases known
    · exact uncovered covered

def reading (catalog : Catalog) (docs : KeyMap TypeDoc) : Context := ⟨catalog, DocStore.memory.read docs⟩

def noDoc (_ : Descriptor) : TypeDoc := {}

open Classical in
/-- The documentation of a type if one of the tasks covers it. -/
noncomputable def coveredDoc (catalog : Catalog) (tasks : List String) (d : Descriptor) : TypeDoc :=
  if Covered catalog tasks d.name then d.javadoc else {}

theorem isEmpty_iff {doc : TypeDoc} : doc.isEmpty = true ↔ doc = {} := by
  constructor
  · intro empty
    obtain ⟨summary, ⟨entries, sorted⟩⟩ := doc
    obtain ⟨bare, none⟩ := Bool.and_eq_true_iff.mp empty
    cases Option.isNone_iff_eq_none.mp bare
    cases List.isEmpty_iff.mp none
    rfl
  · rintro rfl
    rfl

theorem isEmpty_none : ({} : TypeDoc).isEmpty = true := rfl

/-- With nothing stored a type has its own documentation. -/
theorem javadoc_unread (catalog : Catalog) (name : String) :
    (reading catalog ∅).javadoc name = .ok (((catalog.load? name).map (·.javadoc)).getD {}) := by
  have stored : (reading catalog ∅).storedDoc name = .ok {} := rfl
  simp only [Context.javadoc, stored, isEmpty_none, if_true]
  rfl

theorem get?_coveredDoc {docs : KeyMap TypeDoc} (harvested : harvest catalog tasks {} ∅ = .ok docs) (name : String) :
    (docs.get? name).getD {} = ((catalog.load? name).map (coveredDoc catalog tasks)).getD {} := by
  obtain ⟨kept, clean⟩ := harvest_get? harvested name
  cases loaded : catalog.load? name with
  | none =>
    by_cases covered : Covered catalog tasks name
    · rw [kept covered, loaded]; rfl
    · rw [clean covered]; rfl
  | some d =>
    rw [Option.map_some, Option.getD_some, coveredDoc, name_of_load? loaded]
    by_cases covered : Covered catalog tasks name
    · rw [kept covered, loaded, if_pos covered, Option.map_some, Option.getD_some]
    · rw [clean covered, if_neg covered, Option.getD_none]

/-- What has none of its own is left with what is stored. -/
theorem javadoc_erased {docs : KeyMap TypeDoc} (harvested : harvest catalog tasks {} ∅ = .ok docs) (name : String) :
    (reading (redocument noDoc catalog) docs).javadoc name =
      .ok (((catalog.load? name).map (coveredDoc catalog tasks)).getD {}) := by
  have stored : (reading (redocument noDoc catalog) docs).storedDoc name = .ok ((docs.get? name).getD {}) := rfl
  have erased : (reading (redocument noDoc catalog) docs).catalog.load? name =
      (catalog.load? name).map (redocumented noDoc) := load?_redocument name
  simp only [Context.javadoc, stored, erased, get?_coveredDoc harvested]
  split
  next empty =>
    rw [isEmpty_iff.mp empty]
    cases catalog.load? name <;> rfl
  next => rfl

def sources (tool : BuildTool) (trigger : Descriptor) : List String :=
  match tool with
  | .gradle => gradleSources trigger
  | .maven => mavenSources trigger

/-- The definitions that a trigger asks for. -/
def generate (cx : Context) (tool : BuildTool) (supported : List ArtifactKind) (trigger : String) :
    Except GenerateError (List ObjectDef) :=
  match tool with
  | .gradle => cx.gradleDefinitions supported trigger
  | .maven => cx.mavenDefinitions trigger

theorem generate_revised {cx : Context} {doc : Descriptor → TypeDoc} {stored : String → Except DescriptorError TypeDoc}
    {tool : BuildTool} {trigger : String} {d : Descriptor} (supported : List ArtifactKind)
    (loaded : cx.catalog.load? trigger = some d)
    (documented : ∀ source ∈ sources tool d, ∀ name, Consulted cx.catalog source name → Same cx doc stored name) :
    generate (revised cx doc stored) tool supported trigger = generate cx tool supported trigger := by
  cases tool with
  | gradle =>
    refine gradleDefinitions_revised supported fun other found => ?_
    cases loaded.symm.trans found
    exact documented
  | maven =>
    refine mavenDefinitions_revised fun other found => ?_
    cases loaded.symm.trans found
    exact documented

theorem replayed_covered {tool : BuildTool} {trigger : String} {d : Descriptor} {docs : KeyMap TypeDoc}
    (supported : List ArtifactKind) (loaded : catalog.load? trigger = some d)
    (harvested : harvest catalog (sources tool d) {} ∅ = .ok docs) :
    generate (reading (redocument noDoc catalog) docs) tool supported trigger =
      generate (reading (redocument (coveredDoc catalog (sources tool d)) catalog) ∅) tool supported trigger := by
  let kept := redocument (coveredDoc catalog (sources tool d)) catalog
  have erased : reading (redocument noDoc catalog) docs = revised (reading kept ∅) noDoc (DocStore.memory.read docs) := by
    rw [revised, reading, reading, redocument_redocument]
    rfl
  have found : (reading kept ∅).catalog.load? trigger = some (redocumented (coveredDoc catalog (sources tool d)) d) := by
    rw [reading, load?_redocument, loaded, Option.map_some]
  rw [erased]
  refine generate_revised supported found fun source member name consulted => ?_
  rw [Same, ← erased, javadoc_erased harvested, javadoc_unread, load?_redocument, Option.map_map]
  rfl

/-- A look-up loses the documentation of just the types that no task covers. -/
theorem javadoc_agrees_iff {docs : KeyMap TypeDoc} {e : Descriptor} (harvested : harvest catalog tasks {} ∅ = .ok docs)
    (found : catalog.load? name = some e) :
    (reading (redocument noDoc catalog) docs).javadoc name = (reading catalog ∅).javadoc name ↔
      Covered catalog tasks name ∨ e.javadoc = {} := by
  rw [javadoc_erased harvested, javadoc_unread, found, Option.map_some, Option.map_some, Option.getD_some,
    Option.getD_some, coveredDoc, name_of_load? found]
  by_cases covered : Covered catalog tasks name
  · simp [covered]
  · simp [covered, eq_comm]

theorem replayed_kept {tool : BuildTool} {trigger : String} {d : Descriptor} {docs : KeyMap TypeDoc}
    (supported : List ArtifactKind) (loaded : catalog.load? trigger = some d)
    (harvested : harvest catalog (sources tool d) {} ∅ = .ok docs)
    (kept : ∀ source ∈ sources tool d, ∀ name e, Consulted catalog source name → catalog.load? name = some e →
      Covered catalog (sources tool d) name ∨ e.javadoc = {}) :
    generate (reading (redocument noDoc catalog) docs) tool supported trigger =
      generate (reading catalog ∅) tool supported trigger := by
  refine @generate_revised (reading catalog ∅) noDoc (DocStore.memory.read docs) _ _ _ supported loaded ?_
  intro source member name consulted
  cases found : catalog.load? name with
  | some e => exact (javadoc_agrees_iff harvested found).mpr (kept source member name e consulted found)
  | none =>
    have erased := javadoc_erased harvested name
    rw [found, Option.map_none] at erased
    rw [Same, javadoc_unread, found]
    exact erased

/-- What the properties lead to are their own types, and no elements of collections. -/
def Direct (catalog : Catalog) : Prop :=
  ∀ name d, catalog.load? name = some d → ∀ p ∈ d.properties, (modelOf? catalog p.ty).isSome = true →
    catalog.isModel p.ty = true

theorem Direct.leads (direct : Direct catalog) {d : Descriptor} {p : Property} {other : String}
    (loaded : catalog.load? name = some d) (member : p ∈ d.properties) (leads : modelOf? catalog p.ty = some other) :
    catalog.isModel p.ty = true ∧ p.ty.name = other := by
  have isModel := direct name d loaded p member (by rw [leads]; rfl)
  obtain ⟨kind, copied⟩ := isModel_iff.mp isModel
  exact ⟨isModel, Option.some.inj ((modelOf?_model copied).symm.trans leads)⟩

/-- Without collections of model types on the way, a task covers all that is consulted for it. -/
theorem Direct.covers {source : String} (direct : Direct catalog) (consulted : Consulted catalog source name) :
    Covers catalog source name := by
  rcases consulted with rfl | ⟨d, loaded, ty, member, reached⟩
  · exact .root
  · obtain ⟨p, first, rfl⟩ := List.mem_map.mp member
    induction reached with
    | here leads =>
      obtain ⟨isModel, rfl⟩ := direct.leads loaded first leads
      exact .property .root loaded first isModel
    | property _ found _ inside leads ih =>
      obtain ⟨isModel, rfl⟩ := direct.leads found inside leads
      exact .property ih found inside isModel

/-- The enum is copied for the elements of the task's list. -/
def mode : Descriptor where
  name := "com.acme.Mode"
  kind := .enum
  javadoc := { summary := some "How to build." }
  enumConstants := ["ON", "OFF"]

def build : Descriptor where
  name := "com.acme.Build"
  properties := [{ name := "modes", ty := .named "java.util.List" [.ofName "com.acme.Mode"] 0 }]
  methods := [{ name := "run", executable := true }]

def plugin : Descriptor where
  name := "com.acme.Plugin"
  gradlePlugin := some { tasks := [{ source := "com.acme.Build" }], types := [.specification] }

def modes : Catalog := (((∅ : Catalog).add mode).add build).add plugin

/-- Only the task itself is stored. -/
def harvested : KeyMap TypeDoc := (∅ : KeyMap TypeDoc).insert "com.acme.Build" {}

private theorem modes_harvested : harvest modes (sources .gradle plugin) {} ∅ = .ok harvested := by
  have judged : Judged modes {} "com.acme.Build" (.ok ()) ⟨grown [] ["com.acme.Build"]⟩ [build] :=
    .accepted List.not_mem_nil rfl rfl (.skip (.inr rfl) .done)
  change harvest modes ["com.acme.Build"] {} ∅ = _
  rw [harvest, validate_of_judged memory_accepts judged]
  rfl

/-- The documentation of an enum that only the elements of a list have does not come back. -/
private theorem modes_lost :
    (generate (reading modes ∅) .gradle [.specification] "com.acme.Plugin").isOk = true ∧
    (generate (reading (redocument noDoc modes) harvested) .gradle [.specification] "com.acme.Plugin").map
        (List.map ObjectDef.javadoc) ≠
      (generate (reading modes ∅) .gradle [.specification] "com.acme.Plugin").map (List.map ObjectDef.javadoc) := by
  decide +kernel

/-- The same task with a property of the enum itself. -/
def single : Descriptor := { build with properties := [{ name := "mode", ty := .ofName "com.acme.Mode" }] }

def singles : Catalog := (((∅ : Catalog).add mode).add single).add plugin

def harvestedSingles : KeyMap TypeDoc := harvested.insert "com.acme.Mode" mode.javadoc

private theorem singles_harvested : harvest singles (sources .gradle plugin) {} ∅ = .ok harvestedSingles := by
  have judged : Judged singles {} "com.acme.Build" (.ok ()) ⟨grown [mode] ["com.acme.Build"]⟩ [single, mode] :=
    .accepted List.not_mem_nil rfl rfl (.store (by decide) rfl rfl .done)
  change harvest singles ["com.acme.Build"] {} ∅ = _
  rw [harvest, validate_of_judged memory_accepts judged]
  rfl

private theorem singles_direct : Direct singles := by
  have each : ∀ d ∈ singles.classes.entries.map (·.2), ∀ p ∈ d.properties, (modelOf? singles p.ty).isSome = true →
      singles.isModel p.ty = true := by decide +kernel
  exact fun name d loaded => each d (List.mem_map_of_mem (NamedEntries.mem_of_lookup loaded))

/-- From types without documentation and the store that validating the tasks leaves, a trigger gets what it gets
from types of which only the covered ones have any. A look-up loses the documentation of just the others, and where
none of those that are consulted has any, the definitions are those made from the types as they were. So they are
where no property is a collection of a model type. -/
theorem replayed_definitions {tool : BuildTool} {trigger : String} {d : Descriptor} {docs : KeyMap TypeDoc}
    (supported : List ArtifactKind) (loaded : catalog.load? trigger = some d)
    (harvested : harvest catalog (sources tool d) {} ∅ = .ok docs) :
    generate (reading (redocument noDoc catalog) docs) tool supported trigger =
      generate (reading (redocument (coveredDoc catalog (sources tool d)) catalog) ∅) tool supported trigger ∧
    (∀ name e, catalog.load? name = some e →
      ((reading (redocument noDoc catalog) docs).javadoc name = (reading catalog ∅).javadoc name ↔
        Covered catalog (sources tool d) name ∨ e.javadoc = {})) ∧
    ((∀ source ∈ sources tool d, ∀ name e, Consulted catalog source name → catalog.load? name = some e →
        Covered catalog (sources tool d) name ∨ e.javadoc = {}) →
      generate (reading (redocument noDoc catalog) docs) tool supported trigger =
        generate (reading catalog ∅) tool supported trigger) ∧
    (Direct catalog → generate (reading (redocument noDoc catalog) docs) tool supported trigger =
      generate (reading catalog ∅) tool supported trigger) := by
  refine ⟨replayed_covered supported loaded harvested, fun _ _ => javadoc_agrees_iff harvested,
    replayed_kept supported loaded harvested, fun direct => replayed_kept supported loaded harvested ?_⟩
  exact fun source member _ _ consulted _ => .inl ⟨source, member, direct.covers consulted⟩

theorem modes_replayed : modes.load? "com.acme.Plugin" = some plugin ∧
    harvest modes (sources .gradle plugin) {} ∅ = .ok harvested ∧
    generate (reading (redocument noDoc modes) harvested) .gradle [.specification] "com.acme.Plugin" =
      generate (reading (redocument (coveredDoc modes (sources .gradle plugin)) modes) ∅) .gradle [.specification]
        "com.acme.Plugin" ∧
    harvest singles (sources .gradle plugin) {} ∅ = .ok harvestedSingles ∧ Direct singles ∧
    (generate (reading singles ∅) .gradle [.specification] "com.acme.Plugin").isOk = true ∧
    generate (reading (redocument noDoc singles) harvestedSingles) .gradle [.specification] "com.acme.Plugin" =
      generate (reading singles ∅) .gradle [.specification] "com.acme.Plugin" := by
  have asked : modes.load? "com.acme.Plugin" = some plugin := rfl
  have askedDirect : singles.load? "com.acme.Plugin" = some plugin := rfl
  obtain ⟨covered, _⟩ := replayed_definitions [.specification] asked modes_harvested
  obtain ⟨_, _, _, whole⟩ := replayed_definitions [.specification] askedDirect singles_harvested
  exact ⟨asked, modes_harvested, covered, singles_harvested, singles_direct, by decide +kernel, whole singles_direct⟩

theorem modes_undocumented : ¬ ∀ (catalog : Catalog) (tool : BuildTool) (supported : List ArtifactKind)
    (trigger : String) (d : Descriptor) (docs : KeyMap TypeDoc) (definitions : List ObjectDef),
    catalog.load? trigger = some d → harvest catalog (sources tool d) {} ∅ = .ok docs →
      generate (reading catalog ∅) tool supported trigger = .ok definitions →
        generate (reading (redocument noDoc catalog) docs) tool supported trigger = .ok definitions := by
  intro complete
  obtain ⟨succeeds, differ⟩ := modes_lost
  obtain ⟨definitions, generated⟩ := Results.ok_of_isOk succeeds
  have same := complete modes .gradle [.specification] "com.acme.Plugin" plugin harvested definitions rfl
    modes_harvested generated
  exact differ (by rw [same, generated])

end PluginForge.Proofs.StoredDocumentation

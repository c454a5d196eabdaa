import PluginForge.Proofs.NestedCalls
import PluginForge.Proofs.ReferenceIntegrity

/-! Types as they are written where they are used. A conversion into a collection leads back to the collection as it is
written, but one of a model type leads back to what the registry has noted: the type as it was written where it was
used first, with the type arguments it had there. -/

namespace PluginForge.Proofs.WrittenTypes
open Replication ModelTypes RegistryEntries Results ReplicationLogic ReplicationRule ReplicationFailure
open ReplicationRecursion ReferenceIntegrity

section Uses
variable {catalog : Catalog} {ty use : SourceType} {kind : ObjectKind} {d : Descriptor}

/-- The model type that a value of a type leads to, as it is written there. -/
def written? (catalog : Catalog) (ty : SourceType) : Option SourceType :=
  match catalog.classify ty with
  | .enum | .plain => some ty
  | .collection _ element => if catalog.isModel element then some element else none
  | _ => none

theorem written?_model (copied : modelKind? (catalog.classify ty) = some kind) : written? catalog ty = some ty := by
  unfold written?
  cases sort : catalog.classify ty with
  | enum | plain => rfl
  | void | primitive | collection | map | passthrough =>
    rw [sort] at copied
    cases copied

theorem written?_collection {collectionKind : CollectionKind} {element : SourceType}
    (held : catalog.classify ty = .collection collectionKind element) (copied : catalog.isModel element = true) :
    written? catalog ty = some element := by
  simp [written?, held, copied]

/-- The model types that values of a type lead to at any distance, as they are written in properties on the way. -/
inductive Mentions (catalog : Catalog) (ty : SourceType) : SourceType → Prop where
  | here {use : SourceType} (written : written? catalog ty = some use) : Mentions catalog ty use
  | property {outer use : SourceType} {d : Descriptor} {p : Property} (before : Mentions catalog ty outer)
      (loaded : catalog.load? outer.name = some d) (notEnum : d.isEnum = false) (member : p ∈ d.properties)
      (written : written? catalog p.ty = some use) : Mentions catalog ty use

theorem Mentions.through {outer : SourceType} {p : Property} (written : written? catalog ty = some outer)
    (loaded : catalog.load? outer.name = some d) (notEnum : d.isEnum = false) (member : p ∈ d.properties)
    (rest : Mentions catalog p.ty use) : Mentions catalog ty use := by
  induction rest with
  | here next => exact .property (.here written) loaded notEnum member next
  | property _ later plain inside next ih => exact .property ih later plain inside next

theorem Mentions.of_written {other : SourceType} (same : written? catalog other = written? catalog ty)
    (mentioned : Mentions catalog ty use) : Mentions catalog other use := by
  induction mentioned with
  | here written => exact .here (same.trans written)
  | property _ loaded notEnum member written ih => exact .property ih loaded notEnum member written

/-- What the type of a property mentions is mentioned by the class. -/
theorem Mentions.of_property {p : Property} (model : Model catalog ty d)
    (copied : modelKind? (catalog.classify ty) = some kind) (notEnum : d.isEnum = false) (member : p ∈ d.properties)
    (mentioned : Mentions catalog p.ty use) : Mentions catalog ty use :=
  .through (written?_model copied) (model.name_eq ▸ model.loaded) notEnum member mentioned

end Uses

/-- The entries of a registry note types as those of another one do, or as they are spelled in some use. -/
def Notes (spelled : SourceType → Prop) (before after : Registry) : Prop :=
  ∀ entry ∈ after.entries, (∃ old ∈ before.entries, old.1 = entry.1 ∧ old.2.source = entry.2.source) ∨
    ∃ use, spelled use ∧ use.name = entry.1 ∧ use.toTypeRef = entry.2.source

section Registries
variable {spelled wider : SourceType → Prop} {before middle after : Registry}

theorem Notes.refl (spelled : SourceType → Prop) (r : Registry) : Notes spelled r r :=
  fun entry member => .inl ⟨entry, member, rfl, rfl⟩

theorem Notes.trans (first : Notes spelled before middle) (rest : Notes spelled middle after) :
    Notes spelled before after := by
  intro entry member
  rcases rest entry member with ⟨old, inside, name, source⟩ | used
  · rw [← name, ← source]
    exact first old inside
  · exact .inr used

theorem Notes.mono (notes : Notes spelled before after) (implies : ∀ use, spelled use → wider use) :
    Notes wider before after := by
  intro entry member
  rcases notes entry member with known | ⟨use, is, same⟩
  · exact .inl known
  · exact .inr ⟨use, implies use is, same⟩

end Registries

section Steps
variable {cx : Context} {package : String} {ty : SourceType} {d : Descriptor} {kind : ObjectKind}
  {s last : ReplicationState} {spelled : SourceType → Prop}

theorem drafted_notes (is : spelled ty) : Notes spelled s.registry (drafted package ty kind s).registry := by
  intro entry member
  rcases List.mem_append.mp member with known | new
  · exact .inl ⟨entry, known, rfl, rfl⟩
  · obtain rfl := List.mem_singleton.mp new
    exact .inr ⟨ty, is, rfl, rfl⟩

theorem completed_notes {replica : Replica} {deps : List String} :
    Notes spelled last.registry (completed ty replica deps last).registry := by
  intro entry member
  obtain ⟨old, inside, rfl⟩ := List.mem_map.mp member
  refine .inl ⟨old, inside, ?_⟩
  split <;> exact ⟨rfl, rfl⟩

theorem forgotten_notes : Notes spelled last.registry (forgotten ty last).registry :=
  fun entry member => .inl ⟨entry, List.mem_of_mem_filter member, rfl, rfl⟩

theorem each_notes {types : List SourceType} {refs : List ReplicaRef}
    (each : Each (fun ty s _ after => Notes (Mentions cx.catalog ty) s.registry after.registry) types s refs last)
    (mentioned : ∀ ty ∈ types, ∀ use, Mentions cx.catalog ty use → spelled use) :
    Notes spelled s.registry last.registry := by
  induction each with
  | nil => exact .refl _ _
  | cons first rest ih =>
    obtain ⟨here, others⟩ := List.forall_mem_cons.mp mentioned
    exact (first.mono here).trans (ih others)

theorem drafted_each_notes {types : List SourceType} {refs : List ReplicaRef} (model : Model cx.catalog ty d)
    (copied : modelKind? (cx.catalog.classify ty) = some kind) (notEnum : d.isEnum = false)
    (inside : types ⊆ d.properties.map (·.ty))
    (each : Each (fun ty s _ after => Notes (Mentions cx.catalog ty) s.registry after.registry) types
      (drafted package ty kind s) refs last) : Notes (Mentions cx.catalog ty) s.registry last.registry := by
  refine (drafted_notes (.here (written?_model copied))).trans (each_notes each fun other listed use mentioned => ?_)
  obtain ⟨p, member, rfl⟩ := List.mem_map.mp (inside listed)
  exact mentioned.of_property model copied notEnum member

theorem notes_sustained (cx : Context) (package : String) :
    Sustained cx package fun ty s _ after => Notes (Mentions cx.catalog ty) s.registry after.registry where
  passthrough _ := .refl _ _
  collection held copied run := by
    obtain ⟨kind, isModel⟩ := isModel_iff.mp copied
    exact run.mono fun use => .of_written ((written?_collection held copied).trans (written?_model isModel).symm)
  again _ _ _ := .refl _ _
  enum _ copied _ _ _ := (drafted_notes (.here (written?_model copied))).trans completed_notes
  plain model copied notEnum _ _ inner _ :=
    (drafted_each_notes model copied notEnum (List.Subset.refl _) inner).trans completed_notes

theorem notes_broken (cx : Context) (package : String) :
    Broken cx package (fun ty s _ after => Notes (Mentions cx.catalog ty) s.registry after.registry)
      fun ty s _ after => Notes (Mentions cx.catalog ty) s.registry after.registry where
  collection held copied run := by
    obtain ⟨kind, isModel⟩ := isModel_iff.mp copied
    exact run.mono fun use => .of_written ((written?_collection held copied).trans (written?_model isModel).symm)
  undocumented _ copied _ _ := (drafted_notes (.here (written?_model copied))).trans forgotten_notes
  property {ty d s middle last refs before rest p e} model copied notEnum _ split inner run := by
    have whole : d.properties.map (·.ty) = before.map (·.ty) ++ p.ty :: rest.map (·.ty) := by
      rw [split, List.map_append, List.map_cons]
    have early := drafted_each_notes model copied notEnum (by rw [whole]; exact List.subset_append_left ..) inner
    have member : p ∈ d.properties := by
      rw [split]
      exact List.mem_append_right _ (List.mem_cons_self ..)
    exact (early.trans (run.mono fun use => .of_property model copied notEnum member)).trans forgotten_notes
  construction model copied notEnum _ inner _ :=
    (drafted_each_notes model copied notEnum (List.Subset.refl _) inner).trans forgotten_notes

/-- Every entry notes its type as some call has mentioned it. -/
theorem performed_notes {calls : List Call} (performed : Performed calls s) :
    ∀ entry ∈ s.registry.entries, ∃ c ∈ calls, ∃ use, Mentions c.cx.catalog c.ty use ∧ use.name = entry.1 ∧
      use.toTypeRef = entry.2.source := by
  induction performed with
  | fresh => exact nofun
  | task before ih => exact ih
  | @call calls s after c before run ih =>
    have notes : Notes (Mentions c.cx.catalog c.ty) s.registry after.registry := by
      cases result : c.result with
      | ok ref =>
        rw [result] at run
        exact replicate_post (notes_sustained ..) run
      | error e =>
        rw [result] at run
        exact replicate_breaks (notes_sustained ..) (notes_broken ..) before.settled.1.unique before.all_finished run
    intro entry member
    rcases notes entry member with ⟨old, inside, name, source⟩ | used
    · rw [← name, ← source]
      obtain ⟨earlier, performed, used⟩ := ih old inside
      exact ⟨earlier, List.mem_cons_of_mem _ performed, used⟩
    · exact ⟨c, List.mem_cons_self .., used⟩

end Steps

section Answers
variable {cx : Context} {package : String} {ty : SourceType} {s after : ReplicationState} {ref : ReplicaRef}

/-- The type that a conversion leads back to. -/
def source? : Conversion → Option TypeRef
  | .identity => none
  | .model _ source => some source
  | .collection _ _ _ source _ => some source

/-- What a call answers from the state that it starts from. -/
structure Answers (cx : Context) (package : String) (ty : SourceType) (s : ReplicationState) (ref : ReplicaRef) :
    Prop where
  model : ∀ kind, modelKind? (cx.catalog.classify ty) = some kind →
    ref = ((s.registry.find? ty.name).map (·.reference)).getD (draft package ty kind).reference
  collection : ∀ kind element, cx.catalog.classify ty = .collection kind element → cx.catalog.isModel element = true →
    ∃ copy, ref = collectionRef ty kind element copy
  plain : modelOf? cx.catalog ty = none → ref = .passthrough ty

theorem Answers.of_model {kind : ObjectKind} (copied : modelKind? (cx.catalog.classify ty) = some kind)
    (answer : ref = ((s.registry.find? ty.name).map (·.reference)).getD (draft package ty kind).reference) :
    Answers cx package ty s ref := by
  refine ⟨fun other same => ?_, fun _ _ held _ => ?_, fun plain => ?_⟩
  · rw [answer, Option.some.inj (copied.symm.trans same)]
  · rw [held] at copied
    cases copied
  · rw [modelOf?_model copied] at plain
    cases plain

theorem answers_sustained (cx : Context) (package : String) :
    Sustained cx package fun ty s ref _ => Answers cx package ty s ref where
  passthrough plain := by
    refine ⟨fun _ copied => ?_, fun _ _ held copied => ?_, fun _ => rfl⟩
    · rw [modelOf?_model copied] at plain
      cases plain
    · rw [modelOf?_collection held copied] at plain
      cases plain
  collection {ty element kind s after copy} held copied _ := by
    refine ⟨fun _ isModel => ?_, fun _ _ same _ => ?_, fun plain => ?_⟩
    · rw [held] at isModel
      cases isModel
    · cases held.symm.trans same
      exact ⟨copy, rfl⟩
    · rw [modelOf?_collection held copied] at plain
      cases plain
  again _ copied found := .of_model copied (by rw [found]; rfl)
  enum _ copied _ absent _ := .of_model copied (by rw [absent]; rfl)
  plain _ copied _ absent _ _ _ := .of_model copied (by rw [absent]; rfl)

/-- The converted value is in a local of the type that the conversion leads back to. -/
theorem converted_local (conversion : Conversion) {source : TypeRef} (leads : source? conversion = some source)
    (name : String) (value : Expr) :
    (∃ init, Stmt.define ⟨name, source⟩ init ∈ (conversion.convert name value).1) ∧
      (conversion.convert name value).2 = .localVar ⟨name, source⟩ := by
  cases conversion with
  | identity => cases leads
  | model converter source =>
    cases leads
    exact ⟨⟨_, List.mem_singleton_self _⟩, rfl⟩
  | collection converter kind replica source element =>
    cases leads
    exact ⟨⟨_, List.mem_cons_of_mem _ (List.mem_cons_self ..)⟩, rfl⟩

/-- A conversion into a collection leads back to the collection and its elements as they are written. One of a model
type leads back to the type as the registry notes it, and so as it is written where there is no entry yet; an entry that
notes it otherwise does so after a use that an earlier call mentioned. The converted value is in a local of that type. -/
theorem leads_back_to_first_use {calls : List Call} (performed : Performed calls s)
    (yields : Yields (cx.replicate package ty) s ref after) :
    (∀ kind element, cx.catalog.classify ty = .collection kind element → cx.catalog.isModel element = true →
      ∃ replica, ref.conversion = .collection (converterName element) kind replica ty.toTypeRef element.toTypeRef) ∧
    (cx.catalog.isModel ty = true → ∃ e, after.registry.find? ty.name = some e ∧
      ref.conversion = .model e.converter e.source ∧
      e.source = ((s.registry.find? ty.name).map (·.source)).getD ty.toTypeRef ∧
      (e.source ≠ ty.toTypeRef → ∃ c ∈ calls, ∃ use, Mentions c.cx.catalog c.ty use ∧ use.name = ty.name ∧
        use.toTypeRef = e.source)) ∧
    (modelOf? cx.catalog ty = none → ref.conversion = .identity) ∧
    ∀ source, source? ref.conversion = some source → ∀ name value,
      (∃ init, Stmt.define ⟨name, source⟩ init ∈ (ref.conversion.convert name value).1) ∧
        (ref.conversion.convert name value).2 = .localVar ⟨name, source⟩ := by
  have answers := replicate_post (answers_sustained cx package) yields
  refine ⟨fun kind element held copied => ?_, fun copied => ?_, fun plain => ?_, fun source leads => ?_⟩
  · obtain ⟨copy, rfl⟩ := answers.collection kind element held copied
    exact ⟨_, rfl⟩
  · obtain ⟨kind, isModel⟩ := isModel_iff.mp copied
    obtain ⟨e, found, rfl⟩ := replicate_held yields copied
    have same := answers.model kind isModel
    refine ⟨e, found, rfl, ?_⟩
    cases known : s.registry.find? ty.name with
    | none =>
      rw [known] at same
      have source : e.source = ty.toTypeRef := (Conversion.model.inj (congrArg ReplicaRef.conversion same)).2
      exact ⟨source, fun other => absurd source other⟩
    | some old =>
      rw [known] at same
      have source : e.source = old.source := (Conversion.model.inj (congrArg ReplicaRef.conversion same)).2
      refine ⟨source, fun _ => ?_⟩
      obtain ⟨c, member, use, mentioned, name, spelled⟩ := performed_notes performed _ (mem_of_find? known)
      exact ⟨c, member, use, mentioned, name, spelled.trans source.symm⟩
  · rw [answers.plain plain]
    rfl
  · exact converted_local ref.conversion leads

end Answers

section Boxes

/-- A class that takes a type argument. -/
def box : Descriptor where
  name := "com.acme.Box"

def boxes : Context where
  catalog := Catalog.empty.add box
  storedDoc _ := .ok {}

def boxOf (argument : String) : SourceType := .named "com.acme.Box" [.named argument [] 0] 0

def boxRef : ReplicaRef := (draft "gen.model" (boxOf "java.lang.String") .class).reference

def boxCall : Call where
  cx := boxes
  package := "gen.model"
  ty := boxOf "java.lang.String"
  result := .ok boxRef

def boxed : ReplicationState := (outcome (boxes.replicate "gen.model" (boxOf "java.lang.String")) {}).2

theorem boxed_yields : Yields (boxes.replicate "gen.model" (boxOf "java.lang.String")) {} boxRef boxed := by
  obtain ⟨ref, made⟩ := @ok_of_isOk _ _ (outcome (boxes.replicate "gen.model" (boxOf "java.lang.String")) {}).1
    (by decide +kernel)
  have yields : Yields (boxes.replicate "gen.model" (boxOf "java.lang.String")) {} ref boxed := Prod.ext made rfl
  obtain rfl := (replicate_post (answers_sustained ..) yields).model .class (by decide +kernel)
  exact yields

theorem boxed_performed : Performed [boxCall] boxed := .call .fresh boxed_yields

theorem boxed_noted : ∃ e, boxed.registry.find? "com.acme.Box" = some e ∧
    e.source = (boxOf "java.lang.String").toTypeRef := by
  have copied : boxes.catalog.isModel (boxOf "java.lang.String") = true := by decide +kernel
  obtain ⟨e, found, same⟩ := replicate_held boxed_yields copied
  exact ⟨e, found, (Conversion.model.inj (congrArg ReplicaRef.conversion same)).2⟩

theorem second_box : ∃ ref after, Yields (boxes.replicate "gen.model" (boxOf "java.lang.Integer")) boxed ref after := by
  obtain ⟨ref, made⟩ := @ok_of_isOk _ _ (outcome (boxes.replicate "gen.model" (boxOf "java.lang.Integer")) boxed).1
    (by decide +kernel)
  exact ⟨ref, _, Prod.ext made rfl⟩

theorem boxes_apart : (boxOf "java.lang.String").toTypeRef ≠ (boxOf "java.lang.Integer").toTypeRef := by
  intro same
  have arguments : [TypeRef.class "java.lang.String"] = [.class "java.lang.Integer"] := (TypeRef.parameterized.inj same).2
  exact absurd (TypeRef.class.inj (List.cons.inj arguments).1) (by decide)

theorem integers_lead_to_strings : ∃ ref after converter,
    Yields (boxes.replicate "gen.model" (boxOf "java.lang.Integer")) boxed ref after ∧
      ref.conversion = .model converter (boxOf "java.lang.String").toTypeRef ∧
      ∃ c ∈ [boxCall], ∃ use, Mentions c.cx.catalog c.ty use ∧ use.name = "com.acme.Box" ∧
        use.toTypeRef = (boxOf "java.lang.String").toTypeRef := by
  obtain ⟨ref, after, yields⟩ := second_box
  obtain ⟨-, model, -⟩ := leads_back_to_first_use boxed_performed yields
  obtain ⟨e, _, leads, source, used⟩ := model (by decide +kernel)
  obtain ⟨old, known, noted⟩ := boxed_noted
  have known : boxed.registry.find? (boxOf "java.lang.Integer").name = some old := known
  have strings : e.source = (boxOf "java.lang.String").toTypeRef := by
    rw [source, known]
    exact noted
  rw [strings] at leads used
  exact ⟨ref, after, _, yields, leads, used boxes_apart⟩

/-- The second of two uses of a class with different type arguments is converted back to the first. -/
theorem box_mistaken : ¬ ∀ (cx : Context) (package : String) (calls : List Call) (s after : ReplicationState)
    (ty : SourceType) (ref : ReplicaRef), Performed calls s → (∀ c ∈ calls, c.result.isOk = true) →
    Yields (cx.replicate package ty) s ref after →
    ∀ converter source, ref.conversion = .model converter source → source = ty.toTypeRef := by
  intro whole
  obtain ⟨ref, after, yields⟩ := second_box
  have answer := (replicate_post (answers_sustained ..) yields).model .class (by decide +kernel)
  obtain ⟨e, known, noted⟩ := boxed_noted
  have known : boxed.registry.find? (boxOf "java.lang.Integer").name = some e := known
  rw [known] at answer
  have succeeded : ∀ c ∈ [boxCall], c.result.isOk = true := List.forall_mem_singleton.mpr rfl
  have same := whole boxes "gen.model" _ _ _ _ _ boxed_performed succeeded yields e.converter e.source (by rw [answer]; rfl)
  exact boxes_apart (noted.symm.trans same)

end Boxes

end PluginForge.Proofs.WrittenTypes

import Mathlib
import PluginForge.Descriptor.Manifest
import PluginForge.Proofs.DisplayedTypes
import PluginForge.Proofs.JsonSpelling

/-! Manifests written from what a manifest says. Each part of a descriptor that has been read is read again from the
JSON it is written as, so the catalog of a manifest is the catalog of the manifest that lists it. -/

namespace PluginForge.Proofs.ManifestRoundTrip
open Json DisplayedTypes JsonSpelling

variable {α : Type} {decode : Json → Option α} {encode : α → Json}

/-- Whatever can be read is read as the same again after it has been written. -/
def Restores (decode : Json → Option α) (encode : α → Json) : Prop :=
  ∀ (value : Json) (x : α), decode value = some x → decode (encode x) = some x

section Fields
variable {pairs written : List (String × Json)} {field : String} {x absent : α} {fields : List String}

theorem record?_obj (names : written.map Prod.fst = fields) (distinct : fields.Nodup) :
    record? fields (.obj written) = some written := by
  have once : (fields.all fun field => written.countP (·.1 == field) ≤ 1) = true := by
    rw [List.all_eq_true]
    intro field _
    have counted : written.countP (·.1 == field) = fields.count field := by
      rw [← names, List.count, List.countP_map]
      rfl
    simpa only [counted, decide_eq_true_eq] using List.nodup_iff_count_le_one.mp distinct field
  rw [record?, if_pos once]

theorem required_restores (restores : Restores decode encode) (read : required pairs field decode = some x)
    (found : written.lookup field = some (encode x)) : required written field decode = some x := by
  obtain ⟨value, -, decoded⟩ := Option.bind_eq_some_iff.mp read
  rw [required, found]
  exact restores _ _ decoded

theorem defaulted_restores (restores : Restores decode encode) (default : decode (encode absent) = some absent)
    (read : defaulted pairs field absent decode = some x) (found : written.lookup field = some (encode x)) :
    defaulted written field absent decode = some x := by
  simp only [defaulted, found]
  unfold defaulted at read
  split at read
  next =>
    cases read
    exact default
  next => exact restores _ _ read

theorem optional_restores {x : Option α} (restores : Restores decode encode) (solid : ∀ x, encode x ≠ .null)
    (read : Json.optional pairs field decode = some x) (found : written.lookup field = some (ofOption encode x)) :
    Json.optional written field decode = some x := by
  cases x with
  | none => simp only [Json.optional, found, ofOption]
  | some x =>
    have decoded : decode (encode x) = some x := by
      unfold Json.optional at read
      split at read
      next => cases read
      next => cases read
      next value _ _ =>
        obtain ⟨y, decoded, same⟩ := Option.map_eq_some_iff.mp read
        cases same
        exact restores _ _ decoded
    have present := solid x
    simp only [Json.optional, found, ofOption, decoded]
    rfl

end Fields

section Values

theorem toText?_restores : Restores toText? .str := fun _ _ _ => rfl

theorem toBool?_restores : Restores toBool? .bool := fun _ _ _ => rfl

theorem word?_restores {all : List α} {word : α → String} : Restores (word? all word) fun x => .str (word x) := by
  intro value x read
  have find (text : String) (read : all.find? (word · == text) = some x) : all.find? (word · == word x) = some x := by
    have same := List.find?_some read
    rwa [beq_iff_eq.mp same]
  unfold word? at read
  split at read
  next text => exact find text read
  next text => exact find text read
  next => cases read

theorem sourceType_restores : Restores SourceType.ofJson? SourceType.toJson := by
  intro value ty read
  obtain ⟨text, -, parsed⟩ := Option.bind_eq_some_iff.mp read
  split at parsed
  next found same =>
    cases parsed
    simp only [SourceType.ofJson?, SourceType.toJson, toText?, Option.bind_eq_bind, Option.bind_some, parse_display same]
  next => cases parsed

theorem mem_of_read {items : List Json} {xs : List α} {x : α} (read : items.mapM decode = some xs) (member : x ∈ xs) :
    ∃ item, decode item = some x := by
  induction items generalizing xs with
  | nil =>
    cases read
    cases member
  | cons item items ih =>
    simp only [List.mapM_cons, Option.bind_eq_bind, Option.bind_eq_some_iff, Option.pure_def, Option.some.injEq] at read
    obtain ⟨first, here, others, remaining, rfl⟩ := read
    rcases List.mem_cons.mp member with rfl | later
    · exact ⟨item, here⟩
    · exact ih remaining later

theorem mapM_written {β : Type} {decode : β → Option α} {encode : α → β} {xs : List α}
    (each : ∀ x ∈ xs, decode (encode x) = some x) : (xs.map encode).mapM decode = some xs := by
  induction xs with
  | nil => rfl
  | cons x xs ih =>
    obtain ⟨here, others⟩ := List.forall_mem_cons.mp each
    rw [List.map_cons, List.mapM_cons, here, ih others]
    rfl

theorem listOf?_restores (restores : Restores decode encode) : Restores (listOf? decode) (ofList encode) := by
  intro value xs read
  obtain ⟨items, -, each⟩ := Option.bind_eq_some_iff.mp read
  refine mapM_written fun x member => ?_
  obtain ⟨item, decoded⟩ := mem_of_read each member
  exact restores _ _ decoded

theorem elements?_restores : Restores TypeDoc.elements? fun texts : KeyMap String =>
    .obj (texts.entries.map fun entry => (entry.1, .str entry.2)) := by
  intro _ texts _
  have decoded : (texts.entries.map fun entry => (entry.1, Json.str entry.2)).mapM
      (fun pair : String × Json => do return (pair.1, ← pair.2.toText?)) = some texts.entries :=
    mapM_written fun entry _ => rfl
  rw [TypeDoc.elements?, decoded]
  exact congrArg some (KeyMap.ofList_entries texts)

end Values

section Records

theorem doc_restores : Restores TypeDoc.ofJson? TypeDoc.toJson := by
  intro value doc read
  simp only [TypeDoc.ofJson?, Option.bind_eq_bind, Option.bind_eq_some_iff, Option.pure_def, Option.some.injEq] at read ⊢
  obtain ⟨_, -, _, summary, _, elements, rfl⟩ := read
  exact ⟨_, record?_obj rfl (by decide), _, optional_restores toText?_restores nofun summary rfl,
    _, defaulted_restores elements?_restores rfl elements rfl, rfl⟩

theorem mark_restores : Restores ParameterMark.ofJson? ParameterMark.toJson := by
  intro value mark read
  simp only [ParameterMark.ofJson?, Option.bind_eq_bind, Option.bind_eq_some_iff, Option.pure_def,
    Option.some.injEq] at read ⊢
  obtain ⟨_, -, _, required, _, default, _, internal, _, globalName, _, directory,
    _, output, _, sensitivity, rfl⟩ := read
  exact ⟨_, record?_obj rfl (by decide), _, defaulted_restores toBool?_restores rfl required rfl,
    _, optional_restores toText?_restores nofun default rfl, _, defaulted_restores toBool?_restores rfl internal rfl,
    _, optional_restores toText?_restores nofun globalName rfl, _, defaulted_restores toBool?_restores rfl directory rfl,
    _, defaulted_restores toBool?_restores rfl output rfl, _, defaulted_restores word?_restores rfl sensitivity rfl, rfl⟩

theorem taskRequest_restores : Restores GradleTaskRequest.ofJson? GradleTaskRequest.toJson := by
  intro value request read
  simp only [GradleTaskRequest.ofJson?, Option.bind_eq_bind, Option.bind_eq_some_iff, Option.pure_def,
    Option.some.injEq] at read ⊢
  obtain ⟨_, -, _, label, _, source, _, method, _, cacheable, rfl⟩ := read
  exact ⟨_, record?_obj rfl (by decide), _, optional_restores toText?_restores nofun label rfl,
    _, required_restores toText?_restores source rfl, _, optional_restores toText?_restores nofun method rfl,
    _, defaulted_restores toBool?_restores rfl cacheable rfl, rfl⟩

theorem gradle_restores : Restores GradleRequest.ofJson? GradleRequest.toJson := by
  intro value request read
  simp only [GradleRequest.ofJson?, Option.bind_eq_bind, Option.bind_eq_some_iff, Option.pure_def,
    Option.some.injEq] at read ⊢
  obtain ⟨_, -, _, label, _, tasks, _, micronaut, _, group, _, dependency, _,
    types, rfl⟩ := read
  exact ⟨_, record?_obj rfl (by decide), _, optional_restores toText?_restores nofun label rfl,
    _, defaulted_restores (listOf?_restores taskRequest_restores) rfl tasks rfl,
    _, defaulted_restores toBool?_restores rfl micronaut rfl, _, optional_restores toText?_restores nofun group rfl,
    _, optional_restores toText?_restores nofun dependency rfl,
    _, defaulted_restores (listOf?_restores word?_restores) rfl types rfl, rfl⟩

theorem mojo_restores : Restores MojoRequest.ofJson? MojoRequest.toJson := by
  intro value request read
  simp only [MojoRequest.ofJson?, Option.bind_eq_bind, Option.bind_eq_some_iff, Option.pure_def,
    Option.some.injEq] at read ⊢
  obtain ⟨_, -, _, label, _, source, _, micronaut, _, lead, rfl⟩ := read
  exact ⟨_, record?_obj rfl (by decide), _, optional_restores toText?_restores nofun label rfl,
    _, required_restores toText?_restores source rfl, _, defaulted_restores toBool?_restores rfl micronaut rfl,
    _, defaulted_restores toText?_restores rfl lead rfl, rfl⟩

theorem parameter_restores : Restores SourceParameter.ofJson? SourceParameter.toJson := by
  intro value parameter read
  simp only [SourceParameter.ofJson?, Option.bind_eq_bind, Option.bind_eq_some_iff, Option.pure_def,
    Option.some.injEq] at read ⊢
  obtain ⟨_, -, _, name, _, written, rfl⟩ := read
  exact ⟨_, record?_obj rfl (by decide), _, required_restores toText?_restores name rfl,
    _, required_restores sourceType_restores written rfl, rfl⟩

theorem field_restores : Restores SourceField.ofJson? SourceField.toJson := by
  intro value field read
  simp only [SourceField.ofJson?, Option.bind_eq_bind, Option.bind_eq_some_iff, Option.pure_def,
    Option.some.injEq] at read ⊢
  obtain ⟨_, -, _, name, _, visibility, rfl⟩ := read
  exact ⟨_, record?_obj rfl (by decide), _, required_restores toText?_restores name rfl,
    _, defaulted_restores word?_restores rfl visibility rfl, rfl⟩

theorem property_restores : Restores Property.ofJson? Property.toJson := by
  intro value property read
  simp only [Property.ofJson?, Option.bind_eq_bind, Option.bind_eq_some_iff, Option.pure_def,
    Option.some.injEq] at read ⊢
  obtain ⟨_, -, _, name, _, written, _, setter, _, field, _, mark, rfl⟩ := read
  exact ⟨_, record?_obj rfl (by decide), _, required_restores toText?_restores name rfl,
    _, required_restores sourceType_restores written rfl, _, optional_restores toText?_restores nofun setter rfl,
    _, optional_restores field_restores nofun field rfl, _, optional_restores mark_restores nofun mark rfl, rfl⟩

theorem method_restores : Restores SourceMethod.ofJson? SourceMethod.toJson := by
  intro value method read
  simp only [SourceMethod.ofJson?, Option.bind_eq_bind, Option.bind_eq_some_iff, Option.pure_def,
    Option.some.injEq] at read ⊢
  obtain ⟨_, -, _, name, _, parameters, _, returns, _, executable, rfl⟩ := read
  exact ⟨_, record?_obj rfl (by decide), _, required_restores toText?_restores name rfl,
    _, defaulted_restores (listOf?_restores parameter_restores) rfl parameters rfl,
    _, defaulted_restores sourceType_restores rfl returns rfl,
    _, defaulted_restores toBool?_restores rfl executable rfl, rfl⟩

theorem constructor_restores : Restores SourceConstructor.ofJson? SourceConstructor.toJson := by
  intro value constructor read
  simp only [SourceConstructor.ofJson?, Option.bind_eq_bind, Option.bind_eq_some_iff, Option.pure_def,
    Option.some.injEq] at read ⊢
  obtain ⟨_, -, _, parameters, _, visibility, _, primary, rfl⟩ := read
  exact ⟨_, record?_obj rfl (by decide), _, defaulted_restores (listOf?_restores parameter_restores) rfl parameters rfl,
    _, defaulted_restores word?_restores rfl visibility rfl, _, defaulted_restores toBool?_restores rfl primary rfl, rfl⟩

theorem descriptor_restores : Restores Descriptor.ofJson? Descriptor.toJson := by
  intro value d read
  simp only [Descriptor.ofJson?, Option.bind_eq_bind, Option.bind_eq_some_iff, Option.pure_def,
    Option.some.injEq] at read ⊢
  obtain ⟨_, -, _, name, _, kind, _, javadoc, _, constants, _, properties, _,
    methods, _, constructors, _, task, _, gradle, _, mojos, rfl⟩ := read
  exact ⟨_, record?_obj rfl (by decide), _, required_restores toText?_restores name rfl,
    _, defaulted_restores word?_restores rfl kind rfl, _, defaulted_restores doc_restores rfl javadoc rfl,
    _, defaulted_restores (listOf?_restores toText?_restores) rfl constants rfl,
    _, defaulted_restores (listOf?_restores property_restores) rfl properties rfl,
    _, defaulted_restores (listOf?_restores method_restores) rfl methods rfl,
    _, defaulted_restores (listOf?_restores constructor_restores) rfl constructors rfl,
    _, defaulted_restores toBool?_restores rfl task rfl, _, optional_restores gradle_restores nofun gradle rfl,
    _, defaulted_restores (listOf?_restores mojo_restores) rfl mojos rfl, rfl⟩

end Records

section Layout

@[simp] theorem textual_bool (value : Bool) : Textual (.bool value) := .bool value

@[simp] theorem textual_str (text : String) : Textual (.str text) := .str text

@[simp] theorem textual_obj {pairs : List (String × Json)} :
    Textual (.obj pairs) ↔ ∀ pair ∈ pairs, Textual pair.2 := by
  constructor
  · rintro (_ | _ | _ | _ | each)
    exact each
  · exact .obj

@[simp] theorem textual_ofOption (each : ∀ x, Textual (encode x)) (value : Option α) : Textual (ofOption encode value) := by
  cases value with
  | none => exact .null
  | some x => exact each x

@[simp] theorem textual_ofList (each : ∀ x, Textual (encode x)) (items : List α) : Textual (ofList encode items) := by
  refine .arr ?_
  intro item member
  obtain ⟨x, -, rfl⟩ := List.mem_map.mp member
  exact each x

@[simp] theorem type_textual (ty : SourceType) : Textual ty.toJson := .str ty.display

@[simp] theorem doc_textual (doc : TypeDoc) : Textual doc.toJson := by
  have elements (texts : KeyMap String) : Textual (.obj (texts.entries.map fun entry => (entry.1, .str entry.2))) := by
    refine .obj fun pair member => ?_
    obtain ⟨entry, -, rfl⟩ := List.mem_map.mp member
    exact .str entry.2
  simp [TypeDoc.toJson, elements]

@[simp] theorem mark_textual (mark : ParameterMark) : Textual mark.toJson := by simp [ParameterMark.toJson]

@[simp] theorem taskRequest_textual (r : GradleTaskRequest) : Textual r.toJson := by simp [GradleTaskRequest.toJson]

@[simp] theorem gradle_textual (r : GradleRequest) : Textual r.toJson := by simp [GradleRequest.toJson]

@[simp] theorem mojo_textual (r : MojoRequest) : Textual r.toJson := by simp [MojoRequest.toJson]

@[simp] theorem parameter_textual (p : SourceParameter) : Textual p.toJson := by simp [SourceParameter.toJson]

@[simp] theorem field_textual (f : SourceField) : Textual f.toJson := by simp [SourceField.toJson]

@[simp] theorem property_textual (p : Property) : Textual p.toJson := by simp [Property.toJson]

@[simp] theorem method_textual (m : SourceMethod) : Textual m.toJson := by simp [SourceMethod.toJson]

@[simp] theorem constructor_textual (c : SourceConstructor) : Textual c.toJson := by simp [SourceConstructor.toJson]

@[simp] theorem descriptor_textual (d : Descriptor) : Textual d.toJson := by simp [Descriptor.toJson]

theorem manifest_textual (catalog : Catalog) : Textual catalog.toManifest := by simp [Catalog.toManifest]

end Layout

section Catalogs
variable {catalog full : Catalog}

theorem mem_of_addAll {types : List Descriptor} (added : catalog.addAll types = .ok full) :
    ∀ entry ∈ full.classes.entries, entry ∈ catalog.classes.entries ∨ entry.2 ∈ types := by
  induction types generalizing catalog with
  | nil =>
    cases added
    exact fun entry member => .inl member
  | cons d types ih =>
    intro entry member
    rw [Catalog.addAll] at added
    split at added
    next => cases added
    next =>
      rcases ih added entry member with earlier | later
      · rcases eq_or_mem_of_mem_insertEntry earlier with rfl | present
        · exact .inr (List.mem_cons_self ..)
        · exact .inl present
      · exact .inr (List.mem_cons_of_mem _ later)

/-- Descriptors in the order of their names are added one after the other. -/
theorem addAll_sorted {rest : List (String × Descriptor)}
    (sorted : (catalog.classes.entries ++ rest).Pairwise fun a b => a.1 < b.1)
    (keyed : ∀ entry ∈ rest, entry.1 = entry.2.name) :
    ∃ full, catalog.addAll (rest.map (·.2)) = .ok full ∧ full.classes.entries = catalog.classes.entries ++ rest := by
  induction rest generalizing catalog with
  | nil => exact ⟨catalog, rfl, (List.append_nil _).symm⟩
  | cons entry rest ih =>
    obtain ⟨key, d⟩ := entry
    obtain ⟨same, keyedRest⟩ := List.forall_mem_cons.mp keyed
    obtain rfl : key = d.name := same
    obtain ⟨-, -, apart⟩ := List.pairwise_append.mp sorted
    have below : ∀ other ∈ catalog.classes.entries, other.1 < d.name :=
      fun other member => apart other member _ (List.mem_cons_self ..)
    have absent : catalog.load? d.name = none := by
      refine List.lookup_eq_none_iff.mpr fun other member => ?_
      exact bne_iff_ne.mpr (String.ne_of_lt (below other member)).symm
    have last : (catalog.add d).classes.entries = catalog.classes.entries ++ [(d.name, d)] := insertEntry_last below
    have whole : catalog.classes.entries ++ (d.name, d) :: rest = catalog.classes.entries ++ [(d.name, d)] ++ rest := by simp
    have sortedRest : ((catalog.add d).classes.entries ++ rest).Pairwise fun a b => a.1 < b.1 := by
      rwa [last, ← whole]
    obtain ⟨full, added, entries⟩ := ih sortedRest keyedRest
    refine ⟨full, ?_, ?_⟩
    · rw [List.map_cons, Catalog.addAll, absent]
      exact added
    · rw [entries, last, whole]

theorem ofList_toList (catalog : Catalog) : Catalog.ofList catalog.toList = .ok catalog := by
  have sorted : (Catalog.empty.classes.entries ++ catalog.classes.entries).Pairwise fun a b => a.1 < b.1 :=
    catalog.classes.sorted
  obtain ⟨full, added, entries⟩ := addAll_sorted sorted catalog.keyed
  have same : full.classes = catalog.classes := KeyMap.ext entries
  obtain ⟨classes, keyed⟩ := full
  obtain ⟨_, _⟩ := catalog
  cases same
  exact added

end Catalogs

section Manifests
variable {text written : String} {path other : Option String} {catalog : Catalog}

theorem descriptor_read (loaded : Catalog.ofManifest text path = .ok catalog) {d : Descriptor} (member : d ∈ catalog.toList) :
    Descriptor.ofJson? d.toJson = some d := by
  unfold Catalog.ofManifest at loaded
  split at loaded
  next => cases loaded
  next types listed =>
    obtain ⟨entry, present, rfl⟩ := List.mem_map.mp member
    rcases mem_of_addAll loaded entry present with absent | read
    · cases absent
    · simp only [Catalog.manifestTypes?, Option.bind_eq_bind, Option.bind_eq_some_iff] at listed
      obtain ⟨_, -, _, -, required⟩ := listed
      obtain ⟨_, -, list⟩ := Option.bind_eq_some_iff.mp required
      obtain ⟨_, -, each⟩ := Option.bind_eq_some_iff.mp list
      obtain ⟨item, decoded⟩ := mem_of_read each read
      exact descriptor_restores _ _ decoded

theorem ofManifest_spelled (loaded : Catalog.ofManifest text path = .ok catalog)
    (spelled : Json.read? written = some catalog.toManifest) : Catalog.ofManifest written other = .ok catalog := by
  have listed : Catalog.manifestTypes? written = some catalog.toList := by
    have decoded : (catalog.toList.map Descriptor.toJson).mapM Descriptor.ofJson? = some catalog.toList :=
      mapM_written fun d member => descriptor_read loaded member
    simp only [Catalog.manifestTypes?, Option.bind_eq_bind, Option.bind_eq_some_iff]
    exact ⟨_, spelled, _, record?_obj rfl (by decide), decoded⟩
  rw [Catalog.ofManifest, listed]
  exact ofList_toList catalog

/-- A manifest that has been loaded, written with every field spelled out, loads as the same catalog, in both layouts of
the printer and in every other spelling of it. -/
theorem loaded_written (loaded : Catalog.ofManifest text path = .ok catalog) :
    Catalog.ofManifest catalog.toManifest.compact = .ok catalog ∧
    Catalog.ofManifest catalog.toManifest.pretty = .ok catalog ∧
    ∀ written other, Json.read? written = some catalog.toManifest → Catalog.ofManifest written other = .ok catalog := by
  obtain ⟨compact, pretty⟩ := read?_printed (manifest_textual catalog)
  exact ⟨ofManifest_spelled loaded compact, ofManifest_spelled loaded pretty,
    fun written other spelled => ofManifest_spelled loaded spelled⟩

/-- A type whose only method returns an array, written with a blank before the brackets. -/
def builderText : String :=
  "\x7b\"types\":[\x7b\"name\":\"A\",\"methods\":[\x7b\"name\":\"run\",\"returns\":\"B []\"\x7d]\x7d]\x7d"

def builder : Descriptor where
  name := "A"
  methods := [{ name := "run", returns := .named "B" [] 1 }]

theorem builder_written :
    Catalog.ofManifest builderText = .ok (Catalog.empty.add builder) ∧
    Catalog.ofManifest (Catalog.empty.add builder).toManifest.pretty = .ok (Catalog.empty.add builder) := by
  have loaded : Catalog.ofManifest builderText = .ok (Catalog.empty.add builder) := by cbv
  exact ⟨loaded, (loaded_written loaded).2.1⟩

end Manifests

end PluginForge.Proofs.ManifestRoundTrip

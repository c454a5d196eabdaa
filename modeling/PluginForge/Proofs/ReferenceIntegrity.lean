import Mathlib.Logic.Relation
import PluginForge.Proofs.ReplicationFailure
import PluginForge.Proofs.TouchedModels

/-! References among copies after any calls, failing ones included. A finished copy refers to finished copies, unless the
call that made it failed: then it may refer to one that was given up with the call, for want of what it leads to. -/

namespace PluginForge.Proofs.ReferenceIntegrity
open Replication ModelTypes RegistryEntries Results ReplicationLogic ReplicationRule ReplicationFailure TouchedModels

def names (r : Registry) : List String := r.entries.map (·.1)

theorem mem_names_iff {r : Registry} {name : String} : name ∈ names r ↔ (r.find? name).isSome = true := by
  rw [Registry.find?, List.lookup_isSome_iff, names, List.mem_map]
  constructor
  · rintro ⟨entry, member, rfl⟩
    exact ⟨entry, member, beq_self_eq_true _⟩
  · rintro ⟨entry, member, same⟩
    exact ⟨entry, member, (beq_iff_eq.mp same).symm⟩

theorem mem_names_of_mem {r : Registry} {entry : String × Registry.Entry} (member : entry ∈ r.entries) :
    entry.1 ∈ names r := List.mem_map_of_mem member

/-- A type that cannot be copied on its own account. -/
def Barred (cx : Context) (e : GenerateError) (name : String) : Prop :=
  ∃ d, cx.catalog.load? name = some d ∧
    (cx.javadoc name = .error e ∨ d.isEnum = false ∧ d.primaryConstructor? = none ∧ e = .noConstructor name)

/-- A type that leads to one that cannot be copied. -/
def Doomed (cx : Context) (e : GenerateError) (name : String) : Prop :=
  ∃ culprit, Relation.ReflTransGen (Leads cx.catalog) name culprit ∧ Barred cx e culprit

/-- Entries are told apart by their names, and each is of the type that it is named after. -/
structure Sound (r : Registry) : Prop where
  unique : OneEach r
  named : ∀ entry ∈ r.entries, entry.2.source.name? = some entry.1

/-- An entry of a finished copy whose dependencies are known to the registry or lost. -/
structure Settled (catalog : Catalog) (lost : String → Prop) (r : Registry) (name : String) (e : Registry.Entry) :
    Prop where
  finished : e.replica.isSome = true
  follows : Follows catalog name e
  linked : ∀ dep ∈ e.deps, dep ∈ names r ∨ lost dep

/-- A step adds settled entries behind the others. -/
structure Adds (catalog : Catalog) (lost : String → Prop) (before after : Registry) : Prop where
  sound : Sound after
  entries : ∃ new, after.entries = before.entries ++ new ∧ ∀ entry ∈ new, Settled catalog lost after entry.1 entry.2

variable {catalog : Catalog} {lost : String → Prop}

section Registries
variable {wider : String → Prop} {before middle after : Registry}

theorem Adds.keeps (adds : Adds catalog lost before after) : names before ⊆ names after := by
  obtain ⟨new, whole, _⟩ := adds.entries
  rw [names, names, whole, List.map_append]
  exact List.subset_append_left ..

/-- What a step adds was not there before. -/
theorem Adds.absent (adds : Adds catalog lost before after) {new : List (String × Registry.Entry)}
    (whole : after.entries = before.entries ++ new) {entry : String × Registry.Entry} (member : entry ∈ new) :
    before.find? entry.1 = none := by
  have unique := adds.sound.unique
  rw [OneEach, whole, List.map_append, List.nodup_append] at unique
  rw [← Option.not_isSome_iff_eq_none, ← mem_names_iff]
  exact fun old => unique.2.2 entry.1 old entry.1 (List.mem_map_of_mem member) rfl

theorem Adds.refl (sound : Sound before) : Adds catalog lost before before :=
  ⟨sound, [], (List.append_nil _).symm, nofun⟩

theorem Settled.later {name : String} {e : Registry.Entry} (settled : Settled catalog lost before name e)
    (keeps : names before ⊆ names after) (implies : ∀ dep, lost dep → wider dep) : Settled catalog wider after name e :=
  ⟨settled.finished, settled.follows, fun dep inside => (settled.linked dep inside).imp (keeps ·) (implies dep)⟩

theorem Adds.trans (first : Adds catalog lost before middle) (rest : Adds catalog wider middle after)
    (implies : ∀ dep, lost dep → wider dep) : Adds catalog wider before after := by
  obtain ⟨early, split, settled⟩ := first.entries
  obtain ⟨late, whole, added⟩ := rest.entries
  refine ⟨rest.sound, early ++ late, by rw [whole, split, List.append_assoc], ?_⟩
  exact List.forall_mem_append.mpr ⟨fun entry member => (settled entry member).later rest.keeps implies, added⟩

theorem Adds.imp (adds : Adds catalog lost before after) (implies : ∀ dep, lost dep → wider dep) :
    Adds catalog wider before after := adds.trans (.refl adds.sound) implies

end Registries

section Copies
variable {package : String} {ty : SourceType} {d : Descriptor} {kind : ObjectKind} {s last : ReplicationState}

theorem Sound.drafted (sound : Sound s.registry) (model : Model catalog ty d) (absent : s.registry.find? ty.name = none) :
    Sound (drafted package ty kind s).registry := by
  refine ⟨reserve_unique sound.unique absent, ?_⟩
  refine List.forall_mem_append.mpr ⟨sound.named, ?_⟩
  refine List.forall_mem_singleton.mpr ?_
  rw [model.name_eq]
  exact model.toTypeRef_name?

/-- The entry of a copy keeps its place when the copy is finished. -/
theorem Adds.completed {replica : Replica} {deps : List String}
    (adds : Adds catalog lost (drafted package ty kind s).registry last.registry)
    (follows : Follows catalog ty.name { draft package ty kind with replica := some replica, deps })
    (known : ∀ dep ∈ deps, dep ∈ names last.registry) :
    Adds catalog lost s.registry (completed ty replica deps last).registry := by
  obtain ⟨new, whole, settled⟩ := adds.entries
  have split := reserved_split whole
  have same : names (ReplicationRule.completed ty replica deps last).registry = names last.registry := complete_keys ..
  have entries : (ReplicationRule.completed ty replica deps last).registry.entries =
      s.registry.entries ++ (ty.name, { draft package ty kind with replica := some replica, deps }) :: new :=
    completed_entries adds.sound.unique whole replica deps
  have named := adds.sound.named
  rw [split] at named
  obtain ⟨namedBefore, namedBehind⟩ := List.forall_mem_append.mp named
  refine ⟨⟨?_, ?_⟩, _, entries, ?_⟩
  · change (names (ReplicationRule.completed ty replica deps last).registry).Nodup
    rw [same]
    exact adds.sound.unique
  · rw [entries]
    exact List.forall_mem_append.mpr
      ⟨namedBefore, List.forall_mem_cons.mpr ⟨follows.source, (List.forall_mem_cons.mp namedBehind).2⟩⟩
  · refine List.forall_mem_cons.mpr ⟨⟨rfl, follows, fun dep inside => ?_⟩, fun entry member => ?_⟩
    · rw [same]
      exact .inl (known dep inside)
    · exact (settled entry member).later (by rw [same]; exact List.Subset.refl _) fun _ lost => lost

/-- When a copy is given up its entry goes, and what referred to it has lost it. -/
theorem Adds.forgotten (absent : s.registry.find? ty.name = none)
    (adds : Adds catalog lost (drafted package ty kind s).registry last.registry) (gone : lost ty.name) :
    Adds catalog lost s.registry (forgotten ty last).registry := by
  obtain ⟨new, whole, settled⟩ := adds.entries
  have split := reserved_split whole
  have entries : (ReplicationFailure.forgotten ty last).registry.entries = s.registry.entries ++ new :=
    forgotten_entries absent adds.sound.unique whole
  have kept (dep : String) (member : dep ∈ names last.registry) :
      dep ∈ names (ReplicationFailure.forgotten ty last).registry ∨ lost dep := by
    rw [names, split, List.map_append, List.map_cons] at member
    rw [names, entries, List.map_append]
    rcases List.mem_append.mp member with here | behind
    · exact .inl (List.mem_append_left _ here)
    · rcases List.mem_cons.mp behind with rfl | behind
      · exact .inr gone
      · exact .inl (List.mem_append_right _ behind)
  have named := adds.sound.named
  rw [split] at named
  obtain ⟨namedBefore, namedBehind⟩ := List.forall_mem_append.mp named
  refine ⟨⟨?_, ?_⟩, new, entries, ?_⟩
  · exact forgotten_unique adds.sound.unique
  · rw [entries]
    exact List.forall_mem_append.mpr ⟨namedBefore, (List.forall_mem_cons.mp namedBehind).2⟩
  · intro entry member
    obtain ⟨finished, follows, linked⟩ := settled entry member
    refine ⟨finished, follows, fun dep inside => ?_⟩
    rcases linked dep inside with present | missing
    · exact kept dep present
    · exact .inr missing

end Copies

/-- What a step that yields the reference to a type leaves. -/
structure Lands (catalog : Catalog) (ty : SourceType) (s : ReplicationState) (ref : ReplicaRef)
    (after : ReplicationState) : Prop where
  adds : Adds catalog (fun _ => False) s.registry after.registry
  refers : ref.conversion.modelName? = modelOf? catalog ty
  held : ∀ name, modelOf? catalog ty = some name → name ∈ names after.registry

/-- What a step that fails for a type leaves: whatever was made meanwhile, with references that are lost. -/
structure Wrecks (cx : Context) (ty : SourceType) (s : ReplicationState) (e : GenerateError)
    (after : ReplicationState) : Prop where
  adds : Adds cx.catalog (Doomed cx e) s.registry after.registry
  doomed : ∃ name, modelOf? cx.catalog ty = some name ∧ Doomed cx e name

section Steps
variable {cx : Context} {package : String} {s after : ReplicationState}

theorem each_lands {types : List SourceType} {refs : List ReplicaRef}
    (each : Each (fun ty s ref after => Sound s.registry → Lands catalog ty s ref after) types s refs after)
    (sound : Sound s.registry) :
    Adds catalog (fun _ => False) s.registry after.registry ∧
      refs.map (·.conversion.modelName?) = types.map (modelOf? catalog) ∧
      ∀ ty ∈ types, ∀ name, modelOf? catalog ty = some name → name ∈ names after.registry := by
  have grown := (each.imp fun _ _ _ _ lands known => (lands known).adds).closed (fun _ => .refl)
    fun early late known => (early known).trans (late (early known).sound) fun _ lost => lost
  obtain ⟨_, done⟩ := each.thread (fun made => made.adds.sound) sound
  refine ⟨grown sound, done.map_eq Lands.refers, ?_⟩
  exact done.forall_after Lands.held fun made held name leads => made.adds.keeps (held name leads)

private theorem completed_lands {ty : SourceType} {d : Descriptor} {kind : ObjectKind} {last : ReplicationState}
    (model : Model cx.catalog ty d) (copied : modelKind? (cx.catalog.classify ty) = some kind) {replica : Replica}
    {deps : List String} (adds : Adds cx.catalog (fun _ => False) (drafted package ty kind s).registry last.registry)
    (made : replica.source = d.sourceType) (whole : ∀ dep, dep ∈ deps ↔ Leads cx.catalog ty.name dep)
    (known : ∀ dep ∈ deps, dep ∈ names last.registry) :
    Lands cx.catalog ty s (draft package ty kind).reference (completed ty replica deps last) := by
  have leads := modelOf?_model copied
  have source : ty.toTypeRef.name? = some ty.name := by rw [model.name_eq]; exact model.toTypeRef_name?
  have follows : Follows cx.catalog ty.name { draft package ty kind with replica := some replica, deps } := by
    refine ⟨fun dep inside => (whole dep).mp inside, fun _ dep leads => (whole dep).mpr leads, source, ?_⟩
    intro finished same
    cases same
    rw [made, model.sourceType_name]
  refine ⟨adds.completed follows known, by rw [leads]; exact source, ?_⟩
  intro name leadsTo
  cases leads.symm.trans leadsTo
  have same : names (completed ty replica deps last).registry = names last.registry := complete_keys ..
  rw [same]
  refine adds.keeps ?_
  exact List.mem_map_of_mem (List.mem_append_right _ (List.mem_singleton_self _))

theorem lands_sustained (cx : Context) (package : String) :
    Sustained cx package fun ty s ref after => Sound s.registry → Lands cx.catalog ty s ref after where
  passthrough plain sound := ⟨.refl sound, by rw [plain]; rfl, by simp [plain]⟩
  collection {ty element kind s after copy} held copied run sound := by
    have leads := modelOf?_collection held copied
    obtain ⟨elementKind, isModel⟩ := isModel_iff.mp copied
    obtain ⟨d, model, _⟩ := model_of_classify isModel
    obtain ⟨adds, _, known⟩ := run sound
    refine ⟨adds, ?_, fun name found => known name ((modelOf?_model isModel).trans (leads.symm.trans found))⟩
    rw [leads, model.name_eq]
    exact model.toTypeRef_name?
  again {ty d s entry} model copied found sound := by
    have leads := modelOf?_model copied
    refine ⟨.refl sound, ?_, ?_⟩
    · rw [leads]
      exact sound.named _ (mem_of_find? found)
    · intro name leadsTo
      cases leads.symm.trans leadsTo
      exact mem_names_of_mem (mem_of_find? found)
  enum {ty d s replica} model copied isEnum absent made sound := by
    have source : replica.source = d.sourceType := by
      obtain ⟨doc, _, rest⟩ := except_bind.mp made
      cases rest
      rfl
    refine completed_lands model copied (.refl (sound.drafted model absent)) source ?_ nofun
    simp [leads_iff model, isEnum]
  plain {ty d s last doc refs converter} model copied notEnum absent documented inner converts sound := by
    obtain ⟨adds, refers, known⟩ := each_lands inner (sound.drafted model absent)
    have whole := mem_deps_iff model notEnum refers
    refine completed_lands model copied adds rfl whole fun dep inside => ?_
    obtain ⟨_, p, member, leads⟩ := (leads_iff model dep).mp ((whole dep).mp inside)
    exact known p.ty (List.mem_map_of_mem member) dep leads

theorem wrecks_broken (cx : Context) (package : String) :
    Broken cx package (fun ty s ref after => Sound s.registry → Lands cx.catalog ty s ref after)
      fun ty s e after => Sound s.registry → Wrecks cx ty s e after where
  collection {ty element kind s after e} held copied run sound := by
    obtain ⟨elementKind, isModel⟩ := isModel_iff.mp copied
    obtain ⟨adds, name, leads, doomed⟩ := run sound
    refine ⟨adds, name, ?_, doomed⟩
    rw [modelOf?_collection held copied, ← modelOf?_model isModel, leads]
  undocumented {ty d s e} model copied absent unread sound := by
    have doomed : Doomed cx e ty.name :=
      ⟨ty.name, .refl, d, model.loads, .inl (by rw [model.name_eq, unread])⟩
    exact ⟨.forgotten absent (.refl (sound.drafted model absent)) doomed, ty.name, modelOf?_model copied, doomed⟩
  property {ty d s middle last refs before rest p e} model copied notEnum absent split inner run sound := by
    obtain ⟨early, _, _⟩ := each_lands inner (sound.drafted model absent)
    obtain ⟨late, name, leads, culprit, path, barred⟩ := run early.sound
    have first : Leads cx.catalog ty.name name := by
      refine (leads_iff model name).mpr ⟨notEnum, p, ?_, leads⟩
      rw [split]
      exact List.mem_append_right _ (List.mem_cons_self ..)
    have doomed : Doomed cx e ty.name := ⟨culprit, .head first path, barred⟩
    exact ⟨.forgotten absent (early.trans late nofun) doomed, ty.name, modelOf?_model copied, doomed⟩
  construction {ty d s last refs} model copied notEnum absent inner unfit sound := by
    obtain ⟨adds, _, _⟩ := each_lands inner (sound.drafted model absent)
    have doomed : Doomed cx (.noConstructor d.name) ty.name :=
      ⟨ty.name, .refl, d, model.loads, .inr ⟨notEnum, unfit, by rw [model.name_eq]⟩⟩
    exact ⟨.forgotten absent (adds.imp nofun) doomed, ty.name, modelOf?_model copied, doomed⟩

end Steps

section Runs

/-- One call for one type, with whatever it came to. -/
structure Call where
  cx : Context
  package : String
  ty : SourceType
  result : Except GenerateError ReplicaRef

/-- The states that calls lead to from an empty registry. What is touched starts anew with every task, and the calls
may differ in what they load types from and in where they put copies. -/
inductive Performed : List Call → ReplicationState → Prop where
  | fresh : Performed [] {}
  | task {calls : List Call} {s : ReplicationState} (before : Performed calls s) :
      Performed calls { s with touched := [] }
  | call {calls : List Call} {s after : ReplicationState} {c : Call} (before : Performed calls s)
      (run : outcome (c.cx.replicate c.package c.ty) s = (c.result, after)) : Performed (c :: calls) after

/-- The call put the entry into the registry, and the calls after it have left it there. The last call stands first. -/
def MadeBy (calls : List Call) (name : String) (e : Registry.Entry) (c : Call) : Prop :=
  ∃ later earlier before after, calls = later ++ c :: earlier ∧ Performed earlier before ∧
    outcome (c.cx.replicate c.package c.ty) before = (c.result, after) ∧
    before.registry.find? name = none ∧ after.registry.find? name = some e

theorem MadeBy.mem {calls : List Call} {name : String} {e : Registry.Entry} {c : Call} (made : MadeBy calls name e c) :
    c ∈ calls := by
  obtain ⟨later, earlier, _, _, rfl, _⟩ := made
  exact List.mem_append_right _ (List.mem_cons_self ..)

theorem MadeBy.cons {calls : List Call} {name : String} {e : Registry.Entry} {c : Call} (made : MadeBy calls name e c)
    (last : Call) : MadeBy (last :: calls) name e c := by
  obtain ⟨later, earlier, before, after, rfl, made⟩ := made
  exact ⟨last :: later, earlier, before, after, rfl, made⟩

/-- A failing call may leave references to what it gave up. -/
def Lost (c : Call) (dep : String) : Prop := ∃ e, c.result = .error e ∧ Doomed c.cx e dep

variable {calls : List Call} {s : ReplicationState}

theorem call_adds {c : Call} {after : ReplicationState} (sound : Sound s.registry)
    (finished : ∀ entry ∈ s.registry.entries, entry.2.replica.isSome = true)
    (run : outcome (c.cx.replicate c.package c.ty) s = (c.result, after)) :
    Adds c.cx.catalog (Lost c) s.registry after.registry := by
  cases result : c.result with
  | ok ref =>
    rw [result] at run
    have lands := replicate_post (lands_sustained c.cx c.package) run sound
    exact lands.adds.imp nofun
  | error e =>
    rw [result] at run
    have wrecks := replicate_breaks (lands_sustained ..) (wrecks_broken ..) sound.unique finished run sound
    exact wrecks.adds.imp fun dep doomed => ⟨e, result, doomed⟩

theorem Performed.settled (performed : Performed calls s) :
    Sound s.registry ∧ ∀ entry ∈ s.registry.entries, ∃ c, MadeBy calls entry.1 entry.2 c ∧
      Settled c.cx.catalog (Lost c) s.registry entry.1 entry.2 := by
  induction performed with
  | fresh => exact ⟨⟨List.nodup_nil, nofun⟩, nofun⟩
  | task before ih => exact ih
  | @call calls s after c before run ih =>
    obtain ⟨sound, settled⟩ := ih
    have adds := call_adds sound (fun entry member => (settled entry member).elim fun _ of => of.2.finished) run
    obtain ⟨new, whole, added⟩ := adds.entries
    refine ⟨adds.sound, ?_⟩
    have made : ∀ entry ∈ new, MadeBy (c :: calls) entry.1 entry.2 c := by
      intro entry member
      have there : entry ∈ after.registry.entries := whole ▸ List.mem_append_right _ member
      exact ⟨[], calls, s, after, rfl, before, run, adds.absent whole member, find?_of_mem adds.sound.unique there⟩
    rw [whole]
    refine List.forall_mem_append.mpr ⟨fun entry member => ?_, fun entry member => ?_⟩
    · obtain ⟨earlier, made, settled⟩ := settled entry member
      exact ⟨earlier, made.cons c, settled.later adds.keeps fun _ lost => lost⟩
    · exact ⟨c, made entry member, added entry member⟩

theorem Performed.all_finished (performed : Performed calls s) :
    ∀ entry ∈ s.registry.entries, entry.2.replica.isSome = true :=
  fun entry member => (performed.settled.2 entry member).elim fun _ of => of.2.finished

/-- After any calls each entry is of a finished copy, which depends on just the model types that the properties of its
type lead to. Each of these has a finished copy as well, unless the call that made the copy failed, for want of a type
that the missing one leads to. -/
theorem finished_refer (performed : Performed calls s) {name : String} {e : Registry.Entry}
    (found : s.registry.find? name = some e) :
    e.replica.isSome = true ∧ ∃ c ∈ calls, MadeBy calls name e c ∧
      (∀ dep, dep ∈ e.deps ↔ Leads c.cx.catalog name dep) ∧
      ∀ dep, Leads c.cx.catalog name dep →
        (∃ other, s.registry.find? dep = some other ∧ other.replica.isSome = true) ∨
        ∃ failure, c.result = .error failure ∧ Doomed c.cx failure dep := by
  obtain ⟨-, settled⟩ := performed.settled
  obtain ⟨c, made, finished, follows, linked⟩ := settled _ (mem_of_find? found)
  refine ⟨finished, c, made.mem, made, fun dep => ⟨follows.leads dep, follows.whole finished dep⟩, fun dep leads => ?_⟩
  rcases linked dep (follows.whole finished dep leads) with present | lost
  · obtain ⟨other, there⟩ := Option.isSome_iff_exists.mp (mem_names_iff.mp present)
    obtain ⟨_, _, done, _⟩ := settled _ (mem_of_find? there)
    exact .inl ⟨other, there, done⟩
  · exact .inr lost

/-- A class that cannot be constructed and one that it shares a cycle with. -/
def node : Descriptor where
  name := "com.acme.Node"
  properties := [{ name := "link", ty := .named "com.acme.Link" [] 0 }]
  constructors := [{ visibility := .priv }]

def link : Descriptor where
  name := "com.acme.Link"
  properties := [{ name := "node", ty := .named "com.acme.Node" [] 0 }]

def ring : Context where
  catalog := (Catalog.empty.add node).add link
  storedDoc _ := .ok {}

def nodeCall : Call where
  cx := ring
  package := "gen.model"
  ty := .named "com.acme.Node" [] 0
  result := .error (.noConstructor "com.acme.Node")

def ringState : ReplicationState := (outcome (ring.replicate nodeCall.package nodeCall.ty) {}).2

theorem ring_performed : Performed [nodeCall] ringState := by
  have stops : (outcome (ring.replicate nodeCall.package nodeCall.ty) {}).1.map (fun _ => ()) =
      .error (.noConstructor "com.acme.Node") := by decide +kernel
  have result : (outcome (ring.replicate nodeCall.package nodeCall.ty) {}).1 = nodeCall.result := by
    cases outcome : (outcome (ring.replicate nodeCall.package nodeCall.ty) {}).1 with
    | error e =>
      rw [outcome] at stops
      cases stops
      rfl
    | ok ref =>
      rw [outcome] at stops
      cases stops
  exact .call .fresh (Prod.ext result rfl)

theorem link_entry : ∃ e, ringState.registry.find? "com.acme.Link" = some e ∧ e.deps = ["com.acme.Node"] := by
  have deps : (ringState.registry.find? "com.acme.Link").map (·.deps) = some ["com.acme.Node"] := by decide +kernel
  exact Option.map_eq_some_iff.mp deps

theorem node_missing : ringState.registry.find? "com.acme.Node" = none := by
  have gone : (ringState.registry.find? "com.acme.Node").isNone = true := by decide +kernel
  exact Option.isNone_iff_eq_none.mp gone

theorem link_leads : Leads ring.catalog "com.acme.Link" "com.acme.Node" := by
  refine ⟨link, by rfl, by rfl, _, List.mem_singleton_self _, ?_⟩
  decide +kernel

theorem link_refers : ∃ e, ringState.registry.find? "com.acme.Link" = some e ∧ e.replica.isSome = true ∧
    MadeBy [nodeCall] "com.acme.Link" e nodeCall ∧ Lost nodeCall "com.acme.Node" := by
  obtain ⟨e, found, _⟩ := link_entry
  obtain ⟨finished, c, member, made, _, linked⟩ := finished_refer ring_performed found
  obtain rfl := List.mem_singleton.mp member
  refine ⟨e, found, finished, made, ?_⟩
  rcases linked _ link_leads with ⟨other, there, _⟩ | lost
  · rw [node_missing] at there
    cases there
  · exact lost

/-- The copy of the link is finished, and the copy of the node that it refers to is gone. -/
theorem link_dangles : ¬ ∀ (cx : Context) (calls : List Call) (s : ReplicationState), Performed calls s →
    (∀ c ∈ calls, c.cx = cx) → ∀ name e, s.registry.find? name = some e → e.replica.isSome = true →
    ∀ dep, Leads cx.catalog name dep →
      ∃ other, s.registry.find? dep = some other ∧ other.replica.isSome = true := by
  intro whole
  obtain ⟨e, found, _⟩ := link_entry
  have finished : (ringState.registry.find? "com.acme.Link").all (·.replica.isSome) = true := by decide +kernel
  rw [found] at finished
  have same : ∀ c ∈ [nodeCall], c.cx = ring := List.forall_mem_singleton.mpr rfl
  obtain ⟨other, there, _⟩ := whole ring _ _ ring_performed same _ e found finished _ link_leads
  rw [node_missing] at there
  cases there

end Runs

end PluginForge.Proofs.ReferenceIntegrity

import PluginForge.Proofs.ReferenceIntegrity
import PluginForge.Proofs.ReplicationInvariant

/-! Copies after any calls, failing ones included. However a registry has come about, each entry is of a type of the
catalog, and each finished copy is made from the references of its properties. -/

namespace PluginForge.Proofs.AttemptedCopies
open Replication ModelTypes RegistryEntries ReplicationLogic ReplicationRule ReplicationInvariant ReplicationFailure
open ReferenceIntegrity

/-- Each entry is that of the type it is kept under. -/
def Fitting (cx : Context) (package : String) (r : Registry) : Prop :=
  ∀ entry ∈ r.entries, ∃ d, Fits cx package entry.1 entry.2 d

variable {cx : Context} {package : String} {ty : SourceType} {d : Descriptor} {s last : ReplicationState}

section Steps

theorem Fitting.drafted (fitting : Fitting cx package s.registry) (model : Model cx.catalog ty d) :
    Fitting cx package (drafted package ty (copyKind d) s).registry :=
  List.forall_mem_append.mpr ⟨fitting, List.forall_mem_singleton.mpr ⟨d, draft_fits model⟩⟩

theorem Fitting.completed (fitting : Fitting cx package last.registry) (model : Model cx.catalog ty d)
    {replica : Replica} {deps : List String} (copy : Copy cx package d replica deps) :
    Fitting cx package (completed ty replica deps last).registry := by
  refine List.forall_mem_map.mpr fun entry member => ?_
  obtain ⟨other, fits⟩ := fitting entry member
  split
  next named =>
    obtain rfl := (named ▸ fits).of_model model
    refine ⟨other, { fits with copy := ?_, pending := nofun }⟩
    rintro _ ⟨⟩
    exact copy
  next => exact ⟨other, fits⟩

theorem Fitting.forgotten (fitting : Fitting cx package last.registry) :
    Fitting cx package (forgotten ty last).registry := fun entry member => fitting entry (List.mem_of_mem_filter member)

/-- What a step that yields the reference to a type leaves. -/
structure Attempted (cx : Context) (package : String) (ty : SourceType) (ref : ReplicaRef) (after : ReplicationState) :
    Prop where
  fitting : Fitting cx package after.registry
  refers : RefOf cx.catalog package ty ref

theorem each_attempted {types : List SourceType} {refs : List ReplicaRef}
    (each : Each (fun ty s ref after => Fitting cx package s.registry → Attempted cx package ty ref after)
      types s refs last)
    (fitting : Fitting cx package s.registry) :
    Fitting cx package last.registry ∧ ∀ part ∈ types.zip refs, RefOf cx.catalog package part.1 part.2 := by
  obtain ⟨fittingLast, done⟩ := each.thread Attempted.fitting fitting
  exact ⟨fittingLast, done.forall_zip Attempted.refers⟩

theorem attempted_sustained (cx : Context) (package : String) :
    Sustained cx package fun ty s ref after => Fitting cx package s.registry → Attempted cx package ty ref after where
  passthrough plain fitting := ⟨fitting, .passthrough plain⟩
  collection held copied run fitting := ⟨(run fitting).fitting, .collection held copied (run fitting).refers⟩
  again {ty d s entry} model copied found fitting := by
    obtain ⟨other, fits⟩ := fitting _ (mem_of_find? found)
    obtain rfl := fits.of_model model
    exact ⟨fitting, fits.refers copied⟩
  enum {ty d s replica} model copied isEnum absent made fitting := by
    have kind : copyKind d = .enum := by simp [copyKind, isEnum]
    rw [replicaName_eq, model.name_eq] at made
    rw [← kind] at copied ⊢
    exact ⟨(fitting.drafted model).completed model (.enum isEnum made), (draft_fits model).refers copied⟩
  plain {ty d s last doc refs converter} model copied notEnum absent documented inner converts fitting := by
    have kind : copyKind d = .class := by simp [copyKind, notEnum]
    obtain ⟨fittingLast, known⟩ := each_attempted inner (kind ▸ fitting.drafted model)
    have copy := plain_copy model notEnum documented (by simpa using inner.length_eq) known converts
    rw [← kind] at copied ⊢
    exact ⟨fittingLast.completed model copy, (draft_fits model).refers copied⟩

theorem attempted_broken (cx : Context) (package : String) :
    Broken cx package (fun ty s ref after => Fitting cx package s.registry → Attempted cx package ty ref after)
      fun _ s _ after => Fitting cx package s.registry → Fitting cx package after.registry where
  collection _ _ run := run
  undocumented model _ _ _ fitting := (fitting.drafted model).forgotten
  property {ty d s middle last refs before rest p e} model _ notEnum _ _ inner run fitting := by
    have kind : copyKind d = .class := by simp [copyKind, notEnum]
    exact (run (each_attempted inner (kind ▸ fitting.drafted model)).1).forgotten
  construction {ty d s last refs} model _ notEnum _ inner _ fitting := by
    have kind : copyKind d = .class := by simp [copyKind, notEnum]
    exact (each_attempted inner (kind ▸ fitting.drafted model)).1.forgotten

end Steps

variable {calls : List Call}

/-- Calls in one context that put their copies in one place. -/
def Alike (cx : Context) (package : String) (calls : List Call) : Prop :=
  ∀ c ∈ calls, c.cx = cx ∧ c.package = package

theorem performed_fitting (performed : Performed calls s) (alike : Alike cx package calls) :
    Fitting cx package s.registry := by
  induction performed with
  | fresh => exact nofun
  | task before ih => exact ih alike
  | @call calls s after c before run ih =>
    obtain ⟨⟨rfl, rfl⟩, earlier⟩ := List.forall_mem_cons.mp alike
    have fitting := ih earlier
    cases result : c.result with
    | ok ref =>
      rw [result] at run
      exact (replicate_post (attempted_sustained c.cx c.package) run fitting).fitting
    | error e =>
      rw [result] at run
      exact replicate_breaks (attempted_sustained ..) (attempted_broken ..) before.settled.1.unique before.all_finished
        run fitting

/-- What a further call refers to. -/
theorem performed_refers {ref : ReplicaRef} {after : ReplicationState} (performed : Performed calls s)
    (alike : Alike cx package calls) (yields : Yields (cx.replicate package ty) s ref after) :
    RefOf cx.catalog package ty ref :=
  (replicate_post (attempted_sustained cx package) yields (performed_fitting performed alike)).refers

end PluginForge.Proofs.AttemptedCopies

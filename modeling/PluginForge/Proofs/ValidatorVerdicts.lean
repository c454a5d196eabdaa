import PluginForge.Proofs.ValidationWalk

/-! The verdicts of a validator in a run of calls. A type that an accepted task covers counts as processed, and
what is processed is not checked, so a type passes exactly when it is a task or one of the tasks validated
earlier in the pass covers it. -/

namespace PluginForge.Proofs.ValidatorVerdicts
open Validator ValidationWalk ModelTypes

variable {σ : Type} {catalog : Catalog} {name : String}

/-- A class with exactly one executable method, which takes no parameters and returns nothing. -/
def IsTask (catalog : Catalog) (name : String) : Prop :=
  ∃ d m, catalog.load? name = some d ∧ d.executables = [m] ∧ m.parameters = [] ∧ m.returns.isVoid = true

theorem taskMethod_eq_ok_iff {d : Descriptor} {m : SourceMethod} :
    d.taskMethod = .ok m ↔ d.executables = [m] ∧ m.parameters = [] ∧ m.returns.isVoid = true := by
  unfold Descriptor.taskMethod
  split
  next only single =>
    rw [single]
    split
    next takes =>
      refine ⟨fun fails => (nomatch fails), ?_⟩
      rintro ⟨same, bare, _⟩
      cases same
      simp [bare] at takes
    next bare =>
      split
      next value =>
        refine ⟨fun fails => (nomatch fails), ?_⟩
        rintro ⟨same, _, void⟩
        cases same
        simp [void] at value
      next void =>
        constructor
        · intro same
          cases same
          exact ⟨rfl, by simpa using bare, by simpa using void⟩
        · rintro ⟨same, _⟩
          cases same
          rfl
  next others notSingle =>
    constructor
    · exact fun fails => nomatch fails
    · exact fun ⟨single, _⟩ => absurd single (notSingle m)

theorem check_eq_ok_iff : check catalog name = .ok () ↔ IsTask catalog name := by
  unfold check IsTask
  cases loaded : catalog.load? name with
  | none => simp
  | some d =>
    simp only [Option.some.injEq, ← taskMethod_eq_ok_iff]
    cases method : d.taskMethod with
    | error e => simp [method, Except.map]
    | ok m => simp [method, Except.map]

inductive Call where
  | start
  | validate (name : String)

def perform (catalog : Catalog) (store : DocStore σ) (state : Validator × σ) : Call → Validator × σ
  | .start => (state.1.start, state.2)
  | .validate name => (state.1.validate catalog store name state.2).2

/-- A fresh validator after some calls, with what they stored. -/
def performAll (catalog : Catalog) (store : DocStore σ) (docs : σ) (calls : List Call) : Validator × σ :=
  calls.foldl (perform catalog store) ({}, docs)

/-- The types validated in the pass that the calls end in. -/
def pass (calls : List Call) : List String :=
  calls.foldl (fun tasks call => match call with | .start => [] | .validate name => name :: tasks) []

/-- The verdict on a type after some calls. -/
def verdict (catalog : Catalog) (store : DocStore σ) (docs : σ) (calls : List Call) (name : String) :
    Except GenerateError Unit :=
  ((performAll catalog store docs calls).1.validate catalog store name (performAll catalog store docs calls).2).1

def CoveredBy (catalog : Catalog) (tasks : List String) (name : String) : Prop :=
  ∃ task ∈ tasks, IsTask catalog task ∧ Covers catalog task name

def Tracks (catalog : Catalog) (tasks : List String) (v : Validator) : Prop :=
  ∀ name, name ∈ v.processed ↔ CoveredBy catalog tasks name

theorem Tracks.closed {tasks : List String} {v : Validator} (tracks : Tracks catalog tasks v) :
    Closed catalog v.processed := by
  intro name member d loaded p inside isModel
  obtain ⟨task, known, isTask, covers⟩ := (tracks name).mp member
  exact (tracks _).mpr ⟨task, known, isTask, .property covers loaded inside isModel⟩

theorem Tracks.judged {tasks : List String} {v after : Validator} {result : Except GenerateError Unit}
    {stored : List Descriptor} (tracks : Tracks catalog tasks v)
    (judged : Judged catalog v name result after stored) : Tracks catalog (name :: tasks) after := by
  intro other
  have split : CoveredBy catalog (name :: tasks) other ↔
      (IsTask catalog name ∧ Covers catalog name other) ∨ other ∈ v.processed := by
    rw [tracks other]
    simp [CoveredBy]
  rw [split]
  cases result with
  | error e =>
    obtain ⟨rfl, _, fails⟩ := judged.rejects
    have notTask : ¬ IsTask catalog name := by simp [← check_eq_ok_iff, fails]
    simp [notTask]
  | ok done =>
    have closed := tracks.closed
    rw [judged.covers_iff closed other]
    cases judged with
    | again known =>
      have within : Covers catalog name other → other ∈ v.processed := closed.covers known
      tauto
    | accepted fresh passes loaded walk =>
      have isTask := check_eq_ok_iff.mp passes
      tauto

/-- One call keeps track: a new pass has no tasks yet, and a validated type joins those of its pass. -/
theorem Tracks.performed {store : DocStore σ} (accepts : Accepts store) {tasks : List String} {state : Validator × σ}
    (tracks : Tracks catalog tasks state.1) (call : Call) :
    Tracks catalog (match call with | .start => [] | .validate name => name :: tasks)
      (perform catalog store state call).1 := by
  cases call with
  | start => exact fun name => by simp [perform, Validator.start, CoveredBy]
  | validate name =>
    obtain ⟨stored, judged, _⟩ := @validate_judged _ catalog _ accepts state.1 name state.2
    exact tracks.judged judged

theorem Tracks.run {store : DocStore σ} (accepts : Accepts store) {tasks : List String} {state : Validator × σ}
    (tracks : Tracks catalog tasks state.1) (calls : List Call) :
    Tracks catalog
      (calls.foldl (fun tasks call => match call with | .start => [] | .validate name => name :: tasks) tasks)
      (calls.foldl (perform catalog store) state).1 := by
  induction calls generalizing tasks state with
  | nil => exact tracks
  | cons call rest ih => exact ih (tracks.performed accepts call)

theorem performAll_tracks {store : DocStore σ} (accepts : Accepts store) (docs : σ) (calls : List Call) :
    Tracks catalog (pass calls) (performAll catalog store docs calls).1 := by
  have fresh : Tracks catalog [] ({} : Validator) := fun name => by simp [CoveredBy]
  exact @Tracks.run _ _ _ accepts _ ({}, docs) fresh calls

theorem verdict_of_covered {store : DocStore σ} (accepts : Accepts store) (docs : σ) {calls : List Call}
    (covered : CoveredBy catalog (pass calls) name) : verdict catalog store docs calls name = .ok () := by
  have known := (performAll_tracks accepts docs calls name).mpr covered
  rw [verdict, validate, if_pos (by simpa using known)]

theorem verdict_of_uncovered {store : DocStore σ} (accepts : Accepts store) (docs : σ) {calls : List Call}
    (uncovered : ¬ CoveredBy catalog (pass calls) name) :
    verdict catalog store docs calls name = check catalog name := by
  have fresh : name ∉ (performAll catalog store docs calls).1.processed :=
    fun known => uncovered ((performAll_tracks accepts docs calls name).mp known)
  obtain ⟨stored, judged, _⟩ := @validate_judged _ catalog _ accepts (performAll catalog store docs calls).1 name
    (performAll catalog store docs calls).2
  rw [verdict]
  generalize Validator.validate _ _ _ _ _ = outcome at judged
  obtain ⟨result, after, last⟩ := outcome
  cases judged with
  | again known => exact absurd known fresh
  | rejected _ fails => exact fails.symm
  | accepted _ passes loaded walk => exact passes.symm

/-- A task with a property of a class that is none. -/
def build : Descriptor where
  name := "com.acme.Build"
  properties := [{ name := "settings", ty := .ofName "com.acme.Settings" }]
  methods := [{ name := "run", executable := true }]

def settings : Descriptor where
  name := "com.acme.Settings"

def builds : Catalog := ((∅ : Catalog).add build).add settings

private theorem build_covers : CoveredBy builds (pass [.validate "com.acme.Build"]) "com.acme.Settings" := by
  have isTask : IsTask builds "com.acme.Build" := ⟨build, { name := "run", executable := true }, rfl, rfl, rfl, rfl⟩
  have isModel : builds.isModel (.ofName "com.acme.Settings") = true := rfl
  have loaded : builds.load? "com.acme.Build" = some build := rfl
  exact ⟨"com.acme.Build", List.mem_singleton_self _, isTask, .property .root loaded (List.mem_singleton_self _) isModel⟩

private theorem settings_notTask : ¬ IsTask builds "com.acme.Settings" := by
  rintro ⟨d, m, loaded, executables, _⟩
  cases (show builds.load? "com.acme.Settings" = some settings from rfl).symm.trans loaded
  cases executables

/-- A validator passes just the tasks and what a task validated earlier in the pass covers, so the verdict on
a type depends on the types validated before it exactly where one of them covers it. -/
theorem verdict_eq_ok_iff {store : DocStore σ} (accepts : Accepts store) (docs : σ) (calls : List Call)
    (name : String) :
    (verdict catalog store docs calls name = .ok () ↔ IsTask catalog name ∨ CoveredBy catalog (pass calls) name) ∧
    (¬ CoveredBy catalog (pass calls) name → verdict catalog store docs calls name = check catalog name) := by
  refine ⟨?_, verdict_of_uncovered accepts docs⟩
  by_cases covered : CoveredBy catalog (pass calls) name
  · simp [verdict_of_covered accepts docs covered, covered]
  · rw [verdict_of_uncovered accepts docs covered, check_eq_ok_iff]
    simp [covered]

theorem settings_pass : Accepts DocStore.memory ∧ ¬ IsTask builds "com.acme.Settings" ∧
    verdict builds DocStore.memory ∅ [.validate "com.acme.Build"] "com.acme.Settings" = .ok () :=
  ⟨memory_accepts, settings_notTask, ((verdict_eq_ok_iff memory_accepts ∅ _ _).1).mpr (.inr build_covers)⟩

theorem verdicts_unsound : ¬ ∀ (catalog : Catalog) (σ : Type) (store : DocStore σ) (docs : σ) (calls : List Call)
    (name : String), Accepts store → verdict catalog store docs calls name = .ok () → IsTask catalog name := by
  intro sound
  have passes := verdict_of_covered memory_accepts ∅ build_covers
  exact settings_notTask (sound builds _ DocStore.memory ∅ _ _ memory_accepts passes)

end PluginForge.Proofs.ValidatorVerdicts

import Mathlib.Data.List.Forall2
import PluginForge.Proofs.EvaluationRules
import PluginForge.Proofs.Scopes

/-! Which local variables code leaves alone. Code that nowhere defines or assigns a variable of a name goes on with the
value that is known under the name, whatever it calls and however often its loops run. -/

namespace PluginForge.Proofs.LocalVariables
open Evaluation EvaluationRules CodeParts NamedEntries Scopes

/-- The name that the statement itself defines or assigns. -/
def written? : Stmt → Option String
  | .define v _ | .assign v _ => some v.name
  | _ => none

/-- No statement anywhere in the code defines or assigns a variable of the name. -/
def Spares (name : String) (code : Stmt) : Prop := AllStmts (fun part => written? part ≠ some name) code

section Locals
variable {name : String} {locals inner last : Locals}

/-- The same variables, with the same value under the name. -/
def Agrees (name : String) : Locals → Locals → Prop :=
  List.Forall₂ fun new old => new.1 = old.1 ∧ (old.1 = name → new.2 = old.2)

/-- The variables after some code: before those that were there stand new ones, none of which hides the name. -/
def Keeps (name : String) (locals inner : Locals) : Prop :=
  ∃ pushed kept, inner = pushed ++ kept ∧ name ∉ pushed.map (·.1) ∧ Agrees name kept locals

theorem Agrees.refl (name : String) (locals : Locals) : Agrees name locals locals :=
  List.forall₂_same.mpr fun _ _ => ⟨rfl, fun _ => rfl⟩

theorem Agrees.trans (early : Agrees name inner locals) (late : Agrees name last inner) : Agrees name last locals := by
  induction early generalizing last with
  | nil => exact late
  | cons first _ ih =>
    cases late with
    | cons next others =>
      refine .cons ⟨next.1.trans first.1, fun isName => ?_⟩ (ih others)
      exact (next.2 (first.1.trans isName)).trans (first.2 isName)

theorem Agrees.names (agrees : Agrees name inner locals) : inner.map (·.1) = locals.map (·.1) := by
  induction agrees with
  | nil => rfl
  | cons first _ ih => rw [List.map_cons, List.map_cons, first.1, ih]

theorem Agrees.lookup (agrees : Agrees name inner locals) : inner.lookup name = locals.lookup name := by
  induction agrees with
  | nil => rfl
  | @cons new old _ _ first _ ih =>
    rw [List.lookup_cons, List.lookup_cons, first.1, ih]
    by_cases isName : old.1 = name
    · rw [first.2 isName]
    · rw [beq_eq_false_iff_ne.mpr fun same => isName same.symm]

theorem agrees_assign {other : String} {value : Value} (apart : other ≠ name)
    (assigned : locals.assign other value = some inner) : Agrees name inner locals := by
  induction locals generalizing inner with
  | nil => cases assigned
  | cons first rest ih =>
    obtain ⟨current, old⟩ := first
    rw [Locals.assign] at assigned
    split at assigned
    next same =>
      cases assigned
      exact .cons ⟨same.symm, fun isName => absurd (same.symm.trans isName) apart⟩ (Agrees.refl name rest)
    next =>
      obtain ⟨others, changed, rfl⟩ := Option.map_eq_some_iff.mp assigned
      exact .cons ⟨rfl, fun _ => rfl⟩ (ih changed)

theorem Keeps.refl (name : String) (locals : Locals) : Keeps name locals locals :=
  ⟨[], locals, rfl, List.not_mem_nil, .refl name locals⟩

theorem Keeps.define {other : String} (value : Value) (apart : other ≠ name) :
    Keeps name locals ((other, value) :: locals) :=
  ⟨[(other, value)], locals, rfl, by simpa using apart.symm, .refl name locals⟩

theorem Keeps.trans (early : Keeps name locals inner) (late : Keeps name inner last) : Keeps name locals last := by
  obtain ⟨before, base, rfl, outside, agrees⟩ := early
  obtain ⟨pushed, kept, rfl, apart, same⟩ := late
  have first := List.forall₂_take_append kept before base same
  have rest := List.forall₂_drop_append kept before base same
  refine ⟨pushed ++ kept.take before.length, kept.drop before.length, ?_, ?_, agrees.trans rest⟩
  · rw [List.append_assoc, List.take_append_drop]
  · rw [List.map_append, List.mem_append, Agrees.names first]
    exact fun inside => inside.elim apart outside

theorem Keeps.lookup (keeps : Keeps name locals inner) : inner.lookup name = locals.lookup name := by
  obtain ⟨pushed, kept, rfl, apart, agrees⟩ := keeps
  rw [lookup_append_of_notMem apart, agrees.lookup]

end Locals

section Running
variable {σ : Type} {lib : Library σ} {call : MethodDef → Value → List Value → Run σ Value} {rounds : Nat}
  {frame : Frame} {name : String} {locals : Locals} {s after : σ} {ending : Ending}

/-- Code that goes on has kept what is known under the name. -/
def EndsKeeping (name : String) (locals : Locals) : Ending → Prop
  | .next inner => Keeps name locals inner
  | .ret _ => True

theorem endsKeeping_within (keeps : EndsKeeping name locals ending) : EndsKeeping name locals (ending.within locals) := by
  cases ending with
  | ret value => trivial
  | next inner =>
    obtain ⟨pushed, kept, rfl, _, agrees⟩ := keeps
    have ends : (Ending.next (pushed ++ kept)).within locals = .next kept := by
      rw [Ending.within, ← agrees.length_eq, List.length_append, Nat.add_sub_cancel, List.drop_left]
    rw [ends]
    exact ⟨[], kept, rfl, List.not_mem_nil, agrees⟩

theorem endsKeeping_enclosed {code : Locals → Run σ Ending}
    (keeps : ∀ ending middle, Gives (code locals) s ending middle → EndsKeeping name locals ending)
    (runs : Gives (enclosed code locals) s ending after) : EndsKeeping name locals ending := by
  obtain ⟨whole, middle, first, rest⟩ := runs.split
  obtain ⟨rfl, _⟩ := rest.unique (gives_pure _ middle)
  exact endsKeeping_within (keeps whole middle first)

theorem endsKeeping_andThen {first : Ending} {rest : Locals → Run σ Ending} (kept : EndsKeeping name locals first)
    (keeps : ∀ inner, Gives (rest inner) s ending after → EndsKeeping name inner ending)
    (runs : Gives (first.andThen rest) s ending after) : EndsKeeping name locals ending := by
  cases first with
  | ret value =>
    obtain ⟨rfl, _⟩ := Gives.unique runs (gives_pure _ s)
    trivial
  | next inner =>
    have later := keeps inner runs
    cases ending with
    | ret value => trivial
    | next last => exact Keeps.trans kept later

/-- A loop keeps what each of its rounds keeps. -/
theorem repeatWhile_keeps {condition : Locals → Run σ Bool} {body : Locals → Run σ Ending}
    (keeps : ∀ locals s ending after, Gives (body locals) s ending after → EndsKeeping name locals ending)
    (runs : Gives (repeatWhile condition body rounds locals) s ending after) : EndsKeeping name locals ending := by
  induction rounds generalizing locals s with
  | zero =>
    rw [repeatWhile] at runs
    cases runs
  | succ rounds ih =>
    rw [repeatWhile] at runs
    obtain ⟨holds, middle, _, runs⟩ := runs.split
    cases holds with
    | false =>
      obtain ⟨rfl, _⟩ := Gives.unique runs (gives_pure _ middle)
      exact .refl name locals
    | true =>
      rw [if_pos rfl] at runs
      obtain ⟨first, _, round, others⟩ := runs.split
      exact endsKeeping_andThen (keeps _ _ _ _ round) (fun inner => ih) others

mutual

theorem runStmt_keeps : ∀ {code : Stmt} {locals : Locals} {s after : σ} {ending : Ending}, Spares name code →
    Gives (runStmt lib call rounds frame code locals) s ending after → EndsKeeping name locals ending
  | .expr e, locals, s, after, ending, _, runs => by
    rw [runStmt] at runs
    obtain ⟨_, middle, _, rest⟩ := runs.split
    obtain ⟨rfl, _⟩ := rest.unique (gives_pure _ middle)
    exact .refl name locals
  | .define v e, locals, s, after, ending, spares, runs => by
    rw [runStmt] at runs
    obtain ⟨value, middle, _, rest⟩ := runs.split
    obtain ⟨rfl, _⟩ := rest.unique (gives_pure _ middle)
    exact .define value (by simpa [Spares, written?] using spares)
  | .assign v e, locals, s, after, ending, spares, runs => by
    have apart : v.name ≠ name := by simpa [Spares, written?] using spares
    rw [runStmt] at runs
    obtain ⟨value, middle, _, rest⟩ := runs.split
    obtain ⟨inner, last, assigns, finishes⟩ := rest.split
    obtain ⟨rfl, _⟩ := finishes.unique (gives_pure _ last)
    cases assigned : locals.assign v.name value with
    | none =>
      rw [assigned] at assigns
      cases assigns
    | some changed =>
      rw [assigned] at assigns
      obtain ⟨rfl, _⟩ := assigns.unique (gives_pure _ middle)
      exact ⟨[], inner, rfl, List.not_mem_nil, agrees_assign apart assigned⟩
  | .assignField receiver field ty value, locals, s, after, ending, _, runs => by
    rw [runStmt] at runs
    obtain ⟨_, _, _, rest⟩ := runs.split
    obtain ⟨_, _, _, rest⟩ := rest.split
    obtain ⟨_, last, _, rest⟩ := rest.split
    obtain ⟨rfl, _⟩ := rest.unique (gives_pure _ last)
    exact .refl name locals
  | .ifThen condition body, locals, s, after, ending, spares, runs => by
    have inside : Spares name body := ((allStmts_ifThen condition body).mp spares).2
    rw [runStmt] at runs
    obtain ⟨holds, middle, _, rest⟩ := runs.split
    cases holds with
    | false =>
      obtain ⟨rfl, _⟩ := Gives.unique rest (gives_pure _ middle)
      exact .refl name locals
    | true => exact endsKeeping_enclosed (fun _ _ => runStmt_keeps inside) rest
  | .ifElse condition body otherwise, locals, s, after, ending, spares, runs => by
    obtain ⟨_, first, second⟩ := (allStmts_ifElse condition body otherwise).mp spares
    rw [runStmt] at runs
    obtain ⟨holds, middle, _, rest⟩ := runs.split
    cases holds with
    | false => exact endsKeeping_enclosed (fun _ _ => runStmt_keeps second) rest
    | true => exact endsKeeping_enclosed (fun _ _ => runStmt_keeps first) rest
  | .whileLoop condition body, locals, s, after, ending, spares, runs => by
    have inside : Spares name body := ((allStmts_whileLoop condition body).mp spares).2
    rw [runStmt] at runs
    exact repeatWhile_keeps (fun _ _ _ _ => endsKeeping_enclosed fun _ _ => runStmt_keeps inside) runs
  | .ret none, locals, s, after, ending, _, runs => by
    rw [runStmt] at runs
    obtain ⟨rfl, _⟩ := Gives.unique runs (gives_pure _ s)
    trivial
  | .ret (some e), locals, s, after, ending, _, runs => by
    rw [runStmt] at runs
    obtain ⟨_, middle, _, rest⟩ := runs.split
    obtain ⟨rfl, _⟩ := rest.unique (gives_pure _ middle)
    trivial
  | .raise e, locals, s, after, ending, _, runs => by
    rw [runStmt] at runs
    obtain ⟨_, _, _, rest⟩ := runs.split
    cases rest
  | .block statements, locals, s, after, ending, spares, runs => by
    have inside := ((allStmts_block statements).mp spares).2
    rw [runStmt] at runs
    exact endsKeeping_enclosed (fun _ _ => runAll_keeps inside) runs

theorem runAll_keeps : ∀ {statements : List Stmt} {locals : Locals} {s after : σ} {ending : Ending},
    (∀ code ∈ statements, Spares name code) →
    Gives (runAll lib call rounds frame statements locals) s ending after → EndsKeeping name locals ending
  | [], locals, s, after, ending, _, runs => by
    rw [runAll] at runs
    obtain ⟨rfl, _⟩ := Gives.unique runs (gives_pure _ s)
    exact .refl name locals
  | first :: rest, locals, s, after, ending, spares, runs => by
    obtain ⟨here, others⟩ := List.forall_mem_cons.mp spares
    rw [runAll] at runs
    obtain ⟨_, _, begins, continues⟩ := runs.split
    exact endsKeeping_andThen (runStmt_keeps here begins) (fun _ => runAll_keeps others) continues

end

end Running

section Conversions
variable {conversion : Conversion} {name other : String} {value : Expr}

/-- A conversion writes no variables but its own. -/
theorem convert_spares (apart : other ∉ conversionNames name) :
    ∀ code ∈ (conversion.convert name value).1, Spares other code := by
  simp only [conversionNames, List.mem_cons, List.not_mem_nil, or_false, not_or] at apart
  obtain ⟨own, source, iterator⟩ := apart
  cases conversion with
  | identity => simp [Conversion.convert]
  | model converter ty => simp [Conversion.convert, Spares, written?, Ne.symm own]
  | collection converter kind copy ty element =>
    simp [Conversion.convert, Conversion.fill, Spares, written?, Ne.symm own, Ne.symm source, Ne.symm iterator]

end Conversions

end PluginForge.Proofs.LocalVariables

import Mathlib.Data.List.Basic
import PluginForge.Code.Stmt

/-! Flattening of statements. A statement is flattened into those of its blocks and of the blocks directly in them, while
branches and loops stay whole. A block has no expressions of its own, so what a walk finds in the whole statement it finds,
in the same order, in the flattened ones. -/

namespace PluginForge.Proofs.FlattenedStatements

def isBlock : Stmt → Bool
  | .block _ => true
  | _ => false

/-- The statements on a walk that are no blocks. -/
def steps (s : Stmt) : List Stmt := s.walk.filter fun t => !isBlock t

section Blocks

mutual

/-- Induction that opens blocks and nothing else, as flattening does. -/
@[elab_as_elim]
theorem blockInduction {P : Stmt → Prop} (plain : ∀ s, isBlock s = false → P s)
    (block : ∀ statements, (∀ s ∈ statements, P s) → P (.block statements)) (s : Stmt) : P s := by
  match s with
  | .block statements => exact block statements (blockInductionAll plain block statements)
  | .expr _ | .define _ _ | .assign _ _ | .assignField _ _ _ _ | .ifThen _ _ | .ifElse _ _ _ | .whileLoop _ _ | .ret _
  | .raise _ => exact plain _ rfl
termination_by structural s

theorem blockInductionAll {P : Stmt → Prop} (plain : ∀ s, isBlock s = false → P s)
    (block : ∀ statements, (∀ s ∈ statements, P s) → P (.block statements)) (statements : List Stmt) :
    ∀ s ∈ statements, P s := by
  match statements with
  | [] => exact List.forall_mem_nil _
  | s :: rest => exact List.forall_mem_cons.mpr ⟨blockInduction plain block s, blockInductionAll plain block rest⟩
termination_by structural statements

end

theorem flatten_plain {s : Stmt} (plain : isBlock s = false) : s.flatten = [s] := by
  cases s with
  | block statements => cases plain
  | _ => rfl

theorem flatten_block (statements : List Stmt) : (Stmt.block statements).flatten = statements.flatMap Stmt.flatten := by
  rw [Stmt.flatten, Stmt.flattenAll_eq]

/-- No block is left. -/
theorem flatten_unblocked (s : Stmt) : ∀ t ∈ s.flatten, isBlock t = false := by
  induction s using blockInduction with
  | plain s plain =>
    rw [flatten_plain plain]
    exact List.forall_mem_singleton.mpr plain
  | block statements each =>
    rw [flatten_block]
    exact List.forall_mem_flatMap.mpr each

theorem flatten_block_plain {statements : List Stmt} (plain : ∀ s ∈ statements, isBlock s = false) :
    (Stmt.block statements).flatten = statements := by
  calc (Stmt.block statements).flatten
    _ = statements.flatMap fun s => [s] := by
      rw [flatten_block]
      exact List.flatMap_congr fun s member => flatten_plain (plain s member)
    _ = statements := List.flatMap_singleton' statements

end Blocks

section Walks

/-- What is gathered from every statement on a walk, and from blocks nothing, is gathered from the flattened statements. -/
theorem flatMap_walk {α : Type} {found : Stmt → List α} (nothing : ∀ statements, found (.block statements) = [])
    (s : Stmt) : s.walk.flatMap found = s.flatten.flatMap fun t => t.walk.flatMap found := by
  induction s using blockInduction with
  | plain s plain => rw [flatten_plain plain, List.flatMap_singleton]
  | block statements each =>
    calc (Stmt.block statements).walk.flatMap found
      _ = statements.flatMap fun s => s.walk.flatMap found := by
        rw [Stmt.walk, List.flatMap_cons, nothing, List.nil_append, Stmt.walkAll_eq, List.flatMap_assoc]
      _ = statements.flatMap fun s => s.flatten.flatMap fun t => t.walk.flatMap found := List.flatMap_congr each
      _ = (Stmt.block statements).flatten.flatMap fun t => t.walk.flatMap found := by
        rw [flatten_block, List.flatMap_assoc]

theorem walkExprs_flatten (s : Stmt) : s.walkExprs = s.flatten.flatMap Stmt.walkExprs := flatMap_walk (fun _ => rfl) s

theorem invokedMethods_flatten (s : Stmt) : s.invokedMethods = s.flatten.flatMap Stmt.invokedMethods := by
  rw [Stmt.invokedMethods, walkExprs_flatten, List.filterMap_flatMap]
  rfl

theorem steps_eq (s : Stmt) : steps s = s.walk.flatMap fun t => [t].filter fun t => !isBlock t := by
  rw [← List.filter_flatMap, List.flatMap_singleton', steps]

theorem steps_flatten (s : Stmt) : steps s = s.flatten.flatMap steps := by
  rw [steps_eq, flatMap_walk fun _ => rfl]
  exact List.flatMap_congr fun t _ => (steps_eq t).symm

/-- Flattening leaves no block and nothing more to flatten. The expressions, called methods and statements other than blocks
that a walk finds are those that it finds in the flattened statements one after the other, in the same order. -/
theorem flattening_keeps_visits (s : Stmt) :
    (∀ t ∈ s.flatten, isBlock t = false) ∧
    (Stmt.block s.flatten).flatten = s.flatten ∧
    s.walkExprs = s.flatten.flatMap Stmt.walkExprs ∧
    s.invokedMethods = s.flatten.flatMap Stmt.invokedMethods ∧
    steps s = s.flatten.flatMap steps :=
  ⟨flatten_unblocked s, flatten_block_plain (flatten_unblocked s), walkExprs_flatten s, invokedMethods_flatten s,
    steps_flatten s⟩

-- A block that is the body of a branch stays where it is.
example : (Stmt.block [.block [.ret none], .ifThen .this (.block [.ret none])]).flatten =
    [.ret none, .ifThen .this (.block [.ret none])] := rfl

end Walks

end PluginForge.Proofs.FlattenedStatements

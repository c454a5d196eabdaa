import PluginForge.Generation.Conversion
import PluginForge.Proofs.SourceLibrary

/-! Element by element conversion of a collection. While the loop runs, the new collection and the iterator
stand side by side behind the objects from before, and what the converter makes of the elements comes after. -/

namespace PluginForge.Proofs.CollectionFilling
open Evaluation EvaluationRules ObjectTrees SourceLibrary ModelTypes

/-- A value in a heap that has grown, and the tree that it stands for: objects from inside a region or new ones. -/
structure Restored (inside : Nat → Prop) (heap : Heap) (result : Value) (after : Heap) (tree : ObjectTree) : Prop where
  grows : heap <+: after
  fresh : ∀ a, result = .ref a → heap.length ≤ a
  holds : Holds (fun a => inside a ∨ heap.length ≤ a) after result tree

/-- Calls of a method turn copies of a limited size back into what they are copies of. -/
def Restores (w : World) (package : String) (call : MethodDef → Value → List Value → Run Heap Value) (owner : Nat)
    (converter : MethodDef) (ty : SourceType) (limit : Nat) : Prop :=
  ∀ inside heap value tree, (∀ a, inside a → a < heap.length) → heap[owner]? = some .host →
    Holds inside heap value tree → IsCopy w.catalog package ty tree → tree.size ≤ limit →
    ∃ result after, Gives (call converter (.ref owner) [value]) heap result after ∧
      Restored inside heap result after (original w.catalog w.equality tree ty)

section
variable {heap extra : Heap} {first second other : Cell}

theorem getElem?_first : (heap ++ first :: second :: extra)[heap.length]? = some first := by simp

theorem getElem?_second : (heap ++ first :: second :: extra)[heap.length + 1]? = some second := by simp

theorem set_first : (heap ++ first :: second :: extra).set heap.length other = heap ++ other :: second :: extra := by
  simp

theorem set_second : (heap ++ first :: second :: extra).set (heap.length + 1) other = heap ++ first :: other :: extra := by
  simp

theorem getElem?_apart {third fourth : Cell} {a : Nat} (apart : a < heap.length ∨ heap.length + 2 ≤ a) :
    (heap ++ first :: second :: extra)[a]? = (heap ++ third :: fourth :: extra)[a]? := by
  rcases apart with before | behind
  · rw [List.getElem?_append_left before, List.getElem?_append_left before]
  · obtain ⟨n, rfl⟩ := Nat.exists_eq_add_of_le behind
    have shift : heap.length + 2 + n = heap.length + (n + 2) := by omega
    rw [shift, List.getElem?_append_right (by omega), List.getElem?_append_right (by omega)]
    simp

end

variable {w : World} {inside : Nat → Prop} {heap : Heap}

/-- A new element is compared like the tree that it stands for. -/
private theorem same_iff {e value : Value} {first second : ObjectTree} (holds : Holds inside heap e first)
    (new : Holds inside heap value second) (fresh : ∀ a, value = .ref a → e ≠ .ref a) :
    (e == value || w.equality.onValues heap e value) =
      (sameLeaf first second || w.equality.onTrees first second) := by
  by_cases same : e = value
  · subst same
    have closed : ∀ a, e ≠ .ref a := fun a reference => fresh a reference reference
    have leaf {tree : ObjectTree} (stands : Holds inside heap e tree) : tree = .leaf e := by
      cases stands with
      | leaf => rfl
      | object => exact absurd rfl (closed _)
      | collection => exact absurd rfl (closed _)
    rw [leaf holds, leaf new]
    simp [sameLeaf]
  · have apart : sameLeaf first second = false := by
      cases holds with
      | leaf =>
        cases new with
        | leaf => simpa [sameLeaf] using same
        | object | collection => rfl
      | object | collection => rfl
    rw [beq_eq_false_iff_ne.mpr same, apart, w.equality.agrees inside heap e value first second same holds new]

private theorem refs_exist {elements : List Value} {trees : List ObjectTree}
    (holds : List.Forall₂ (Holds inside heap) elements trees) : ∀ e ∈ elements, ∀ a, e = .ref a → a < heap.length := by
  induction holds with
  | nil => exact fun e member => nomatch member
  | cons first _ ih =>
    refine List.forall_mem_cons.mpr ⟨?_, ih⟩
    rintro a rfl
    exact first.lt_length

theorem insert_holds {kind : CollectionKind} {elements : List Value} {trees : List ObjectTree} {value : Value}
    {tree : ObjectTree} (holds : List.Forall₂ (Holds inside heap) elements trees) (new : Holds inside heap value tree)
    (fresh : ∀ a, value = .ref a → ∀ e ∈ elements, e ≠ .ref a) :
    List.Forall₂ (Holds inside heap) (w.elementsWith heap kind elements value)
      (w.equality.insert kind trees tree) := by
  have appended := List.rel_append holds (.cons new .nil)
  cases kind with
  | list => exact appended
  | set =>
    have any : (elements.any fun e => e == value || w.equality.onValues heap e value) =
        trees.any fun e => sameLeaf e tree || w.equality.onTrees e tree := by
      clear appended
      induction holds with
      | nil => rfl
      | cons first _ ih =>
        rw [List.any_cons, List.any_cons, ih (fun a reference e member => fresh a reference e (.tail _ member)),
          same_iff first new fun a reference => fresh a reference _ (.head _)]
    simp only [World.elementsWith, World.adds, Equality.insert, any]
    cases trees.any fun e => sameLeaf e tree || w.equality.onTrees e tree with
    | true => exact holds
    | false => exact appended

section
variable {package : String} {call : MethodDef → Value → List Value → Run Heap Value} {owner rounds limit : Nat}
  {converter : MethodDef} {element : SourceType} {frame : Frame} {locals : Locals} {iterator target : Variable}
  {name : String} {elementRef copyRef : TypeRef} {kind : CollectionKind}

def nextConverted (name : String) (elementRef copyRef : TypeRef) (iterator : Variable) : Expr :=
  Expr.this.invoke name elementRef [iterator.toLocal.invoke "next" copyRef []]

theorem eval_hasNext {a : Nat} {rest : List Value} (bound : locals.lookup iterator.name = some (.ref a))
    (known : heap[a]? = some (.iterator rest)) :
    Gives (evalExpr w.library call frame locals (iterator.toLocal.invoke "hasNext" .boolean [])) heap
      (.literal (.boolean !rest.isEmpty)) heap :=
  eval_invoke (eval_local bound) evalAll_nil (send_hasNext known)

/-- One round: the iterator moves on, the element is converted behind all other objects, and what it is
converted to is added to the collection. -/
theorem add_next {done rest : List Value} {doneTrees : List ObjectTree} {value : Value} {tree : ObjectTree}
    {extra : Heap} (restores : Restores w package call owner converter element limit)
    (found : w.methods.find? (·.name == name) = some converter) (this : frame.this = .ref owner)
    (host : heap[owner]? = some .host) (region : ∀ a, inside a → a < heap.length)
    (iterates : locals.lookup iterator.name = some (.ref (heap.length + 1)))
    (collects : locals.lookup target.name = some (.ref heap.length))
    (holds : Holds inside heap value tree) (isCopy : IsCopy w.catalog package element tree)
    (small : tree.size ≤ limit)
    (filled : List.Forall₂ (Holds (fun a => inside a ∨ heap.length + 2 ≤ a)
      (heap ++ .collection kind done :: .iterator (value :: rest) :: extra)) done doneTrees) :
    ∃ result done' more,
      Gives (evalExpr w.library call frame locals
        (target.toLocal.invoke "add" .boolean [nextConverted name elementRef copyRef iterator]))
        (heap ++ .collection kind done :: .iterator (value :: rest) :: extra) result
        (heap ++ .collection kind done' :: .iterator rest :: more) ∧
      List.Forall₂ (Holds (fun a => inside a ∨ heap.length + 2 ≤ a)
        (heap ++ .collection kind done' :: .iterator rest :: more)) done'
        (w.equality.insert kind doneTrees (original w.catalog w.equality tree element)) := by
  have moved := @send_next w call (heap ++ .collection kind done :: .iterator (value :: rest) :: extra)
    (heap.length + 1) value rest getElem?_second
  rw [set_second] at moved
  have outside : ∀ a, inside a ∨ heap.length + 2 ≤ a → a < heap.length ∨ heap.length + 2 ≤ a :=
    fun a within => within.imp_left (region a)
  have grown : heap <+: heap ++ .collection kind done :: .iterator rest :: extra := List.prefix_append _ _
  obtain ⟨result, after, converts, restored⟩ := restores inside
    (heap ++ .collection kind done :: .iterator rest :: extra) value tree
    (fun a within => Nat.lt_of_lt_of_le (region a within) grown.length_le)
    (by rw [List.getElem?_append_left (List.getElem?_eq_some_iff.mp host).1]; exact host)
    (holds.grow grown) isCopy small
  obtain ⟨new, rfl⟩ := restored.grows
  have shape : heap ++ .collection kind done :: .iterator rest :: extra ++ new =
      heap ++ .collection kind done :: .iterator rest :: (extra ++ new) := by simp
  have before : List.Forall₂ (Holds (fun a => inside a ∨ heap.length + 2 ≤ a)
      (heap ++ .collection kind done :: .iterator rest :: extra)) done doneTrees :=
    filled.imp fun e t stands => stands.agree fun a within _ => getElem?_apart (outside a within)
  have fresh : ∀ a, result = .ref a → ∀ e ∈ done, e ≠ .ref a := fun a reference e member same =>
    Nat.not_le_of_lt (refs_exist before e member a same) (restored.fresh a reference)
  have stands : Holds (fun a => inside a ∨ heap.length + 2 ≤ a)
      (heap ++ .collection kind done :: .iterator rest :: extra ++ new) result
      (original w.catalog w.equality tree element) :=
    restored.holds.mono fun a within => within.imp_right fun behind => by
      simp only [List.length_append, List.length_cons] at behind
      omega
  have kept := before.imp fun e t stands => stands.grow (List.prefix_append _ new)
  rw [shape] at converts stands kept
  have added := @send_add w call (heap ++ .collection kind done :: .iterator rest :: (extra ++ new)) heap.length
    result kind done getElem?_first
  rw [set_first] at added
  have next : Gives (evalExpr w.library call frame locals (iterator.toLocal.invoke "next" copyRef [])) _ value _ :=
    eval_invoke (eval_local iterates) evalAll_nil moved
  have element : Gives (send w.library call (.ref owner) name [value]) _ result _ :=
    send_converter (by rw [List.getElem?_append_left (List.getElem?_eq_some_iff.mp host).1, host]) found converts
  refine ⟨_, _, extra ++ new, eval_invoke (eval_local collects) ?_ added, ?_⟩
  · refine evalAll_cons (eval_invoke eval_this (evalAll_cons next evalAll_nil) ?_) evalAll_nil
    rw [this]
    exact element
  · exact (insert_holds kept stands fresh).imp fun e t stands =>
      stands.agree fun a within _ => getElem?_apart (outside a within)

theorem fill_loop {budget : Nat} {done rest : List Value} {doneTrees trees : List ObjectTree} {extra : Heap}
    (restores : Restores w package call owner converter element limit)
    (found : w.methods.find? (·.name == name) = some converter) (this : frame.this = .ref owner)
    (host : heap[owner]? = some .host) (region : ∀ a, inside a → a < heap.length)
    (iterates : locals.lookup iterator.name = some (.ref (heap.length + 1)))
    (collects : locals.lookup target.name = some (.ref heap.length))
    (holds : List.Forall₂ (Holds inside heap) rest trees)
    (copies : ∀ tree ∈ trees, IsCopy w.catalog package element tree ∧ tree.size ≤ limit)
    (filled : List.Forall₂ (Holds (fun a => inside a ∨ heap.length + 2 ≤ a)
      (heap ++ .collection kind done :: .iterator rest :: extra)) done doneTrees)
    (enough : rest.length < budget) :
    ∃ final more,
      Gives (repeatWhile (test w.library call frame (iterator.toLocal.invoke "hasNext" .boolean []))
        (enclosed (runStmt w.library call rounds frame
          (.expr (target.toLocal.invoke "add" .boolean [nextConverted name elementRef copyRef iterator]))))
        budget locals)
        (heap ++ .collection kind done :: .iterator rest :: extra) (.next locals)
        (heap ++ .collection kind final :: .iterator [] :: more) ∧
      List.Forall₂ (Holds (fun a => inside a ∨ heap.length + 2 ≤ a)
        (heap ++ .collection kind final :: .iterator [] :: more)) final
        ((originalElements w.catalog w.equality trees element).foldl (w.equality.insert kind) doneTrees) := by
  obtain ⟨budget, rfl⟩ := Nat.exists_eq_add_one_of_ne_zero (Nat.ne_of_gt (Nat.zero_lt_of_lt enough))
  induction holds generalizing done doneTrees extra budget with
  | nil =>
    refine ⟨done, extra, repeatWhile_done ?_, filled⟩
    exact gives_test (eval_hasNext iterates getElem?_second)
  | @cons value tree rest trees first others ih =>
    obtain ⟨⟨isCopy, small⟩, copies⟩ := List.forall_mem_cons.mp copies
    obtain ⟨result, done', more, adds, filled'⟩ := add_next restores found this host region iterates collects first
      isCopy small filled
    rw [List.length_cons] at enough
    obtain ⟨budget, rfl⟩ := Nat.exists_eq_add_one_of_ne_zero (show budget ≠ 0 by omega)
    obtain ⟨final, last, loops, whole⟩ := ih copies filled' budget (by omega)
    refine ⟨final, last, ?_, whole⟩
    exact repeatWhile_again (gives_test (eval_hasNext iterates getElem?_second)) (enclosed_expr adds) loops

theorem run_fillLoop {values : List Value} {trees : List ObjectTree}
    (restores : Restores w package call owner converter element limit)
    (found : w.methods.find? (·.name == name) = some converter) (this : frame.this = .ref owner)
    (host : heap[owner]? = some .host) (region : ∀ a, inside a → a < heap.length)
    (iterates : locals.lookup iterator.name = some (.ref (heap.length + 1)))
    (collects : locals.lookup target.name = some (.ref heap.length))
    (holds : List.Forall₂ (Holds inside heap) values trees)
    (copies : ∀ tree ∈ trees, IsCopy w.catalog package element tree ∧ tree.size ≤ limit)
    (enough : values.length < rounds) :
    ∃ final more,
      Gives (runStmt w.library call rounds frame
        (.whileLoop (iterator.toLocal.invoke "hasNext" .boolean [])
          (.expr (target.toLocal.invoke "add" .boolean [nextConverted name elementRef copyRef iterator]))) locals)
        (heap ++ .collection kind [] :: .iterator values :: []) (.next locals)
        (heap ++ .collection kind final :: .iterator [] :: more) ∧
      Holds (fun a => inside a ∨ heap.length ≤ a) (heap ++ .collection kind final :: .iterator [] :: more)
        (.ref heap.length)
        (.collection kind ((originalElements w.catalog w.equality trees element).foldl (w.equality.insert kind) [])) := by
  obtain ⟨final, more, loops, filled⟩ := fill_loop restores found this host region iterates collects holds copies .nil
    enough
  refine ⟨final, more, run_whileLoop loops, ?_⟩
  refine .collection (.inr (Nat.le_refl _)) getElem?_first filled.length_eq fun pair member => ?_
  refine ((List.forall₂_zip filled) member).mono fun a within => ?_
  exact within.imp_right fun behind => by omega

end

end PluginForge.Proofs.CollectionFilling

import PluginForge.Proofs.CollectionFilling

/-! Conversion of one value: the statements that turn it back leave an expression that holds what the value
is a copy of, and go on holding it while more variables are defined and more objects are made. -/

namespace PluginForge.Proofs.PropertyConversion
open NamedEntries Evaluation EvaluationRules ObjectTrees SourceLibrary ModelTypes CollectionFilling

def Mentions : Expr → String → Prop
  | .localVar v, name => v.name = name
  | _, _ => False

/-- The expression has the value, now and after more definitions and new objects. -/
def Offers (w : World) (call : MethodDef → Value → List Value → Run Heap Value) (frame : Frame) (locals : Locals)
    (heap : Heap) (e : Expr) (value : Value) : Prop :=
  ∀ (pushed : Locals) (later : Heap), (∀ name ∈ pushed.map (·.1), ¬ Mentions e name) → heap <+: later →
    Gives (evalExpr w.library call frame (pushed ++ locals) e) later value later

variable {w : World} {package : String} {call : MethodDef → Value → List Value → Run Heap Value}
  {owner rounds limit : Nat} {frame : Frame} {locals : Locals} {heap after : Heap} {e : Expr} {value : Value}
  {inside : Nat → Prop}

theorem Offers.now (offers : Offers w call frame locals heap e value) :
    Gives (evalExpr w.library call frame locals e) heap value heap :=
  offers [] heap (fun _ member => nomatch member) (List.prefix_refl heap)

theorem Offers.later (offers : Offers w call frame locals heap e value) {pushed : Locals}
    (apart : ∀ name ∈ pushed.map (·.1), ¬ Mentions e name) (grows : heap <+: after) :
    Offers w call frame (pushed ++ locals) after e value := by
  intro more final others growsMore
  rw [← List.append_assoc]
  refine offers (more ++ pushed) final ?_ (grows.trans growsMore)
  rw [List.map_append]
  exact List.forall_mem_append.mpr ⟨others, apart⟩

theorem offers_local {v : Variable} (known : locals.lookup v.name = some value) :
    Offers w call frame locals heap v.toLocal value := by
  intro pushed later apart _
  refine eval_local ?_
  rw [lookup_append_of_notMem fun member => apart v.name member rfl, known]

/-- The statements of a conversion have run: some variables of the given names are new, and the expression
holds what the tree is a copy of. -/
structure Converts (w : World) (call : MethodDef → Value → List Value → Run Heap Value) (rounds : Nat) (frame : Frame)
    (locals : Locals) (inside : Nat → Prop) (heap : Heap) (names : List String) (statements : List Stmt) (e : Expr)
    (tree : ObjectTree) (pushed : Locals) (result : Value) (after : Heap) : Prop where
  runs : Gives (runAll w.library call rounds frame statements locals) heap (.next (pushed ++ locals)) after
  named : pushed.map (·.1) ⊆ names
  grows : heap <+: after
  holds : Holds (fun a => inside a ∨ heap.length ≤ a) after result tree
  offers : Offers w call frame (pushed ++ locals) after e result

/-- Calls by the name of a converter restore copies of the type. -/
def Serves (w : World) (package : String) (call : MethodDef → Value → List Value → Run Heap Value) (owner : Nat)
    (ty : SourceType) (limit : Nat) : Prop :=
  ∃ converter, w.methods.find? (·.name == converterName ty) = some converter ∧
    Restores w package call owner converter ty limit

section
variable {name : String} {ty element : SourceType} {tree : ObjectTree} {ref : TypeRef}

theorem convert_identity (holds : Holds inside heap value tree)
    (reads : Offers w call frame locals heap e value) :
    Converts w call rounds frame locals inside heap [name, name ++ "Source"] (Conversion.identity.convert name e).1
      (Conversion.identity.convert name e).2 tree [] value heap where
  runs := runAll_nil
  named := fun _ member => nomatch member
  grows := List.prefix_refl heap
  holds := holds.mono fun _ => .inl
  offers := reads

theorem convert_model (serves : Serves w package call owner ty limit) (this : frame.this = .ref owner)
    (host : heap[owner]? = some .host) (region : ∀ a, inside a → a < heap.length)
    (holds : Holds inside heap value tree) (isCopy : IsCopy w.catalog package ty tree) (small : tree.size ≤ limit)
    (reads : Offers w call frame locals heap e value) :
    ∃ pushed result after, Converts w call rounds frame locals inside heap [name, name ++ "Source"]
      ((Conversion.model (converterName ty) ref).convert name e).1
      ((Conversion.model (converterName ty) ref).convert name e).2
      (original w.catalog w.equality tree ty) pushed result after := by
  obtain ⟨converter, found, restores⟩ := serves
  obtain ⟨result, after, converts, restored⟩ := restores inside heap value tree region host holds isCopy small
  refine ⟨[(name, result)], result, after, ?_, by simp, restored.grows, restored.holds, ?_⟩
  · refine runAll_cons (run_define (eval_invoke eval_this (evalAll_cons reads.now evalAll_nil) ?_)) runAll_nil
    rw [this]
    exact send_converter host found converts
  · exact offers_local (v := ⟨name, ref⟩) (by simp)

theorem fill_eq {kind : CollectionKind} {converter : String} {elementRef : TypeRef} {copies target : Variable} :
    ∃ iterator copyRef, iterator.name = name ++ "Iterator" ∧
      Conversion.fill name converter kind elementRef copies target =
        .ifThen copies.toLocal.isNotNull (.block [
          .assign target (.create (.class kind.implementation) []),
          .define iterator (copies.toLocal.invoke "iterator" iterator.ty []),
          .whileLoop (iterator.toLocal.invoke "hasNext" .boolean [])
            (.expr (target.toLocal.invoke "add" .boolean [nextConverted converter elementRef copyRef iterator]))]) :=
  ⟨⟨name ++ "Iterator", .parameterized "java.util.Iterator" [copies.ty.args.head?.getD .object]⟩, _, rfl, rfl⟩

section Filling
variable {σ : Type} {lib : Library σ} {call : MethodDef → Value → List Value → Run σ Value} {s created asked filled : σ}

theorem run_fill_null {kind : CollectionKind} {copies target : Variable} {converter : String} {elementRef : TypeRef}
    (known : locals.lookup copies.name = some .null) :
    Gives (runStmt lib call rounds frame (Conversion.fill name converter kind elementRef copies target) locals) s
      (.next locals) s := by
  obtain ⟨iterator, copyRef, _, unfolded⟩ := @fill_eq name kind converter elementRef copies target
  rw [unfolded]
  exact run_ifThen_false (eval_isNotNull (eval_local known))

/-- Around its loop, filling makes the collection and asks the copies for their iterator. -/
theorem run_filling {kind : CollectionKind} {copies target iterator : Variable} {loop : Stmt}
    {value collects iterates : Value} {rest : Locals} (object : value ≠ .null) (apart : copies.name ≠ target.name)
    (creates : Gives (lib.create (.class kind.implementation) []) s collects created)
    (asks : Gives (send lib call value "iterator" []) created iterates asked)
    (loops : Gives (runStmt lib call rounds frame loop
        ((iterator.name, iterates) :: (target.name, collects) :: (copies.name, value) :: rest)) asked
      (.next ((iterator.name, iterates) :: (target.name, collects) :: (copies.name, value) :: rest)) filled) :
    Gives (runStmt lib call rounds frame (.ifThen copies.toLocal.isNotNull (.block [
        .assign target (.create (.class kind.implementation) []),
        .define iterator (copies.toLocal.invoke "iterator" iterator.ty []), loop]))
        ((target.name, .null) :: (copies.name, value) :: rest)) s
      (.next ((target.name, collects) :: (copies.name, value) :: rest)) filled := by
  obtain ⟨outer, isOuter⟩ : ∃ outer : Locals, outer = (target.name, collects) :: (copies.name, value) :: rest := ⟨_, rfl⟩
  rw [← isOuter] at loops ⊢
  have start : List.lookup copies.name ((target.name, Value.null) :: (copies.name, value) :: rest) = some value := by
    rw [lookup_skip apart, List.lookup_cons_self]
  have assigned : Locals.assign target.name collects ((target.name, .null) :: (copies.name, value) :: rest) =
      some outer := by
    rw [isOuter, Locals.assign, if_pos rfl]
  have source : outer.lookup copies.name = some value := by
    rw [isOuter, lookup_skip apart, List.lookup_cons_self]
  have condition : Gives (evalExpr lib call frame ((target.name, .null) :: (copies.name, value) :: rest)
      copies.toLocal.isNotNull) s (.literal (.boolean (value ≠ .null))) s := eval_isNotNull (eval_local start)
  rw [decide_eq_true object] at condition
  have defined : Gives (runStmt lib call rounds frame
      (.define iterator (copies.toLocal.invoke "iterator" iterator.ty [])) outer) _ (.next (_ :: outer)) _ :=
    run_define (eval_invoke (eval_local source) evalAll_nil asks)
  have whole := run_ifThen_true condition (run_block (runAll_cons (run_assign (eval_create evalAll_nil creates) assigned)
    (runAll_cons defined (runAll_cons loops runAll_nil))))
  have ended : ((Ending.next ((iterator.name, iterates) :: outer)).within
      ((target.name, .null) :: (copies.name, value) :: rest)).within
      ((target.name, .null) :: (copies.name, value) :: rest) = .next outer := by simp [Ending.within, isOuter]
  rw [ended] at whole
  exact whole

end Filling

theorem run_fill (copies target : Variable) {kind held : CollectionKind} {c : Nat} {values : List Value}
    {elements : List ObjectTree} {rest : Locals} {elementRef : TypeRef}
    (serves : Serves w package call owner element limit) (this : frame.this = .ref owner)
    (host : heap[owner]? = some .host) (region : ∀ a, inside a → a < heap.length)
    (cell : heap[c]? = some (.collection held values)) (holds : List.Forall₂ (Holds inside heap) values elements)
    (parts : ∀ tree ∈ elements, IsCopy w.catalog package element tree ∧ tree.size ≤ limit)
    (enough : values.length < rounds) (apart : copies.name ≠ target.name)
    (iteratorApart : target.name ≠ name ++ "Iterator") :
    ∃ after, Gives (runStmt w.library call rounds frame
        (Conversion.fill name (converterName element) kind elementRef copies target)
        ((target.name, .null) :: (copies.name, .ref c) :: rest)) heap
        (.next ((target.name, .ref heap.length) :: (copies.name, .ref c) :: rest)) after ∧
      heap <+: after ∧ Holds (fun a => inside a ∨ heap.length ≤ a) after (.ref heap.length)
        (.collection kind ((originalElements w.catalog w.equality elements element).foldl (w.equality.insert kind) [])) := by
  obtain ⟨converter, found, restores⟩ := serves
  obtain ⟨iterator, copyRef, iteratorName, unfolded⟩ :=
    @fill_eq name kind (converterName element) elementRef copies target
  have known : (heap ++ [Cell.collection kind []])[c]? = some (.collection held values) := by
    rw [List.getElem?_append_left (List.getElem?_eq_some_iff.mp cell).1, cell]
  have shape : heap ++ [Cell.collection kind []] ++ [Cell.iterator values] =
      heap ++ .collection kind [] :: .iterator values :: [] := by simp
  have iterates := @send_iterator w call _ c held values known
  rw [shape, List.length_append, List.length_singleton] at iterates
  have collects : ((iterator.name, Value.ref (heap.length + 1)) :: (target.name, .ref heap.length) ::
      (copies.name, .ref c) :: rest).lookup target.name = some (.ref heap.length) := by
    rw [lookup_skip (iteratorName ▸ iteratorApart), List.lookup_cons_self]
  obtain ⟨final, more, loops, filled⟩ := @run_fillLoop w inside heap package call owner rounds limit converter element
    frame ((iterator.name, .ref (heap.length + 1)) :: (target.name, .ref heap.length) :: (copies.name, .ref c) :: rest)
    iterator target (converterName element) elementRef copyRef kind values elements restores found this host region
    (List.lookup_cons_self ..) collects holds parts enough
  refine ⟨heap ++ .collection kind final :: .iterator [] :: more, ?_, List.prefix_append _ _, filled⟩
  rw [unfolded]
  exact run_filling nofun apart (gives_create_collection kind) iterates loops

theorem append_ne_self {suffix : String} (some : suffix ≠ "") : name ++ suffix ≠ name := by
  intro same
  have whole : name ++ suffix = name ++ "" := by rw [same, String.append_empty]
  exact some ((String.append_right_inj name).mp whole)

theorem convert_collection {kind : CollectionKind} {copyRef elementRef : TypeRef}
    (classified : w.catalog.classify ty = .collection kind element) (copied : w.catalog.isModel element = true)
    (serves : Serves w package call owner element rounds) (this : frame.this = .ref owner)
    (host : heap[owner]? = some .host) (region : ∀ a, inside a → a < heap.length)
    (holds : Holds inside heap value tree) (isCopy : IsCopy w.catalog package ty tree) (small : tree.size ≤ rounds)
    (reads : Offers w call frame locals heap e value) :
    ∃ pushed result after, Converts w call rounds frame locals inside heap [name, name ++ "Source"]
      ((Conversion.collection (converterName element) kind copyRef ref elementRef).convert name e).1
      ((Conversion.collection (converterName element) kind copyRef ref elementRef).convert name e).2
      (original w.catalog w.equality tree ty) pushed result after := by
  have source : name ++ "Source" ≠ name := append_ne_self (by decide)
  have iterator : name ≠ name ++ "Iterator" := (append_ne_self (by decide)).symm
  have begin : Gives (runAll w.library call rounds frame [.define ⟨name ++ "Source", copyRef⟩ e,
      .define ⟨name, ref⟩ .null] locals) heap (.next ((name, .null) :: (name ++ "Source", value) :: locals)) heap :=
    runAll_cons (run_define reads.now) (runAll_cons (run_define (eval_literal .null)) runAll_nil)
  rcases copy_collection_cases classified copied isCopy with rfl | ⟨held, elements, rfl, parts⟩
  · cases holds with
    | leaf =>
      refine ⟨[(name, .null), (name ++ "Source", .null)], .null, heap, ?_, by simp, List.prefix_refl heap, ?_, ?_⟩
      · exact runAll_append begin (runAll_cons (run_fill_null (by simp [lookup_skip source])) runAll_nil)
      · rw [original_null]
        exact .null
      · exact offers_local (v := ⟨name, ref⟩) (by simp)
  · cases holds with
    | @collection c _ values _ within cell same stands =>
      rw [ObjectTree.size] at small
      have short := ObjectTree.length_le_elementsSize elements
      have enough : values.length < rounds := by omega
      obtain ⟨after, fills, grows, result⟩ := run_fill ⟨name ++ "Source", copyRef⟩ ⟨name, ref⟩ serves this host region cell
        (List.forall₂_iff_zip.mpr ⟨same, fun member => stands _ member⟩)
        (fun tree member => ⟨parts tree member, by have := ObjectTree.size_le_elementsSize member; omega⟩)
        enough source iterator
      refine ⟨[(name, .ref heap.length), (name ++ "Source", .ref c)], .ref heap.length, after, ?_, by simp, grows, ?_, ?_⟩
      · exact runAll_append begin (runAll_cons fills runAll_nil)
      · rw [original_collection classified copied]
        exact result
      · exact offers_local (v := ⟨name, ref⟩) (by simp)

/-- The conversion of a value of any type that generated code uses. -/
theorem convert_value (name : String) {reference : ReplicaRef} (refers : RefOf w.catalog package ty reference)
    (serves : ∀ model, w.catalog.isModel model = true → modelOf? w.catalog ty = some model.name →
      Serves w package call owner model rounds)
    (this : frame.this = .ref owner) (host : heap[owner]? = some .host) (region : ∀ a, inside a → a < heap.length)
    (holds : Holds inside heap value tree) (isCopy : IsCopy w.catalog package ty tree) (small : tree.size ≤ rounds)
    (reads : Offers w call frame locals heap e value) :
    ∃ pushed result after, Converts w call rounds frame locals inside heap [name, name ++ "Source"]
      (reference.conversion.convert name e).1 (reference.conversion.convert name e).2
      (original w.catalog w.equality tree ty) pushed result after := by
  cases refers with
  | model copied named =>
    exact convert_model (serves ty (isModel_iff.mpr ⟨_, copied⟩) (modelOf?_model copied)) this host region holds isCopy
      small reads
  | @collection _ element _ copy held copied _ =>
    exact convert_collection held copied (serves element copied (modelOf?_collection held copied)) this host region
      holds isCopy small reads
  | passthrough plain =>
    rw [original_passthrough plain]
    exact ⟨[], value, heap, convert_identity holds reads⟩

/-- A converted expression is the variable of the given name, unless the value is passed through. -/
theorem mentions_convert {conversion : Conversion} {other : String} (read : ¬ Mentions e other)
    (mentions : Mentions (conversion.convert name e).2 other) : other = name := by
  cases conversion with
  | identity => exact absurd mentions read
  | model => exact mentions.symm
  | collection => exact mentions.symm

end

end PluginForge.Proofs.PropertyConversion

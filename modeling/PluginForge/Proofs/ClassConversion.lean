import PluginForge.Generation.Replication
import PluginForge.Proofs.PropertyConversion

/-! Conversion of the properties of a copy, one after the other. Each leaves an expression that the later ones
do not disturb, since the variables of different properties have different names. -/

namespace PluginForge.Proofs.ClassConversion
open Replication Evaluation EvaluationRules ObjectTrees SourceLibrary ModelTypes CollectionFilling PropertyConversion

variable {w : World} {package : String} {call : MethodDef → Value → List Value → Run Heap Value}
  {owner rounds : Nat} {frame : Frame} {locals : Locals} {heap : Heap} {inside : Nat → Prop} {copyTy : TypeRef}
  {className : String} {values : List (String × Value)} {fields : List (String × ObjectTree)} {a : Nat}

def paramName (p : Property) : String := Naming.capitalize p.name ++ "Param"

theorem paramName_inj {p q : Property} (same : paramName p = paramName q) :
    Naming.capitalize p.name = Naming.capitalize q.name :=
  (String.append_left_inj "Param").mp same

theorem paramName_ne_source (p q : Property) : paramName p ≠ paramName q ++ "Source" := by
  intro same
  have last := congrArg (fun text : String => text.toList.getLast?) same
  simp only [paramName, String.toList_append] at last
  rw [List.getLast?_append_of_ne_nil _ (by decide), List.getLast?_append_of_ne_nil _ (by decide)] at last
  exact absurd last (by decide)

theorem paramName_ne_result (p : Property) : paramName p ≠ "result" := by
  intro same
  have last := congrArg (fun text : String => text.toList.getLast?) same
  simp only [paramName, String.toList_append] at last
  rw [List.getLast?_append_of_ne_nil _ (by decide)] at last
  exact absurd last (by decide)

private theorem kept {later : Heap} {address : Nat} {known : Cell} (grows : heap <+: later)
    (present : heap[address]? = some known) : later[address]? = some known := by
  obtain ⟨new, rfl⟩ := grows
  rw [List.getElem?_append_left (List.getElem?_eq_some_iff.mp present).1, present]

theorem offers_getter {method : String} {ty : TypeRef} {field : String × Value}
    (param : frame.parameters.lookup "value" = some (.ref a)) (cell : heap[a]? = some (.object .copy className values))
    (found : values.find? (fun field => Naming.getter field.1 == method) = some field) :
    Offers w call frame locals heap ((valueParameter copyTy).toParam.invoke method ty []) field.2 := by
  intro pushed later _ grows
  exact eval_invoke (eval_param param) evalAll_nil (send_getter (kept grows cell) found)

/-- Only the variable of its own property occurs in a converted expression. -/
theorem mentions_property {part : Property × ReplicaRef} {name : String}
    (mentions : Mentions (convertProperty copyTy part).2 name) : name = paramName part.1 := by
  have read : ¬ Mentions ((valueParameter copyTy).toParam.invoke (Naming.getter part.1.name) part.2.ty []) name := id
  exact mentions_convert read mentions

/-- What is known of a property before it is converted. -/
structure Readable (w : World) (package : String) (call : MethodDef → Value → List Value → Run Heap Value)
    (owner rounds : Nat) (inside : Nat → Prop) (heap : Heap) (values : List (String × Value))
    (fields : List (String × ObjectTree)) (part : Property × ReplicaRef) : Prop where
  refers : RefOf w.catalog package part.1.ty part.2
  serves : ∀ model, w.catalog.isModel model = true → modelOf? w.catalog part.1.ty = some model.name →
    Serves w package call owner model rounds
  field : ∃ value tree, values.find? (fun field => Naming.getter field.1 == Naming.getter part.1.name) =
      some (part.1.name, value) ∧ fields.lookup part.1.name = some tree ∧ Holds inside heap value tree ∧
      IsCopy w.catalog package part.1.ty tree ∧ tree.size ≤ rounds

/-- The converted expression of a property holds what the property is a copy of. -/
def Restates (w : World) (call : MethodDef → Value → List Value → Run Heap Value) (frame : Frame) (locals : Locals)
    (inside : Nat → Prop) (heap : Heap) (copyTy : TypeRef) (fields : List (String × ObjectTree))
    (part : Property × ReplicaRef) (value : Value) : Prop :=
  Offers w call frame locals heap (convertProperty copyTy part).2 value ∧
    ∃ tree, fields.lookup part.1.name = some tree ∧
      Holds inside heap value (original w.catalog w.equality tree part.1.ty)

theorem Readable.grow {later : Heap} {part : Property × ReplicaRef}
    (readable : Readable w package call owner rounds inside heap values fields part) (grows : heap <+: later) :
    Readable w package call owner rounds inside later values fields part := by
  obtain ⟨value, tree, found, isField, holds, copied⟩ := readable.field
  exact { readable with field := ⟨value, tree, found, isField, holds.grow grows, copied⟩ }

theorem Restates.later {later : Heap} {pushed : Locals} {part : Property × ReplicaRef} {value : Value}
    (restates : Restates w call frame locals inside heap copyTy fields part value)
    (apart : ∀ name ∈ pushed.map (·.1), name ≠ paramName part.1) (grows : heap <+: later) :
    Restates w call frame (pushed ++ locals) inside later copyTy fields part value := by
  obtain ⟨offers, tree, isField, holds⟩ := restates
  refine ⟨offers.later (fun name member mentions => ?_) grows, tree, isField, holds.grow grows⟩
  exact apart name member (mentions_property mentions)

theorem Restates.mono {wider : Nat → Prop} {part : Property × ReplicaRef} {value : Value}
    (restates : Restates w call frame locals inside heap copyTy fields part value) (implies : ∀ b, inside b → wider b) :
    Restates w call frame locals wider heap copyTy fields part value := by
  obtain ⟨offers, tree, isField, holds⟩ := restates
  exact ⟨offers, tree, isField, holds.mono implies⟩

theorem convert_properties (parts : List (Property × ReplicaRef))
    (param : frame.parameters.lookup "value" = some (.ref a)) (this : frame.this = .ref owner)
    (host : heap[owner]? = some .host) (cell : heap[a]? = some (.object .copy className values))
    (region : ∀ a, inside a → a < heap.length)
    (readable : ∀ part ∈ parts, Readable w package call owner rounds inside heap values fields part)
    (distinct : (parts.map fun part => Naming.capitalize part.1.name).Nodup) :
    ∃ pushed after, ∃ results : String → Value,
      Gives (runAll w.library call rounds frame (parts.flatMap fun part => (convertProperty copyTy part).1) locals) heap
        (.next (pushed ++ locals)) after ∧
      heap <+: after ∧
      (∀ name ∈ pushed.map (·.1), ∃ part ∈ parts, name ∈ [paramName part.1, paramName part.1 ++ "Source"]) ∧
      ∀ part ∈ parts, Restates w call frame (pushed ++ locals) (fun b => inside b ∨ heap.length ≤ b) after copyTy fields
        part (results part.1.name) := by
  induction parts generalizing heap locals with
  | nil => exact ⟨[], heap, fun _ => .null, runAll_nil, List.prefix_refl heap, by simp, by simp⟩
  | cons part rest ih =>
    obtain ⟨first, others⟩ := List.forall_mem_cons.mp readable
    rw [List.map_cons, List.nodup_cons] at distinct
    obtain ⟨value, tree, found, isField, holds, isCopy, small⟩ := first.field
    have read : Offers w call frame locals heap
        ((valueParameter copyTy).toParam.invoke (Naming.getter part.1.name) part.2.ty []) value :=
      offers_getter param cell found
    obtain ⟨early, result, middle, done⟩ := convert_value (paramName part.1) first.refers first.serves this host
      region holds isCopy small read
    have within : ∀ b, inside b → b < middle.length := fun b bound =>
      Nat.lt_of_lt_of_le (region b bound) done.grows.length_le
    obtain ⟨late, after, results, runs, grows, named, restates⟩ := @ih (early ++ locals) middle
      (kept done.grows host) (kept done.grows cell) within (fun other member => (others other member).grow done.grows)
      distinct.2
    have first : Restates w call frame (early ++ locals) (fun b => inside b ∨ heap.length ≤ b) middle copyTy fields part
        result := ⟨done.offers, tree, isField, done.holds⟩
    have apart : ∀ name ∈ late.map (·.1), name ≠ paramName part.1 := by
      rintro name member rfl
      obtain ⟨other, inRest, isName⟩ := named _ member
      rcases List.mem_pair.mp isName with same | same
      · exact distinct.1 (paramName_inj same ▸ List.mem_map_of_mem inRest)
      · exact paramName_ne_source _ _ same
    refine ⟨late ++ early, after, fun name => if name = part.1.name then result else results name, ?_, ?_, ?_, ?_⟩
    · rw [List.append_assoc]
      exact runAll_append done.runs runs
    · exact done.grows.trans grows
    · intro name member
      rw [List.map_append] at member
      rcases List.mem_append.mp member with member | member
      · obtain ⟨other, inRest, isName⟩ := named name member
        exact ⟨other, List.mem_cons_of_mem _ inRest, isName⟩
      · exact ⟨part, List.mem_cons_self .., done.named member⟩
    · rw [List.append_assoc]
      intro other member
      beta_reduce
      rcases List.mem_cons.mp member with rfl | member
      · rw [if_pos rfl]
        exact first.later apart grows
      · have different : other.1.name ≠ part.1.name := by
          intro same
          exact distinct.1 (same ▸ List.mem_map_of_mem member)
        rw [if_neg different]
        refine (restates other member).mono fun b => ?_
        exact Or.imp_right fun behind => Nat.le_trans done.grows.length_le behind

end PluginForge.Proofs.ClassConversion

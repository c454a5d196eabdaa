import PluginForge.Proofs.DisplayedTypes

/-! Types as generated code prints them. A type of the source and the reference that is made of it are trees of different
shapes with a printer each. Both print arguments with commas between them, and nested arrays come out as counted brackets.
So the printers agree, but for a wildcard without a bound, which gets one, and for arguments of void and primitives, which
are dropped. -/

namespace PluginForge.Proofs.PrintedTypes
open SourceType DisplayedTypes

variable {ty other : SourceType} {args : List SourceType} {name input text : String}

/-- Whether the name is void or that of a primitive, which have no arguments in generated code. -/
def isBasic (name : String) : Bool := name == "void" || (Primitive.ofKeyword? name).isSome

def objectType : SourceType := .named "java.lang.Object" [] 0

mutual

/-- The source type that is displayed as generated code prints the type. -/
def printed : SourceType → SourceType
  | .named name args dimensions => .named name (if isBasic name then [] else printedAll args) dimensions
  | .anything => .extending objectType
  | .extending bound => .extending (printed bound)
  | .above bound => .above (printed bound)

def printedAll : List SourceType → List SourceType
  | [] => []
  | arg :: rest => printed arg :: printedAll rest

end

/-- Nowhere in the type is a wildcard without a bound, or an argument of void or of a primitive. -/
inductive Verbatim : SourceType → Prop where
  | extending {bound : SourceType} (inner : Verbatim bound) : Verbatim (.extending bound)
  | above {bound : SourceType} (inner : Verbatim bound) : Verbatim (.above bound)
  | named {name : String} {args : List SourceType} {dimensions : Nat} (bare : isBasic name = true → args = [])
      (each : ∀ arg ∈ args, Verbatim arg) : Verbatim (.named name args dimensions)

theorem printedAll_eq (args : List SourceType) : printedAll args = args.map printed := by
  induction args with
  | nil => rfl
  | cons arg rest ih => rw [printedAll, ih, List.map_cons]

theorem toTypeRefs_eq (args : List SourceType) : toTypeRefs args = args.map toTypeRef := by
  induction args with
  | nil => rfl
  | cons arg rest ih => rw [toTypeRefs, ih, List.map_cons]

section Printers

/-- References are listed with commas between them. -/
theorem displayArgs_refs (refs : List TypeRef) :
    TypeRef.displayArgs refs = String.intercalate ", " (refs.map TypeRef.display) := by
  induction refs with
  | nil => rfl
  | cons ref rest ih =>
    cases rest with
    | nil => rw [TypeRef.displayArgs, List.map_singleton, String.intercalate_singleton]
    | cons second rest =>
      rw [TypeRef.displayArgs, ih, List.map_cons, List.map_cons, List.map_cons, String.intercalate_cons_cons]
      exact List.cons_ne_nil _ _

/-- So are the arguments of a source type. -/
theorem display_displayMore (arg : SourceType) (rest : List SourceType) :
    arg.display ++ displayMore rest = String.intercalate ", " ((arg :: rest).map display) := by
  induction rest generalizing arg with
  | nil => rw [displayMore, String.append_empty, List.map_singleton, String.intercalate_singleton]
  | cons second rest ih =>
    calc arg.display ++ displayMore (second :: rest)
      _ = arg.display ++ ", " ++ (second.display ++ displayMore rest) := by
        simp only [displayMore, String.append_assoc]
      _ = String.intercalate ", " ((arg :: second :: rest).map display) := by
        simp only [ih, List.map_cons, String.intercalate_cons_cons]

theorem displayArgs_cons (arg : SourceType) (rest : List SourceType) :
    SourceType.displayArgs (arg :: rest) = "<" ++ String.intercalate ", " ((arg :: rest).map display) ++ ">" := by
  rw [SourceType.displayArgs, ← display_displayMore, ← String.append_assoc]

/-- Every array around an element adds its brackets at the end. -/
theorem display_arrayOf (element : TypeRef) (dimensions : Nat) :
    (arrayOf element dimensions).display = element.display ++ String.join (List.replicate dimensions "[]") := by
  induction dimensions with
  | zero => simp [arrayOf]
  | succ dimensions ih => simp [arrayOf, TypeRef.display, ih, List.replicate_succ', String.join_append, String.append_assoc]

theorem keyword_of_known {p : Primitive} (known : Primitive.ofKeyword? name = some p) : p.keyword = name := by
  unfold Primitive.ofKeyword? at known
  exact eq_of_beq (List.find?_some known :)

/-- What a reference to a named type displays before the brackets. -/
theorem display_element (name : String) (alike : ∀ arg ∈ args, arg.toTypeRef.display = (printed arg).display) :
    (SourceType.toTypeRef (.named name args 0)).display =
      name ++ SourceType.displayArgs (if isBasic name then [] else printedAll args) := by
  rw [toTypeRef, arrayOf]
  by_cases isVoid : name = "void"
  · subst isVoid
    rfl
  rw [if_neg isVoid]
  cases known : Primitive.ofKeyword? name with
  | some p =>
    have basic : isBasic name = true := by simp [isBasic, known]
    simp only [basic, if_true, TypeRef.display, keyword_of_known known, SourceType.displayArgs, String.append_empty]
  | none =>
    have plain : isBasic name = false := by simp [isBasic, known, isVoid]
    simp only [plain, Bool.false_eq_true, if_false]
    cases args with
    | nil => exact String.append_empty.symm
    | cons arg rest =>
      have each : (toTypeRefs (arg :: rest)).map TypeRef.display = (printedAll (arg :: rest)).map display := by
        rw [toTypeRefs_eq, printedAll_eq, List.map_map, List.map_map]
        exact List.map_congr_left alike
      rw [printedAll] at each
      rw [printedAll, displayArgs_cons, ← each, ← displayArgs_refs]
      simp only [List.isEmpty_cons, Bool.false_eq_true, if_false, TypeRef.display, String.append_assoc]

mutual

/-- A reference is displayed as the type that it prints. -/
theorem display_toTypeRef (ty : SourceType) : ty.toTypeRef.display = (printed ty).display := by
  match ty with
  | .anything => rfl
  | .extending bound => rw [toTypeRef, TypeRef.display, display_toTypeRef bound, printed, display]
  | .above bound => rw [toTypeRef, TypeRef.display, display_toTypeRef bound, printed, display]
  | .named name args dimensions =>
    have element := display_element name (display_toTypeRefs args)
    rw [toTypeRef, arrayOf] at element
    rw [toTypeRef, display_arrayOf, element, printed, display]
termination_by structural ty

theorem display_toTypeRefs (args : List SourceType) : ∀ arg ∈ args, arg.toTypeRef.display = (printed arg).display := by
  match args with
  | [] => exact List.forall_mem_nil _
  | arg :: rest => exact List.forall_mem_cons.mpr ⟨display_toTypeRef arg, display_toTypeRefs rest⟩
termination_by structural args

end

end Printers

section Agreement

theorem Verbatim.printed_eq (verbatim : Verbatim ty) : printed ty = ty := by
  induction verbatim with
  | extending inner same => rw [printed, same]
  | above inner same => rw [printed, same]
  | @named name args dimensions bare each same =>
    have kept : printedAll args = args := by rw [printedAll_eq, List.map_congr_left same, List.map_id']
    rw [printed, kept]
    split
    next basic => rw [bare basic]
    next => rfl

mutual

theorem verbatim_of_printed (ty : SourceType) (same : printed ty = ty) : Verbatim ty := by
  match ty with
  | .anything => cases same
  | .extending bound => exact .extending (verbatim_of_printed bound (SourceType.extending.inj same))
  | .above bound => exact .above (verbatim_of_printed bound (SourceType.above.inj same))
  | .named name args dimensions =>
    obtain ⟨-, kept, -⟩ := SourceType.named.inj same
    by_cases basic : isBasic name = true
    · rw [if_pos basic] at kept
      exact .named (fun _ => kept.symm) (kept ▸ List.forall_mem_nil _)
    · rw [if_neg basic] at kept
      exact .named (fun isBasic => absurd isBasic basic) (verbatim_of_printedAll args kept)
termination_by structural ty

theorem verbatim_of_printedAll (args : List SourceType) (same : printedAll args = args) : ∀ arg ∈ args, Verbatim arg := by
  match args with
  | [] => exact List.forall_mem_nil _
  | arg :: rest =>
    obtain ⟨first, others⟩ := List.cons.inj same
    exact List.forall_mem_cons.mpr ⟨verbatim_of_printed arg first, verbatim_of_printedAll rest others⟩
termination_by structural args

end

theorem readable_objectType : Readable objectType :=
  .named (by decide) (List.all_eq_true.mp (by decide)) (List.forall_mem_nil _)

theorem readable_printed (readable : Readable ty) : Readable (printed ty) := by
  induction readable with
  | anything => exact .extending readable_objectType
  | extending inner shown => exact .extending shown
  | above inner shown => exact .above shown
  | @named name args dimensions present word each shown =>
    refine .named present word ?_
    split
    next => exact List.forall_mem_nil _
    next =>
      rw [printedAll_eq]
      exact List.forall_mem_map.mpr shown

theorem display_injective (readable : Readable ty) (readableOther : Readable other) (same : ty.display = other.display) :
    ty = other := by
  have read := readable.parse_display
  rw [same, readableOther.parse_display] at read
  exact (Except.ok.inj read).symm

/-- A type that has been read from some text is printed in generated code as it is displayed, but for wildcards without a
bound, which extend the root class there, and arguments of void and primitives, which are dropped. Types without either
are the ones that are printed unchanged, and references tell them apart. -/
theorem printers_agree (read : parse input = .ok ty) :
    ty.toTypeRef.display = (printed ty).display ∧
    (ty.toTypeRef.display = ty.display ↔ Verbatim ty) ∧
    ∀ text other, parse text = .ok other → Verbatim ty → Verbatim other →
      (other.toTypeRef = ty.toTypeRef ↔ other = ty) := by
  have readable := readable_of_parse read
  refine ⟨display_toTypeRef ty, ⟨fun same => ?_, fun verbatim => ?_⟩, fun text other readOther verbatim verbatimOther => ?_⟩
  · rw [display_toTypeRef] at same
    exact verbatim_of_printed ty (display_injective (readable_printed readable) readable same)
  · rw [display_toTypeRef, verbatim.printed_eq]
  · refine ⟨fun same => ?_, congrArg toTypeRef⟩
    have shown := congrArg TypeRef.display same
    rw [display_toTypeRef, display_toTypeRef, verbatim.printed_eq, verbatimOther.printed_eq] at shown
    exact display_injective (readable_of_parse readOther) readable shown

theorem verbatim_boundedMap : Verbatim boundedMap := verbatim_of_printed boundedMap rfl

theorem boundedMap_printed :
    parse "?extends Map< ? super\tA , ?  extends  B[ ] > [] [ ]" = .ok boundedMap ∧ Verbatim boundedMap ∧
    boundedMap.toTypeRef.display = "? extends Map<? super A, ? extends B[]>[][]" ∧
    ∀ text other, parse text = .ok other → Verbatim other → (other.toTypeRef = boundedMap.toTypeRef ↔ other = boundedMap) := by
  have read : parse "?extends Map< ? super\tA , ?  extends  B[ ] > [] [ ]" = .ok boundedMap := by rfl
  obtain ⟨-, unchanged, apart⟩ := printers_agree read
  refine ⟨read, verbatim_boundedMap, unchanged.mpr verbatim_boundedMap, fun text other readOther verbatim => ?_⟩
  exact apart text other readOther verbatim_boundedMap verbatim

example : (parse "java.util.Map<?, int<?>[]>").map (·.toTypeRef.display) =
    .ok "java.util.Map<? extends java.lang.Object, int[]>" := by rfl

end Agreement

end PluginForge.Proofs.PrintedTypes

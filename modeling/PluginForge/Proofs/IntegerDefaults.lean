import Mathlib.Tactic.IntervalCases
import Mathlib.Tactic.Ring
import PluginForge.Generation.DefaultValue
import PluginForge.Proofs.TypeGrammar

/-! Whole numbers as default values. What a text denotes is said by place values, apart from the reader, and a default
of a whole-number type is that number exactly, up to both ends of the type's range; any other text is an error. -/

namespace PluginForge.Proofs.IntegerDefaults
open Text TypeGrammar

/-- The decimal digits with what they count. -/
def digits : List (Char × Nat) :=
  [('0', 0), ('1', 1), ('2', 2), ('3', 3), ('4', 4), ('5', 5), ('6', 6), ('7', 7), ('8', 8), ('9', 9)]

/-- A run of digits, at least one, and its number: each digit counts by its place. -/
inductive Denotes : List Char → Nat → Prop where
  | last {digit : Char × Nat} (member : digit ∈ digits) : Denotes [digit.1] digit.2
  | more {digit : Char × Nat} {cs : List Char} {n : Nat} (member : digit ∈ digits) (rest : Denotes cs n) :
      Denotes (digit.1 :: cs) (digit.2 * 10 ^ cs.length + n)

/-- A run of digits after at most one sign. -/
inductive Numeral : List Char → Int → Prop where
  | bare {cs : List Char} {n : Nat} (run : Denotes cs n) : Numeral cs n
  | plus {cs : List Char} {n : Nat} (run : Denotes cs n) : Numeral ('+' :: cs) n
  | minus {cs : List Char} {n : Nat} (run : Denotes cs n) : Numeral ('-' :: cs) (-n)

/-- What a text is without the blanks around it. -/
structure Strips (text core : List Char) : Prop where
  around : ∃ before after, Blanks before ∧ Blanks after ∧ text = before ++ (core ++ after)
  first : ∀ c, core.head? = some c → isBlank c = false
  last : ∀ c, core.getLast? = some c → isBlank c = false

/-- The primitive types of whole numbers and how many bits their words have. -/
def width? : Primitive → Option Nat
  | .byte => some 8
  | .short => some 16
  | .int => some 32
  | .long => some 64
  | .boolean | .char | .float | .double => none

/-- The numbers that two's complement words have, both ends included. -/
def InRange (bits : Nat) (n : Int) : Prop := -2 ^ (bits - 1) ≤ n ∧ n ≤ 2 ^ (bits - 1) - 1

/-- The type and the value of a constant that is a whole number. -/
def whole? : Literal → Option (Primitive × Int)
  | .byte value => some (.byte, value.toInt)
  | .short value => some (.short, value.toInt)
  | .int value => some (.int, value.toInt)
  | .long value => some (.long, value.toInt)
  | .null | .boolean _ | .char _ | .float _ | .double _ | .string _ => none

/-- The number that a text stands for among words of a width. -/
def Fits (text : String) (bits : Nat) (n : Int) : Prop :=
  (∃ core, Strips text.toList core ∧ Numeral core n) ∧ InRange bits n

section Digits
variable {c : Char} {cs : List Char} {n : Nat}

theorem digits_isDigit : ∀ digit ∈ digits, digit.1.isDigit = true ∧ Decimal.digitValue digit.1 = digit.2 := by decide

theorem mem_digits (isDigit : c.isDigit = true) : (c, Decimal.digitValue c) ∈ digits := by
  have bounds : '0'.toNat ≤ c.toNat ∧ c.toNat ≤ '9'.toNat := by
    simpa [Char.isDigit, UInt32.le_iff_toNat_le, ge_iff_le] using isDigit
  obtain ⟨value, below, rfl⟩ : ∃ value < 10, c = Char.ofNat (48 + value) := by
    refine ⟨c.toNat - 48, ?_, ?_⟩
    · have : '9'.toNat = 57 := rfl
      omega
    · have : '0'.toNat = 48 := rfl
      rw [show 48 + (c.toNat - 48) = c.toNat by omega, Char.ofNat_toNat]
  clear isDigit bounds
  interval_cases value <;> decide

/-- The reader adds up from the left, where each digit counts ten times what it counted before. -/
theorem foldl_digits (cs : List Char) (start : Nat) :
    cs.foldl (fun value c => 10 * value + Decimal.digitValue c) start =
      start * 10 ^ cs.length + Decimal.ofDigits cs := by
  induction cs generalizing start with
  | nil => simp [Decimal.ofDigits]
  | cons c cs ih =>
    have first : Decimal.ofDigits (c :: cs) =
        cs.foldl (fun value c => 10 * value + Decimal.digitValue c) (Decimal.digitValue c) := by simp [Decimal.ofDigits]
    rw [List.foldl_cons, ih, first, ih, List.length_cons]
    ring

theorem ofDigits_cons (c : Char) (cs : List Char) :
    Decimal.ofDigits (c :: cs) = Decimal.digitValue c * 10 ^ cs.length + Decimal.ofDigits cs := by
  rw [← foldl_digits]
  simp [Decimal.ofDigits]

theorem denotes_iff : Denotes cs n ↔ cs ≠ [] ∧ (∀ c ∈ cs, c.isDigit = true) ∧ Decimal.ofDigits cs = n := by
  constructor
  · intro denotes
    induction denotes with
    | last member =>
      obtain ⟨isDigit, value⟩ := digits_isDigit _ member
      exact ⟨List.cons_ne_nil _ _, List.forall_mem_singleton.mpr isDigit, by simp [value, Decimal.ofDigits]⟩
    | more member _ ih =>
      obtain ⟨isDigit, value⟩ := digits_isDigit _ member
      obtain ⟨_, others, rest⟩ := ih
      exact ⟨List.cons_ne_nil _ _, List.forall_mem_cons.mpr ⟨isDigit, others⟩, by rw [ofDigits_cons, value, rest]⟩
  · rintro ⟨present, all, rfl⟩
    induction cs with
    | nil => exact absurd rfl present
    | cons c cs ih =>
      obtain ⟨isDigit, others⟩ := List.forall_mem_cons.mp all
      have first := mem_digits isDigit
      rw [ofDigits_cons]
      cases cs with
      | nil => simpa [Decimal.ofDigits] using Denotes.last first
      | cons next rest => exact .more first (ih (List.cons_ne_nil _ _) others)

theorem sign_not_digit (denotes : Denotes (c :: cs) n) : c ≠ '-' ∧ c ≠ '+' := by
  have isDigit := (denotes_iff.mp denotes).2.1 c (List.mem_cons_self ..)
  constructor <;> rintro rfl <;> exact absurd isDigit (by decide)

end Digits

section Reading
variable {text : String} {cs core : List Char} {n : Int}

/-- A run of digits as the reader tells and adds it up. -/
theorem magnitude_iff :
    (if cs.isEmpty || !cs.all Char.isDigit then none else some (Decimal.ofDigits cs : Int)) = some n ↔
      ∃ m : Nat, Denotes cs m ∧ n = m := by
  have run : (cs.isEmpty || !cs.all Char.isDigit) = true ↔ ¬ (cs ≠ [] ∧ ∀ c ∈ cs, c.isDigit = true) := by
    rw [Bool.or_eq_true, List.isEmpty_iff, Bool.not_eq_true', ← Bool.not_eq_true, List.all_eq_true, not_and_or, not_not]
  split
  next broken =>
    refine iff_of_false nofun ?_
    rintro ⟨m, denotes, _⟩
    obtain ⟨present, all, _⟩ := denotes_iff.mp denotes
    exact run.mp broken ⟨present, all⟩
  next whole =>
    obtain ⟨present, all⟩ := not_not.mp (mt run.mpr whole)
    constructor
    · intro same
      exact ⟨_, denotes_iff.mpr ⟨present, all, rfl⟩, (Option.some.inj same).symm⟩
    · rintro ⟨m, denotes, rfl⟩
      rw [(denotes_iff.mp denotes).2.2]

theorem parseInt?_eq_some_iff : parseInt? text = some n ↔ Numeral text.toList n := by
  unfold parseInt?
  generalize text.toList = chars
  dsimp only
  split
  next cs =>
    rw [Option.map_eq_some_iff]
    constructor
    · rintro ⟨k, read, rfl⟩
      obtain ⟨m, denotes, rfl⟩ := magnitude_iff.mp read
      exact .minus denotes
    · intro numeral
      cases numeral with
      | bare denotes => exact absurd rfl (sign_not_digit denotes).1
      | minus denotes => exact ⟨_, magnitude_iff.mpr ⟨_, denotes, rfl⟩, rfl⟩
  next cs =>
    rw [magnitude_iff]
    constructor
    · rintro ⟨m, denotes, rfl⟩
      exact .plus denotes
    · intro numeral
      cases numeral with
      | bare denotes => exact absurd rfl (sign_not_digit denotes).2
      | plus denotes => exact ⟨_, denotes, rfl⟩
  next noMinus noPlus =>
    rw [magnitude_iff]
    constructor
    · rintro ⟨m, denotes, rfl⟩
      exact .bare denotes
    · intro numeral
      cases numeral with
      | bare denotes => exact ⟨_, denotes, rfl⟩
      | minus => exact absurd rfl (noMinus _)
      | plus => exact absurd rfl (noPlus _)

theorem head?_dropBlanks (cs : List Char) : ∀ c, (dropBlanks cs).head? = some c → isBlank c = false := by
  intro c first
  obtain ⟨tail, found⟩ := List.head?_eq_some_iff.mp first
  exact not_isBlank_of_dropBlanks found

theorem dropBlanks_solid (solid : ∀ c, cs.head? = some c → isBlank c = false) : dropBlanks cs = cs := by
  cases cs with
  | nil => rfl
  | cons c rest => exact dropBlanks_of_not_isBlank (solid c rfl)

/-- Stripping leaves one text, the one that trimming gives. -/
theorem strips_iff : Strips text.toList core ↔ core = (trim text).toList := by
  rw [trim, String.toList_ofList]
  constructor
  · rintro ⟨⟨before, after, leading, trailing, whole⟩, first, last⟩
    have front : dropBlanks text.toList = core ++ after ∨ core = [] ∧ dropBlanks text.toList = [] := by
      rw [whole, dropBlanks_append leading]
      cases core with
      | nil => exact .inr ⟨rfl, dropBlanks_blanks trailing⟩
      | cons c rest => exact .inl (dropBlanks_of_not_isBlank (first c rfl))
    rcases front with front | ⟨rfl, front⟩
    · have backwards : Blanks after.reverse := fun c member => trailing c (List.mem_reverse.mp member)
      rw [front, List.reverse_append, dropBlanks_append backwards, dropBlanks_solid, List.reverse_reverse]
      simpa using last
    · rw [front]
      rfl
  · rintro rfl
    obtain ⟨before, leading, whole⟩ := blanks_dropBlanks text.toList
    obtain ⟨after, trailing, rest⟩ := blanks_dropBlanks (dropBlanks text.toList).reverse
    refine ⟨⟨before, after.reverse, leading, fun c member => trailing c (List.mem_reverse.mp member), ?_⟩, ?_, ?_⟩
    · rw [← List.reverse_append, ← rest, List.reverse_reverse, ← whole]
    · intro c first
      have parts := congrArg List.reverse rest
      rw [List.reverse_reverse, List.reverse_append] at parts
      exact head?_dropBlanks text.toList c (by rw [parts, List.head?_append, first, Option.some_or])
    · intro c last
      exact head?_dropBlanks _ c (by simpa using last)

theorem parseWord?_eq_some_iff {bits : Nat} :
    parseWord? bits text = some n ↔ parseInt? text = some n ∧ InRange bits n := by
  have bound : twoTo (bits - 1) = (2 : Int) ^ (bits - 1) := by simp [twoTo]
  rw [parseWord?, Option.filter_eq_some_iff, InRange, bound, Bool.and_eq_true, decide_eq_true_eq, decide_eq_true_eq,
    Int.le_sub_one_iff]

theorem fits_iff {bits : Nat} : Fits text bits n ↔ parseWord? bits (trim text) = some n := by
  rw [parseWord?_eq_some_iff, parseInt?_eq_some_iff]
  refine and_congr_left fun _ => ⟨?_, fun numeral => ⟨_, strips_iff.mpr rfl, numeral⟩⟩
  rintro ⟨core, strips, numeral⟩
  exact strips_iff.mp strips ▸ numeral

end Reading

section Constants
variable {primitive : Primitive} {bits : Nat} {text : String} {literal : Literal}

/-- Words of one width, with the constants that are made of them. -/
theorem map_parseWord?_iff {Word : Type} {constant : Word → Literal} {ofInt : Int → Word} {toInt : Word → Int}
    (restores : ∀ word, ofInt (toInt word) = word) (exactly : ∀ n, InRange bits n → toInt (ofInt n) = n)
    (made : ∀ n, whole? literal = some (primitive, n) ↔ ∃ word, literal = constant word ∧ toInt word = n) :
    (parseWord? bits text).map (fun n => constant (ofInt n)) = some literal ↔
      ∃ n, parseWord? bits text = some n ∧ whole? literal = some (primitive, n) := by
  rw [Option.map_eq_some_iff]
  refine exists_congr fun n => and_congr_right fun read => ?_
  rw [made]
  constructor
  · rintro rfl
    exact ⟨_, rfl, exactly n (parseWord?_eq_some_iff.mp read).2⟩
  · rintro ⟨word, rfl, rfl⟩
    rw [restores]

/-- A constant of a whole-number type is read from the texts of its value. -/
theorem ofText?_whole (sized : width? primitive = some bits) :
    Literal.ofText? primitive text = some literal ↔
      ∃ n, parseWord? bits (trim text) = some n ∧ whole? literal = some (primitive, n) := by
  have lower {n : Int} {bits : Nat} (inside : InRange bits n) : n < 2 ^ (bits - 1) := Int.lt_of_le_sub_one inside.2
  cases primitive with
  | byte =>
    cases sized
    refine map_parseWord?_iff Int8.ofInt_toInt (fun n inside => ?_) fun n => ?_
    · exact Int8.toInt_ofInt_of_le inside.1 (lower inside)
    · cases literal <;> simp [whole?]
  | short =>
    cases sized
    refine map_parseWord?_iff Int16.ofInt_toInt (fun n inside => ?_) fun n => ?_
    · exact Int16.toInt_ofInt_of_le inside.1 (lower inside)
    · cases literal <;> simp [whole?]
  | int =>
    cases sized
    refine map_parseWord?_iff Int32.ofInt_toInt (fun n inside => ?_) fun n => ?_
    · exact Int32.toInt_ofInt_of_le inside.1 (lower inside)
    · cases literal <;> simp [whole?]
  | long =>
    cases sized
    refine map_parseWord?_iff Int64.ofInt_toInt (fun n inside => ?_) fun n => ?_
    · exact Int64.toInt_ofInt_of_le inside.1 (lower inside)
    · cases literal <;> simp [whole?]
  | boolean | char | float | double => cases sized

theorem ofText?_none (sized : width? primitive = some bits) :
    Literal.ofText? primitive text = none ↔ ∀ n, parseWord? bits (trim text) ≠ some n := by
  rw [← Option.eq_none_iff_forall_ne_some]
  cases primitive with
  | byte | short | int | long =>
    cases sized
    exact Option.map_eq_none_iff
  | boolean | char | float | double => cases sized

theorem defaultExpr_of_primitive {owner : String} {p : Parameter}
    (typed : p.ty = .primitive primitive ∨ p.ty = .class primitive.wrapper) :
    p.defaultExpr owner = match Literal.ofText? primitive (p.defaultValue.getD "") with
      | some literal => .ok (.literal literal)
      | none => .error (.invalidDefault owner p.name (p.defaultValue.getD "") primitive.keyword) := by
  unfold Parameter.defaultExpr
  rcases typed with typed | typed
  · rw [typed]
    rfl
  · have notString : primitive.wrapper ≠ "java.lang.String" := by cases primitive <;> decide
    simp only [typed, if_neg notString, Primitive.ofWrapper?_wrapper]
    rfl

/-- The default of a parameter of a whole-number type, or of the class that wraps one, is a constant just when the
text, without the blanks around it, is a run of decimal digits after at most one sign and its number is in the range of
the type. The constant is of that type and has that number. For any other text the default is an error that says so. -/
theorem integer_defaults_exact (owner : String) (p : Parameter) (sized : width? primitive = some bits)
    (typed : p.ty = .primitive primitive ∨ p.ty = .class primitive.wrapper) :
    (∀ e, p.defaultExpr owner = .ok e ↔ ∃ n literal, Fits (p.defaultValue.getD "") bits n ∧
      whole? literal = some (primitive, n) ∧ e = .literal literal) ∧
    ((∀ n, ¬ Fits (p.defaultValue.getD "") bits n) ↔
      p.defaultExpr owner = .error (.invalidDefault owner p.name (p.defaultValue.getD "") primitive.keyword)) := by
  have reads (literal : Literal) := @ofText?_whole _ _ (p.defaultValue.getD "") literal sized
  simp only [fits_iff]
  rw [defaultExpr_of_primitive typed]
  cases read : Literal.ofText? primitive (p.defaultValue.getD "") with
  | some literal =>
    obtain ⟨n, parsed, whole⟩ := (reads literal).mp read
    refine ⟨fun e => ?_, iff_of_false (fun none => none n parsed) nofun⟩
    constructor
    · intro made
      exact ⟨n, literal, parsed, whole, (Except.ok.inj made).symm⟩
    · rintro ⟨m, other, again, named, rfl⟩
      have same := (reads other).mpr ⟨m, again, named⟩
      rw [read] at same
      cases same
      rfl
  | none =>
    have unread := (ofText?_none sized).mp read
    refine ⟨fun e => iff_of_false nofun ?_, iff_of_true unread rfl⟩
    rintro ⟨n, _, parsed, _⟩
    exact unread n parsed

/-- A parameter of the given type with a default. -/
def parameterOf (ty : SourceType) (text : String) : Parameter :=
  .resolve {} { name := "retries", ty, parameter := some { defaultValue := some text } } (.passthrough ty)

/-- The least number of its type, with zeros and blanks, and the first number beyond a type. -/
theorem least_and_beyond :
    (parameterOf (.ofName "java.lang.Integer") "\u2003-002147483648\n").defaultExpr "com.acme.Fetch" =
      .ok (.literal (.int (-2147483648))) ∧
    (parameterOf (.ofName "byte") "+128").defaultExpr "com.acme.Fetch" =
      .error (.invalidDefault "com.acme.Fetch" "retries" "+128" "byte") := by
  constructor
  · refine ((@integer_defaults_exact .int _ "com.acme.Fetch" (parameterOf (.ofName "java.lang.Integer") _) rfl
      (.inr rfl)).1 _).mpr ⟨-2147483648, _, fits_iff.mpr ?_, ?_, rfl⟩
    · decide +kernel
    · decide +kernel
  · refine (@integer_defaults_exact .byte _ "com.acme.Fetch" (parameterOf (.ofName "byte") "+128") rfl
      (.inl rfl)).2.mp fun n fits => ?_
    have none : parseWord? 8 (trim "+128") = none := by decide +kernel
    have read : parseWord? 8 (trim "+128") = some n := fits_iff.mp fits
    rw [none] at read
    cases read

end Constants

end PluginForge.Proofs.IntegerDefaults

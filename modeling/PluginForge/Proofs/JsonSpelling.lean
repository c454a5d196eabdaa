import Mathlib.Data.List.TakeWhile
import Mathlib.Tactic.IntervalCases
import PluginForge.Json.Printer
import PluginForge.Json.Reader

/-! JSON text without numbers. Reading a value gives it back from every spelling of it, and both layouts of the printer
are spellings. -/

namespace PluginForge.Proofs.JsonSpelling
open Json

def Gap (cs : List Char) : Prop := ∀ c ∈ cs, isBlank c = true

def quoted (text : String) : List Char := '"' :: (text.toList.flatMap escapeChar ++ ['"'])

mutual

/-- The spellings of a value, from its first character to its last. -/
inductive Spells : Json → List Char → Prop where
  | null : Spells .null "null".toList
  | yes : Spells (.bool true) "true".toList
  | no : Spells (.bool false) "false".toList
  | text (text : String) : Spells (.str text) (quoted text)
  | noItems {gap : List Char} (blank : Gap gap) : Spells (.arr []) ('[' :: (gap ++ [']']))
  | items {items : List Json} {inside : List Char} (each : SpellsItems items inside) :
      Spells (.arr items) ('[' :: (inside ++ [']']))
  | noPairs {gap : List Char} (blank : Gap gap) : Spells (.obj []) ('\x7b' :: (gap ++ ['\x7d']))
  | pairs {pairs : List (String × Json)} {inside : List Char} (each : SpellsPairs pairs inside) :
      Spells (.obj pairs) ('\x7b' :: (inside ++ ['\x7d']))

inductive SpellsItems : List Json → List Char → Prop where
  | last {item : Json} {before text after : List Char} (leading : Gap before) (only : Spells item text)
      (trailing : Gap after) : SpellsItems [item] (before ++ (text ++ after))
  | more {item : Json} {items : List Json} {before text after rest : List Char} (leading : Gap before)
      (first : Spells item text) (trailing : Gap after) (others : SpellsItems items rest) :
      SpellsItems (item :: items) (before ++ (text ++ (after ++ ',' :: rest)))

inductive SpellsPair : String × Json → List Char → Prop where
  | pair {key : String} {value : Json} {before gap between text after : List Char} (leading : Gap before)
      (blank : Gap gap) (apart : Gap between) (under : Spells value text) (trailing : Gap after) :
      SpellsPair (key, value) (before ++ (quoted key ++ (gap ++ ':' :: (between ++ (text ++ after)))))

inductive SpellsPairs : List (String × Json) → List Char → Prop where
  | last {pair : String × Json} {text : List Char} (only : SpellsPair pair text) : SpellsPairs [pair] text
  | more {pair : String × Json} {pairs : List (String × Json)} {text rest : List Char} (first : SpellsPair pair text)
      (others : SpellsPairs pairs rest) : SpellsPairs (pair :: pairs) (text ++ ',' :: rest)

end

section Strings
variable {cs rest : List Char} {c : Char}

/-- What a string literal comes to with one more unit before it. -/
def withUnit (unit : Nat) (read : List Nat × List Char) : List Nat × List Char := (unit :: read.1, read.2)

theorem bind_withUnit (read : Option (List Nat × List Char)) (unit : Nat) :
    (do let (units, rest) ← read; return (unit :: units, rest)) = read.map (withUnit unit) := by
  cases read <;> rfl

/-- The escapes of control characters are tried one by one. -/
theorem stringUnits_control (control : c.toNat < 32) (rest : List Char) :
    stringUnits (escapeChar c ++ rest) = (stringUnits rest).map (withUnit c.toNat) := by
  obtain ⟨code, below, rfl⟩ : ∃ code < 32, c = Char.ofNat code := ⟨c.toNat, control, (Char.ofNat_toNat c).symm⟩
  clear control
  interval_cases code <;> exact bind_withUnit ..

theorem stringUnits_plain (above : 32 ≤ c.toNat) (noQuote : c ≠ '"') (noEscape : c ≠ '\\') (rest : List Char) :
    stringUnits (c :: rest) = (stringUnits rest).map (withUnit c.toNat) := by
  have solid : ¬ (c.toNat < 32 ∨ c = '\\') := by
    rintro (control | escape)
    · omega
    · exact noEscape escape
  rw [stringUnits]
  · rw [if_neg solid]
    exact bind_withUnit ..
  · exact noQuote
  · exact fun _ _ _ _ _ escape _ => noEscape escape
  · exact fun _ _ escape _ => noEscape escape

theorem escapeChar_plain (above : 32 ≤ c.toNat) (noQuote : c ≠ '"') (noEscape : c ≠ '\\') : escapeChar c = [c] := by
  unfold escapeChar
  split_ifs <;> first | rfl | contradiction | omega

/-- A character keeps its code when it is escaped. -/
theorem stringUnits_escapeChar (c : Char) (rest : List Char) :
    stringUnits (escapeChar c ++ rest) = (stringUnits rest).map (withUnit c.toNat) := by
  by_cases quote : c = '"'
  · subst quote
    exact bind_withUnit ..
  by_cases escape : c = '\\'
  · subst escape
    exact bind_withUnit ..
  by_cases control : c.toNat < 32
  · exact stringUnits_control control rest
  have above : 32 ≤ c.toNat := Nat.le_of_not_lt control
  rw [escapeChar_plain above quote escape]
  exact stringUnits_plain above quote escape rest

theorem stringUnits_escaped (chars rest : List Char) :
    stringUnits (chars.flatMap escapeChar ++ '"' :: rest) = some (chars.map Char.toNat, rest) := by
  induction chars with
  | nil => rfl
  | cons c chars ih =>
    rw [List.flatMap_cons, List.append_assoc, stringUnits_escapeChar, ih]
    rfl

/-- No character is half of a surrogate pair. -/
theorem not_surrogate (c : Char) : isHigh c.toNat = false ∧ isLow c.toNat = false := by
  have valid : c.toNat < 0xD800 ∨ 0xDFFF < c.toNat ∧ c.toNat < 0x110000 := c.valid
  simp only [isHigh, isLow, Bool.and_eq_false_iff, decide_eq_false_iff_not]
  omega

theorem pairUnits_chars (chars : List Char) : pairUnits (chars.map Char.toNat) = some chars := by
  induction chars with
  | nil => rfl
  | cons c chars ih =>
    obtain ⟨notHigh, notLow⟩ := not_surrogate c
    cases chars with
    | nil => simp [pairUnits, notHigh, notLow]
    | cons next chars =>
      rw [List.map_cons, List.map_cons, pairUnits, ← List.map_cons, ih, notHigh, notLow]
      simp

theorem string?_escaped (text : String) (rest : List Char) :
    string? (text.toList.flatMap escapeChar ++ '"' :: rest) = some (some text, rest) := by
  rw [string?, stringUnits_escaped]
  simp only [Option.bind_eq_bind, Option.bind_some, pairUnits_chars, Option.map_some, String.ofList_toList]
  rfl

end Strings

section Reading
variable {cs rest gap text : List Char} {value : Json}

theorem skipBlanks_gap (blank : Gap gap) : skipBlanks (gap ++ cs) = skipBlanks cs := List.dropWhile_append_of_pos blank

theorem skipBlanks_of_not_isBlank {c : Char} (solid : isBlank c = false) : skipBlanks (c :: cs) = c :: cs :=
  List.dropWhile_cons_of_neg (by simpa using solid)

/-- A spelling begins with a character that is not blank and closes no list. -/
theorem Spells.starts (spells : Spells value text) :
    ∃ first others, text = first :: others ∧ isBlank first = false ∧ first ≠ ']' := by
  cases spells <;> exact ⟨_, _, rfl, by decide, by decide⟩

theorem Spells.solid (spells : Spells value text) (rest : List Char) : skipBlanks (text ++ rest) = text ++ rest := by
  obtain ⟨first, others, rfl, solid, -⟩ := spells.starts
  exact skipBlanks_of_not_isBlank solid

theorem Spells.indented (spells : Spells value text) (blank : Gap gap) (rest : List Char) :
    skipBlanks (gap ++ (text ++ rest)) = text ++ rest := by
  rw [skipBlanks_gap blank, spells.solid]

theorem skipBlanks_skipBlanks (cs : List Char) : skipBlanks (skipBlanks cs) = skipBlanks cs := by
  cases found : skipBlanks cs with
  | nil => rfl
  | cons first others =>
    have head := List.head?_dropWhile_not isBlank cs
    rw [show cs.dropWhile isBlank = first :: others from found] at head
    exact skipBlanks_of_not_isBlank (by simpa using head)

theorem SpellsItems.open {items : List Json} (spells : SpellsItems items text) (rest closing : List Char) :
    skipBlanks (text ++ rest) ≠ ']' :: closing := by
  cases spells with
  | last leading only trailing =>
    obtain ⟨first, others, rfl, -, other⟩ := only.starts
    rw [List.append_assoc, List.append_assoc, only.indented leading]
    intro closed
    cases closed
    exact other rfl
  | more leading first trailing others =>
    obtain ⟨head, tail, rfl, -, other⟩ := first.starts
    rw [List.append_assoc, List.append_assoc, first.indented leading]
    intro closed
    cases closed
    exact other rfl

theorem SpellsPairs.open {pairs : List (String × Json)} (spells : SpellsPairs pairs text) (rest closing : List Char) :
    skipBlanks (text ++ rest) ≠ '\x7d' :: closing := by
  have quote {pair : String × Json} {text : List Char} (spells : SpellsPair pair text) (rest : List Char) :
      skipBlanks (text ++ rest) ≠ '\x7d' :: closing := by
    cases spells with
    | pair leading blank apart under trailing =>
      rw [List.append_assoc, skipBlanks_gap leading]
      intro closed
      cases closed
  cases spells with
  | last only => exact quote only rest
  | more first others =>
    rw [List.append_assoc]
    exact quote first _

mutual

/-- A value is read from each of its spellings, up to the spelling's end. -/
theorem valueWithin_spells {value : Json} {text cs rest : List Char} {fuel : Nat} (spells : Spells value text)
    (starts : Json.skipBlanks cs = text ++ rest) (enough : 2 * text.length < fuel) :
    valueWithin fuel cs = some (value, rest) := by
  obtain ⟨fuel, rfl⟩ := Nat.exists_eq_add_one_of_ne_zero (Nat.ne_zero_of_lt enough)
  match spells with
  | .null =>
    rw [valueWithin, starts]
    rfl
  | .yes =>
    rw [valueWithin, starts]
    rfl
  | .no =>
    rw [valueWithin, starts]
    rfl
  | .text text =>
    rw [valueWithin, starts]
    simp only [quoted, List.cons_append, List.append_assoc, List.nil_append, string?_escaped]
    rfl
  | @Spells.noItems gap blank =>
    have closed : skipBlanks (gap ++ ']' :: rest) = ']' :: rest := skipBlanks_gap blank
    rw [valueWithin, starts]
    simp only [List.cons_append, List.append_assoc, List.nil_append, closed]
  | @Spells.items items inside each =>
    have read : itemsWithin fuel (skipBlanks (inside ++ ']' :: rest)) = some (items, rest) := by
      apply itemsWithin_spells each (skipBlanks_skipBlanks _)
      simp only [List.length_cons, List.length_append] at enough
      omega
    rw [valueWithin, starts]
    simp only [List.cons_append, List.append_assoc, List.nil_append]
    split
    next closing found => exact absurd found (each.open _ _)
    next =>
      rw [read]
      rfl
  | @Spells.noPairs gap blank =>
    have closed : skipBlanks (gap ++ '\x7d' :: rest) = '\x7d' :: rest := skipBlanks_gap blank
    rw [valueWithin, starts]
    simp only [List.cons_append, List.append_assoc, List.nil_append, closed]
  | @Spells.pairs pairs inside each =>
    have read : pairsWithin fuel (skipBlanks (inside ++ '\x7d' :: rest)) = some (some pairs, rest) := by
      apply pairsWithin_spells each (skipBlanks_skipBlanks _)
      simp only [List.length_cons, List.length_append] at enough
      omega
    rw [valueWithin, starts]
    simp only [List.cons_append, List.append_assoc, List.nil_append]
    split
    next closing found => exact absurd found (each.open _ _)
    next =>
      rw [read]
      rfl
termination_by structural spells

theorem itemsWithin_spells {items : List Json} {inside cs rest : List Char} {fuel : Nat}
    (spells : SpellsItems items inside) (starts : skipBlanks cs = skipBlanks (inside ++ ']' :: rest))
    (enough : 2 * inside.length + 1 < fuel) : itemsWithin fuel cs = some (items, rest) := by
  obtain ⟨fuel, rfl⟩ := Nat.exists_eq_add_one_of_ne_zero (Nat.ne_zero_of_lt enough)
  match spells with
  | @SpellsItems.last item before text after leading only trailing =>
    rw [List.append_assoc, List.append_assoc, only.indented leading] at starts
    have read : valueWithin fuel cs = some (item, after ++ ']' :: rest) := by
      apply valueWithin_spells only starts
      simp only [List.length_append] at enough
      omega
    rw [itemsWithin, read]
    simp only [Option.bind_eq_bind, Option.bind_some, skipBlanks_gap trailing]
    rfl
  | @SpellsItems.more item items before text after others leading first trailing remaining =>
    rw [List.append_assoc, List.append_assoc, first.indented leading, List.append_assoc] at starts
    have read : valueWithin fuel cs = some (item, after ++ ',' :: (others ++ ']' :: rest)) := by
      apply valueWithin_spells first starts
      simp only [List.length_append] at enough
      omega
    have readOthers : itemsWithin fuel (others ++ ']' :: rest) = some (items, rest) := by
      apply itemsWithin_spells remaining rfl
      simp only [List.length_append, List.length_cons] at enough
      omega
    rw [itemsWithin, read]
    simp only [Option.bind_eq_bind, Option.bind_some, skipBlanks_gap trailing]
    change (itemsWithin fuel (others ++ ']' :: rest) >>= fun _ => _) = _
    rw [readOthers]
    rfl
termination_by structural spells

/-- The value of a pair is read from where its key has been passed. -/
theorem pair_spells {pair : String × Json} {text : List Char} (fuel : Nat) (rest : List Char)
    (spells : SpellsPair pair text) (enough : 2 * text.length < fuel) :
    ∃ under left after, skipBlanks (text ++ rest) = quoted pair.1 ++ under ∧ skipBlanks under = ':' :: left ∧
      valueWithin fuel left = some (pair.2, after) ∧ skipBlanks after = skipBlanks rest := by
  match spells with
  | @SpellsPair.pair key value before gap between inside after leading blank apart under trailing =>
    have read : valueWithin fuel (between ++ (inside ++ (after ++ rest))) = some (value, after ++ rest) := by
      apply valueWithin_spells under (under.indented apart _)
      simp only [List.length_append, List.length_cons] at enough
      omega
    refine ⟨gap ++ ':' :: (between ++ (inside ++ (after ++ rest))), _, _, ?_, skipBlanks_gap blank, read,
      skipBlanks_gap trailing⟩
    rw [List.append_assoc, skipBlanks_gap leading]
    simp only [List.append_assoc, List.cons_append]
    rfl
termination_by structural spells

theorem pairsWithin_spells {pairs : List (String × Json)} {inside cs rest : List Char} {fuel : Nat}
    (spells : SpellsPairs pairs inside) (starts : skipBlanks cs = skipBlanks (inside ++ '\x7d' :: rest))
    (enough : 2 * inside.length + 1 < fuel) : pairsWithin fuel cs = some (some pairs, rest) := by
  obtain ⟨fuel, rfl⟩ := Nat.exists_eq_add_one_of_ne_zero (Nat.ne_zero_of_lt enough)
  match spells with
  | @SpellsPairs.last (key, value) text only =>
    obtain ⟨under, left, after, opened, colon, read, ended⟩ := pair_spells fuel ('\x7d' :: rest) only (by omega)
    have closed : skipBlanks ('\x7d' :: rest) = '\x7d' :: rest := rfl
    rw [pairsWithin, starts, opened]
    simp only [quoted, List.cons_append, List.append_assoc, List.nil_append, string?_escaped, Option.bind_eq_bind,
      Option.bind_some, colon, read, ended, closed]
    rfl
  | @SpellsPairs.more (key, value) pairs text others first remaining =>
    simp only [List.length_append, List.length_cons] at enough
    rw [List.append_assoc] at starts
    obtain ⟨under, left, after, opened, colon, read, ended⟩ :=
      pair_spells fuel (',' :: (others ++ '\x7d' :: rest)) first (by omega)
    have continued : skipBlanks (',' :: (others ++ '\x7d' :: rest)) = ',' :: (others ++ '\x7d' :: rest) := rfl
    have readOthers : pairsWithin fuel (others ++ '\x7d' :: rest) = some (some pairs, rest) := by
      apply pairsWithin_spells remaining rfl
      omega
    rw [pairsWithin, starts, List.cons_append, opened]
    simp only [quoted, List.cons_append, List.append_assoc, List.nil_append, string?_escaped, Option.bind_eq_bind,
      Option.bind_some, colon, read, ended, continued, readOthers]
    rfl
termination_by structural spells

end

theorem read?_spells {input : String} {before after : List Char} (leading : Gap before) (spells : Spells value text)
    (trailing : Gap after) (whole : input.toList = before ++ (text ++ after)) : read? input = some value := by
  have read : valueWithin (2 * input.toList.length + 2) input.toList = some (value, after) := by
    rw [whole]
    apply valueWithin_spells spells (spells.indented leading after)
    simp only [List.length_append]
    omega
  have ended : skipBlanks after = [] := List.dropWhile_eq_nil_iff.mpr trailing
  simp only [read?, read, Option.bind_eq_bind, Option.bind_some, ended]
  rfl

end Reading

/-- Values that have no number in them. -/
inductive Textual : Json → Prop where
  | null : Textual .null
  | bool (value : Bool) : Textual (.bool value)
  | str (text : String) : Textual (.str text)
  | arr {items : List Json} (each : ∀ item ∈ items, Textual item) : Textual (.arr items)
  | obj {pairs : List (String × Json)} (each : ∀ pair ∈ pairs, Textual pair.2) : Textual (.obj pairs)

section Printing
variable {value : Json} {lead close : List Char}

theorem gap_nil : Gap [] := nofun

theorem gap_space : Gap [' '] := by
  intro c member
  rw [List.mem_singleton.mp member]
  decide

theorem gap_lineBreak (depth : Nat) : Gap (lineBreak depth).toList := by
  intro c member
  rw [lineBreak, String.toList_append] at member
  rcases List.mem_append.mp member with newline | spaces
  · rw [List.mem_singleton.mp newline]
    decide
  · rw [String.toList_ofList] at spaces
    obtain rfl := List.eq_of_mem_replicate spaces
    decide

theorem quote_toList (text : String) : (quote text).toList = quoted text := String.toList_ofList

/-- Items after the first as any layout puts them: each after a comma and a gap. -/
def following {α : Type} (lead : List Char) (print : α → List Char) (items : List α) : List Char :=
  items.flatMap fun item => ',' :: (lead ++ print item)

theorem spellsItems_following (print : Json → List Char) (leading : Gap lead) (closing : Gap close) {item : Json}
    {rest : List Json} (each : ∀ other ∈ item :: rest, Spells other (print other)) :
    SpellsItems (item :: rest) (lead ++ (print item ++ (following lead print rest ++ close))) := by
  induction rest generalizing item with
  | nil => exact .last leading (each item (List.mem_cons_self ..)) closing
  | cons next rest ih =>
    obtain ⟨here, others⟩ := List.forall_mem_cons.mp each
    have more := SpellsItems.more leading here gap_nil (ih others)
    simpa only [following, List.flatMap_cons, List.cons_append, List.append_assoc, List.nil_append] using more

/-- A pair as the layouts print it. -/
def printedPair (between : List Char) (print : Json → List Char) (pair : String × Json) : List Char :=
  quoted pair.1 ++ ':' :: (between ++ print pair.2)

theorem spellsPairs_following (print : Json → List Char) {between : List Char} (leading : Gap lead)
    (closing : Gap close) (apart : Gap between) {pair : String × Json} {rest : List (String × Json)}
    (each : ∀ other ∈ pair :: rest, Spells other.2 (print other.2)) :
    SpellsPairs (pair :: rest)
      (lead ++ (printedPair between print pair ++ (following lead (printedPair between print) rest ++ close))) := by
  induction rest generalizing pair with
  | nil =>
    obtain ⟨key, value⟩ := pair
    have only : SpellsPair (key, value) _ :=
      .pair leading gap_nil apart (each (key, value) (List.mem_cons_self ..)) closing
    refine .last ?_
    simpa only [printedPair, following, List.flatMap_nil, List.cons_append, List.append_assoc, List.nil_append] using only
  | cons next rest ih =>
    obtain ⟨key, value⟩ := pair
    obtain ⟨here, others⟩ := List.forall_mem_cons.mp each
    have first : SpellsPair (key, value) _ := .pair leading gap_nil apart here gap_nil
    have more := SpellsPairs.more first (ih others)
    simpa only [printedPair, following, List.flatMap_cons, List.cons_append, List.append_assoc, List.nil_append,
      List.append_nil] using more

theorem compactItems_toList (item : Json) (rest : List Json) :
    (compactItems (item :: rest)).toList =
      item.compact.toList ++ following [] (fun other => other.compact.toList) rest := by
  induction rest generalizing item with
  | nil => simp [compactItems, following]
  | cons next rest ih =>
    rw [compactItems, String.toList_append, String.toList_append, ih]
    · simp [following]
    · exact nofun

theorem compactPairs_toList (pair : String × Json) (rest : List (String × Json)) :
    (compactPairs (pair :: rest)).toList =
      printedPair [] (fun other => other.compact.toList) pair ++
        following [] (printedPair [] fun other => other.compact.toList) rest := by
  induction rest generalizing pair with
  | nil => simp [compactPairs, following, printedPair, quote_toList]
  | cons next rest ih =>
    obtain ⟨key, value⟩ := pair
    rw [compactPairs]
    · simp [ih, following, printedPair, quote_toList]
    · exact nofun

theorem indentedItems_toList (depth : Nat) (rest : List Json) :
    (indentedItems depth rest).toList =
      following (lineBreak depth).toList (fun other => (other.indented depth).toList) rest := by
  induction rest with
  | nil => rfl
  | cons next rest ih => simp [indentedItems, following, ih]

theorem indentedPairs_toList (depth : Nat) (rest : List (String × Json)) :
    (indentedPairs depth rest).toList =
      following (lineBreak depth).toList (printedPair [' '] fun other => (other.indented depth).toList) rest := by
  induction rest with
  | nil => rfl
  | cons next rest ih => simp [indentedPairs, following, printedPair, quote_toList, ih]

theorem compact_spells (textual : Textual value) : Spells value value.compact.toList := by
  induction textual with
  | null => exact .null
  | bool value =>
    cases value
    · exact .no
    · exact .yes
  | str text =>
    rw [compact, leaf, quote_toList]
    exact .text text
    all_goals exact nofun
  | @arr items each ih =>
    cases items with
    | nil => exact .noItems gap_nil
    | cons item rest =>
      have spelled := Spells.items (spellsItems_following (·.compact.toList) gap_nil gap_nil ih)
      rw [compact, String.toList_append, String.toList_append, compactItems_toList]
      simp only [List.append_nil] at spelled
      exact spelled
  | @obj pairs each ih =>
    cases pairs with
    | nil => exact .noPairs gap_nil
    | cons pair rest =>
      have spelled := Spells.pairs (spellsPairs_following (·.compact.toList) gap_nil gap_nil gap_nil ih)
      rw [compact, String.toList_append, String.toList_append, compactPairs_toList]
      simp only [List.append_nil] at spelled
      exact spelled

theorem indented_spells (textual : Textual value) (depth : Nat) : Spells value (value.indented depth).toList := by
  induction textual generalizing depth with
  | null => exact .null
  | bool value =>
    cases value
    · exact .no
    · exact .yes
  | str text =>
    rw [indented, leaf, quote_toList]
    exact .text text
    all_goals exact nofun
  | @arr items each ih =>
    cases items with
    | nil =>
      rw [indented]
      exact .noItems gap_nil
    | cons item rest =>
      have spelled := Spells.items (spellsItems_following (fun other => (other.indented (depth + 1)).toList)
        (gap_lineBreak (depth + 1)) (gap_lineBreak depth) fun other member => ih other member (depth + 1))
      rw [indented]
      simp only [String.toList_append, indentedItems_toList, List.append_assoc] at spelled ⊢
      exact spelled
  | @obj pairs each ih =>
    cases pairs with
    | nil =>
      rw [indented]
      exact .noPairs gap_nil
    | cons pair rest =>
      have spelled := Spells.pairs (spellsPairs_following (fun value => (value.indented (depth + 1)).toList)
        (gap_lineBreak (depth + 1)) (gap_lineBreak depth) gap_space fun other member => ih other member (depth + 1))
      obtain ⟨key, value⟩ := pair
      rw [indented]
      simp only [String.toList_append, indentedPairs_toList, quote_toList, printedPair, List.append_assoc,
        List.cons_append, List.nil_append] at spelled ⊢
      exact spelled

/-- Both layouts of a value without numbers read as that value. -/
theorem read?_printed (textual : Textual value) :
    read? value.compact = some value ∧ read? value.pretty = some value :=
  ⟨read?_spells gap_nil (compact_spells textual) gap_nil (List.append_nil _).symm,
    read?_spells gap_nil (indented_spells textual 0) gap_nil (List.append_nil _).symm⟩

end Printing

end PluginForge.Proofs.JsonSpelling

import Mathlib.Data.List.TakeWhile
import PluginForge.Proofs.Results
import PluginForge.Types.Parser

/-! The grammar of type texts, apart from the reader. A text is read as a type just when the grammar derives that type
from it, so the grammar is unambiguous and whatever it does not derive is rejected. -/

namespace PluginForge.Proofs.TypeGrammar
open SourceType Text Results

def Blanks (cs : List Char) : Prop := ∀ c ∈ cs, isBlank c = true

/-- Pairs of brackets, with blanks before and inside them, and how many there are. -/
inductive Brackets : Nat → List Char → Prop where
  | none : Brackets 0 []
  | pair {before inside rest : List Char} {dimensions : Nat} (blank : Blanks before) (empty : Blanks inside)
      (others : Brackets dimensions rest) : Brackets (dimensions + 1) (before ++ '[' :: (inside ++ ']' :: rest))

mutual

/-- The texts of a type. They may begin with blanks, and a name may be followed by some, whether or not arguments or
brackets come after them. -/
inductive Derives : SourceType → List Char → Prop where
  | anything {before : List Char} (blank : Blanks before) : Derives .anything (before ++ ['?'])
  | extending {before gap text : List Char} {space : Char} {bound : SourceType} (blank : Blanks before)
      (between : Blanks gap) (apart : isBlank space = true) (inner : Derives bound (space :: text)) :
      Derives (.extending bound) (before ++ '?' :: (gap ++ ("extends".toList ++ space :: text)))
  | above {before gap text : List Char} {space : Char} {bound : SourceType} (blank : Blanks before)
      (between : Blanks gap) (apart : isBlank space = true) (inner : Derives bound (space :: text)) :
      Derives (.above bound) (before ++ '?' :: (gap ++ ("super".toList ++ space :: text)))
  | named {before name gap arguments brackets : List Char} {args : List SourceType} {dimensions : Nat}
      (blank : Blanks before) (present : name ≠ []) (word : ∀ c ∈ name, isNameChar c = true) (between : Blanks gap)
      (given : DerivesArguments args arguments) (array : Brackets dimensions brackets) :
      Derives (.named (String.ofList name) args dimensions) (before ++ (name ++ (gap ++ (arguments ++ brackets))))

/-- Type arguments in angle brackets, or none. -/
inductive DerivesArguments : List SourceType → List Char → Prop where
  | absent : DerivesArguments [] []
  | present {args : List SourceType} {inside : List Char} (each : DerivesList args inside) :
      DerivesArguments args ('<' :: (inside ++ ['>']))

/-- Types with commas between them, at least one. -/
inductive DerivesList : List SourceType → List Char → Prop where
  | last {ty : SourceType} {text gap : List Char} (only : Derives ty text) (blank : Blanks gap) :
      DerivesList [ty] (text ++ gap)
  | more {ty : SourceType} {args : List SourceType} {text gap rest : List Char} (first : Derives ty text)
      (blank : Blanks gap) (others : DerivesList args rest) : DerivesList (ty :: args) (text ++ (gap ++ ',' :: rest))

end

/-- What the grammar derives from a whole text, which may end in blanks. -/
def Denotes (input : String) (ty : SourceType) : Prop :=
  ∃ text gap, input.toList = text ++ gap ∧ Derives ty text ∧ Blanks gap

section Characters
variable {cs rest : List Char} {c : Char}

theorem blanks_dropBlanks (cs : List Char) : ∃ before, Blanks before ∧ cs = before ++ dropBlanks cs :=
  ⟨cs.takeWhile isBlank, fun _ member => List.mem_takeWhile_imp member, List.takeWhile_append_dropWhile.symm⟩

theorem dropBlanks_append (blank : Blanks cs) : dropBlanks (cs ++ rest) = dropBlanks rest :=
  List.dropWhile_append_of_pos blank

theorem not_isBlank_of_dropBlanks {tail : List Char} (found : dropBlanks cs = c :: tail) : isBlank c = false := by
  have head := List.head?_dropWhile_not isBlank cs
  rw [show cs.dropWhile isBlank = c :: tail from found] at head
  simpa using head

theorem dropBlanks_dropBlanks (cs : List Char) : dropBlanks (dropBlanks cs) = dropBlanks cs := by
  cases found : dropBlanks cs with
  | nil => rfl
  | cons c tail => exact dropBlanks_of_not_isBlank (not_isBlank_of_dropBlanks found)

theorem dropBlanks_blanks (blank : Blanks cs) : dropBlanks cs = [] := List.dropWhile_eq_nil_iff.mpr blank

/-- No blank is a letter or a number. -/
theorem not_isAlphanumeric_of_isBlank (blank : isBlank c = true) : isAlphanumeric c = false := by
  have apart : ∀ range ∈ blankRanges, ∀ code ∈ List.range' range.1 (range.2 + 1 - range.1),
      inRanges alphanumericRanges code = false := by decide +kernel
  obtain ⟨range, member, above, below⟩ := exists_of_inRanges blank
  apply apart range member c.toNat
  rw [List.mem_range'_1]
  omega

theorem isBlank_of_isNameChar (word : isNameChar c = true) : isBlank c = false := by
  by_contra blank
  rw [Bool.not_eq_false] at blank
  simp only [isNameChar, not_isAlphanumeric_of_isBlank blank, Bool.or_false, Bool.or_eq_true, decide_eq_true_eq] at word
  rcases word with (rfl | rfl) | rfl <;> exact absurd blank (by decide)

/-- What may follow the text of a type: nothing but blanks, or a character that ends it. -/
def Ends (rest : List Char) : Prop := ∀ next tail, dropBlanks rest = next :: tail → next = ',' ∨ next = '>'

theorem ends_blanks (blank : Blanks cs) : Ends cs := by
  intro next tail found
  rw [dropBlanks_blanks blank] at found
  cases found

theorem Ends.before (blank : Blanks cs) (ends : Ends rest) : Ends (cs ++ rest) := by
  intro next tail found
  rw [dropBlanks_append blank] at found
  exact ends next tail found

theorem ends_comma (rest : List Char) : Ends (',' :: rest) := by
  intro next tail found
  cases found
  exact .inl rfl

theorem ends_close (rest : List Char) : Ends ('>' :: rest) := by
  intro next tail found
  cases found
  exact .inr rfl

/-- A name stops where blanks follow or a character of another kind. -/
theorem takeWhile_isNameChar (other : ∀ next tail, dropBlanks cs = next :: tail → isNameChar next = false) :
    cs.takeWhile isNameChar = [] := by
  cases cs with
  | nil => rfl
  | cons next tail =>
    refine List.takeWhile_cons_of_neg ?_
    intro word
    have solid := isBlank_of_isNameChar word
    rw [other next tail (dropBlanks_of_not_isBlank solid)] at word
    cases word

end Characters

section Reading
variable {fuel : Nat} {cs rest after tail text : List Char} {bound ty : SourceType} {args : List SourceType}
  {dimensions : Nat}

theorem Ends.unbounded (ends : Ends rest) : boundKeyword? (dropBlanks rest) = none := by
  cases found : dropBlanks rest with
  | nil => rfl
  | cons next tail => rcases ends next tail found with rfl | rfl <;> rfl

theorem Ends.no_brackets (ends : Ends rest) (inside : List Char) : dropBlanks rest ≠ '[' :: inside := by
  intro found
  rcases ends _ _ found with same | same <;> cases same

theorem bracketsWithin_derives (array : Brackets dimensions text) (ends : Ends rest)
    (same : dropBlanks cs = dropBlanks (text ++ rest)) (enough : cs.length ≤ fuel) :
    bracketsWithin fuel cs = .ok (dimensions, dropBlanks rest) := by
  induction array generalizing fuel cs with
  | none =>
    rw [List.nil_append] at same
    cases fuel with
    | zero =>
      have empty : cs = [] := List.eq_nil_of_length_eq_zero (Nat.le_zero.mp enough)
      rw [← same, empty]
      rfl
    | succ fuel =>
      rw [bracketsWithin, same]
      split
      next inside found => exact absurd found (ends.no_brackets inside)
      next => rfl
  | @pair before inside others dimensions blank empty array ih =>
    have opened : dropBlanks cs = '[' :: (inside ++ ']' :: (others ++ rest)) := by
      rw [same, List.append_assoc, dropBlanks_append blank, List.cons_append, List.append_assoc]
      rfl
    have shorter : (dropBlanks cs).length ≤ cs.length := List.length_dropWhile_le ..
    rw [opened] at shorter
    simp only [List.length_cons, List.length_append] at shorter
    cases fuel with
    | zero => omega
    | succ fuel =>
      have closed : dropBlanks (inside ++ ']' :: (others ++ rest)) = ']' :: (others ++ rest) := by
        rw [dropBlanks_append empty]
        rfl
      have remaining : bracketsWithin fuel (others ++ rest) = .ok (dimensions, dropBlanks rest) := by
        apply ih rfl
        rw [List.length_append]
        omega
      rw [bracketsWithin, opened]
      simp only [closed, remaining]
      rfl

theorem typeWithin_anything (starts : dropBlanks cs = '?' :: rest) (unbounded : boundKeyword? (dropBlanks rest) = none) :
    typeWithin (fuel + 1) cs = .ok (.anything, dropBlanks rest) := by
  rw [typeWithin]
  simp only [starts, unbounded]

theorem typeWithin_bounded {make : SourceType → SourceType} {word before gap : List Char} {space : Char}
    (keyword : ∀ cs, boundKeyword? (dropBlanks (word ++ cs)) = some (make, cs)) (blank : Blanks before)
    (between : Blanks gap) (apart : isBlank space = true)
    (inner : typeWithin fuel (space :: (text ++ rest)) = .ok (bound, after)) :
    typeWithin (fuel + 1) (before ++ '?' :: (gap ++ (word ++ space :: text)) ++ rest) = .ok (make bound, after) := by
  have starts : dropBlanks (before ++ '?' :: (gap ++ (word ++ space :: text)) ++ rest) =
      '?' :: (gap ++ (word ++ space :: (text ++ rest))) := by
    rw [List.append_assoc, dropBlanks_append blank]
    simp only [List.cons_append, List.append_assoc]
    rfl
  have known : boundKeyword? (dropBlanks (gap ++ (word ++ space :: (text ++ rest)))) = some (make, space :: (text ++ rest)) := by
    rw [dropBlanks_append between, keyword]
  rw [typeWithin]
  simp only [starts, known, List.head?_cons, Option.map_some, Option.getD_some, apart, if_true, inner]
  rfl

/-- What stands between a name and its brackets. -/
inductive Given (fuel : Nat) (cs : List Char) : List SourceType → List Char → Prop where
  | present {inside tail : List Char} {args : List SourceType} (opened : dropBlanks cs = '<' :: inside)
      (read : argumentsWithin fuel inside = .ok (args, tail)) : Given fuel cs args tail
  | absent (other : ∀ inside, dropBlanks cs ≠ '<' :: inside) : Given fuel cs [] (dropBlanks cs)

theorem typeWithin_named {name : List Char} (starts : dropBlanks cs = name ++ rest) (present : name ≠ [])
    (word : ∀ c ∈ name, isNameChar c = true) (stops : rest.takeWhile isNameChar = []) (given : Given fuel rest args tail)
    (array : bracketsWithin tail.length tail = .ok (dimensions, after)) :
    typeWithin (fuel + 1) cs = .ok (.named (String.ofList name) args dimensions, after) := by
  have taken : (name ++ rest).takeWhile isNameChar = name := by
    rw [List.takeWhile_append_of_pos word, stops, List.append_nil]
  have left : (name ++ rest).dropWhile isNameChar = rest := by
    have whole : (name ++ rest).takeWhile isNameChar ++ (name ++ rest).dropWhile isNameChar = name ++ rest :=
      List.takeWhile_append_dropWhile
    rw [taken] at whole
    exact List.append_cancel_left whole
  have noWildcard (text : List Char) : name ++ rest ≠ '?' :: text := by
    obtain ⟨first, others, rfl⟩ := List.exists_cons_of_ne_nil present
    intro same
    cases same
    exact absurd (word '?' (List.mem_cons_self ..)) (by decide)
  have isName : name.isEmpty = false := by simpa using present
  rw [typeWithin, starts]
  split
  next text found => exact absurd found (noWildcard text)
  next =>
    simp only [taken, left, isName, Bool.false_eq_true, if_false]
    cases given with
    | present opened read =>
      simp only [opened, read]
      change (bracketsWithin tail.length tail >>= fun _ => _) = _
      rw [array]
      rfl
    | absent other =>
      split
      next inside found => exact absurd found (other inside)
      next =>
        change (bracketsWithin (dropBlanks rest).length (dropBlanks rest) >>= fun _ => _) = _
        rw [array]
        rfl

/-- What follows the arguments of a name: its brackets, or what ends the type. -/
theorem Brackets.next {next : Char} (array : Brackets dimensions text) (ends : Ends rest)
    (found : dropBlanks (text ++ rest) = next :: tail) : next = '[' ∨ next = ',' ∨ next = '>' := by
  cases array with
  | none => exact .inr (ends next tail found)
  | pair blank =>
    rw [List.append_assoc, dropBlanks_append blank] at found
    cases found
    exact .inl rfl

/-- The first character past a name, blanks apart, is not another one of the name. -/
theorem name_stops {gap arguments brackets : List Char} (between : Blanks gap) (given : DerivesArguments args arguments)
    (array : Brackets dimensions brackets) (ends : Ends rest) :
    (gap ++ (arguments ++ (brackets ++ rest))).takeWhile isNameChar = [] := by
  apply takeWhile_isNameChar
  intro next tail found
  rw [dropBlanks_append between] at found
  cases given with
  | absent =>
    rcases array.next ends found with rfl | rfl | rfl <;> decide
  | present each =>
    cases found
    decide

mutual

/-- Each text of a type is read in full. Reading leaves off at what follows it, past the blanks. -/
theorem typeWithin_derives {ty : SourceType} {text rest : List Char} {fuel : Nat} (derives : Derives ty text)
    (ends : Ends rest) (enough : 2 * text.length < fuel) : typeWithin fuel (text ++ rest) = .ok (ty, dropBlanks rest) := by
  obtain ⟨fuel, rfl⟩ := Nat.exists_eq_add_one_of_ne_zero (Nat.ne_zero_of_lt enough)
  match derives with
  | .anything blank =>
    refine typeWithin_anything ?_ ends.unbounded
    rw [List.append_assoc, dropBlanks_append blank]
    rfl
  | @Derives.extending before gap inner space bound blank between apart derives =>
    have read : typeWithin fuel (space :: inner ++ rest) = .ok (bound, dropBlanks rest) := by
      apply typeWithin_derives derives ends
      simp only [List.length_append, List.length_cons] at enough ⊢
      omega
    exact typeWithin_bounded (fun _ => rfl) blank between apart read
  | @Derives.above before gap inner space bound blank between apart derives =>
    have read : typeWithin fuel (space :: inner ++ rest) = .ok (bound, dropBlanks rest) := by
      apply typeWithin_derives derives ends
      simp only [List.length_append, List.length_cons] at enough ⊢
      omega
    exact typeWithin_bounded (fun _ => rfl) blank between apart read
  | @Derives.named before name gap arguments brackets args dimensions blank present word between given array =>
    have stops := name_stops between given array ends
    have starts : dropBlanks (before ++ (name ++ (gap ++ (arguments ++ brackets))) ++ rest) =
        name ++ (gap ++ (arguments ++ (brackets ++ rest))) := by
      obtain ⟨first, others, rfl⟩ := List.exists_cons_of_ne_nil present
      rw [List.append_assoc, dropBlanks_append blank]
      simp only [List.cons_append, List.append_assoc]
      exact dropBlanks_of_not_isBlank (isBlank_of_isNameChar (word first (List.mem_cons_self ..)))
    match given with
    | .absent =>
      have same : dropBlanks (gap ++ ([] ++ (brackets ++ rest))) = dropBlanks (brackets ++ rest) := dropBlanks_append between
      refine typeWithin_named starts present word stops (.absent ?_) ?_
      · intro inside found
        rw [same] at found
        rcases array.next ends found with other | other | other <;> cases other
      · rw [same]
        exact bracketsWithin_derives array ends (dropBlanks_dropBlanks _) (Nat.le_refl _)
    | @DerivesArguments.present args inside each =>
      have read : argumentsWithin fuel (inside ++ '>' :: (brackets ++ rest)) = .ok (args, brackets ++ rest) := by
        apply argumentsWithin_derives each
        simp only [List.length_append, List.length_cons] at enough
        omega
      refine typeWithin_named starts present word stops (.present ?_ read) ?_
      · rw [dropBlanks_append between]
        simp only [List.cons_append, List.append_assoc]
        rfl
      · exact bracketsWithin_derives array ends rfl (Nat.le_refl _)
termination_by structural derives

theorem argumentsWithin_derives {args : List SourceType} {inside rest : List Char} {fuel : Nat}
    (derives : DerivesList args inside) (enough : 2 * inside.length + 1 < fuel) :
    argumentsWithin fuel (inside ++ '>' :: rest) = .ok (args, rest) := by
  obtain ⟨fuel, rfl⟩ := Nat.exists_eq_add_one_of_ne_zero (Nat.ne_zero_of_lt enough)
  match derives with
  | @DerivesList.last ty text gap only blank =>
    have first : typeWithin fuel (text ++ (gap ++ '>' :: rest)) = .ok (ty, dropBlanks (gap ++ '>' :: rest)) := by
      apply typeWithin_derives only ((ends_close rest).before blank)
      rw [List.length_append] at enough
      omega
    rw [argumentsWithin, List.append_assoc, first, dropBlanks_append blank]
    rfl
  | @DerivesList.more ty args text gap others first blank remaining =>
    have firstRead : typeWithin fuel (text ++ (gap ++ ',' :: (others ++ '>' :: rest))) =
        .ok (ty, dropBlanks (gap ++ ',' :: (others ++ '>' :: rest))) := by
      apply typeWithin_derives first ((ends_comma (others ++ '>' :: rest)).before blank)
      rw [List.length_append] at enough
      omega
    have othersRead : argumentsWithin fuel (others ++ '>' :: rest) = .ok (args, rest) := by
      apply argumentsWithin_derives remaining
      simp only [List.length_append, List.length_cons] at enough
      omega
    rw [argumentsWithin]
    simp only [List.append_assoc, List.cons_append, firstRead, dropBlanks_append blank]
    change (argumentsWithin fuel (others ++ '>' :: rest) >>= fun _ => _) = _
    rw [othersRead]
    rfl
termination_by structural derives

end

/-- What has been read when reading a type leaves off at `after`. -/
inductive Reads (fuel : Nat) (cs : List Char) : SourceType → List Char → Prop where
  | anything {rest : List Char} (starts : dropBlanks cs = '?' :: rest) : Reads fuel cs .anything (dropBlanks rest)
  | bounded {rest text after : List Char} {make : SourceType → SourceType} {space : Char} {bound : SourceType}
      (starts : dropBlanks cs = '?' :: rest) (keyword : boundKeyword? (dropBlanks rest) = some (make, space :: text))
      (apart : isBlank space = true) (inner : typeWithin fuel (space :: text) = .ok (bound, after)) :
      Reads fuel cs (make bound) after
  | named {name rest tail after : List Char} {args : List SourceType} {dimensions : Nat}
      (starts : dropBlanks cs = name ++ rest) (present : name ≠ []) (word : ∀ c ∈ name, isNameChar c = true)
      (given : Given fuel rest args tail) (array : bracketsWithin tail.length tail = .ok (dimensions, after)) :
      Reads fuel cs (.named (String.ofList name) args dimensions) after

theorem typeWithin_reads (read : typeWithin (fuel + 1) cs = .ok (ty, after)) : Reads fuel cs ty after := by
  rw [typeWithin] at read
  split at read
  next rest starts =>
    split at read
    next =>
      cases read
      exact .anything starts
    next make text keyword =>
      split at read
      next apart =>
        cases text with
        | nil => cases apart
        | cons space text =>
          obtain ⟨⟨bound, left⟩, inner, made⟩ := except_bind.mp read
          cases made
          exact .bounded starts keyword apart inner
      next => cases read
  next =>
    dsimp only at read
    by_cases isName : ((dropBlanks cs).takeWhile isNameChar).isEmpty = true
    · rw [if_pos isName] at read
      cases read
    · rw [if_neg isName] at read
      have word : ∀ c ∈ (dropBlanks cs).takeWhile isNameChar, isNameChar c = true :=
        fun c member => List.mem_takeWhile_imp member
      rw [List.isEmpty_iff] at isName
      split at read
      next inside opened =>
        obtain ⟨⟨args, tail⟩, given, last⟩ := except_bind.mp read
        obtain ⟨⟨dimensions, left⟩, array, made⟩ := except_bind.mp last
        cases made
        exact .named List.takeWhile_append_dropWhile.symm isName word (.present opened given) array
      next other =>
        obtain ⟨⟨args, tail⟩, given, last⟩ := except_bind.mp read
        cases given
        obtain ⟨⟨dimensions, left⟩, array, made⟩ := except_bind.mp last
        cases made
        exact .named List.takeWhile_append_dropWhile.symm isName word (.absent other) array

theorem boundKeyword?_eq_some {make : SourceType → SourceType} (keyword : boundKeyword? cs = some (make, rest)) :
    (make = .extending ∧ cs = "extends".toList ++ rest) ∨ (make = .above ∧ cs = "super".toList ++ rest) := by
  unfold boundKeyword? at keyword
  split at keyword
  · cases keyword
    exact .inl ⟨rfl, rfl⟩
  · cases keyword
    exact .inr ⟨rfl, rfl⟩
  · cases keyword

theorem Blanks.append {others : List Char} (first : Blanks cs) (second : Blanks others) : Blanks (cs ++ others) := by
  intro c member
  rcases List.mem_append.mp member with found | found
  · exact first c found
  · exact second c found

theorem Derives.nonempty {cs : List Char} {ty : SourceType} (derives : Derives ty cs) : cs ≠ [] := by
  cases derives with
  | anything blank => simp
  | extending blank between apart inner => simp
  | above blank between apart inner => simp
  | named blank present word between given array => simp [present]

theorem derives_of_bracketsWithin (read : bracketsWithin fuel cs = .ok (dimensions, rest)) :
    ∃ text gap, Brackets dimensions text ∧ Blanks gap ∧ cs = text ++ (gap ++ rest) := by
  obtain ⟨before, blank, whole⟩ := blanks_dropBlanks cs
  induction fuel generalizing cs dimensions before with
  | zero =>
    cases read
    exact ⟨[], [], .none, nofun, rfl⟩
  | succ fuel ih =>
    rw [bracketsWithin] at read
    split at read
    next inside opened =>
      split at read
      next others closed =>
        obtain ⟨⟨more, left⟩, remaining, made⟩ := except_bind.mp read
        cases made
        obtain ⟨first, blankFirst, wholeOthers⟩ := blanks_dropBlanks others
        obtain ⟨text, gap, array, blankGap, same⟩ := ih remaining first blankFirst wholeOthers
        obtain ⟨within, empty, wholeInside⟩ := blanks_dropBlanks inside
        refine ⟨_, gap, .pair blank empty array, blankGap, ?_⟩
        rw [whole, opened, wholeInside, closed, same]
        simp only [List.append_assoc, List.cons_append]
      next => cases read
    next =>
      cases read
      exact ⟨[], before, .none, blank, whole⟩

mutual

/-- What has been read as a type is a text of it, and blanks past it have been read too. -/
theorem derives_of_typeWithin (fuel : Nat) {cs rest : List Char} {ty : SourceType}
    (read : typeWithin fuel cs = .ok (ty, rest)) : ∃ text gap, Derives ty text ∧ Blanks gap ∧ cs = text ++ (gap ++ rest) := by
  match fuel with
  | 0 => cases read
  | fuel + 1 =>
    obtain ⟨before, blank, whole⟩ := blanks_dropBlanks cs
    cases typeWithin_reads read with
    | @anything after starts =>
      obtain ⟨gap, blankGap, same⟩ := blanks_dropBlanks after
      refine ⟨before ++ ['?'], gap, .anything blank, blankGap, ?_⟩
      rw [List.append_assoc, List.singleton_append, ← same, ← starts]
      exact whole
    | @bounded after text _ make space bound starts keyword apart inner =>
      obtain ⟨between, blankBetween, same⟩ := blanks_dropBlanks after
      obtain ⟨inside, gap, derives, blankGap, rest⟩ := derives_of_typeWithin fuel inner
      obtain ⟨first, others, rfl⟩ := List.exists_cons_of_ne_nil derives.nonempty
      rw [List.cons_append] at rest
      obtain ⟨rfl, rfl⟩ := List.cons_eq_cons.mp rest
      rcases boundKeyword?_eq_some keyword with ⟨rfl, word⟩ | ⟨rfl, word⟩
      · refine ⟨_, gap, .extending blank blankBetween apart derives, blankGap, ?_⟩
        rw [whole, starts, same, word]
        simp only [List.append_assoc, List.cons_append]
      · refine ⟨_, gap, .above blank blankBetween apart derives, blankGap, ?_⟩
        rw [whole, starts, same, word]
        simp only [List.append_assoc, List.cons_append]
    | @named name after tail _ args dimensions starts present word given array =>
      obtain ⟨brackets, gap, derives, blankGap, ended⟩ := derives_of_bracketsWithin array
      cases given with
      | absent other =>
        obtain ⟨between, blankBetween, same⟩ := blanks_dropBlanks after
        refine ⟨_, gap, .named blank present word blankBetween .absent derives, blankGap, ?_⟩
        rw [whole, starts, same, ended]
        simp only [List.append_assoc, List.nil_append]
      | @present inside _ _ opened inner =>
        obtain ⟨between, blankBetween, same⟩ := blanks_dropBlanks after
        obtain ⟨texts, each, closed⟩ := derives_of_argumentsWithin fuel inner
        refine ⟨_, gap, .named blank present word blankBetween (.present each) derives, blankGap, ?_⟩
        rw [whole, starts, same, opened, closed, ended]
        simp only [List.append_assoc, List.cons_append, List.nil_append]

theorem derives_of_argumentsWithin (fuel : Nat) {cs rest : List Char} {args : List SourceType}
    (read : argumentsWithin fuel cs = .ok (args, rest)) : ∃ inside, DerivesList args inside ∧ cs = inside ++ '>' :: rest := by
  match fuel with
  | 0 => cases read
  | fuel + 1 =>
    rw [argumentsWithin] at read
    obtain ⟨⟨first, left⟩, firstRead, continued⟩ := except_bind.mp read
    obtain ⟨text, gap, derives, blankGap, same⟩ := derives_of_typeWithin fuel firstRead
    obtain ⟨before, blank, whole⟩ := blanks_dropBlanks left
    dsimp only at continued
    split at continued
    next others separated =>
      obtain ⟨⟨more, left⟩, othersRead, made⟩ := except_bind.mp continued
      cases made
      obtain ⟨inside, each, closed⟩ := derives_of_argumentsWithin fuel othersRead
      refine ⟨_, .more derives (blankGap.append blank) each, ?_⟩
      rw [same, whole, separated, closed]
      simp only [List.append_assoc, List.cons_append]
    next others ended =>
      cases continued
      refine ⟨_, .last derives (blankGap.append blank), ?_⟩
      rw [same, whole, ended]
      simp only [List.append_assoc]
    next => cases continued

end

end Reading

section Texts
variable {input : String} {ty other : SourceType}

theorem denotes_of_parse (accepted : parse input = .ok ty) : Denotes input ty := by
  unfold parse at accepted
  dsimp only at accepted
  split at accepted
  next => cases accepted
  next found rest read =>
    split at accepted
    next finished =>
      cases accepted
      obtain ⟨text, gap, derives, blank, whole⟩ := derives_of_typeWithin _ read
      refine ⟨text, gap ++ rest, whole, derives, blank.append ?_⟩
      exact List.dropWhile_eq_nil_iff.mp (List.isEmpty_iff.mp finished)
    next => cases accepted

theorem parse_of_denotes (denotes : Denotes input ty) : parse input = .ok ty := by
  obtain ⟨text, gap, whole, derives, blank⟩ := denotes
  have read : typeWithin (2 * input.toList.length + 2) input.toList = .ok (ty, []) := by
    rw [whole, typeWithin_derives derives (ends_blanks blank), dropBlanks_blanks blank]
    rw [List.length_append]
    omega
  simp only [parse, read]
  rfl

theorem parse_eq_ok_iff : parse input = .ok ty ↔ Denotes input ty := ⟨denotes_of_parse, parse_of_denotes⟩

/-- The reader accepts the texts of the grammar, each as the one type that it denotes, and rejects every other text. -/
theorem parse_iff_denotes (input : String) :
    (∀ ty, parse input = .ok ty ↔ Denotes input ty) ∧
    (∀ ty other, Denotes input ty → Denotes input other → ty = other) ∧
    ((∃ fault, parse input = .error fault) ↔ ∀ ty, ¬ Denotes input ty) := by
  refine ⟨fun ty => parse_eq_ok_iff, ?_, ?_⟩
  · intro ty other first second
    have same : parse input = .ok other := parse_of_denotes second
    rw [parse_of_denotes first] at same
    exact Except.ok.inj same
  · constructor
    · rintro ⟨fault, rejected⟩ ty denotes
      rw [parse_of_denotes denotes] at rejected
      cases rejected
    · intro meaningless
      cases result : parse input with
      | error fault => exact ⟨fault, rfl⟩
      | ok ty => exact absurd (denotes_of_parse result) (meaningless ty)

example : parse " Map< ? super\tA , B[ ] > [] " =
    .ok (.named "Map" [.above (.named "A" [] 0), .named "B" [] 1] 1) := by rfl

end Texts

end PluginForge.Proofs.TypeGrammar

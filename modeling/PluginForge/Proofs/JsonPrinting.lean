import Mathlib
import PluginForge.Proofs.JsonSpelling

/-! Printed JSON tells values apart. Where the text of one value, with something after it, is the text of another with
something after it, the values are the same and so is what follows, as long as that does not carry on a number. -/

namespace PluginForge.Proofs.JsonPrinting
open Json JsonSpelling

/-- Values whose numbers are integers and whose strings stand for text. -/
inductive Exact : Json → Prop where
  | null : Exact .null
  | bool (value : Bool) : Exact (.bool value)
  | int (value : Int) : Exact (.int value)
  | str (text : String) : Exact (.str text)
  | arr {items : List Json} (each : ∀ item ∈ items, Exact item) : Exact (.arr items)
  | obj {pairs : List (String × Json)} (each : ∀ pair ∈ pairs, Exact pair.2) : Exact (.obj pairs)

def inNumber (c : Char) : Bool := c == '-' || c.isDigit

/-- The text does not carry on a number. -/
def Ended (rest : List Char) : Prop := rest.takeWhile inNumber = []

theorem ended_cons {c : Char} {rest : List Char} (other : inNumber c = false) : Ended (c :: rest) := by
  simp [Ended, other]

/-- The printed item ends where it ends, whatever comes after it. -/
def Delimits {α : Type} (P : α → Prop) (print : α → List Char) (x : α) : Prop :=
  ∀ y, P y → ∀ r s, Ended r → Ended s → print x ++ r = print y ++ s → x = y ∧ r = s

section Items
variable {α : Type} {P : α → Prop} {print : α → List Char} {xs ys : List α} {r s : List Char}

theorem following_ended (lead : List Char) (items : List α) (rest : List Char) :
    Ended (following lead print items ++ '\n' :: rest) := by
  cases items with
  | nil => exact ended_cons rfl
  | cons item others => exact ended_cons rfl

theorem following_delimits (lead : List Char) (each : ∀ x ∈ xs, Delimits P print x) (others : ∀ y ∈ ys, P y)
    (same : following lead print xs ++ '\n' :: r = following lead print ys ++ '\n' :: s) : xs = ys ∧ r = s := by
  induction xs generalizing ys with
  | nil =>
    cases ys with
    | nil => exact ⟨rfl, (List.cons.inj same).2⟩
    | cons y ys => cases (List.cons.inj same).1
  | cons x xs ih =>
    cases ys with
    | nil => cases (List.cons.inj same).1
    | cons y ys =>
      obtain ⟨first, eachMore⟩ := List.forall_mem_cons.mp each
      obtain ⟨suits, more⟩ := List.forall_mem_cons.mp others
      simp only [following, List.flatMap_cons, List.cons_append, List.append_assoc, List.cons.injEq, true_and] at same
      obtain ⟨rfl, tails⟩ := first y suits _ _ (following_ended lead xs r) (following_ended lead ys s)
        (List.append_cancel_left same)
      obtain ⟨rfl, ends⟩ := ih eachMore more tails
      exact ⟨rfl, ends⟩

/-- What follows the opening bracket of a container. -/
def block (depth : Nat) (close : Char) (print : α → List Char) : List α → List Char
  | [] => [close]
  | item :: rest =>
    (lineBreak (depth + 1)).toList ++
      (print item ++ (following (lineBreak (depth + 1)).toList print rest ++ ((lineBreak depth).toList ++ [close])))

theorem lineBreak_toList (depth : Nat) : (lineBreak depth).toList = '\n' :: List.replicate (2 * depth) ' ' := by
  simp [lineBreak]

theorem block_delimits {depth : Nat} {close : Char} (solid : close ≠ '\n') (each : ∀ x ∈ xs, Delimits P print x)
    (others : ∀ y ∈ ys, P y) (same : block depth close print xs ++ r = block depth close print ys ++ s) :
    xs = ys ∧ r = s := by
  cases xs with
  | nil =>
    cases ys with
    | nil => exact ⟨rfl, (List.cons.inj same).2⟩
    | cons y ys =>
      simp only [block, lineBreak_toList] at same
      exact absurd (List.cons.inj same).1 solid
  | cons x xs =>
    cases ys with
    | nil =>
      simp only [block, lineBreak_toList] at same
      exact absurd (List.cons.inj same).1.symm solid
    | cons y ys =>
      obtain ⟨first, eachMore⟩ := List.forall_mem_cons.mp each
      obtain ⟨suits, more⟩ := List.forall_mem_cons.mp others
      simp only [block, List.append_assoc] at same
      have items := List.append_cancel_left same
      rw [lineBreak_toList depth, List.cons_append] at items
      obtain ⟨rfl, tails⟩ := first y suits _ _ (following_ended _ xs _) (following_ended _ ys _) items
      obtain ⟨rfl, ends⟩ := following_delimits _ eachMore more tails
      exact ⟨rfl, (List.cons.inj (List.append_cancel_left ends)).2⟩

end Items

theorem quoted_delimits {text other : String} {r s : List Char} (same : quoted text ++ r = quoted other ++ s) :
    text = other ∧ r = s := by
  simp only [quoted, List.cons_append, List.append_assoc, List.cons.injEq, true_and, List.nil_append] at same
  have reads := string?_escaped text r
  rw [same, string?_escaped other s] at reads
  simp only [Option.some.injEq, Prod.mk.injEq] at reads
  exact ⟨reads.1.symm, reads.2.symm⟩

theorem printedPair_delimits {print : Json → List Char} {pair : String × Json} {P : Json → Prop}
    (value : Delimits P print pair.2) : Delimits (fun other => P other.2) (printedPair [' '] print) pair := by
  intro other suits r s ended ended' same
  obtain ⟨key, value⟩ := pair
  obtain ⟨key', value'⟩ := other
  simp only [printedPair, List.append_assoc, List.cons_append, List.nil_append] at same
  obtain ⟨rfl, same⟩ := quoted_delimits same
  obtain ⟨rfl, ends⟩ := value value' suits r s ended ended' (by simpa using same)
  exact ⟨rfl, ends⟩

section Numbers

theorem isDigit_of_mem {n : Nat} {c : Char} (member : c ∈ (Nat.repr n).toList) : c.isDigit = true := by
  rw [Nat.toList_repr] at member
  exact Nat.isDigit_of_mem_toDigits (by decide) (by decide) member

theorem toString_negSucc (n : Nat) : (toString (Int.negSucc n)).toList = '-' :: (Nat.repr (n + 1)).toList := by
  simp [toString, Int.repr]

theorem inNumber_int (n : Int) : ∀ c ∈ (toString n).toList, inNumber c = true := by
  intro c member
  cases n with
  | ofNat n => simp [inNumber, isDigit_of_mem member]
  | negSucc n =>
    rw [toString_negSucc] at member
    rcases List.mem_cons.mp member with rfl | member
    · rfl
    · simp [inNumber, isDigit_of_mem member]

theorem intText_ne_nil (n : Int) : (toString n).toList ≠ [] := by
  cases n with
  | ofNat n =>
    have digits : (toString (Int.ofNat n)).toList = Nat.toDigits 10 n := Nat.toList_repr
    rw [digits]
    exact Nat.toDigits_ne_nil
  | negSucc n =>
    rw [toString_negSucc]
    exact List.cons_ne_nil _ _

theorem int_delimits {n m : Int} {r s : List Char} (ended : Ended r) (ended' : Ended s)
    (same : (toString n).toList ++ r = (toString m).toList ++ s) : n = m ∧ r = s := by
  have cut := congrArg (List.takeWhile inNumber) same
  rw [List.takeWhile_append_of_pos (inNumber_int n), List.takeWhile_append_of_pos (inNumber_int m), ended, ended',
    List.append_nil, List.append_nil] at cut
  obtain rfl := Int.repr_injective (String.toList_injective cut)
  exact ⟨rfl, List.append_cancel_left same⟩

end Numbers

section Values

/-- The first character of the text, except for numbers. -/
def opening : Json → Option Char
  | .null => some 'n'
  | .bool true => some 't'
  | .bool false => some 'f'
  | .str _ => some '"'
  | .arr _ => some '['
  | .obj _ => some '\x7b'
  | _ => none

theorem indented_arr (depth : Nat) (items : List Json) : ((Json.arr items).indented depth).toList =
    '[' :: block depth ']' (fun item => (item.indented (depth + 1)).toList) items := by
  cases items with
  | nil => simp [indented, block]
  | cons item rest => simp [indented, block, indentedItems_toList]

theorem indented_obj (depth : Nat) (pairs : List (String × Json)) : ((Json.obj pairs).indented depth).toList =
    '\x7b' :: block depth '\x7d' (printedPair [' '] fun value => (value.indented (depth + 1)).toList) pairs := by
  cases pairs with
  | nil => simp [indented, block]
  | cons pair rest =>
    obtain ⟨key, value⟩ := pair
    simp [indented, block, indentedPairs_toList, quote_toList, printedPair]

theorem indented_str (depth : Nat) (text : String) : ((Json.str text).indented depth).toList = quoted text :=
  quote_toList text

theorem indented_int (depth : Nat) (n : Int) : ((Json.int n).indented depth).toList = (toString n).toList := rfl

theorem indented_opens {value : Json} (exact : Exact value) (depth : Nat) :
    ∃ c rest, (value.indented depth).toList = c :: rest ∧
      (opening value = some c ∧ inNumber c = false ∨ opening value = none ∧ inNumber c = true) := by
  cases exact with
  | null => exact ⟨'n', ['u', 'l', 'l'], by simp [indented, leaf], .inl ⟨rfl, rfl⟩⟩
  | bool value =>
    cases value
    · exact ⟨'f', ['a', 'l', 's', 'e'], by simp [indented, leaf], .inl ⟨rfl, rfl⟩⟩
    · exact ⟨'t', ['r', 'u', 'e'], by simp [indented, leaf], .inl ⟨rfl, rfl⟩⟩
  | int n =>
    have numeric := inNumber_int n
    rw [indented_int]
    cases shape : (toString n).toList with
    | nil => exact absurd shape (intText_ne_nil n)
    | cons c rest => exact ⟨c, rest, rfl, .inr ⟨rfl, numeric c (shape ▸ List.mem_cons_self)⟩⟩
  | str text => exact ⟨'"', _, indented_str depth text, .inl ⟨rfl, rfl⟩⟩
  | @arr items each => exact ⟨'[', _, indented_arr depth items, .inl ⟨rfl, rfl⟩⟩
  | @obj pairs each => exact ⟨'\x7b', _, indented_obj depth pairs, .inl ⟨rfl, rfl⟩⟩

/-- Values of different kinds begin differently. -/
theorem opening_eq {value other : Json} (exact : Exact value) (exact' : Exact other) {depth : Nat} {r s : List Char}
    (same : (value.indented depth).toList ++ r = (other.indented depth).toList ++ s) : opening value = opening other := by
  obtain ⟨c, rest, text, opens⟩ := indented_opens exact depth
  obtain ⟨c', rest', text', opens'⟩ := indented_opens exact' depth
  rw [text, text', List.cons_append, List.cons_append] at same
  obtain rfl := (List.cons.inj same).1
  rcases opens with ⟨first, solid⟩ | ⟨first, numeric⟩
  · rcases opens' with ⟨second, _⟩ | ⟨_, numeric⟩
    · rw [first, second]
    · cases solid.symm.trans numeric
  · rcases opens' with ⟨_, solid⟩ | ⟨second, _⟩
    · cases solid.symm.trans numeric
    · rw [first, second]

theorem indented_delimits {value : Json} (exact : Exact value) (depth : Nat) :
    Delimits Exact (fun value => (value.indented depth).toList) value := by
  induction exact generalizing depth with
  | null =>
    intro other exact' r s _ _ same
    have opens := opening_eq .null exact' same
    cases exact' with
    | null => exact ⟨rfl, List.append_cancel_left same⟩
    | bool value => cases value <;> simp [opening] at opens
    | _ => simp [opening] at opens
  | bool value =>
    intro other exact' r s _ _ same
    have opens := opening_eq (.bool value) exact' same
    cases exact' with
    | bool value' =>
      have agree : value = value' := by cases value <;> cases value' <;> simp [opening] at opens ⊢
      subst agree
      exact ⟨rfl, List.append_cancel_left same⟩
    | _ => cases value <;> simp [opening] at opens
  | int n =>
    intro other exact' r s ended ended' same
    have opens := opening_eq (.int n) exact' same
    cases exact' with
    | int m =>
      obtain ⟨rfl, ends⟩ := int_delimits ended ended' same
      exact ⟨rfl, ends⟩
    | bool value => cases value <;> simp [opening] at opens
    | _ => simp [opening] at opens
  | str text =>
    intro other exact' r s _ _ same
    have opens := opening_eq (.str text) exact' same
    cases exact' with
    | str text' =>
      simp only [indented_str] at same
      obtain ⟨rfl, ends⟩ := quoted_delimits same
      exact ⟨rfl, ends⟩
    | bool value => cases value <;> simp [opening] at opens
    | _ => simp [opening] at opens
  | @arr items each ih =>
    intro other exact' r s _ _ same
    have opens := opening_eq (.arr each) exact' same
    cases exact' with
    | @arr items' each' =>
      simp only [indented_arr, List.cons_append, List.cons.injEq, true_and] at same
      obtain ⟨rfl, ends⟩ := block_delimits (by decide) (fun item member => ih item member (depth + 1)) each' same
      exact ⟨rfl, ends⟩
    | bool value => cases value <;> simp [opening] at opens
    | _ => simp [opening] at opens
  | @obj pairs each ih =>
    intro other exact' r s _ _ same
    have opens := opening_eq (.obj each) exact' same
    cases exact' with
    | @obj pairs' each' =>
      simp only [indented_obj, List.cons_append, List.cons.injEq, true_and] at same
      obtain ⟨rfl, ends⟩ := block_delimits (by decide)
        (fun pair member => printedPair_delimits (ih pair member (depth + 1))) each' same
      exact ⟨rfl, ends⟩
    | bool value => cases value <;> simp [opening] at opens
    | _ => simp [opening] at opens

theorem pretty_injective {value other : Json} (exact : Exact value) (exact' : Exact other)
    (same : value.pretty = other.pretty) : value = other := by
  have texts : (value.indented 0).toList ++ [] = (other.indented 0).toList ++ [] := by
    rw [List.append_nil, List.append_nil]
    exact congrArg String.toList same
  exact (indented_delimits exact 0 other exact' [] [] rfl rfl texts).1

end Values

end PluginForge.Proofs.JsonPrinting

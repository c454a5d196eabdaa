import Mathlib.Data.String.Basic

/-! Texts come in the order of the bytes that they are stored as. The bytes of a character tell it apart from any later
character at the first place where they differ, and there they are smaller. -/

namespace PluginForge.Proofs.ByteOrder

/-- The bytes of a text in UTF-8. -/
def bytes (text : String) : List UInt8 := text.toUTF8.data.toList

theorem bytes_eq (text : String) : bytes text = text.toList.flatMap String.utf8EncodeChar := by
  have encoded : text.toUTF8 = text.toList.utf8Encode := by
    rw [← String.toByteArray_ofList, String.ofList_toList]
    rfl
  rw [bytes, encoded, List.utf8Encode, List.toList_data_toByteArray]

/-- Lists of bytes are compared at the first place where they differ. -/
theorem cons_lt {n m : Nat} {first second : List UInt8} (small : n < 256 ∧ m < 256)
    (order : n < m ∨ n = m ∧ first < second) : UInt8.ofNat n :: first < UInt8.ofNat m :: second := by
  rw [List.cons_lt_cons_iff]
  rcases order with less | ⟨rfl, rest⟩
  · left
    rwa [UInt8.lt_iff_toNat_lt, UInt8.toNat_ofNat_of_lt' small.1, UInt8.toNat_ofNat_of_lt' small.2]
  · exact .inr ⟨rfl, rest⟩

theorem code_lt (c : Char) : c.val.toNat < 1114112 := by
  have valid := c.valid
  unfold UInt32.isValidChar Nat.isValidChar at valid
  omega

/-- The bytes of a character come before those of a later one, whatever follows. Fewer bytes begin with a smaller one, and
as many are the digits of the code point to the base 64, the first of which are greater. -/
theorem encode_lt {c d : Char} (before : c < d) (first second : List UInt8) :
    String.utf8EncodeChar c ++ first < String.utf8EncodeChar d ++ second := by
  have order : c.val.toNat < d.val.toNat := before
  have bound := code_lt d
  unfold String.utf8EncodeChar
  generalize c.val.toNat = v at *
  generalize d.val.toNat = w at *
  dsimp only
  by_cases one : v ≤ 127
  · rw [if_pos one]
    split_ifs <;> exact cons_lt (by omega) (by omega)
  rw [if_neg one, if_neg (show ¬ w ≤ 127 by omega)]
  by_cases two : v ≤ 2047
  · rw [if_pos two]
    split_ifs
    · have digits : v / 64 < w / 64 ∨ v / 64 = w / 64 ∧ v % 64 < w % 64 := by omega
      rcases digits with less | ⟨same, less⟩
      · exact cons_lt (by omega) (.inl (by omega))
      · exact cons_lt (by omega) (.inr ⟨by omega, cons_lt (by omega) (.inl (by omega))⟩)
    all_goals exact cons_lt (by omega) (by omega)
  rw [if_neg two, if_neg (show ¬ w ≤ 2047 by omega)]
  by_cases three : v ≤ 65535
  · rw [if_pos three]
    split_ifs
    · have digits : v / 4096 < w / 4096 ∨ v / 4096 = w / 4096 ∧
          (v / 64 % 64 < w / 64 % 64 ∨ v / 64 % 64 = w / 64 % 64 ∧ v % 64 < w % 64) := by omega
      refine cons_lt (by omega) (digits.imp (by omega) fun rest => ⟨by omega, ?_⟩)
      refine cons_lt (by omega) (rest.2.imp (by omega) fun rest => ⟨by omega, ?_⟩)
      exact cons_lt (by omega) (.inl (by omega))
    · exact cons_lt (by omega) (by omega)
  · rw [if_neg three, if_neg (show ¬ w ≤ 65535 by omega)]
    have digits : v / 262144 < w / 262144 ∨ v / 262144 = w / 262144 ∧
        (v / 4096 % 64 < w / 4096 % 64 ∨ v / 4096 % 64 = w / 4096 % 64 ∧
          (v / 64 % 64 < w / 64 % 64 ∨ v / 64 % 64 = w / 64 % 64 ∧ v % 64 < w % 64)) := by omega
    refine cons_lt (by omega) (digits.imp (by omega) fun rest => ⟨by omega, ?_⟩)
    refine cons_lt (by omega) (rest.2.imp (by omega) fun rest => ⟨by omega, ?_⟩)
    refine cons_lt (by omega) (rest.2.imp (by omega) fun rest => ⟨by omega, ?_⟩)
    exact cons_lt (by omega) (.inl (by omega))

theorem flatMap_lt {cs ds : List Char} (before : cs < ds) :
    cs.flatMap String.utf8EncodeChar < ds.flatMap String.utf8EncodeChar := by
  induction before with
  | @nil d ds =>
    obtain ⟨byte, rest, is⟩ := List.exists_cons_of_ne_nil (String.utf8EncodeChar_ne_nil (c := d))
    rw [List.flatMap_cons, is]
    exact List.nil_lt_cons ..
  | @rel c cs d ds less =>
    rw [List.flatMap_cons, List.flatMap_cons]
    exact encode_lt less _ _
  | @cons c cs ds _ ih =>
    rw [List.flatMap_cons, List.flatMap_cons]
    exact List.append_left_lt ih

/-- A text that comes before another does so by its bytes. -/
theorem bytes_lt {first second : String} (before : first < second) : bytes first < bytes second := by
  rw [bytes_eq, bytes_eq]
  exact flatMap_lt (String.lt_iff.mp before)

end PluginForge.Proofs.ByteOrder

import EmojiPicker.Proofs.Text.RoundTrip

/-!
# The order of texts is the order of their bytes

* `Text.encodeChar_append_lt` — of two characters the lesser one has the lesser bytes, whatever
  follows them;
* `Text.encode_lt_iff` — texts are ordered as their bytes are.

Characters of more bytes begin with a greater byte, and those of equally many bytes are numbers
written to the base 64 from the front.
-/

namespace EmojiPicker
namespace Text

theorem byte_lt {m n : Nat} (less : m < n) (fits : n < 256) : UInt8.ofNat m < UInt8.ofNat n := by
  rw [UInt8.lt_iff_toNat_lt, toNat_ofNat (by omega), toNat_ofNat fits]
  exact less

/-- A lesser digit decides, and equal ones leave it to what follows. -/
theorem cons_lt_of_le {m n : Nat} {xs ys : List UInt8} (le : m ≤ n) (fits : n < 256)
    (later : m = n → xs < ys) : UInt8.ofNat m :: xs < UInt8.ofNat n :: ys := by
  rw [List.cons_lt_cons_iff]
  rcases Nat.lt_or_eq_of_le le with less | rfl
  · exact Or.inl (byte_lt less fits)
  · exact Or.inr ⟨rfl, later rfl⟩

theorem encodeChar_append_lt {a b : Char} (less : a < b) (xs ys : List UInt8) :
    encodeChar a ++ xs < encodeChar b ++ ys := by
  have numbers : a.toNat < b.toNat := less
  have bound : b.toNat < 0x110000 := by
    rcases char_bounds b with low | ⟨_, high⟩
    · omega
    · exact high
  rw [encodeChar, encodeChar]
  generalize a.toNat = m at numbers ⊢
  generalize b.toNat = n at numbers bound ⊢
  -- The ranges of the first bytes are apart; within one range the digits are compared in turn.
  split
  · split
    · exact cons_lt_of_le (by omega) (by omega) (by omega)
    split
    · exact cons_lt_of_le (by omega) (by omega) (by omega)
    split
    · exact cons_lt_of_le (by omega) (by omega) (by omega)
    · exact cons_lt_of_le (by omega) (by omega) (by omega)
  split
  · rw [if_neg (by omega)]
    split
    · refine cons_lt_of_le (by omega) (by omega) fun first => ?_
      exact cons_lt_of_le (by omega) (by omega) (by omega)
    split
    · exact cons_lt_of_le (by omega) (by omega) (by omega)
    · exact cons_lt_of_le (by omega) (by omega) (by omega)
  split
  · rw [if_neg (by omega), if_neg (by omega)]
    split
    · refine cons_lt_of_le (by omega) (by omega) fun first => ?_
      refine cons_lt_of_le (by omega) (by omega) fun second => ?_
      exact cons_lt_of_le (by omega) (by omega) (by omega)
    · exact cons_lt_of_le (by omega) (by omega) (by omega)
  · rw [if_neg (by omega), if_neg (by omega), if_neg (by omega)]
    refine cons_lt_of_le (by omega) (by omega) fun first => ?_
    refine cons_lt_of_le (by omega) (by omega) fun second => ?_
    refine cons_lt_of_le (by omega) (by omega) fun third => ?_
    exact cons_lt_of_le (by omega) (by omega) (by omega)

theorem encode_cons (c : Char) (cs : List Char) : encode (c :: cs) = encodeChar c ++ encode cs :=
  List.flatMap_cons

theorem encodeChar_ne_nil (c : Char) : encodeChar c ≠ [] := by
  rw [encodeChar]
  repeat' split
  all_goals simp

theorem encode_lt_of_lt {as bs : List Char} (less : as < bs) : encode as < encode bs := by
  induction less with
  | @nil b bs =>
      rw [encode_cons]
      rcases bytes : encodeChar b with _ | ⟨first, rest⟩
      · exact absurd bytes (encodeChar_ne_nil b)
      · exact List.nil_lt_cons first _
  | rel less =>
      rw [encode_cons, encode_cons]
      exact encodeChar_append_lt less _ _
  | @cons c as bs _ ih =>
      rw [encode_cons, encode_cons]
      exact List.append_left_lt ih

/-- Texts are ordered as their bytes are. -/
theorem encode_lt_iff {as bs : List Char} : encode as < encode bs ↔ as < bs := by
  refine ⟨fun less => ?_, encode_lt_of_lt⟩
  by_contra other
  rcases List.le_iff_lt_or_eq.1 (List.not_lt.1 other) with more | rfl
  · exact List.lt_asymm less (encode_lt_of_lt more)
  · exact List.lt_irrefl _ less

end Text
end EmojiPicker

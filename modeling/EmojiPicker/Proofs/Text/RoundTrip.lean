import EmojiPicker.Text.Utf8
import Mathlib.Data.UInt

/-!
# Texts come back from their bytes

* `decodeFrom_encodeChar` — the bytes of one character in front of others are read as it;
* `decode_encode` — the bytes of a text are read as the text.

The ranges of second bytes are narrower than those of later ones after four lead bytes. Each of them
leaves out what no character needs: long forms, surrogates, and numbers beyond the last character.
-/

namespace EmojiPicker
namespace Text

theorem toNat_ofNat {n : Nat} (h : n < 256) : (UInt8.ofNat n).toNat = n := by
  rw [UInt8.toNat_ofNat']
  exact Nat.mod_eq_of_lt h

/-- Characters are numbered up to U+10FFFF, without the surrogates. -/
theorem char_bounds (c : Char) : c.toNat < 0xD800 ∨ (0xDFFF < c.toNat ∧ c.toNat < 0x110000) :=
  c.valid

/-- The second of three bytes is one that may follow the first. -/
theorem isSecond_three {n : Nat} (long : 0x800 ≤ n) (short : n < 0x10000)
    (valid : n < 0xD800 ∨ 0xDFFF < n) :
    isSecond (UInt8.ofNat (0xE0 + n / 4096)) (UInt8.ofNat (0x80 + n / 64 % 64)) = true := by
  rw [isSecond, toNat_ofNat (by omega), toNat_ofNat (by omega)]
  split
  all_goals
    simp only [Bool.and_eq_true, decide_eq_true_eq]
    omega

/-- The second of four bytes is one that may follow the first. -/
theorem isSecond_four {n : Nat} (long : 0x10000 ≤ n) (valid : n < 0x110000) :
    isSecond (UInt8.ofNat (0xF0 + n / 262144)) (UInt8.ofNat (0x80 + n / 4096 % 64)) = true := by
  rw [isSecond, toNat_ofNat (by omega), toNat_ofNat (by omega)]
  split
  all_goals
    simp only [Bool.and_eq_true, decide_eq_true_eq]
    omega

/-- The second of two bytes may be any continuation. -/
theorem isSecond_two {n : Nat} (long : 0x80 ≤ n) (short : n < 0x800) :
    isSecond (UInt8.ofNat (0xC0 + n / 64)) (UInt8.ofNat (0x80 + n % 64)) = true := by
  rw [isSecond, toNat_ofNat (by omega), toNat_ofNat (by omega)]
  split
  all_goals
    simp only [Bool.and_eq_true, decide_eq_true_eq]
    omega

theorem isContinuation_ofNat {n : Nat} (h : n < 64) :
    isContinuation (UInt8.ofNat (0x80 + n)) = true := by
  rw [isContinuation, toNat_ofNat (by omega)]
  simp only [Bool.and_eq_true, decide_eq_true_eq]
  omega

theorem pushByte_ofNat (acc : Nat) {n : Nat} (h : n < 64) :
    pushByte acc (UInt8.ofNat (0x80 + n)) = acc * 64 + n := by
  have fits : 0x80 + n < 256 := by omega
  have byte := toNat_ofNat fits
  unfold pushByte
  omega

theorem decodeFrom_encodeChar (index : Nat) (c : Char) (rest : List UInt8) :
    ∃ next, decodeFrom index (encodeChar c ++ rest) = (c :: ·) <$> decodeFrom next rest := by
  have valid := char_bounds c
  have back : Char.ofNat c.toNat = c := Char.ofNat_toNat c
  rw [encodeChar]
  generalize c.toNat = n at valid back ⊢
  -- One, two, three or four bytes, of which the lead byte decides what the decoder does.
  split
  · next one =>
      refine ⟨index + 1, ?_⟩
      rw [List.singleton_append, decodeFrom.eq_def]
      dsimp only
      rw [toNat_ofNat (by omega), if_pos one, back]
  split
  · next long two =>
      refine ⟨index + 2, ?_⟩
      have lead : (UInt8.ofNat (0xC0 + n / 64)).toNat = 0xC0 + n / 64 := toNat_ofNat (by omega)
      have spelled : pushByte (0xC0 + n / 64 - 0xC0) (UInt8.ofNat (0x80 + n % 64)) = n := by
        rw [pushByte_ofNat _ (by omega)]
        omega
      rw [List.cons_append, List.singleton_append, decodeFrom.eq_def]
      dsimp only
      rw [lead, if_neg (by omega), if_neg (by simp; omega)]
      simp only [isSecond_two (by omega) two, spelled, back]
      rw [if_neg (by simp), if_pos (by omega)]
  split
  · next long three =>
      refine ⟨index + 3, ?_⟩
      have lead : (UInt8.ofNat (0xE0 + n / 4096)).toNat = 0xE0 + n / 4096 := toNat_ofNat (by omega)
      have spelled : pushByte (pushByte (0xE0 + n / 4096 - 0xE0) (UInt8.ofNat (0x80 + n / 64 % 64)))
          (UInt8.ofNat (0x80 + n % 64)) = n := by
        rw [pushByte_ofNat _ (by omega), pushByte_ofNat _ (by omega)]
        omega
      rw [List.cons_append, List.cons_append, List.singleton_append, decodeFrom.eq_def]
      dsimp only
      rw [lead, if_neg (by omega), if_neg (by simp; omega)]
      simp only [isSecond_three (by omega) three (by omega), isContinuation_ofNat (by omega : n % 64 < 64),
        spelled, back]
      rw [if_neg (by simp), if_neg (by omega), if_neg (by simp), if_pos (by omega)]
  · next long =>
      refine ⟨index + 4, ?_⟩
      have lead : (UInt8.ofNat (0xF0 + n / 262144)).toNat = 0xF0 + n / 262144 := toNat_ofNat (by omega)
      have spelled : pushByte (pushByte (pushByte (0xF0 + n / 262144 - 0xF0)
          (UInt8.ofNat (0x80 + n / 4096 % 64))) (UInt8.ofNat (0x80 + n / 64 % 64)))
          (UInt8.ofNat (0x80 + n % 64)) = n := by
        rw [pushByte_ofNat _ (by omega), pushByte_ofNat _ (by omega), pushByte_ofNat _ (by omega)]
        omega
      rw [List.cons_append, List.cons_append, List.cons_append, List.singleton_append,
        decodeFrom.eq_def]
      dsimp only
      rw [lead, if_neg (by omega), if_neg (by simp; omega)]
      simp only [isSecond_four (by omega) (by omega : n < 0x110000),
        isContinuation_ofNat (by omega : n % 64 < 64), isContinuation_ofNat (by omega : n / 64 % 64 < 64),
        spelled, back]
      rw [if_neg (by simp), if_neg (by omega), if_neg (by simp), if_neg (by omega), if_neg (by simp)]

theorem decodeFrom_encode (index : Nat) (cs : List Char) :
    decodeFrom index (encode cs) = .ok cs := by
  induction cs generalizing index with
  | nil => rfl
  | cons c rest ih =>
      have first : encode (c :: rest) = encodeChar c ++ encode rest := List.flatMap_cons
      rcases decodeFrom_encodeChar index c (encode rest) with ⟨next, step⟩
      rw [first, step, ih]
      rfl

theorem decode_encode (cs : List Char) : decode (encode cs) = .ok cs :=
  decodeFrom_encode 0 cs

end Text
end EmojiPicker

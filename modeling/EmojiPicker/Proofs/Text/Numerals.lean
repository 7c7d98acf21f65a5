import EmojiPicker.Text.Numeral
import Mathlib.Algebra.Group.Int.Defs
import Mathlib.Algebra.Group.Nat.Defs
import Mathlib.Data.List.Induction
import Mathlib.Order.Basic

/-!
# Numerals and their numbers

* `Numeral.Decimal` — the spellings of a number: sign, zeros in front, digits;
* `Numeral.digits?_eq_some_iff` — a row of digits is read as the number that it spells;
* `Numeral.count?_of_decimal`, `Numeral.count?_eq_some_iff` — numbers below a bound;
* `Numeral.position?_of_decimal` — numbers of 64 bits with sign.

The digits of a number without zeros in front are those of the core library, `Nat.toDigits`.
-/

namespace EmojiPicker
namespace Numeral

variable {cs : List Char} {n bound : Nat} {k : Int}

/-! ## Spellings -/

/-- The digits of a number behind some zeros. -/
def padded (zeros n : Nat) : List Char :=
  List.replicate zeros '0' ++ Nat.toDigits 10 n

/-- A decimal spelling of a number. -/
inductive Decimal : List Char → Int → Prop where
  | plain (zeros n : Nat) : Decimal (padded zeros n) n
  | plus (zeros n : Nat) : Decimal ('+' :: padded zeros n) n
  | minus (zeros n : Nat) : Decimal ('-' :: padded zeros n) (-n)

theorem decimal_repr (n : Nat) : Decimal n.repr.toList n := by
  rw [Nat.toList_repr]
  exact Decimal.plain 0 n

theorem decimal_repr_int (k : Int) : Decimal k.repr.toList k := by
  cases k with
  | ofNat n => exact decimal_repr n
  | negSucc n =>
      have spelled : (Int.negSucc n).repr.toList = '-' :: padded 0 (n + 1) := by
        have sign : (Int.negSucc n).repr = "-" ++ (n + 1).repr := rfl
        rw [sign, String.toList_append, Nat.toList_repr]
        rfl
      rw [spelled, Int.negSucc_eq]
      exact Decimal.minus 0 (n + 1)

/-! ## Rows of digits -/

/-- The value of a row of digits is that of the core library. -/
theorem digits?_of_isDigit (nonempty : cs ≠ []) (digits : ∀ c ∈ cs, c.isDigit = true) :
    digits? cs = some (Nat.ofDigitChars 10 cs 0) := by
  have pushed : pushDigit = fun value c => 10 * value + (c.toNat - '0'.toNat) := by
    funext value c
    rw [pushDigit, Nat.mul_comm]
  have accepted : (cs.isEmpty || cs.any (! ·.isDigit)) = false := by simpa using ⟨nonempty, digits⟩
  rw [digits?, if_neg (by simpa using accepted), pushed]
  rfl

theorem isDigit_of_mem_padded {zeros : Nat} : ∀ c ∈ padded zeros n, c.isDigit = true := by
  intro c member
  rcases List.mem_append.1 member with zero | digit
  · rw [List.eq_of_mem_replicate zero]
    rfl
  · exact Nat.isDigit_of_mem_toDigits (by decide) (by decide) digit

theorem padded_ne_nil (zeros n : Nat) : padded zeros n ≠ [] := by
  simp [padded, Nat.toDigits_ne_nil]

theorem digits?_padded (zeros n : Nat) : digits? (padded zeros n) = some n := by
  rw [digits?_of_isDigit (padded_ne_nil zeros n) isDigit_of_mem_padded, padded,
    Nat.ofDigitChars_append, Nat.ofDigitChars_replicate_zero, Nat.mul_zero,
    Nat.ofDigitChars_toDigits (by decide) (by decide)]

theorem digitChar_of_isDigit {c : Char} (digit : c.isDigit = true) :
    c.toNat - '0'.toNat < 10 ∧ Nat.digitChar (c.toNat - '0'.toNat) = c := by
  have range : 48 ≤ c.toNat ∧ c.toNat ≤ 57 := by
    simpa [Char.isDigit, UInt32.le_iff_toNat_le] using digit
  have small : c.toNat - '0'.toNat < 10 := by
    change c.toNat - 48 < 10
    omega
  refine ⟨small, ?_⟩
  rw [← Char.toNat_inj, Nat.toNat_digitChar_of_lt_ten small]
  change 48 + (c.toNat - 48) = c.toNat
  omega

/-- Every row of digits spells its value. -/
theorem eq_padded (nonempty : cs ≠ []) (digits : ∀ c ∈ cs, c.isDigit = true) :
    ∃ zeros, cs = padded zeros (Nat.ofDigitChars 10 cs 0) := by
  -- By induction from the last digit, since the digits of a number are known from its last one on.
  induction cs using List.reverseRecOn with
  | nil => exact absurd rfl nonempty
  | append_singleton cs c ih =>
      rcases digitChar_of_isDigit (digits c (by simp)) with ⟨small, spelled⟩
      have last : Nat.toDigits 10 (c.toNat - '0'.toNat) = [c] := by
        rw [Nat.toDigits_of_lt_base small, spelled]
      have value : Nat.ofDigitChars 10 (cs ++ [c]) 0 =
          10 * Nat.ofDigitChars 10 cs 0 + (c.toNat - '0'.toNat) := by
        rw [Nat.ofDigitChars_append]
        rfl
      rw [value]
      by_cases first : cs = []
      · subst first
        refine ⟨0, ?_⟩
        rw [padded, Nat.ofDigitChars]
        simpa using last.symm
      · rcases ih first fun d member => digits d (by simp [member]) with ⟨zeros, row⟩
        generalize Nat.ofDigitChars 10 cs 0 = front at row ⊢
        rcases Nat.eq_zero_or_pos front with rfl | some
        · -- So far there were zeros only, and they stay in front.
          refine ⟨zeros + 1, ?_⟩
          have zero : Nat.toDigits 10 0 = ['0'] := rfl
          rw [row, padded, padded, Nat.mul_zero, Nat.zero_add, last, zero, List.replicate_succ']
        · refine ⟨zeros, ?_⟩
          rw [row, padded, padded, ← Nat.toDigits_append_toDigits (by decide) some small, last,
            List.append_assoc]

theorem digits?_eq_some_iff : digits? cs = some n ↔ ∃ zeros, cs = padded zeros n := by
  constructor
  · intro read
    by_cases refused : (cs.isEmpty || cs.any (! ·.isDigit)) = true
    · rw [digits?, if_pos refused] at read
      exact absurd read (by simp)
    · have accepted : cs ≠ [] ∧ ∀ c ∈ cs, c.isDigit = true := by simpa using refused
      rw [digits?_of_isDigit accepted.1 accepted.2] at read
      rw [← Option.some.inj read]
      exact eq_padded accepted.1 accepted.2
  · rintro ⟨zeros, rfl⟩
    exact digits?_padded zeros n

/-! ## Numbers below a bound -/

/-- A row of digits has no sign in front. -/
theorem head?_padded {zeros : Nat} {sign : Char} (other : sign.isDigit = false) :
    (padded zeros n).head? ≠ some sign := by
  intro first
  have digit := isDigit_of_mem_padded sign (List.mem_of_mem_head? first)
  rw [other] at digit
  exact absurd digit (by decide)

theorem dropPlus_padded (zeros n : Nat) : dropPlus (padded zeros n) = padded zeros n := by
  rw [dropPlus.eq_def]
  split
  · next rest same =>
      have first : (padded zeros n).head? = some '+' := by rw [same]; rfl
      exact absurd first (head?_padded (by decide))
  · rfl

theorem dropPlus_plus (cs : List Char) : dropPlus ('+' :: cs) = cs := rfl

theorem count?_of_dropPlus {zeros : Nat} (bound : Nat) (row : dropPlus cs = padded zeros n) :
    count? bound cs = (some n).filter (· < bound) := by
  rw [count?, row, digits?_padded]

/-- A minus is refused, even in front of zeros. -/
theorem count?_minus (bound : Nat) (cs : List Char) : count? bound ('-' :: cs) = none := by
  have refused : digits? ('-' :: cs) = none := by
    have sign : '-'.isDigit = false := by decide
    simp [digits?, sign]
  rw [count?, dropPlus, refused]
  · rfl
  · simp

theorem count?_of_lt (fits : n < bound) : count? bound n.repr.toList = some n := by
  have spelled : n.repr.toList = padded 0 n := Nat.toList_repr
  rw [spelled, count?_of_dropPlus bound (dropPlus_padded 0 n)]
  simpa using fits

theorem count?_of_outside (spelled : Decimal cs k) (outside : ¬ (0 ≤ k ∧ k < bound)) :
    count? bound cs = none := by
  cases spelled with
  | plain zeros n =>
      rw [count?_of_dropPlus bound (dropPlus_padded zeros n)]
      simpa using outside
  | plus zeros n =>
      rw [count?_of_dropPlus bound (dropPlus_plus _)]
      simpa using outside
  | minus zeros n => exact count?_minus bound _

/-- What counts as a number is its spellings without a minus. -/
theorem count?_eq_some_iff :
    count? bound cs = some n ↔ Decimal cs n ∧ cs.head? ≠ some '-' ∧ n < bound := by
  constructor
  · intro read
    rcases Option.filter_eq_some_iff.1 read with ⟨row, below⟩
    rcases digits?_eq_some_iff.1 row with ⟨zeros, spelled⟩
    have below : n < bound := by simpa using below
    rw [dropPlus.eq_def] at spelled
    split at spelled
    · rw [spelled]
      exact ⟨Decimal.plus zeros n, by simp, below⟩
    · rw [spelled]
      exact ⟨Decimal.plain zeros n, head?_padded (by decide), below⟩
  · rintro ⟨spelled, unsigned, below⟩
    generalize same : (n : Int) = k at spelled
    cases spelled with
    | plain zeros m =>
        obtain rfl : n = m := Int.ofNat.inj same
        rw [count?_of_dropPlus bound (dropPlus_padded zeros n)]
        simpa using below
    | plus zeros m =>
        obtain rfl : n = m := Int.ofNat.inj same
        rw [count?_of_dropPlus bound (dropPlus_plus _)]
        simpa using below
    | minus zeros m => exact absurd rfl unsigned

/-! ## Numbers of 64 bits with sign -/

/-- The range of positions. -/
def InPositions (k : Int) : Prop :=
  -2 ^ 63 ≤ k ∧ k < 2 ^ 63

instance (k : Int) : Decidable (InPositions k) :=
  inferInstanceAs (Decidable (_ ∧ _))

theorem half_size : UInt64.size / 2 = 2 ^ 63 := by decide

theorem position?_of_dropPlus {zeros : Nat} (row : dropPlus cs = padded zeros n)
    (unsigned : cs.head? ≠ some '-') : position? cs = if InPositions n then some (n : Int) else none := by
  have range : InPositions n ↔ n < 2 ^ 63 := by
    rw [InPositions]
    omega
  rw [position?.eq_def]
  split
  · exact absurd rfl unsigned
  · rw [row, digits?_padded, half_size, Option.filter_some]
    by_cases below : n < 2 ^ 63
    · rw [if_pos (decide_eq_true below), if_pos (range.2 below)]
      rfl
    · rw [if_neg (by simpa using below), if_neg (mt range.1 below)]
      rfl

theorem position?_minus (zeros n : Nat) :
    position? ('-' :: padded zeros n) = if InPositions (-n) then some (-n : Int) else none := by
  have range : InPositions (-n) ↔ n ≤ 2 ^ 63 := by
    rw [InPositions]
    omega
  rw [position?, digits?_padded, half_size, Option.filter_some]
  by_cases above : n ≤ 2 ^ 63
  · rw [if_pos (decide_eq_true above), if_pos (range.2 above)]
    rfl
  · rw [if_neg (by simpa using above), if_neg (mt range.1 above)]
    rfl

/-- Positions are read whatever their spelling, as far as they are in range. -/
theorem position?_of_decimal (spelled : Decimal cs k) :
    position? cs = if InPositions k then some k else none := by
  cases spelled with
  | plain zeros n => exact position?_of_dropPlus (dropPlus_padded zeros n) (head?_padded (by decide))
  | plus zeros n => exact position?_of_dropPlus (dropPlus_plus _) (by simp)
  | minus zeros n => exact position?_minus zeros n

end Numeral
end EmojiPicker

import EmojiPicker.Proofs.Single.Rounding
import Mathlib.Tactic.Ring

/-!
# Bit patterns of single precision

* `Single.value?` — the number that a bit pattern encodes;
* `Single.value?_ofDyadic` — a number with 24 binary places is encoded, whether or not its significand
  carries into the exponent;
* `RoundsTo` — the number of so many binary places nearest to a ratio, zero included;
* `Single.ofRatio_rounds` — a ratio is encoded by its nearest number, found in two roundings;
* `Single.value?_ofRatio_iff` — and by no other.
-/

namespace EmojiPicker

namespace Single

/-- The number that a bit pattern encodes: one bit for the sign, eight for the exponent and 23 for the
lower part of the significand. An exponent of zeros stands for the numbers around zero, and one of ones for
no number. -/
def value? (x : Single) : Option ℚ :=
  let sign : ℕ := x.bits / 2 ^ 31 % 2
  let exponent : ℕ := x.bits / 2 ^ 23 % 2 ^ 8
  let lower : ℕ := x.bits % 2 ^ 23
  if exponent = 2 ^ 8 - 1 then none
  else if exponent = 0 then some ((-1) ^ sign * (lower / 2 ^ 149))
  else some ((-1) ^ sign * ((2 ^ 23 + lower) * 2 ^ exponent / 2 ^ 150))

theorem value?_zero : zero.value? = some 0 := by
  simp [value?, zero]

theorem value?_positive {exponent lower : ℕ} (normal : 0 < exponent) (finite : exponent < 2 ^ 8 - 1)
    (fits : lower < 2 ^ 23) :
    (Single.mk (exponent * 2 ^ 23 + lower)).value? =
      some ((2 ^ 23 + lower : ℚ) * 2 ^ exponent / 2 ^ 150) := by
  have sign : (exponent * 2 ^ 23 + lower) / 2 ^ 31 % 2 = 0 := by omega
  have field : (exponent * 2 ^ 23 + lower) / 2 ^ 23 % 2 ^ 8 = exponent := by omega
  have rest : (exponent * 2 ^ 23 + lower) % 2 ^ 23 = lower := by omega
  simp only [value?, sign, field, rest, if_neg finite.ne, if_neg normal.ne']
  simp

/-- The exponent of a number says by how much the significand is shifted, so that the two powers of two
cancel. -/
theorem shift_eq {exponent : ℕ} (normal : exponent < 150) (significand : ℚ) :
    significand * 2 ^ (150 - exponent) / 2 ^ 150 = significand / 2 ^ exponent := by
  have whole : (2 : ℚ) ^ 150 = 2 ^ (150 - exponent) * 2 ^ exponent := by
    rw [← pow_add]
    congr 1
    omega
  rw [whole, mul_comm significand, mul_div_mul_left _ _ (by positivity)]

theorem value?_ofDyadic {x : Dyadic} (least : 2 ^ 23 ≤ x.significand) (most : x.significand ≤ 2 ^ 24)
    (proper : 23 ≤ x.exponent) (normal : x.exponent < 150) : (ofDyadic x).value? = some x.value := by
  rcases most.lt_or_eq with inside | carry
  · obtain ⟨lower, split⟩ := Nat.exists_eq_add_of_le least
    have whole : (149 - x.exponent) * 2 ^ 23 + x.significand =
        (150 - x.exponent) * 2 ^ 23 + lower := by omega
    have bits : ofDyadic x = ⟨(150 - x.exponent) * 2 ^ 23 + lower⟩ := congrArg Single.mk whole
    rw [bits, value?_positive (by omega) (by omega) (by omega), shift_eq normal, Dyadic.value,
      split, Nat.cast_add, Nat.cast_pow, Nat.cast_ofNat]
  · -- The carry leaves a significand without lower part, under the next exponent.
    have whole : (149 - x.exponent) * 2 ^ 23 + x.significand = (151 - x.exponent) * 2 ^ 23 + 0 := by
      omega
    have bits : ofDyadic x = ⟨(151 - x.exponent) * 2 ^ 23 + 0⟩ := congrArg Single.mk whole
    have next : 151 - x.exponent = 150 - x.exponent + 1 := by omega
    have doubled : (2 ^ 23 + (0 : ℕ) : ℚ) * 2 ^ (151 - x.exponent) =
        2 ^ 24 * 2 ^ (150 - x.exponent) := by
      rw [next, pow_succ]
      push_cast
      ring
    rw [bits, value?_positive (by omega) (by omega) (by omega), doubled, shift_eq normal,
      Dyadic.value, carry, Nat.cast_pow, Nat.cast_ofNat]

end Single

/-- The number with so many binary places that is nearest to a ratio. Zero has no places and is its own. -/
inductive RoundsTo (places : ℕ) : ℚ → ℚ → Prop where
  | zero : RoundsTo places 0 0
  | nearest {ratio : ℚ} {x : Dyadic} (rounds : x.Rounds places ratio) : RoundsTo places ratio x.value

theorem RoundsTo.unique {places : ℕ} {ratio a b : ℚ} (first : RoundsTo (places + 1) ratio a)
    (second : RoundsTo (places + 1) ratio b) : a = b := by
  cases first with
  | zero =>
      cases second with
      | zero => rfl
      | nearest rounds => exact absurd rounds.ratio_pos (lt_irrefl 0)
  | nearest one =>
      cases second with
      | zero => exact absurd one.ratio_pos (lt_irrefl 0)
      | nearest other => exact one.value_unique other

namespace Single

theorem ofRatio_zero (d : ℕ) : ofRatio 0 d = zero := by
  simp [ofRatio]

/-- Both roundings of a ratio of 32-bit numbers, and the bit pattern of what they give. -/
theorem ofRatio_nearest {n d : ℕ} (pos : 0 < n) (le : n ≤ d) (fits : d < 2 ^ 32) :
    ∃ wide narrow : Dyadic, wide.Rounds 53 (n / d) ∧ narrow.Rounds 24 wide.value ∧
      (ofRatio n d).value? = some narrow.value := by
  have positive : (0 : ℚ) < d := by exact_mod_cast pos.trans_le le
  have proper : (n : ℚ) / d ≤ 1 := by
    rw [div_le_one positive]
    exact_mod_cast le
  have first : (Dyadic.round 53 n d).Rounds 53 (n / d) := Dyadic.round_rounds 52 pos le
  generalize wideIs : Dyadic.round 53 n d = wide at first
  have bounded := first.value_le_one proper
  have some : 0 < wide.significand := lt_of_lt_of_le (by norm_num) first.significand_range.1
  have below : wide.significand ≤ 2 ^ wide.exponent := by
    rw [Dyadic.value, div_le_one (by positivity)] at bounded
    exact_mod_cast bounded
  have second : (Dyadic.round 24 wide.significand (2 ^ wide.exponent)).Rounds 24 wide.value := by
    have rounds := Dyadic.round_rounds 23 some below
    push_cast at rounds
    exact rounds
  generalize narrowIs : Dyadic.round 24 wide.significand (2 ^ wide.exponent) = narrow at second
  refine ⟨wide, narrow, first, second, ?_⟩
  have encoded : ofRatio n d = ofDyadic narrow := by
    have started : ¬ ((n = 0 || d = 0) = true) := by
      simp
      omega
    rw [ofRatio, if_neg started, wideIs, ← narrowIs]
    rfl
  obtain ⟨least, most⟩ := second.significand_range
  -- The ratio is not so small that the exponent would run out.
  have far : narrow.exponent < 57 := by
    have smallest : (1 : ℚ) / 2 ^ 32 ≤ n / d := by
      have limit : (d : ℚ) ≤ 2 ^ 32 := by exact_mod_cast fits.le
      have one : (1 : ℚ) ≤ n := by exact_mod_cast pos
      exact div_le_div₀ (Nat.cast_nonneg n) one positive limit
    have half := first.half_lt_value
    have high := second.high
    have power : (2 : ℚ) ^ narrow.exponent < 2 ^ 57 := by
      have size : (0 : ℚ) < 2 ^ narrow.exponent := by positivity
      have large : 1 / 2 ^ 33 ≤ wide.value := by linarith
      have scaled : 1 / 2 ^ 33 * (2 : ℚ) ^ narrow.exponent ≤ wide.value * 2 ^ narrow.exponent :=
        mul_le_mul_of_nonneg_right large size.le
      linarith
    exact (pow_lt_pow_iff_right₀ one_lt_two).1 power
  rw [encoded]
  exact value?_ofDyadic least most (second.le_exponent bounded) (by omega)

theorem ofRatio_rounds {n d : ℕ} (le : n ≤ d) (fits : d < 2 ^ 32) :
    ∃ wide value, RoundsTo 53 (n / d) wide ∧ RoundsTo 24 wide value ∧
      (ofRatio n d).value? = some value ∧ 0 ≤ value ∧ value ≤ 1 ∧
      (value < 1 ↔ (n : ℚ) / d < 1 - 1 / 2 ^ 25 - 1 / 2 ^ 54) := by
  rcases Nat.eq_zero_or_pos n with none | pos
  · subst none
    refine ⟨0, 0, ?_, .zero, ?_, le_rfl, zero_le_one, ?_⟩
    · rw [Nat.cast_zero, zero_div]
      exact .zero
    · rw [ofRatio_zero, value?_zero]
    · norm_num
  · obtain ⟨wide, narrow, first, second, encoded⟩ := ofRatio_nearest pos le fits
    have positive : (0 : ℚ) < d := by exact_mod_cast pos.trans_le le
    have proper : (n : ℚ) / d ≤ 1 := by
      rw [div_le_one positive]
      exact_mod_cast le
    have bounded := second.value_le_one (first.value_le_one proper)
    refine ⟨wide.value, narrow.value, .nearest first, .nearest second, encoded,
      narrow.value_nonneg, bounded, ?_⟩
    rw [bounded.lt_iff_ne, ne_eq, first.twice_eq_one_iff second proper, not_le]

/-- What is encoded is what the two roundings give, and nothing else. -/
theorem value?_ofRatio_iff {n d : ℕ} (le : n ≤ d) (fits : d < 2 ^ 32) (value : ℚ) :
    (ofRatio n d).value? = some value ↔ ∃ wide, RoundsTo 53 (n / d) wide ∧ RoundsTo 24 wide value := by
  obtain ⟨wide, found, first, second, encoded, -⟩ := ofRatio_rounds le fits
  constructor
  · intro shown
    obtain rfl : found = value := Option.some.inj (encoded.symm.trans shown)
    exact ⟨wide, first, second⟩
  · rintro ⟨other, toOther, toValue⟩
    obtain rfl := first.unique toOther
    rw [encoded, second.unique toValue]

end Single
end EmojiPicker

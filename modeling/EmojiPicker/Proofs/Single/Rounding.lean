import EmojiPicker.Single
import Mathlib.Algebra.Order.Field.Rat
import Mathlib.Tactic.Linarith
import Mathlib.Tactic.NormNum
import Mathlib.Tactic.Positivity

/-!
# Nearest numbers

What the rounding of ratios does, against the rule of nearest numbers.

* `NearestEven`, `nearestEven_divideToEven` — the nearest whole number, of two the even one;
* `NearestEven.le_iff` — which numbers are rounded to an even whole number or beyond it;
* `Dyadic.Rounds`, `Dyadic.round_rounds` — the nearest number with so many binary places;
* `Dyadic.Rounds.value_unique` — there is one such number;
* `Dyadic.Rounds.le_iff` — which ratios are rounded to a given number or beyond it;
* `Dyadic.Rounds.twice_eq_one_iff` — which ratios two roundings take up to one.

Whatever is said of two roundings follows from `Dyadic.Rounds`, so that it holds of every way to find the
nearest number.
-/

namespace EmojiPicker

/-! ## Whole numbers -/

/-- The whole number nearest to `x`, and the even one of two. -/
structure NearestEven (x : ℚ) (k : ℕ) : Prop where
  above : x ≤ k + 1 / 2
  below : k - 1 / 2 ≤ x
  even : x = k + 1 / 2 ∨ x = k - 1 / 2 → Even k

namespace NearestEven

variable {x : ℚ} {k l c : ℕ}

theorem le_of_le (near : NearestEven x k) (reached : (c : ℚ) ≤ x) : c ≤ k := by
  have above := near.above
  have close : (c : ℚ) < (k + 1 : ℕ) := by
    push_cast
    linarith
  exact Nat.lt_succ_iff.1 (by exact_mod_cast close)

theorem le_of_ge (near : NearestEven x k) (bounded : x ≤ c) : k ≤ c := by
  have below := near.below
  have close : (k : ℚ) < (c + 1 : ℕ) := by
    push_cast
    linarith
  exact Nat.lt_succ_iff.1 (by exact_mod_cast close)

/-- An even number attracts what is half a unit below it. -/
theorem le_iff (near : NearestEven x k) (even : Even c) : c ≤ k ↔ (c : ℚ) - 1 / 2 ≤ x := by
  have above := near.above
  have below := near.below
  constructor
  · intro reached
    have : (c : ℚ) ≤ k := by exact_mod_cast reached
    linarith
  · intro half
    by_contra short
    have step : ((k + 1 : ℕ) : ℚ) ≤ c := by exact_mod_cast Nat.lt_of_not_le short
    push_cast at step
    -- Only the middle between two neighbours is left, where the even one is taken.
    have next : ((k + 1 : ℕ) : ℚ) = c := by
      push_cast
      linarith
    have both : Even k := near.even (Or.inl (by linarith))
    have succ : Even (k + 1) := by
      have same : k + 1 = c := by exact_mod_cast next
      rwa [same]
    exact absurd both (Nat.even_add_one.1 succ)

theorem not_lt (first : NearestEven x k) (second : NearestEven x l) : ¬ k < l := by
  intro less
  have above := first.above
  have below := second.below
  have step : ((k + 1 : ℕ) : ℚ) ≤ l := by exact_mod_cast less
  push_cast at step
  -- Two nearest numbers would be neighbours, and both even.
  have next : k + 1 = l := by
    have same : ((k + 1 : ℕ) : ℚ) = l := by
      push_cast
      linarith
    exact_mod_cast same
  have lower : Even k := first.even (Or.inl (by linarith))
  have upper : Even (k + 1) := next ▸ second.even (Or.inr (by linarith))
  exact Nat.even_add_one.1 upper lower

theorem unique (first : NearestEven x k) (second : NearestEven x l) : k = l :=
  Nat.le_antisymm (Nat.le_of_not_lt (second.not_lt first)) (Nat.le_of_not_lt (first.not_lt second))

end NearestEven

theorem nearestEven_divideToEven (n : ℕ) {d : ℕ} (pos : 0 < d) :
    NearestEven (n / d) (divideToEven n d) := by
  have positive : (0 : ℚ) < d := by exact_mod_cast pos
  have less := Nat.mod_lt n pos
  have parts : (n : ℚ) / d = (n / d : ℕ) + (n % d : ℕ) / d := by
    rw [div_eq_iff positive.ne', add_mul, div_mul_cancel₀ _ positive.ne']
    exact_mod_cast (Nat.div_add_mod' n d).symm
  rw [parts, divideToEven]
  generalize n / d = q
  generalize n % d = r at less
  -- The part behind the quotient is less than half a unit, more, or one half.
  have whole : (r : ℚ) / d < 1 := by
    rw [div_lt_one positive]
    exact_mod_cast less
  have start : 0 ≤ (r : ℚ) / d := by positivity
  have lower : (r : ℚ) / d < 1 / 2 ↔ 2 * r < d := by
    rw [div_lt_div_iff₀ positive two_pos]
    norm_cast
    omega
  have upper : 1 / 2 < (r : ℚ) / d ↔ d < 2 * r := by
    rw [div_lt_div_iff₀ two_pos positive]
    norm_cast
    omega
  split
  · next low =>
      have short := lower.2 low
      exact ⟨by linarith, by linarith, by rintro (same | same) <;> linarith⟩
  · next low =>
      split
      · next high =>
          have long := upper.2 high
          refine ⟨?_, ?_, ?_⟩
          · push_cast
            linarith
          · push_cast
            linarith
          · push_cast
            rintro (same | same) <;> linarith
      · next high =>
          have half : (r : ℚ) / d = 1 / 2 :=
            le_antisymm (not_lt.1 fun more => high (upper.1 more))
              (not_lt.1 fun less => low (lower.1 less))
          rw [half]
          rcases Nat.mod_two_eq_zero_or_one q with even | odd
          · rw [even]
            refine ⟨by push_cast; linarith, by push_cast; linarith, fun _ => ?_⟩
            rw [Nat.add_zero]
            exact Nat.even_iff.2 even
          · rw [odd]
            refine ⟨by push_cast; linarith, by push_cast; linarith, fun _ => ?_⟩
            exact Nat.even_add_one.2 (Nat.not_even_iff.2 odd)

/-! ## Binary places -/

namespace Dyadic

def value (x : Dyadic) : ℚ :=
  x.significand / 2 ^ x.exponent

theorem value_nonneg (x : Dyadic) : 0 ≤ x.value := by
  rw [value]
  positivity

/-- The number with so many binary places that is nearest to a ratio, and of two the one with an even
significand. -/
structure Rounds (places : ℕ) (ratio : ℚ) (x : Dyadic) : Prop where
  low : 2 ^ (places - 1) ≤ ratio * 2 ^ x.exponent
  high : ratio * 2 ^ x.exponent < 2 ^ places
  near : NearestEven (ratio * 2 ^ x.exponent) x.significand

/-- The logarithms leave two candidates, and a comparison decides between them. -/
theorem exponentFor_cases (places n d : ℕ) :
    let guess := places + d.log2 - n.log2
    (exponentFor (places + 1) n d = guess + 1 ∧ n * 2 ^ guess < d * 2 ^ places) ∨
      (exponentFor (places + 1) n d = guess ∧ d * 2 ^ places ≤ n * 2 ^ guess) := by
  intro guess
  by_cases below : n * 2 ^ guess < d * 2 ^ places
  · exact Or.inl ⟨if_pos below, below⟩
  · exact Or.inr ⟨if_neg below, Nat.le_of_not_lt below⟩

theorem exponentFor_range {n d : ℕ} (places : ℕ) (pos : 0 < n) (le : n ≤ d) :
    d * 2 ^ places ≤ n * 2 ^ exponentFor (places + 1) n d ∧
      n * 2 ^ exponentFor (places + 1) n d < d * 2 ^ (places + 1) := by
  have nlow := Nat.log2_self_le pos.ne'
  have nhigh := Nat.lt_log2_self (n := n)
  have dlow := Nat.log2_self_le (pos.trans_le le).ne'
  have dhigh := Nat.lt_log2_self (n := d)
  have order : n.log2 < d.log2 + 1 :=
    (Nat.pow_lt_pow_iff_right one_lt_two).1 ((nlow.trans le).trans_lt dhigh)
  have cases := exponentFor_cases places n d
  have reach : n.log2 + (places + d.log2 - n.log2) = places + d.log2 := by omega
  generalize places + d.log2 - n.log2 = guess at reach cases
  have short : n * 2 ^ guess < d * 2 ^ (places + 1) := by
    calc n * 2 ^ guess < 2 ^ (n.log2 + 1) * 2 ^ guess :=
          Nat.mul_lt_mul_of_pos_right nhigh (Nat.two_pow_pos guess)
      _ = 2 ^ d.log2 * 2 ^ (places + 1) := by
          rw [← Nat.pow_add, ← Nat.pow_add]
          congr 1
          omega
      _ ≤ d * 2 ^ (places + 1) := Nat.mul_le_mul_right _ dlow
  have long : d * 2 ^ places < n * 2 ^ (guess + 1) := by
    calc d * 2 ^ places < 2 ^ (d.log2 + 1) * 2 ^ places :=
          Nat.mul_lt_mul_of_pos_right dhigh (Nat.two_pow_pos _)
      _ = 2 ^ n.log2 * 2 ^ (guess + 1) := by
          rw [← Nat.pow_add, ← Nat.pow_add]
          congr 1
          omega
      _ ≤ n * 2 ^ (guess + 1) := Nat.mul_le_mul_right _ nlow
  rcases cases with ⟨same, below⟩ | ⟨same, reached⟩
  · rw [same]
    refine ⟨long.le, ?_⟩
    calc n * 2 ^ (guess + 1) = n * 2 ^ guess * 2 := by rw [Nat.pow_succ, Nat.mul_assoc]
      _ < d * 2 ^ places * 2 := Nat.mul_lt_mul_of_pos_right below two_pos
      _ = d * 2 ^ (places + 1) := by rw [Nat.pow_succ, Nat.mul_assoc]
  · rw [same]
    exact ⟨reached, short⟩

theorem round_rounds {n d : ℕ} (places : ℕ) (pos : 0 < n) (le : n ≤ d) :
    Rounds (places + 1) (n / d) (round (places + 1) n d) := by
  have positive : (0 : ℚ) < d := by exact_mod_cast pos.trans_le le
  obtain ⟨low, high⟩ := exponentFor_range places pos le
  have scaled : (n : ℚ) / d * 2 ^ exponentFor (places + 1) n d =
      ((n * 2 ^ exponentFor (places + 1) n d : ℕ) : ℚ) / d := by
    push_cast
    exact div_mul_eq_mul_div _ _ _
  refine ⟨?_, ?_, ?_⟩
  · change 2 ^ places ≤ (n : ℚ) / d * 2 ^ exponentFor (places + 1) n d
    rw [scaled, le_div_iff₀ positive, mul_comm]
    exact_mod_cast low
  · change (n : ℚ) / d * 2 ^ exponentFor (places + 1) n d < _
    rw [scaled, div_lt_iff₀ positive, mul_comm _ (d : ℚ)]
    exact_mod_cast high
  · change NearestEven ((n : ℚ) / d * 2 ^ exponentFor (places + 1) n d) _
    rw [scaled]
    exact nearestEven_divideToEven _ (pos.trans_le le)

/-! ## Rounded ratios -/

namespace Rounds

variable {places : ℕ} {ratio : ℚ} {x y : Dyadic}

theorem ratio_pos (rounds : Rounds places ratio x) : 0 < ratio := by
  have low : (0 : ℚ) < ratio * 2 ^ x.exponent := lt_of_lt_of_le (by positivity) rounds.low
  exact (pos_iff_pos_of_mul_pos low).2 (by positivity)

/-- One more place behind the point would be one place too many. -/
theorem exponent_le (first : Rounds (places + 1) ratio x) (second : Rounds (places + 1) ratio y) :
    y.exponent ≤ x.exponent := by
  by_contra further
  have more : (2 : ℚ) ^ (x.exponent + 1) ≤ 2 ^ y.exponent :=
    pow_le_pow_right₀ one_le_two (Nat.lt_of_not_le further)
  have low : (2 : ℚ) ^ places ≤ ratio * 2 ^ x.exponent := first.low
  have tooFar : (2 : ℚ) ^ (places + 1) ≤ ratio * 2 ^ y.exponent := by
    calc (2 : ℚ) ^ (places + 1) = 2 ^ places * 2 := pow_succ _ _
      _ ≤ ratio * 2 ^ x.exponent * 2 := mul_le_mul_of_nonneg_right low two_pos.le
      _ = ratio * 2 ^ (x.exponent + 1) := by rw [pow_succ, mul_assoc]
      _ ≤ ratio * 2 ^ y.exponent := mul_le_mul_of_nonneg_left more first.ratio_pos.le
  exact absurd second.high (not_lt.2 tooFar)

theorem value_unique (first : Rounds (places + 1) ratio x) (second : Rounds (places + 1) ratio y) :
    x.value = y.value := by
  have same : x.exponent = y.exponent :=
    Nat.le_antisymm (second.exponent_le first) (first.exponent_le second)
  have near := first.near
  rw [same] at near
  rw [Dyadic.value, Dyadic.value, same, near.unique second.near]

/-- The significand has so many places, or is the first number with one more. -/
theorem significand_range (rounds : Rounds (places + 1) ratio x) :
    2 ^ places ≤ x.significand ∧ x.significand ≤ 2 ^ (places + 1) := by
  refine ⟨rounds.near.le_of_le ?_, rounds.near.le_of_ge ?_⟩
  · push_cast
    exact rounds.low
  · push_cast
    exact rounds.high.le

theorem value_le_one (rounds : Rounds places ratio x) (proper : ratio ≤ 1) : x.value ≤ 1 := by
  have unit : (0 : ℚ) < 2 ^ x.exponent := by positivity
  rw [value, div_le_one unit]
  have bounded : x.significand ≤ 2 ^ x.exponent := by
    apply rounds.near.le_of_ge
    push_cast
    exact mul_le_of_le_one_left unit.le proper
  exact_mod_cast bounded

/-- Rounding does not take half of a number away. -/
theorem half_lt_value (rounds : Rounds (places + 1) ratio x) : ratio / 2 < x.value := by
  have least : (2 : ℚ) ^ places ≤ x.significand := by exact_mod_cast rounds.significand_range.1
  have high := rounds.high
  rw [pow_succ] at high
  rw [value, lt_div_iff₀ (by positivity)]
  linarith

/-- A number between zero and one has its places behind the point. -/
theorem le_exponent (rounds : Rounds (places + 1) ratio x) (proper : ratio ≤ 1) :
    places ≤ x.exponent := by
  have unit : (0 : ℚ) < 2 ^ x.exponent := by positivity
  have reached : (2 : ℚ) ^ places ≤ 2 ^ x.exponent := by
    calc (2 : ℚ) ^ places ≤ ratio * 2 ^ x.exponent := rounds.low
      _ ≤ 1 * 2 ^ x.exponent := mul_le_mul_of_nonneg_right proper unit.le
      _ = 2 ^ x.exponent := one_mul _
  exact (pow_le_pow_iff_right₀ one_lt_two).1 reached

/-- A ratio is rounded to an even number of the upper half or beyond it if not more than half a unit is
missing. Below that half the unit is smaller, but nothing there comes near. -/
theorem le_iff {c : ℕ} (rounds : Rounds (places + 1) ratio x) (proper : ratio ≤ 1) (even : Even c)
    (above : 2 ^ places < c) (top : c ≤ 2 ^ (places + 1)) :
    (c : ℚ) / 2 ^ (places + 1) ≤ x.value ↔ (c - 1 / 2 : ℚ) / 2 ^ (places + 1) ≤ ratio := by
  have unit : (0 : ℚ) < 2 ^ (places + 1) := by positivity
  have doubled : (2 : ℚ) ^ (places + 1) = 2 ^ places * 2 := pow_succ _ _
  have least : (2 : ℚ) ^ places + 1 ≤ c := by exact_mod_cast above
  have most : (c : ℚ) ≤ 2 ^ (places + 1) := by exact_mod_cast top
  have behind := rounds.le_exponent proper
  rw [div_le_iff₀ unit, div_le_iff₀ unit]
  rcases Nat.lt_trichotomy x.exponent (places + 1) with fewer | same | more
  · -- Only the ratio one has fewer places behind the point.
    have last : x.exponent = places := by omega
    have one : ratio = 1 := by
      have low := rounds.low
      rw [last] at low
      refine le_antisymm proper (le_of_mul_le_mul_right ?_ (by positivity : (0 : ℚ) < 2 ^ places))
      rw [one_mul]
      exact low
    have reached : (2 : ℚ) ^ places ≤ x.significand := by exact_mod_cast rounds.significand_range.1
    have value : 1 ≤ x.value := by
      rw [Dyadic.value, last, one_le_div (by positivity)]
      exact reached
    constructor
    · intro _
      rw [one]
      linarith
    · intro _
      exact most.trans (le_mul_of_one_le_left unit.le value)
  · have near := rounds.near
    rw [same] at near
    rw [Dyadic.value, same, div_mul_cancel₀ _ unit.ne', ← near.le_iff even]
    exact_mod_cast Iff.rfl
  · have wide : 2 * (2 : ℚ) ^ (places + 1) ≤ 2 ^ x.exponent := by
      calc 2 * (2 : ℚ) ^ (places + 1) = 2 ^ (places + 2) := by rw [pow_succ _ (places + 1), mul_comm]
        _ ≤ 2 ^ x.exponent := pow_le_pow_right₀ one_le_two more
    have small : ratio < 1 / 2 := by
      have high := rounds.high
      by_contra large
      have scaled : 1 / 2 * (2 : ℚ) ^ x.exponent ≤ ratio * 2 ^ x.exponent :=
        mul_le_mul_of_nonneg_right (not_lt.1 large) (by positivity)
      linarith
    have half : x.value ≤ 1 / 2 := by
      have most : (x.significand : ℚ) ≤ 2 ^ (places + 1) := by
        exact_mod_cast rounds.significand_range.2
      rw [Dyadic.value, div_le_iff₀ (by positivity)]
      linarith
    have scaled : x.value * 2 ^ (places + 1) ≤ 1 / 2 * 2 ^ (places + 1) :=
      mul_le_mul_of_nonneg_right half unit.le
    have below : ratio * 2 ^ (places + 1) ≤ 1 / 2 * 2 ^ (places + 1) :=
      mul_le_mul_of_nonneg_right small.le unit.le
    constructor
    · intro reached
      linarith
    · intro reached
      linarith

/-- Two roundings to binary places, the first one to more of them, give one for what is not further from it
than half a unit of the second, and half a unit of the first. -/
theorem twice_eq_one_iff {wide narrow : Dyadic} (first : Rounds 53 ratio wide)
    (second : Rounds 24 wide.value narrow) (proper : ratio ≤ 1) :
    narrow.value = 1 ↔ 1 - 1 / 2 ^ 25 - 1 / 2 ^ 54 ≤ ratio := by
  have bounded := first.value_le_one proper
  have top : narrow.value = 1 ↔ ((2 ^ 24 : ℕ) : ℚ) / 2 ^ (23 + 1) ≤ narrow.value := by
    rw [show ((2 ^ 24 : ℕ) : ℚ) / 2 ^ (23 + 1) = 1 by norm_num]
    exact ⟨fun one => one.ge, fun one => le_antisymm (second.value_le_one bounded) one⟩
  have middle : ((2 ^ 24 : ℕ) - 1 / 2 : ℚ) / 2 ^ (23 + 1) =
      ((2 ^ 53 - 2 ^ 28 : ℕ) : ℚ) / 2 ^ (52 + 1) := by norm_num
  have bottom : ((2 ^ 53 - 2 ^ 28 : ℕ) - 1 / 2 : ℚ) / 2 ^ (52 + 1) =
      1 - 1 / 2 ^ 25 - 1 / 2 ^ 54 := by norm_num
  rw [top, second.le_iff bounded (by decide) (by norm_num) (by norm_num), middle,
    first.le_iff proper (by decide) (by norm_num) (by norm_num), bottom]

end Rounds
end Dyadic
end EmojiPicker

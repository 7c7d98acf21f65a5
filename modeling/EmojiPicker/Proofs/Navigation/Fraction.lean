import EmojiPicker.Proofs.Navigation.Progress
import EmojiPicker.Proofs.Single.Encoding

/-!
# The part of a page that is scrolled in

The remainder of a position is less than the distance, so that the part is a proper fraction. The number
that the indicator gets need not be one, since rounding takes the greatest of these fractions up to one.

* `PageProgress.Proper` — an indicator with a number from zero up to one, one excluded;
* `PageProgress.proper_iff` — which remainders give one;
* `PageProgress.fraction_below_one_iff` — the same with the number itself, and which lists give nothing
  else;
* `PageProgress.fraction_reaches_one` — the shortest list that shows a whole page as a part.
-/

namespace EmojiPicker

namespace ScrollPosition

variable (offset extent range pageCount : ℕ)

theorem distance_ofMetrics : (ofMetrics offset extent range pageCount).distance = range - extent := by
  rw [ofMetrics_eq]

theorem remainder_lt (scrollable : 0 < range - extent) :
    (ofMetrics offset extent range pageCount).remainder < range - extent := by
  rw [ofMetrics_eq]
  exact Nat.mod_lt _ scrollable

theorem remainder_le : (ofMetrics offset extent range pageCount).remainder ≤ range - extent := by
  rcases Nat.eq_zero_or_pos (range - extent) with flat | scrollable
  · have none : scaled offset (range - extent) pageCount ≤ (range - extent) * pageCount := scaled_le
    rw [ofMetrics_eq]
    change scaled offset (range - extent) pageCount % (range - extent) ≤ _
    rw [flat] at none ⊢
    simpa using none
  · exact (remainder_lt offset extent range pageCount scrollable).le

/-- The last offset before the end of a list of one page. -/
theorem remainder_before_end {distance : ℕ} (scrollable : 0 < distance) (fits : distance < 2 ^ 32)
    (same : range - extent = distance) :
    (ofMetrics (distance - 1) extent range 1).remainder = distance - 1 := by
  have inside : min (distance - 1) distance * 1 < UInt64.size := by
    rw [UInt64.size]
    omega
  rw [← same] at inside scrollable ⊢
  rw [remainder_of_fits inside, Nat.mul_one, min_eq_left (Nat.sub_le _ _)]
  exact Nat.mod_eq_of_lt (by omega)

end ScrollPosition

namespace PageProgress

/-- The part of the next page is a number from zero up to one, one excluded. -/
def Proper (p : PageProgress) : Prop :=
  ∃ part, p.fraction.value? = some part ∧ 0 ≤ part ∧ part < 1

/-- The remainder over the distance, for a position of 32-bit numbers. -/
def ratio (offset extent range : UInt32) (pageCount : ℕ) : ℚ :=
  (ScrollPosition.ofMetrics offset.toNat extent.toNat range.toNat pageCount).remainder /
    (range.toNat - extent.toNat : ℕ)

variable (offset extent range : UInt32) (pageCount : ℕ)

theorem fraction_eq :
    (ofMetrics offset extent range pageCount).fraction =
      .ofRatio (ScrollPosition.ofMetrics offset.toNat extent.toNat range.toNat pageCount).remainder
        (range.toNat - extent.toNat) := by
  rw [← ScrollPosition.distance_ofMetrics offset.toNat extent.toNat range.toNat pageCount]
  rfl

theorem distance_lt : range.toNat - extent.toNat < 2 ^ 32 :=
  lt_of_le_of_lt (Nat.sub_le _ _) range.toNat_lt

theorem fraction_value_iff (value : ℚ) :
    (ofMetrics offset extent range pageCount).fraction.value? = some value ↔
      ∃ wide, RoundsTo 53 (ratio offset extent range pageCount) wide ∧ RoundsTo 24 wide value := by
  rw [fraction_eq, ratio]
  exact Single.value?_ofRatio_iff (ScrollPosition.remainder_le _ _ _ _) (distance_lt extent range) value

theorem fraction_range :
    ∃ value, (ofMetrics offset extent range pageCount).fraction.value? = some value ∧
      0 ≤ value ∧ value ≤ 1 ∧
      (value < 1 ↔ ratio offset extent range pageCount < 1 - 1 / 2 ^ 25 - 1 / 2 ^ 54) := by
  obtain ⟨-, value, -, -, encoded, bounds⟩ := Single.ofRatio_rounds
    (ScrollPosition.remainder_le offset.toNat extent.toNat range.toNat pageCount)
    (distance_lt extent range)
  rw [fraction_eq, ratio]
  exact ⟨value, encoded, bounds⟩

theorem proper_iff :
    (ofMetrics offset extent range pageCount).Proper ↔
      ratio offset extent range pageCount < 1 - 1 / 2 ^ 25 - 1 / 2 ^ 54 := by
  obtain ⟨value, encoded, start, -, below⟩ := fraction_range offset extent range pageCount
  constructor
  · rintro ⟨part, shown, -, less⟩
    obtain rfl : value = part := Option.some.inj (encoded.symm.trans shown)
    exact below.1 less
  · intro less
    exact ⟨value, encoded, start, below.2 less⟩

variable {extent range}

/-- The steps of a short list are too coarse to come near to one. -/
theorem proper_of_short (short : range.toNat - extent.toNat < 2 ^ 25) :
    (ofMetrics offset extent range pageCount).Proper := by
  rw [proper_iff, ratio]
  rcases Nat.eq_zero_or_pos (range.toNat - extent.toNat) with flat | scrollable
  · rw [flat]
    norm_num
  · have less := ScrollPosition.remainder_lt offset.toNat extent.toNat range.toNat pageCount scrollable
    generalize (ScrollPosition.ofMetrics offset.toNat extent.toNat range.toNat pageCount).remainder = n
      at less
    generalize range.toNat - extent.toNat = d at short scrollable less
    have positive : (0 : ℚ) < d := by exact_mod_cast scrollable
    have step : (n : ℚ) + 1 ≤ d := by exact_mod_cast less
    have size : (d : ℚ) + 1 ≤ 2 ^ 25 := by exact_mod_cast short
    rw [div_lt_iff₀ positive]
    linarith

/-- In a longer list the last step before the end is shown as the end. -/
theorem not_proper_of_long (long : 2 ^ 25 ≤ range.toNat - extent.toNat) :
    ¬ (ofMetrics (.ofNat (range.toNat - extent.toNat - 1)) extent range 1).Proper := by
  have fits := distance_lt extent range
  have before : (UInt32.ofNat (range.toNat - extent.toNat - 1)).toNat =
      range.toNat - extent.toNat - 1 := UInt32.toNat_ofNat_of_lt' (by rw [UInt32.size]; omega)
  rw [proper_iff, ratio, before, ScrollPosition.remainder_before_end _ _ (by omega) fits rfl, not_lt,
    Nat.cast_sub (by omega), Nat.cast_one]
  generalize range.toNat - extent.toNat = d at long
  have size : (2 : ℚ) ^ 25 ≤ d := by exact_mod_cast long
  have positive : (0 : ℚ) < d := lt_of_lt_of_le (by norm_num) size
  rw [le_div_iff₀ positive]
  linarith

/-- The indicator of a list gets the bit pattern of the remainder over the distance, rounded to 53 binary
places and from there to 24, and this is a number from zero to one. It is below one exactly if the ratio
does not come within half a unit of the one rounding and half a unit of the other. So all that a list reports
is below one if it can be scrolled by less than `2 ^ 25`, and not otherwise. -/
theorem fraction_below_one_iff (extent range : UInt32) :
    (∀ (offset : UInt32) (pageCount : ℕ),
      (∀ value, (ofMetrics offset extent range pageCount).fraction.value? = some value ↔
        ∃ wide, RoundsTo 53 (ratio offset extent range pageCount) wide ∧ RoundsTo 24 wide value) ∧
      (∃ value, (ofMetrics offset extent range pageCount).fraction.value? = some value ∧
        0 ≤ value ∧ value ≤ 1) ∧
      ((ofMetrics offset extent range pageCount).Proper ↔
        ratio offset extent range pageCount < 1 - 1 / 2 ^ 25 - 1 / 2 ^ 54)) ∧
    ((∀ (offset : UInt32) (pageCount : ℕ), (ofMetrics offset extent range pageCount).Proper) ↔
      range.toNat - extent.toNat < 2 ^ 25) := by
  refine ⟨?_, ?_, ?_⟩
  · intro offset pageCount
    obtain ⟨value, encoded, start, top, -⟩ := fraction_range offset extent range pageCount
    exact ⟨fraction_value_iff offset extent range pageCount, ⟨value, encoded, start, top⟩,
      proper_iff offset extent range pageCount⟩
  · intro always
    by_contra long
    exact not_proper_of_long (Nat.le_of_not_lt long) (always _ 1)
  · intro short offset pageCount
    exact proper_of_short offset pageCount short

/-- One page that can be scrolled by `2 ^ 25`, one step before its end. -/
theorem fraction_reaches_one : ¬ (ofMetrics 33554431 0 33554432 1).Proper := by
  rintro ⟨part, shown, -, below⟩
  have bits : (ofMetrics 33554431 0 33554432 1).fraction = ⟨0x3F800000⟩ := by decide +kernel
  have one : (Single.mk 0x3F800000).value? = some 1 := by norm_num [Single.value?]
  rw [bits, one] at shown
  obtain rfl := Option.some.inj shown
  exact absurd below (lt_irrefl 1)

end PageProgress
end EmojiPicker

import EmojiPicker.Navigation.Scroll
import Mathlib.Algebra.Order.Floor.Semifield
import Mathlib.Data.Rat.Floor
import Mathlib.Data.UInt

/-!
# How far a list is scrolled

* `ScrollPosition.ofMetrics_eq` — whole pages and remainder as quotient and remainder of one number;
* `ScrollPosition.value`, `ScrollPosition.value_ofMetrics` — the position in pages as a fraction;
* `ScrollPosition.value_mono` — it grows with the offset;
* `WordPosition`, `WordPosition.ofMetrics?_eq` — the position worked out in words of 64 bits;
* `PageProgress.follows_offset` — what the indicator gets is exact, bounded and monotone;
* `PageProgress.end_without_pages` — a list without pages is at its start and at its end.

The product of offset and pages may leave the 64 bits. It stops there, so that it still grows with the
offset; but from there on a position is no longer that of its offset.
-/

namespace EmojiPicker
namespace ScrollPosition

variable {offset further extent range distance pageCount : Nat}

/-! ## Quotient and remainder -/

/-- How far a list is scrolled, where one page counts as much as the distance. -/
def scaled (offset distance pageCount : Nat) : Nat :=
  min (min offset distance * pageCount) limit

theorem scaled_le : scaled offset distance pageCount ≤ distance * pageCount := by
  calc scaled offset distance pageCount ≤ min offset distance * pageCount := min_le_left _ _
    _ ≤ distance * pageCount := Nat.mul_le_mul_right pageCount (min_le_right offset distance)

theorem scaled_mono (grows : offset ≤ further) :
    scaled offset distance pageCount ≤ scaled further distance pageCount := by
  have clamped : min offset distance ≤ min further distance := min_le_min_right distance grows
  exact min_le_min_right limit (Nat.mul_le_mul_right pageCount clamped)

theorem scaled_of_fits (fits : min offset distance * pageCount < UInt64.size) :
    scaled offset distance pageCount = min offset distance * pageCount :=
  min_eq_left (Nat.le_sub_one_of_lt fits)

/-- A list that cannot be scrolled is no exception, since nothing is divided then. -/
theorem ofMetrics_eq (offset extent range pageCount : Nat) :
    ofMetrics offset extent range pageCount =
      ⟨scaled offset (range - extent) pageCount / (range - extent),
        scaled offset (range - extent) pageCount % (range - extent), range - extent⟩ := by
  rw [ofMetrics]
  split
  · next still =>
      have none : scaled offset (range - extent) pageCount = 0 := by
        have flat : range - extent = 0 ∨ pageCount = 0 := by simpa using still
        rcases flat with flat | flat
        · simp [scaled, flat]
        · simp [scaled, flat]
      simp [none]
  · rfl

/-! ## Fractions of pages -/

/-- The position in pages. -/
def value (p : ScrollPosition) : ℚ :=
  p.whole + p.remainder / p.distance

theorem value_ofMetrics (offset extent range pageCount : Nat) :
    (ofMetrics offset extent range pageCount).value =
      (scaled offset (range - extent) pageCount : ℚ) / ((range - extent : Nat) : ℚ) := by
  rw [ofMetrics_eq, value]
  generalize range - extent = distance
  by_cases flat : distance = 0
  · simp [flat]
  · have scrollable : (distance : ℚ) ≠ 0 := by exact_mod_cast flat
    have parts := Nat.div_add_mod (scaled offset distance pageCount) distance
    rw [eq_div_iff scrollable, add_mul, div_mul_cancel₀ _ scrollable, mul_comm]
    exact_mod_cast parts

theorem value_mono (grows : offset ≤ further) (extent range pageCount : Nat) :
    (ofMetrics offset extent range pageCount).value ≤
      (ofMetrics further extent range pageCount).value := by
  rw [value_ofMetrics, value_ofMetrics]
  have reached : (scaled offset (range - extent) pageCount : ℚ) ≤
      scaled further (range - extent) pageCount := by exact_mod_cast scaled_mono grows
  exact div_le_div_of_nonneg_right reached (Nat.cast_nonneg _)

theorem whole_le (offset extent range pageCount : Nat) :
    (ofMetrics offset extent range pageCount).whole ≤ pageCount := by
  rw [ofMetrics_eq]
  exact Nat.div_le_of_le_mul scaled_le

/-! ## Positions below the limit -/

section Fits

variable (fits : min offset (range - extent) * pageCount < UInt64.size)

include fits

theorem whole_of_fits :
    (ofMetrics offset extent range pageCount).whole =
      min offset (range - extent) * pageCount / (range - extent) := by
  rw [ofMetrics_eq, scaled_of_fits fits]

theorem remainder_of_fits :
    (ofMetrics offset extent range pageCount).remainder =
      min offset (range - extent) * pageCount % (range - extent) := by
  rw [ofMetrics_eq, scaled_of_fits fits]

theorem value_of_fits :
    (ofMetrics offset extent range pageCount).value =
      ((min offset (range - extent) * pageCount : Nat) : ℚ) / ((range - extent : Nat) : ℚ) := by
  rw [value_ofMetrics, scaled_of_fits fits]

/-- All pages are passed at the end of the list and nowhere before it. -/
theorem whole_eq_iff :
    (ofMetrics offset extent range pageCount).whole = pageCount ↔
      pageCount = 0 ∨ (0 < range - extent ∧ range - extent ≤ offset) := by
  rw [whole_of_fits fits]
  generalize range - extent = distance
  rcases Nat.eq_zero_or_pos pageCount with none | some
  · simp [none]
  rcases Nat.eq_zero_or_pos distance with flat | scrollable
  · simp [flat]
    omega
  constructor
  · intro all
    refine Or.inr ⟨scrollable, ?_⟩
    -- Short of the end, the product is short of the distance times the pages.
    by_contra short
    have inside : min offset distance * pageCount < distance * pageCount :=
      Nat.mul_lt_mul_of_pos_right (by omega) some
    have before := Nat.div_lt_of_lt_mul inside
    omega
  · rintro (none | ⟨_, reached⟩)
    · omega
    · rw [min_eq_right reached, Nat.mul_div_cancel_left pageCount scrollable]

end Fits

end ScrollPosition

/-! ## Words of 64 bits -/

/-- A position in words. -/
structure WordPosition where
  whole : UInt64
  remainder : UInt64
  distance : UInt64

namespace WordPosition

def toPosition (p : WordPosition) : ScrollPosition :=
  ⟨p.whole.toNat, p.remainder.toNat, p.distance.toNat⟩

/-- A difference that stops at zero. -/
def saturatingSub (a b : UInt32) : UInt32 :=
  if b ≤ a then a - b else 0

/-- A product that stops at the largest word. -/
def saturatingMul (a b : UInt64) : UInt64 :=
  if a.toNat * b.toNat < UInt64.size then a * b else .ofNat ScrollPosition.limit

/-- A count, or the largest word if it is beyond all words. -/
def ofCount (n : Nat) : UInt64 :=
  if n < UInt64.size then .ofNat n else .ofNat ScrollPosition.limit

/-- Quotient and remainder. There are none by zero. -/
def divide? (n d : UInt64) : Option (UInt64 × UInt64) :=
  if d = 0 then none else some (n / d, n % d)

/-- The position of an offset, worked out in words, unless that takes a division by zero. -/
def ofMetrics? (offset extent range : UInt32) (pageCount : Nat) : Option WordPosition :=
  let distance := (saturatingSub range extent).toUInt64
  if distance = 0 || pageCount = 0 then
    some ⟨0, 0, distance⟩
  else
    let scaled := saturatingMul (min offset.toUInt64 distance) (ofCount pageCount)
    (divide? scaled distance).map fun (whole, remainder) => ⟨whole, remainder, distance⟩

theorem toNat_limit : (UInt64.ofNat ScrollPosition.limit).toNat = ScrollPosition.limit := by
  decide +kernel

theorem toNat_saturatingSub (a b : UInt32) : (saturatingSub a b).toNat = a.toNat - b.toNat := by
  rw [saturatingSub]
  split
  · next below => exact UInt32.toNat_sub_of_le _ _ below
  · next above =>
      have less : a.toNat < b.toNat := by
        rw [UInt32.le_iff_toNat_le] at above
        omega
      exact (Nat.sub_eq_zero_of_le less.le).symm

theorem toNat_saturatingMul (a b : UInt64) :
    (saturatingMul a b).toNat = min (a.toNat * b.toNat) ScrollPosition.limit := by
  rw [saturatingMul]
  split
  · next fits =>
      rw [UInt64.toNat_mul, Nat.mod_eq_of_lt fits]
      exact (min_eq_left (Nat.le_sub_one_of_lt fits)).symm
  · next beyond =>
      rw [toNat_limit]
      refine (min_eq_right ?_).symm
      rw [ScrollPosition.limit]
      omega

theorem toNat_ofCount (n : Nat) : (ofCount n).toNat = min n ScrollPosition.limit := by
  rw [ofCount]
  split
  · next fits =>
      rw [UInt64.toNat_ofNat_of_lt' fits]
      exact (min_eq_left (Nat.le_sub_one_of_lt fits)).symm
  · next beyond =>
      rw [toNat_limit]
      refine (min_eq_right ?_).symm
      rw [ScrollPosition.limit]
      omega

/-- A count that is cut to a word beforehand makes no difference to a product that stops. -/
theorem min_mul_min (a n limit : Nat) : min (a * min n limit) limit = min (a * n) limit := by
  rcases Nat.le_total n limit with fits | beyond
  · rw [min_eq_left fits]
  · rw [min_eq_right beyond]
    rcases Nat.eq_zero_or_pos a with rfl | some
    · simp
    · have cut : limit ≤ a * limit := Nat.le_mul_of_pos_left limit some
      have whole : limit ≤ a * n := cut.trans (Nat.mul_le_mul_left a beyond)
      rw [min_eq_right cut, min_eq_right whole]

/-- Words are enough: nothing is divided by zero, and nothing is lost. -/
theorem ofMetrics?_eq (offset extent range : UInt32) (pageCount : Nat) :
    (ofMetrics? offset extent range pageCount).map toPosition =
      some (ScrollPosition.ofMetrics offset.toNat extent.toNat range.toNat pageCount) := by
  have same : (saturatingSub range extent).toUInt64.toNat = range.toNat - extent.toNat := by
    rw [UInt32.toNat_toUInt64, toNat_saturatingSub]
  rw [ofMetrics?, ScrollPosition.ofMetrics]
  -- From here on the distance is any word whose number is that of the list.
  generalize (saturatingSub range extent).toUInt64 = distance at same ⊢
  have zero : distance = 0 ↔ range.toNat - extent.toNat = 0 := by
    rw [← same, ← UInt64.toNat_inj]
    rfl
  simp only [zero]
  split
  · simp [toPosition, same]
  · next scrolled =>
      have scrollable : distance ≠ 0 := by
        intro flat
        simp [zero.1 flat] at scrolled
      have clamped : (min offset.toUInt64 distance).toNat =
          min offset.toNat (range.toNat - extent.toNat) := by
        rw [UInt64.toNat_min, UInt32.toNat_toUInt64, same]
      have product : (saturatingMul (min offset.toUInt64 distance) (ofCount pageCount)).toNat =
          min (min offset.toNat (range.toNat - extent.toNat) * pageCount) ScrollPosition.limit := by
        rw [toNat_saturatingMul, toNat_ofCount, clamped, min_mul_min]
      simp [divide?, scrollable, toPosition, UInt64.toNat_div, UInt64.toNat_mod, product, same]

end WordPosition

/-! ## What the indicator gets -/

namespace PageProgress

/-- For every offset, extent, range and number of pages the indicator gets the whole pages of a position
and its rounded remainder. With `distance` for what the list can be scrolled by, and `reached` for how far
it is scrolled,

* the position takes neither a division by zero nor a number beyond 64 bits;
* there are not more whole pages than pages, and a greater offset has no smaller position;
* as long as `reached * pageCount` fits in 64 bits, the position is that product over the distance, its
  whole pages are the floor of it, and at the boundary of a page nothing remains. All pages are passed
  exactly if there are none, or the list can be scrolled and is at its end. -/
theorem follows_offset (offset extent range : UInt32) (pageCount : Nat) :
    let distance := range.toNat - extent.toNat
    let reached := min offset.toNat distance
    let position (offset : UInt32) :=
      ScrollPosition.ofMetrics offset.toNat extent.toNat range.toNat pageCount
    let progress := ofMetrics offset extent range pageCount
    progress = ⟨pageCount, (position offset).whole, .ofRatio (position offset).remainder distance⟩ ∧
      (WordPosition.ofMetrics? offset extent range pageCount).map WordPosition.toPosition =
        some (position offset) ∧
      progress.wholePage ≤ pageCount ∧
      (∀ further, offset ≤ further → (position offset).value ≤ (position further).value) ∧
      (reached * pageCount < UInt64.size →
        (position offset).value = ((reached * pageCount : Nat) : ℚ) / distance ∧
        progress.wholePage = ⌊((reached * pageCount : Nat) : ℚ) / distance⌋₊ ∧
        (distance ∣ reached * pageCount → (position offset).remainder = 0) ∧
        (progress.wholePage = pageCount ↔
          pageCount = 0 ∨ (0 < distance ∧ distance ≤ offset.toNat))) := by
  intro distance reached position progress
  have whole : progress.wholePage = (position offset).whole := rfl
  have farthest : (position offset).distance = distance :=
    congrArg ScrollPosition.distance (ScrollPosition.ofMetrics_eq _ _ _ _)
  refine ⟨?_, WordPosition.ofMetrics?_eq offset extent range pageCount, ?_, ?_, ?_⟩
  · rw [← farthest]
    rfl
  · exact ScrollPosition.whole_le offset.toNat extent.toNat range.toNat pageCount
  · intro further grows
    exact ScrollPosition.value_mono (UInt32.le_iff_toNat_le.1 grows) _ _ pageCount
  · intro fits
    refine ⟨ScrollPosition.value_of_fits fits, ?_, ?_, ScrollPosition.whole_eq_iff fits⟩
    · rw [whole, Nat.floor_div_eq_div]
      exact ScrollPosition.whole_of_fits fits
    · intro boundary
      calc (position offset).remainder = reached * pageCount % distance :=
            ScrollPosition.remainder_of_fits fits
        _ = 0 := Nat.mod_eq_zero_of_dvd boundary

/-- Nine pages that can be scrolled by 450, of which 100 lets two pass by. -/
theorem follows_offset_boundary :
    (100 : UInt32) ≤ 120 ∧ min 100 (550 - 100) * 9 < UInt64.size ∧
      550 - 100 ∣ min 100 (550 - 100) * 9 ∧
      (ofMetrics 100 100 550 9).wholePage = 2 ∧
      (ScrollPosition.ofMetrics 100 100 550 9).remainder = 0 ∧
      (ScrollPosition.ofMetrics 100 100 550 9).value ≤ (ScrollPosition.ofMetrics 120 100 550 9).value := by
  have later : (100 : UInt32) ≤ 120 := by decide
  have fits : min 100 (550 - 100) * 9 < UInt64.size := by decide
  have boundary : 550 - 100 ∣ min 100 (550 - 100) * 9 := by decide
  have law := follows_offset 100 100 550 9
  have exact_below := law.2.2.2.2 fits
  have floor : (ofMetrics 100 100 550 9).wholePage = ⌊((min 100 (550 - 100) * 9 : Nat) : ℚ) / 450⌋₊ :=
    exact_below.2.1
  refine ⟨later, fits, boundary, ?_, exact_below.2.2.1 boundary, law.2.2.2.1 120 later⟩
  rw [floor]
  norm_num

/-- A list without pages has passed all of them, although it has none that could be passed. So its being
at the end does not show that there are pages. -/
theorem end_without_pages :
    let progress := ofMetrics 500 100 550 0
    min 500 (550 - 100) * 0 < UInt64.size ∧ progress.wholePage = progress.pageCount ∧
      ¬ (0 < 550 - 100 ∧ 0 < progress.pageCount ∧ 550 - 100 ≤ 500) := by
  decide +kernel

end PageProgress
end EmojiPicker

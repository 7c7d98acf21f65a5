import EmojiPicker.Proofs.Text.Settled
import Mathlib.Data.List.Infix
import Mathlib.Data.List.TakeWhile

/-!
# Lower case in the middle of a text

A capital sigma is the one letter whose lower case depends on the letters around it, so that a part of a
text need not have the lower case there that it has alone.

* `Text.lowercaseWithin` — the lower case of a part between other parts;
* `Text.lowercaseAfter_append` — the lower case of a text in parts;
* `Text.lowercaseWithin_congr`, `Text.lowercaseWithin_sigma` — what the surroundings decide;
* `Text.closesOnSigma`, `Text.opensOnSigma` — whether they decide about the last or the first sigma;
* `Text.lowercase_isPrefix`, `Text.lowercase_isInfix` — otherwise a part keeps its lower case;
* `Text.not_infix_of_closes`, `Text.not_infix_of_opens` — and if so, one letter more makes a difference.

A sigma is no case-ignorable character. So it stops the look around from every other sigma, and only the
outermost ones see what is beyond the part.
-/

namespace EmojiPicker
namespace Text

variable {before after other later cs xs ys : List Char}

/-! ## Looking around -/

theorem sigma_not_ignorable : isCaseIgnorable 'Σ' = false := by decide +kernel

/-- What stops the look is all that it sees. -/
theorem meetsCased_append_of_exists (some : ∃ c ∈ xs, isCaseIgnorable c = false) (ys : List Char) :
    meetsCased (xs ++ ys) = meetsCased xs := by
  have left : xs.dropWhile isCaseIgnorable ≠ [] := by simpa [List.dropWhile_eq_nil_iff] using some
  have whole : (xs ++ ys).dropWhile isCaseIgnorable = xs.dropWhile isCaseIgnorable ++ ys := by
    rw [List.dropWhile_append, if_neg (by simpa using left)]
  rw [meetsCased, meetsCased, whole, List.head?_append_of_ne_nil _ left]

theorem meetsCased_append_of_forall (all : ∀ c ∈ xs, isCaseIgnorable c = true) (ys : List Char) :
    meetsCased (xs ++ ys) = meetsCased ys := by
  rw [meetsCased, meetsCased, List.dropWhile_append_of_pos all]

theorem meetsCased_of_forall (all : ∀ c ∈ xs, isCaseIgnorable c = true) : meetsCased xs = false := by
  simpa [meetsCased] using meetsCased_append_of_forall all []

theorem exists_of_meetsCased (meets : meetsCased xs = true) : ∃ c ∈ xs, isCaseIgnorable c = false := by
  by_contra none
  have all : ∀ c ∈ xs, isCaseIgnorable c = true := by simpa using none
  exact absurd (meets.symm.trans (meetsCased_of_forall all)) (by simp)

/-- Nothing is seen beyond a sigma. -/
theorem meetsCased_sigma (xs ys : List Char) :
    meetsCased (xs ++ 'Σ' :: ys) = meetsCased (xs ++ ['Σ']) := by
  have stops : ∃ c ∈ xs ++ ['Σ'], isCaseIgnorable c = false :=
    ⟨'Σ', by simp, sigma_not_ignorable⟩
  simpa using meetsCased_append_of_exists stops ys

/-! ## Parts of a text -/

/-- The lower case of `cs` between other parts of a text, the nearest character of `before` first. -/
def lowercaseWithin (before : List Char) : List Char → List Char → List Char
  | [], _ => []
  | c :: rest, after => lowerIn before c (rest ++ after) ++ lowercaseWithin (c :: before) rest after

theorem lowercaseAfter_append (before cs rest : List Char) :
    lowercaseAfter before (cs ++ rest) =
      lowercaseWithin before cs rest ++ lowercaseAfter (cs.reverse ++ before) rest := by
  induction cs generalizing before with
  | nil => rfl
  | cons c more ih => simp [lowercaseAfter_cons, lowercaseWithin, ih]

theorem lowercaseWithin_nil (before cs : List Char) :
    lowercaseWithin before cs [] = lowercaseAfter before cs := by
  simpa [lowercaseAfter] using (lowercaseAfter_append before cs []).symm

theorem lowercaseWithin_append (before cs ds after : List Char) :
    lowercaseWithin before (cs ++ ds) after =
      lowercaseWithin before cs (ds ++ after) ++ lowercaseWithin (cs.reverse ++ before) ds after := by
  induction cs generalizing before with
  | nil => rfl
  | cons c more ih => simp [lowercaseWithin, ih]

/-- Only sigmas look around. -/
theorem lowercaseWithin_congr
    (same : ∀ l r, cs = l ++ 'Σ' :: r →
      isWordFinal (l.reverse ++ before) (r ++ after) = isWordFinal (l.reverse ++ other) (r ++ later)) :
    lowercaseWithin before cs after = lowercaseWithin other cs later := by
  induction cs generalizing before other with
  | nil => rfl
  | cons c rest ih =>
      have here : lowerIn before c (rest ++ after) = lowerIn other c (rest ++ later) := by
        by_cases sigma : c = 'Σ'
        · subst sigma
          have final : isWordFinal before (rest ++ after) = isWordFinal other (rest ++ later) :=
            same [] rest rfl
          rw [lowerIn_sigma, lowerIn_sigma, final]
        · rw [lowerIn_of_ne sigma, lowerIn_of_ne sigma]
      have behind : lowercaseWithin (c :: before) rest after = lowercaseWithin (c :: other) rest later := by
        apply ih
        rintro l r rfl
        simpa using same (c :: l) r rfl
      rw [lowercaseWithin, lowercaseWithin, here, behind]

theorem lowercaseWithin_of_not_mem (none : 'Σ' ∉ cs) (before after other later : List Char) :
    lowercaseWithin before cs after = lowercaseWithin other cs later := by
  apply lowercaseWithin_congr
  rintro l r rfl
  exact absurd none (by simp)

/-- A sigma divides a text into two parts that do not see each other. -/
theorem lowercaseWithin_sigma (before l r after : List Char) :
    lowercaseWithin before (l ++ 'Σ' :: r) after =
      lowercaseWithin before l ['Σ'] ++
        (if isWordFinal (l.reverse ++ before) (r ++ after) then 'ς' else 'σ') ::
          lowercaseWithin ['Σ'] r after := by
  have front : lowercaseWithin before l ('Σ' :: r ++ after) = lowercaseWithin before l ['Σ'] := by
    apply lowercaseWithin_congr
    intro first rest _
    have blocked := meetsCased_sigma rest (r ++ after)
    simp [isWordFinal, blocked]
  have back : lowercaseWithin ('Σ' :: (l.reverse ++ before)) r after =
      lowercaseWithin ['Σ'] r after := by
    apply lowercaseWithin_congr
    intro first rest _
    have blocked := meetsCased_sigma first.reverse (l.reverse ++ before)
    simp [isWordFinal, blocked]
  rw [lowercaseWithin_append, front, lowercaseWithin, back]
  simp [lowerIn]

/-! ## Sigmas at the ends -/

/-- Whether a text ends in a sigma that ends a word, so that it no longer does with a letter behind. -/
def closesOnSigma (cs : List Char) : Bool :=
  let back := cs.reverse.dropWhile isCaseIgnorable
  back.head? == some 'Σ' && meetsCased back.tail

/-- Whether a text begins with a sigma that no letter follows, so that it ends a word with a letter in
front. -/
def opensOnSigma (cs : List Char) : Bool :=
  let front := cs.dropWhile isCaseIgnorable
  front.head? == some 'Σ' && ! meetsCased front.tail

theorem dropWhile_eq_sigma_iff :
    cs.dropWhile isCaseIgnorable = 'Σ' :: after ↔
      ∃ before, cs = before ++ 'Σ' :: after ∧ ∀ c ∈ before, isCaseIgnorable c = true := by
  constructor
  · intro found
    refine ⟨cs.takeWhile isCaseIgnorable, ?_, fun c => List.mem_takeWhile_imp⟩
    rw [← found, List.takeWhile_append_dropWhile]
  · rintro ⟨before, rfl, ignorable⟩
    rw [List.dropWhile_append_of_pos ignorable]
    simp [sigma_not_ignorable]

theorem opensOnSigma_iff :
    opensOnSigma cs = true ↔
      ∃ before after, cs = before ++ 'Σ' :: after ∧ (∀ c ∈ before, isCaseIgnorable c = true) ∧
        meetsCased after = false := by
  constructor
  · intro opens
    rw [opensOnSigma, Bool.and_eq_true, beq_iff_eq, List.head?_eq_some_iff] at opens
    rcases opens with ⟨⟨after, found⟩, ends⟩
    rcases dropWhile_eq_sigma_iff.1 found with ⟨before, split, ignorable⟩
    exact ⟨before, after, split, ignorable, by simpa [found] using ends⟩
  · rintro ⟨before, after, split, ignorable, ends⟩
    have found := dropWhile_eq_sigma_iff.2 ⟨before, split, ignorable⟩
    simp [opensOnSigma, found, ends]

theorem closesOnSigma_iff :
    closesOnSigma cs = true ↔
      ∃ before after, cs = before ++ 'Σ' :: after ∧ (∀ c ∈ after, isCaseIgnorable c = true) ∧
        meetsCased before.reverse = true := by
  constructor
  · intro closes
    rw [closesOnSigma, Bool.and_eq_true, beq_iff_eq, List.head?_eq_some_iff] at closes
    rcases closes with ⟨⟨front, found⟩, leads⟩
    rcases dropWhile_eq_sigma_iff.1 found with ⟨back, split, ignorable⟩
    refine ⟨front.reverse, back.reverse, ?_, by simpa using ignorable, by simpa [found] using leads⟩
    simpa using congrArg List.reverse split
  · rintro ⟨before, after, rfl, ignorable, leads⟩
    have found : (before ++ 'Σ' :: after).reverse.dropWhile isCaseIgnorable = 'Σ' :: before.reverse :=
      dropWhile_eq_sigma_iff.2 ⟨after.reverse, by simp, by simpa using ignorable⟩
    rw [closesOnSigma, found]
    simp [leads]

/-- A full stop is ignorable and a blank is not. -/
example : closesOnSigma "ΟΔΟΣ.".toList = true ∧ closesOnSigma "ΟΔΟΣ. Α".toList = false := by
  decide +kernel

/-! ## Parts that keep their lower case -/

/-- What is behind a text does not matter unless a sigma ends it. -/
theorem lowercaseWithin_of_closed (closed : closesOnSigma cs = false) (after : List Char) :
    lowercaseWithin [] cs after = lowercase cs := by
  rw [lowercase, ← lowercaseWithin_nil]
  apply lowercaseWithin_congr
  intro l r split
  by_cases stopped : ∃ c ∈ r, isCaseIgnorable c = false
  · simp [isWordFinal, meetsCased_append_of_exists stopped]
  · have ignorable : ∀ c ∈ r, isCaseIgnorable c = true := by simpa using stopped
    have begins : meetsCased l.reverse = false := by
      by_contra leads
      have closes := closesOnSigma_iff.2 ⟨l, r, split, ignorable, by simpa using leads⟩
      exact absurd (closes.symm.trans closed) (by simp)
    simp [isWordFinal, begins]

/-- What is in front does not matter either unless a sigma begins it. -/
theorem lowercaseWithin_of_settled (closed : closesOnSigma cs = false) (opened : opensOnSigma cs = false)
    (before after : List Char) : lowercaseWithin before cs after = lowercase cs := by
  rw [← lowercaseWithin_of_closed closed after]
  apply lowercaseWithin_congr
  intro l r split
  by_cases stopped : ∃ c ∈ l.reverse, isCaseIgnorable c = false
  · simp [isWordFinal, meetsCased_append_of_exists stopped]
  · have ignorable : ∀ c ∈ l, isCaseIgnorable c = true := by simpa using stopped
    have goesOn : meetsCased r = true := by
      by_contra ends
      have opens := opensOnSigma_iff.2 ⟨l, r, split, ignorable, by simpa using ends⟩
      exact absurd (opens.symm.trans opened) (by simp)
    have goesOn : meetsCased (r ++ after) = true :=
      (meetsCased_append_of_exists (exists_of_meetsCased goesOn) after).trans goesOn
    simp [isWordFinal, goesOn]

theorem lowercase_isPrefix (closed : closesOnSigma cs = false) (rest : List Char) :
    lowercase cs <+: lowercase (cs ++ rest) := by
  rw [lowercase.eq_def (cs ++ rest), lowercaseAfter_append, lowercaseWithin_of_closed closed]
  exact List.prefix_append _ _

theorem lowercase_isInfix (closed : closesOnSigma cs = false) (opened : opensOnSigma cs = false)
    (within : cs <:+: xs) : lowercase cs <:+: lowercase xs := by
  rcases within with ⟨front, back, rfl⟩
  rw [lowercase.eq_def (front ++ cs ++ back), List.append_assoc, lowercaseAfter_append,
    lowercaseAfter_append, lowercaseWithin_of_settled closed opened]
  exact List.infix_append' _ _ _

/-! ## Parts that do not -/

/-- More of one letter cannot be within less of it. -/
theorem not_infix_of_count_lt {c : Char} (more : ys.count c < xs.count c) : ¬ xs <:+: ys := by
  intro within
  exact absurd (within.sublist.count_le c) (by omega)

theorem not_infix_of_closes (closes : closesOnSigma cs = true) :
    ¬ lowercase cs <:+: lowercase (cs ++ ['a']) := by
  rcases closesOnSigma_iff.1 closes with ⟨l, r, rfl, ignorable, leads⟩
  have none : 'Σ' ∉ r := fun there => absurd (ignorable _ there) (by simp [sigma_not_ignorable])
  have alone : lowercase (l ++ 'Σ' :: r) =
      lowercaseWithin [] l ['Σ'] ++ 'ς' :: lowercaseWithin ['Σ'] r [] := by
    rw [lowercase, ← lowercaseWithin_nil, lowercaseWithin_sigma]
    simp [isWordFinal, leads, meetsCased_of_forall ignorable]
  have cased : meetsCased (r ++ ['a']) = true := by
    rw [meetsCased_append_of_forall ignorable]
    decide +kernel
  have longer : lowercase (l ++ 'Σ' :: r ++ ['a']) =
      lowercaseWithin [] l ['Σ'] ++ 'σ' :: lowercaseWithin ['Σ'] r [] ++ ['a'] := by
    have last : ∀ front, lowercaseAfter front ['a'] = ['a'] := fun front => rfl
    rw [lowercase, lowercaseAfter_append, lowercaseWithin_sigma, last,
      lowercaseWithin_of_not_mem none _ _ ['Σ'] []]
    simp [isWordFinal, cased]
  apply not_infix_of_count_lt (c := 'ς')
  rw [alone, longer]
  simp

theorem not_infix_of_opens (opens : opensOnSigma cs = true) :
    ¬ lowercase cs <:+: lowercase ('a' :: cs) := by
  rcases opensOnSigma_iff.1 opens with ⟨l, r, rfl, ignorable, ends⟩
  have none : 'Σ' ∉ l := fun there => absurd (ignorable _ there) (by simp [sigma_not_ignorable])
  have alone : lowercase (l ++ 'Σ' :: r) =
      lowercaseWithin [] l ['Σ'] ++ 'σ' :: lowercaseWithin ['Σ'] r [] := by
    have begins : meetsCased l.reverse = false := meetsCased_of_forall (by simpa using ignorable)
    rw [lowercase, ← lowercaseWithin_nil, lowercaseWithin_sigma]
    simp [isWordFinal, begins]
  have cased : meetsCased (l.reverse ++ ['a']) = true := by
    rw [meetsCased_append_of_forall (by simpa using ignorable)]
    decide +kernel
  have longer : lowercase ('a' :: (l ++ 'Σ' :: r)) =
      'a' :: lowercaseWithin [] l ['Σ'] ++ 'ς' :: lowercaseWithin ['Σ'] r [] := by
    have first : ∀ rest, lowercase ('a' :: rest) = 'a' :: lowercaseAfter ['a'] rest := fun rest => rfl
    rw [first, ← lowercaseWithin_nil, lowercaseWithin_sigma,
      lowercaseWithin_of_not_mem none _ _ [] ['Σ']]
    simp [isWordFinal, cased, ends]
  apply not_infix_of_count_lt (c := 'σ')
  rw [alone, longer]
  simp

end Text
end EmojiPicker

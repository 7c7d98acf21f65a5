import EmojiPicker.Proofs.Text.Pieces
import Mathlib.Data.List.Basic
import Mathlib.Data.List.TakeWhile

/-!
# Blanks at the ends of a text

* `Text.Trimmed`, `Text.trim_eq_self`, `Text.trimmed_trim` — texts that trimming leaves alone;
* `Text.trimStart_append`, `Text.trimEnd_append`, `Text.trim_append_left`, `Text.trim_append_right`,
  `Text.trim_around` — texts in parts;
* `Text.upTo_append_blank` — blanks behind a pattern or without one;
* `Text.trim_stripOne` — lines with either line end.
-/

namespace EmojiPicker
namespace Text

/-! ## Trimmed texts -/

/-- No blank at either end. -/
structure Trimmed (cs : List Char) : Prop where
  head : ∀ c ∈ cs.head?, isBlank c = false
  last : ∀ c ∈ cs.getLast?, isBlank c = false

theorem trimmed_iff {cs : List Char} :
    (cs.head?.all (! isBlank ·) && cs.getLast?.all (! isBlank ·)) = true ↔ Trimmed cs := by
  rw [Bool.and_eq_true, Option.all_eq_true, Option.all_eq_true]
  constructor
  · rintro ⟨head, last⟩
    exact ⟨by simpa using head, by simpa using last⟩
  · rintro ⟨head, last⟩
    exact ⟨by simpa using head, by simpa using last⟩

instance (cs : List Char) : Decidable (Trimmed cs) :=
  decidable_of_iff _ trimmed_iff

theorem trimStart_eq_self {cs : List Char} (h : ∀ c ∈ cs.head?, isBlank c = false) :
    trimStart cs = cs := by
  cases cs with
  | nil => rfl
  | cons c rest => rw [trimStart_cons, h c rfl]; rfl

theorem trim_eq_self {cs : List Char} (h : Trimmed cs) : trim cs = cs := by
  have ends : ∀ c ∈ cs.reverse.head?, isBlank c = false := by
    intro c hc
    rw [List.head?_reverse] at hc
    exact h.last c hc
  rw [trim, trimEnd, trimStart_eq_self h.head, trimStart_eq_self ends, List.reverse_reverse]

/-- The form in which a text without blanks can be checked. -/
theorem whole_iff {cs : List Char} : cs.all (! isBlank ·) = true ↔ ∀ c ∈ cs, isBlank c = false := by
  rw [List.all_eq_true]
  simp

theorem trimmed_of_whole {cs : List Char} (whole : ∀ c ∈ cs, isBlank c = false) : Trimmed cs where
  head := fun c first => whole c (List.mem_of_mem_head? first)
  last := fun c last => whole c (List.mem_of_mem_getLast? last)

theorem head_trimStart (cs : List Char) : ∀ c ∈ (trimStart cs).head?, isBlank c = false := by
  intro c hc
  cases h : trimStart cs with
  | nil => simp [h] at hc
  | cons d rest =>
      obtain rfl : d = c := by simpa [h] using hc
      exact isBlank_head_trimStart d cs rest h

/-- What trimming at the end leaves begins as before. -/
theorem trimEnd_isPrefix (cs : List Char) : trimEnd cs <+: cs := by
  rw [trimEnd, ← List.reverse_suffix, List.reverse_reverse]
  exact List.dropWhile_suffix _

theorem mem_of_mem_trim {c : Char} {cs : List Char} (there : c ∈ trim cs) : c ∈ cs :=
  (List.dropWhile_sublist isBlank).subset ((trimEnd_isPrefix (trimStart cs)).subset there)

theorem trimmed_trim (cs : List Char) : Trimmed (trim cs) := by
  refine ⟨?_, ?_⟩
  · intro c hc
    -- Trimming the end cannot uncover a blank at the start.
    rcases trimEnd_isPrefix (trimStart cs) with ⟨rest, whole⟩
    refine head_trimStart cs c ?_
    rw [← whole]
    exact List.mem_head?_append_of_mem_head? hc
  · intro c hc
    rw [trim, trimEnd, List.getLast?_reverse] at hc
    exact head_trimStart _ c hc

/-! ## Parts of a text -/

section Parts

variable {xs ys : List Char}

/-- Blanks in front do not count. -/
theorem trimStart_append (blank : ∀ c ∈ xs, isBlank c = true) (ys : List Char) :
    trimStart (xs ++ ys) = trimStart ys :=
  List.dropWhile_append_of_pos blank

theorem trimStart_eq_nil (blank : ∀ c ∈ xs, isBlank c = true) : trimStart xs = [] := by
  simpa using trimStart_append blank []

theorem trimStart_ne_nil (seen : ∃ c ∈ xs, isBlank c = false) : trimStart xs ≠ [] := by
  rcases seen with ⟨c, member, visible⟩
  intro none
  have blank := List.dropWhile_eq_nil_iff.1 none c member
  rw [visible] at blank
  exact absurd blank (by decide)

/-- Blanks behind do not count either. -/
theorem trimEnd_append_blank (blank : ∀ c ∈ ys, isBlank c = true) (xs : List Char) :
    trimEnd (xs ++ ys) = trimEnd xs := by
  rw [trimEnd, trimEnd, List.reverse_append, trimStart_append (by simpa using blank)]

/-- What ends without a blank stays whole, whatever follows. -/
theorem trimEnd_append (ends : ∀ c ∈ xs.getLast?, isBlank c = false) (ys : List Char) :
    trimEnd (xs ++ ys) = xs ++ trimEnd ys := by
  have begins : trimStart xs.reverse = xs.reverse := trimStart_eq_self (by simpa using ends)
  rw [trimEnd, trimEnd, List.reverse_append, trimStart, List.dropWhile_append]
  split
  · next none =>
      have none : trimStart ys.reverse = [] := by simpa [trimStart] using none
      have begins : xs.reverse.dropWhile isBlank = xs.reverse := begins
      simp [begins, none]
  · simp [trimStart]

/-- A visible character keeps what is between it and the blanks at either end. -/
theorem trim_around {c : Char} (seen : isBlank c = false) (xs ys : List Char) :
    trim (xs ++ c :: ys) = trimStart xs ++ c :: trimEnd ys := by
  have front : trimStart (xs ++ c :: ys) = trimStart xs ++ c :: ys := by
    rw [trimStart, List.dropWhile_append]
    split
    · next none =>
        have none : trimStart xs = [] := by simpa [trimStart] using none
        rw [none, List.nil_append]
        exact trimStart_eq_self (by simpa using seen)
    · rfl
  have ends : ∀ d ∈ (trimStart xs ++ [c]).getLast?, isBlank d = false := by simpa using seen
  calc trim (xs ++ c :: ys) = trimEnd ((trimStart xs ++ [c]) ++ ys) := by
        rw [trim, front, List.append_assoc]
        rfl
    _ = trimStart xs ++ c :: trimEnd ys := by
        rw [trimEnd_append ends, List.append_assoc]
        rfl

theorem trimEnd_cons {c : Char} (seen : isBlank c = false) (cs : List Char) :
    trimEnd (c :: cs) = c :: trimEnd cs := by
  have ends : ∀ d ∈ [c].getLast?, isBlank d = false := by simpa using seen
  exact trimEnd_append ends cs

theorem trim_append_left (blank : ∀ c ∈ xs, isBlank c = true) (ys : List Char) :
    trim (xs ++ ys) = trim ys := by
  rw [trim, trim, trimStart_append blank]

theorem trim_append_right (blank : ∀ c ∈ ys, isBlank c = true) (xs : List Char) :
    trim (xs ++ ys) = trim xs := by
  have none : ys.dropWhile isBlank = [] := trimStart_eq_nil blank
  rw [trim, trim, trimStart, trimStart, List.dropWhile_append]
  split
  · next empty => rw [none, List.isEmpty_iff.1 empty]
  · exact trimEnd_append_blank blank _

theorem trim_trimStart (cs : List Char) : trim (trimStart cs) = trim cs := by
  rw [trim, trim, trimStart_trimStart]

/-- Trimming the end takes only blanks away. -/
theorem exists_trimEnd (cs : List Char) :
    ∃ ys, (∀ c ∈ ys, isBlank c = true) ∧ trimEnd cs ++ ys = cs := by
  refine ⟨(cs.reverse.takeWhile isBlank).reverse, ?_, ?_⟩
  · intro c member
    exact List.all_eq_true.1 List.all_takeWhile c (List.mem_reverse.1 member)
  · rw [trimEnd, trimStart, ← List.reverse_append, List.takeWhile_append_dropWhile,
      List.reverse_reverse]

theorem trim_trimEnd (cs : List Char) : trim (trimEnd cs) = trim cs := by
  rcases exists_trimEnd cs with ⟨ys, blank, whole⟩
  rw [← trim_append_right blank (trimEnd cs), whole]

theorem trim_trim (cs : List Char) : trim (trim cs) = trim cs :=
  trim_eq_self (trimmed_trim cs)

/-- What stands before a pattern without blanks does not depend on the blanks at the end of a text, apart from
these blanks. -/
theorem upTo_append_blank {pattern : List Char} (visible : ∀ c ∈ pattern, isBlank c = false)
    (blank : ∀ c ∈ ys, isBlank c = true) (xs : List Char) :
    ∃ zs, (∀ c ∈ zs, isBlank c = true) ∧ upTo pattern (xs ++ ys) = upTo pattern xs ++ zs := by
  induction xs with
  | nil => exact ⟨_, fun c there => blank c ((upTo_isPrefix pattern ys).subset there), rfl⟩
  | cons c rest ih =>
      -- The pattern cannot reach into the blanks.
      have inside : pattern <+: c :: rest ++ ys ↔ pattern <+: c :: rest := by
        refine ⟨?_, fun begins => begins.trans (List.prefix_append _ _)⟩
        intro begins
        rcases List.prefix_or_prefix_of_prefix begins (List.prefix_append _ ys) with short | ⟨behind, rfl⟩
        · exact short
        · rw [List.prefix_append_right_inj] at begins
          cases behind with
          | nil => simp
          | cons d more =>
              have seen := visible d (by simp)
              rw [blank d (begins.subset List.mem_cons_self)] at seen
              exact absurd seen (by decide)
      rcases ih with ⟨zs, ends, same⟩
      rw [List.cons_append] at inside
      rw [List.cons_append, upTo, upTo]
      by_cases begins : pattern <+: c :: rest
      · refine ⟨[], by simp, ?_⟩
        rw [if_pos (by simpa using inside.2 begins), if_pos (by simpa using begins)]
        rfl
      · refine ⟨zs, ends, ?_⟩
        rw [if_neg (by simpa using fun there => begins (inside.1 there)), if_neg (by simpa using begins),
          same]
        rfl

theorem space_blank : ∀ c ∈ [' '], isBlank c = true :=
  List.all_eq_true.1 (by decide)

theorem return_blank : ∀ c ∈ ['\r'], isBlank c = true :=
  List.all_eq_true.1 (by decide)

/-- A carriage return that belongs to a line end is a blank like others. -/
theorem trim_stripOne (xs : List Char) : trim (stripOne '\r' xs) = trim xs := by
  rw [stripOne]
  split
  · next ends =>
      have whole : xs.dropLast ++ ['\r'] = xs := List.dropLast_append_getLast? _ ends
      rw [← trim_append_right return_blank, whole]
  · rfl

end Parts

end Text
end EmojiPicker

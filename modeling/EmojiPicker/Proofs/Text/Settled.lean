import EmojiPicker.Locale
import EmojiPicker.Proofs.Text.Trimming

/-!
# Text in lower case stays as it is

* `bits` — a set of code points as one number, so that the tables of letters can be compared;
* `Settled` — a character that has no other lower case;
* `settled_of_mem_lowercase` — lower case consists of settled characters;
* `lowercase_eq_self` — and settled characters stay as they are;
* `Locale.normalize_normalize` — the normal form of a locale is its own normal form.

The lower case of a letter must not be a letter of the tables again. That is one fact on about
fifteen hundred letters, `letters_disjoint_lowers`, and all else follows from it.
-/

namespace EmojiPicker
namespace Text

/-! ## Sets of code points -/

/-- Numbers as the bits of one number. -/
def bits (ns : List Nat) : Nat :=
  ns.foldr (fun n mask => mask ||| 1 <<< n) 0

theorem testBit_bits {ns : List Nat} {n : Nat} (h : n ∈ ns) : (bits ns).testBit n = true := by
  induction ns with
  | nil =>
      simp at h
  | cons first rest ih =>
      rw [bits, List.foldr_cons, Nat.testBit_or]
      rcases List.mem_cons.1 h with rfl | later
      · simp [Nat.testBit_shiftLeft]
      · have : (bits rest).testBit n = true := ih later
        rw [bits] at this
        rw [this, Bool.true_or]

theorem not_mem_of_bits {xs ys : List Nat} (h : bits xs &&& bits ys = 0) {n : Nat} (hy : n ∈ ys) :
    n ∉ xs := by
  intro hx
  have both : (bits xs &&& bits ys).testBit n = true := by
    rw [Nat.testBit_and, testBit_bits hx, testBit_bits hy]
    rfl
  rw [h, Nat.zero_testBit] at both
  exact absurd both (by simp)

/-! ## The tables -/

namespace CaseRun

/-- The code points that a run lists. -/
def letters (run : CaseRun) : List Nat :=
  List.range' run.first ((run.last - run.first) / run.step + 1) run.step

/-- Their lower cases. -/
def lowers (run : CaseRun) : List Nat :=
  List.range' run.lower ((run.last - run.first) / run.step + 1) run.step

/-- A listed code point is so many steps from the first. -/
theorem steps_of_covers {run : CaseRun} {n : Nat} (h : run.covers n = true) :
    ∃ i, i < (run.last - run.first) / run.step + 1 ∧ n - run.first = run.step * i ∧ run.first ≤ n := by
  simp only [covers, Bool.and_eq_true, decide_eq_true_eq, beq_iff_eq] at h
  rcases h with ⟨⟨first, last⟩, steps⟩
  refine ⟨(n - run.first) / run.step, ?_, ?_, first⟩
  · exact Nat.lt_succ_of_le (Nat.div_le_div_right (Nat.sub_le_sub_right last _))
  · exact (Nat.mul_div_cancel' (Nat.dvd_of_mod_eq_zero steps)).symm

theorem mem_letters {run : CaseRun} {n : Nat} (h : run.covers n = true) : n ∈ run.letters := by
  rcases steps_of_covers h with ⟨i, lt, steps, first⟩
  -- As many steps from the first letter as the code point is.
  rw [letters, List.mem_range']
  exact ⟨i, lt, by omega⟩

theorem mem_lowers {run : CaseRun} {n : Nat} (h : run.covers n = true) :
    run.map n ∈ run.lowers := by
  rcases steps_of_covers h with ⟨i, lt, steps, _⟩
  rw [lowers, List.mem_range', map]
  exact ⟨i, lt, by omega⟩

end CaseRun

/-- All code points with a lower case of one character, and the one with two. -/
def letters : List Nat :=
  0x130 :: lowercaseRuns.flatMap CaseRun.letters

/-- All lower cases of one character. -/
def lowers : List Nat :=
  lowercaseRuns.flatMap CaseRun.lowers

theorem mem_letters {n : Nat} (h : lowercaseRuns.any (·.covers n) = true) : n ∈ letters := by
  rcases List.any_eq_true.1 h with ⟨run, member, covers⟩
  exact List.mem_cons_of_mem _ (List.mem_flatMap.2 ⟨run, member, CaseRun.mem_letters covers⟩)

theorem letters_disjoint_lowers : bits letters &&& bits lowers = 0 := by decide +kernel

/-- Lower cases are characters, and none is white space. -/
theorem lowers_not_blank :
    (lowers.all fun n => (Char.ofNat n).toNat == n && ! isBlank (Char.ofNat n)) = true := by
  decide +kernel

/-! ## Settled characters -/

/-- A character that is its own lower case, in every context. -/
def Settled (c : Char) : Prop :=
  c ≠ 'Σ' ∧ lowerLetter c = [c]

instance (c : Char) : Decidable (Settled c) :=
  inferInstanceAs (Decidable (_ ∧ _))

/-- The letters of ASCII, and what becomes of the other characters there. -/
theorem ascii_lower :
    ∀ n < 0x80, Settled (Char.ofNat n).toLower ∧
      (isBlank (Char.ofNat n) = false → isBlank (Char.ofNat n).toLower = false) ∧
      ((Char.ofNat n).toLower = Char.ofNat n ∨ lowercaseRuns.any (·.covers n) = true) := by
  decide +kernel

theorem settled_of_not_mem {c : Char} (h : c.toNat ∉ letters) : Settled c := by
  have sigma : 'Σ'.toNat ∈ letters := mem_letters (by decide +kernel)
  have dotted : 'İ'.toNat ∈ letters := List.mem_cons_self
  refine ⟨fun same => h (same ▸ sigma), ?_⟩
  rw [lowerLetter]
  split
  · -- In ASCII the lower case is computed, so that the tables have to agree with it.
    next ascii =>
      rcases (ascii_lower c.toNat ascii).2.2 with same | listed
      · rw [Char.ofNat_toNat] at same
        rw [same]
      · exact absurd (mem_letters listed) h
  · have undotted : ¬ (c == 'İ') = true := by
      intro same
      exact h (by simpa [eq_of_beq same] using dotted)
    have unlisted : lowercaseRuns.find? (·.covers c.toNat) = none := by
      rw [List.find?_eq_none]
      intro run member covers
      exact h (mem_letters (List.any_eq_true.2 ⟨run, member, covers⟩))
    rw [if_neg undotted, unlisted]

theorem settled_of_mem_lowers {n : Nat} (h : n ∈ lowers) :
    Settled (Char.ofNat n) ∧ isBlank (Char.ofNat n) = false := by
  have fact := List.all_eq_true.1 lowers_not_blank n h
  simp only [Bool.and_eq_true, beq_iff_eq, Bool.not_eq_true'] at fact
  -- A lower case is no letter of the tables, and so nothing becomes of it.
  refine ⟨settled_of_not_mem ?_, fact.2⟩
  rw [fact.1]
  exact not_mem_of_bits letters_disjoint_lowers h

/-- Where the lower case of a character comes from. -/
theorem mem_lowerLetter {c d : Char} (h : d ∈ lowerLetter c) :
    (c.toNat < 0x80 ∧ d = c.toLower) ∨ (d = 'i' ∨ d = '\u0307') ∨
      (∃ n ∈ lowers, d = Char.ofNat n) ∨ (d = c ∧ lowerLetter c = [c]) := by
  have lower := h
  rw [lowerLetter] at lower
  split at lower
  · next ascii => exact Or.inl ⟨ascii, by simpa using lower⟩
  · next wide =>
      split at lower
      · exact Or.inr (Or.inl (by simpa using lower))
      · next undotted =>
          cases found : lowercaseRuns.find? (·.covers c.toNat) with
          | none =>
              rw [found] at lower
              refine Or.inr (Or.inr (Or.inr ⟨by simpa using lower, ?_⟩))
              rw [lowerLetter, if_neg wide, if_neg undotted, found]
          | some run =>
              rw [found] at lower
              have member := List.mem_of_find?_eq_some found
              have covers : run.covers c.toNat = true := by
                simpa using List.find?_some found
              refine Or.inr (Or.inr (Or.inl ⟨run.map c.toNat, ?_, by simpa using lower⟩))
              exact List.mem_flatMap.2 ⟨run, member, CaseRun.mem_lowers covers⟩

theorem settled_of_mem_lowerLetter {c d : Char} (hc : c ≠ 'Σ') (h : d ∈ lowerLetter c) :
    Settled d := by
  rcases mem_lowerLetter h with ⟨ascii, rfl⟩ | (rfl | rfl) | ⟨n, member, rfl⟩ | ⟨rfl, same⟩
  · have := (ascii_lower c.toNat ascii).1
    rwa [Char.ofNat_toNat] at this
  · decide
  · decide +kernel
  · exact (settled_of_mem_lowers member).1
  · exact ⟨hc, same⟩

theorem isBlank_of_mem_lowerLetter {c d : Char} (hc : isBlank c = false) (h : d ∈ lowerLetter c) :
    isBlank d = false := by
  rcases mem_lowerLetter h with ⟨ascii, rfl⟩ | (rfl | rfl) | ⟨n, member, rfl⟩ | ⟨rfl, _⟩
  · have := (ascii_lower c.toNat ascii).2.1
    rw [Char.ofNat_toNat] at this
    exact this hc
  · decide
  · decide
  · exact (settled_of_mem_lowers member).2
  · exact hc

/-! ## Texts -/

/-- The lower case of a character in a context. -/
def lowerIn (before : List Char) (c : Char) (after : List Char) : List Char :=
  if c == 'Σ' then [if isWordFinal before after then 'ς' else 'σ'] else lowerLetter c

theorem lowercaseAfter_cons (before : List Char) (c : Char) (rest : List Char) :
    lowercaseAfter before (c :: rest) =
      lowerIn before c rest ++ lowercaseAfter (c :: before) rest := rfl

theorem lowerIn_sigma (before after : List Char) :
    lowerIn before 'Σ' after = [if isWordFinal before after then 'ς' else 'σ'] :=
  rfl

theorem lowerIn_of_ne {c : Char} (other : c ≠ 'Σ') (before after : List Char) :
    lowerIn before c after = lowerLetter c := by
  rw [lowerIn, if_neg (by simpa using other)]

theorem settled_of_mem_lowerIn {before after : List Char} {c d : Char}
    (h : d ∈ lowerIn before c after) : Settled d := by
  rw [lowerIn] at h
  split at h
  · -- Only sigma depends on its context, and both of its lower cases are settled.
    have either : d = 'ς' ∨ d = 'σ' := by
      rw [List.mem_singleton] at h
      split at h
      · exact Or.inl h
      · exact Or.inr h
    rcases either with rfl | rfl <;> decide +kernel
  · next hc => exact settled_of_mem_lowerLetter (by simpa using hc) h

theorem isBlank_of_mem_lowerIn {before after : List Char} {c d : Char} (hc : isBlank c = false)
    (h : d ∈ lowerIn before c after) : isBlank d = false := by
  rw [lowerIn] at h
  split at h
  · rw [List.mem_singleton] at h
    split at h <;> rw [h] <;> decide
  · exact isBlank_of_mem_lowerLetter hc h

theorem lowerIn_ne_nil (before : List Char) (c : Char) (after : List Char) :
    lowerIn before c after ≠ [] := by
  rw [lowerIn]
  split
  · simp
  · exact lowerLetter_ne_nil c

theorem settled_of_mem_lowercaseAfter {before cs : List Char} {d : Char}
    (h : d ∈ lowercaseAfter before cs) : Settled d := by
  induction cs generalizing before with
  | nil => simp [lowercaseAfter] at h
  | cons c rest ih =>
      rw [lowercaseAfter_cons, List.mem_append] at h
      rcases h with here | later
      · exact settled_of_mem_lowerIn here
      · exact ih later

theorem settled_of_mem_lowercase {cs : List Char} {d : Char} (h : d ∈ lowercase cs) : Settled d :=
  settled_of_mem_lowercaseAfter h

theorem lowercaseAfter_eq_self {before cs : List Char} (h : ∀ c ∈ cs, Settled c) :
    lowercaseAfter before cs = cs := by
  induction cs generalizing before with
  | nil => rfl
  | cons c rest ih =>
      have settled : Settled c := h c List.mem_cons_self
      have here : lowerIn before c rest = [c] := by
        rw [lowerIn_of_ne settled.1]
        exact settled.2
      rw [lowercaseAfter_cons, here, ih fun d hd => h d (List.mem_cons_of_mem c hd)]
      rfl

theorem lowercase_eq_self {cs : List Char} (h : ∀ c ∈ cs, Settled c) : lowercase cs = cs :=
  lowercaseAfter_eq_self h

/-! ## Blanks at the ends -/

theorem trimmed_lowercaseAfter {before cs : List Char} (h : Trimmed cs) :
    Trimmed (lowercaseAfter before cs) := by
  refine ⟨?_, ?_⟩
  · intro d hd
    cases cs with
    | nil => simp [lowercaseAfter] at hd
    | cons c rest =>
        rw [lowercaseAfter_cons, List.head?_append_of_ne_nil _ (lowerIn_ne_nil before c rest)] at hd
        exact isBlank_of_mem_lowerIn (h.head c rfl) (List.mem_of_mem_head? hd)
  · intro d hd
    -- The first character of a tail may be a blank, so the induction is on the last one alone.
    have last := h.last
    clear h
    induction cs generalizing before with
    | nil => simp [lowercaseAfter] at hd
    | cons c rest ih =>
        rw [lowercaseAfter_cons] at hd
        cases rest with
        | nil =>
            rw [lowercaseAfter, List.append_nil] at hd
            exact isBlank_of_mem_lowerIn (last c rfl) (List.mem_of_mem_getLast? hd)
        | cons e more =>
            have tail : lowercaseAfter (c :: before) (e :: more) ≠ [] := by
              rw [lowercaseAfter_cons]
              exact List.append_ne_nil_of_left_ne_nil (lowerIn_ne_nil _ _ _) _
            rw [List.getLast?_append_of_ne_nil _ tail] at hd
            exact ih hd fun x hx => last x (by rwa [List.getLast?_cons_cons])

theorem trimmed_map {f : Char → Char} {cs : List Char} (h : Trimmed cs)
    (keeps : ∀ c, isBlank c = false → isBlank (f c) = false) : Trimmed (cs.map f) := by
  refine ⟨?_, ?_⟩
  · intro d hd
    rw [List.head?_map, Option.mem_def, Option.map_eq_some_iff] at hd
    rcases hd with ⟨c, hc, rfl⟩
    exact keeps c (h.head c hc)
  · intro d hd
    rw [List.getLast?_map, Option.mem_def, Option.map_eq_some_iff] at hd
    rcases hd with ⟨c, hc, rfl⟩
    exact keeps c (h.last c hc)

end Text

/-! ## Locales -/

namespace Locale

theorem settled_underscore {c : Char} (h : Text.Settled c) : Text.Settled (underscore c) := by
  rw [underscore]
  split
  · decide
  · exact h

theorem isBlank_underscore (c : Char) (h : Text.isBlank c = false) :
    Text.isBlank (underscore c) = false := by
  rw [underscore]
  split
  · decide
  · exact h

theorem underscore_eq_self {c : Char} (other : c ≠ '-') : underscore c = c := by
  rw [underscore, if_neg (by simpa using other)]

theorem underscore_underscore (c : Char) : underscore (underscore c) = underscore c := by
  by_cases hyphen : c = '-'
  · rw [hyphen]
    decide
  · rw [underscore_eq_self hyphen, underscore_eq_self hyphen]

/-- A normal form is its own normal form, whatever the characters of the tag. -/
theorem normalize_normalize (tag : String) : normalize (normalize tag) = normalize tag := by
  have settled : ∀ c ∈ (normalize tag).toList, Text.Settled c := by
    intro c hc
    rw [normalize, String.toList_ofList, List.mem_map] at hc
    rcases hc with ⟨d, hd, rfl⟩
    exact settled_underscore (Text.settled_of_mem_lowercase hd)
  have trimmed : Text.Trimmed (normalize tag).toList := by
    rw [normalize, String.toList_ofList]
    exact Text.trimmed_map (Text.trimmed_lowercaseAfter (Text.trimmed_trim _)) isBlank_underscore
  have underscored : (normalize tag).toList.map underscore = (normalize tag).toList := by
    rw [normalize, String.toList_ofList, List.map_map]
    apply List.map_congr_left
    intro c _
    exact underscore_underscore c
  calc normalize (normalize tag)
      = String.ofList ((Text.lowercase (Text.trim (normalize tag).toList)).map underscore) := rfl
    _ = String.ofList (normalize tag).toList := by
        rw [Text.trim_eq_self trimmed, Text.lowercase_eq_self settled, underscored]
    _ = normalize tag := String.ofList_toList

end Locale
end EmojiPicker

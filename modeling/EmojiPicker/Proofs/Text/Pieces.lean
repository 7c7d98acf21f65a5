import EmojiPicker.Text.Pieces

/-!
# Pieces of a text from those of its parts

* `Text.pieces_whole`, `Text.pieces_append`, `Text.pieces_separated`, `Text.pieces_intercalate` — pieces between
  separators;
* `Text.intercalate_pieces`, `Text.intercalate_append` — pieces joined again;
* `Text.words_whole`, `Text.words_append`, `Text.head?_words` — words between blanks;
* `Text.lines_append`, `Text.lines_whole` — lines, one after the other;
* `Text.stripOne_append` — the last element of a list in two parts;
* `Text.splitOnce?_append`, `Text.splitOnce?_eq_none` — the parts around the first separator;
* `Text.upTo_whole`, `Text.upTo_append`, `Text.upTo_pattern` — the part before a pattern;
* `Text.Before`, `Text.before_upTo` — the part before anything that may begin somewhere.
-/

namespace EmojiPicker
namespace Text

/-! ## Pieces -/

section Pieces

variable {α : Type} {sep : α → Bool}

theorem pieces_whole {tail : List α} (whole : ∀ c ∈ tail, sep c = false) :
    pieces sep tail = [tail] := by
  induction tail with
  | nil => rfl
  | cons c rest ih =>
      have first : sep c = false := whole c (by simp)
      have cut := ih fun c member => whole c (List.mem_cons_of_mem _ member)
      simp [pieces, first, cut]

/-- A piece holds no separators. -/
theorem sep_of_mem_pieces {xs piece : List α} (member : piece ∈ pieces sep xs) :
    ∀ c ∈ piece, sep c = false := by
  induction xs generalizing piece with
  | nil =>
      rw [pieces, List.mem_singleton] at member
      simp [member]
  | cons x rest ih =>
      rw [pieces] at member
      cases separates : sep x with
      | true =>
          rw [separates, if_pos rfl] at member
          rcases List.mem_cons.1 member with rfl | later
          · simp
          · exact ih later
      | false =>
          rcases cut : pieces sep rest with _ | ⟨first, more⟩
          · exact absurd cut (pieces_ne_nil sep rest)
          · rw [cut] at ih
            simp only [separates, cut, Bool.false_eq_true, if_false] at member
            rcases List.mem_cons.1 member with rfl | later
            · intro c held
              rcases List.mem_cons.1 held with rfl | inside
              · exact separates
              · exact ih List.mem_cons_self c inside
            · exact ih (List.mem_cons_of_mem first later)

/-- A tail without separators belongs to the last piece. -/
theorem pieces_append {tail : List α} (whole : ∀ c ∈ tail, sep c = false) (xs : List α) :
    ∃ before last, pieces sep (xs ++ tail) = before ++ [last ++ tail] := by
  induction xs with
  | nil => exact ⟨[], [], pieces_whole whole⟩
  | cons c rest ih =>
      rcases ih with ⟨before, last, cut⟩
      rw [List.cons_append, pieces, cut]
      cases sep c with
      | true =>
          exact ⟨[] :: before, last, rfl⟩
      | false =>
          -- The character goes to the first piece, which may be the last one too.
          cases before with
          | nil => exact ⟨[], c :: last, rfl⟩
          | cons piece more => exact ⟨(c :: piece) :: more, last, rfl⟩

theorem pieces_separated {c : α} (separates : sep c = true) (xs ys : List α) :
    pieces sep (xs ++ c :: ys) = pieces sep xs ++ pieces sep ys := by
  induction xs with
  | nil => simp [pieces, separates]
  | cons x rest ih =>
      rw [List.cons_append, pieces, pieces, ih]
      cases sep x with
      | true => rfl
      | false =>
          rcases cut : pieces sep rest with _ | ⟨piece, more⟩
          · exact absurd cut (pieces_ne_nil sep rest)
          · rfl

/-- Joined by a separator, pieces come back. -/
theorem pieces_intercalate {c : α} (separates : sep c = true) {xss : List (List α)} (some : xss ≠ [])
    (whole : ∀ xs ∈ xss, ∀ x ∈ xs, sep x = false) : pieces sep ([c].intercalate xss) = xss := by
  induction xss with
  | nil => exact absurd rfl some
  | cons xs rest ih =>
      have first := pieces_whole (whole xs List.mem_cons_self)
      cases rest with
      | nil => rw [List.intercalate_singleton, first]
      | cons ys more =>
          have others := ih (List.cons_ne_nil ys more) fun zs member =>
            whole zs (List.mem_cons_of_mem xs member)
          rw [List.intercalate_cons_cons, List.append_assoc, List.singleton_append,
            pieces_separated separates, first, others, List.singleton_append]

/-- Joined by the separator, the pieces of a list are the list. -/
theorem intercalate_pieces [BEq α] [LawfulBEq α] (c : α) (xs : List α) :
    [c].intercalate (pieces (· == c) xs) = xs := by
  induction xs with
  | nil => rfl
  | cons x rest ih =>
      rw [pieces]
      rcases cut : pieces (· == c) rest with _ | ⟨piece, more⟩
      · exact absurd cut (pieces_ne_nil _ rest)
      · rw [cut] at ih
        cases separates : x == c with
        | true =>
            obtain rfl := eq_of_beq separates
            rw [if_pos rfl, List.intercalate_cons_cons, ih]
            rfl
        | false =>
            rw [if_neg (by simp)]
            cases more with
            | nil => simpa using ih
            | cons second others =>
                rw [List.intercalate_cons_cons] at ih ⊢
                simp only [List.cons_append, ih]

/-- Pieces in two parts are joined part by part. -/
theorem intercalate_append (c : α) {front back : List (List α)} (some : front ≠ [])
    (more : back ≠ []) :
    [c].intercalate (front ++ back) = [c].intercalate front ++ c :: [c].intercalate back := by
  induction front with
  | nil => exact absurd rfl some
  | cons xs rest ih =>
      cases rest with
      | nil =>
          cases back with
          | nil => exact absurd rfl more
          | cons ys others => simp [List.intercalate_cons_cons]
      | cons zs others =>
          have joined := ih (List.cons_ne_nil zs others)
          rw [List.cons_append, List.cons_append, List.intercalate_cons_cons,
            List.intercalate_cons_cons, ← List.cons_append, joined]
          simp

end Pieces

/-! ## Words -/

section Words

variable {word cs : List Char}

theorem words_whole (some : word ≠ []) (whole : ∀ c ∈ word, isBlank c = false) :
    words word = [word] := by
  rw [words, pieces_whole whole]
  simpa using some

theorem words_append (some : word ≠ []) (whole : ∀ c ∈ word, isBlank c = false) {c : Char}
    (blank : isBlank c = true) (cs : List Char) : words (word ++ c :: cs) = word :: words cs := by
  rw [words, pieces_separated blank, pieces_whole whole, List.singleton_append, List.filter_cons,
    if_pos (by simpa using some)]
  rfl

/-- The first word of a text that begins with one ends at the first blank. -/
theorem head?_words (nonempty : cs ≠ []) (begins : ∀ c ∈ cs.head?, isBlank c = false) :
    (words cs).head? = some (cs.takeWhile (! isBlank ·)) := by
  let word := cs.takeWhile (! isBlank ·)
  have whole : ∀ c ∈ word, isBlank c = false := by
    intro c member
    simpa using List.all_eq_true.1 List.all_takeWhile c member
  have first : word ≠ [] := by
    cases cs with
    | nil => exact absurd rfl nonempty
    | cons c rest => simp [word, begins c rfl]
  have divided : word ++ cs.dropWhile (! isBlank ·) = cs := List.takeWhile_append_dropWhile
  cases after : cs.dropWhile (! isBlank ·) with
  | nil =>
      rw [after, List.append_nil] at divided
      calc (words cs).head? = (words word).head? := by rw [divided]
        _ = some word := by rw [words_whole first whole]; rfl
  | cons c rest =>
      have blank : isBlank c = true := by
        have stops := List.head?_dropWhile_not (! isBlank ·) cs
        simpa [after] using stops
      rw [after] at divided
      calc (words cs).head? = (words (word ++ c :: rest)).head? := by rw [divided]
        _ = some word := by rw [words_append first whole blank]; rfl

end Words

/-! ## Lines -/

variable {line name value : List Char} {sep : Char}

theorem not_feed (flat : '\n' ∉ line) : ∀ c ∈ line, (c == '\n') = false := by
  intro c member
  have : c ≠ '\n' := fun same => flat (same ▸ member)
  simpa using this

/-- The first line of a text ends at its line feed. -/
theorem lines_append (flat : '\n' ∉ line) (rest : List Char) :
    lines (line ++ '\n' :: rest) = stripOne '\r' line :: lines rest := by
  have cut : pieces (· == '\n') (line ++ '\n' :: rest) = line :: pieces (· == '\n') rest := by
    have divided : pieces (· == '\n') (line ++ '\n' :: rest) =
        pieces (· == '\n') line ++ pieces (· == '\n') rest := by
      apply pieces_separated
      simp
    simpa [pieces_whole (not_feed flat)] using divided
  rw [lines, lines, cut]
  cases more : pieces (· == '\n') rest with
  | nil => exact absurd more (pieces_ne_nil _ rest)
  | cons first others => rfl

/-- A line without a line feed is the last one, unless it is empty. -/
theorem lines_whole (flat : '\n' ∉ line) : lines line = if line.isEmpty then [] else [line] := by
  rw [lines, pieces_whole (not_feed flat)]
  rfl

/-! ## Last elements -/

/-- The last element of a list in two parts is that of the second one, or it stands between them. -/
theorem stripOne_append {α : Type} [DecidableEq α] {x y : α} (other : y ≠ x) (xs ys : List α) :
    stripOne x (xs ++ y :: ys) = xs ++ y :: stripOne x ys := by
  cases ys with
  | nil => simp [stripOne, other]
  | cons z zs =>
      have last : (xs ++ y :: z :: zs).getLast? = (z :: zs).getLast? := by
        simp [List.getLast?_append, List.getLast?_cons]
      rw [stripOne, stripOne, last]
      split
      · rw [List.dropLast_append_of_ne_nil (by simp), List.dropLast_cons_of_ne_nil (by simp)]
      · rfl

theorem stripOne_eq_self {α : Type} [DecidableEq α] {x : α} {xs : List α} (h : xs.getLast? ≠ some x) :
    stripOne x xs = xs :=
  if_neg h

/-! ## Separators -/

theorem splitOnce?_append (whole : sep ∉ name) (value : List Char) :
    splitOnce? sep (name ++ sep :: value) = some (name, value) := by
  have before : ∀ c ∈ name, (c != sep) = true := by
    intro c member
    have : c ≠ sep := fun same => whole (same ▸ member)
    simpa using this
  have after : (name ++ sep :: value).dropWhile (· != sep) = sep :: value := by
    simp [List.dropWhile_append_of_pos before]
  have front : (name ++ sep :: value).takeWhile (· != sep) = name := by
    simp [List.takeWhile_append_of_pos before]
  rw [splitOnce?, after, front]

theorem splitOnce?_eq_none {cs : List Char} (absent : sep ∉ cs) : splitOnce? sep cs = none := by
  have before : ∀ c ∈ cs, (c != sep) = true := by
    intro c member
    have : c ≠ sep := fun same => absent (same ▸ member)
    simpa using this
  have none : cs.dropWhile (· != sep) = [] := by
    rw [← List.append_nil cs, List.dropWhile_append_of_pos before]
    rfl
  rw [splitOnce?, none]

/-! ## Patterns -/

section Patterns

variable {pattern xs : List Char}

theorem upTo_isPrefix (pattern xs : List Char) : upTo pattern xs <+: xs := by
  induction xs with
  | nil => exact List.prefix_refl []
  | cons c rest ih =>
      rw [upTo]
      split
      · exact List.nil_prefix
      · exact List.cons_prefix_cons.2 ⟨rfl, ih⟩

/-- A text without the pattern is passed whole. -/
theorem upTo_whole (absent : ¬ pattern <:+: xs) : upTo pattern xs = xs := by
  induction xs with
  | nil => rfl
  | cons c rest ih =>
      rw [List.infix_cons_iff, not_or] at absent
      rw [upTo, if_neg (by simpa using absent.1), ih absent.2]

/-- So is the front of a text, if the character behind it cannot belong to the pattern. -/
theorem upTo_append {x : Char} (foreign : x ∉ pattern) (absent : ¬ pattern <:+: xs)
    (ys : List Char) : upTo pattern (xs ++ x :: ys) = xs ++ x :: upTo pattern ys := by
  -- The pattern cannot begin in front of the character and end behind it.
  have inside : ∀ zs, pattern <+: zs ++ x :: ys → pattern <+: zs := by
    intro zs begins
    have front : zs ++ [x] <+: zs ++ x :: ys := by simp
    rcases List.prefix_or_prefix_of_prefix begins front with short | long
    · rcases List.prefix_concat_iff.1 short with same | inside
      · exact absurd (by simp [same]) foreign
      · exact inside
    · exact absurd (long.subset (by simp)) foreign
  induction xs with
  | nil =>
      have other : ¬ pattern <+: x :: ys := fun begins => absent (inside [] begins).isInfix
      rw [List.nil_append, upTo, if_neg (by simpa using other)]
      rfl
  | cons c rest ih =>
      have other : ¬ pattern <+: c :: (rest ++ x :: ys) := fun begins =>
        absent (inside (c :: rest) begins).isInfix
      have later : ¬ pattern <:+: rest := fun there => absent (List.infix_cons there)
      rw [List.cons_append, upTo, if_neg (by simpa using other), ih later]
      rfl

/-- A pattern with a last character that occurs nowhere before it is found where it stands. -/
theorem upTo_pattern {mark : Char} (once : mark ∉ pattern) (absent : mark ∉ xs) (ys : List Char) :
    upTo (pattern ++ [mark]) (xs ++ (pattern ++ mark :: ys)) = xs := by
  induction xs with
  | nil =>
      cases pattern with
      | nil => simp [upTo]
      | cons c rest =>
          change upTo _ (c :: (rest ++ mark :: ys)) = []
          rw [upTo, if_pos (by simp)]
  | cons c rest ih =>
      have other : ¬ pattern ++ [mark] <+: c :: (rest ++ (pattern ++ mark :: ys)) := by
        rintro ⟨more, same⟩
        -- Both sides are cut at the first mark.
        have outside : mark ∉ c :: (rest ++ pattern) := by
          rw [← List.cons_append, List.mem_append]
          exact not_or.2 ⟨absent, once⟩
        have here := splitOnce?_append once more
        have there := splitOnce?_append outside ys
        rw [List.append_assoc, List.singleton_append] at same
        rw [same, ← List.append_assoc, ← List.cons_append, there] at here
        have lengths := congrArg List.length (congrArg Prod.fst (Option.some.inj here))
        simp at lengths
        omega
      have later : mark ∉ rest := fun there => absent (List.mem_cons_of_mem c there)
      rw [List.cons_append, upTo, if_neg (by simpa using other), ih later]

end Patterns

/-! ## What stands in front -/

/-- The part of a text in front of the first place where something begins, or all of it if nothing does.
What begins there is seen from both sides of the place. -/
structure Before (begins : List Char → List Char → Prop) (xs front : List Char) : Prop where
  cut : ∃ behind, xs = front ++ behind ∧ (behind = [] ∨ begins front behind)
  first : ∀ earlier later, xs = earlier ++ later → earlier.length < front.length → ¬ begins earlier later

namespace Before

variable {begins other : List Char → List Char → Prop} {xs front part : List Char}

theorem length_le (one : Before begins xs front) (two : Before begins xs part) :
    part.length ≤ front.length := by
  apply Nat.le_of_not_lt
  intro longer
  obtain ⟨behind, split, none | here⟩ := one.cut
  · obtain ⟨rest, whole, _⟩ := two.cut
    have lengths := congrArg List.length (split.symm.trans whole)
    rw [none, List.length_append, List.length_append, List.length_nil] at lengths
    omega
  · exact two.first front behind split longer here

theorem unique (one : Before begins xs front) (two : Before begins xs part) : front = part := by
  obtain ⟨behind, split, _⟩ := one.cut
  obtain ⟨rest, whole, _⟩ := two.cut
  have lengths : front.length = part.length := Nat.le_antisymm (two.length_le one) (one.length_le two)
  exact (List.append_inj (split.symm.trans whole) lengths).1

/-- First the one thing is looked for, and then the other in what stands in front of it. That finds
whichever comes first, provided that the other is seen to begin without what the cut took away. -/
theorem either (one : Before begins xs part) (two : Before other part front)
    (near : ∀ l r s, r ≠ [] → (other l (r ++ s) ↔ other l r)) :
    Before (fun l r => begins l r ∨ other l r) xs front := by
  obtain ⟨behind, split, ends⟩ := one.cut
  obtain ⟨rest, inside, stops⟩ := two.cut
  refine ⟨⟨rest ++ behind, by rw [split, inside, List.append_assoc], ?_⟩, ?_⟩
  · by_cases none : rest = []
    · rw [none, List.append_nil] at inside
      rw [none, List.nil_append, ← inside]
      exact ends.imp_right Or.inl
    · exact Or.inr (Or.inr ((near front rest behind none).2 (stops.resolve_left none)))
  · intro earlier later whole short
    have lengths := congrArg List.length inside
    rw [List.length_append] at lengths
    rintro (here | here)
    · exact one.first earlier later whole (by omega) here
    · -- The place lies in the part, so that something of the part is left behind it.
      rw [split, inside, List.append_assoc] at whole
      obtain ⟨middle, rfl⟩ : earlier <+: front :=
        List.prefix_of_prefix_length_le (whole ▸ List.prefix_append earlier later)
          (List.prefix_append front _) (Nat.le_of_lt short)
      have left : middle ≠ [] := by
        rintro rfl
        simp at short
      rw [List.append_assoc, List.append_cancel_left_eq, ← List.append_assoc] at whole
      rw [← whole] at here
      refine two.first earlier (middle ++ rest) (by rw [inside, List.append_assoc]) short ?_
      exact (near earlier (middle ++ rest) behind (by simp [left])).1 here

end Before

theorem before_upTo (pattern xs : List Char) :
    Before (fun _ behind => pattern <+: behind) xs (upTo pattern xs) := by
  induction xs with
  | nil => exact ⟨⟨[], rfl, Or.inl rfl⟩, fun _ _ _ short => absurd short (Nat.not_lt_zero _)⟩
  | cons c rest ih =>
      rw [upTo]
      split
      · next begins =>
          refine ⟨⟨c :: rest, rfl, Or.inr (List.isPrefixOf_iff_prefix.1 begins)⟩, ?_⟩
          exact fun _ _ _ short => absurd short (Nat.not_lt_zero _)
      · next absent =>
          obtain ⟨behind, split, ends⟩ := ih.cut
          refine ⟨⟨behind, congrArg (c :: ·) split, ends⟩, ?_⟩
          intro earlier later whole short
          cases earlier with
          | nil =>
              obtain rfl : c :: rest = later := whole
              exact fun begins => absent (List.isPrefixOf_iff_prefix.2 begins)
          | cons d more =>
              have tail := (List.cons.inj whole).2
              exact ih.first more later tail (by simpa using short)

end Text
end EmojiPicker

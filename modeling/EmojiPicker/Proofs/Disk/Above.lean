import EmojiPicker.Proofs.Disk.Listing

/-!
# The directories above a path

* `Path.Heads` — one path is written as the beginning of another one, some names short of it;
* `Path.heads_of_mem_above`, `Path.pairwise_above` — the directories above a path are such beginnings,
  of the path and of each other;
* `Disk.LeadsTo.stands_of_heads` — a path that leads somewhere leads through a directory for each;
* `Disk.Passes` — the places on the way that a path describes.
-/

namespace EmojiPicker

namespace Path

/-! ## Beginnings -/

/-- The path `q` is written as the beginning of `p`, and `p` has names behind it. -/
structure Heads (q p : Path) : Prop where
  full : q.text.isEmpty = false
  text : ∃ back, p.text = q.text ++ back
  names : ∃ more, more ≠ [] ∧ p.names = q.names ++ more

theorem Heads.isAbsolute_eq {q p : Path} (heads : q.Heads p) : q.isAbsolute = p.isAbsolute := by
  rcases heads.text with ⟨back, text⟩
  rcases chars : q.text.toList with _ | ⟨c, rest⟩
  · rw [String.toList_eq_nil_iff] at chars
    exact absurd heads.full (by simp [chars])
  · simp [isAbsolute, text, chars]

theorem Heads.isPrefix {q p : Path} (heads : q.Heads p) : q.names <+: p.names := by
  rcases heads.names with ⟨more, _, names⟩
  exact ⟨more, names.symm⟩

/-! ## Pieces of a path -/

theorem toList_ofPieces (pieces : List (List Char)) :
    (ofPieces pieces).text.toList = ['/'].intercalate pieces := by
  have chars : pieces.map (String.toList ∘ String.ofList) = pieces := by simp [Function.comp_def]
  rw [ofPieces, String.toList_intercalate, List.map_map, chars]
  rfl

/-- A path is what its pieces make. -/
theorem ofPieces_pieces (p : Path) : ofPieces (Text.pieces (· == '/') p.text.toList) = p := by
  have text : (ofPieces (Text.pieces (· == '/') p.text.toList)).text = p.text := by
    rw [← String.toList_inj, toList_ofPieces]
    exact Text.intercalate_pieces '/' p.text.toList
  exact congrArg Path.mk text

theorem names_ofPieces {pieces : List (List Char)} (some : pieces ≠ [])
    (whole : ∀ piece ∈ pieces, '/' ∉ piece) : (ofPieces pieces).names = namesOf pieces := by
  have cut : Text.pieces (· == '/') (['/'].intercalate pieces) = pieces :=
    Text.pieces_intercalate (by rfl) some fun piece member => Text.no_slash (whole piece member)
  rw [names, toList_ofPieces, cut]
  rfl

/-- A path goes on behind some of its pieces if one of the others is a name. -/
theorem heads_ofPieces {front back : List (List Char)} (some : front ≠ [])
    (whole : ∀ piece ∈ front ++ back, '/' ∉ piece) (full : ['/'].intercalate front ≠ [])
    (named : namesOf back ≠ []) : (ofPieces front).Heads (ofPieces (front ++ back)) := by
  have rest : back ≠ [] := by
    rintro rfl
    exact named rfl
  refine ⟨?_, ⟨String.ofList ('/' :: ['/'].intercalate back), ?_⟩, namesOf back, named, ?_⟩
  · cases empty : (ofPieces front).text.isEmpty with
    | false => rfl
    | true =>
        rw [← toList_ofPieces, String.isEmpty_iff.1 empty] at full
        exact absurd rfl full
  · rw [← String.toList_inj, String.toList_append, String.toList_ofList, toList_ofPieces,
      toList_ofPieces, Text.intercalate_append '/' some rest]
  · have whole' : ∀ piece ∈ front, '/' ∉ piece := fun piece member =>
      whole piece (List.mem_append_left back member)
    rw [names_ofPieces (by simp [some]) whole, names_ofPieces some whole', namesOf_append]

/-! ## Directories above -/

section Above

variable {start piece : List Char} {before behind : List (List Char)}

theorem mem_ending {q : Path} (member : q ∈ ending start before) :
    q = top start ∨
      ∃ last rest, last :: rest <:+ before ∧ isStep last = true ∧
        q = ofPieces (start :: (last :: rest).reverse) := by
  induction before with
  | nil => exact Or.inl (List.mem_singleton.1 member)
  | cons piece before ih =>
      rw [ending] at member
      have later : q ∈ ending start before →
          q = top start ∨
            ∃ last rest, last :: rest <:+ piece :: before ∧ isStep last = true ∧
              q = ofPieces (start :: (last :: rest).reverse) := by
        intro member
        rcases ih member with same | ⟨last, rest, suffix, step, same⟩
        · exact Or.inl same
        · exact Or.inr ⟨last, rest, suffix.trans (List.suffix_cons piece before), step, same⟩
      split at member
      · next step =>
          rcases List.mem_cons.1 member with same | member
          · exact Or.inr ⟨piece, before, List.suffix_refl _, step, same⟩
          · exact later member
      · exact later member

theorem namesOf_ne_nil (step : isStep piece = true) (before behind : List (List Char)) :
    namesOf (before ++ piece :: behind) ≠ [] := by
  have present : piece.isEmpty = false := by
    cases empty : piece.isEmpty with
    | false => rfl
    | true => simp [isStep, empty] at step
  rw [namesOf_append]
  simp [namesOf, present]

/-- A path with a step in it goes on behind each of the directories that end in front of the
step. -/
theorem heads_of_mem_ending {q : Path} (member : q ∈ ending start before)
    (step : isStep piece = true)
    (whole : ∀ c ∈ start :: (before.reverse ++ piece :: behind), '/' ∉ c) :
    q.Heads (ofPieces (start :: (before.reverse ++ piece :: behind))) := by
  rcases mem_ending member with rfl | ⟨last, rest, ⟨between, suffix⟩, marked, rfl⟩
  · rw [top]
    split
    · next absolute =>
        -- The path begins with a slash, in front of which nothing stands.
        obtain rfl : start = [] := by simpa using absolute
        have more : before.reverse ++ piece :: behind ≠ [] := by simp
        have names := names_ofPieces (List.cons_ne_nil _ _) whole
        refine ⟨rfl, ⟨String.ofList (['/'].intercalate (before.reverse ++ piece :: behind)), ?_⟩,
          namesOf ([] :: (before.reverse ++ piece :: behind)), ?_, names⟩
        · have joined := Text.intercalate_append '/' (List.cons_ne_nil [] []) more
          have slash : "/".toList = ['/'] := rfl
          rw [← String.toList_inj, String.toList_append, slash, toList_ofPieces,
            String.toList_ofList]
          exact joined
        · exact namesOf_ne_nil step ([] :: before.reverse) behind
    · next relative =>
        have alone : (⟨String.ofList start⟩ : Path) = ofPieces [start] := by simp [ofPieces]
        rw [alone]
        refine heads_ofPieces (List.cons_ne_nil _ _) whole ?_ (namesOf_ne_nil step _ _)
        simpa using relative
  · -- What lies between the two stands behind the first one.
    have split : before.reverse = (last :: rest).reverse ++ between.reverse := by
      rw [← suffix, List.reverse_append]
    have pieces : start :: (before.reverse ++ piece :: behind) =
        (start :: (last :: rest).reverse) ++ (between.reverse ++ piece :: behind) := by
      rw [split, List.cons_append, List.append_assoc]
    rw [pieces] at whole ⊢
    refine heads_ofPieces (List.cons_ne_nil _ _) whole ?_ (namesOf_ne_nil step _ _)
    cases cut : (last :: rest).reverse with
    | nil => exact absurd cut (by simp)
    | cons second others => simp [List.intercalate_cons_cons]

theorem pairwise_ending (whole : ∀ c ∈ start :: before.reverse, '/' ∉ c) :
    (ending start before).Pairwise fun p q => q.Heads p := by
  induction before with
  | nil => exact List.pairwise_singleton _ _
  | cons piece before ih =>
      have whole' : ∀ c ∈ start :: before.reverse, '/' ∉ c := by
        intro c member
        refine whole c ?_
        rcases List.mem_cons.1 member with rfl | member
        · exact List.mem_cons_self
        · simp [List.mem_reverse.1 member]
      rw [ending]
      split
      · next step =>
          refine List.pairwise_cons.2 ⟨?_, ih whole'⟩
          intro q member
          rw [List.reverse_cons] at whole ⊢
          exact heads_of_mem_ending member step whole
      · exact ih whole'

end Above

theorem whole_pieces (p : Path) : ∀ piece ∈ Text.pieces (· == '/') p.text.toList, '/' ∉ piece := by
  intro piece member slash
  exact absurd (Text.sep_of_mem_pieces member '/' slash) (by decide)

/-- The pieces of a path with its last step shown, if there is a directory above it. -/
theorem above_cases (p : Path) :
    p.above = [] ∨ ∃ start before piece behind,
      Text.pieces (· == '/') p.text.toList = start :: (before.reverse ++ piece :: behind) ∧
        isStep piece = true ∧ p.above = ending start before := by
  rw [above]
  cases cut : Text.pieces (· == '/') p.text.toList with
  | nil => exact Or.inl rfl
  | cons start pieces =>
      cases steps : pieces.reverse.dropWhile (! isStep ·) with
      | nil => exact Or.inl (by simp only [steps])
      | cons piece before =>
          have first := List.head?_dropWhile_not (! isStep ·) pieces.reverse
          rw [steps] at first
          have step : isStep piece = true := by simpa using first
          have whole := List.takeWhile_append_dropWhile (p := (! isStep ·)) (l := pieces.reverse)
          rw [steps] at whole
          have back : pieces =
              before.reverse ++ piece :: (pieces.reverse.takeWhile (! isStep ·)).reverse := by
            calc pieces = pieces.reverse.reverse := (List.reverse_reverse pieces).symm
              _ = (pieces.reverse.takeWhile (! isStep ·) ++ piece :: before).reverse := by rw [whole]
              _ = before.reverse ++ piece :: (pieces.reverse.takeWhile (! isStep ·)).reverse := by simp
          refine Or.inr ⟨start, before, piece, _, congrArg (start :: ·) back, step, ?_⟩
          simp only [steps]

/-- A directory above a path is a beginning of it. -/
theorem heads_of_mem_above {p q : Path} (member : q ∈ p.above) : q.Heads p := by
  rcases p.above_cases with none | ⟨start, before, piece, behind, cut, step, above⟩
  · rw [none] at member
    exact absurd member (by simp)
  · have whole := p.whole_pieces
    rw [above] at member
    rw [cut] at whole
    rw [← p.ofPieces_pieces, cut]
    exact heads_of_mem_ending member step whole

/-- Of the directories above a path the farther ones are beginnings of the nearer ones. -/
theorem pairwise_above (p : Path) : p.above.Pairwise fun q r => r.Heads q := by
  rcases p.above_cases with none | ⟨start, before, piece, behind, cut, step, above⟩
  · rw [none]
    exact List.Pairwise.nil
  · have whole := p.whole_pieces
    rw [above]
    refine pairwise_ending ?_
    intro c member
    refine whole c ?_
    rw [cut, ← List.cons_append]
    exact List.mem_append_left _ member

end Path

namespace Disk

variable {d e : Disk} {p q : Path} {place : Place}

/-! ## The way that a path describes -/

theorem LeadsTo.stands_of_heads (leads : d.LeadsTo p place) (heads : q.Heads p) : d.Stands q := by
  rcases leadsTo_iff.1 leads with ⟨spelled, _, way⟩
  rcases heads.names with ⟨more, some, names⟩
  rcases heads.text with ⟨back, text⟩
  have usable : misspelling? ⟨q.text ++ back⟩ = none := by
    rw [← text]
    exact spelled
  have origin : d.origin p = d.origin q := by
    rw [Disk.origin, Disk.origin, heads.isAbsolute_eq]
  rw [names, origin] at way
  rcases Leads.append_iff.1 way with ⟨mid, first, second⟩
  refine ⟨mid, leadsTo_iff.2 ⟨misspelling?_front usable, heads.full, first⟩, ?_⟩
  -- The way goes on from there, and only a directory lets it.
  cases second with
  | done => exact absurd rfl some
  | step through _ _ => exact through

/-- Some first names of a path lead to a place, or all of them do. -/
def Passes (d : Disk) (p : Path) (place : Place) : Prop :=
  ∃ front, front <+: p.names ∧ d.Leads (d.origin p) front place

theorem LeadsTo.passes (leads : d.LeadsTo p place) : d.Passes p place :=
  ⟨p.names, List.prefix_refl _, (leadsTo_iff.1 leads).2.2⟩

theorem LeadsTo.passes_of_heads (leads : d.LeadsTo q place) (heads : q.Heads p) :
    d.Passes p place := by
  have origin : d.origin p = d.origin q := by
    rw [Disk.origin, Disk.origin, heads.isAbsolute_eq]
  refine ⟨q.names, heads.isPrefix, ?_⟩
  rw [origin]
  exact (leadsTo_iff.1 leads).2.2

theorem Passes.spared {own : String → Bool} (passes : d.Passes p place) (spares : Spares own d e) :
    e.Passes p place := by
  rcases passes with ⟨front, first, leads⟩
  refine ⟨front, first, ?_⟩
  rw [spares.origin p]
  exact leads.mono spares.directories

end Disk
end EmojiPicker

import EmojiPicker.Proofs.Disk.Listing

/-!
# Components of paths

How a path is made up when it is compared with another one: doubled slashes, a slash at its end and
`.` behind its start count for nothing.

* `Component`, `Path.components` — the parts of a path;
* `Path.components_child` — a relative path behind a directory adds the steps in it;
* `Path.LiesIn` — a path is another one with one entry more;
* `Path.components_eq_singleton_iff` — a path that is one entry alone.
-/

namespace EmojiPicker

inductive Component where
  /-- The top of the disk, which an absolute path starts with. -/
  | top
  /-- The directory that a relative path starts in, where it is written out. -/
  | here
  | up
  | entry (name : String)
  deriving DecidableEq, Repr

namespace Component

/-- A step behind the start of a path. -/
def ofStep (piece : List Char) : Component :=
  if piece == ['.', '.'] then .up else .entry (String.ofList piece)

def ofStart (start : List Char) : Component :=
  if start.isEmpty then .top else if start == ['.'] then .here else .ofStep start

theorem ofStart_of_isStep {start : List Char} (step : Path.isStep start = true) :
    ofStart start = .ofStep start := by
  rw [Path.isStep, Bool.not_eq_true', Bool.or_eq_false_iff] at step
  rw [ofStart, if_neg (by simp [step.1]), if_neg (by simp [step.2])]

/-- Only a step is an entry. -/
theorem isStep_of_ofStart {start : List Char} {name : String} (h : ofStart start = .entry name) :
    Path.isStep start = true := by
  rw [ofStart] at h
  split at h
  · exact absurd h (by simp)
  · next full =>
      split at h
      · exact absurd h (by simp)
      · next moves => simp_all [Path.isStep]

end Component

namespace Path

/-! ## Steps -/

/-- The steps among some pieces. -/
def stepsOf (pieces : List (List Char)) : List Component :=
  (pieces.filter isStep).map .ofStep

theorem stepsOf_append (front back : List (List Char)) :
    stepsOf (front ++ back) = stepsOf front ++ stepsOf back := by
  rw [stepsOf, List.filter_append, List.map_append]
  rfl

theorem stepsOf_cons {piece : List Char} (step : isStep piece = true) (rest : List (List Char)) :
    stepsOf (piece :: rest) = .ofStep piece :: stepsOf rest := by
  simp [stepsOf, step]

/-- The steps in a text. -/
def steps (text : String) : List Component :=
  stepsOf (Text.pieces (· == '/') text.toList)

theorem EntryName.isStep {name : String} (entry : EntryName name) : isStep name.toList = true := by
  have here : name.toList ≠ ['.'] := fun same => entry.here (String.toList_inj.1 same)
  simp [Path.isStep, entry.present, here]

theorem EntryName.ofStep {name : String} (entry : EntryName name) :
    Component.ofStep name.toList = .entry name := by
  have up : name.toList ≠ ['.', '.'] := fun same => entry.up (String.toList_inj.1 same)
  rw [Component.ofStep, if_neg (by simpa using up), String.ofList_toList]

/-- A name is one step. -/
theorem EntryName.steps {name : String} (entry : EntryName name) : steps name = [.entry name] := by
  rw [Path.steps, Text.pieces_whole (Text.no_slash entry.whole), stepsOf_cons entry.isStep,
    entry.ofStep]
  rfl

/-! ## Components -/

def components (p : Path) : List Component :=
  if p.text.isEmpty then []
  else
    match Text.pieces (· == '/') p.text.toList with
    | [] => []
    | start :: rest => .ofStart start :: stepsOf rest

theorem components_of_pieces {p : Path} (full : p.text.isEmpty = false) {start : List Char}
    {rest : List (List Char)} (cut : Text.pieces (· == '/') p.text.toList = start :: rest) :
    p.components = .ofStart start :: stepsOf rest := by
  rw [components, full, if_neg (by simp), cut]

theorem components_child {p : Path} (full : p.text.isEmpty = false) {name : String}
    (relative : (Path.mk name).isAbsolute = false) :
    (p.child name).components = p.components ++ steps name := by
  have below : (p.child name).text.isEmpty = false := by
    rcases p.child_text relative with ⟨slash, _, text⟩
    rw [text]
    simp_all
  rcases pieces_child full relative with ⟨front, some, same, all⟩
  cases front with
  | nil => exact absurd rfl some
  | cons start rest =>
      have first : p.components = .ofStart start :: stepsOf rest := by
        rcases same with cut | cut
        · exact components_of_pieces full cut
        · -- The slash at the end is no step.
          rw [List.cons_append] at cut
          calc p.components = .ofStart start :: stepsOf (rest ++ [[]]) :=
                components_of_pieces full cut
            _ = .ofStart start :: stepsOf rest := by rw [stepsOf_append]; simp [stepsOf, isStep]
      calc (p.child name).components
        _ = .ofStart start :: stepsOf (rest ++ Text.pieces (· == '/') name.toList) :=
          components_of_pieces below all
        _ = p.components ++ steps name := by rw [stepsOf_append, first, steps]; rfl

/-- The path `q` is `p` with one entry more. -/
def LiesIn (q p : Path) : Prop :=
  ∃ name, q.components = p.components ++ [.entry name]

theorem EntryName.liesIn {p : Path} {name : String} (entry : EntryName name)
    (full : p.text.isEmpty = false) : (p.child name).LiesIn p := by
  refine ⟨name, ?_⟩
  rw [components_child full entry.relative, entry.steps]

/-! ## Paths of one entry -/

/-- A path is one entry alone if it starts with an entry and nothing behind it is a step. -/
theorem components_eq_singleton_iff {p : Path} {name : String} :
    p.components = [.entry name] ↔
      ∃ start rest, Text.pieces (· == '/') p.text.toList = start :: rest ∧
        isStep start = true ∧ .ofStep start = Component.entry name ∧ stepsOf rest = [] := by
  constructor
  · intro single
    have full : p.text.isEmpty = false := by
      cases empty : p.text.isEmpty with
      | false => rfl
      | true => simp [components, empty] at single
    cases cut : Text.pieces (· == '/') p.text.toList with
    | nil => exact absurd cut (Text.pieces_ne_nil _ _)
    | cons start rest =>
        rw [components_of_pieces full cut] at single
        rcases List.cons.inj single with ⟨first, none⟩
        have step := Component.isStep_of_ofStart first
        rw [Component.ofStart_of_isStep step] at first
        exact ⟨start, rest, rfl, step, first, none⟩
  · rintro ⟨start, rest, cut, step, first, none⟩
    have full : p.text.isEmpty = false := by
      cases empty : p.text.isEmpty with
      | false => rfl
      | true =>
          rw [String.isEmpty_iff.1 empty] at cut
          obtain rfl : start = [] := (List.cons.inj cut).1.symm
          exact absurd step (by decide)
    rw [components_of_pieces full cut, Component.ofStart_of_isStep step, first, none]

theorem steps_of_components_singleton {name text : String}
    (single : (Path.mk text).components = [.entry name]) : steps text = [.entry name] := by
  rcases components_eq_singleton_iff.1 single with ⟨start, rest, cut, step, first, none⟩
  rw [steps, cut, stepsOf_cons step, first, none]

/-- A relative path that is one step, and does not go on behind a dot, is one entry. -/
theorem components_singleton_of_steps {tag name : String} (relative : (Path.mk tag).isAbsolute = false)
    (undotted : ¬ ['.', '/'] <+: tag.toList) (single : steps tag = [.entry name]) :
    (Path.mk tag).components = [.entry name] := by
  rw [steps] at single
  cases cut : Text.pieces (· == '/') tag.toList with
  | nil => exact absurd cut (Text.pieces_ne_nil _ _)
  | cons start rest =>
      rw [cut] at single
      cases step : isStep start with
      | true =>
          rw [stepsOf_cons step] at single
          rcases List.cons.inj single with ⟨first, none⟩
          exact components_eq_singleton_iff.2 ⟨start, rest, cut, step, first, none⟩
      | false =>
          -- What starts with no step goes on behind a slash.
          have joined := Text.intercalate_pieces '/' tag.toList
          rw [cut] at joined
          cases rest with
          | nil => simp [stepsOf, step] at single
          | cons second others =>
              rw [List.intercalate_cons_cons] at joined
              simp only [isStep, Bool.not_eq_false', Bool.or_eq_true, List.isEmpty_iff,
                beq_iff_eq] at step
              rcases step with rfl | rfl
              · simp [isAbsolute, ← joined] at relative
              · exact absurd ⟨_, joined⟩ undotted

/-- One that starts with an entry is relative. -/
theorem relative_of_components_singleton {name text : String}
    (single : (Path.mk text).components = [.entry name]) : (Path.mk text).isAbsolute = false := by
  rcases components_eq_singleton_iff.1 single with ⟨start, rest, cut, step, _, _⟩
  cases absolute : (Path.mk text).isAbsolute with
  | false => rfl
  | true =>
      rw [isAbsolute, beq_iff_eq, List.head?_eq_some_iff] at absolute
      rcases absolute with ⟨later, chars⟩
      rw [chars, Text.pieces, if_pos (by rfl)] at cut
      obtain rfl : start = [] := (List.cons.inj cut).1.symm
      exact absurd step (by decide)

/-- Nor does it go up anywhere. -/
theorem level_of_components_singleton {p : Path} {name : String}
    (single : p.components = [.entry name]) : ".." ∉ p.names := by
  rcases components_eq_singleton_iff.1 single with ⟨start, rest, cut, step, first, none⟩
  intro up
  rw [names, cut] at up
  rcases List.mem_map.1 up with ⟨piece, kept, same⟩
  have dots : piece = ['.', '.'] := by
    rw [← String.toList_ofList (l := piece), same]
    rfl
  rcases List.mem_cons.1 (List.mem_filter.1 kept).1 with rfl | later
  · rw [dots] at first
    simp [Component.ofStep] at first
  · have among : Component.up ∈ stepsOf rest :=
      List.mem_map.2 ⟨piece, List.mem_filter.2 ⟨later, by rw [dots]; rfl⟩, by rw [dots]; rfl⟩
    rw [none] at among
    exact absurd among (by simp)

/-- Behind any directory a path of one entry is that entry of it. -/
theorem components_child_of_singleton (p : Path) {name text : String}
    (single : (Path.mk text).components = [.entry name]) :
    (p.child text).components = p.components ++ [.entry name] := by
  have relative := relative_of_components_singleton single
  cases full : p.text.isEmpty with
  | true =>
      have alone : p.child text = ⟨text⟩ := by rw [child, join, relative, full]; rfl
      have empty : p.components = [] := by rw [components, full]; rfl
      rw [alone, empty, single]
      rfl
  | false => rw [components_child full relative, steps_of_components_singleton single]

/-- Conversely, where the path is relative and does not go on behind a dot. -/
theorem components_singleton_of_child {p : Path} {name text : String}
    (relative : (Path.mk text).isAbsolute = false) (undotted : ¬ ['.', '/'] <+: text.toList)
    (child : (p.child text).components = p.components ++ [.entry name]) :
    (Path.mk text).components = [.entry name] := by
  cases full : p.text.isEmpty with
  | true =>
      have alone : p.child text = ⟨text⟩ := by rw [Path.child, join, relative, full]; rfl
      have empty : p.components = [] := by rw [components, full]; rfl
      rw [← alone, child, empty]
      rfl
  | false =>
      rw [components_child full relative, List.append_cancel_left_eq] at child
      exact components_singleton_of_steps relative undotted child

theorem full_of_components {p : Path} (some : p.components ≠ []) : p.text.isEmpty = false := by
  cases full : p.text.isEmpty with
  | false => rfl
  | true => exact absurd (by rw [components, full]; rfl) some

theorem LiesIn.full {p q : Path} (inside : q.LiesIn p) : q.text.isEmpty = false := by
  rcases inside with ⟨name, components⟩
  exact full_of_components (by simp [components])

end Path
end EmojiPicker

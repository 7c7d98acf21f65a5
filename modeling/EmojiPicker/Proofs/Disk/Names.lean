import EmojiPicker.Disk.Path
import EmojiPicker.Proofs.Text.Pieces

/-!
# Names of paths

* `Path.EndsIn` — a path that names an entry;
* `Path.endsIn_child` — an entry of a directory by the end of its name;
* `Path.pieces_child`, `Path.names_child` — all pieces and all names of a path behind a directory.
-/

namespace EmojiPicker

namespace Text

theorem no_slash {text : List Char} (whole : '/' ∉ text) : ∀ c ∈ text, (c == '/') = false := by
  intro c member
  have : c ≠ '/' := fun same => whole (same ▸ member)
  simpa using this

end Text

namespace Path

/-- The last name of a path is the name of an entry, and no step up or nowhere. -/
structure EndsIn (p : Path) (name : String) : Prop where
  last : p.names.getLast? = some name
  here : name ≠ "."
  up : name ≠ ".."

theorem names_whole {p : Path} {name : String} (member : name ∈ p.names) : '/' ∉ name.toList := by
  rcases List.mem_map.1 member with ⟨piece, kept, rfl⟩
  rw [String.toList_ofList]
  intro slash
  have sep := Text.sep_of_mem_pieces (List.mem_filter.1 kept).1 '/' slash
  exact absurd sep (by decide)

theorem EndsIn.nonempty {p : Path} {name : String} (ends : p.EndsIn name) :
    p.text.isEmpty = false := by
  cases empty : p.text.isEmpty with
  | false => rfl
  | true =>
      have none : p.names = [] := by
        rw [names, String.isEmpty_iff.1 empty]
        rfl
      have last := ends.last
      rw [none] at last
      exact absurd last (by simp)

/-- A path whose text ends in a part of a name names an entry whose name ends in it. -/
theorem endsIn_of_text {p : Path} {front tail : List Char} (text : p.text.toList = front ++ tail)
    (whole : '/' ∉ tail) (long : 2 < tail.length) : ∃ name, p.EndsIn name ∧ tail <:+ name.toList := by
  rcases Text.pieces_append (Text.no_slash whole) front with ⟨before, last, cut⟩
  have kept : ((last ++ tail).isEmpty) = false := by
    cases tail with
    | nil => exact absurd long (by simp)
    | cons c rest => simp
  -- The last piece is too long to be a step.
  have short : ∀ name : String, name.toList.length ≤ 2 → String.ofList (last ++ tail) ≠ name := by
    intro name fits same
    have : (last ++ tail).length = name.toList.length := by
      rw [← same, String.toList_ofList]
    simp only [List.length_append] at this
    omega
  refine ⟨String.ofList (last ++ tail), ⟨?_, short "." (by decide), short ".." (by decide)⟩, ?_⟩
  · rw [names, text, cut]
    simp [kept]
  · rw [String.toList_ofList]
    exact List.suffix_append last tail

theorem join_text (p q : Path) : ∃ front, (p.join q).text.toList = front ++ q.text.toList := by
  rw [join]
  split
  · exact ⟨[], rfl⟩
  · split
    · exact ⟨p.text.toList, by simp⟩
    · exact ⟨p.text.toList ++ ['/'], by simp⟩

/-- An entry of a directory is named by the end of what it is asked for by. -/
theorem endsIn_child (p : Path) {name : String} {front tail : List Char}
    (named : name.toList = front ++ tail) (whole : '/' ∉ tail) (long : 2 < tail.length) :
    ∃ last, (p.child name).EndsIn last ∧ tail <:+ last.toList := by
  rcases p.join_text ⟨name⟩ with ⟨outer, text⟩
  have split : (p.child name).text.toList = (outer ++ front) ++ tail := by
    rw [child, text, List.append_assoc]
    exact congrArg (outer ++ ·) named
  exact endsIn_of_text split whole long

/-! ## Pieces of a path -/

/-- The names among some pieces. -/
def namesOf (pieces : List (List Char)) : List String :=
  (pieces.filter (! ·.isEmpty)).map String.ofList

theorem namesOf_append (front back : List (List Char)) :
    namesOf (front ++ back) = namesOf front ++ namesOf back := by
  rw [namesOf, List.filter_append, List.map_append]
  rfl

theorem relative_of_whole {name : String} (whole : '/' ∉ name.toList) :
    (Path.mk name).isAbsolute = false := by
  rcases chars : name.toList with _ | ⟨c, rest⟩
  · simp [isAbsolute, chars]
  · have : c ≠ '/' := fun same => whole (by simp [chars, same])
    simpa [isAbsolute, chars] using this

theorem names_of_whole {name : String} (whole : '/' ∉ name.toList) (present : name.toList ≠ []) :
    (Path.mk name).names = [name] := by
  rw [names, Text.pieces_whole (Text.no_slash whole)]
  simp [present]

/-- A relative path behind a directory adds its pieces. The empty piece behind a slash at the end of
the directory gives way to them. -/
theorem pieces_child {p : Path} (present : p.text.isEmpty = false) {name : String}
    (relative : (Path.mk name).isAbsolute = false) :
    ∃ front, front ≠ [] ∧ (Text.pieces (· == '/') p.text.toList = front ∨
        Text.pieces (· == '/') p.text.toList = front ++ [[]]) ∧
      Text.pieces (· == '/') (p.child name).text.toList =
        front ++ Text.pieces (· == '/') name.toList := by
  rw [child, join, relative, present]
  simp only [Bool.or_self, Bool.false_eq_true, if_false]
  split
  · next slash =>
      -- The slash at the end of the directory is the one in between.
      have last : p.text.toList.getLast? = some '/' := by simpa [endsInSlash] using slash
      rcases List.getLast?_eq_some_iff.1 last with ⟨front, text⟩
      refine ⟨Text.pieces (· == '/') front, Text.pieces_ne_nil _ _, Or.inr ?_, ?_⟩
      · rw [text, Text.pieces_separated (by rfl)]
        rfl
      · have below : (p.text ++ name).toList = front ++ '/' :: name.toList := by simp [text]
        rw [below, Text.pieces_separated (by rfl)]
  · have below : (p.text ++ "/" ++ name).toList = p.text.toList ++ '/' :: name.toList := by simp
    refine ⟨_, Text.pieces_ne_nil _ _, Or.inl rfl, ?_⟩
    rw [below, Text.pieces_separated (by rfl)]

/-- A relative path behind a directory has the names of both, and starts where the directory does. -/
theorem names_child (p : Path) {name : String} (relative : (Path.mk name).isAbsolute = false) :
    (p.child name).names = p.names ++ (Path.mk name).names ∧
      (p.child name).isAbsolute = p.isAbsolute := by
  cases present : p.text.isEmpty with
  | true =>
      have alone : p.child name = ⟨name⟩ := by rw [child, join, relative, present]; rfl
      have empty : p = ⟨""⟩ := congrArg Path.mk (String.isEmpty_iff.1 present)
      rw [alone, relative, empty]
      exact ⟨rfl, rfl⟩
  | false =>
      constructor
      · have cut : namesOf (Text.pieces (· == '/') (p.child name).text.toList) =
            namesOf (Text.pieces (· == '/') p.text.toList) ++ (Path.mk name).names := by
          rcases pieces_child present relative with ⟨front, _, cut | cut, all⟩
          · rw [all, cut, namesOf_append]
            rfl
          · have gap : namesOf (front ++ [[]]) = namesOf front := by simp [namesOf]
            rw [all, cut, namesOf_append, gap]
            rfl
        exact cut
      · have head : ∀ back : String, (p.text ++ back).toList.head? = p.text.toList.head? := by
          intro back
          rcases chars : p.text.toList with _ | ⟨c, rest⟩
          · rw [String.toList_eq_nil_iff.1 chars] at present
            exact absurd present (by simp)
          · simp [chars]
        rw [child, join, relative, present]
        simp only [Bool.or_self, Bool.false_eq_true, if_false]
        split
        · exact congrArg (· == some '/') (head name)
        · rw [isAbsolute, String.append_assoc]
          exact congrArg (· == some '/') (head _)

/-- Only the top of the disk is named without names. -/
theorem names_ne_nil {p : Path} (present : p.text.isEmpty = false) (relative : p.isAbsolute = false) :
    p.names ≠ [] := by
  rcases chars : p.text.toList with _ | ⟨c, rest⟩
  · rw [String.toList_eq_nil_iff.1 chars] at present
    exact absurd present (by simp)
  · have : (c == '/') = false := by simpa [isAbsolute, chars] using relative
    rcases cut : Text.pieces (· == '/') rest with _ | ⟨piece, more⟩
    · exact absurd cut (Text.pieces_ne_nil _ rest)
    · simp [names, chars, Text.pieces, cut, this]

end Path
end EmojiPicker

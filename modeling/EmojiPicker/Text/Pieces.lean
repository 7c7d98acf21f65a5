import EmojiPicker.Text.Blank

/-!
# Cutting text into pieces

* `pieces` — the stretches between separators, empty ones included;
* `words` — the stretches between blanks, empty ones left out;
* `lines`, `byteLines` — the lines of a text and of bytes, with either line end;
* `splitOnce?` — the parts before and after the first separator;
* `upTo` — the part before the first occurrence of a pattern;
* `contains` — whether a pattern occurs;
* `stripOne` — a list without one given last element.
-/

namespace EmojiPicker
namespace Text

variable {α : Type}

/-- The stretches of a list between the elements that satisfy `sep`: one more than there are
separators, so never none. -/
def pieces (sep : α → Bool) : List α → List (List α)
  | [] => [[]]
  | c :: rest =>
      if sep c then
        [] :: pieces sep rest
      else
        match pieces sep rest with
        | [] => [[c]]
        | piece :: more => (c :: piece) :: more

def words (cs : List Char) : List (List Char) :=
  (pieces isBlank cs).filter (! ·.isEmpty)

/-- The list without its last element, if that is `x`. -/
def stripOne [DecidableEq α] (x : α) (xs : List α) : List α :=
  if xs.getLast? = some x then xs.dropLast else xs

/-- Pieces between line feeds as lines: one carriage return before a line feed belongs to the line
end, and what ends in a line feed has no empty line after it. -/
def linesOfPieces [DecidableEq α] (carriageReturn : α) : List (List α) → List (List α)
  | [] => []
  | [last] => if last.isEmpty then [] else [last]
  | piece :: more => stripOne carriageReturn piece :: linesOfPieces carriageReturn more

def lines (cs : List Char) : List (List Char) :=
  linesOfPieces '\r' (pieces (· == '\n') cs)

def byteLines (bytes : List UInt8) : List (List UInt8) :=
  linesOfPieces 0x0D (pieces (· == 0x0A) bytes)

def splitOnce? (sep : Char) (cs : List Char) : Option (List Char × List Char) :=
  match cs.dropWhile (· != sep) with
  | [] => none
  | _ :: after => some (cs.takeWhile (· != sep), after)

/-- The part of a text before the first occurrence of `pattern`; all of it if there is none. -/
def upTo (pattern : List Char) : List Char → List Char
  | [] => []
  | c :: rest => if pattern.isPrefixOf (c :: rest) then [] else c :: upTo pattern rest

def contains (pattern : List Char) : List Char → Bool
  | [] => pattern.isEmpty
  | c :: rest => pattern.isPrefixOf (c :: rest) || contains pattern rest

/-! ## Laws -/

theorem pieces_ne_nil (sep : α → Bool) (cs : List α) : pieces sep cs ≠ [] := by
  cases cs with
  | nil => simp [pieces]
  | cons c rest =>
      rw [pieces]
      split
      · simp
      · split <;> simp

theorem contains_iff (pattern cs : List Char) : contains pattern cs = true ↔ pattern <:+: cs := by
  induction cs with
  | nil => simp [contains]
  | cons c rest ih => simp [contains, ih, List.infix_cons_iff, List.isPrefixOf_iff_prefix]

end Text
end EmojiPicker

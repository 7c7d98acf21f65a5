import EmojiPicker.Text.Pieces

/-!
# Paths

A path is kept as it was written; only the disk gives its parts a meaning.

* `Path.join` — a path below another one, by their texts;
* `Path.names` — the names between the slashes, `.` and `..` among them;
* `Path.above` — the directories above a path, nearest first.
-/

namespace EmojiPicker

structure Path where
  text : String
  deriving DecidableEq, Repr, Inhabited

namespace Path

def isAbsolute (p : Path) : Bool :=
  p.text.toList.head? == some '/'

def endsInSlash (p : Path) : Bool :=
  p.text.toList.getLast? == some '/'

/-- The path `q` as seen from the directory `p`. An absolute `q` stands alone, and an empty `p` adds
nothing. -/
def join (p q : Path) : Path :=
  if q.isAbsolute || p.text.isEmpty then
    q
  else if p.endsInSlash then
    ⟨p.text ++ q.text⟩
  else
    ⟨p.text ++ "/" ++ q.text⟩

def child (p : Path) (name : String) : Path :=
  p.join ⟨name⟩

def names (p : Path) : List String :=
  ((Text.pieces (· == '/') p.text.toList).filter (! ·.isEmpty)).map String.ofList

/-! ## Directories above a path

The directory above a path is the text in front of its last step. A path is cut at its slashes for
that: the piece in front of the first slash is where the path starts, and it is empty when that is
the top of the disk. Behind the start an empty piece and `.` are no steps. They are left out where
they would stand last, and stay as they are anywhere else.
-/

/-- Whether a piece behind the start of a path is a step. -/
def isStep (piece : List Char) : Bool :=
  ! (piece.isEmpty || piece == ['.'])

def ofPieces (pieces : List (List Char)) : Path :=
  ⟨"/".intercalate (pieces.map String.ofList)⟩

/-- The start of a path, as a directory above it. What every relative path starts in is no
directory above one. -/
def top (start : List Char) : Path :=
  if start.isEmpty then ⟨"/"⟩ else ⟨String.ofList start⟩

/-- The paths that end in one of the steps behind a start, and the start itself. The last piece
comes first. -/
def ending (start : List Char) : List (List Char) → List Path
  | [] => [top start]
  | piece :: before =>
      if isStep piece then
        ofPieces (start :: (piece :: before).reverse) :: ending start before
      else
        ending start before

/-- The directories above a path, nearest first. -/
def above (p : Path) : List Path :=
  match Text.pieces (· == '/') p.text.toList with
  | [] => []
  | start :: pieces =>
      -- The last step goes, with all that is no step behind it.
      match pieces.reverse.dropWhile (! isStep ·) with
      | [] => []
      | _ :: before => ending start before

end Path
end EmojiPicker

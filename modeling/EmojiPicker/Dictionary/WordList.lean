import EmojiPicker.Text.Pieces

/-!
# Word lists

The line format of dictionaries. Each line is a list of attributes; its first attribute says what
the line is.

* `WordEntry` — a word with its shortcuts;
* `WordList.attributes` — the attributes of a line;
* `WordList.Line`, `WordList.Line.ofText` — what a line is;
* `WordList.LineFault` — what can be wrong with a line;
* `WordList.parse` — the entries of a text, or the number and the fault of its first bad line.

    dictionary=emoji_en,locale=en,version=1
     word=😀,f=200
      shortcut=grinning face,f=whitelist
-/

namespace EmojiPicker

structure WordEntry where
  word : String
  /-- What the word is a shortcut for, in file order; the first one describes it. -/
  shortcuts : List String
  deriving DecidableEq, Repr

namespace WordList

/-! ## Attributes -/

def pushFirst (c : Char) : List (List Char) → List (List Char)
  | [] => [[c]]
  | field :: more => (c :: field) :: more

/-- The fields of a line between commas. A backslash takes the character after it out of this rule
and is dropped itself. -/
def fields : List Char → List (List Char)
  | [] => [[]]
  | '\\' :: c :: rest => pushFirst c (fields rest)
  -- Nothing is left for a backslash at the end to escape.
  | ['\\'] => [[]]
  | ',' :: rest => [] :: fields rest
  | c :: rest => pushFirst c (fields rest)

/-- The name and the value of a field; a field without an equals sign is no attribute. -/
def attribute? (field : List Char) : Option (List Char × List Char) :=
  (Text.splitOnce? '=' field).map fun (name, value) => (Text.trim name, Text.trim value)

def attributes (line : List Char) : List (List Char × List Char) :=
  (fields line).filterMap attribute?

/-! ## Lines -/

inductive Line where
  /-- A blank line, a comment, or a line with no attribute that matters. -/
  | silent
  | header
  | word (text : List Char)
  | shortcut (text : List Char)
  deriving DecidableEq, Repr

def Line.ofAttribute (name value : List Char) : Line :=
  if name == "dictionary".toList then .header
  else if name == "word".toList then .word value
  else if name == "shortcut".toList then .shortcut value
  else .silent

def Line.ofText (text : List Char) : Line :=
  let text := Text.trim text
  if text.isEmpty || text.head? == some '#' then
    .silent
  else
    match attributes text with
    | [] => .silent
    | (name, value) :: _ => .ofAttribute name value

/-! ## Lists -/

inductive LineFault where
  | emptyWord
  | shortcutBeforeWord
  /-- The list as a whole has neither a header nor a word. -/
  | noContent
  deriving DecidableEq, Repr

def LineFault.message : LineFault → String
  | .emptyWord => "empty word"
  | .shortcutBeforeWord => "shortcut before any word"
  | .noContent => "no dictionary header and no words"

structure Progress where
  hasHeader : Bool := false
  entries : List WordEntry := []

/-- One more shortcut for the latest entry; an empty one is left out. -/
def addShortcut (text : List Char) (entry : WordEntry) : WordEntry :=
  if text.isEmpty then entry
  else { entry with shortcuts := entry.shortcuts ++ [String.ofList text] }

def Progress.add (p : Progress) : Line → Except LineFault Progress
  | .silent => .ok p
  | .header => .ok { p with hasHeader := true }
  | .word text =>
      if text.isEmpty then .error .emptyWord
      else .ok { p with entries := ⟨String.ofList text, []⟩ :: p.entries }
  | .shortcut text =>
      match p.entries with
      | [] => .error .shortcutBeforeWord
      | entry :: earlier => .ok { p with entries := addShortcut text entry :: earlier }

def Progress.addAll (p : Progress) (number : Nat) : List Line → Except (Nat × LineFault) Progress
  | [] => .ok p
  | line :: rest =>
      match p.add line with
      | .error fault => .error (number, fault)
      | .ok p => p.addAll (number + 1) rest

/-- The entries of the lines of a list. A list without header and entries is none; that fault stands
at line 0. -/
def ofLines (lines : List Line) : Except (Nat × LineFault) (List WordEntry) :=
  match Progress.addAll {} 1 lines with
  | .error fault => .error fault
  | .ok p =>
      if ! p.hasHeader && p.entries.isEmpty then .error (0, .noContent) else .ok p.entries.reverse

def parse (text : List Char) : Except (Nat × LineFault) (List WordEntry) :=
  ofLines ((Text.lines text).map Line.ofText)

end WordList
end EmojiPicker

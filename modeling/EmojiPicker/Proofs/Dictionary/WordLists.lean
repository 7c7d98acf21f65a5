import EmojiPicker.Dictionary
import EmojiPicker.Proofs.Recents.Recall
import EmojiPicker.Proofs.Text.Pieces
import EmojiPicker.Proofs.Text.RoundTrip
import EmojiPicker.Proofs.Text.Trimming
import Mathlib.Data.Finset.Card

/-!
# Word lists are read as they are written

A word list leaves much to whoever writes it: indentation, further attributes, blank lines and comments,
either line end. None of that changes what is read.

* `WordList.escape`, `WordList.Value` — words and shortcuts, and how they are written;
* `WordList.Row`, `WordList.Document` — what stands in a line, and a text made of lines;
* `WordList.Document.Lists` — the entries that a document lists;
* `WordList.fields_escape`, `WordList.Row.ofText_text` — each line is read as what it says;
* `WordList.parse_of_lines` — and all of them as the entries;
* `EmojiDictionary.parse_listed` — look-ups in the dictionary of a document.

A line is cut at commas first, at its equals sign then and trimmed at last. Escapes are resolved by the
first cut, so that nothing of a value is left to the later ones but its ends, which are not blank.
-/

namespace EmojiPicker
namespace WordList

/-! ## Documents -/

/-- How a value is written: a backslash in front of each comma and of each backslash. -/
def escape (text : List Char) : List Char :=
  text.flatMap fun c => if c == ',' || c == '\\' then ['\\', c] else [c]

/-- A text that fits in a line. -/
abbrev OneLine : Type :=
  { text : List Char // '\n' ∉ text }

/-- A word or a shortcut. -/
structure Value where
  text : String
  filled : text ≠ ""
  flat : '\n' ∉ text.toList
  trimmed : Text.Trimmed text.toList

/-- An attribute as it is written. -/
def written (name : String) (value : List Char) : List Char :=
  name.toList ++ '=' :: value

/-- Attributes after the first. -/
def further (more : List OneLine) : List Char :=
  more.flatMap fun extra => ',' :: extra.1

/-- What stands in a line. -/
inductive Row where
  | blank
  | comment (text : OneLine)
  | header (name locale : OneLine) (more : List OneLine)
  | word (value : Value) (more : List OneLine)
  | shortcut (value : Value) (more : List OneLine)

namespace Row

def text : Row → List Char
  | blank => []
  | comment text => '#' :: text.1
  | header name locale more =>
      written "dictionary" name.1 ++ ',' :: written "locale" locale.1 ++ further more
  | word value more => written "word" (escape value.text.toList) ++ further more
  | shortcut value more => written "shortcut" (escape value.text.toList) ++ further more

def line : Row → Line
  | blank => .silent
  | comment _ => .silent
  | header _ _ _ => .header
  | word value _ => .word value.text.toList
  | shortcut value _ => .shortcut value.text.toList

end Row

/-- A line without its end. -/
structure Indented where
  indent : List Char
  row : Row
  indent_blank : indent.all (fun c => Text.isBlank c && c != '\n') = true

def Indented.text (line : Indented) : List Char :=
  line.indent ++ line.row.text

inductive LineEnd where
  | feed
  | returnFeed

def LineEnd.text : LineEnd → List Char
  | feed => ['\n']
  | returnFeed => ['\r', '\n']

/-- A text in lines. The last one has no line end; it may be blank. -/
structure Document where
  /-- Whether a byte order mark comes first. -/
  marked : Bool
  lines : List (Indented × LineEnd)
  last : Indented

namespace Document

def body (doc : Document) : List Char :=
  doc.lines.flatMap (fun (line, lineEnd) => line.text ++ lineEnd.text) ++ doc.last.text

def text (doc : Document) : List Char :=
  (if doc.marked then ['\ufeff'] else []) ++ doc.body

/-- What a document says, without blank lines and comments. -/
def sayings (doc : Document) : List Line :=
  (doc.lines.map (·.1.row.line) ++ [doc.last.row.line]).filter (· ≠ .silent)

end Document

/-- What the lines of an entry say. -/
def entryLines (entry : WordEntry) : List Line :=
  .word entry.word.toList :: entry.shortcuts.map fun shortcut => .shortcut shortcut.toList

/-- A document lists some entries in their order. The header may be left out if there are any. -/
def Document.Lists (doc : Document) (entries : List WordEntry) : Prop :=
  doc.sayings = .header :: entries.flatMap entryLines ∨
    (entries ≠ [] ∧ doc.sayings = entries.flatMap entryLines)

/-! ## Fields -/

variable {cs rest field : List Char} {others : List (List Char)}

theorem escape_append (cs ds : List Char) : escape (cs ++ ds) = escape cs ++ escape ds :=
  List.flatMap_append

theorem fields_ne_nil (cs : List Char) : fields cs ≠ [] := by
  have pushed : ∀ c fs, pushFirst c fs ≠ [] := by
    intro c fs
    cases fs <;> simp [pushFirst]
  rw [fields.eq_def]
  split <;> simp [pushed]

theorem fields_plain {c : Char} (comma : c ≠ ',') (backslash : c ≠ '\\') (rest : List Char) :
    fields (c :: rest) = pushFirst c (fields rest) := by
  rw [fields]
  · simp [backslash]
  · simp [backslash]
  · simp [comma]

/-- An escaped text belongs to one field, as it was before. -/
theorem fields_escape (cs : List Char) (behind : fields rest = field :: others) :
    fields (escape cs ++ rest) = (cs ++ field) :: others := by
  induction cs with
  | nil => simpa [escape] using behind
  | cons c cs ih =>
      have pushed : pushFirst c (fields (escape cs ++ rest)) = (c :: cs ++ field) :: others := by
        simp [ih, pushFirst]
      -- Escapes are resolved in the cut itself, so that what was special is pushed like all others.
      by_cases special : c = ',' ∨ c = '\\'
      · have written : escape (c :: cs) ++ rest = '\\' :: c :: (escape cs ++ rest) := by
          simp [escape, special]
        rw [written, fields, pushed]
      · rw [not_or] at special
        have written : escape (c :: cs) ++ rest = c :: (escape cs ++ rest) := by
          simp [escape, special]
        rw [written, fields_plain special.1 special.2, pushed]

theorem getLast?_escape (cs : List Char) : (escape cs).getLast? = cs.getLast? := by
  induction cs using List.reverseRecOn with
  | nil => rfl
  | append_singleton cs c _ =>
      rw [escape_append]
      by_cases special : c = ',' ∨ c = '\\'
      · simp [escape, special]
      · simp [escape, special]

theorem trimEnd_escape (ends : ∀ c ∈ cs.getLast?, Text.isBlank c = false) (rest : List Char) :
    Text.trimEnd (escape cs ++ rest) = escape cs ++ Text.trimEnd rest := by
  apply Text.trimEnd_append
  simpa [getLast?_escape] using ends

/-- Further attributes have fields of their own. -/
theorem fields_further (more : List OneLine) :
    ∃ others, fields (Text.trimEnd (further more)) = [] :: others := by
  cases more with
  | nil => exact ⟨[], rfl⟩
  | cons extra more =>
      have cut : Text.trimEnd (further (extra :: more)) =
          ',' :: Text.trimEnd (extra.1 ++ further more) := by
        have comma : Text.isBlank ',' = false := by decide +kernel
        simpa [further] using Text.trimEnd_cons comma (extra.1 ++ further more)
      exact ⟨_, by rw [cut, fields]⟩

/-! ## Lines -/

theorem Line.ofText_congr {xs ys : List Char} (same : Text.trim xs = Text.trim ys) :
    Line.ofText xs = Line.ofText ys := by
  rw [Line.ofText, Line.ofText, same]

/-- A field with an equals sign is an attribute. -/
theorem attribute?_append {name : List Char} (whole : '=' ∉ name) (value : List Char) :
    attribute? (name ++ '=' :: value) = some (Text.trim name, Text.trim value) := by
  rw [attribute?, Text.splitOnce?_append whole]
  rfl

/-- A line is what its first field says. -/
theorem Line.ofText_of_fields {line name value : List Char} {c : Char}
    (begins : (Text.trim line).head? = some c) (speaks : c ≠ '#')
    (cut : fields (Text.trim line) = (name ++ '=' :: value) :: others) (whole : '=' ∉ name) :
    Line.ofText line = .ofAttribute (Text.trim name) (Text.trim value) := by
  have filled : (Text.trim line).isEmpty = false := by
    cases same : Text.trim line with
    | nil => simp [same] at begins
    | cons c rest => rfl
  simp [Line.ofText, filled, begins, speaks, attributes, cut, attribute?_append whole value]

/-- A name that is written as it is. -/
structure Keyword (name : String) : Prop where
  plain : escape name.toList = name.toList
  trimmed : Text.Trimmed name.toList
  whole : '=' ∉ name.toList
  /-- A line that begins with it is no comment. -/
  speaks : ∃ c rest, name.toList = c :: rest ∧ c ≠ '#'

theorem Keyword.written_eq {name : String} (keyword : Keyword name) (value : List Char) :
    written name (escape value) = escape (name.toList ++ '=' :: value) := by
  have equals : escape ('=' :: value) = '=' :: escape value := by simp [escape]
  rw [written, escape_append, keyword.plain, equals]

/-- A line that begins with an attribute, of which the name and a part of the value are known. -/
theorem Keyword.ofText_written {name : String} {value : List Char} (keyword : Keyword name)
    (ends : ∀ c ∈ (name.toList ++ '=' :: value).getLast?, Text.isBlank c = false)
    (behind : fields (Text.trimEnd rest) = field :: others) :
    Line.ofText (written name (escape value) ++ rest) =
      .ofAttribute name.toList (Text.trim (value ++ field)) := by
  rcases keyword.speaks with ⟨c, more, spelled, speaks⟩
  have first : ∀ behind, (written name (escape value) ++ behind).head? = some c := by
    simp [written, spelled]
  have letter : Text.isBlank c = false := keyword.trimmed.head c (by simp [spelled])
  have cut : Text.trim (written name (escape value) ++ rest) =
      written name (escape value) ++ Text.trimEnd rest := by
    have front : ∀ d ∈ (written name (escape value) ++ rest).head?, Text.isBlank d = false := by
      simpa [first] using letter
    rw [Text.trim, Text.trimStart_eq_self front, keyword.written_eq, trimEnd_escape ends]
  have fields : fields (Text.trim (written name (escape value) ++ rest)) =
      (name.toList ++ '=' :: (value ++ field)) :: others := by
    rw [cut, keyword.written_eq]
    simpa using fields_escape (name.toList ++ '=' :: value) behind
  rw [Line.ofText_of_fields (cut ▸ first _) speaks fields keyword.whole,
    Text.trim_eq_self keyword.trimmed]

theorem Value.getLast?_not_blank (value : Value) (front : List Char) :
    ∀ c ∈ (front ++ value.text.toList).getLast?, Text.isBlank c = false := by
  have filled : value.text.toList ≠ [] := by simpa using value.filled
  rw [List.getLast?_append_of_ne_nil _ filled]
  exact value.trimmed.last

/-- A line that begins with a word or a shortcut. -/
theorem Keyword.ofText_value {name : String} (keyword : Keyword name) (value : Value)
    (more : List OneLine) :
    Line.ofText (written name (escape value.text.toList) ++ further more) =
      .ofAttribute name.toList value.text.toList := by
  rcases fields_further more with ⟨others, behind⟩
  have ends : ∀ c ∈ (name.toList ++ '=' :: value.text.toList).getLast?, Text.isBlank c = false := by
    simpa using value.getLast?_not_blank (name.toList ++ ['='])
  simpa [Text.trim_eq_self value.trimmed] using keyword.ofText_written ends behind

theorem keyword_dictionary : Keyword "dictionary" :=
  ⟨by decide, by decide +kernel, by decide, 'd', _, rfl, by decide⟩

theorem keyword_word : Keyword "word" :=
  ⟨by decide, by decide +kernel, by decide, 'w', _, rfl, by decide⟩

theorem keyword_shortcut : Keyword "shortcut" :=
  ⟨by decide, by decide +kernel, by decide, 's', _, rfl, by decide⟩

/-- Every line is read as what it says. -/
theorem Row.ofText_text (row : Row) : Line.ofText row.text = row.line := by
  cases row with
  | blank =>
      have empty : Text.trim [] = [] := by decide
      simp [Row.text, Row.line, Line.ofText, empty]
  | comment text =>
      have cut : Text.trim ('#' :: text.1) = '#' :: Text.trimEnd text.1 := by
        have sign : Text.isBlank '#' = false := by decide +kernel
        rw [Text.trim, Text.trimStart_eq_self (by simpa using sign)]
        exact Text.trimEnd_cons sign text.1
      simp [Row.text, Row.line, Line.ofText, cut]
  | header name locale more =>
      let rest := name.1 ++ ',' :: written "locale" locale.1 ++ further more
      have split : (header name locale more).text = written "dictionary" (escape []) ++ rest := by
        simp [Row.text, written, escape, rest]
      rcases behind : fields (Text.trimEnd rest) with _ | ⟨field, others⟩
      · exact absurd behind (fields_ne_nil _)
      · -- What the header says is not looked at, so that its first field may be anything.
        have sign : Text.isBlank '=' = false := by decide +kernel
        rw [split, keyword_dictionary.ofText_written (by simpa [escape] using sign) behind]
        rfl
  | word value more => exact keyword_word.ofText_value value more
  | shortcut value more => exact keyword_shortcut.ofText_value value more

theorem Indented.blank_of_mem {line : Indented} {c : Char} (there : c ∈ line.indent) :
    Text.isBlank c = true ∧ c ≠ '\n' := by
  simpa using List.all_eq_true.1 line.indent_blank c there

theorem Indented.ofText_text (line : Indented) : Line.ofText line.text = line.row.line := by
  have indent : ∀ c ∈ line.indent, Text.isBlank c = true := fun _ there => (blank_of_mem there).1
  rw [← line.row.ofText_text]
  exact Line.ofText_congr (Text.trim_append_left indent line.row.text)

/-! ## Line feeds -/

theorem mem_escape {c : Char} (there : c ∈ escape cs) : c ∈ cs ∨ c = '\\' := by
  rcases List.mem_flatMap.1 there with ⟨d, hd, found⟩
  split at found
  · rcases List.mem_cons.1 found with rfl | found
    · exact Or.inr rfl
    · exact Or.inl (List.mem_singleton.1 found ▸ hd)
  · exact Or.inl (List.mem_singleton.1 found ▸ hd)

theorem feed_not_mem_further (more : List OneLine) : '\n' ∉ further more := by
  intro there
  rcases List.mem_flatMap.1 there with ⟨extra, _, found⟩
  exact extra.2 (by simpa using found)

theorem Value.feed_not_mem_escape (value : Value) : '\n' ∉ escape value.text.toList := by
  intro there
  rcases mem_escape there with inside | special
  · exact value.flat inside
  · exact absurd special (by decide)

theorem Row.feed_not_mem_text (row : Row) : '\n' ∉ row.text := by
  cases row with
  | blank => simp [text]
  | comment text => simpa [Row.text] using text.2
  | header name locale more =>
      simpa [text, written, name.2, locale.2] using feed_not_mem_further more
  | word value more =>
      simpa [text, written, value.feed_not_mem_escape] using feed_not_mem_further more
  | shortcut value more =>
      simpa [text, written, value.feed_not_mem_escape] using feed_not_mem_further more

theorem Indented.feed_not_mem_text (line : Indented) : '\n' ∉ line.text := by
  intro there
  rcases List.mem_append.1 there with indent | inside
  · exact (blank_of_mem indent).2 rfl
  · exact line.row.feed_not_mem_text inside

/-! ## Texts -/

/-- The lines of a text that say something. -/
def sayings (text : List Char) : List Line :=
  ((Text.lines text).map Line.ofText).filter (· ≠ .silent)

theorem sayings_append {text : List Char} {line : Line} (flat : '\n' ∉ text)
    (said : Line.ofText text = line) (rest : List Char) :
    sayings (text ++ '\n' :: rest) = [line].filter (· ≠ .silent) ++ sayings rest := by
  have stripped : Line.ofText (Text.stripOne '\r' text) = line :=
    (Line.ofText_congr (Text.trim_stripOne text)).trans said
  rw [sayings, sayings, Text.lines_append flat, List.map_cons, stripped, ← List.filter_append]
  rfl

/-- A line end of either kind is no part of what the line says. -/
theorem Indented.sayings_append (line : Indented) (lineEnd : LineEnd) (rest : List Char) :
    sayings (line.text ++ lineEnd.text ++ rest) =
      [line.row.line].filter (· ≠ .silent) ++ sayings rest := by
  have flat := line.feed_not_mem_text
  cases lineEnd with
  | feed => simpa [LineEnd.text] using WordList.sayings_append flat line.ofText_text rest
  | returnFeed =>
      have said : Line.ofText (line.text ++ ['\r']) = line.row.line :=
        (Line.ofText_congr (Text.trim_append_right Text.return_blank _)).trans line.ofText_text
      simpa [LineEnd.text] using WordList.sayings_append (by simp [flat]) said rest

/-- An empty last line is none, and would say nothing. -/
theorem Indented.sayings_text (line : Indented) :
    sayings line.text = [line.row.line].filter (· ≠ .silent) := by
  rw [sayings, Text.lines_whole line.feed_not_mem_text, ← line.ofText_text]
  split
  · next empty =>
      have silent : Line.ofText [] = .silent := Row.blank.ofText_text
      rw [List.isEmpty_iff.1 empty, silent]
      rfl
  · rfl

theorem Document.sayings_body (doc : Document) : WordList.sayings doc.body = doc.sayings := by
  -- By induction on the lines that have an end, with the last one behind them.
  rw [body, Document.sayings, List.filter_append, ← doc.last.sayings_text]
  induction doc.lines with
  | nil => rfl
  | cons first more ih =>
      rcases first with ⟨line, lineEnd⟩
      have split : (line.text ++ lineEnd.text ++
            more.flatMap fun (line, lineEnd) => line.text ++ lineEnd.text) ++ doc.last.text =
          line.text ++ lineEnd.text ++
            ((more.flatMap fun (line, lineEnd) => line.text ++ lineEnd.text) ++ doc.last.text) := by
        simp
      rw [List.flatMap_cons, split, line.sayings_append, ih, ← List.append_assoc,
        ← List.filter_append]
      rfl

/-! ## Entries -/

variable {p q : Progress} {entries : List WordEntry}

/-- The number of a line matters only to a fault. -/
theorem Progress.addAll_eq_ok_iff (p : Progress) (number : Nat) (lines : List Line) :
    p.addAll number lines = .ok q ↔ lines.foldlM add p = .ok q := by
  induction lines generalizing p number with
  | nil => simp [addAll, pure, Except.pure]
  | cons line rest ih =>
      rw [addAll, List.foldlM_cons]
      cases p.add line with
      | error fault => simp [bind, Except.bind]
      | ok next => exact ih next (number + 1)

theorem Progress.foldlM_filter (p : Progress) (lines : List Line) :
    (lines.filter (· ≠ .silent)).foldlM add p = lines.foldlM add p := by
  induction lines generalizing p with
  | nil => rfl
  | cons line rest ih =>
      by_cases silent : line = .silent
      · subst silent
        exact ih p
      · rw [List.filter_cons_of_pos (by simpa using silent), List.foldlM_cons, List.foldlM_cons]
        cases p.add line with
        | error fault => rfl
        | ok next => exact ih next

/-- Shortcuts go to the latest entry, in their order. -/
theorem Progress.foldlM_shortcuts {shortcuts : List String} (filled : ∀ s ∈ shortcuts, s ≠ "")
    (headed : Bool) (entry : WordEntry) (earlier : List WordEntry) :
    (shortcuts.map fun s => Line.shortcut s.toList).foldlM add ⟨headed, entry :: earlier⟩ =
      .ok ⟨headed, { entry with shortcuts := entry.shortcuts ++ shortcuts } :: earlier⟩ := by
  induction shortcuts generalizing entry with
  | nil => simp [pure, Except.pure]
  | cons first rest ih =>
      have nonempty : first ≠ "" := filled first List.mem_cons_self
      have added : add ⟨headed, entry :: earlier⟩ (.shortcut first.toList) =
          .ok ⟨headed, { entry with shortcuts := entry.shortcuts ++ [first] } :: earlier⟩ := by
        simp [add, addShortcut, nonempty]
      rw [List.map_cons, List.foldlM_cons, added]
      simpa [bind, Except.bind] using ih (fun s hs => filled s (List.mem_cons_of_mem _ hs))
        { entry with shortcuts := entry.shortcuts ++ [first] }

theorem Progress.foldlM_entries
    (filled : ∀ e ∈ entries, e.word ≠ "" ∧ ∀ s ∈ e.shortcuts, s ≠ "") (headed : Bool)
    (earlier : List WordEntry) :
    (entries.flatMap entryLines).foldlM add ⟨headed, earlier⟩ =
      .ok ⟨headed, entries.reverse ++ earlier⟩ := by
  induction entries generalizing earlier with
  | nil => rfl
  | cons first rest ih =>
      have here := filled first List.mem_cons_self
      have word : add ⟨headed, earlier⟩ (.word first.word.toList) =
          .ok ⟨headed, ⟨first.word, []⟩ :: earlier⟩ := by
        simp [add, here.1]
      have entry : (entryLines first).foldlM add ⟨headed, earlier⟩ = .ok ⟨headed, first :: earlier⟩ := by
        rw [entryLines, List.foldlM_cons, word]
        simpa [bind, Except.bind] using foldlM_shortcuts here.2 headed ⟨first.word, []⟩ earlier
      rw [List.flatMap_cons, List.foldlM_append, entry]
      simpa [bind, Except.bind] using ih (fun e he => filled e (List.mem_cons_of_mem _ he)) (first :: earlier)

/-- Words and shortcuts are not empty. -/
theorem Row.filled (row : Row) {text : List Char}
    (meant : row.line = .word text ∨ row.line = .shortcut text) : text ≠ [] := by
  cases row with
  | blank => simp [line] at meant
  | comment _ => simp [line] at meant
  | header _ _ _ => simp [line] at meant
  | word value _ =>
      have same : value.text.toList = text := by simpa [line] using meant
      simpa [← same] using value.filled
  | shortcut value _ =>
      have same : value.text.toList = text := by simpa [line] using meant
      simpa [← same] using value.filled

theorem Document.exists_row {doc : Document} {line : Line} (said : line ∈ doc.sayings) :
    ∃ row : Row, row.line = line := by
  rcases List.mem_append.1 (List.mem_filter.1 said).1 with inside | last
  · rcases List.mem_map.1 inside with ⟨entry, _, is⟩
    exact ⟨_, is⟩
  · exact ⟨_, (List.mem_singleton.1 last).symm⟩

theorem Document.Lists.filled {doc : Document} (lists : doc.Lists entries) :
    ∀ e ∈ entries, e.word ≠ "" ∧ ∀ s ∈ e.shortcuts, s ≠ "" := by
  intro e he
  have said : ∀ {line}, line ∈ entryLines e → line ∈ doc.sayings := by
    intro line there
    have listed : line ∈ entries.flatMap entryLines := List.mem_flatMap.2 ⟨e, he, there⟩
    rcases lists with same | ⟨_, same⟩
    · exact same ▸ List.mem_cons_of_mem _ listed
    · exact same ▸ listed
  constructor
  · rcases Document.exists_row (said List.mem_cons_self) with ⟨row, meant⟩
    simpa using row.filled (Or.inl meant)
  · intro s hs
    have there : .shortcut s.toList ∈ entryLines e :=
      List.mem_cons_of_mem _ (List.mem_map.2 ⟨s, hs, rfl⟩)
    rcases Document.exists_row (said there) with ⟨row, meant⟩
    simpa using row.filled (Or.inr meant)

/-- A document is read as the entries that it lists. -/
theorem Document.Lists.parse_body {doc : Document} (lists : doc.Lists entries) :
    WordList.parse doc.body = .ok entries := by
  have progress : ∃ headed, (headed = false → entries ≠ []) ∧
      (WordList.sayings doc.body).foldlM Progress.add {} = .ok ⟨headed, entries.reverse⟩ := by
    have filled := lists.filled
    rw [doc.sayings_body]
    rcases lists with same | ⟨some, same⟩
    · have headed : Progress.add {} .header = .ok { hasHeader := true } := rfl
      refine ⟨true, by simp, ?_⟩
      rw [same, List.foldlM_cons, headed]
      simpa [bind, Except.bind] using Progress.foldlM_entries filled true []
    · refine ⟨false, fun _ => some, ?_⟩
      rw [same]
      simpa using Progress.foldlM_entries filled false []
  rcases progress with ⟨headed, kept, progress⟩
  rw [WordList.sayings, Progress.foldlM_filter] at progress
  rw [parse, ofLines, (Progress.addAll_eq_ok_iff _ _ _).2 progress]
  simpa using kept

/-! ## The beginning of a text -/

theorem Row.text_cases (row : Row) : row.text = [] ∨ ∃ c ∈ "#dws".toList, ∃ rest, row.text = c :: rest := by
  cases row with
  | blank => exact Or.inl rfl
  | comment text => exact Or.inr ⟨'#', by decide, _, rfl⟩
  | header name locale more => exact Or.inr ⟨'d', by decide, _, rfl⟩
  | word value more => exact Or.inr ⟨'w', by decide, _, rfl⟩
  | shortcut value more => exact Or.inr ⟨'s', by decide, _, rfl⟩

/-- The first character that is not blank. -/
theorem Indented.head_trimStart (line : Indented)
    (begins : ∀ c ∈ (Text.trimStart rest).head?, c ∈ "#dws".toList) :
    ∀ c ∈ (Text.trimStart (line.text ++ rest)).head?, c ∈ "#dws".toList := by
  have indent : ∀ c ∈ line.indent, Text.isBlank c = true := fun _ there => (blank_of_mem there).1
  have letters : "#dws".toList.all (! Text.isBlank ·) = true := by decide +kernel
  rw [text, List.append_assoc, Text.trimStart_append indent]
  rcases line.row.text_cases with empty | ⟨c, letter, more, spelled⟩
  · simpa [empty] using begins
  · have shown : Text.trimStart (line.row.text ++ rest) = line.row.text ++ rest :=
      Text.trimStart_eq_self (by simpa [spelled] using List.all_eq_true.1 letters c letter)
    rw [shown, spelled]
    simpa using letter

theorem Document.head_trimStart (doc : Document) :
    ∀ c ∈ (Text.trimStart doc.body).head?, c ∈ "#dws".toList := by
  rw [body]
  induction doc.lines with
  | nil =>
      have ended : ∀ c ∈ (Text.trimStart []).head?, c ∈ "#dws".toList := by simp
      simpa using doc.last.head_trimStart ended
  | cons first more ih =>
      rcases first with ⟨line, lineEnd⟩
      have blank : lineEnd.text.all Text.isBlank = true := by
        cases lineEnd <;> decide +kernel
      rw [List.flatMap_cons, List.append_assoc, List.append_assoc]
      apply line.head_trimStart
      rw [Text.trimStart_append (List.all_eq_true.1 blank)]
      exact ih

theorem Document.dropMarks_body (doc : Document) : DictionaryContent.dropMarks doc.body = doc.body := by
  have begins := doc.head_trimStart
  cases split : doc.body with
  | nil => rfl
  | cons c rest =>
      -- A byte order mark is no blank, so that trimming would keep it in front.
      have other : c ≠ '\ufeff' := by
        rintro rfl
        have shown : Text.trimStart ('\ufeff' :: rest) = '\ufeff' :: rest :=
          Text.trimStart_eq_self (by simp; decide)
        rw [split, shown] at begins
        exact absurd (begins _ rfl) (by decide)
      simp [DictionaryContent.dropMarks, other]

/-- A byte order mark is dropped, and there is no other at the beginning. -/
theorem Document.dropMarks_text (doc : Document) : DictionaryContent.dropMarks doc.text = doc.body := by
  rw [text]
  cases doc.marked with
  | false => exact doc.dropMarks_body
  | true => exact doc.dropMarks_body

/-- A document is no JSON, since it does not begin with a brace. -/
theorem Document.Lists.parse_text {doc : Document} (lists : doc.Lists entries) :
    DictionaryContent.parse (Text.encode doc.text) = .ok entries := by
  have plain : (Text.trimStart doc.body).head? ≠ some '{' := by
    intro brace
    exact absurd (doc.head_trimStart _ brace) (by decide)
  rw [DictionaryContent.parse, Text.decode_encode]
  simp [doc.dropMarks_text, DictionaryContent.ofText, plain, lists.parse_body]

end WordList

/-! ## Look-ups -/

namespace EmojiDictionary

variable {entries : List WordEntry}

theorem entry?_ofEntries (locale : String) (source : Path) (before : List WordEntry)
    {after : List WordEntry} {entry : WordEntry}
    (last : ∀ other ∈ after, other.word ≠ entry.word) :
    entry? (ofEntries locale source (before ++ entry :: after)) entry.word = some entry := by
  have passed : after.reverse.find? (·.word == entry.word) = none := by simpa using last
  simp [ofEntries, entry?, List.find?_append, passed]

theorem entry?_ofEntries_none (locale : String) (source : Path) {word : String}
    (unlisted : ∀ entry ∈ entries, entry.word ≠ word) :
    entry? (ofEntries locale source entries) word = none := by
  simpa [ofEntries, entry?] using unlisted

theorem size_ofEntries (locale : String) (source : Path) (entries : List WordEntry) :
    (ofEntries locale source entries).size = (entries.map (·.word)).toFinset.card := by
  have once : (entries.map (·.word)).eraseDups.Nodup := nodup_eraseDups _
  have same : (entries.map (·.word)).eraseDups.toFinset = (entries.map (·.word)).toFinset := by
    ext word
    simp
  rw [← same, List.toFinset_card_of_nodup once]
  rfl

/-- Every document is accepted, whatever its layout: how lines are indented, which attributes follow the
first, what blank lines and comments there are, how lines end, and whether a byte order mark begins it.
The dictionary answers

* a listed word with its last entry, and with the first shortcut of that entry as its description;
* every other word with nothing.

It has as many entries as the document lists different words. -/
theorem parse_listed (path : Path) (locale : String) (doc : WordList.Document)
    (entries : List WordEntry) (lists : doc.Lists entries) :
    ∃ d, parse path locale (Text.encode doc.text) = .ok d ∧
      (∀ before entry after, entries = before ++ entry :: after →
        (∀ other ∈ after, other.word ≠ entry.word) →
          d.entry? entry.word = some entry ∧ d.description? entry.word = entry.shortcuts.head?) ∧
      (∀ word, (∀ entry ∈ entries, entry.word ≠ word) →
        d.entry? word = none ∧ d.description? word = none) ∧
      d.size = (entries.map (·.word)).toFinset.card := by
  have read : parse path locale (Text.encode doc.text) = .ok (ofEntries locale path entries) := by
    rw [parse, lists.parse_text]
  refine ⟨_, read, ?_, ?_, size_ofEntries locale path entries⟩
  · rintro before entry after rfl last
    have found := entry?_ofEntries locale path before last
    exact ⟨found, by simp [description?, found]⟩
  · intro word unlisted
    have absent := entry?_ofEntries_none locale path unlisted
    exact ⟨absent, by simp [description?, absent]⟩

/-- A document with a byte order mark and both line ends, without a line end at its end. Its values have
commas, backslashes, equals signs, a number sign and a brace, and one word is listed twice. -/
theorem parse_listed_twice :
    let value (text : String)
        (fits : text ≠ "" ∧ '\n' ∉ text.toList ∧ Text.Trimmed text.toList) : WordList.Value :=
      ⟨text, fits.1, fits.2.1, fits.2.2⟩
    let smile := value ":-\\," (by decide +kernel)
    let header : WordList.Row :=
      .header ⟨"emoji".toList, by decide +kernel⟩ ⟨"en".toList, by decide +kernel⟩ []
    let doc : WordList.Document :=
      { marked := true
        lines :=
          [(⟨[], header, by decide +kernel⟩, .returnFeed),
            (⟨['\u00a0'], .word smile [⟨"f=200".toList, by decide +kernel⟩], by decide +kernel⟩, .feed),
            (⟨[' ', ' '], .shortcut (value "old, face" (by decide +kernel)) [], by decide +kernel⟩,
              .returnFeed),
            (⟨['\t'], .blank, by decide +kernel⟩, .feed),
            (⟨[], .word (value "\x7b=#" (by decide +kernel)) [], by decide +kernel⟩, .feed),
            (⟨[' '], .comment ⟨" again".toList, by decide +kernel⟩, by decide +kernel⟩, .returnFeed),
            (⟨[], .word smile [], by decide +kernel⟩, .feed)]
        last :=
          ⟨[' '], .shortcut (value "word=new" (by decide +kernel)) [⟨[' '], by decide +kernel⟩],
            by decide +kernel⟩ }
    let entries : List WordEntry :=
      [⟨":-\\,", ["old, face"]⟩, ⟨"\x7b=#", []⟩, ⟨":-\\,", ["word=new"]⟩]
    doc.text = ("\ufeffdictionary=emoji,locale=en\x0d\n\u00a0word=:-\\\\\\,,f=200\n" ++
        "  shortcut=old\\, face\x0d\n\t\nword=\x7b=#\n # again\x0d\nword=:-\\\\\\,\n" ++
        " shortcut=word=new, ").toList ∧
      doc.Lists entries ∧
      ∃ d, parse ⟨"e.dict"⟩ "en" (Text.encode doc.text) = .ok d ∧
        d.entry? ":-\\," = some ⟨":-\\,", ["word=new"]⟩ ∧ d.description? ":-\\," = some "word=new" ∧
        d.entry? "\x7b=#" = some ⟨"\x7b=#", []⟩ ∧ d.description? "\x7b=#" = none ∧
        d.entry? "old, face" = none ∧ d.size = 2 := by
  intro value smile header doc entries
  have lists : doc.Lists entries := Or.inl (by decide +kernel)
  rcases parse_listed ⟨"e.dict"⟩ "en" doc entries lists with ⟨d, read, last, unlisted, size⟩
  have twice := last (entries.take 2) _ [] rfl (by simp)
  have once := last (entries.take 1) _ (entries.drop 2) rfl (by decide)
  refine ⟨by decide +kernel, lists, d, read, twice.1, twice.2, once.1, once.2, ?_, ?_⟩
  · exact (unlisted "old, face" (by decide)).1
  · rw [size]
    decide

end EmojiDictionary
end EmojiPicker

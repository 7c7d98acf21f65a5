import EmojiPicker.Dictionary.WordList
import EmojiPicker.Json.Record
import EmojiPicker.Text.Utf8

/-!
# The content of dictionary files

A dictionary file is a JSON document or a word list; the first character that is not blank tells
which.

* `FormatFault` — why bytes are no dictionary;
* `DictionaryContent.ofJson?` — the entries of a JSON document
  `{"locale": "en", "entries": [{"word": "😀", "shortcuts": ["grinning face"]}]}`;
* `DictionaryContent.parse` — the entries of some bytes.
-/

namespace EmojiPicker

inductive FormatFault where
  | notText (cause : Text.Utf8Error)
  | malformed
  /-- A line of the word list is faulty. The list as a whole counts as line 0. -/
  | line (number : Nat) (cause : WordList.LineFault)
  deriving DecidableEq, Repr

def FormatFault.message : FormatFault → String
  | .notText cause => s!"not UTF-8: {cause.message}"
  | .malformed => "malformed JSON document"
  | .line number cause => s!"line {number}: {cause.message}"

namespace DictionaryContent

def entryOfJson? (v : Json) : Option WordEntry := do
  let [word, shortcuts] ← Json.record? ["word", "shortcuts"] v | none
  return ⟨← Json.required? Json.text? word, ← Json.optional? [] Json.texts? shortcuts⟩

/-- Whether a field is missing, null or a text, as the declared locale has to be. -/
def isOptionalText : Option Json → Bool
  | none => true
  | some .null => true
  | some v => v.text?.isSome

/-- The entries of a JSON dictionary. What locale it declares changes nothing. -/
def ofJson? (v : Json) : Option (List WordEntry) := do
  let [locale, entries] ← Json.record? ["locale", "entries"] v | none
  if isOptionalText locale then
    Json.optional? [] (Json.listOf? entryOfJson?) entries
  else
    none

def dropMarks (text : List Char) : List Char :=
  text.dropWhile (· == '\ufeff')

def ofText (text : List Char) : Except FormatFault (List WordEntry) :=
  -- What begins with a brace is a document, if only a faulty one.
  if (Text.trimStart text).head? == some '{' then
    match Json.parse? text >>= ofJson? with
    | some entries => .ok entries
    | none => .error .malformed
  else
    match WordList.parse text with
    | .ok entries => .ok entries
    | .error (number, fault) => .error (.line number fault)

def parse (bytes : List UInt8) : Except FormatFault (List WordEntry) :=
  match Text.decode bytes with
  | .error fault => .error (.notText fault)
  | .ok text => ofText (dropMarks text)

end DictionaryContent
end EmojiPicker

import EmojiPicker.Failure
import EmojiPicker.Locale

/-!
# Emoji dictionaries

A dictionary describes emoji in the language of one locale. It answers as long as it is open.

* `EmojiDictionary` — the entries of a file under the locale they were opened for;
* `EmojiDictionary.entry?`, `EmojiDictionary.description?` — look-ups;
* `EmojiDictionary.parse` — a dictionary from the bytes of a file;
* `EmojiDictionary.close` — the dictionary that answers nothing any more.
-/

namespace EmojiPicker

structure EmojiDictionary where
  locale : String
  source : Path
  /-- The entries in file order. Of two entries for one word the later one counts. -/
  entries : List WordEntry
  /-- Whether the dictionary answers look-ups. -/
  isOpen : Bool
  deriving DecidableEq, Repr

namespace EmojiDictionary

def ofEntries (locale : String) (source : Path) (entries : List WordEntry) : EmojiDictionary :=
  ⟨Locale.normalize locale, source, entries, true⟩

def parse (path : Path) (locale : String) (bytes : List UInt8) : Except Failure EmojiDictionary :=
  match DictionaryContent.parse bytes with
  | .error fault => .error (.dictionaryFormat path fault)
  | .ok entries => .ok (ofEntries locale path entries)

def serves (d : EmojiDictionary) (locale : String) : Bool :=
  Locale.agree d.locale locale

def entry? (d : EmojiDictionary) (word : String) : Option WordEntry :=
  if d.isOpen then d.entries.reverse.find? (·.word == word) else none

/-- The description of a word: the first thing it is a shortcut for. -/
def description? (d : EmojiDictionary) (word : String) : Option String :=
  (d.entry? word).bind (·.shortcuts.head?)

def size (d : EmojiDictionary) : Nat :=
  (d.entries.map (·.word)).eraseDups.length

def close (d : EmojiDictionary) : EmojiDictionary :=
  { d with isOpen := false }

/-! ## Laws -/

@[simp]
theorem isOpen_close (d : EmojiDictionary) : d.close.isOpen = false := rfl

@[simp]
theorem entry?_close (d : EmojiDictionary) (word : String) : d.close.entry? word = none := rfl

@[simp]
theorem description?_close (d : EmojiDictionary) (word : String) :
    d.close.description? word = none := rfl

end EmojiDictionary
end EmojiPicker

import EmojiPicker.Dictionary

/-!
# Stores of dictionaries

Where dictionaries come from and where installed ones go: `DictionaryStore`. A store is a state that
each request may change.
-/

namespace EmojiPicker

/-- States from which dictionaries can be fetched. -/
class DictionaryStore (σ : Type) where
  /-- The stored file for a locale, if there is one. -/
  resolve : σ → String → Option Path × σ
  /-- The dictionary in a file, opened for a locale. -/
  openAt : σ → Path → String → Except Failure EmojiDictionary × σ
  /-- Stores bytes as the dictionary file of a locale and names the file. -/
  install : σ → List UInt8 → String → Except Failure Path × σ

end EmojiPicker

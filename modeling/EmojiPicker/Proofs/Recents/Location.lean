import EmojiPicker.Proofs.Dictionary.Storage
import EmojiPicker.Proofs.Disk.Configuration

/-!
# Where the recently used emoji are saved

* `RecentsFile.Apart` — a path whose file installations of dictionaries cannot touch;
* `Locations.apart_recents` — the path that the picker chooses is one.
-/

namespace EmojiPicker

/-- A path that names no file of the dictionary cache, and that leads to one place from now on,
whatever directories are made for dictionaries. -/
structure RecentsFile.Apart (disk : Disk) (path : Path) : Prop where
  named : ∃ name, path.EndsIn name ∧ DictionaryCache.isOwnName name = false
  steady : disk.Steady path

/-- The file of recently used emoji lies in a directory that the picker found or made, or has a
fixed path. -/
theorem Locations.apart_recents (env : Environment) (disk : Disk) :
    RecentsFile.Apart (recents env disk).2 (recents env disk).1 := by
  have foreign : DictionaryCache.isOwnName "recent_emoji.json" = false := by decide +kernel
  have named : Path.EntryName "recent_emoji.json" := ⟨by decide, by decide, by decide, by decide⟩
  exact ⟨⟨_, named.endsIn_child _, foreign⟩, steady_entry env disk named (by decide)⟩

end EmojiPicker

import EmojiPicker.Disk.Tree
import EmojiPicker.Json.Strings
import EmojiPicker.Recents

/-!
# The file of recently used emoji

The visible keys as a JSON array, the latest first.

* `RecentsFile.load` — the keys of a file, none if it does not hold such an array;
* `RecentsFile.save` — the file with some keys.
-/

namespace EmojiPicker
namespace RecentsFile

/-- The keys of a file. A file that cannot be read, or holds something else, has none. -/
def load (disk : Disk) (path : Path) : List String :=
  match disk.readText path with
  | .error _ => []
  | .ok text => (Json.parseTexts? text).getD []

/-- Writes a file with some keys, and the directory that it lies in as far as it is missing. -/
def save (disk : Disk) (path : Path) (keys : List String) : Except DiskFault Unit × Disk :=
  -- A directory that cannot be made is noticed by the write.
  (disk.makeParent path).2.write path (Text.encode (Json.printTexts keys))

end RecentsFile
end EmojiPicker

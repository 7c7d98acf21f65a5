import EmojiPicker.Catalog
import EmojiPicker.Dictionary.Content
import EmojiPicker.Disk.Path
import EmojiPicker.Disk.Fault

/-!
# Failures

What the picker can fail at. A failure keeps its causes; `Failure.message` is its wording.
-/

namespace EmojiPicker

inductive Failure where
  | categoryNotFound (id : CategoryId)
  | dictionaryUnavailable (locale : String)
  | installFailed (locale : String) (cause : Failure)
  | dictionaryFormat (path : Path) (cause : FormatFault)
  | catalog (cause : CatalogFault)
  /-- The disk refused what the context describes. -/
  | disk (context : String) (cause : DiskFault)
  deriving DecidableEq, Repr

def Failure.message : Failure → String
  | .categoryNotFound id => s!"category {id} is not shown"
  | .dictionaryUnavailable locale => s!"no emoji dictionary available for locale `{locale}`"
  | .installFailed locale cause =>
      s!"failed to install emoji dictionary for `{locale}`: {cause.message}"
  | .dictionaryFormat path cause => s!"invalid dictionary {path.text}: {cause.message}"
  | .catalog cause => s!"invalid emoji catalog: {cause.message}"
  | .disk context cause => s!"{context}: {cause.message}"

end EmojiPicker

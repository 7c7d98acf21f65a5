import EmojiPicker.Text.Lowercase
import EmojiPicker.Text.Pieces

/-!
# Locales

A locale is a tag such as `en`, `en-US` or `de_AT`, written with some freedom.

* `Locale.normalize` — the one form of a tag that is compared and that names directories;
* `Locale.language` — the part before the region;
* `Locale.agree` — whether two tags have the same normal form;
* `Locale.fileName`, `Locale.address` — the dictionary file of a locale, and where it is published.
-/

namespace EmojiPicker
namespace Locale

def underscore (c : Char) : Char :=
  if c == '-' then '_' else c

/-- A tag without blanks at its ends, in lower case, with underscores for hyphens. -/
def normalize (tag : String) : String :=
  String.ofList ((Text.lowercase (Text.trim tag.toList)).map underscore)

def language (tag : String) : String :=
  String.ofList ((normalize tag).toList.takeWhile (· != '_'))

/-- Whether two tags name the same locale. -/
def agree (a b : String) : Bool :=
  normalize a == normalize b

/-- The name of the dictionary file of a locale: all regions of a language share it. -/
def fileName (tag : String) : String :=
  s!"emoji_{language tag}.dict"

def address (base tag : String) : String :=
  String.ofList (base.toList.reverse.dropWhile (· == '/')).reverse ++ "/" ++ fileName tag

end Locale
end EmojiPicker

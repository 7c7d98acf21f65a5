import EmojiPicker.Navigation.Scroll
import EmojiPicker.Search.Session

/-!
# What the user sees

* `Notice` — what the user is told, with its wording;
* `ViewEvent` — the calls on the display, in the order in which it is to change.
-/

namespace EmojiPicker

inductive Notice where
  | downloadStarted (locale : String)
  | dictionaryInstalled (locale : String)
  | installFailed (locale reason : String)
  | downloadUnavailable
  deriving DecidableEq, Repr

def Notice.message : Notice → String
  | .downloadStarted locale => s!"downloading emoji dictionary for {locale}"
  | .dictionaryInstalled locale => s!"emoji dictionary for {locale} installed"
  | .installFailed locale reason => s!"could not install emoji dictionary for {locale}: {reason}"
  | .downloadUnavailable => "no dictionary download source configured"

inductive ViewEvent where
  | tabs (tabs : List Tab) (current : Tab)
  | page (category : CategoryId) (page : Nat) (keys : List String) (animate : Bool)
  | indicator (progress : PageProgress)
  | search (surface : SearchSurface)
  | commit (key : String)
  | notice (notice : Notice)
  /-- An answer to a command, beside the picker's own display. -/
  | message (text : String)
  deriving DecidableEq, Repr

end EmojiPicker

import EmojiPicker.Picker

/-!
# Runs of the picker

* `PickerEvent` — everything that can happen to a picker;
* `Picker.react`, `Picker.run` — the picker after one event and after some.
-/

namespace EmojiPicker

/-- What happens to a picker. -/
inductive PickerEvent where
  | start (locale : String)
  | stop
  | hide
  | render
  | clickTab (tab : Tab)
  | swipe (position : Nat)
  | scroll (report : ScrollReport)
  | leave (id : CategoryId)
  | flushRecents
  | pick (key : String)
  | enterSearch
  | exitSearch
  | query (text : String)
  | choose (key : String)
  | find (text : String)
  | changeLocale (locale : String)
  | requestDownload
  | completeDownload (outcome : DownloadOutcome)
  | clearCache
  | setKeys (id : CategoryId) (keys : List String)
  | setIncognito (on : Bool)
  | takeDirty

namespace Picker

variable {σ : Type} [DictionaryStore σ]

/-- The picker after an event. Keys that are refused change nothing. -/
def react (p : Picker σ) : PickerEvent → Picker σ
  | .start locale => p.start locale
  | .stop => p.stop
  | .hide => p.hide
  | .render => p.render
  | .clickTab tab => p.clickTab tab
  | .swipe position => p.swipe position
  | .scroll report => p.scroll report
  | .leave id => p.leave id
  | .flushRecents => p.flushRecents
  | .pick key => p.pick key
  | .enterSearch => p.enterSearch
  | .exitSearch => p.exitSearch
  | .query text => p.query text
  | .choose key => p.choose key
  | .find text => (p.find text).2
  | .changeLocale locale => p.changeLocale locale
  | .requestDownload => p.requestDownload.2
  | .completeDownload outcome => p.completeDownload outcome
  | .clearCache => p.clearCache
  | .setKeys id keys =>
      match p.setKeys id keys with
      | .ok p => p
      | .error _ => p
  | .setIncognito on => p.setIncognito on
  | .takeDirty => p.takeDirty.2

/-- The picker after some events. -/
def run (p : Picker σ) (events : List PickerEvent) : Picker σ :=
  events.foldl react p

theorem run_concat (p : Picker σ) (events : List PickerEvent) (event : PickerEvent) :
    p.run (events ++ [event]) = (p.run events).react event := by
  simp [run]

end Picker
end EmojiPicker

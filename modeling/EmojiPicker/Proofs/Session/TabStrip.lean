import EmojiPicker.Proofs.Picker.TabStrip
import EmojiPicker.Proofs.Session.Saving

/-!
# The screen during a session

What a session displays between events is what its picker has.

* `Session.OnScreen` — the screen between events, with what it rests on;
* `Session.OnScreen.turn`, `Session.OnScreen.foldl_handle` — every event and every run;
* `Session.tabStrip_upToDate` — sessions over an accepted catalog with keys.
-/

namespace EmojiPicker
namespace Session

variable {s t : Session}

/-- The screen is up to date, and stays so. -/
structure OnScreen (s : Session) : Prop where
  kept : ∃ ledger, s.picker.Keeps ledger
  anchored : s.picker.Anchored
  upToDate : s.picker.UpToDate

/-- A save changes nothing that is displayed. -/
theorem OnScreen.persist (screen : s.OnScreen) : s.persist.OnScreen := by
  rcases screen with ⟨⟨ledger, keeps⟩, ⟨paged, stocked, offered, marked⟩, upToDate⟩
  rcases s.persist_frame with ⟨disk, saves, same⟩
  have keeps : s.picker.Keeps { ledger with saved := ledger.saved } := keeps
  rw [same]
  exact
    { kept := ⟨_, keeps.resaved rfl rfl⟩
      anchored := ⟨⟨paged.placed, paged.fresh⟩, stocked, offered, marked⟩
      upToDate := upToDate.congr id id rfl rfl rfl rfl }

theorem Fed.onScreen {input : PickerInput} (fed : Fed s input t) (screen : s.OnScreen) :
    t.OnScreen := by
  rcases screen with ⟨⟨ledger, keeps⟩, anchored, upToDate⟩
  exact
    { kept := ⟨_, (keeps.feed input).displays fed.picker⟩
      anchored := anchored.steps fed.steps
      upToDate := (upToDate.feed anchored keeps.waiting input).displays fed.picker }

theorem OnScreen.turn {inputs : List PickerInput} (screen : s.OnScreen) (turn : Turn s inputs t) :
    t.OnScreen := by
  induction turn with
  | still picker _ _ _ =>
      exact ⟨picker ▸ screen.kept, picker ▸ screen.anchored, picker ▸ screen.upToDate⟩
  | unheard _ fed => exact (fed.onScreen screen).persist
  | obeyed fed => exact (fed.onScreen screen).persist
  | @ended t _ _ ih => exact (t.fed_finish.onScreen ih).persist

theorem OnScreen.foldl_handle (screen : s.OnScreen) (events : List SessionEvent) :
    (events.foldl handle s).OnScreen := by
  induction events generalizing s with
  | nil => exact screen
  | cons event rest ih =>
      rcases s.turn_handle event with ⟨_, turn, _⟩
      exact ih (screen.turn turn)

/-! ## Whole sessions -/

theorem onScreen_begin (settings : Settings) {catalog : Catalog} (accepted : catalog.fault? = none)
    (keyed : ∃ d ∈ catalog.categories, d.keys ≠ []) (recents : List String) (cache : DictionaryCache)
    (path : Path) (locale : String) :
    let first : Session := { picker := settings.picker catalog recents cache, recentsPath := path }
    (Program.beginSession first locale).OnScreen := by
  intro first
  have keeps := Picker.keeps_new settings catalog recents cache
  have anchored : first.picker.Anchored :=
    { paged := Picker.paged_new catalog _ _ cache _
      stocked := Navigation.stocked_ofCatalog accepted keyed _ _
      offered := fun active => absurd active (by simp [first, Settings.picker, Picker.new])
      marked := by simp [first, Settings.picker, Picker.new] }
  have steps : Picker.Steps true false first.picker (first.picker.start locale) :=
    first.picker.steps_start locale
  have greeted : Picker.Displays (first.picker.start locale)
      (Program.beginSession first locale).picker :=
    Picker.displays_emit _ trivial
  exact
    { kept := ⟨_, (keeps.start locale).displays greeted⟩
      anchored := (anchored.steps steps).displays greeted
      upToDate := (Picker.upToDate_render _).displays greeted }

/-- The tab strip on the screen is always that of the picker. In a session over an accepted catalog that
has some key, with any settings, recently used emoji and cache, after any events,

* while the picker is on the screen and not searching, the last strip displayed has the tabs there are
  now with the current category marked, and the last page displayed is of that category;
* every strip that was ever displayed contains the tab that it marks. -/
theorem tabStrip_upToDate (settings : Settings) {text : List Char} {catalog : Catalog}
    (parsed : Catalog.parse text = .ok catalog) (keyed : ∃ d ∈ catalog.categories, d.keys ≠ [])
    (recents : List String) (cache : DictionaryCache) (path : Path) (locale : String)
    (events : List SessionEvent) :
    let first : Session := { picker := settings.picker catalog recents cache, recentsPath := path }
    let p := (events.foldl handle (Program.beginSession first locale)).picker
    (p.visible = true → p.search.active = false →
        ViewEvent.lastStrip? p.display = some (p.tabs, .category p.navigation.cursor.category) ∧
          ViewEvent.lastPage? p.display = some p.navigation.cursor.category) ∧
      ∀ tabs current, .tabs tabs current ∈ p.display → current ∈ tabs := by
  intro first p
  have begun := onScreen_begin settings (Catalog.fault?_of_parse parsed) keyed recents cache path locale
  have screen := begun.foldl_handle events
  exact ⟨screen.upToDate, screen.anchored.marked⟩

/-- A pick shows the recently used emoji for the first time. -/
theorem tabStrip_upToDate_revealed :
    let text := "\x7b\"categories\": [\x7b\"id\": 2, \"name\": \"none\"\x7d, ".toList ++
      "\x7b\"id\": 1, \"name\": \"faces\", \"keys\": [\"😀\"]\x7d]\x7d".toList
    let catalog : Catalog := ⟨[⟨⟨2⟩, "none", []⟩, ⟨⟨1⟩, "faces", ["😀"]⟩]⟩
    let first : Session :=
      { picker := Settings.picker { recentsAlwaysVisible := false } catalog [] ⟨⟨"dicts"⟩, {}⟩
        recentsPath := ⟨"recent_emoji.json"⟩ }
    let p := ([.line "pick 😀".toList].foldl handle (Program.beginSession first "en")).picker
    (Catalog.parse text = .ok catalog ∧ p.visible = true ∧ p.search.active = false) ∧
      p.tabs = [.search, .category .recents, .category ⟨1⟩] ∧
      ViewEvent.lastStrip? p.display = some (p.tabs, .category ⟨1⟩) ∧
      ViewEvent.lastPage? p.display = some ⟨1⟩ ∧
      Tab.category ⟨1⟩ ∈ [Tab.search, .category ⟨1⟩] := by
  intro text catalog first p
  have parsed : Catalog.parse text = .ok catalog := by decide +kernel
  have keyed : ∃ d ∈ catalog.categories, d.keys ≠ [] := by decide
  have law := tabStrip_upToDate { recentsAlwaysVisible := false } parsed keyed [] ⟨⟨"dicts"⟩, {}⟩
    ⟨"recent_emoji.json"⟩ "en" [.line "pick 😀".toList]
  extract_lets at law
  rcases law with ⟨now, ever⟩
  have visible : p.visible = true := by decide +kernel
  have inactive : p.search.active = false := by decide +kernel
  have current : p.navigation.cursor.category = ⟨1⟩ := by decide +kernel
  have tabs : p.tabs = [.search, .category .recents, .category ⟨1⟩] := by decide +kernel
  have before : .tabs [.search, .category ⟨1⟩] (.category ⟨1⟩) ∈ p.display := by decide +kernel
  rcases now visible inactive with ⟨strip, page⟩
  have strip : ViewEvent.lastStrip? p.display = some (p.tabs, .category p.navigation.cursor.category) :=
    strip
  have page : ViewEvent.lastPage? p.display = some p.navigation.cursor.category := page
  rw [current] at strip page
  exact ⟨⟨parsed, visible, inactive⟩, tabs, strip, page, ever _ _ before⟩

end Session
end EmojiPicker

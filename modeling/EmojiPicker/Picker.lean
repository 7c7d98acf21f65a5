import EmojiPicker.Dictionary.Download
import EmojiPicker.Dictionary.Lifecycle
import EmojiPicker.View

/-!
# The emoji picker

The picker takes the events of an emoji keyboard, updates navigation, search and dictionary, and
changes the display.

* `PickerOptions` — switches;
* `Picker` — the state, with everything that was displayed so far;
* `Picker.start`, `Picker.stop`, `Picker.hide` — visibility;
* `Picker.clickTab`, `Picker.swipe`, `Picker.scroll`, `Picker.leave` — navigation;
* `Picker.pick`, `Picker.flushRecents` — picks and the recently used emoji;
* `Picker.enterSearch`, `Picker.exitSearch`, `Picker.query`, `Picker.choose` — search;
* `Picker.changeLocale`, `Picker.requestDownload`, `Picker.completeDownload`, `Picker.clearCache` —
  the dictionary;
* `Picker.setKeys`, `Picker.setIncognito`, `Picker.takeDirty` — the rest.
-/

namespace EmojiPicker

structure PickerOptions where
  incognito : Bool
  searchTabVisible : Bool
  exitSearchOnPick : Bool
  animations : Bool
  /-- Where dictionaries are published; none disables downloads. -/
  dictionaryAddress : Option String
  deriving DecidableEq, Repr

structure Picker (σ : Type) where
  navigation : Navigation
  index : SearchIndex
  search : SearchSession
  dictionaries : Lifecycle σ
  options : PickerOptions
  locale : String
  visible : Bool
  /-- Whether the recently used emoji changed since they were saved. -/
  recentsDirty : Bool
  /-- What was displayed, the latest first. -/
  display : List ViewEvent

namespace Picker

variable {σ : Type}

def new (navigation : Navigation) (store : σ) (options : PickerOptions) : Picker σ where
  navigation := navigation
  index := {}
  search := { exitOnPick := options.exitSearchOnPick }
  dictionaries := { store := store }
  options := options
  locale := ""
  visible := false
  recentsDirty := false
  display := []

/-! ## The display -/

def emit (p : Picker σ) (event : ViewEvent) : Picker σ :=
  { p with display := event :: p.display }

def notify (p : Picker σ) (notice : Notice) : Picker σ :=
  p.emit (.notice notice)

def tabs (p : Picker σ) : List Tab :=
  p.navigation.tabs p.options.searchTabVisible

def currentTab (p : Picker σ) : Tab :=
  if p.search.active then .search else .category p.navigation.cursor.category

def renderTabs (p : Picker σ) : Picker σ :=
  p.emit (.tabs p.tabs p.currentTab)

/-- Displays the current page and an indicator that rests on it. -/
def renderPage (p : Picker σ) (animate : Bool) : Picker σ :=
  let ⟨category, page⟩ := p.navigation.cursor
  let p := p.emit (.page category page (p.navigation.pageKeys category page) animate)
  p.emit (.indicator ⟨p.navigation.currentPageCount, page, .zero⟩)

def renderSearch (p : Picker σ) : Picker σ :=
  p.emit (.search (p.search.surface p.dictionaries.isReady))

def render (p : Picker σ) : Picker σ :=
  let p := p.renderTabs
  if p.search.active then p.renderSearch else p.renderPage false

/-! ## The recently used emoji -/

def applyPending (p : Picker σ) : Picker σ :=
  let (changed, recents) := p.navigation.recents.flushPending
  { p with
    navigation := p.navigation.withRecents recents
    recentsDirty := p.recentsDirty || changed }

/-- Makes the buffered picks show and repairs pages and cursor, and where the cursor had to go. The
picks come first, so that their category keeps its pages meanwhile. -/
def settle (p : Picker σ) : Option CategoryChange × Picker σ :=
  let p := p.applyPending
  let (redirect, navigation) := p.navigation.invalidate
  (redirect, { p with navigation := navigation })

def renderChange (p : Picker σ) (change : CategoryChange) : Picker σ :=
  p.renderTabs.renderPage change.animate

/-- Makes the buffered picks show, in the background of another change: the display follows a
redirect of the cursor, and a redirect away from the recently used emoji finds the buffer empty. -/
def flushRecents (p : Picker σ) : Picker σ :=
  match p.settle with
  | (none, p) => p
  | (some change, p) => if p.visible && ! p.search.active then p.renderChange change else p

def applyChange (p : Picker σ) (change : CategoryChange) : Picker σ :=
  -- The buffer ends before the new tab strip is displayed, which may depend on it.
  let p := if change.previous.isRecents && ! change.current.isRecents then p.flushRecents else p
  p.renderChange change

/-- Records a pick. While the recently used emoji are current it is buffered, so that they do not
move under the finger; otherwise it shows at once. -/
def record (p : Picker σ) (key : String) : Picker σ :=
  if p.navigation.isInRecents then
    { p with navigation := p.navigation.withRecents (p.navigation.recents.addPending key) }
  else
    match p.navigation.recents.addFirst key with
    | (false, _) => p
    | (true, recents) =>
        let tabsBefore := p.tabs
        let (_, navigation) := (p.navigation.withRecents recents).invalidate
        let p := { p with navigation := navigation, recentsDirty := true }
        -- The page on the screen is of another category, so the tab strip alone can change.
        if p.visible && ! p.search.active && tabsBefore != p.tabs then p.renderTabs else p

/-- A picked emoji: it goes into the text, and is recorded unless picks are not to be. -/
def pick (p : Picker σ) (key : String) : Picker σ :=
  let p := p.emit (.commit key)
  if p.options.incognito then p else p.record key

/-! ## Visibility -/

def leaveSearch (p : Picker σ) : Picker σ :=
  { p with search := p.search.exit.2 }

/-- The picker goes off the screen: search mode ends and the buffered picks show. -/
def hide (p : Picker σ) : Picker σ :=
  flushRecents { p.leaveSearch with visible := false }

def stop (p : Picker σ) : Picker σ :=
  p.hide

/-! ## Navigation -/

/-- Makes a category the current one, out of search mode if need be. -/
def selectCategory (p : Picker σ) (id : CategoryId) (animate : Bool) : Picker σ :=
  let searching := p.search.active
  let p := p.leaveSearch
  match p.navigation.select id animate with
  | (some change, navigation) => applyChange { p with navigation := navigation } change
  | (none, _) => if searching then p.render else p

def enterSearch (p : Picker σ) : Picker σ :=
  if p.options.searchTabVisible && ! p.search.active then
    render { p with search := p.search.enter }
  else
    p

def clickTab (p : Picker σ) : Tab → Picker σ
  | .search => p.enterSearch
  | .category id => p.selectCategory id p.options.animations

def swipe (p : Picker σ) (position : Nat) : Picker σ :=
  match p.navigation.categoryAt position with
  | some id => p.selectCategory id false
  | none => p

def scroll (p : Picker σ) (report : ScrollReport) : Picker σ :=
  match p.navigation.scroll report with
  | (some progress, navigation) => { p with navigation := navigation }.emit (.indicator progress)
  | (none, _) => p

def leave (p : Picker σ) (id : CategoryId) : Picker σ :=
  if id.isRecents then p.flushRecents else p

/-! ## Search -/

def exitSearch (p : Picker σ) : Picker σ :=
  if p.search.active then p.leaveSearch.render else p

def query (p : Picker σ) (text : String) : Picker σ :=
  match p.search.query p.index p.navigation p.dictionaries.current? text with
  | (true, search, index) => { p with search := search, index := index }.renderSearch
  | (false, _, _) => p

/-- Searches anew for the last query, if search mode is on, and displays what it finds. -/
def refreshSearch (p : Picker σ) : Picker σ :=
  if p.search.active then
    let (search, index) := p.search.refresh p.index p.navigation p.dictionaries.current?
    { p with search := search, index := index }.renderSearch
  else
    p

def choose (p : Picker σ) (key : String) : Picker σ :=
  let p := p.pick key
  match p.search.choose with
  | (true, search) => { p with search := search }.render
  | (false, _) => p

def find (p : Picker σ) (text : String) : List String × Picker σ :=
  let (keys, index) := p.index.search p.navigation p.dictionaries.current? text
  (keys, { p with index := index })

def describe? (p : Picker σ) (key : String) : Option String :=
  p.dictionaries.current?.bind (·.description? key)

/-! ## The dictionary -/

/-- Asks for the dictionary of the locale in use; the request to run is given back. -/
def requestDownload (p : Picker σ) : Option DownloadRequest × Picker σ :=
  match p.options.dictionaryAddress with
  | none => (none, p.notify .downloadUnavailable)
  | some base => (some (.forLocale base p.locale), p.notify (.downloadStarted p.locale))

def clearCache (p : Picker σ) : Picker σ :=
  refreshSearch { p with
    dictionaries := p.dictionaries.close
    index := p.index.invalidate }

/-! ## Keys, switches and saving -/

def setKeys (p : Picker σ) (id : CategoryId) (keys : List String) : Except Failure (Picker σ) := do
  let navigation ← p.navigation.setKeys id keys
  let (redirect, navigation) := navigation.invalidate
  let p := { p with navigation := navigation, index := p.index.invalidate }
  -- An open search is not repeated for the new keys.
  if p.visible && ! p.search.active then
    match redirect with
    | some change => return p.applyChange change
    | none => return p.render
  else
    return p

def setIncognito (p : Picker σ) (on : Bool) : Picker σ :=
  { p with options := { p.options with incognito := on } }

/-- Whether the recently used emoji have to be saved; from now on they count as saved. -/
def takeDirty (p : Picker σ) : Bool × Picker σ :=
  (p.recentsDirty, { p with recentsDirty := false })

/-! ## Locale and downloads -/

variable [DictionaryStore σ]

def useLocale (p : Picker σ) (locale : String) : Picker σ :=
  let tag := Locale.normalize locale
  { p with locale := tag, dictionaries := p.dictionaries.ensure tag }

def start (p : Picker σ) (locale : String) : Picker σ :=
  let p := { p.useLocale locale with visible := true }
  -- A selection of the current category counts the first time only.
  let (_, navigation) := p.navigation.select p.navigation.cursor.category false
  render { p with navigation := navigation }

def changeLocale (p : Picker σ) (locale : String) : Picker σ :=
  (p.useLocale locale).refreshSearch

/-- A download delivers its outcome. One for a locale that is no longer in use changes nothing. -/
def completeDownload (p : Picker σ) (outcome : DownloadOutcome) : Picker σ :=
  match outcome.result with
  | .error reason =>
      if Locale.normalize outcome.locale == p.locale then
        p.notify (.installFailed outcome.locale reason)
      else
        p
  | .ok bytes =>
      match p.dictionaries.install bytes outcome.locale with
      | (.ok (.installed _), dictionaries) =>
          let p := { p with dictionaries := dictionaries }
          (p.notify (.dictionaryInstalled (Locale.normalize outcome.locale))).refreshSearch
      | (.ok (.discarded _), dictionaries) => { p with dictionaries := dictionaries }
      | (.error failure, dictionaries) =>
          { p with dictionaries := dictionaries }.notify
            (.installFailed outcome.locale failure.message)

end Picker
end EmojiPicker

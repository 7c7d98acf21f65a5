import EmojiPicker.Picker
import EmojiPicker.Text.Numeral

/-!
# Settings

The settings file: lines `key = value`, with comments.

* `Settings` — all settings, with their defaults;
* `SettingsField`, `SettingsField.ofName?` — the fields and the names they go by;
* `Setting`, `Setting.ofLine?` — one field with its value, and the one that a line sets;
* `Settings.apply`, `Settings.parse` — settings changed by one line and by a text;
* `Settings.pageOptions`, `Settings.pickerOptions` — what the parts of the picker take from them.
-/

namespace EmojiPicker

structure Settings where
  locale : String := "en"
  pageCapacity : Nat := PageOptions.defaultPageCapacity
  recentsCapacity : Nat := Recents.defaultCapacity
  recentsAlwaysVisible : Bool := true
  searchTabVisible : Bool := true
  exitSearchOnPick : Bool := false
  incognito : Bool := false
  animations : Bool := true
  dictionaryAddress : Option String := none
  catalogPath : Option Path := none
  deriving DecidableEq, Repr

/-! ## Fields -/

inductive SettingsField where
  | locale
  | pageCapacity
  | recentsCapacity
  | recentsAlwaysVisible
  | searchTabVisible
  | exitSearchOnPick
  | incognito
  | animations
  | dictionaryAddress
  | catalogPath
  deriving DecidableEq, Repr

inductive Setting where
  | locale (value : String)
  | pageCapacity (value : Nat)
  | recentsCapacity (value : Nat)
  | recentsAlwaysVisible (value : Bool)
  | searchTabVisible (value : Bool)
  | exitSearchOnPick (value : Bool)
  | incognito (value : Bool)
  | animations (value : Bool)
  | dictionaryAddress (value : Option String)
  | catalogPath (value : Option Path)
  deriving DecidableEq, Repr

namespace SettingsField

/-- A dot, a hyphen and a space count as an underscore. -/
def underscore (c : Char) : Char :=
  if c == '.' || c == '-' || c == ' ' then '_' else c

/-- A key as fields are called: in lower case, with underscores. -/
def normalizeKey (key : List Char) : String :=
  String.ofList ((Text.lowercase (Text.trim key)).map underscore)

def ofName? : String → Option SettingsField
  | "locale" => some .locale
  | "language" => some .locale
  | "page_capacity" => some .pageCapacity
  | "keys_per_page" => some .pageCapacity
  | "recents_capacity" => some .recentsCapacity
  | "max_recents" => some .recentsCapacity
  | "recents_always_visible" => some .recentsAlwaysVisible
  | "search_tab_visible" => some .searchTabVisible
  | "show_search_tab" => some .searchTabVisible
  | "exit_search_on_pick" => some .exitSearchOnPick
  | "incognito" => some .incognito
  | "animations" => some .animations
  | "animate" => some .animations
  | "dictionary_url" => some .dictionaryAddress
  | "catalog_path" => some .catalogPath
  | "catalog" => some .catalogPath
  | _ => none

/-- A value without the comment behind it: what follows `//`, and what follows the first `#` that
does not begin the value. -/
def dropComment (value : List Char) : List Char :=
  match Text.upTo ['/', '/'] value with
  | '#' :: rest => Text.trim ('#' :: Text.upTo ['#'] rest)
  | rest => Text.trim (Text.upTo ['#'] rest)

/-- An address without the comment behind it. Addresses hold slashes and may hold `#`, so only a
space and `#` begin a comment. -/
def dropAddressComment (value : List Char) : List Char :=
  Text.trim (Text.upTo [' ', '#'] value)

def switch? (value : List Char) : Option Bool :=
  match String.ofList (value.map Char.toLower) with
  | "true" => some true
  | "1" => some true
  | "yes" => some true
  | "on" => some true
  | "false" => some false
  | "0" => some false
  | "no" => some false
  | "off" => some false
  | _ => none

def positive? (value : List Char) : Option Nat :=
  (Numeral.count? Numeral.pageSize value).filter (0 < ·)

def nonempty? (value : List Char) : Option String :=
  if value.isEmpty then none else some (String.ofList value)

/-- The setting of a field by the text behind the equals sign, if that is valid. An empty text
clears the address and the catalog. -/
def read? (field : SettingsField) (text : List Char) : Option Setting :=
  match field with
  | .locale => (nonempty? (dropComment text)).map .locale
  | .pageCapacity => (positive? (dropComment text)).map .pageCapacity
  | .recentsCapacity => (positive? (dropComment text)).map .recentsCapacity
  | .recentsAlwaysVisible => (switch? (dropComment text)).map .recentsAlwaysVisible
  | .searchTabVisible => (switch? (dropComment text)).map .searchTabVisible
  | .exitSearchOnPick => (switch? (dropComment text)).map .exitSearchOnPick
  | .incognito => (switch? (dropComment text)).map .incognito
  | .animations => (switch? (dropComment text)).map .animations
  | .dictionaryAddress => some (.dictionaryAddress (nonempty? (dropAddressComment text)))
  | .catalogPath => some (.catalogPath ((nonempty? (dropComment text)).map Path.mk))

end SettingsField

/-! ## Lines -/

namespace Setting

def isComment (line : List Char) : Bool :=
  ['#'].isPrefixOf line || ['/', '/'].isPrefixOf line

/-- The setting of a line: a known key, an equals sign and a valid value. Every other line sets
nothing. -/
def ofLine? (line : List Char) : Option Setting := do
  let line := Text.trim line
  if isComment line then
    none
  else
    let (key, value) ← Text.splitOnce? '=' line
    let field ← SettingsField.ofName? (SettingsField.normalizeKey key)
    field.read? (Text.trim value)

end Setting

namespace Settings

def apply (s : Settings) : Setting → Settings
  | .locale value => { s with locale := value }
  | .pageCapacity value => { s with pageCapacity := value }
  | .recentsCapacity value => { s with recentsCapacity := value }
  | .recentsAlwaysVisible value => { s with recentsAlwaysVisible := value }
  | .searchTabVisible value => { s with searchTabVisible := value }
  | .exitSearchOnPick value => { s with exitSearchOnPick := value }
  | .incognito value => { s with incognito := value }
  | .animations value => { s with animations := value }
  | .dictionaryAddress value => { s with dictionaryAddress := value }
  | .catalogPath value => { s with catalogPath := value }

def applyLine (s : Settings) (line : List Char) : Settings :=
  match Setting.ofLine? line with
  | some setting => s.apply setting
  | none => s

def parse (s : Settings) (text : List Char) : Settings :=
  (Text.lines text).foldl applyLine s

/-! ## What the settings mean -/

def pageOptions (s : Settings) : PageOptions :=
  .ofCapacity s.pageCapacity s.recentsAlwaysVisible

def pickerOptions (s : Settings) : PickerOptions where
  incognito := s.incognito
  searchTabVisible := s.searchTabVisible
  exitSearchOnPick := s.exitSearchOnPick
  animations := s.animations
  dictionaryAddress := s.dictionaryAddress

def picker {σ : Type} (s : Settings) (catalog : Catalog) (recents : List String) (store : σ) :
    Picker σ :=
  -- More keys than the settings allow are cut here, and not when the file is read.
  let recents := (Recents.empty s.recentsCapacity).restore recents
  .new (.ofCatalog catalog recents s.pageOptions) store s.pickerOptions

end Settings
end EmojiPicker

import EmojiPicker.View

/-!
# The console

The display as text: one line for each change.

* `CategoryNames`, `CategoryNames.ofCatalog` — the names that are printed beside numbers;
* `Console.render` — the text of a change;
* `Console.print` — the text of some changes, each with its line end.
-/

namespace EmojiPicker

/-- Names of categories. The first entry of a number counts. -/
abbrev CategoryNames := List (CategoryId × String)

/-- The names of a catalog's categories, and that of the recently used emoji. Of two categories with
one number the later one gives the name. -/
def CategoryNames.ofCatalog (catalog : Catalog) : CategoryNames :=
  (.recents, "recents") :: catalog.categories.reverse.map fun d => (d.id, d.name)

namespace Console

def label (names : CategoryNames) (id : CategoryId) : String :=
  match names.lookup id with
  | some name => s!"{name}({id})"
  | none => toString id

def spaced (texts : List String) : String :=
  " ".intercalate texts

/-- A tab of the strip; the highlighted one stands in brackets. -/
def tabLabel (names : CategoryNames) (current tab : Tab) : String :=
  let text := match tab with
    | .search => "search"
    | .category id => label names id
  if tab == current then s!"[{text}]" else text

def surfaceText : SearchSurface → String
  | .offer => "search: no emoji dictionary for this locale; type `download` to fetch one"
  | .results [] => "results: (none)"
  | .results keys => s!"results: {spaced keys}"

def render (names : CategoryNames) : ViewEvent → String
  | .tabs tabs current => s!"tabs: {spaced (tabs.map (tabLabel names current))}"
  | .page category page keys animate =>
      let suffix := if animate then " (animated)" else ""
      s!"page {label names category} #{page}{suffix}: {spaced keys}"
  | .indicator progress =>
      s!"indicator: {progress.wholePage}/{progress.pageCount} +{progress.fraction.render}"
  | .search surface => surfaceText surface
  | .commit key => s!"commit: {key}"
  | .notice notice => s!"notice: {notice.message}"
  | .message text => text

def print (names : CategoryNames) (events : List ViewEvent) : String :=
  String.join (events.map fun event => render names event ++ "\n")

end Console
end EmojiPicker

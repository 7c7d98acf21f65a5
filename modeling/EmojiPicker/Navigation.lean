import EmojiPicker.Failure
import EmojiPicker.Recents

/-!
# Navigation

Categories, their pages, and where the user is.

* `Category`, `Cursor`, `Tab`, `CategoryChange`, `PageOptions` — the vocabulary;
* `Navigation` — all categories with their keys, and the cursor;
* `Navigation.shown`, `Navigation.tabs`, `Navigation.tabIndex`, `Navigation.categoryAt` — what can
  be navigated to;
* `Navigation.select`, `Navigation.setPage` — the user moves;
* `Navigation.setKeys`, `Navigation.invalidate` — the keys change, and pages and cursor follow;
* `Navigation.pageKeys`, `Navigation.allKeys` — the keys of a page, and of all categories.

A category is shown when it has pages; the recently used emoji may also be shown without any.
-/

namespace EmojiPicker

/-! ## Vocabulary -/

structure Category where
  id : CategoryId
  name : String
  /-- Its place in display order; the recently used emoji come first, at 0. -/
  displayOrder : Nat
  pageCount : Nat
  deriving DecidableEq, Repr

structure Cursor where
  category : CategoryId
  page : Nat
  deriving DecidableEq, Repr

inductive Tab where
  | search
  | category (id : CategoryId)
  deriving DecidableEq, Repr

structure CategoryChange where
  previous : CategoryId
  current : CategoryId
  animate : Bool
  /-- Whether this was the first selection. -/
  initial : Bool
  deriving DecidableEq, Repr

structure PageOptions where
  pageCapacity : Nat
  pageCapacity_pos : 0 < pageCapacity
  recentsAlwaysVisible : Bool

namespace PageOptions

def defaultPageCapacity : Nat := 32

theorem max_one_pos (capacity : Nat) : 0 < max 1 capacity := by omega

/-- Pages of at least one key. -/
def ofCapacity (capacity : Nat) (recentsAlwaysVisible : Bool) : PageOptions where
  pageCapacity := max 1 capacity
  pageCapacity_pos := max_one_pos capacity
  recentsAlwaysVisible := recentsAlwaysVisible

/-- The number of pages for some keys: the last page may be short, and there is no empty one. -/
def pagesFor (options : PageOptions) (keys : Nat) : Nat :=
  (keys + options.pageCapacity - 1) / options.pageCapacity

end PageOptions

structure Navigation where
  categories : List Category
  /-- The keys of the other categories. The first entry of a number counts. -/
  keys : List (CategoryId × List String)
  recents : Recents
  options : PageOptions
  cursor : Cursor
  /-- The page of each category to come back to. -/
  remembered : List (CategoryId × Nat)
  initialized : Bool

namespace Navigation

/-! ## What is shown -/

def keysOf (n : Navigation) (id : CategoryId) : List String :=
  if id.isRecents then n.recents.visible else (n.keys.lookup id).getD []

def category? (n : Navigation) (id : CategoryId) : Option Category :=
  n.categories.find? (·.id == id)

def isVisible (n : Navigation) (c : Category) : Bool :=
  0 < c.pageCount || (c.id.isRecents && n.options.recentsAlwaysVisible)

def shown (n : Navigation) : List Category :=
  n.categories.filter n.isVisible

def isShown (n : Navigation) (id : CategoryId) : Bool :=
  (n.category? id).any n.isVisible

def tabs (n : Navigation) (withSearch : Bool) : List Tab :=
  (if withSearch then [.search] else []) ++ n.shown.map (.category ·.id)

def tabIndex (n : Navigation) (id : CategoryId) : Except Failure Nat :=
  match n.shown.findIdx? (·.id == id) with
  | some index => .ok index
  | none => .error (.categoryNotFound id)

def categoryAt (n : Navigation) (index : Nat) : Option CategoryId :=
  n.shown[index]?.map (·.id)

def pageCount (n : Navigation) (id : CategoryId) : Nat :=
  ((n.category? id).map (·.pageCount)).getD 0

def currentPageCount (n : Navigation) : Nat :=
  n.pageCount n.cursor.category

/-- The page of a category that is nearest to the wanted one; 0 if there is none. -/
def clampPage (n : Navigation) (id : CategoryId) (page : Nat) : Nat :=
  min page (n.pageCount id - 1)

def isInRecents (n : Navigation) : Bool :=
  n.cursor.category.isRecents

/-! ## Keys -/

/-- The keys on a page; none beyond the last page. -/
def pageKeys (n : Navigation) (id : CategoryId) (page : Nat) : List String :=
  ((n.keysOf id).drop (page * n.options.pageCapacity)).take n.options.pageCapacity

/-- The keys of all categories but the recently used emoji, in display order. -/
def allKeys (n : Navigation) : List String :=
  (n.categories.filter (! ·.id.isRecents)).flatMap fun c => n.keysOf c.id

def recount (n : Navigation) : Navigation :=
  { n with categories := n.categories.map fun c =>
      { c with pageCount := n.options.pagesFor (n.keysOf c.id).length } }

/-! ## Beginning -/

/-- The category to begin with: the recently used emoji if there are any, otherwise the first other
category that is shown, otherwise the first that is shown. -/
def initialCategory (n : Navigation) : CategoryId :=
  if ! n.recents.visible.isEmpty then
    .recents
  else
    match n.shown.find? (! ·.id.isRecents) with
    | some c => c.id
    | none => (n.shown.head?.map (·.id)).getD .recents

def numberFrom (order : Nat) : List CategoryDefinition → List Category
  | [] => []
  | d :: rest => ⟨d.id, d.name, order, 0⟩ :: numberFrom (order + 1) rest

/-- Navigation over a catalog, before the first selection. Of two categories with one number the
later one gives the keys. -/
def ofCatalog (catalog : Catalog) (recents : Recents) (options : PageOptions) : Navigation :=
  -- The keys are listed in reverse, so that look-ups find the latest.
  let n : Navigation := recount
    { categories := ⟨.recents, "recents", 0, 0⟩ :: numberFrom 1 catalog.categories
      keys := catalog.categories.reverse.map fun d => (d.id, d.keys)
      recents := recents
      options := options
      cursor := ⟨.recents, 0⟩
      remembered := []
      initialized := false }
  { n with cursor := ⟨n.initialCategory, 0⟩ }

/-! ## Moving -/

def remember (n : Navigation) (id : CategoryId) (page : Nat) : Navigation :=
  { n with remembered := (id, page) :: n.remembered.filter (·.1 != id) }

def rememberedPage (n : Navigation) (id : CategoryId) : Nat :=
  (n.remembered.lookup id).getD 0

/-- Makes a category the current one, at the page where it was left. Nothing happens if it is not
shown, or if it is current and was selected before. -/
def select (n : Navigation) (id : CategoryId) (animate : Bool) :
    Option CategoryChange × Navigation :=
  if ! n.isShown id || (n.initialized && id == n.cursor.category) then
    (none, n)
  else
    let previous := n.cursor.category
    -- The page is remembered first: the very first selection may enter the category that it leaves.
    let left := n.remember previous n.cursor.page
    let entered :=
      { left with
        cursor := ⟨id, left.clampPage id (left.rememberedPage id)⟩
        initialized := true }
    (some ⟨previous, id, animate && n.initialized, ! n.initialized⟩, entered)

/-- Goes to a page of the current category; a page out of range gives way to the nearest one. -/
def setPage (n : Navigation) (page : Int) : Navigation :=
  { n with cursor := { n.cursor with page := n.clampPage n.cursor.category page.toNat } }

/-! ## Following the keys -/

/-- Replaces the keys of a category. The recently used emoji have no keys of this kind. -/
def setKeys (n : Navigation) (id : CategoryId) (keys : List String) :
    Except Failure Navigation :=
  if n.keys.any (·.1 == id) then
    .ok { n with keys := n.keys.map fun entry => if entry.1 == id then (id, keys) else entry }
  else
    .error (.categoryNotFound id)

/-- The shown category nearest to a place in display order: the next one, otherwise the one
before. -/
def nearestShown (n : Navigation) (order : Nat) : Option CategoryId :=
  match n.shown.find? (order < ·.displayOrder) with
  | some c => some c.id
  | none => (n.shown.reverse.find? (·.displayOrder < order)).map (·.id)

/-- Where the cursor has to go because its category is not shown. -/
def redirection? (n : Navigation) : Option CategoryId :=
  if n.isShown n.cursor.category then
    none
  else
    n.nearestShown (((n.category? n.cursor.category).map (·.displayOrder)).getD 0)

/-- Counts the pages anew and repairs the cursor: off a category that is not shown any more, which
will be entered at its first page again, and onto a page that exists. -/
def invalidate (n : Navigation) : Option CategoryChange × Navigation :=
  let n := n.recount
  match n.redirection? with
  | none => (none, n.setPage n.cursor.page)
  | some target =>
      let previous := n.cursor.category
      let n := n.remember previous 0
      let n := { n with cursor := ⟨target, n.rememberedPage target⟩ }
      -- The remembered page may lie beyond the pages that are left.
      (some ⟨previous, target, false, false⟩, n.setPage n.cursor.page)

/-- Changes the recently used emoji; pages and cursor do not follow. -/
def withRecents (n : Navigation) (recents : Recents) : Navigation :=
  { n with recents := recents }

end Navigation
end EmojiPicker

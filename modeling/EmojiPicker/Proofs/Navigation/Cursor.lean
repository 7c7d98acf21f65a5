import EmojiPicker.Proofs.Navigation.Moves
import Mathlib.Data.List.Nodup

/-!
# Where the cursor is

The cursor is on a category that can be navigated to and on a page that exists, whatever happens.

* `NavigationEvent`, `Navigation.react`, `Navigation.run` — all that can happen to navigation;
* `Navigation.ids_run` — the categories stay the same;
* `Navigation.Arranged` — categories in display order, with equal counts for equal numbers;
* `Navigation.Placed` — what holds of the cursor between events;
* `Navigation.Arranged.redirection_cases`, `Navigation.Arranged.invalidate` — a repair finds a shown
  category if there is one;
* `Navigation.Placed.react`, `Navigation.cursor_placed` — every event and every run.

The counts that `Placed` speaks of are the stored ones. They may lag behind the keys, which only a
repair reads.
-/

namespace EmojiPicker

/-! ## Runs -/

/-- What happens to navigation. New keys and new recently used emoji need not be followed by a
repair. -/
inductive NavigationEvent where
  | select (id : CategoryId) (animate : Bool)
  | setPage (page : Int)
  | setKeys (id : CategoryId) (keys : List String)
  | setRecents (recents : Recents)
  | invalidate
  | scroll (report : ScrollReport)

namespace Navigation

variable {n : Navigation} {c d : Category} {id : CategoryId} {order : Nat}

/-- Navigation after an event. Keys that are refused change nothing. -/
def react (n : Navigation) : NavigationEvent → Navigation
  | .select id animate => (n.select id animate).2
  | .setPage page => n.setPage page
  | .setKeys id keys =>
      match n.setKeys id keys with
      | .ok changed => changed
      | .error _ => n
  | .setRecents recents => n.withRecents recents
  | .invalidate => n.invalidate.2
  | .scroll report => (n.scroll report).2

/-- Navigation after some events. -/
def run (n : Navigation) (events : List NavigationEvent) : Navigation :=
  events.foldl react n

/-- New keys change nothing but the keys, and refused ones not even these. -/
theorem react_setKeys (n : Navigation) (id : CategoryId) (keys : List String) :
    ∃ replaced, n.react (.setKeys id keys) = { n with keys := replaced } := by
  rw [react]
  split
  · next accepted => exact setKeys_eq accepted
  · exact ⟨n.keys, rfl⟩

/-- The categories stay the same, whatever happens to their pages and keys. -/
theorem ids_react (n : Navigation) (event : NavigationEvent) : (n.react event).ids = n.ids := by
  cases event with
  | select id animate => exact (n.sameKeys_select id animate).ids
  | setPage page => rfl
  | setKeys id keys =>
      rcases n.react_setKeys id keys with ⟨replaced, changed⟩
      rw [changed]
      rfl
  | setRecents recents => rfl
  | invalidate => exact n.invalidate_ids
  | scroll report => exact (n.sameKeys_scroll report).ids

theorem ids_run (n : Navigation) (events : List NavigationEvent) : (n.run events).ids = n.ids := by
  induction events generalizing n with
  | nil => rfl
  | cons event rest ih => exact (ih (n.react event)).trans (n.ids_react event)

theorem run_concat (n : Navigation) (events : List NavigationEvent) (event : NavigationEvent) :
    n.run (events ++ [event]) = (n.run events).react event := by
  simp [run, List.foldl_append]

/-! ## Categories -/

/-- A page that a category has; the first one where it has none. -/
def OnPage (n : Navigation) (id : CategoryId) (page : Nat) : Prop :=
  page < n.pageCount id ∨ (page = 0 ∧ n.pageCount id = 0)

theorem onPage_zero (n : Navigation) (id : CategoryId) : n.OnPage id 0 := by
  rw [OnPage]
  omega

theorem onPage_clampPage (n : Navigation) (id : CategoryId) (page : Nat) :
    n.OnPage id (n.clampPage id page) := by
  rw [OnPage, clampPage]
  omega

/-- The categories stand in display order. Two with one number have the same count. -/
structure Arranged (n : Navigation) : Prop where
  ordered : n.categories.Pairwise (·.displayOrder < ·.displayOrder)
  even : ∀ c ∈ n.categories, ∀ d ∈ n.categories, c.id = d.id → c.pageCount = d.pageCount

theorem Arranged.nodup_places (arranged : n.Arranged) :
    (n.categories.map (·.displayOrder)).Nodup :=
  List.pairwise_map.2 (arranged.ordered.imp Nat.ne_of_lt)

theorem category?_of_mem (known : id ∈ n.ids) :
    ∃ c ∈ n.categories, c.id = id ∧ n.category? id = some c := by
  rcases List.mem_map.1 known with ⟨d, hd, rfl⟩
  cases found : n.category? d.id with
  | none =>
      have other := List.find?_eq_none.1 found d hd
      exact absurd other (by simp)
  | some c =>
      have same : c.id = d.id := by simpa using List.find?_some found
      exact ⟨c, List.mem_of_find?_eq_some found, same, rfl⟩

theorem mem_ids (hc : c ∈ n.categories) : c.id ∈ n.ids :=
  List.mem_map_of_mem hc

theorem mem_shown_iff : c ∈ n.shown ↔ c ∈ n.categories ∧ n.isVisible c = true := by
  rw [shown, List.mem_filter]

/-- Look-ups find the first category of a number, but the count is that of them all. -/
theorem Arranged.pageCount_eq (arranged : n.Arranged) (hc : c ∈ n.categories) :
    n.pageCount c.id = c.pageCount := by
  rcases category?_of_mem (mem_ids hc) with ⟨d, hd, same, found⟩
  rw [pageCount, found]
  exact arranged.even d hd c hc same

theorem Arranged.isShown_eq (arranged : n.Arranged) (hc : c ∈ n.categories) :
    n.isShown c.id = n.isVisible c := by
  rcases category?_of_mem (mem_ids hc) with ⟨d, hd, same, found⟩
  rw [isShown, found, Option.any_some, isVisible, isVisible, same, arranged.even d hd c hc same]

theorem Arranged.isShown_iff (arranged : n.Arranged) :
    n.isShown id = true ↔ ∃ c ∈ n.shown, c.id = id := by
  constructor
  · intro shown
    rw [isShown, Option.any_eq_true] at shown
    rcases shown with ⟨c, found, visible⟩
    have same : c.id = id := by simpa using List.find?_some found
    exact ⟨c, mem_shown_iff.2 ⟨List.mem_of_find?_eq_some found, visible⟩, same⟩
  · rintro ⟨c, hc, rfl⟩
    rcases mem_shown_iff.1 hc with ⟨known, visible⟩
    rw [arranged.isShown_eq known]
    exact visible

theorem Arranged.known_of_isShown (arranged : n.Arranged) (shown : n.isShown id = true) :
    id ∈ n.ids := by
  rcases arranged.isShown_iff.1 shown with ⟨c, hc, rfl⟩
  exact mem_ids (mem_shown_iff.1 hc).1

/-- Whatever the counts were, counting makes them equal for equal numbers. -/
theorem arranged_recount (ordered : n.categories.Pairwise (·.displayOrder < ·.displayOrder)) :
    n.recount.Arranged where
  ordered := List.pairwise_map.2 ordered
  even := by
    intro c hc d hd same
    rcases List.mem_map.1 hc with ⟨a, _, rfl⟩
    rcases List.mem_map.1 hd with ⟨b, _, rfl⟩
    have same : a.id = b.id := same
    simp only [same]

/-! ## Redirects -/

theorem mem_of_nearestShown (found : n.nearestShown order = some id) : ∃ c ∈ n.shown, c.id = id := by
  rw [nearestShown] at found
  split at found
  · next c later =>
      exact ⟨c, List.mem_of_find?_eq_some later, Option.some.inj found⟩
  · rcases Option.map_eq_some_iff.1 found with ⟨c, earlier, same⟩
    exact ⟨c, List.mem_reverse.1 (List.mem_of_find?_eq_some earlier), same⟩

/-- Of the shown categories each comes before the place or after it. -/
theorem shown_of_nearestShown (missing : n.nearestShown order = none)
    (apart : ∀ c ∈ n.shown, c.displayOrder ≠ order) : n.shown = [] := by
  rw [nearestShown] at missing
  split at missing
  · exact absurd missing (by simp)
  · next noLater =>
      have noEarlier := Option.map_eq_none_iff.1 missing
      rw [List.eq_nil_iff_forall_not_mem]
      intro c hc
      have notAfter := List.find?_eq_none.1 noLater c hc
      have notBefore := List.find?_eq_none.1 noEarlier c (List.mem_reverse.2 hc)
      simp only [decide_eq_true_eq] at notAfter notBefore
      have := apart c hc
      omega

/-- A category at the place of a hidden one is that one, and therefore hidden as well. -/
theorem Arranged.apart_of_hidden (arranged : n.Arranged) (hidden : n.isShown id = false)
    (hd : d ∈ n.categories) (same : d.id = id) :
    ∀ c ∈ n.shown, c.displayOrder ≠ d.displayOrder := by
  intro c hc place
  rcases mem_shown_iff.1 hc with ⟨known, visible⟩
  have equal : c = d := List.inj_on_of_nodup_map arranged.nodup_places known hd place
  rw [← same, ← equal, arranged.isShown_eq known, visible] at hidden
  exact absurd hidden (by simp)

/-- A redirect leads from a hidden category to a shown one, and there is one if it can lead anywhere. -/
theorem Arranged.redirection_cases (arranged : n.Arranged) (known : n.cursor.category ∈ n.ids) :
    (n.redirection? = none ∧ (n.shown ≠ [] → n.isShown n.cursor.category = true)) ∨
      ∃ target, n.redirection? = some target ∧ n.isShown n.cursor.category = false ∧
        n.isShown target = true := by
  rw [redirection?]
  cases shown : n.isShown n.cursor.category with
  | true => exact Or.inl ⟨rfl, fun _ => rfl⟩
  | false =>
      rcases category?_of_mem known with ⟨d, hd, same, found⟩
      have apart := arranged.apart_of_hidden shown hd same
      rw [found]
      change (n.nearestShown d.displayOrder = none ∧ _) ∨
        ∃ target, n.nearestShown d.displayOrder = some target ∧ _
      cases nearest : n.nearestShown d.displayOrder with
      | none =>
          refine Or.inl ⟨rfl, ?_⟩
          intro some
          exact absurd (shown_of_nearestShown nearest apart) some
      | some target =>
          exact Or.inr ⟨target, rfl, rfl, arranged.isShown_iff.2 (mem_of_nearestShown nearest)⟩

/-! ## The cursor -/

/-- The cursor is on a category of the catalog and on a page of it, and on a shown category if there
is one. -/
structure Placed (n : Navigation) : Prop extends Arranged n where
  known : n.cursor.category ∈ n.ids
  onPage : n.OnPage n.cursor.category n.cursor.page
  shown : n.shown ≠ [] → n.isShown n.cursor.category = true

/-- The page of the cursor, for each category that has the number of its own. -/
theorem Placed.inRange (placed : n.Placed) (hc : c ∈ n.categories)
    (current : c.id = n.cursor.category) :
    n.cursor.page < c.pageCount ∨ (n.cursor.page = 0 ∧ c.pageCount = 0) := by
  have onPage := placed.onPage
  rw [OnPage, ← current, placed.pageCount_eq hc] at onPage
  exact onPage

/-- Going to a page puts a cursor right that is on the right category. -/
theorem Arranged.setPage (arranged : n.Arranged) (known : n.cursor.category ∈ n.ids)
    (shown : n.shown ≠ [] → n.isShown n.cursor.category = true) (page : Int) :
    (n.setPage page).Placed where
  ordered := arranged.ordered
  even := arranged.even
  known := known
  onPage := n.onPage_clampPage n.cursor.category page.toNat
  shown := shown

/-- A repair puts the cursor right, whatever page it was on. -/
theorem invalidate_placed (ordered : n.categories.Pairwise (·.displayOrder < ·.displayOrder))
    (known : n.cursor.category ∈ n.ids) : n.invalidate.2.Placed := by
  have arranged := arranged_recount ordered
  have counted := known_recount known
  rcases arranged.redirection_cases counted with ⟨stays, shown⟩ | ⟨target, moves, _, shown⟩
  · rw [invalidate_of_stays stays]
    exact arranged.setPage counted shown _
  · rw [invalidate_of_redirection moves]
    exact
      { ordered := arranged.ordered
        even := arranged.even
        known := arranged.known_of_isShown shown
        onPage := n.recount.onPage_clampPage target _
        shown := fun _ => shown }

theorem Placed.select (placed : n.Placed) (id : CategoryId) (animate : Bool) :
    (n.select id animate).2.Placed := by
  rw [Navigation.select]
  split
  · exact placed
  · next enters =>
      have shown : n.isShown id = true := by
        by_contra hidden
        exact enters (by simp [hidden])
      exact
        { ordered := placed.ordered
          even := placed.even
          known := placed.known_of_isShown shown
          onPage := n.onPage_clampPage id _
          shown := fun _ => shown }

theorem Placed.scroll (placed : n.Placed) (report : ScrollReport) : (n.scroll report).2.Placed := by
  rw [Navigation.scroll]
  split
  · exact placed
  · exact placed.toArranged.setPage placed.known placed.shown _

/-- New keys change neither the counts nor the cursor. -/
theorem Placed.withKeys (placed : n.Placed) (keys : List (CategoryId × List String)) :
    { n with keys := keys }.Placed :=
  ⟨⟨placed.ordered, placed.even⟩, placed.known, placed.onPage, placed.shown⟩

theorem Placed.setKeys {m : Navigation} {keys : List String} (placed : n.Placed)
    (accepted : n.setKeys id keys = .ok m) : m.Placed := by
  rcases setKeys_eq accepted with ⟨replaced, rfl⟩
  exact placed.withKeys replaced

theorem Placed.withRecents (placed : n.Placed) (recents : Recents) :
    (n.withRecents recents).Placed :=
  ⟨⟨placed.ordered, placed.even⟩, placed.known, placed.onPage, placed.shown⟩

theorem Placed.react (placed : n.Placed) (event : NavigationEvent) : (n.react event).Placed := by
  cases event with
  | select id animate => exact placed.select id animate
  | setPage page => exact placed.toArranged.setPage placed.known placed.shown page
  | setKeys id keys =>
      rcases n.react_setKeys id keys with ⟨replaced, changed⟩
      rw [changed]
      exact placed.withKeys replaced
  | setRecents recents => exact placed.withRecents recents
  | invalidate => exact invalidate_placed placed.ordered placed.known
  | scroll report => exact placed.scroll report

theorem Placed.run (placed : n.Placed) (events : List NavigationEvent) : (n.run events).Placed := by
  induction events generalizing n with
  | nil => exact placed
  | cons event rest ih => exact ih (placed.react event)

/-! ## The beginning -/

theorem numberFrom_ordered (first : Nat) (definitions : List CategoryDefinition) :
    (numberFrom first definitions).Pairwise (·.displayOrder < ·.displayOrder) ∧
      ∀ c ∈ numberFrom first definitions, first ≤ c.displayOrder := by
  induction definitions generalizing first with
  | nil => simp [numberFrom]
  | cons d rest ih =>
      rcases ih (first + 1) with ⟨ordered, later⟩
      rw [numberFrom]
      refine ⟨List.pairwise_cons.2 ⟨?_, ordered⟩, ?_⟩
      · intro c hc
        exact later c hc
      · intro c hc
        rcases List.mem_cons.1 hc with rfl | hc
        · exact Nat.le_refl first
        · exact Nat.le_of_succ_le (later c hc)

theorem pagesFor_pos (options : PageOptions) {keys : Nat} (some : 0 < keys) :
    0 < options.pagesFor keys := by
  have := options.pageCapacity_pos
  exact Nat.div_pos (by omega) this

/-- The category to begin with is shown, or none is. -/
theorem initialCategory_cases (arranged : n.Arranged) (known : CategoryId.recents ∈ n.ids)
    (counted : n.pageCount .recents = n.options.pagesFor n.recents.visible.length) :
    n.initialCategory ∈ n.ids ∧ (n.shown ≠ [] → n.isShown n.initialCategory = true) := by
  have reached : ∀ c ∈ n.shown, c.id ∈ n.ids ∧ (n.shown ≠ [] → n.isShown c.id = true) := by
    intro c hc
    exact ⟨mem_ids (mem_shown_iff.1 hc).1, fun _ => arranged.isShown_iff.2 ⟨c, hc, rfl⟩⟩
  rw [initialCategory]
  split
  · next used =>
      refine ⟨known, fun _ => ?_⟩
      have some : 0 < n.recents.visible.length := by
        simpa [List.length_pos_iff] using used
      rcases category?_of_mem known with ⟨c, hc, same, _⟩
      rw [← same] at counted ⊢
      rw [arranged.isShown_eq hc, isVisible, ← arranged.pageCount_eq hc, counted]
      simp [pagesFor_pos n.options some]
  · split
    · next c found => exact reached c (List.mem_of_find?_eq_some found)
    · cases first : n.shown with
      | nil => exact ⟨known, fun some => absurd rfl some⟩
      | cons c rest =>
          rw [first] at reached
          exact reached c (by simp)

/-- Navigation over a catalog, before the pages are counted. -/
def uncounted (catalog : Catalog) (recents : Recents) (options : PageOptions) : Navigation where
  categories := ⟨.recents, "recents", 0, 0⟩ :: numberFrom 1 catalog.categories
  keys := catalog.categories.reverse.map fun d => (d.id, d.keys)
  recents := recents
  options := options
  cursor := ⟨.recents, 0⟩
  remembered := []
  initialized := false

theorem ofCatalog_eq (catalog : Catalog) (recents : Recents) (options : PageOptions) :
    let first := (uncounted catalog recents options).recount
    ofCatalog catalog recents options = { first with cursor := ⟨first.initialCategory, 0⟩ } := rfl

theorem placed_ofCatalog (catalog : Catalog) (recents : Recents) (options : PageOptions) :
    (ofCatalog catalog recents options).Placed := by
  let first := (uncounted catalog recents options).recount
  have later := numberFrom_ordered 1 catalog.categories
  have arranged : first.Arranged := arranged_recount (List.pairwise_cons.2 ⟨later.2, later.1⟩)
  have known : CategoryId.recents ∈ first.ids := List.mem_cons_self
  rcases initialCategory_cases arranged known rfl with ⟨begun, shown⟩
  rw [ofCatalog_eq]
  exact ⟨⟨arranged.ordered, arranged.even⟩, begun, first.onPage_zero _, shown⟩

theorem placed_run (catalog : Catalog) (recents : Recents) (options : PageOptions)
    (events : List NavigationEvent) : ((ofCatalog catalog recents options).run events).Placed :=
  (placed_ofCatalog catalog recents options).run events

/-- The cursor is always where it can be: after every run of events, over every catalog, also one that
uses a number twice or that of the recently used emoji, and with new keys that no repair has followed,

* its category is one of the categories;
* its page is below the count of that category, or 0 where the count is 0;
* its category is shown if any is. -/
theorem cursor_placed (catalog : Catalog) (recents : Recents) (options : PageOptions)
    (events : List NavigationEvent) :
    let n := (ofCatalog catalog recents options).run events
    (∃ c ∈ n.categories, c.id = n.cursor.category) ∧
      (∀ c ∈ n.categories, c.id = n.cursor.category →
        n.cursor.page < c.pageCount ∨ (n.cursor.page = 0 ∧ c.pageCount = 0)) ∧
      (n.shown ≠ [] → n.isShown n.cursor.category = true) := by
  intro n
  have placed : n.Placed := (placed_ofCatalog catalog recents options).run events
  exact ⟨List.mem_map.1 placed.known, fun c hc current => placed.inRange hc current, placed.shown⟩

/-- Two categories with one number, one with the number of the recently used emoji. A page is left,
the keys behind it go away, and then so do those of the category that was entered instead. -/
theorem cursor_placed_shrunk :
    let catalog : Catalog := ⟨[⟨⟨1⟩, "smileys", ["😀"]⟩, ⟨⟨1⟩, "faces", ["😉", "😊", "😇"]⟩,
      ⟨.recents, "latest", ["🐶"]⟩, ⟨⟨2⟩, "food", ["🍏"]⟩]⟩
    let n := (ofCatalog catalog (.empty 2) (.ofCapacity 1 false)).run
      [.select ⟨1⟩ true, .setPage 9, .select ⟨2⟩ true, .setKeys ⟨1⟩ ["😊", "😇"], .setKeys ⟨2⟩ [],
        .invalidate]
    (⟨⟨1⟩, "smileys", 1, 2⟩ ∈ n.categories ∧ n.cursor.category = ⟨1⟩ ∧ n.shown ≠ []) ∧
      (n.cursor.page < 2 ∨ (n.cursor.page = 0 ∧ 2 = 0)) ∧ n.isShown n.cursor.category = true := by
  intro catalog n
  have law := cursor_placed catalog (.empty 2) (.ofCapacity 1 false)
    [.select ⟨1⟩ true, .setPage 9, .select ⟨2⟩ true, .setKeys ⟨1⟩ ["😊", "😇"], .setKeys ⟨2⟩ [],
      .invalidate]
  -- The run of the law is the one here.
  extract_lets at law
  rcases law with ⟨_, onPage, shown⟩
  have listed : ⟨⟨1⟩, "smileys", 1, 2⟩ ∈ n.categories := by decide +kernel
  have current : n.cursor.category = ⟨1⟩ := by decide +kernel
  have some : n.shown ≠ [] := by decide +kernel
  exact ⟨⟨listed, current, some⟩, onPage _ listed current.symm, shown some⟩

end Navigation
end EmojiPicker

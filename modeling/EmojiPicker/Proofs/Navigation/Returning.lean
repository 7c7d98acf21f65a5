import EmojiPicker.Proofs.Navigation.Cursor

/-!
# Coming back to a page

A category is entered at the page where the user left it, as far as there still is such a page.

* `Navigation.change?` — the change of category that an event brings;
* `Departure`, `Navigation.departures` — what a run has left, read off the changes and the cursor;
* `pageToReturnTo` — the page to come back to, by the last departure from a category;
* `Navigation.Enters`, `Navigation.change_cases` — all that an event does to the category of the cursor
  and to what is remembered, for a selection and a redirect alike;
* `Navigation.Recalls` — what is remembered is what the departures say;
* `Navigation.Recalls.react`, `Navigation.entered_where_left` — every event and every run.

The departures are read off the cursor and the reported changes alone, not off what navigation keeps.
The very first selection may enter the category that it leaves; it counts as a departure before it
counts as an arrival. The pages that a category has are those counted last, which may lag behind its keys
when it is entered by a selection; a redirect has just counted them.
-/

namespace EmojiPicker

/-! ## Departures -/

/-- A category was left, by a selection or by a redirect, when the cursor was on a page of it. -/
structure Departure where
  category : CategoryId
  page : Nat
  redirected : Bool
  deriving DecidableEq, Repr

/-- Where to come back to after a departure: the page that was left, or the first one if the category
had to be left because it was not shown any more. -/
def Departure.pageBack (d : Departure) : Nat :=
  if d.redirected then 0 else d.page

/-- Where to come back to after some departures, the latest at the end: the last one from the category
decides, and a category that was never left begins at its first page. -/
def pageToReturnTo (departures : List Departure) (id : CategoryId) : Nat :=
  match departures.reverse.find? (·.category == id) with
  | some d => d.pageBack
  | none => 0

theorem pageToReturnTo_concat (departures : List Departure) (d : Departure) (id : CategoryId) :
    pageToReturnTo (departures ++ [d]) id =
      if id = d.category then d.pageBack else pageToReturnTo departures id := by
  rw [pageToReturnTo, pageToReturnTo, List.reverse_append, List.reverse_singleton,
    List.singleton_append, List.find?_cons]
  by_cases same : id = d.category
  · rw [if_pos same, beq_iff_eq.2 same.symm]
  · rw [if_neg same, beq_false_of_ne (Ne.symm same)]

/-- Repairs redirect. The user does not. -/
def NavigationEvent.redirects : NavigationEvent → Bool
  | .invalidate => true
  | .select _ _ | .setPage _ | .setKeys _ _ | .setRecents _ | .scroll _ => false

namespace Navigation

variable {n m : Navigation} {change : CategoryChange} {id : CategoryId}

/-- The change of category that an event brings. Only selections and repairs bring one. -/
def change? (n : Navigation) : NavigationEvent → Option CategoryChange
  | .select id animate => (n.select id animate).1
  | .invalidate => n.invalidate.1
  | .setPage _ | .setKeys _ _ | .setRecents _ | .scroll _ => none

/-- What an event leaves, if it changes the category. -/
def departure? (n : Navigation) (event : NavigationEvent) : Option Departure :=
  (n.change? event).map fun change => ⟨change.previous, n.cursor.page, event.redirects⟩

/-- What some events leave, in their order. -/
def departures (n : Navigation) : List NavigationEvent → List Departure
  | [] => []
  | event :: rest => (n.departure? event).toList ++ (n.react event).departures rest

/-! ## What is remembered -/

theorem rememberedPage_remember (n : Navigation) (id other : CategoryId) (page : Nat) :
    (n.remember id page).rememberedPage other =
      if other = id then page else n.rememberedPage other := by
  rw [rememberedPage, remember, List.lookup_cons]
  by_cases same : other = id
  · rw [if_pos same, beq_iff_eq.2 same]
    rfl
  · rw [if_neg same, beq_false_of_ne same, rememberedPage]
    -- The entries that are dropped are those of the other category.
    induction n.remembered with
    | nil => rfl
    | cons entry rest ih =>
        by_cases dropped : entry.1 = id
        · have apart : (other == entry.1) = false := beq_false_of_ne (dropped ▸ same)
          rw [List.filter_cons_of_neg (by simpa using dropped), List.lookup_cons, apart]
          exact ih
        · rw [List.filter_cons_of_pos (by simpa using dropped), List.lookup_cons, List.lookup_cons]
          cases other == entry.1 with
          | true => rfl
          | false => exact ih

/-! ## What events do -/

/-- A category is entered from another, which is remembered with a page. The page entered is the one
remembered for the new category, or its last one if there are fewer. -/
structure Enters (n m : Navigation) (change : CategoryChange) (page : Nat) : Prop where
  previous : change.previous = n.cursor.category
  cursor : m.cursor =
    ⟨change.current, min (m.rememberedPage change.current) (m.pageCount change.current - 1)⟩
  remembered : ∀ id, m.rememberedPage id =
    if id = change.previous then page else n.rememberedPage id

/-- A selection leaves the category of the cursor at the page of the cursor. -/
theorem select_enters (n : Navigation) {animate : Bool}
    (moved : (n.select id animate).1 = some change) :
    n.Enters (n.select id animate).2 change n.cursor.page := by
  rw [select] at moved ⊢
  split at moved
  · exact absurd moved (by simp)
  · next enters =>
      rw [if_neg enters, ← Option.some.inj moved]
      exact ⟨rfl, rfl, fun other => n.rememberedPage_remember _ other _⟩

/-- A redirect leaves the category of the cursor for its first page. -/
theorem invalidate_enters (n : Navigation) (moved : n.invalidate.1 = some change) :
    n.Enters n.invalidate.2 change 0 := by
  cases redirected : n.recount.redirection? with
  | none =>
      rw [invalidate_of_stays redirected] at moved
      exact absurd moved (by simp)
  | some target =>
      rw [invalidate_of_redirection redirected] at moved ⊢
      rw [← Option.some.inj moved]
      exact ⟨rfl, rfl, fun other => n.recount.rememberedPage_remember _ other 0⟩

/-- An event changes neither the category of the cursor nor what is remembered, or it enters a category
from another, which is remembered as its departure says. -/
theorem change_cases (n : Navigation) (event : NavigationEvent) :
    (n.change? event = none ∧ (n.react event).cursor.category = n.cursor.category ∧
        (n.react event).remembered = n.remembered) ∨
      ∃ change d, n.change? event = some change ∧ n.departure? event = some d ∧
        d.category = change.previous ∧ n.Enters (n.react event) change d.pageBack := by
  cases event with
  | select id animate =>
      cases moved : n.change? (.select id animate) with
      | none =>
          have still : (n.select id animate).2 = n := n.select_eq_of_none (Prod.ext moved rfl)
          refine Or.inl ⟨rfl, congrArg (·.cursor.category) still, congrArg (·.remembered) still⟩
      | some change =>
          have left : n.departure? (.select id animate) =
              some ⟨change.previous, n.cursor.page, false⟩ := congrArg (Option.map _) moved
          exact Or.inr ⟨change, _, rfl, left, rfl, n.select_enters moved⟩
  | invalidate =>
      cases moved : n.change? .invalidate with
      | none =>
          rcases n.invalidate_cases with ⟨page, stays⟩ | ⟨target, page, remembered, goes⟩
          · refine Or.inl ⟨rfl, ?_, ?_⟩
            · rw [react, stays]
            · rw [react, stays]
              rfl
          · rw [change?, goes] at moved
            exact absurd moved (by simp)
      | some change =>
          have left : n.departure? .invalidate = some ⟨change.previous, n.cursor.page, true⟩ :=
            congrArg (Option.map _) moved
          exact Or.inr ⟨change, _, rfl, left, rfl, n.invalidate_enters moved⟩
  | setPage page => exact Or.inl ⟨rfl, rfl, rfl⟩
  | setRecents recents => exact Or.inl ⟨rfl, rfl, rfl⟩
  | setKeys id keys =>
      rcases n.react_setKeys id keys with ⟨replaced, changed⟩
      rw [changed]
      exact Or.inl ⟨rfl, rfl, rfl⟩
  | scroll report =>
      refine Or.inl ⟨rfl, ?_⟩
      rw [react]
      rcases n.scroll_cases report with still | ⟨progress, page, turned⟩
      · rw [still]
        exact ⟨rfl, rfl⟩
      · rw [turned]
        exact ⟨rfl, rfl⟩

/-! ## Runs -/

/-- The page remembered for each category is the one that some departures say. -/
def Recalls (n : Navigation) (departures : List Departure) : Prop :=
  ∀ id, n.rememberedPage id = pageToReturnTo departures id

theorem Recalls.react {past : List Departure} (recalls : n.Recalls past) (event : NavigationEvent) :
    (n.react event).Recalls (past ++ (n.departure? event).toList) := by
  intro id
  rcases n.change_cases event with ⟨still, _, same⟩ | ⟨change, d, _, departs, left, enters⟩
  · rw [departure?, still, Option.map_none, Option.toList_none, List.append_nil, rememberedPage, same]
    exact recalls id
  · rw [departs, Option.toList_some, pageToReturnTo_concat, enters.remembered id, left, recalls id]

theorem Recalls.run {past : List Departure} (recalls : n.Recalls past)
    (events : List NavigationEvent) : (n.run events).Recalls (past ++ n.departures events) := by
  induction events generalizing n past with
  | nil =>
      rw [departures, List.append_nil]
      exact recalls
  | cons event rest ih =>
      rw [departures, ← List.append_assoc]
      exact ih (recalls.react event)

/-- At the beginning nothing is remembered, and nothing was left. -/
theorem recalls_ofCatalog (catalog : Catalog) (recents : Recents) (options : PageOptions) :
    (ofCatalog catalog recents options).Recalls [] :=
  fun _ => rfl

/-- Pages are remembered. In every run, over every catalog, an event that brings no change of category
leaves the cursor on its category; and whenever the cursor enters a category, by a selection or by a
redirect, it goes to the page where it was when the category was last left by a selection, or to the
first page if the category was never left or was last left by a redirect, lowered to the last page that
the category has at that moment. -/
theorem entered_where_left (catalog : Catalog) (recents : Recents) (options : PageOptions)
    (events : List NavigationEvent) (event : NavigationEvent) :
    let first := ofCatalog catalog recents options
    let n := first.run events
    let m := first.run (events ++ [event])
    (n.change? event = none → m.cursor.category = n.cursor.category) ∧
      ∀ change, n.change? event = some change →
        change.previous = n.cursor.category ∧
          m.cursor = ⟨change.current,
            min (pageToReturnTo (first.departures (events ++ [event])) change.current)
              (m.pageCount change.current - 1)⟩ := by
  intro first n m
  have step : m = n.react event := first.run_concat events event
  have recalls : m.Recalls (first.departures (events ++ [event])) :=
    (recalls_ofCatalog catalog recents options).run (events ++ [event])
  rcases n.change_cases event with ⟨still, stays, _⟩ | ⟨change, d, reported, _, _, enters⟩
  · refine ⟨fun _ => step ▸ stays, ?_⟩
    intro change moved
    exact absurd (still.symm.trans moved) (by simp)
  · refine ⟨fun still => absurd (reported.symm.trans still) (by simp), ?_⟩
    intro other moved
    have same : change = other := Option.some.inj (reported.symm.trans moved)
    rw [← step, same] at enters
    refine ⟨enters.previous, ?_⟩
    rw [← recalls other.current]
    exact enters.cursor

/-- The third page of a category is left, the category loses a key, and a redirect off the other one,
which lost all of its keys, comes back to what is now the last page. -/
theorem entered_where_left_redirected :
    let catalog : Catalog :=
      ⟨[⟨⟨1⟩, "animals", ["🐶", "🐱"]⟩, ⟨⟨2⟩, "food", ["🍏", "🍎", "🍐"]⟩]⟩
    let first := ofCatalog catalog (.empty 8) (.ofCapacity 1 true)
    let events : List NavigationEvent :=
      [.select ⟨2⟩ true, .setPage 2, .select ⟨1⟩ true, .setPage 1, .setKeys ⟨2⟩ ["🍏", "🍎"],
        .setKeys ⟨1⟩ []]
    (first.run events).change? .invalidate = some ⟨⟨1⟩, ⟨2⟩, false, false⟩ ∧
      pageToReturnTo (first.departures (events ++ [.invalidate])) ⟨2⟩ = 2 ∧
      (first.run (events ++ [.invalidate])).cursor = ⟨⟨2⟩, 1⟩ := by
  intro catalog first events
  have moved : (first.run events).change? .invalidate = some ⟨⟨1⟩, ⟨2⟩, false, false⟩ := by
    decide +kernel
  have left : pageToReturnTo (first.departures (events ++ [.invalidate])) ⟨2⟩ = 2 := by
    decide +kernel
  have pages : (first.run (events ++ [.invalidate])).pageCount ⟨2⟩ = 2 := by
    decide +kernel
  have law := entered_where_left catalog (.empty 8) (.ofCapacity 1 true) events .invalidate
  extract_lets at law
  have entered := (law.2 _ moved).2
  rw [left, pages] at entered
  exact ⟨moved, left, entered⟩

end Navigation
end EmojiPicker

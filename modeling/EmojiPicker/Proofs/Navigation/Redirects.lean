import EmojiPicker.Proofs.Catalog.Acceptance
import EmojiPicker.Proofs.Navigation.Pages

/-!
# Redirects

A repair leaves a category that is not shown any more for the nearest one that is, and settles at once.

* `Navigation.Nearest` — the shown category nearest to a place in display order;
* `Navigation.Arranged.nearestShown_spec` — a search forward and then backward finds it;
* `Navigation.invalidate_redirects_iff`, `Navigation.invalidate_stays_iff` — when a repair redirects, and
  that it leaves its category only then;
* `Navigation.Placed.invalidate_nearest` — where it then goes;
* `Navigation.Placed.invalidate_eq` — where pages are counted and the cursor is placed, a repair has
  nothing to do;
* `Navigation.redirected_to_nearest` — every repair after every run.

Repairs ask what is shown after they have counted the pages, so that any number of categories may have
vanished or appeared since the last repair.
-/

namespace EmojiPicker
namespace Navigation

variable {n : Navigation} {c : Category} {id : CategoryId} {order : Nat}

/-! ## The nearest category -/

/-- In a sorted list a search finds the first of all that it could find. -/
theorem first_of_find? {α : Type} {r : α → α → Prop} {p : α → Bool} {xs : List α} {x : α}
    (sorted : xs.Pairwise r) (found : xs.find? p = some x) :
    ∀ y ∈ xs, p y = true → y = x ∨ r x y := by
  rcases List.find?_eq_some_iff_append.1 found with ⟨_, before, after, split, missed⟩
  intro y hy fits
  rw [split] at hy sorted
  have later := (List.pairwise_cons.1 (List.pairwise_append.1 sorted).2.1).1
  rcases List.mem_append.1 hy with earlier | hy
  · exact absurd fits (by simpa using missed y earlier)
  · rcases List.mem_cons.1 hy with same | behind
    · exact Or.inl same
    · exact Or.inr (later y behind)

/-- A shown category is the nearest to a place: no shown one lies between, and it comes after the place
if any shown one does. -/
structure Nearest (n : Navigation) (order : Nat) (d : Category) : Prop where
  shown : d ∈ n.shown
  noneBetween : ∀ c ∈ n.shown,
    ¬ (order < c.displayOrder ∧ c.displayOrder < d.displayOrder) ∧
      ¬ (d.displayOrder < c.displayOrder ∧ c.displayOrder < order)
  forward : (∃ c ∈ n.shown, order < c.displayOrder) → order < d.displayOrder

theorem Arranged.shown_ordered (arranged : n.Arranged) :
    n.shown.Pairwise (·.displayOrder < ·.displayOrder) :=
  arranged.ordered.filter _

theorem Arranged.nearestShown_spec (arranged : n.Arranged)
    (found : n.nearestShown order = some id) : ∃ d, d.id = id ∧ n.Nearest order d := by
  rw [nearestShown] at found
  split at found
  · next d first =>
      -- The first one behind the place.
      have behind : order < d.displayOrder := by simpa using List.find?_some first
      have least := first_of_find? arranged.shown_ordered first
      refine ⟨d, Option.some.inj found, List.mem_of_find?_eq_some first, ?_, fun _ => behind⟩
      intro c hc
      refine ⟨?_, by omega⟩
      rintro ⟨after, before⟩
      rcases least c hc (by simpa using after) with rfl | later
      · omega
      · omega
  · next noneBehind =>
      -- None is behind the place, and the list backwards has the last one before it first.
      rcases Option.map_eq_some_iff.1 found with ⟨d, last, same⟩
      have before : d.displayOrder < order := by simpa using List.find?_some last
      have greatest := first_of_find? (List.pairwise_reverse.2 arranged.shown_ordered) last
      have hd : d ∈ n.shown := List.mem_reverse.1 (List.mem_of_find?_eq_some last)
      have notBehind : ∀ c ∈ n.shown, ¬ order < c.displayOrder := by
        intro c hc
        simpa using List.find?_eq_none.1 noneBehind c hc
      refine ⟨d, same, hd, ?_, ?_⟩
      · intro c hc
        refine ⟨by omega, ?_⟩
        rintro ⟨after, earlier⟩
        rcases greatest c (List.mem_reverse.2 hc) (by simpa using earlier) with rfl | previous
        · omega
        · omega
      · rintro ⟨c, hc, after⟩
        exact absurd after (notBehind c hc)

/-! ## What a redirect does -/

/-- Look-ups find a category whose number no other has. -/
theorem category?_of_nodup (once : n.ids.Nodup) (hc : c ∈ n.categories) :
    n.category? c.id = some c := by
  rcases category?_of_mem (mem_ids hc) with ⟨d, hd, same, found⟩
  have equal : d = c := List.inj_on_of_nodup_map once hd hc same
  exact equal ▸ found

theorem Arranged.redirection?_spec {target : CategoryId} (arranged : n.Arranged)
    (known : n.cursor.category ∈ n.ids) (moves : n.redirection? = some target) :
    ∃ old new, n.category? n.cursor.category = some old ∧ new.id = target ∧
      n.Nearest old.displayOrder new := by
  rcases category?_of_mem known with ⟨old, _, _, found⟩
  rw [redirection?, found] at moves
  split at moves
  · exact absurd moves (by simp)
  · rcases arranged.nearestShown_spec moves with ⟨new, same, nearest⟩
    exact ⟨old, new, found, same, nearest⟩

/-- A repair redirects exactly if the category of the cursor is not shown any more and another one is. -/
theorem invalidate_redirects_iff (ordered : n.categories.Pairwise (·.displayOrder < ·.displayOrder))
    (known : n.cursor.category ∈ n.ids) :
    (∃ change, n.invalidate.1 = some change) ↔
      n.recount.isShown n.cursor.category = false ∧
        ∃ id, id ≠ n.cursor.category ∧ n.recount.isShown id = true := by
  have arranged := arranged_recount ordered
  rcases arranged.redirection_cases (known_recount known) with
    ⟨stays, shown⟩ | ⟨target, moves, hidden, shown⟩
  · constructor
    · rintro ⟨change, moved⟩
      rw [invalidate_of_stays stays] at moved
      exact absurd moved (by simp)
    · -- A category that is shown would have been found.
      rintro ⟨hidden, id, _, other⟩
      rcases arranged.isShown_iff.1 other with ⟨c, hc, _⟩
      have here : n.recount.isShown n.cursor.category = true := shown (List.ne_nil_of_mem hc)
      exact absurd (hidden.symm.trans here) (by simp)
  · constructor
    · intro _
      refine ⟨hidden, target, ?_, shown⟩
      rintro rfl
      exact absurd (hidden.symm.trans shown) (by simp)
    · intro _
      exact ⟨_, congrArg Prod.fst (invalidate_of_redirection moves)⟩

/-- A redirect leads to another category. -/
theorem invalidate_stays_iff (ordered : n.categories.Pairwise (·.displayOrder < ·.displayOrder))
    (known : n.cursor.category ∈ n.ids) :
    n.invalidate.2.cursor.category = n.cursor.category ↔ n.invalidate.1 = none := by
  rcases (arranged_recount ordered).redirection_cases (known_recount known) with
    ⟨stays, _⟩ | ⟨target, moves, hidden, shown⟩
  · rw [invalidate_of_stays stays]
    exact iff_of_true rfl rfl
  · rw [invalidate_of_redirection moves]
    refine iff_of_false ?_ (by simp)
    rintro rfl
    exact absurd (hidden.symm.trans shown) (by simp)

/-! ## Where a redirect leads -/

/-- A repair shows what the count of pages shows. -/
theorem invalidate_categories (n : Navigation) :
    n.invalidate.2.shown = n.recount.shown ∧ n.invalidate.2.category? = n.recount.category? := by
  rcases n.invalidate_cases with ⟨page, stays⟩ | ⟨target, page, remembered, moves⟩
  · rw [stays]
    exact ⟨rfl, rfl⟩
  · rw [moves]
    exact ⟨rfl, rfl⟩

/-- The change that a repair reports leads from the category of the cursor to the nearest shown one. -/
theorem Placed.invalidate_nearest {change : CategoryChange} (placed : n.Placed)
    (moved : n.invalidate.1 = some change) :
    change = ⟨n.cursor.category, n.invalidate.2.cursor.category, false, false⟩ ∧
      ∃ old new, n.invalidate.2.category? n.cursor.category = some old ∧
        new.id = n.invalidate.2.cursor.category ∧ n.invalidate.2.Nearest old.displayOrder new := by
  cases redirected : n.recount.redirection? with
  | none =>
      rw [invalidate_of_stays redirected] at moved
      exact absurd moved (by simp)
  | some target =>
      have arranged := arranged_recount placed.ordered
      rcases arranged.redirection?_spec (known_recount placed.known) redirected with
        ⟨old, new, found, same, there, noneBetween, forward⟩
      have entered : n.invalidate.2.cursor.category = target :=
        congrArg (·.2.cursor.category) (invalidate_of_redirection redirected)
      -- The categories are those of the count.
      rcases n.invalidate_categories with ⟨shown, lookup⟩
      rw [← shown] at there noneBetween forward
      rw [invalidate_of_redirection redirected] at moved
      rw [← Option.some.inj moved, lookup, entered]
      exact ⟨rfl, old, new, found, same, ⟨there, noneBetween, forward⟩⟩

/-! ## Nothing left to repair -/

theorem Fresh.recount_eq (fresh : n.Fresh) : n.recount = n := by
  have same : ∀ c ∈ n.categories,
      { c with pageCount := n.options.pagesFor (n.keysOf c.id).length } = c := by
    intro c hc
    rw [← fresh c hc]
  rw [recount, List.map_congr_left same, List.map_id']

theorem Placed.setPage_eq (placed : n.Placed) : n.setPage n.cursor.page = n := by
  have page : n.clampPage n.cursor.category n.cursor.page = n.cursor.page := by
    have onPage := placed.onPage
    rw [OnPage] at onPage
    rw [clampPage]
    omega
  rw [setPage, Int.toNat_natCast, page]

theorem Placed.redirection?_eq_none (placed : n.Placed) : n.redirection? = none := by
  rcases placed.redirection_cases placed.known with ⟨stays, _⟩ | ⟨target, _, hidden, shown⟩
  · exact stays
  · -- What the redirect would lead to is shown, so that the cursor is on a shown category already.
    rcases placed.isShown_iff.1 shown with ⟨c, hc, _⟩
    have here := placed.shown (List.ne_nil_of_mem hc)
    exact absurd (hidden.symm.trans here) (by simp)

/-- With counted pages and a cursor that is where it can be, there is nothing to repair. -/
theorem Placed.invalidate_eq (placed : n.Placed) (fresh : n.Fresh) : n.invalidate = (none, n) := by
  have stays : n.recount.redirection? = none := by
    rw [fresh.recount_eq]
    exact placed.redirection?_eq_none
  rw [invalidate_of_stays stays, fresh.recount_eq, placed.setPage_eq]

/-! ## Every repair -/

/-- A redirect goes to the nearest shown category and settles at once. After every run over a catalog
whose numbers are distinct, with the pages counted anew,

* a repair reports a change exactly if the category of the cursor is not shown and some other one is;
* the category that the cursor then has is shown, no shown one lies between it and the old one in
  display order, and it comes after the old one if any shown one does;
* a repair right after that reports no change and leaves everything as it is. -/
theorem redirected_to_nearest {catalog : Catalog} (distinct : catalog.Distinct) (recents : Recents)
    (options : PageOptions) (events : List NavigationEvent) :
    let n := (ofCatalog catalog recents options).run events
    let m := n.invalidate.2
    ((∃ change, n.invalidate.1 = some change) ↔
        n.recount.isShown n.cursor.category = false ∧
          ∃ id, id ≠ n.cursor.category ∧ n.recount.isShown id = true) ∧
      (∀ change, n.invalidate.1 = some change →
        change.previous = n.cursor.category ∧ change.current = m.cursor.category ∧
          m.isShown m.cursor.category = true ∧
          ∃ old new, m.category? n.cursor.category = some old ∧
            m.category? m.cursor.category = some new ∧ m.Nearest old.displayOrder new) ∧
      m.invalidate = (none, m) := by
  intro n m
  have placed : n.Placed := placed_run catalog recents options events
  have repaired : m.Placed := placed.react .invalidate
  have once : m.ids.Nodup := by
    have kept : m.ids = n.ids := n.invalidate_ids
    rw [kept]
    exact distinct.nodup_ids recents options events
  refine ⟨invalidate_redirects_iff placed.ordered placed.known, ?_,
    repaired.invalidate_eq n.fresh_invalidate⟩
  intro change moved
  rcases placed.invalidate_nearest moved with ⟨rfl, old, new, found, current, nearest⟩
  refine ⟨rfl, rfl, repaired.isShown_iff.2 ⟨new, nearest.shown, current⟩, old, new, found, ?_, nearest⟩
  have named : m.category? new.id = some new :=
    category?_of_nodup once (mem_shown_iff.1 nearest.shown).1
  exact current ▸ named

/-- The cursor is on the third of four categories. It loses its keys, and so does the last one, so that
only those before it are left: the second is the nearest. -/
theorem redirected_to_nearest_backward :
    let catalog : Catalog :=
      ⟨[⟨⟨4⟩, "faces", ["😀"]⟩, ⟨⟨3⟩, "animals", ["🐶"]⟩, ⟨⟨2⟩, "food", ["🍏"]⟩,
        ⟨⟨1⟩, "flags", ["🏁"]⟩]⟩
    let events : List NavigationEvent := [.select ⟨2⟩ true, .setKeys ⟨2⟩ [], .setKeys ⟨1⟩ []]
    let n := (ofCatalog catalog (.empty 8) (.ofCapacity 4 false)).run events
    let m := n.invalidate.2
    catalog.Distinct ∧
      (n.invalidate.1 = some ⟨⟨2⟩, ⟨3⟩, false, false⟩ ∧ m.isShown ⟨3⟩ = true ∧
        m.Nearest 3 ⟨⟨3⟩, "animals", 2, 1⟩ ∧ m.invalidate = (none, m)) := by
  intro catalog events n m
  have distinct : catalog.Distinct := ⟨by decide +kernel, by decide +kernel⟩
  have law := redirected_to_nearest distinct (.empty 8) (.ofCapacity 4 false) events
  extract_lets at law
  rcases law with ⟨_, redirects, settled⟩
  have moved : n.invalidate.1 = some ⟨⟨2⟩, ⟨3⟩, false, false⟩ := by decide +kernel
  rcases redirects _ moved with ⟨_, entered, shown, old, new, left, found, nearest⟩
  rw [← entered] at shown found
  have place : m.category? n.cursor.category = some ⟨⟨2⟩, "food", 3, 0⟩ := by decide +kernel
  have target : m.category? ⟨3⟩ = some ⟨⟨3⟩, "animals", 2, 1⟩ := by decide +kernel
  have left : old = ⟨⟨2⟩, "food", 3, 0⟩ := Option.some.inj (left.symm.trans place)
  have found : new = ⟨⟨3⟩, "animals", 2, 1⟩ := Option.some.inj (found.symm.trans target)
  rw [left, found] at nearest
  exact ⟨distinct, moved, shown, nearest, settled⟩

end Navigation
end EmojiPicker

import EmojiPicker.Proofs.Catalog.Acceptance
import EmojiPicker.Proofs.Navigation.Pages

/-!
# Tabs and keys

Once pages are counted, the tabs depend on the keys alone.

* `Navigation.offers` — a category has keys, or is shown without any;
* `Navigation.Fresh.shown_ids`, `Navigation.Fresh.tabs_congr` — the tabs in closed form;
* `Navigation.Stocked` — some category always has keys, so that the cursor is on a shown one;
* `Navigation.invalidate_of_offers` — a repair leaves the category where it is shown.
-/

namespace EmojiPicker
namespace Navigation

variable {n m : Navigation} {c : Category} {id : CategoryId}

/-! ## What counted pages show -/

/-- A category has keys, or is shown without any. -/
def offers (n : Navigation) (id : CategoryId) : Bool :=
  ! (n.keysOf id).isEmpty || (id.isRecents && n.options.recentsAlwaysVisible)

theorem offers_of_keys (some : n.keysOf id ≠ []) : n.offers id = true := by
  simp [offers, some]

theorem Fresh.isVisible_eq (fresh : n.Fresh) (hc : c ∈ n.categories) :
    n.isVisible c = n.offers c.id := by
  have counted : decide (0 < c.pageCount) = ! (n.keysOf c.id).isEmpty := by
    rw [fresh c hc, Bool.eq_iff_iff, decide_eq_true_eq, Nat.pos_iff_ne_zero, ne_eq,
      PageOptions.pagesFor_eq_zero_iff, List.length_eq_zero_iff]
    simp
  rw [isVisible, offers, counted]

theorem Fresh.shown_ids (fresh : n.Fresh) : n.shown.map (·.id) = n.ids.filter n.offers := by
  rw [shown, ids, List.filter_map]
  congr 1
  apply List.filter_congr
  intro c hc
  exact fresh.isVisible_eq hc

theorem Fresh.isShown_eq (fresh : n.Fresh) (known : id ∈ n.ids) : n.isShown id = n.offers id := by
  rcases category?_of_mem known with ⟨c, hc, rfl, found⟩
  rw [isShown, found]
  exact fresh.isVisible_eq hc

theorem tabs_eq (n : Navigation) (withSearch : Bool) :
    n.tabs withSearch =
      (if withSearch then [.search] else []) ++ (n.shown.map (·.id)).map .category := by
  rw [tabs, List.map_map]
  rfl

/-- Categories that are shown in both give the same tabs. -/
theorem Fresh.tabs_congr (fresh : n.Fresh) (freshToo : m.Fresh) (ids : m.ids = n.ids)
    (same : ∀ id ∈ n.ids, m.offers id = n.offers id) (withSearch : Bool) :
    m.tabs withSearch = n.tabs withSearch := by
  rw [tabs_eq, tabs_eq, fresh.shown_ids, freshToo.shown_ids, ids, List.filter_congr same]

theorem Fresh.category_mem_tabs (fresh : n.Fresh) (known : id ∈ n.ids) (offered : n.offers id = true)
    (withSearch : Bool) : .category id ∈ n.tabs withSearch := by
  rw [tabs_eq, fresh.shown_ids]
  have there : id ∈ n.ids.filter n.offers := List.mem_filter.2 ⟨known, offered⟩
  exact List.mem_append_right _ (List.mem_map_of_mem there)

theorem SameKeys.offers (same : SameKeys n m) (id : CategoryId) : m.offers id = n.offers id := by
  rw [Navigation.offers, Navigation.offers, same.keysOf, same.options]

/-! ## Keys that stay -/

/-- Some category besides the recently used emoji has keys. -/
def Stocked (n : Navigation) : Prop :=
  ∃ id ∈ n.ids, id.isRecents = false ∧ n.keysOf id ≠ []

/-- The keys of the other categories do not depend on the recently used emoji. -/
theorem keysOf_congr (keys : m.keys = n.keys) (other : id.isRecents = false) :
    m.keysOf id = n.keysOf id := by
  rw [keysOf, keysOf, other, keys]
  rfl

theorem offers_congr (keys : m.keys = n.keys) (other : id.isRecents = false) :
    m.offers id = n.offers id := by
  rw [offers, offers, keysOf_congr keys other, other]
  rfl

/-- Recently used emoji that do not vanish stay shown, like all others. -/
theorem offers_withRecents {recents : Recents} (offered : n.offers id = true)
    (kept : n.recents.visible ≠ [] → recents.visible ≠ []) :
    (n.withRecents recents).offers id = true := by
  cases other : id.isRecents with
  | false =>
      have same : (n.withRecents recents).offers id = n.offers id := offers_congr rfl other
      exact same.trans offered
  | true =>
      -- They are offered for their keys, which stay some, or in any case.
      have visible : (n.withRecents recents).keysOf id = recents.visible := if_pos other
      rw [offers, Bool.or_eq_true] at offered ⊢
      refine offered.imp_left ?_
      rw [visible, keysOf, if_pos other]
      simpa using kept

theorem Stocked.congr (stocked : n.Stocked) (ids : m.ids = n.ids) (keys : m.keys = n.keys) :
    m.Stocked := by
  rcases stocked with ⟨id, known, other, some⟩
  exact ⟨id, ids ▸ known, other, by rwa [keysOf_congr keys other]⟩

theorem stocked_ofCatalog {catalog : Catalog} (accepted : catalog.fault? = none)
    (some : ∃ d ∈ catalog.categories, d.keys ≠ []) (recents : Recents) (options : PageOptions) :
    (ofCatalog catalog recents options).Stocked := by
  rcases some with ⟨d, hd, some⟩
  refine ⟨d.id, ?_, ((Catalog.fault?_eq_none_iff catalog).1 accepted).1 d hd, ?_⟩
  · rw [ids_ofCatalog]
    exact List.mem_cons_of_mem _ (List.mem_map_of_mem hd)
  · rw [keysOf_ofCatalog accepted hd]
    exact some

/-- The cursor is on a shown category, as there is one. -/
theorem Placed.offers_cursor (placed : n.Placed) (fresh : n.Fresh) (stocked : n.Stocked) :
    n.offers n.cursor.category = true := by
  rcases stocked with ⟨id, known, _, some⟩
  have listed : id ∈ n.shown.map (·.id) := by
    rw [fresh.shown_ids]
    exact List.mem_filter.2 ⟨known, offers_of_keys some⟩
  have shown : n.shown ≠ [] := by
    intro none
    rw [none] at listed
    exact absurd listed (by simp)
  rw [← fresh.isShown_eq placed.known]
  exact placed.shown shown

/-! ## Repairs without a redirect -/

/-- A repair stays on a category that is shown once pages are counted. -/
theorem invalidate_of_offers (known : n.cursor.category ∈ n.ids)
    (offered : n.offers n.cursor.category = true) :
    n.invalidate = (none, n.recount.setPage n.cursor.page) := by
  have counted := known_recount known
  have shown : n.recount.isShown n.recount.cursor.category = true := by
    rw [n.fresh_recount.isShown_eq counted]
    exact offered
  -- Whether a category is shown is asked after the count.
  have stays : n.recount.redirection? = none := by
    rw [redirection?]
    exact if_pos shown
  exact invalidate_of_stays stays

end Navigation
end EmojiPicker

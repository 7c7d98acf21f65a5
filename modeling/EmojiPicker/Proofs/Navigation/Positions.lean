import EmojiPicker.Proofs.Navigation.Tabs

/-!
# Positions of tabs

Over an accepted catalog the tabs and their positions name each other.

* `Navigation.nodup_shown`, `Navigation.nodup_tabs` — where no number is used twice, no tab is there
  twice;
* `Navigation.exists_tabIndex_iff` — what is shown has a position;
* `Navigation.categoryAt_of_tabIndex`, `Navigation.tabIndex_of_categoryAt` — the one look-up takes back
  what the other one found;
* `Navigation.accepted_positions` — which documents are accepted, what is said of the others, and the
  positions over the accepted ones.

The position of a category is searched by its number and the category at a position by the position,
both in the list of what is shown at the moment. Only distinct numbers make one the inverse of the
other.
-/

namespace EmojiPicker
namespace Navigation

variable {n : Navigation} {id : CategoryId} {index : Nat}

/-! ## Numbers of what is shown -/

theorem nodup_shown (once : n.ids.Nodup) : (n.shown.map (·.id)).Nodup := by
  have listed : n.shown.Sublist n.categories := List.filter_sublist
  exact (listed.map Category.id).nodup once

/-- The tab of the search is none of the tabs of categories, and these differ in their numbers. -/
theorem nodup_tabs (once : n.ids.Nodup) (withSearch : Bool) : (n.tabs withSearch).Nodup := by
  have apart : ((n.shown.map (·.id)).map Tab.category).Nodup :=
    (nodup_shown once).map fun _ _ same => Tab.category.inj same
  rw [tabs_eq]
  cases withSearch with
  | false => simpa using apart
  | true =>
      apply List.nodup_cons.2
      exact ⟨by simp, apart⟩

/-! ## Positions -/

theorem tabIndex_eq_ok_iff_findIdx? :
    n.tabIndex id = .ok index ↔ n.shown.findIdx? (·.id == id) = some index := by
  rw [tabIndex]
  cases n.shown.findIdx? (·.id == id) with
  | none => simp
  | some found => simp

theorem exists_tabIndex_iff :
    (∃ index, n.tabIndex id = .ok index) ↔ ∃ c ∈ n.shown, c.id = id := by
  simp only [tabIndex_eq_ok_iff_findIdx?]
  rw [← Option.isSome_iff_exists, List.findIdx?_isSome, List.any_eq_true]
  simp

/-- A category is found at its position. -/
theorem categoryAt_of_tabIndex (position : n.tabIndex id = .ok index) :
    n.categoryAt index = some id := by
  rcases List.findIdx?_eq_some_iff_getElem.1 (tabIndex_eq_ok_iff_findIdx?.1 position) with
    ⟨there, named, _⟩
  rw [categoryAt, List.getElem?_eq_getElem there, Option.map_some, eq_of_beq named]

/-- Where no number is used twice, a category is found at one position only. -/
theorem categoryAt_inj {other : Nat} (once : (n.shown.map (·.id)).Nodup)
    (found : n.categoryAt index = some id) (again : n.categoryAt other = some id) :
    index = other := by
  rw [categoryAt, ← List.getElem?_map] at found again
  have there : index < (n.shown.map (·.id)).length := (List.getElem?_eq_some_iff.1 found).1
  exact (List.getElem?_inj there once).1 (found.trans again.symm)

/-- A category that is found at a position has this position. -/
theorem tabIndex_of_categoryAt (once : (n.shown.map (·.id)).Nodup)
    (found : n.categoryAt index = some id) : n.tabIndex id = .ok index := by
  rcases Option.map_eq_some_iff.1 found with ⟨c, listed, named⟩
  rcases exists_tabIndex_iff.2 ⟨c, List.mem_of_getElem? listed, named⟩ with ⟨first, position⟩
  have same : first = index := categoryAt_inj once (categoryAt_of_tabIndex position) found
  exact same ▸ position

theorem exists_categoryAt (there : index < n.shown.length) : ∃ id, n.categoryAt index = some id :=
  ⟨n.shown[index].id, by rw [categoryAt, List.getElem?_eq_getElem there, Option.map_some]⟩

/-! ## Accepted catalogs -/

/-- Accepted catalogs give every tab its position. For every text and catalog,

* the text is accepted as the catalog exactly if it is a well-formed document of it, no category of it
  claims the number of the recently used emoji and no two have one number;
* a well-formed document that is not accepted is refused for the first category that claims the number of
  the recently used emoji or repeats an earlier one;
* after every run over an accepted catalog a category has a position exactly if it is shown, and is then
  found there; at every position below the number of the shown categories there is one that has this
  position; and no tab is listed twice. -/
theorem accepted_positions (text : List Char) (catalog : Catalog) :
    (Catalog.parse text = .ok catalog ↔ Catalog.Spells text catalog ∧ catalog.Distinct) ∧
      (Catalog.Spells text catalog → ¬ catalog.Distinct →
        ∃ before d after fault, catalog.categories = before ++ d :: after ∧
          Catalog.Distinct ⟨before⟩ ∧ FaultOf (before.map (·.id)) d fault ∧
          Catalog.parse text = .error (.catalog fault)) ∧
      (catalog.Distinct → ∀ recents options events,
        let n := (ofCatalog catalog recents options).run events
        (∀ id, (∃ index, n.tabIndex id = .ok index) ↔ n.isShown id = true) ∧
          (∀ id index, n.tabIndex id = .ok index → n.categoryAt index = some id) ∧
          (∀ index < n.shown.length,
            ∃ id, n.categoryAt index = some id ∧ n.tabIndex id = .ok index) ∧
          ∀ withSearch, (n.tabs withSearch).Nodup) := by
  refine ⟨?_, ?_, ?_⟩
  · rw [Catalog.parse_eq_ok_iff, Catalog.distinct_iff]
  · intro spelled unsound
    rcases Catalog.first_fault unsound with ⟨before, d, after, fault, split, sound, wrong, found⟩
    exact ⟨before, d, after, fault, split, sound, wrong, Catalog.parse_of_fault spelled found⟩
  · intro distinct recents options events n
    have placed : n.Placed := placed_run catalog recents options events
    have once : n.ids.Nodup := distinct.nodup_ids recents options events
    refine ⟨?_, ?_, ?_, nodup_tabs once⟩
    · intro id
      exact exists_tabIndex_iff.trans placed.isShown_iff.symm
    · intro id index position
      exact categoryAt_of_tabIndex position
    · intro index there
      rcases exists_categoryAt there with ⟨id, found⟩
      exact ⟨id, found, tabIndex_of_categoryAt (nodup_shown once) found⟩

/-- Two documents, one of them written in objects and the other one in arrays. Of the accepted one the
numbers do not ascend, and the second tab moves when the first category loses its keys. The other one is
refused for its third category, although the fourth one is at fault as well. -/
theorem accepted_positions_moved :
    let text := ("\x7b\"categories\": [\x7b\"id\": 9, \"name\": \"animals\", \"keys\": [\"🐶\"]\x7d, " ++
      "\x7b\"keys\": [\"😀\"], \"id\": 4, \"name\": \"faces\"\x7d]\x7d").toList
    let catalog : Catalog := ⟨[⟨⟨9⟩, "animals", ["🐶"]⟩, ⟨⟨4⟩, "faces", ["😀"]⟩]⟩
    let n := (ofCatalog catalog (.empty 8) (.ofCapacity 4 true)).run [.setKeys ⟨9⟩ [], .invalidate]
    let refused := "[[[9, \"a\"], [4, \"b\"], [9, \"c\"], [0, \"d\"]]]".toList
    let faulty : Catalog := ⟨[⟨⟨9⟩, "a", []⟩, ⟨⟨4⟩, "b", []⟩, ⟨⟨9⟩, "c", []⟩, ⟨⟨0⟩, "d", []⟩]⟩
    (Catalog.Spells text catalog ∧ catalog.Distinct ∧ Catalog.parse text = .ok catalog ∧
        n.tabIndex ⟨4⟩ = .ok 1 ∧ n.categoryAt 1 = some ⟨4⟩ ∧ (n.tabs true).Nodup) ∧
      Catalog.Spells refused faulty ∧ ¬ faulty.Distinct ∧
        ∃ before d after fault, faulty.categories = before ++ d :: after ∧
          Catalog.Distinct ⟨before⟩ ∧ FaultOf (before.map (·.id)) d fault ∧
          Catalog.parse refused = .error (.catalog fault) := by
  intro text catalog n refused faulty
  refine ⟨?_, ?_⟩
  · have spelled : Catalog.Spells text catalog := by
      rw [Catalog.Spells]
      decide +kernel
    have distinct : catalog.Distinct := ⟨by decide +kernel, by decide +kernel⟩
    rcases accepted_positions text catalog with ⟨accepted, _, positions⟩
    have law := positions distinct (.empty 8) (.ofCapacity 4 true) [.setKeys ⟨9⟩ [], .invalidate]
    extract_lets at law
    rcases law with ⟨_, found, _, apart⟩
    have position : n.tabIndex ⟨4⟩ = .ok 1 := tabIndex_eq_ok_iff_findIdx?.2 (by decide +kernel)
    exact ⟨spelled, distinct, accepted.2 ⟨spelled, distinct⟩, position, found _ _ position, apart true⟩
  · have spelled : Catalog.Spells refused faulty := by
      rw [Catalog.Spells]
      decide +kernel
    have unsound : ¬ faulty.Distinct := by
      intro distinct
      exact absurd distinct.once (by decide +kernel)
    exact ⟨spelled, unsound, (accepted_positions refused faulty).2.1 spelled unsound⟩

end Navigation
end EmojiPicker

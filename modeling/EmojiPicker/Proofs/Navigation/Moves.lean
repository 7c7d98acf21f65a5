import EmojiPicker.Navigation.Scroll
import Mathlib.Data.List.Basic

/-!
# Where the cursor goes

Every change of navigation, with all that it may change.

* `Navigation.invalidate_of_stays`, `Navigation.invalidate_of_redirection` — the two ways of a repair;
* `Navigation.invalidate_cases`, `Navigation.select_cases`, `Navigation.scroll_cases` — what a
  repair, a selection and a scroll do;
* `Navigation.SameKeys` — categories and keys stay, as they do in all three;
* `Navigation.allKeys_congr` — the keys to search depend on the numbers and the keys of the
  categories alone, so that none of the three changes them.
-/

namespace EmojiPicker
namespace Navigation

/-! ## The keys of all categories -/

/-- The numbers of the categories, in display order. -/
def ids (n : Navigation) : List CategoryId :=
  n.categories.map (·.id)

theorem allKeys_eq (n : Navigation) :
    n.allKeys = (n.ids.filter (! ·.isRecents)).flatMap fun id => (n.keys.lookup id).getD [] := by
  rw [allKeys, ids, List.filter_map, List.flatMap_map]
  apply List.flatMap_congr
  intro c hc
  have other : (! c.id.isRecents) = true := by
    simpa using (List.mem_filter.1 hc).2
  rw [keysOf, if_neg (by simpa using other)]

theorem allKeys_congr {n m : Navigation} (ids : m.ids = n.ids) (keys : m.keys = n.keys) :
    m.allKeys = n.allKeys := by
  rw [allKeys_eq, allKeys_eq, ids, keys]

theorem ids_recount (n : Navigation) : n.recount.ids = n.ids := by
  simp [ids, recount]

/-- Counting pages leaves the cursor on a known category. -/
theorem known_recount {n : Navigation} (known : n.cursor.category ∈ n.ids) :
    n.recount.cursor.category ∈ n.recount.ids := by
  rw [ids_recount]
  exact known

/-! ## Moves -/

/-- Without a redirect a repair turns to a page that exists. -/
theorem invalidate_of_stays {n : Navigation} (stays : n.recount.redirection? = none) :
    n.invalidate = (none, n.recount.setPage n.cursor.page) := by
  rw [invalidate]
  simp only [stays]
  rfl

/-- A redirect leaves a category for its first page and enters the other one where that was left. -/
theorem invalidate_of_redirection {n : Navigation} {target : CategoryId}
    (moves : n.recount.redirection? = some target) :
    let left := n.recount.remember n.cursor.category 0
    n.invalidate =
      (some ⟨n.cursor.category, target, false, false⟩,
        { left with cursor := ⟨target, left.clampPage target (left.rememberedPage target)⟩ }) := by
  rw [invalidate]
  simp only [moves]
  rfl

/-- A repair keeps the category, or goes to the nearest one that is shown. -/
theorem invalidate_cases (n : Navigation) :
    (∃ page, n.invalidate = (none, { n.recount with cursor := ⟨n.cursor.category, page⟩ })) ∨
      ∃ target page remembered,
        n.invalidate = (some ⟨n.cursor.category, target, false, false⟩,
          { n.recount with cursor := ⟨target, page⟩, remembered := remembered }) := by
  cases moves : n.recount.redirection? with
  | none =>
      exact Or.inl ⟨_, invalidate_of_stays moves⟩
  | some target =>
      exact Or.inr ⟨target, _, _, invalidate_of_redirection moves⟩

/-- A selection does nothing, or enters the category that it names. -/
theorem select_cases (n : Navigation) (id : CategoryId) (animate : Bool) :
    n.select id animate = (none, n) ∨
      ∃ page remembered,
        n.select id animate =
          (some ⟨n.cursor.category, id, animate && n.initialized, ! n.initialized⟩,
            { n with cursor := ⟨id, page⟩, remembered := remembered, initialized := true }) := by
  rw [select]
  split
  · exact Or.inl rfl
  · exact Or.inr ⟨_, _, rfl⟩

/-- A selection without a change does nothing. -/
theorem select_eq_of_none (n : Navigation) {id : CategoryId} {animate : Bool} {m : Navigation}
    (still : n.select id animate = (none, m)) : m = n := by
  rcases n.select_cases id animate with same | ⟨page, remembered, moved⟩
  · rw [same] at still
    exact (congrArg Prod.snd still).symm
  · rw [moved] at still
    exact absurd (congrArg Prod.fst still) (by simp)

/-- A scroll does nothing, or turns to a page of the current category. -/
theorem scroll_cases (n : Navigation) (report : ScrollReport) :
    n.scroll report = (none, n) ∨
      ∃ progress page,
        n.scroll report = (some progress, { n with cursor := ⟨n.cursor.category, page⟩ }) := by
  rw [scroll]
  split
  · exact Or.inl rfl
  · exact Or.inr ⟨_, _, rfl⟩

/-! ## What moves leave alone -/

/-- The categories and their keys are the same, whatever became of pages and cursor. -/
structure SameKeys (n m : Navigation) : Prop where
  recents : m.recents = n.recents
  ids : m.ids = n.ids
  keys : m.keys = n.keys
  options : m.options = n.options

theorem SameKeys.keysOf {n m : Navigation} (same : SameKeys n m) (id : CategoryId) :
    m.keysOf id = n.keysOf id := by
  rw [Navigation.keysOf, Navigation.keysOf, same.recents, same.keys]

theorem sameKeys_invalidate (n : Navigation) : SameKeys n n.invalidate.2 := by
  rcases invalidate_cases n with ⟨page, h⟩ | ⟨target, page, remembered, h⟩
  · rw [h]
    exact ⟨rfl, ids_recount n, rfl, rfl⟩
  · rw [h]
    exact ⟨rfl, ids_recount n, rfl, rfl⟩

theorem sameKeys_select (n : Navigation) (id : CategoryId) (animate : Bool) :
    SameKeys n (n.select id animate).2 := by
  rcases select_cases n id animate with h | ⟨page, remembered, h⟩
  · rw [h]
    exact ⟨rfl, rfl, rfl, rfl⟩
  · rw [h]
    exact ⟨rfl, rfl, rfl, rfl⟩

theorem sameKeys_scroll (n : Navigation) (report : ScrollReport) :
    SameKeys n (n.scroll report).2 := by
  rcases scroll_cases n report with h | ⟨progress, page, h⟩
  · rw [h]
    exact ⟨rfl, rfl, rfl, rfl⟩
  · rw [h]
    exact ⟨rfl, rfl, rfl, rfl⟩

theorem invalidate_recents (n : Navigation) : n.invalidate.2.recents = n.recents :=
  (sameKeys_invalidate n).recents

theorem invalidate_ids (n : Navigation) : n.invalidate.2.ids = n.ids :=
  (sameKeys_invalidate n).ids

theorem invalidate_keys (n : Navigation) : n.invalidate.2.keys = n.keys :=
  (sameKeys_invalidate n).keys

/-- New keys change nothing but the keys. -/
theorem setKeys_eq {n m : Navigation} {id : CategoryId} {keys : List String}
    (accepted : n.setKeys id keys = .ok m) : ∃ replaced, m = { n with keys := replaced } := by
  rw [setKeys] at accepted
  split at accepted
  · exact ⟨_, (Except.ok.inj accepted).symm⟩
  · exact absurd accepted (by simp)

end Navigation
end EmojiPicker

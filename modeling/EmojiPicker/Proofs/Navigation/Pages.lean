import EmojiPicker.Proofs.Navigation.Cursor

/-!
# Pages and their keys

The stored counts of pages agree with the keys right after they are counted, and as long as the keys
do not change without a repair.

* `PageOptions.lt_pagesFor_iff` — which pages there are;
* `Navigation.pageKeys_eq_nil_iff` — which of them are empty;
* `Navigation.Fresh` — the counts are those of the keys;
* `Navigation.Placed.filled` — with such counts the cursor is on a page with keys, if its category has
  any.
-/

namespace EmojiPicker

namespace PageOptions

theorem lt_pagesFor_iff (options : PageOptions) (page keys : Nat) :
    page < options.pagesFor keys ↔ page * options.pageCapacity < keys := by
  have pos := options.pageCapacity_pos
  calc page < options.pagesFor keys
      ↔ (page + 1) * options.pageCapacity ≤ keys + options.pageCapacity - 1 :=
        Nat.le_div_iff_mul_le pos
    _ ↔ page * options.pageCapacity < keys := by
        rw [Nat.add_mul, Nat.one_mul]
        omega

theorem pagesFor_eq_zero_iff (options : PageOptions) (keys : Nat) :
    options.pagesFor keys = 0 ↔ keys = 0 := by
  have first := options.lt_pagesFor_iff 0 keys
  rw [Nat.zero_mul] at first
  omega

end PageOptions

namespace Navigation

variable {n m : Navigation} {id : CategoryId}

/-! ## Keys -/

/-- A page is empty exactly if there is no such page. -/
theorem pageKeys_eq_nil_iff (n : Navigation) (id : CategoryId) (page : Nat) :
    n.pageKeys id page = [] ↔ n.options.pagesFor (n.keysOf id).length ≤ page := by
  have pos := n.options.pageCapacity_pos
  have there := n.options.lt_pagesFor_iff page (n.keysOf id).length
  rw [pageKeys, ← List.length_eq_zero_iff, List.length_take, List.length_drop]
  omega

/-! ## Counts -/

/-- The counts of pages are those of the keys. -/
def Fresh (n : Navigation) : Prop :=
  ∀ c ∈ n.categories, c.pageCount = n.options.pagesFor (n.keysOf c.id).length

theorem fresh_recount (n : Navigation) : n.recount.Fresh := by
  intro c hc
  rcases List.mem_map.1 hc with ⟨d, _, rfl⟩
  rfl

theorem fresh_invalidate (n : Navigation) : n.invalidate.2.Fresh := by
  rcases invalidate_cases n with ⟨page, h⟩ | ⟨target, page, remembered, h⟩
  · rw [h]
    exact n.fresh_recount
  · rw [h]
    exact n.fresh_recount

theorem Fresh.select (fresh : n.Fresh) (id : CategoryId) (animate : Bool) :
    (n.select id animate).2.Fresh := by
  rcases select_cases n id animate with h | ⟨page, remembered, h⟩
  · rw [h]
    exact fresh
  · rw [h]
    exact fresh

theorem Fresh.scroll (fresh : n.Fresh) (report : ScrollReport) : (n.scroll report).2.Fresh := by
  rcases scroll_cases n report with h | ⟨progress, page, h⟩
  · rw [h]
    exact fresh
  · rw [h]
    exact fresh

/-- The counts do not depend on what is buffered. -/
theorem Fresh.withRecents (fresh : n.Fresh) {recents : Recents}
    (visible : recents.visible = n.recents.visible) : (n.withRecents recents).Fresh := by
  intro c hc
  have keys : (n.withRecents recents).keysOf c.id = n.keysOf c.id := by
    rw [keysOf, keysOf, Navigation.withRecents, visible]
  rw [keys]
  exact fresh c hc

theorem fresh_ofCatalog (catalog : Catalog) (recents : Recents) (options : PageOptions) :
    (ofCatalog catalog recents options).Fresh :=
  fresh_recount _

theorem Fresh.pageCount_eq (fresh : n.Fresh) (known : id ∈ n.ids) :
    n.pageCount id = n.options.pagesFor (n.keysOf id).length := by
  rcases category?_of_mem known with ⟨c, hc, rfl, found⟩
  rw [pageCount, found]
  exact fresh c hc

/-- The cursor is on an empty page only where the whole category is empty. -/
theorem Placed.filled (placed : n.Placed) (fresh : n.Fresh)
    (empty : n.pageKeys n.cursor.category n.cursor.page = []) :
    n.keysOf n.cursor.category = [] := by
  have beyond := (n.pageKeys_eq_nil_iff _ _).1 empty
  rcases placed.onPage with inside | ⟨_, none⟩
  · rw [fresh.pageCount_eq placed.known] at inside
    omega
  · rw [fresh.pageCount_eq placed.known, PageOptions.pagesFor_eq_zero_iff] at none
    exact List.length_eq_zero_iff.1 none

end Navigation
end EmojiPicker

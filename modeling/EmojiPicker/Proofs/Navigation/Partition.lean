import EmojiPicker.Proofs.Navigation.Pages

/-!
# Keys page by page

Right after the pages are counted they hold the keys of each category, every key once and in order.

* `PageOptions.keys_le_pages` — there are pages enough for the keys;
* `Navigation.Paged` — the pages of a category are its keys;
* `Navigation.pageKeysWithin` — the keys on a page where numbers stop at a limit;
* `Navigation.Fresh.paged`, `Navigation.Fresh.allKeys_eq` — with counts that agree with the keys, every
  category is paged, and the pages of all categories are the keys to search;
* `Navigation.JustCounted`, `Navigation.pages_partition` — the moments at which this holds.

The count of pages, the start of a page and its length are worked out apart from each other: the count
is a division that rounds up, the start is a product, and the length is what is left.
-/

namespace EmojiPicker

namespace PageOptions

/-- The keys fit on their pages. -/
theorem keys_le_pages (options : PageOptions) (keys : Nat) :
    keys ≤ options.pagesFor keys * options.pageCapacity := by
  have last := options.lt_pagesFor_iff (options.pagesFor keys) keys
  omega

end PageOptions

namespace Navigation

variable {n : Navigation} {c : Category} {id : CategoryId}

/-! ## Pages one after the other -/

/-- The first pages, one after the other, are the first keys. -/
theorem flatMap_pageKeys (n : Navigation) (id : CategoryId) (count : Nat) :
    (List.range count).flatMap (n.pageKeys id) =
      (n.keysOf id).take (count * n.options.pageCapacity) := by
  induction count with
  | zero => simp
  | succ count ih =>
      -- One page more is the next window of keys.
      rw [List.range_succ, List.flatMap_append, ih, Nat.succ_mul, List.take_add]
      simp [pageKeys]

/-- All pages together are all keys. -/
theorem flatMap_pageKeys_all (n : Navigation) (id : CategoryId) :
    (List.range (n.options.pagesFor (n.keysOf id).length)).flatMap (n.pageKeys id) = n.keysOf id := by
  calc (List.range (n.options.pagesFor (n.keysOf id).length)).flatMap (n.pageKeys id)
      = (n.keysOf id).take (n.options.pagesFor (n.keysOf id).length * n.options.pageCapacity) :=
        n.flatMap_pageKeys id _
    _ = n.keysOf id := List.take_of_length_le (n.options.keys_le_pages _)

/-- A page that another one follows is full. -/
theorem length_pageKeys (n : Navigation) {page : Nat}
    (followed : page + 1 < n.options.pagesFor (n.keysOf id).length) :
    (n.pageKeys id page).length = n.options.pageCapacity := by
  have next := (n.options.lt_pagesFor_iff (page + 1) _).1 followed
  rw [Nat.add_mul, Nat.one_mul] at next
  rw [pageKeys, List.length_take, List.length_drop]
  omega

/-! ## The start of a page -/

/-- The keys on a page where numbers stop at a limit: the start of the page counts no further. -/
def pageKeysWithin (limit : Nat) (n : Navigation) (id : CategoryId) (page : Nat) : List String :=
  ((n.keysOf id).drop (min (page * n.options.pageCapacity) limit)).take n.options.pageCapacity

/-- A limit that no list of keys exceeds does not show: a start beyond it is behind the keys, and so is
the limit. -/
theorem pageKeysWithin_eq {limit : Nat} (held : (n.keysOf id).length ≤ limit) (page : Nat) :
    n.pageKeysWithin limit id page = n.pageKeys id page := by
  rw [pageKeysWithin, pageKeys]
  by_cases far : page * n.options.pageCapacity ≤ limit
  · rw [Nat.min_eq_left far]
  · have behind : (n.keysOf id).length ≤ page * n.options.pageCapacity := by omega
    rw [Nat.min_eq_right (by omega), List.drop_eq_nil_of_le held, List.drop_eq_nil_of_le behind]

/-! ## Categories with counted pages -/

/-- The pages of a category are its keys: all of them in order, none of the pages empty, all but the last
one full, and nothing behind them, also where the start of a page cannot be counted any more. -/
structure Paged (n : Navigation) (c : Category) : Prop where
  whole : (List.range c.pageCount).flatMap (n.pageKeys c.id) = n.keysOf c.id
  filled : ∀ page < c.pageCount, n.pageKeys c.id page ≠ []
  full : ∀ page, page + 1 < c.pageCount → (n.pageKeys c.id page).length = n.options.pageCapacity
  ended : ∀ page, c.pageCount ≤ page → n.pageKeys c.id page = []
  bounded : ∀ limit, (n.keysOf c.id).length ≤ limit →
    ∀ page, n.pageKeysWithin limit c.id page = n.pageKeys c.id page

theorem Fresh.paged (fresh : n.Fresh) (hc : c ∈ n.categories) : n.Paged c where
  whole := by
    rw [fresh c hc]
    exact n.flatMap_pageKeys_all c.id
  filled := by
    intro page there
    rw [fresh c hc] at there
    rw [ne_eq, pageKeys_eq_nil_iff]
    omega
  full := by
    intro page followed
    rw [fresh c hc] at followed
    exact n.length_pageKeys followed
  ended := by
    intro page beyond
    rw [fresh c hc] at beyond
    exact (n.pageKeys_eq_nil_iff c.id page).2 beyond
  bounded := by
    intro limit held page
    exact pageKeysWithin_eq held page

/-- The keys to search are the pages of all categories but the recently used emoji. -/
theorem Fresh.allKeys_eq (fresh : n.Fresh) :
    n.allKeys = (n.categories.filter (! ·.id.isRecents)).flatMap fun c =>
      (List.range c.pageCount).flatMap (n.pageKeys c.id) := by
  rw [allKeys]
  apply List.flatMap_congr
  intro c hc
  exact (fresh.paged (List.mem_filter.1 hc).1).whole.symm

/-! ## When pages are counted -/

/-- The pages have just been counted: at the beginning, or by a repair after any run. -/
inductive JustCounted : Navigation → Prop where
  | begun (catalog : Catalog) (recents : Recents) (options : PageOptions) :
      JustCounted (ofCatalog catalog recents options)
  | repaired (catalog : Catalog) (recents : Recents) (options : PageOptions)
      (events : List NavigationEvent) :
      JustCounted ((ofCatalog catalog recents options).run events).invalidate.2

theorem JustCounted.fresh (counted : n.JustCounted) : n.Fresh := by
  cases counted with
  | begun catalog recents options => exact fresh_ofCatalog catalog recents options
  | repaired catalog recents options events => exact fresh_invalidate _

theorem JustCounted.ordered (counted : n.JustCounted) :
    n.categories.Pairwise (·.displayOrder < ·.displayOrder) := by
  cases counted with
  | begun catalog recents options => exact (placed_ofCatalog catalog recents options).ordered
  | repaired catalog recents options events =>
      exact ((placed_run catalog recents options events).react .invalidate).ordered

/-- Pages partition the keys. Whenever the pages have just been counted, over every catalog and with
every capacity of a page,

* the pages of each category, the recently used emoji included, are its keys: nothing is lost, repeated
  or moved, no page up to the count is empty, all but the last one are full, and every page from the
  count on is empty, whatever the largest number is that the start of a page can have;
* the keys to search are the pages of all other categories, in display order. -/
theorem pages_partition (counted : n.JustCounted) :
    (∀ c ∈ n.categories, n.Paged c) ∧
      n.categories.Pairwise (·.displayOrder < ·.displayOrder) ∧
      n.allKeys = (n.categories.filter (! ·.id.isRecents)).flatMap fun c =>
        (List.range c.pageCount).flatMap (n.pageKeys c.id) :=
  ⟨fun _ hc => counted.fresh.paged hc, counted.ordered, counted.fresh.allKeys_eq⟩

/-- Two keys to a page: five keys need a third page that is not full, a category that was emptied has
none, and the recently used emoji fill theirs. -/
theorem pages_partition_uneven :
    let catalog : Catalog :=
      ⟨[⟨⟨1⟩, "faces", ["😀", "😉", "😊", "😇", "🥰"]⟩, ⟨⟨2⟩, "animals", ["🐶"]⟩,
        ⟨⟨3⟩, "food", ["🍏"]⟩]⟩
    let recents := (Recents.empty 8).restore ["🐱", "🐶"]
    let n := ((ofCatalog catalog recents (.ofCapacity 2 true)).run [.setKeys ⟨2⟩ []]).invalidate.2
    n.JustCounted ∧
      (n.categories.map (·.pageCount) = [1, 3, 0, 1] ∧
        (List.range 3).flatMap (n.pageKeys ⟨1⟩) = ["😀", "😉", "😊", "😇", "🥰"] ∧
        n.pageKeysWithin (UInt64.size - 1) ⟨1⟩ (UInt64.size - 1) = [] ∧
        n.allKeys = ["😀", "😉", "😊", "😇", "🥰", "🍏"]) := by
  intro catalog recents n
  have counted : n.JustCounted := .repaired catalog recents (.ofCapacity 2 true) [.setKeys ⟨2⟩ []]
  rcases pages_partition counted with ⟨paged, _, all⟩
  have faces : ⟨⟨1⟩, "faces", 1, 3⟩ ∈ n.categories := by decide +kernel
  have keys : n.keysOf ⟨1⟩ = ["😀", "😉", "😊", "😇", "🥰"] := by decide +kernel
  have few : (n.keysOf ⟨1⟩).length ≤ UInt64.size - 1 := by
    rw [keys]
    decide
  have far : (3 : Nat) ≤ UInt64.size - 1 := by decide
  refine ⟨counted, by decide +kernel, ?_, ?_, ?_⟩
  · rw [← keys]
    exact (paged _ faces).whole
  · rw [← (paged _ faces).ended _ far]
    exact (paged _ faces).bounded _ few _
  · rw [all]
    decide +kernel

end Navigation
end EmojiPicker

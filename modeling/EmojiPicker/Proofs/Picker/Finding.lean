import EmojiPicker.Proofs.Picker.Freshness
import EmojiPicker.Proofs.Picker.Paging
import EmojiPicker.Proofs.Search.Matches

/-!
# Finding emoji at any moment

The keys to search are kept from one search to the next, while categories get new keys and dictionaries
come and go.

* `Picker.Coherent.find_eq` — at any moment a search goes through the keys of the categories;
* `Picker.found_first` — what that finds, after every run.

That the kept keys are those of the categories is an invariant of all events. It is part of
`Picker.Coherent`.
-/

namespace EmojiPicker
namespace Picker

variable {σ : Type} {p : Picker σ}

theorem Coherent.find_eq (coherent : p.Coherent) {d : EmojiDictionary}
    (published : p.dictionaries.current? = some d) {query : String} (asked : query ≠ "") :
    (p.find query).1 = searchKeys d query p.navigation.allKeys := by
  have searched : (p.find query).1 =
      SearchIndex.answer p.navigation.allKeys p.dictionaries.current? query :=
    (SearchIndex.search_of_accurate coherent.accurate _ query).1
  rw [searched, published, SearchIndex.answer, if_neg (by simpa using asked)]

/-- The empty query finds nothing, and neither does any query without a dictionary. -/
theorem find_eq_nil (p : Picker σ) {query : String}
    (idle : query = "" ∨ p.dictionaries.isReady = false) : (p.find query).1 = [] := by
  rcases idle with rfl | absent
  · rfl
  · have none : p.dictionaries.current? = none := by simpa [Lifecycle.isReady] using absent
    simp [find, none, SearchIndex.search]

variable [DictionaryStore σ]

/-- After every run of events, whatever was searched, replaced and published in its course, a query finds
the first fifty of the keys whose description in the published dictionary contains it, letter case aside.
The keys are those that the categories have at that moment, in display order and, within a category, in
their own. What is described beyond the keys found stands behind the fiftieth of them. -/
theorem found_first (catalog : Catalog) (recents : Recents) (pages : PageOptions) (store : σ)
    (switches : PickerOptions) (events : List PickerEvent) (query : String) :
    let p := (new (Navigation.ofCatalog catalog recents pages) store switches).run events
    let n := p.navigation
    let keys := (n.categories.filter (! ·.id.isRecents)).flatMap fun c => n.keysOf c.id
    let found := (p.find query).1
    n.categories.Pairwise (·.displayOrder < ·.displayOrder) ∧
      (query = "" ∨ p.dictionaries.isReady = false → found = []) ∧
      ∀ d, p.dictionaries.current? = some d → query ≠ "" →
        found = (keys.filter (d.Describes query ·)).take 50 ∧
          ∃ front back, keys = front ++ back ∧ found = front.filter (d.Describes query ·) ∧
            ((∃ key ∈ back, d.Describes query key) → found.length = 50) := by
  intro p n keys found
  have paged : p.Paged := (paged_new catalog recents pages store switches).run events
  have coherent : p.Coherent := coherent_run (coherent_new _ store switches) events
  refine ⟨paged.placed.ordered, p.find_eq_nil, ?_⟩
  intro d published asked
  have searched : found = searchKeys d query keys := coherent.find_eq published asked
  rcases searchKeys_front d query keys with ⟨front, back, split, matching, whole⟩
  refine ⟨searched.trans (searchKeys_eq d query keys), front, back, split, searched.trans matching, ?_⟩
  rintro ⟨key, behind, _⟩
  have most : found.length ≤ 50 := by
    rw [searched, searchKeys]
    exact List.length_take_le _ _
  by_contra few
  have few : (searchKeys d query keys).length < maxSearchResults := by
    rw [← searched]
    exact Nat.lt_of_le_of_ne most few
  simp [whole few] at behind

/-- A query between two sets of keys, in a dictionary that describes all of them. -/
theorem found_first_rekeyed :
    let words := "word=😀\nshortcut=Big Face\nword=🐱\nshortcut=cat face\nword=🐶\nshortcut=dog"
    let disk := (({} : Disk).makeDirectories ⟨"dicts/en"⟩).2
    let stored := (disk.write ⟨"dicts/en/emoji_en.dict"⟩ (Text.encode words.toList)).2
    let start := new (Navigation.ofCatalog ⟨[⟨⟨1⟩, "faces", ["😀"]⟩, ⟨⟨2⟩, "pets", ["🐶"]⟩]⟩
      (.empty 8) (.ofCapacity 2 true))
      (⟨⟨"dicts"⟩, stored⟩ : DictionaryCache) ⟨false, true, true, true, none⟩
    let d := EmojiDictionary.ofEntries "en" ⟨"dicts/en/emoji_en.dict"⟩
      [⟨"😀", ["Big Face"]⟩, ⟨"🐱", ["cat face"]⟩, ⟨"🐶", ["dog"]⟩]
    let events : List PickerEvent := [.start "en", .find "FACE", .setKeys ⟨2⟩ ["🐱", "🐶"]]
    let p := start.run events
    (start.run (events.take 2)).index.kept = some ["😀", "🐶"] ∧
      p.dictionaries.current? = some d ∧ "FACE" ≠ "" ∧ (p.find "FACE").1 = ["😀", "🐱"] := by
  intro words disk stored start d events p
  have law := found_first ⟨[⟨⟨1⟩, "faces", ["😀"]⟩, ⟨⟨2⟩, "pets", ["🐶"]⟩]⟩ (.empty 8)
    (.ofCapacity 2 true) (⟨⟨"dicts"⟩, stored⟩ : DictionaryCache) ⟨false, true, true, true, none⟩ events
    "FACE"
  extract_lets q n keys found at law
  have evaluated : (start.run (events.take 2)).index.kept = some ["😀", "🐶"] ∧
      p.dictionaries.current? = some d ∧
      (keys.filter (d.Describes "FACE" ·)).take 50 = ["😀", "🐱"] := by
    decide +kernel
  rcases evaluated with ⟨kept, published, two⟩
  have asked : "FACE" ≠ "" := by decide
  have first : found = (keys.filter (d.Describes "FACE" ·)).take 50 := (law.2.2 d published asked).1
  exact ⟨kept, published, asked, first.trans two⟩

end Picker
end EmojiPicker

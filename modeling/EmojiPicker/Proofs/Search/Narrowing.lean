import EmojiPicker.Proofs.Search.Matches
import EmojiPicker.Proofs.Text.WordFinal

/-!
# Longer queries find less

Whoever types on expects to lose emoji and not to get any back. That rests on the lower case of the query
being part of the lower case of whatever contains the query.

* `SearchIndex.search_asked` — a search by the keys that it goes through;
* `SearchIndex.search_single` — the smallest search that can go wrong;
* `SearchIndex.found_by_less_iff` — for which queries the expectation is right;
* `SearchIndex.sigma_lost` — a query for which it is not.
-/

namespace EmojiPicker
namespace SearchIndex

theorem search_asked (index : SearchIndex) (n : Navigation) (d : EmojiDictionary) {query : String}
    (asked : query ≠ "") :
    (index.search n (some d) query).1 = searchKeys d query (index.allKeys n).1 := by
  have some : query.isEmpty = false := by simpa using asked
  simp [search, some]

theorem description?_single (key text : String) :
    (EmojiDictionary.ofEntries "" ⟨""⟩ [⟨key, [text]⟩]).description? key = some text := by
  simp [EmojiDictionary.description?, EmojiDictionary.entry?, EmojiDictionary.ofEntries]

/-- A dictionary with one entry, over the key that it describes. -/
theorem search_single (n : Navigation) (key text : String) {query : String} (asked : query ≠ "") :
    let d := EmojiDictionary.ofEntries "" ⟨""⟩ [⟨key, [text]⟩]
    let found := ((⟨some [key]⟩ : SearchIndex).search n (some d) query).1
    found.length < 50 ∧
      (key ∈ found ↔ Text.lowercase query.toList <:+: Text.lowercase text.toList) := by
  intro d found
  have searched : found = searchKeys d query [key] := search_asked ⟨some [key]⟩ n d asked
  have few : found.length < 50 := by
    have most : found.length ≤ [key].length := by
      rw [searched, searchKeys]
      exact (List.length_take_le' _ _).trans (List.length_filter_le _ _)
    exact Nat.lt_of_le_of_lt most (by simp)
  have described : d.Describes query key ↔
      Text.lowercase query.toList <:+: Text.lowercase text.toList := by
    simp [d, EmojiDictionary.Describes, description?_single]
  refine ⟨few, ?_⟩
  rw [← described]
  rw [searched] at few ⊢
  exact ⟨fun there => (describes_of_mem there).2, mem_searchKeys few List.mem_cons_self⟩

/-- Below the cap of fifty keys, a query finds all that a longer one finds, whatever the dictionary and the
keys, exactly if it does not end in a sigma that ends a word. It finds all whose description contains it
literally exactly if in addition it does not begin with a sigma that no letter follows.

A capital sigma that ends a word has a lower case of its own, and the end of a query need not be the end of
a word in the description. -/
theorem found_by_less_iff (query : String) (asked : query ≠ "") :
    ((∀ (d : EmojiDictionary) (index : SearchIndex) (n : Navigation) (more : String),
        let found (query : String) := (index.search n (some d) query).1
        (found query).length < 50 → ∀ key ∈ found (query ++ more), key ∈ found query) ↔
      Text.closesOnSigma query.toList = false) ∧
    ((∀ (d : EmojiDictionary) (index : SearchIndex) (n : Navigation) (key text : String),
        let found (query : String) := (index.search n (some d) query).1
        (found query).length < 50 → key ∈ (index.allKeys n).1 → d.description? key = some text →
          query.toList <:+: text.toList → key ∈ found query) ↔
      Text.closesOnSigma query.toList = false ∧ Text.opensOnSigma query.toList = false) := by
  let n : Navigation := .ofCatalog ⟨[]⟩ (.empty 1) (.ofCapacity 1 true)
  have inside : "key" ∈ ((⟨some ["key"]⟩ : SearchIndex).allKeys n).1 := List.mem_cons_self
  refine ⟨⟨?_, ?_⟩, ?_, ?_⟩
  · -- A letter behind the query takes the end of a word away.
    intro kept
    by_contra closes
    have closes : Text.closesOnSigma query.toList = true := by simpa using closes
    let longer := query ++ "a"
    have asked' : longer ≠ "" := by simp [longer]
    have few := search_single n "key" longer asked
    have all := search_single n "key" longer asked'
    have lost := few.2.1 (kept _ _ n "a" few.1 "key" (all.2.2 List.infix_rfl))
    exact Text.not_infix_of_closes closes (by simpa [longer] using lost)
  · intro closed d index n more found few key there
    have asked' : query ++ more ≠ "" := by simp [asked]
    have same : found query = searchKeys d query (index.allKeys n).1 := search_asked index n d asked
    have longer : found (query ++ more) = searchKeys d (query ++ more) (index.allKeys n).1 :=
      search_asked index n d asked'
    rw [longer] at there
    rcases describes_of_mem there with ⟨listed, text, described, contained⟩
    have begins := Text.lowercase_isPrefix closed more.toList
    rw [same] at few ⊢
    refine mem_searchKeys few listed ⟨text, described, begins.isInfix.trans ?_⟩
    simpa using contained
  · -- The same goes for a letter behind the query and for one in front of it.
    intro literal
    have contained : ∀ text : String, query.toList <:+: text.toList →
        Text.lowercase query.toList <:+: Text.lowercase text.toList := by
      intro text there
      have one := search_single n "key" text asked
      exact one.2.1 (literal _ _ n "key" text one.1 inside (description?_single _ _) there)
    constructor
    · by_contra closes
      have closes : Text.closesOnSigma query.toList = true := by simpa using closes
      refine Text.not_infix_of_closes closes ?_
      have within : query.toList <:+: (query ++ "a").toList := by
        simpa using (List.prefix_append query.toList ['a']).isInfix
      simpa using contained (query ++ "a") within
    · by_contra opens
      have opens : Text.opensOnSigma query.toList = true := by simpa using opens
      refine Text.not_infix_of_opens opens ?_
      have within : query.toList <:+: ("a" ++ query).toList := by
        simpa using (List.suffix_cons 'a' query.toList).isInfix
      simpa using contained ("a" ++ query) within
  · rintro ⟨closed, opened⟩ d index n key text found few listed described contained
    have same : found query = searchKeys d query (index.allKeys n).1 := search_asked index n d asked
    rw [same] at few ⊢
    exact mem_searchKeys few listed ⟨text, described, Text.lowercase_isInfix closed opened contained⟩

/-- A query with a sigma at the end of its first word, after which it goes on. -/
theorem found_by_less_iff_words :
    "ΟΔΟΣ Μ" ≠ "" ∧
      (∀ (d : EmojiDictionary) (index : SearchIndex) (n : Navigation) (more : String),
        let found (query : String) := (index.search n (some d) query).1
        (found "ΟΔΟΣ Μ").length < 50 → ∀ key ∈ found ("ΟΔΟΣ Μ" ++ more), key ∈ found "ΟΔΟΣ Μ") ∧
      ∀ (d : EmojiDictionary) (index : SearchIndex) (n : Navigation) (key text : String),
        let found (query : String) := (index.search n (some d) query).1
        (found "ΟΔΟΣ Μ").length < 50 → key ∈ (index.allKeys n).1 → d.description? key = some text →
          "ΟΔΟΣ Μ".toList <:+: text.toList → key ∈ found "ΟΔΟΣ Μ" := by
  have asked : "ΟΔΟΣ Μ" ≠ "" := by decide
  have closed : Text.closesOnSigma "ΟΔΟΣ Μ".toList = false := by decide +kernel
  have opened : Text.opensOnSigma "ΟΔΟΣ Μ".toList = false := by decide +kernel
  have law := found_by_less_iff "ΟΔΟΣ Μ" asked
  exact ⟨asked, law.1.2 closed, law.2.2 ⟨closed, opened⟩⟩

/-- Four letters of a word find the emoji and its first three do not. They end in a sigma, which is in the
middle of the word in the description. -/
theorem sigma_lost :
    let d := EmojiDictionary.ofEntries "el" ⟨"dicts/el/emoji_el.dict"⟩ [⟨"🌍", ["ΚΟΣΜΟΣ"]⟩]
    let n : Navigation := .ofCatalog ⟨[⟨⟨1⟩, "places", ["🌍"]⟩]⟩ (.empty 8) (.ofCapacity 2 true)
    let found (query : String) := (SearchIndex.search {} n (some d) query).1
    found "ΚΟΣΜ" = ["🌍"] ∧ found "ΚΟΣ" = [] ∧ "ΚΟΣ".toList <:+: "ΚΟΣΜΟΣ".toList := by
  decide +kernel

end SearchIndex
end EmojiPicker

import EmojiPicker.Search.Index

/-!
# What a query finds

The search through descriptions, by what it means for a key to be described by a query.

* `EmojiDictionary.Describes` — the description of a key contains a query, letter case aside;
* `searchKeys_eq` — the first fifty keys that are described;
* `searchKeys_front` — and how far through the keys the search goes;
* `mem_searchKeys` — up to the cap everything is found.
-/

namespace EmojiPicker

/-- A key has a description that contains a query when both are in lower case. -/
def EmojiDictionary.Describes (d : EmojiDictionary) (query key : String) : Prop :=
  ∃ text, d.description? key = some text ∧
    Text.lowercase query.toList <:+: Text.lowercase text.toList

variable {d : EmojiDictionary} {query key : String} {keys : List String}

theorem matchesQuery_iff : matchesQuery d query key = true ↔ d.Describes query key := by
  simp [matchesQuery, EmojiDictionary.Describes, Option.any_eq_true, Text.contains_iff]

instance : Decidable (d.Describes query key) :=
  decidable_of_iff _ matchesQuery_iff

theorem searchKeys_eq (d : EmojiDictionary) (query : String) (keys : List String) :
    searchKeys d query keys = (keys.filter (d.Describes query ·)).take maxSearchResults := by
  have same : matchesQuery d query = fun key => decide (d.Describes query key) := by
    funext key
    simp [← matchesQuery_iff]
  rw [searchKeys, same]

/-- The first elements of a kind come from a front part, which is the whole list if there are too few. -/
theorem filter_take_front {α : Type} (p : α → Bool) (n : Nat) (xs : List α) :
    ∃ front back, xs = front ++ back ∧ front.filter p = (xs.filter p).take n ∧
      ((front.filter p).length < n → back = []) := by
  induction xs generalizing n with
  | nil => exact ⟨[], [], by simp⟩
  | cons x rest ih =>
      cases kind : p x with
      | false =>
          rcases ih n with ⟨front, back, split, found, whole⟩
          exact ⟨x :: front, back, by simp [split], by simp [kind, found], by simpa [kind] using whole⟩
      | true =>
          cases n with
          | zero => exact ⟨[], x :: rest, by simp⟩
          | succ n =>
              rcases ih n with ⟨front, back, split, found, whole⟩
              refine ⟨x :: front, back, by simp [split], by simp [kind, found], ?_⟩
              simpa [kind] using whole

/-- The search goes through the keys until it has found fifty. -/
theorem searchKeys_front (d : EmojiDictionary) (query : String) (keys : List String) :
    ∃ front back, keys = front ++ back ∧ searchKeys d query keys = front.filter (d.Describes query ·) ∧
      ((searchKeys d query keys).length < maxSearchResults → back = []) := by
  rcases filter_take_front (fun key => decide (d.Describes query key)) maxSearchResults keys with
    ⟨front, back, split, found, whole⟩
  have same := (searchKeys_eq d query keys).trans found.symm
  exact ⟨front, back, split, same, by rwa [same]⟩

theorem describes_of_mem (found : key ∈ searchKeys d query keys) :
    key ∈ keys ∧ d.Describes query key := by
  rw [searchKeys_eq] at found
  simpa using List.mem_filter.1 (List.mem_of_mem_take found)

/-- Where the cap is not reached, everything is found. -/
theorem mem_searchKeys (few : (searchKeys d query keys).length < maxSearchResults) (there : key ∈ keys)
    (described : d.Describes query key) : key ∈ searchKeys d query keys := by
  rcases searchKeys_front d query keys with ⟨front, back, rfl, found, whole⟩
  rw [whole few, List.append_nil] at there
  rw [found]
  exact List.mem_filter.2 ⟨there, by simpa using described⟩

end EmojiPicker

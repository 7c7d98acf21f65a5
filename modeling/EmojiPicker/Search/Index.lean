import EmojiPicker.Dictionary
import EmojiPicker.Navigation

/-!
# The search index

The keys of all categories, kept once they were needed, and the search through their descriptions.

* `SearchIndex` — the kept keys;
* `matchesQuery`, `searchKeys` — which keys a query finds;
* `SearchIndex.allKeys`, `SearchIndex.search` — the same through the kept keys.
-/

namespace EmojiPicker

def maxSearchResults : Nat := 50

/-- Whether the description of a key contains a query, letter case aside. -/
def matchesQuery (d : EmojiDictionary) (query key : String) : Bool :=
  (d.description? key).any fun description =>
    Text.contains (Text.lowercase query.toList) (Text.lowercase description.toList)

def searchKeys (d : EmojiDictionary) (query : String) (keys : List String) : List String :=
  (keys.filter (matchesQuery d query)).take maxSearchResults

/-- The keys to search, if they were needed before. -/
structure SearchIndex where
  kept : Option (List String) := none
  deriving DecidableEq, Repr

namespace SearchIndex

/-- The keys to search. They are those of the categories when they are first needed, and stay so
until the index is invalidated. -/
def allKeys (index : SearchIndex) (n : Navigation) : List String × SearchIndex :=
  match index.kept with
  | some keys => (keys, index)
  | none => (n.allKeys, ⟨some n.allKeys⟩)

def invalidate (_ : SearchIndex) : SearchIndex :=
  ⟨none⟩

/-- The keys that a query finds. The empty query finds none, and so does every query without a
dictionary. -/
def search (index : SearchIndex) (n : Navigation) (dictionary : Option EmojiDictionary)
    (query : String) : List String × SearchIndex :=
  match query.isEmpty, dictionary with
  | false, some d =>
      let (keys, index) := index.allKeys n
      (searchKeys d query keys, index)
  | _, _ => ([], index)

end SearchIndex
end EmojiPicker

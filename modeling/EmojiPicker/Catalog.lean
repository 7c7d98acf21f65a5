/-!
# Catalogs

A catalog lists the categories of emoji that can be browsed, in display order, with their keys.

* `CategoryId` — the number of a category; zero is kept for the recently used emoji;
* `CategoryDefinition`, `Catalog` — what a catalog says;
* `CatalogFault` — why a catalog is not acceptable;
* `Catalog.fault?` — the first category in order whose number is reserved or taken.
-/

namespace EmojiPicker

structure CategoryId where
  value : UInt32
  deriving DecidableEq, Repr, Inhabited

namespace CategoryId

/-- The number that is kept for the recently used emoji. -/
def recents : CategoryId := ⟨0⟩

def isRecents (id : CategoryId) : Bool :=
  id == recents

instance : ToString CategoryId := ⟨fun id => toString id.value.toNat⟩

end CategoryId

structure CategoryDefinition where
  id : CategoryId
  name : String
  keys : List String
  deriving DecidableEq, Repr

structure Catalog where
  categories : List CategoryDefinition
  deriving DecidableEq, Repr

inductive CatalogFault where
  | malformed
  /-- A category claims the number of the recently used emoji. -/
  | reservedId (name : String)
  /-- A category has the number of an earlier one. -/
  | duplicateId (id : CategoryId)
  deriving DecidableEq, Repr

def CatalogFault.message : CatalogFault → String
  | .malformed => "malformed JSON document"
  | .reservedId name => s!"category `{name}` uses the reserved recents id"
  | .duplicateId id => s!"duplicate category id {id}"

namespace Catalog

/-- The first fault among some categories after those whose numbers are `seen`. -/
def faultAfter? (seen : List CategoryId) : List CategoryDefinition → Option CatalogFault
  | [] => none
  | c :: rest =>
      if c.id.isRecents then some (.reservedId c.name)
      else if seen.contains c.id then some (.duplicateId c.id)
      else faultAfter? (c.id :: seen) rest

def fault? (catalog : Catalog) : Option CatalogFault :=
  faultAfter? [] catalog.categories

end Catalog
end EmojiPicker

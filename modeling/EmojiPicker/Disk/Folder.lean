/-!
# Folders

What a directory holds, as a value.

* `Folder` — files and directories by their names;
* `DiskEntry` — what has a name in a folder;
* `Folder.find?`, `Folder.insert`, `Folder.erase` — one entry of a folder;
* `Folder.entry?`, `Folder.changeAt` — what stands at a place below a folder;
* `Folder.listing` — everything below a folder.

A change of one name shows under that name only: `find?_insert_self`, `find?_insert_of_ne`,
`find?_erase_self`, `find?_erase_of_ne`.
-/

namespace EmojiPicker

inductive Folder where
  | empty
  | file (name : String) (bytes : List UInt8) (rest : Folder)
  | directory (name : String) (inside rest : Folder)
  deriving DecidableEq, Repr, Inhabited

inductive DiskEntry where
  | directory (inside : Folder)
  | file (bytes : List UInt8)
  deriving DecidableEq, Repr

/-- A place on the disk: the names on the way to it, the last one first. -/
abbrev Place := List String

namespace Folder

/-! ## One entry -/

def cons (name : String) : DiskEntry → Folder → Folder
  | .directory inside, rest => .directory name inside rest
  | .file bytes, rest => .file name bytes rest

/-- The entry with a name; if there were several, the first one counts. -/
def find? : Folder → String → Option DiskEntry
  | .empty, _ => none
  | .file other bytes rest, name =>
      if other = name then some (.file bytes) else rest.find? name
  | .directory other inside rest, name =>
      if other = name then some (.directory inside) else rest.find? name

def insert (name : String) (entry : DiskEntry) : Folder → Folder
  | .empty => cons name entry .empty
  | .file other bytes rest =>
      if other = name then cons name entry rest else .file other bytes (rest.insert name entry)
  | .directory other inside rest =>
      if other = name then cons name entry rest
      else .directory other inside (rest.insert name entry)

def erase (name : String) : Folder → Folder
  | .empty => .empty
  | .file other bytes rest =>
      if other = name then rest.erase name else .file other bytes (rest.erase name)
  | .directory other inside rest =>
      if other = name then rest.erase name else .directory other inside (rest.erase name)

def names : Folder → List String
  | .empty => []
  | .file name _ rest => name :: rest.names
  | .directory name _ rest => name :: rest.names

/-! ## Places below a folder -/

/-- What stands at a place below a folder; the folder itself has the empty place. -/
def entry? (f : Folder) : Place → Option DiskEntry
  | [] => some (.directory f)
  | name :: above =>
      match f.entry? above with
      | some (.directory inside) => inside.find? name
      | _ => none

/-- The folder where the one that some names lead to is changed, the first name first. Where the
names lead to no folder, nothing changes. -/
def changeAt (change : Folder → Folder) : List String → Folder → Folder
  | [], f => change f
  | name :: rest, f =>
      match f.find? name with
      | some (.directory inside) => f.insert name (.directory (changeAt change rest inside))
      | _ => f

/-- Everything below a folder with its place, a directory before what it holds. -/
def listing (place : Place) : Folder → List (Place × DiskEntry)
  | .empty => []
  | .file name bytes rest => (name :: place, .file bytes) :: rest.listing place
  | .directory name inside rest =>
      (name :: place, .directory inside) :: inside.listing (name :: place) ++ rest.listing place

/-! ## Laws -/

@[simp]
theorem find?_cons (name other : String) (entry : DiskEntry) (f : Folder) :
    (cons name entry f).find? other = if name = other then some entry else f.find? other := by
  cases entry <;> rfl

@[simp]
theorem find?_insert_self (name : String) (entry : DiskEntry) (f : Folder) :
    (f.insert name entry).find? name = some entry := by
  induction f with
  | empty => simp [insert]
  | file other bytes rest ih =>
      rw [insert]
      split
      · simp
      · next h => simp [find?, h, ih]
  | directory other inside rest _ ih =>
      rw [insert]
      split
      · simp
      · next h => simp [find?, h, ih]

theorem find?_insert_of_ne {name other : String} (h : name ≠ other) (entry : DiskEntry)
    (f : Folder) : (f.insert name entry).find? other = f.find? other := by
  induction f with
  | empty => simp [insert, find?, h]
  | file first bytes rest ih =>
      rw [insert]
      split
      · next same => subst same; simp [find?, h]
      · simp [find?, ih]
  | directory first inside rest _ ih =>
      rw [insert]
      split
      · next same => subst same; simp [find?, h]
      · simp [find?, ih]

@[simp]
theorem find?_erase_self (name : String) (f : Folder) : (f.erase name).find? name = none := by
  induction f with
  | empty => rfl
  | file other bytes rest ih =>
      rw [erase]
      split
      · exact ih
      · next h => simp [find?, h, ih]
  | directory other inside rest _ ih =>
      rw [erase]
      split
      · exact ih
      · next h => simp [find?, h, ih]

theorem find?_erase_of_ne {name other : String} (h : name ≠ other) (f : Folder) :
    (f.erase name).find? other = f.find? other := by
  induction f with
  | empty => rfl
  | file first bytes rest ih =>
      rw [erase]
      split
      · next same => subst same; simp [find?, h, ih]
      · simp [find?, ih]
  | directory first inside rest _ ih =>
      rw [erase]
      split
      · next same => subst same; simp [find?, h, ih]
      · simp [find?, ih]

end Folder
end EmojiPicker

import EmojiPicker.Disk.Path
import EmojiPicker.Disk.Fault
import EmojiPicker.Disk.Folder
import EmojiPicker.Text.Utf8

/-!
# The disk as a value

* `Disk` — the files and directories, and the directory that relative paths start in;
* `Disk.locate` — the spot that a path leads to, step by step through existing directories;
* `Disk.read`, `Disk.readText`, `Disk.isFile`, `Disk.isDirectory`, `Disk.list` — questions;
* `Disk.makeDirectory`, `Disk.write`, `Disk.renameFile`, `Disk.removeFile` — changes;
* `Disk.makeDirectories` — a directory together with those above it.

Making a directory, writing and renaming can also fail for no fault of the path: each takes the next
of the disk's `mishaps`, and a disk without mishaps works.
-/

namespace EmojiPicker

inductive Mishap where
  | none
  /-- The change is refused and nothing is touched. -/
  | refusal
  /-- A write breaks off and leaves these bytes; any other change is refused. -/
  | torn (bytes : List UInt8)
  deriving DecidableEq, Repr

structure Disk where
  top : Folder := .empty
  workingDirectory : Place := []
  /-- What happens to the changes to come, the next one first. -/
  mishaps : List Mishap := []
  deriving DecidableEq, Repr

structure Spot where
  place : Place
  holds : Option DiskEntry
  deriving DecidableEq, Repr

namespace Disk

/-- The longest name of an entry, in bytes. -/
def longestName : Nat := 255

/-- The longest path, in bytes. -/
def longestPath : Nat := 4095

/-! ## Places -/

def entry? (d : Disk) (place : Place) : Option DiskEntry :=
  d.top.entry? place

def spot (d : Disk) (place : Place) : Spot :=
  ⟨place, d.entry? place⟩

/-- One step down, up or nowhere from a spot, where a directory has to stand. -/
def step (d : Disk) (s : Spot) (name : String) : Except DiskFault Spot :=
  match s.holds with
  | none => .error .notFound
  | some (.file _) => .error .notDirectory
  | some (.directory inside) =>
      if name == "." then .ok s
      -- The top directory is above itself.
      else if name == ".." then .ok (d.spot s.place.tail)
      else if longestName < name.utf8ByteSize then .error .nameTooLong
      else .ok ⟨name :: s.place, inside.find? name⟩

/-- The spot that some names lead to. Nothing needs to stand there. -/
def walk (d : Disk) (s : Spot) : List String → Except DiskFault Spot
  | [] => .ok s
  | name :: rest => do d.walk (← d.step s name) rest

def origin (d : Disk) (p : Path) : Place :=
  if p.isAbsolute then [] else d.workingDirectory

/-- Why the text of a path makes it unfit for any use. -/
def misspelling? (p : Path) : Option DiskFault :=
  if p.text.toList.contains '\x00' then some .nulCharacter
  else if longestPath < p.text.utf8ByteSize then some .nameTooLong
  else none

def locate (d : Disk) (p : Path) : Except DiskFault Spot :=
  match misspelling? p with
  | some fault => .error fault
  | none =>
      if p.text.isEmpty then .error .notFound else d.walk (d.spot (d.origin p)) p.names

/-! ## Questions -/

/-- What a path leads to. A path written as one of a directory leads to no file. -/
def find (d : Disk) (p : Path) : Except DiskFault DiskEntry := do
  match (← d.locate p).holds with
  | none => .error .notFound
  | some (.directory inside) => .ok (.directory inside)
  | some (.file bytes) => if p.endsInSlash then .error .notDirectory else .ok (.file bytes)

def read (d : Disk) (p : Path) : Except DiskFault (List UInt8) := do
  match ← d.find p with
  | .directory _ => .error .isDirectory
  | .file bytes => .ok bytes

def readText (d : Disk) (p : Path) : Except DiskFault (List Char) := do
  match Text.decode (← d.read p) with
  | .ok text => .ok text
  | .error _ => .error .notText

def isFile (d : Disk) (p : Path) : Bool :=
  match d.find p with
  | .ok (.file _) => true
  | _ => false

def isDirectory (d : Disk) (p : Path) : Bool :=
  match d.find p with
  | .ok (.directory _) => true
  | _ => false

def list (d : Disk) (p : Path) : Except DiskFault (List String) := do
  match (← d.locate p).holds with
  | none => .error .notFound
  | some (.file _) => .error .notDirectory
  | some (.directory inside) => .ok inside.names

/-! ## Changes -/

def put (d : Disk) (place : Place) (entry : DiskEntry) : Disk :=
  -- The top directory gives way to nothing.
  match place with
  | [] => d
  | name :: above => { d with top := d.top.changeAt (·.insert name entry) above.reverse }

def erase (d : Disk) (place : Place) : Disk :=
  match place with
  | [] => d
  | name :: above => { d with top := d.top.changeAt (·.erase name) above.reverse }

def nextMishap (d : Disk) : Mishap × Disk :=
  match d.mishaps with
  | [] => (.none, d)
  | mishap :: rest => (mishap, { d with mishaps := rest })

/-- Makes the directory at a path where nothing stands. -/
def makeDirectory (d : Disk) (p : Path) : Except DiskFault Unit × Disk :=
  match d.locate p with
  | .error fault => (.error fault, d)
  | .ok ⟨_, some _⟩ => (.error .alreadyThere, d)
  | .ok ⟨place, none⟩ =>
      match d.nextMishap with
      | (.none, d) => (.ok (), d.put place (.directory .empty))
      | (_, d) => (.error .device, d)

/-- Makes the first of some directories, where each of them lies in the next one: when that is
missing, it is made first. A directory that is there already is no fault. -/
def makeFirst : List Path → Disk → Except DiskFault Unit × Disk
  | [], d => (.ok (), d)
  | p :: above, d =>
      match d.makeDirectory p with
      | (.ok (), d) => (.ok (), d)
      | (.error .notFound, d) =>
          match makeFirst above d with
          | (.error fault, d) => (.error fault, d)
          | (.ok (), d) =>
              -- The second attempt finds the directory above in place.
              match d.makeDirectory p with
              | (.ok (), d) => (.ok (), d)
              | (.error fault, d) => if d.isDirectory p then (.ok (), d) else (.error fault, d)
      | (.error fault, d) => if d.isDirectory p then (.ok (), d) else (.error fault, d)

/-- Makes the directory at a path and those above it, as far as they are missing. The empty path
asks for none. -/
def makeDirectories (d : Disk) (p : Path) : Except DiskFault Unit × Disk :=
  if p.text.isEmpty then (.ok (), d) else makeFirst (p :: p.above) d

def makeParent (d : Disk) (p : Path) : Except DiskFault Unit × Disk :=
  makeFirst p.above d

/-- Gives the file at a path new bytes; the file is made if it is missing. -/
def write (d : Disk) (p : Path) (bytes : List UInt8) : Except DiskFault Unit × Disk :=
  match d.locate p with
  | .error fault => (.error fault, d)
  | .ok ⟨_, some (.directory _)⟩ => (.error .isDirectory, d)
  | .ok s =>
      if p.endsInSlash then
        (.error .isDirectory, d)
      else
        match d.nextMishap with
        | (.none, d) => (.ok (), d.put s.place (.file bytes))
        | (.refusal, d) => (.error .device, d)
        | (.torn left, d) => (.error .device, d.put s.place (.file left))

/-- Moves a file to another path, over a file that stands there. -/
def renameFile (d : Disk) (old new : Path) : Except DiskFault Unit × Disk :=
  match d.locate old, d.locate new with
  | .error fault, _ => (.error fault, d)
  | _, .error fault => (.error fault, d)
  | .ok ⟨_, none⟩, _ => (.error .notFound, d)
  | .ok ⟨_, some (.directory _)⟩, _ => (.error .isDirectory, d)
  | _, .ok ⟨_, some (.directory _)⟩ => (.error .isDirectory, d)
  | .ok ⟨source, some (.file bytes)⟩, .ok target =>
      if old.endsInSlash || new.endsInSlash then
        (.error .notDirectory, d)
      else
        match d.nextMishap with
        -- Taken away first: the target may be the source itself.
        | (.none, d) => (.ok (), (d.erase source).put target.place (.file bytes))
        | (_, d) => (.error .device, d)

def removeFile (d : Disk) (p : Path) : Except DiskFault Unit × Disk :=
  match d.locate p with
  | .error fault => (.error fault, d)
  | .ok ⟨_, none⟩ => (.error .notFound, d)
  | .ok ⟨_, some (.directory _)⟩ => (.error .isDirectory, d)
  | .ok ⟨place, some (.file _)⟩ =>
      if p.endsInSlash then (.error .notDirectory, d) else (.ok (), d.erase place)

end Disk
end EmojiPicker

import EmojiPicker.Disk.Tree
import EmojiPicker.Text.Blank

/-!
# Locations

Where the picker keeps its files.

* `Environment` — the variables that matter;
* `Locations.configuration` — the configuration directory, made where it is missing;
* `Locations.logs`, `Locations.dictionaries`, `Locations.settings`, `Locations.recents` — what lies
  in it.
-/

namespace EmojiPicker

structure Environment where
  home : Option String
  configurations : Option String
  deriving DecidableEq, Repr

namespace Locations

def directoryName : String := "emoji-palette"

/-- A variable as a path; a blank one counts as missing. -/
def path? (value : Option String) : Option Path :=
  (value.filter fun text => ! (Text.trim text.toList).isEmpty).map Path.mk

/-- The first of some directories that is there or can be made. -/
def firstUsable : List Path → Disk → Option Path × Disk
  | [], disk => (none, disk)
  | path :: rest, disk =>
      match disk.makeDirectories path with
      | (.ok (), disk) => (some path, disk)
      | (.error _, disk) => firstUsable rest disk

def candidates (env : Environment) : List Path :=
  ((path? env.home).map fun home => (home.child ".config").child directoryName).toList ++
    ((path? env.configurations).map (·.child directoryName)).toList

/-- The configuration directory: below the home directory, otherwise below that for configurations
in general, otherwise below the working directory. -/
def configuration (env : Environment) (disk : Disk) : Path × Disk :=
  match firstUsable (candidates env) disk with
  | (some path, disk) => (path, disk)
  | (none, disk) =>
      let path := (Path.mk ".config").child directoryName
      (path, (disk.makeDirectories path).2)

def entry (env : Environment) (name : String) (disk : Disk) : Path × Disk :=
  let (path, disk) := configuration env disk
  (path.child name, disk)

def logs (env : Environment) (disk : Disk) : Path × Disk :=
  let (path, disk) := entry env "logs" disk
  (path, (disk.makeDirectories path).2)

def dictionaries (env : Environment) : Disk → Path × Disk :=
  entry env "dicts"

def settings (env : Environment) : Disk → Path × Disk :=
  entry env "settings.conf"

def recents (env : Environment) : Disk → Path × Disk :=
  entry env "recent_emoji.json"

end Locations
end EmojiPicker

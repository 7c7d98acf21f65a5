import EmojiPicker.Catalog.Builtin
import EmojiPicker.Catalog.Document
import EmojiPicker.CommandLine
import EmojiPicker.Locations
import EmojiPicker.Session
import EmojiPicker.Settings.File

/-!
# The program

One run of the program over a disk and a network, from its command line to what it prints.

* `ProgramFault` — why a run fails, with its wording;
* `Outcome` — what a run prints, whether it fails, and the disk after it;
* `Program.prepare` — settings, catalog, recently used emoji and cache as a session that waits;
* `Program.run` — the whole run.
-/

namespace EmojiPicker

inductive ProgramFault where
  | failure (cause : Failure)
  | unreadable (path : Path) (cause : DiskFault)
  | notText (cause : Text.Utf8Error)
  deriving DecidableEq, Repr

def ProgramFault.message : ProgramFault → String
  | .failure cause => cause.message
  | .unreadable path cause => s!"read {path.text}: {cause.message}"
  | .notText cause => cause.message

structure Outcome where
  output : String
  fault : Option ProgramFault
  disk : Disk

namespace Program

/-! ## Preparation -/

/-- The settings of a run: those of the file, the options, and the address of a download. -/
def settingsFor (i : Invocation) (file : Settings) : Settings :=
  let s := i.override file
  match i.task with
  | some (.download (some address)) => { s with dictionaryAddress := some address }
  | _ => s

def catalogFor (s : Settings) (disk : Disk) : Except Failure Catalog :=
  match s.catalogPath with
  | some path => Catalog.load disk path
  | none => .ok .builtin

def cacheRoot (i : Invocation) (env : Environment) (disk : Disk) : Path × Disk :=
  match i.options.dictionaries with
  | some path => (path, disk)
  | none => Locations.dictionaries env disk

/-- A session over a catalog, a cache and the saved recently used emoji, before its first event. -/
def waitingSession (s : Settings) (catalog : Catalog) (root recents : Path) (disk : Disk) :
    Session where
  picker := s.picker catalog (RecentsFile.load disk recents) ⟨root, disk⟩
  recentsPath := recents

def loadSettings (i : Invocation) (env : Environment) (disk : Disk) : Settings × Disk :=
  let (path, disk) := Locations.settings env disk
  let (file, disk) := Settings.load disk path
  (settingsFor i file, disk)

/-- The session over a catalog that is read already. -/
def prepare (i : Invocation) (env : Environment) (s : Settings) (catalog : Catalog) (disk : Disk) :
    Session :=
  let (root, disk) := cacheRoot i env disk
  let (recents, disk) := Locations.recents env disk
  waitingSession s catalog root recents disk

/-! ## Tasks -/

def withPicker (s : Session) (picker : Picker DictionaryCache) : Session :=
  { s with picker := picker }

def sayAll (s : Session) (lines : List String) : Session :=
  lines.foldl Session.say s

def search (s : Session) (query : String) : Session :=
  match s.picker.dictionaries.requireReady with
  | .error failure => s.say s!"{failure.message}; run `emoji-palette download` first"
  | .ok _ =>
      let (keys, picker) := s.picker.find query
      sayAll (withPicker s picker)
        (keys.map fun key => key ++ "\t" ++ (picker.describe? key).getD "")

def describe (s : Session) (key : String) : Session :=
  s.say (key ++ "\t" ++ (s.picker.describe? key).getD "(no description)")

def categories (s : Session) : Session :=
  sayAll s <| s.picker.navigation.shown.map fun c =>
    s!"{c.id}\t{c.name}\t{c.pageCount} pages"

def recents (s : Session) : Session :=
  sayAll s s.picker.navigation.recents.visible

def install (s : Session) (file : Path) : Option ProgramFault × Session :=
  match s.disk.read file with
  | .error fault => (some (.unreadable file fault), s)
  | .ok bytes =>
      let locale := s.picker.locale
      let (result, dictionaries) := s.picker.dictionaries.install bytes locale
      let s := withPicker s { s.picker with dictionaries := dictionaries }
      match result with
      | .error failure => (some (.failure failure), s)
      | .ok (.installed path) => (none, s.say s!"installed {path.text} for {locale}")
      | .ok (.discarded _) => (none, s)

/-- Downloads the dictionary for the locale in use and waits for it. -/
def download (s : Session) (network : Network) : Session :=
  match s.picker.requestDownload with
  | (none, picker) => withPicker s picker
  | (some request, picker) =>
      let s := withPicker s picker
      withPicker s (s.picker.completeDownload (request.fetch s.disk network))

def greeting : String := "type `help` for commands, `quit` to exit"

def beginSession (s : Session) (locale : String) : Session :=
  (withPicker s (s.picker.start locale)).say greeting

def faultOf (s : Session) : Option ProgramFault :=
  match s.phase with
  | .failed fault => some (.notText fault)
  | _ => none

def session (s : Session) (locale : String) (input : List UInt8) (network : Network := .offline) :
    Option ProgramFault × Session :=
  let s := (beginSession s locale).read input network
  (faultOf s, s)

/-- Carries out a task. All tasks but a session use the locale at once. -/
def perform (s : Session) (locale : String) (task : Task) (input : List UInt8) (network : Network) :
    Option ProgramFault × Session :=
  let located := withPicker s (s.picker.changeLocale locale)
  match task with
  | .search query => (none, search located query)
  | .describe key => (none, describe located key)
  | .categories => (none, categories located)
  | .recents => (none, recents located)
  | .install file => install located file
  | .download _ => (none, download located network)
  | .session => session s locale input network

/-- A run of the program: its settings, its catalog, its task, and saving at the end. -/
def run (i : Invocation) (env : Environment) (input : List UInt8) (disk : Disk)
    (network : Network := .offline) : Outcome :=
  let (settings, disk) := loadSettings i env disk
  match catalogFor settings disk with
  | .error failure => ⟨"", some (.failure failure), disk⟩
  | .ok catalog =>
      let s := prepare i env settings catalog disk
      let (fault, s) := perform s settings.locale (i.task.getD .session) input network
      let s := if fault.isNone then s.persist else s
      ⟨Console.print (.ofCatalog catalog) s.displayed, fault, s.disk⟩

end Program
end EmojiPicker

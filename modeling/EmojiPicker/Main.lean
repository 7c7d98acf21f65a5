import EmojiPicker.Program

/-!
# The command

The program on a real disk. What the library needs of the disk is read first, the library works on
its own copy, and what it changed is written back: after each line in a session, at the end
otherwise. There is no client for the network here.

* `Terminal.loadTree`, `Terminal.loadPath` — parts of the real disk as a `Disk`;
* `Terminal.store` — changes of a `Disk` on the real one;
* `Terminal.runSession` — a session that answers line by line;
* `main` — the command.
-/

namespace EmojiPicker
namespace Terminal

/-! ## The real disk -/

def textOf (place : Place) : String :=
  "/" ++ "/".intercalate place.reverse

def withDirectory (disk : Disk) (place : Place) : Disk :=
  if (disk.entry? place).isNone then disk.put place (.directory .empty) else disk

partial def loadTree (disk : Disk) (place : Place) : IO Disk := do
  try
    let path ← IO.FS.realPath (textOf place)
    if ← path.isDir then
      let mut disk := withDirectory disk place
      for entry in ← path.readDir do
        disk ← loadTree disk (entry.fileName :: place)
      return disk
    else
      let content ← IO.FS.readBinFile path
      return disk.put place (.file content.toList)
  catch _ =>
    return disk

/-- Reads the directories on the way to a place, without what lies in them. -/
partial def loadAbove (disk : Disk) : Place → IO Disk
  | [] => return disk
  | name :: above => do
      let disk ← loadAbove disk above
      try
        let path ← IO.FS.realPath (textOf (name :: above))
        return if ← path.isDir then withDirectory disk (name :: above) else disk
      catch _ =>
        return disk

def loadPath (disk : Disk) (path : Path) : IO Disk := do
  let start := disk.origin path
  let place := path.names.foldl (fun place name =>
    if name == "." then place else if name == ".." then place.tail else name :: place) start
  loadTree (← loadAbove disk place) place

/-- Carries the changes between two disks out on the real one. -/
def store (old new : Disk) : IO Unit := do
  for (place, entry) in new.top.listing [] do
    try
      match entry, old.entry? place with
      | .directory _, some (.directory _) => pure ()
      | .directory _, _ => IO.FS.createDirAll (textOf place)
      | .file content, before =>
          if before != some (.file content) then
            IO.FS.writeBinFile (textOf place) (ByteArray.mk content.toArray)
    catch e =>
      (← IO.getStderr).putStrLn (toString e)
  for (place, _) in old.top.listing [] do
    if (new.entry? place).isNone then
      try IO.FS.removeFile (textOf place) catch _ => pure ()

/-! ## Input -/

partial def lineBytes (input : IO.FS.Stream) (sofar : ByteArray) : IO ByteArray := do
  let byte ← input.read 1
  if byte.isEmpty then
    return sofar
  let sofar := sofar.append byte
  if byte.toList == [0x0A] then
    return sofar
  lineBytes input sofar

/-! ## Runs -/

/-- Prints what was displayed since, and carries the changes out. -/
def follow (names : CategoryNames) (old new : Session) : IO Unit := do
  let output ← IO.getStdout
  output.putStr (Console.print names (new.displayed.drop old.displayed.length))
  output.flush
  store old.disk new.disk

/-- Reads lines until the session is over or the input ends, and runs the downloads then. -/
partial def runSession (names : CategoryNames) (input : IO.FS.Stream) (s : Session) :
    IO Session := do
  let line ← lineBytes input .empty
  if line.isEmpty then
    let last := (s.handle .inputClosed).runDownloads .offline
    follow names s last
    return last
  let next := (Text.byteLines line.toList).foldl (fun s l => s.handle (Session.eventOfLine l)) s
  follow names s next
  if next.phase == .running then runSession names input next else return next

def firstPaths (i : Invocation) (env : Environment) : List Path :=
  let task := match i.task with
    | some (.install file) => [file]
    | _ => []
  Locations.candidates env ++ [(Path.mk ".config").child Locations.directoryName] ++
    i.options.dictionaries.toList ++ task

def laterPaths (s : Settings) : List Path :=
  s.catalogPath.toList ++
    (s.dictionaryAddress.bind fun base => (DownloadRequest.mk "" base).path?).toList

def startingPlace : IO Place := do
  let here ← IO.currentDir
  return (Path.mk here.toString).names.reverse

/-- Reports the fault of a run, if there is one, by the exit code as well. -/
def report (fault : Option ProgramFault) : IO UInt32 := do
  match fault with
  | none => return 0
  | some fault =>
      (← IO.getStderr).putStrLn s!"error: {fault.message}"
      return 1

def execute (i : Invocation) : IO UInt32 := do
  let env : Environment := ⟨← IO.getEnv "HOME", ← IO.getEnv "XDG_CONFIG_HOME"⟩
  let start : Disk := { workingDirectory := ← startingPlace }
  let start ← (firstPaths i env).foldlM loadPath (← loadAbove start start.workingDirectory)
  let start ← (laterPaths (Program.loadSettings i env start).1).foldlM loadPath start
  match i.task.getD .session with
  | .session =>
      let (settings, disk) := Program.loadSettings i env start
      match Program.catalogFor settings disk with
      | .error failure =>
          store start disk
          report (some (.failure failure))
      | .ok catalog =>
          let waiting := Program.prepare i env settings catalog disk
          store start waiting.disk
          let begun := Program.beginSession waiting settings.locale
          let names := CategoryNames.ofCatalog catalog
          follow names waiting begun
          report (Program.faultOf (← runSession names (← IO.getStdin) begun))
  | _ =>
      let outcome := Program.run i env [] start .offline
      IO.print outcome.output
      store start outcome.disk
      report outcome.fault

def usage : UsageFault → String
  | .versionAsked => "emoji-palette 0.1.0"
  | .helpAsked =>
      "emoji-palette [OPTIONS] [search QUERY | describe KEY | categories | recents | " ++
        "install FILE | download [--url URL] | session]\n" ++
      "options: --log-level LEVEL, -v or --verbose, --locale LOCALE, --catalog FILE, " ++
        "--dict-dir DIR, --incognito"
  | .unknownArgument => "error: unexpected argument"
  | .unknownTask => "error: unrecognized subcommand"
  | .invalidValue => "error: invalid value for an argument"
  | .missingArgument => "error: a required argument was not provided"
  | .repeated => "error: an argument cannot be used multiple times"
  | .surplusValue => "error: unexpected value for an argument"

end Terminal
end EmojiPicker

open EmojiPicker in
def main (arguments : List String) : IO UInt32 := do
  match Invocation.parse arguments with
  | .ok i => Terminal.execute i
  | .error fault =>
      match fault with
      | .helpAsked | .versionAsked =>
          IO.println (Terminal.usage fault)
          return 0
      | _ =>
          (← IO.getStderr).putStrLn (Terminal.usage fault)
          return 2

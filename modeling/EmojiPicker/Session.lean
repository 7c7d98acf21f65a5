import EmojiPicker.Console
import EmojiPicker.Dictionary.Cache
import EmojiPicker.Picker
import EmojiPicker.Recents.File
import EmojiPicker.Session.Command

/-!
# Sessions

A session drives a picker over a dictionary cache by lines and by the downloads that it started, and
saves the recently used emoji whenever they changed.

* `Download`, `SessionPhase`, `Session` — the state of a session;
* `SessionEvent` — a line, a line that is no text, the end of the input, or a finished download;
* `Session.handle` — one event;
* `Session.events`, `Session.read` — a script as events, and a session over it to its end.

The input may end before the downloads do. The session then waits for them, and ends when none is in
flight.
-/

namespace EmojiPicker

structure Download where
  request : DownloadRequest
  handled : Bool
  deriving DecidableEq, Repr

inductive SessionPhase where
  | running
  | finished
  | failed (fault : Text.Utf8Error)
  deriving DecidableEq, Repr

inductive SessionEvent where
  | line (text : List Char)
  | unreadable (fault : Text.Utf8Error)
  | inputClosed
  /-- A download, by its place among those started, has a result. -/
  | delivered (index : Nat) (result : Except String (List UInt8))

structure Session where
  picker : Picker DictionaryCache
  recentsPath : Path
  downloads : List Download := []
  /-- How many of them are not handled yet. -/
  inFlight : Nat := 0
  inputClosed : Bool := false
  phase : SessionPhase := .running
  /-- What became of each attempt to save, the latest first. -/
  saves : List (Except DiskFault Unit) := []

namespace Session

/-! ## Parts of the state -/

def disk (s : Session) : Disk :=
  s.picker.dictionaries.store.disk

def withDisk (s : Session) (disk : Disk) : Session :=
  let dictionaries := s.picker.dictionaries
  let store := { dictionaries.store with disk := disk }
  { s with picker := { s.picker with dictionaries := { dictionaries with store := store } } }

def say (s : Session) (text : String) : Session :=
  { s with picker := s.picker.emit (.message text) }

/-! ## Saving -/

/-- Saves the recently used emoji if they changed. They count as saved even if that fails, so that a
broken disk is not tried again and again. -/
def persist (s : Session) : Session :=
  match s.picker.takeDirty with
  | (false, _) => s
  | (true, picker) =>
      let s := { s with picker := picker }
      let (result, disk) := RecentsFile.save s.disk s.recentsPath picker.navigation.recents.visible
      { s.withDisk disk with saves := result :: s.saves }

def finish (s : Session) : Session :=
  persist { s with picker := s.picker.stop, phase := .finished }

/-- Ends a session that has nothing more to wait for. -/
def settle (s : Session) : Session :=
  if s.inputClosed && s.inFlight == 0 then s.finish else s

/-! ## Events -/

def reportOf (n : Navigation) (offset extent range : UInt32) (firstFull firstPartial : Int)
    (category : Option CategoryId) : ScrollReport :=
  ⟨category.getD n.cursor.category, offset, extent, range, firstFull, firstPartial⟩

def download (s : Session) : Session :=
  match s.picker.requestDownload with
  | (none, picker) => { s with picker := picker }
  | (some request, picker) =>
      { s with
        picker := picker
        downloads := s.downloads ++ [⟨request, false⟩]
        inFlight := s.inFlight + 1 }

def applyTo {σ : Type} [DictionaryStore σ] (p : Picker σ) : SessionCommand → Picker σ
  | .nothing | .quit | .download => p
  | .help => p.emit (.message SessionCommand.helpText)
  | .tab tab => p.clickTab tab
  | .swipe position => p.swipe position
  | .scroll offset extent range firstFull firstPartial category =>
      p.scroll (reportOf p.navigation offset extent range firstFull firstPartial category)
  | .leave category => p.leave category
  | .pick key => p.pick key
  | .query text => p.query text
  | .choose key => p.choose key
  | .close => p.exitSearch
  | .locale locale => p.changeLocale locale
  | .clearCache => p.clearCache
  | .incognito on => p.setIncognito on
  | .hide => p.hide
  | .reveal => p.start p.locale

def obey (s : Session) (command : SessionCommand) : Session :=
  match command with
  | .quit => s.finish
  | .download => s.download.persist
  | command => persist { s with picker := applyTo s.picker command }

/-- Handles the result of a download. One that is not known, or was handled before, is ignored. -/
def deliver (s : Session) (index : Nat) (result : Except String (List UInt8)) : Session :=
  match s.downloads[index]? with
  | some ⟨request, false⟩ =>
      settle <| persist
        { s with
          picker := s.picker.completeDownload ⟨request.locale, result⟩
          downloads := s.downloads.set index ⟨request, true⟩
          inFlight := s.inFlight - 1 }
  | _ => s

def readLine (s : Session) (text : List Char) : Session :=
  match SessionCommand.parse text with
  | .ok command => s.obey command
  | .error fault => (s.say s!"error: {fault.message}").persist

/-- Handles one event. Nothing happens to a session that is over, and lines come only before the end
of the input. -/
def handle (s : Session) (event : SessionEvent) : Session :=
  match s.phase, event with
  | .running, .delivered index result => s.deliver index result
  | .running, .line text => if s.inputClosed then s else s.readLine text
  -- Nothing is saved or stopped when a line is no text.
  | .running, .unreadable fault => if s.inputClosed then s else { s with phase := .failed fault }
  | .running, .inputClosed =>
      if s.inputClosed then s else settle (persist { s with inputClosed := true })
  | _, _ => s

/-! ## Scripts -/

def eventOfLine (bytes : List UInt8) : SessionEvent :=
  match Text.decode bytes with
  | .ok text => .line text
  | .error fault => .unreadable fault

/-- A script: its lines and then its end. -/
def events (script : List UInt8) : List SessionEvent :=
  (Text.byteLines script).map eventOfLine ++ [.inputClosed]

def runDownload (network : Network) (s : Session) (index : Nat) : Session :=
  match s.downloads[index]? with
  | some ⟨request, false⟩ => s.handle (.delivered index (request.fetch s.disk network).result)
  | _ => s

def runDownloads (s : Session) (network : Network) : Session :=
  (List.range s.downloads.length).foldl (runDownload network) s

/-- A session over a script, with the downloads run after its last line. The network is the same for
all of them. -/
def read (s : Session) (script : List UInt8) (network : Network := .offline) : Session :=
  ((events script).foldl handle s).runDownloads network

def displayed (s : Session) : List ViewEvent :=
  s.picker.display.reverse

end Session
end EmojiPicker

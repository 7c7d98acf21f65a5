import EmojiPicker.Proofs.Json.Strings
import EmojiPicker.Proofs.Picker.Calls
import EmojiPicker.Proofs.Recents.Location
import EmojiPicker.Proofs.Session.Turns
import EmojiPicker.Proofs.Text.RoundTrip

/-!
# What a session leaves in its file

A session saves the recently used emoji after every event. What it leaves in the end depends on how
it ended.

* `RecentsFile.load_save`, `RecentsFile.load_spared` — the file after a save and after other changes;
* `Session.Owes`, `Session.Follows` — the session agrees with a ledger, before and after a save;
* `Session.Follows.turn`, `Session.Follows.foldl_handle` — every event and every run;
* `Session.restored_iff` — what is restored, and which sessions leave everything.

A line that is no text ends a session in the middle. Then what is visible is saved but what is
buffered is not, and the picker stays as it is.
-/

namespace EmojiPicker

/-! ## The file -/

namespace RecentsFile

variable {d e : Disk} {path : Path}

/-- The keys in some bytes. -/
def keysOf (bytes : List UInt8) : List String :=
  match Text.decode bytes with
  | .ok text => (Json.parseTexts? text).getD []
  | .error _ => []

theorem load_of_read {bytes : List UInt8} (h : d.read path = .ok bytes) :
    load d path = keysOf bytes := by
  rw [load, Disk.readText, h, keysOf]
  simp only [bind, Except.bind]
  cases Text.decode bytes <;> rfl

theorem load_of_unread (h : ∀ bytes, d.read path ≠ .ok bytes) : load d path = [] := by
  rw [load, Disk.readText]
  cases answer : d.read path with
  | error fault => rfl
  | ok bytes => exact absurd answer (h bytes)

/-- Only what can be read matters. -/
theorem load_congr (same : ∀ bytes, e.read path = .ok bytes ↔ d.read path = .ok bytes) :
    load e path = load d path := by
  cases answer : d.read path with
  | ok bytes => rw [load_of_read answer, load_of_read ((same bytes).2 answer)]
  | error fault =>
      have unread : ∀ bytes, d.read path ≠ .ok bytes := by
        intro bytes
        rw [answer]
        simp
      rw [load_of_unread unread, load_of_unread fun bytes h => unread bytes ((same bytes).1 h)]

/-- Installations of dictionaries change nothing. -/
theorem load_spared (spares : Disk.Spares DictionaryCache.isOwnName d e) (apart : Apart d path) :
    load e path = load d path := by
  rcases apart.named with ⟨name, ends, foreign⟩
  exact load_congr fun _ => Disk.read_spared spares ends foreign apart.steady

/-- Keys that were saved are loaded. -/
theorem load_save {keys : List String} (saved : save d path keys = (.ok (), e)) :
    load e path = keys ∧ e.Steady path := by
  have law := Disk.read_write (congrArg Prod.fst saved)
  rw [show ((d.makeParent path).2.write path _).2 = e from congrArg Prod.snd saved] at law
  refine ⟨?_, law.2⟩
  have held : keysOf (Text.encode (Json.printTexts keys)) = keys := by
    simp only [keysOf, Text.decode_encode, Json.parseTexts?_printTexts, Option.getD_some]
  exact (load_of_read law.1).trans held

end RecentsFile

namespace Session

variable {s t : Session} {ledger : Ledger}

/-! ## The ledger of a session -/

/-- Every save succeeded. -/
def Saved (s : Session) : Prop :=
  ∀ result ∈ s.saves, result = .ok ()

instance (s : Session) : Decidable s.Saved :=
  inferInstanceAs (Decidable (∀ result ∈ s.saves, result = .ok ()))

/-- What shows at first in another session over the same file. -/
def restored (s : Session) (capacity : Nat) : List String :=
  ((Recents.empty capacity).restore (RecentsFile.load s.disk s.recentsPath)).visible

/-- A session agrees with a ledger, and its file with what the ledger has as saved. -/
structure Owes (s : Session) (ledger : Ledger) : Prop where
  keeps : s.picker.Keeps ledger
  named : ∃ name, s.recentsPath.EndsIn name ∧ DictionaryCache.isOwnName name = false
  steady : s.Saved → s.disk.Steady s.recentsPath
  stored : s.Saved → s.restored ledger.capacity = ledger.saved
  stopped : s.phase = .finished → s.Stopped

/-- A session agrees with a ledger, and its file with what is visible. -/
structure Follows (s : Session) (ledger : Ledger) : Prop where
  owes : s.Owes { ledger with saved := s.picker.navigation.recents.visible }
  clean : s.picker.recentsDirty = false

/-- A session saves nothing, or all that is visible; then that counts as saved. -/
theorem persist_cases (s : Session) :
    (s.picker.recentsDirty = false ∧ s.persist = s) ∨
      ∃ result disk,
        RecentsFile.save s.disk s.recentsPath s.picker.navigation.recents.visible = (result, disk) ∧
          s.persist =
            { withDisk { s with picker := s.picker.takeDirty.2 } disk with
              saves := result :: s.saves } := by
  rw [Session.persist, Picker.takeDirty]
  cases dirty : s.picker.recentsDirty with
  | false => exact Or.inl ⟨rfl, rfl⟩
  | true =>
      dsimp only
      generalize written : RecentsFile.save _ _ _ = answer
      rcases answer with ⟨result, disk⟩
      exact Or.inr ⟨result, disk, written, rfl⟩

/-- A save changes nothing but the disk, what counts as saved, and the list of saves. -/
theorem persist_frame (s : Session) :
    ∃ disk saves, s.persist =
      { withDisk { s with picker := s.picker.takeDirty.2 } disk with saves := saves } := by
  rcases s.persist_cases with ⟨clean, same⟩ | ⟨result, disk, _, same⟩
  · refine ⟨s.disk, s.saves, ?_⟩
    rw [same, Picker.takeDirty, ← clean]
    rfl
  · exact ⟨disk, _, same⟩

theorem persist_path (s : Session) : s.persist.recentsPath = s.recentsPath := by
  rcases s.persist_frame with ⟨disk, saves, same⟩
  rw [same]
  rfl

theorem persist_phase (s : Session) : s.persist.phase = s.phase := by
  rcases s.persist_frame with ⟨disk, saves, same⟩
  rw [same]
  rfl

theorem persist_clean (s : Session) : s.persist.picker.recentsDirty = false := by
  rcases s.persist_frame with ⟨disk, saves, same⟩
  rw [same]
  rfl

theorem persist_of_clean (clean : s.picker.recentsDirty = false) : s.persist = s := by
  rw [persist, Picker.takeDirty, clean]

/-- A save settles what is owed, whatever becomes of it. -/
theorem Owes.persist {saved : List String} (owes : s.Owes { ledger with saved := saved }) :
    s.persist.Follows ledger := by
  have keeps := owes.keeps
  rcases s.persist_cases with ⟨dirty, same⟩ | ⟨result, disk, written, same⟩
  · -- Nothing is written, and what is owed was saved before.
    rw [same]
    have still := keeps.saved dirty
    refine ⟨?_, dirty⟩
    exact
      { keeps := keeps.resaved rfl rfl
        named := owes.named
        steady := owes.steady
        stored := fun saved => (owes.stored saved).trans still.symm
        stopped := owes.stopped }
  · -- If the save succeeded the file has what is visible, wherever its path led before.
    have law : result = .ok () →
        RecentsFile.load disk s.recentsPath = s.picker.navigation.recents.visible ∧
          disk.Steady s.recentsPath := by
      rintro rfl
      exact RecentsFile.load_save written
    have bound : max 1 ledger.capacity = s.picker.navigation.recents.capacity := by
      have := s.picker.navigation.recents.capacity_pos
      rw [← keeps.capacity]
      omega
    rw [same]
    refine ⟨?_, rfl⟩
    exact
      { keeps := keeps.resaved rfl rfl
        named := owes.named
        steady := fun saved => (law (saved result (by simp))).2
        stored := by
          intro saved
          have loaded := (law (saved result (by simp))).1
          change ((Recents.empty ledger.capacity).restore
            (RecentsFile.load disk s.recentsPath)).visible = _
          rw [loaded]
          exact Recents.restore_visible keeps.sound bound
        stopped := owes.stopped }

/-! ## Events -/

theorem Fed.steps {input : PickerInput} (fed : Fed s input t) :
    Picker.Steps true false s.picker t.picker :=
  .trans (s.picker.steps_feed input fun _ _ => rfl) fed.picker.steps

/-- All that the picker does to the disk it does by calls on its dictionaries. -/
theorem Fed.spares {input : PickerInput} (fed : Fed s input t) :
    Disk.Spares DictionaryCache.isOwnName s.disk t.disk := by
  rcases Picker.calls_feed s.picker input with ⟨calls, same⟩
  have spares := s.picker.dictionaries.spares_performAll calls
  rw [← same, ← fed.picker.dictionaries] at spares
  exact spares

/-- What is owed after the picker had an input: the file is read as before. -/
theorem Follows.feed {input : PickerInput} (follows : s.Follows ledger) (fed : Fed s input t) :
    t.Owes
      { ledger.follow input with saved := s.picker.navigation.recents.visible } := by
  have owes := follows.owes
  have disk := fed.spares
  rcases fed with ⟨picker, path, saves, stopped⟩
  have keeps := (owes.keeps.feed input).displays picker
  rw [Ledger.follow_withSaved] at keeps
  exact
    { keeps := keeps
      named := path ▸ owes.named
      steady := by
        rw [Saved, saves, path]
        exact fun saved => (owes.steady saved).spared disk
      stored := by
        rw [Saved, saves, restored, path]
        intro saved
        rw [RecentsFile.load_spared disk ⟨owes.named, owes.steady saved⟩]
        rw [Ledger.follow_capacity]
        exact owes.stored saved
      stopped := stopped }

theorem Follows.finish (follows : s.Follows ledger) : s.finish.Follows ledger :=
  Owes.persist (follows.feed s.fed_finish)

/-- Where nothing happens to the picker, everything is as it was. -/
theorem Follows.still (follows : s.Follows ledger) (picker : t.picker = s.picker)
    (path : t.recentsPath = s.recentsPath) (saves : t.saves = s.saves)
    (phase : t.phase = .finished → s.phase = .finished) : t.Follows ledger := by
  have owes := follows.owes
  have disk : t.disk = s.disk := by rw [disk, disk, picker]
  refine ⟨?_, by rw [picker, follows.clean]⟩
  exact
    { keeps := picker ▸ owes.keeps
      named := path ▸ owes.named
      steady := by
        rw [Saved, saves, disk, path]
        exact owes.steady
      stored := by
        rw [Saved, saves, restored, disk, path, picker]
        exact owes.stored
      stopped := by
        intro finished
        rw [Stopped, picker]
        exact owes.stopped (phase finished) }

theorem Follows.turn {inputs : List PickerInput} (follows : s.Follows ledger)
    (turn : Turn s inputs t) : t.Follows (inputs.foldl Ledger.follow ledger) := by
  induction turn with
  | still picker path saves phase => exact follows.still picker path saves phase
  | unheard silent fed =>
      have owes := follows.feed fed
      rw [ledger.follow_silent silent] at owes
      exact owes.persist
  | obeyed fed => exact (follows.feed fed).persist
  | ended _ ih => exact ih.finish

/-! ## Runs -/

/-- Every run is recorded in the ledger, whatever becomes of the saves. -/
theorem Follows.foldl_handle (follows : s.Follows ledger) (events : List SessionEvent) :
    (events.foldl Session.handle s).Follows ((s.hears events).foldl Ledger.follow ledger) := by
  induction events generalizing s ledger with
  | nil =>
      have none : s.hears [] = [] := by
        rw [hears]
        split <;> rfl
      rw [none]
      exact follows
  | cons event rest ih =>
      rcases s.turn_handle event with ⟨inputs, turn, later⟩
      rw [later rest, List.foldl_append]
      exact ih (follows.turn turn)

/-! ## Whole sessions -/

/-- Coming onto the screen leaves the recently used emoji as they are. -/
theorem start_recents (p : Picker DictionaryCache) (locale : String) :
    (p.start locale).navigation.recents = p.navigation.recents ∧
      (p.start locale).recentsDirty = p.recentsDirty := by
  rcases Picker.start_cases p locale with ⟨_, shown, _⟩ | ⟨_, _, _, shown, _⟩
  · rw [shown]
    exact ⟨rfl, rfl⟩
  · rw [shown]
    exact ⟨rfl, rfl⟩

/-- A session has the bound of its settings. -/
theorem empty_waiting (settings : Settings) (catalog : Catalog) (root path : Path) (disk : Disk) :
    let first := Program.waitingSession settings catalog root path disk
    Recents.empty first.picker.navigation.recents.capacity =
      Recents.empty settings.recentsCapacity :=
  (congrArg Recents.empty (Recents.restore_capacity _ _)).trans (Recents.empty_capacity _)

theorem follows_begin (settings : Settings) (catalog : Catalog) (root path : Path) (disk : Disk)
    (locale : String) (apart : RecentsFile.Apart disk path) :
    let first := Program.waitingSession settings catalog root path disk
    (Program.beginSession first locale).Follows
      { capacity := first.picker.navigation.recents.capacity
        keys := first.picker.navigation.recents.visible
        incognito := settings.incognito
        saved := first.picker.navigation.recents.visible } := by
  intro first
  have keeps : first.picker.Keeps
      { capacity := first.picker.navigation.recents.capacity
        keys := first.picker.navigation.recents.visible
        incognito := settings.incognito
        saved := first.picker.navigation.recents.visible } :=
    Picker.keeps_new settings catalog (RecentsFile.load disk path) (⟨root, disk⟩ : DictionaryCache)
  have bound := empty_waiting settings catalog root path disk
  -- The start of the picker is the only thing that happens.
  rcases start_recents first.picker locale with ⟨recents, dirty⟩
  have begun := keeps.start locale
  have calls := Picker.calls_start first.picker locale
  rw [Program.beginSession, Program.withPicker, say]
  generalize first.picker.start locale = started at recents dirty begun calls
  have spares : Disk.Spares DictionaryCache.isOwnName disk started.dictionaries.store.disk := by
    rcases calls with ⟨calls, same⟩
    rw [same]
    exact first.picker.dictionaries.spares_performAll calls
  refine ⟨?_, dirty⟩
  exact
    { keeps := Picker.Keeps.resaved (p := started) begun rfl rfl
      named := apart.named
      steady := fun _ => apart.steady.spared spares
      stored := by
        intro _
        change ((Recents.empty first.picker.navigation.recents.capacity).restore
          (RecentsFile.load started.dictionaries.store.disk path)).visible =
            started.navigation.recents.visible
        rw [RecentsFile.load_spared spares apart, recents, bound]
        rfl
      stopped := fun finished => absurd finished (by simp [first, Program.waitingSession]) }

/-- What a session leaves, if its saves succeed: the visible keys are in the file, and together with
the buffer they are everything that was recorded. All of it is in the file, with the picker stopped
and its buffer empty, exactly if reading did not fail while the picker was on the screen or had
something buffered. -/
theorem restored_iff (settings : Settings) (catalog : Catalog) (root path : Path) (disk : Disk)
    (locale : String) (events : List SessionEvent) (apart : RecentsFile.Apart disk path) :
    let first := Program.waitingSession settings catalog root path disk
    let recorded := recalled first.picker.navigation.recents.capacity
      first.picker.navigation.recents.visible
      (PickerInput.recorded settings.incognito (heard events))
    let s := events.foldl handle (Program.beginSession first locale)
    s.phase ≠ .running → s.Saved →
      s.restored settings.recentsCapacity = s.picker.navigation.recents.visible ∧
        s.picker.navigation.recents.flushed = recorded ∧
        (s.Stopped ∧ s.restored settings.recentsCapacity = recorded ↔
          ∀ fault, s.phase = .failed fault → s.Stopped) := by
  intro first recorded s ended saved
  have begun := follows_begin settings catalog root path disk locale apart
  have follows := begun.foldl_handle events
  have listening : (Program.beginSession first locale).listens = true := rfl
  rw [hears_of_listens listening] at follows
  have owes := follows.owes
  have restored : s.restored settings.recentsCapacity = s.picker.navigation.recents.visible := by
    have stored := owes.stored saved
    rw [Ledger.foldl_follow_capacity, Session.restored, empty_waiting] at stored
    exact stored
  have flushed : s.picker.navigation.recents.flushed = recorded := by
    have sound := Recents.sound_restore (Recents.sound_empty settings.recentsCapacity)
      (RecentsFile.load disk path)
    rw [owes.keeps.flushed]
    exact Ledger.foldl_follow_keys _ first.picker.navigation.recents.capacity_pos
      sound.visible_nodup sound.visible_le _
  refine ⟨restored, flushed, ?_⟩
  constructor
  · rintro ⟨stopped, _⟩ _ _
    exact stopped
  · intro survives
    have stopped : s.Stopped := by
      cases phase : s.phase with
      | running => exact absurd phase ended
      | finished => exact owes.stopped phase
      | failed fault => exact survives fault phase
    refine ⟨stopped, ?_⟩
    rw [restored, ← flushed, Recents.flushed_of_pending_nil stopped.2]

/-- A pick that is buffered when the session ends by its `quit`. -/
theorem restored_iff_quit :
    let keys := Text.encode (Json.printTexts ["🐶"])
    let disk : Disk := { top := .directory "state" (.file "recent_emoji.json" keys .empty) .empty }
    let first := Program.waitingSession {} ⟨[⟨⟨1⟩, "faces", ["😀", "🐱"]⟩]⟩ ⟨"dicts"⟩
      ⟨"state/recent_emoji.json"⟩ disk
    let s := [SessionEvent.line "pick 😀".toList, .line "quit".toList].foldl handle
      (Program.beginSession first "en")
    (s.phase ≠ .running ∧ s.Saved) ∧ s.Stopped ∧ s.restored 32 = ["😀", "🐶"] := by
  intro keys disk first s
  have apart : RecentsFile.Apart disk ⟨"state/recent_emoji.json"⟩ :=
    ⟨⟨"recent_emoji.json", ⟨by decide, by decide, by decide⟩, by decide⟩,
      Or.inr (Or.inl (by decide))⟩
  have ended : s.phase ≠ .running := by decide +kernel
  have saved : s.Saved := by decide +kernel
  have law := restored_iff {} ⟨[⟨⟨1⟩, "faces", ["😀", "🐱"]⟩]⟩ ⟨"dicts"⟩ ⟨"state/recent_emoji.json"⟩
    disk "en" [.line "pick 😀".toList, .line "quit".toList] apart ended saved
  have read : ∀ fault, s.phase ≠ .failed fault := by
    intro fault failed
    have finished : s.phase = .finished := by decide +kernel
    rw [finished] at failed
    exact absurd failed (by simp)
  have left := law.2.2.2 fun fault failed => absurd failed (read fault)
  exact ⟨⟨ended, saved⟩, left.1, left.2.trans (by decide +kernel)⟩

/-- A pick that is buffered when a line is no text. It is neither visible nor in the file. -/
theorem pick_lost_by_failure :
    let keys := Text.encode (Json.printTexts ["🐶"])
    let disk : Disk := { top := .directory "state" (.file "recent_emoji.json" keys .empty) .empty }
    let first := Program.waitingSession {} ⟨[⟨⟨1⟩, "faces", ["😀", "🐱"]⟩]⟩ ⟨"dicts"⟩
      ⟨"state/recent_emoji.json"⟩ disk
    let script := Text.encode "pick 😀\n".toList ++ [0xFF, 0x0A]
    let s := (Program.session first "en" script).2
    let recorded := recalled 32 first.picker.navigation.recents.visible
      (PickerInput.recorded false (heard (events script)))
    s.phase ≠ .running ∧ s.Saved ∧ recorded = ["😀", "🐶"] ∧ s.restored 32 = ["🐶"] ∧
      s.picker.visible = true ∧ s.picker.navigation.recents.pending = ["😀"] := by
  decide +kernel

end Session
end EmojiPicker

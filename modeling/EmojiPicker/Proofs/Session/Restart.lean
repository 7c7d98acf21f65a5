import EmojiPicker.Proofs.Session.Saving

/-!
# Restarting shows the same keys

The file holds the visible keys at every moment of a session, whatever it held at first.

* `Picker.Idle` — a picker with nothing to save, and which changes leave it so;
* `Session.ReadsBack` — reading gives what was written last;
* `Session.Mirrors`, `Session.Updates` — what holds between events, and what one event does to the file;
* `Session.readsBack_of_apart` — a file that installations cannot touch is read back;
* `Session.restart_invisible` — the keys after a restart, and sessions without a save.

Reading can fail to give back what was written only where a download is installed over the file.
-/

namespace EmojiPicker

/-! ## Pickers with nothing to save -/

namespace Picker

variable {σ : Type} {p q : Picker σ}

/-- Nothing is buffered, and the visible keys count as saved. -/
structure Idle (p : Picker σ) : Prop where
  empty : p.navigation.recents.pending = []
  clean : p.recentsDirty = false

theorem Idle.displays (idle : p.Idle) (shown : Displays p q) : q.Idle := by
  rcases shown with ⟨events, rfl, _⟩
  exact ⟨idle.empty, idle.clean⟩

/-- There is no buffer that could show. -/
theorem Idle.settle (idle : p.Idle) : p.settle.2.Idle where
  empty := p.settle_pending
  clean := by
    have unchanged : p.navigation.recents.flushPending.1 = false := by
      rw [Recents.flushPending, idle.empty]
      rfl
    rw [settle_eq]
    exact Bool.or_eq_false_iff.2 ⟨idle.clean, unchanged⟩

variable [DictionaryStore σ]

theorem Idle.step (idle : p.Idle) (step : Step false false p q) : q.Idle := by
  cases step with
  | displayed shown => exact idle.displays shown
  | shown => exact ⟨idle.empty, idle.clean⟩
  | searched => exact ⟨idle.empty, idle.clean⟩
  | selected id animate => exact ⟨by rw [selecting, (Navigation.sameKeys_select _ _ _).recents, idle.empty], idle.clean⟩
  | scrolled report => exact ⟨by rw [(Navigation.sameKeys_scroll _ _).recents, idle.empty], idle.clean⟩
  | rekeyed accepted allowed => exact absurd allowed (by simp)
  | settled => exact idle.settle
  | recorded key allowed => exact absurd allowed (by simp)
  | saved => exact ⟨idle.empty, rfl⟩
  | switched => exact ⟨idle.empty, idle.clean⟩
  | localized => exact ⟨idle.empty, idle.clean⟩
  | installed => exact ⟨idle.empty, idle.clean⟩
  | closed => exact ⟨idle.empty, idle.clean⟩

theorem Idle.steps (idle : p.Idle) (steps : Steps false false p q) : q.Idle := by
  induction steps with
  | refl => exact idle
  | tail _ step ih => exact ih.step step

/-- An input that records nothing leaves nothing to save. -/
theorem Idle.feed (idle : p.Idle) {input : PickerInput}
    (unrecorded : (if p.options.incognito then [] else input.key?.toList) = []) :
    (p.feed input).Idle := by
  refine idle.steps (p.steps_feed input ?_)
  intro off picks
  rw [off, if_neg (by simp)] at unrecorded
  cases key : input.key? with
  | none => exact absurd key picks
  | some key' =>
      rw [key] at unrecorded
      exact absurd unrecorded (by simp)

end Picker

theorem Ledger.foldl_follow_incognito (ledger : Ledger) (inputs : List PickerInput) :
    (inputs.foldl follow ledger).incognito =
      inputs.foldl PickerInput.incognito ledger.incognito := by
  induction inputs generalizing ledger with
  | nil => rfl
  | cons input rest ih =>
      rw [List.foldl_cons, ih, follow_incognito]
      rfl

theorem PickerInput.recorded_append (off : Bool) (inputs rest : List PickerInput) :
    recorded off (inputs ++ rest) =
      recorded off inputs ++ recorded (inputs.foldl incognito off) rest := by
  induction inputs generalizing off with
  | nil => rfl
  | cons input more ih => simp [recorded, ih]

theorem PickerInput.key?_silent {input : PickerInput} (silent : input.isSilent = true) :
    input.key? = none := by
  cases input with
  | completed outcome => rfl
  | command command =>
      cases command with
      | nothing => rfl
      | _ => exact absurd silent (by simp [isSilent])

namespace Session

variable {s t : Session} {ledger : Ledger}

/-! ## One event -/

/-- Reading gives what was written last: an event without a save leaves the keys in the file. -/
def ReadsBack (s : Session) : List SessionEvent → Prop
  | [] => True
  | event :: rest =>
      ((s.handle event).saves = s.saves →
        RecentsFile.load (s.handle event).disk s.recentsPath =
          RecentsFile.load s.disk s.recentsPath) ∧
        (s.handle event).ReadsBack rest

/-- A session agrees with a ledger and has saved what is visible, or tried to. -/
structure Mirrors (s : Session) (ledger : Ledger) : Prop where
  keeps : s.picker.Keeps { ledger with saved := s.picker.navigation.recents.visible }
  clean : s.picker.recentsDirty = false

/-- From one moment to another nothing was saved and the visible keys are the same, or something was
saved, and that was the keys that are visible now. -/
def Updates (s t : Session) : Prop :=
  (t.saves = s.saves ∧ t.picker.navigation.recents.visible = s.picker.navigation.recents.visible) ∨
    (s.saves.length < t.saves.length ∧
      (t.Saved →
        RecentsFile.load t.disk t.recentsPath = t.picker.navigation.recents.visible))

/-- A save settles what is new since a moment, if nothing was saved in between. -/
theorem updates_persist {saved : List String} (keeps : t.picker.Keeps { ledger with saved := saved })
    (before : saved = s.picker.navigation.recents.visible) (saves : t.saves = s.saves) :
    t.persist.Mirrors ledger ∧ Updates s t.persist := by
  rcases t.persist_cases with ⟨dirty, same⟩ | ⟨result, disk, written, same⟩
  · rw [same]
    exact ⟨⟨keeps.resaved rfl rfl, dirty⟩, Or.inl ⟨saves, (keeps.saved dirty).trans before⟩⟩
  · rw [same]
    refine ⟨⟨keeps.resaved rfl rfl, rfl⟩, Or.inr ⟨?_, ?_⟩⟩
    · simp [saves]
    · intro all
      obtain rfl : result = .ok () := all result (by simp)
      exact (RecentsFile.load_save written).1

theorem Mirrors.fed {input : PickerInput} (mirrors : s.Mirrors ledger) (fed : Fed s input t) :
    t.persist.Mirrors (ledger.follow input) ∧ Updates s t.persist := by
  have keeps := (mirrors.keeps.feed input).displays fed.picker
  rw [Ledger.follow_withSaved] at keeps
  exact updates_persist keeps rfl fed.saves

theorem finish_path (s : Session) : s.finish.recentsPath = s.recentsPath :=
  persist_path _

/-- The end of a session asks nothing of the dictionaries. -/
theorem finish_disk (unsaved : s.finish.saves = s.saves) : s.finish.disk = s.disk := by
  have stopped : s.picker.stop.dictionaries = s.picker.dictionaries :=
    (Picker.displays_hide s.picker).dictionaries
  rw [finish] at unsaved ⊢
  rcases persist_cases { s with picker := s.picker.stop, phase := .finished } with
    ⟨_, same⟩ | ⟨result, disk, _, same⟩
  · rw [same, Session.disk, Session.disk, stopped]
  · rw [same] at unsaved
    exact absurd unsaved (List.cons_ne_self result s.saves)

theorem Updates.finish (updates : Updates s t) (mirrors : t.Mirrors ledger) :
    t.finish.Mirrors ledger ∧ Updates s t.finish := by
  have law : t.finish.Mirrors ledger ∧ Updates t t.finish := mirrors.fed t.fed_finish
  refine ⟨law.1, ?_⟩
  rcases law.2 with ⟨saves, visible⟩ | ⟨longer, written⟩
  · -- Without another save the file is as the first one left it.
    rcases updates with ⟨unsaved, same⟩ | ⟨saved, written⟩
    · exact Or.inl ⟨saves.trans unsaved, visible.trans same⟩
    · refine Or.inr ⟨by rw [saves]; exact saved, ?_⟩
      intro all
      rw [finish_disk saves, finish_path, visible]
      rw [Saved, saves] at all
      exact written all
  · refine Or.inr ⟨?_, written⟩
    rcases updates with ⟨unsaved, _⟩ | ⟨saved, _⟩
    · rw [← unsaved]
      exact longer
    · exact saved.trans longer

theorem Turn.path {inputs : List PickerInput} (turn : Turn s inputs t) :
    t.recentsPath = s.recentsPath := by
  induction turn with
  | still _ path => exact path
  | unheard _ fed => exact (persist_path _).trans fed.path
  | obeyed fed => exact (persist_path _).trans fed.path
  | ended _ ih => exact (finish_path _).trans ih

theorem Mirrors.turn {inputs : List PickerInput} (mirrors : s.Mirrors ledger)
    (turn : Turn s inputs t) :
    t.Mirrors (inputs.foldl Ledger.follow ledger) ∧ Updates s t := by
  induction turn with
  | still picker path saves _ =>
      refine ⟨⟨?_, ?_⟩, Or.inl ⟨saves, by rw [picker]⟩⟩
      · rw [picker]
        exact mirrors.keeps
      · rw [picker]
        exact mirrors.clean
  | unheard silent fed =>
      have law := mirrors.fed fed
      rw [ledger.follow_silent silent] at law
      exact law
  | obeyed fed => exact mirrors.fed fed
  | ended _ ih => exact ih.2.finish ih.1

/-! ## Runs -/

/-- What is restored after an event, if it was the visible keys before and reading gives back what
was written. -/
theorem Updates.restored (updates : Updates s t) (mirrors : t.Mirrors ledger)
    (path : t.recentsPath = s.recentsPath)
    (stored : s.Saved → s.restored ledger.capacity = s.picker.navigation.recents.visible)
    (reads : t.saves = s.saves →
      RecentsFile.load t.disk s.recentsPath = RecentsFile.load s.disk s.recentsPath)
    (saved : t.Saved) : t.restored ledger.capacity = t.picker.navigation.recents.visible := by
  rcases updates with ⟨unsaved, same⟩ | ⟨_, written⟩
  · rw [Session.restored, path, reads unsaved, same]
    rw [Saved, unsaved] at saved
    exact stored saved
  · have bound : max 1 ledger.capacity = t.picker.navigation.recents.capacity := by
      have := t.picker.navigation.recents.capacity_pos
      rw [← mirrors.keeps.capacity]
      omega
    rw [Session.restored, written saved]
    exact Recents.restore_visible mirrors.keeps.sound bound

theorem Mirrors.foldl_handle (mirrors : s.Mirrors ledger) (events : List SessionEvent)
    (reads : s.ReadsBack events)
    (stored : s.Saved → s.restored ledger.capacity = s.picker.navigation.recents.visible) :
    let t := events.foldl handle s
    t.Saved → t.restored ledger.capacity = t.picker.navigation.recents.visible := by
  induction events generalizing s ledger with
  | nil => exact stored
  | cons event rest ih =>
      rcases s.turn_handle event with ⟨inputs, turn, _⟩
      rcases mirrors.turn turn with ⟨after, updates⟩
      -- Inputs never change the capacity, so one bound serves before and after the event.
      have bound := Ledger.foldl_follow_capacity ledger inputs
      have kept := ih after reads.2
      rw [bound] at kept
      apply kept
      rw [← bound]
      refine updates.restored after turn.path ?_ reads.1
      rw [bound]
      exact stored

/-! ## Sessions without a save -/

theorem Fed.unsaved {input : PickerInput} (fed : Fed s input t) (idle : s.picker.Idle)
    (unrecorded : (if s.picker.options.incognito then [] else input.key?.toList) = []) :
    t.persist.picker.Idle ∧ t.persist.saves = s.saves ∧
      Picker.Calls s.picker t.persist.picker := by
  have after := (idle.feed unrecorded).displays fed.picker
  have calls := (Picker.calls_feed s.picker input).trans
    (Picker.calls_of_eq fed.picker.dictionaries)
  rw [persist_of_clean after.clean]
  exact ⟨after, fed.saves, calls⟩

/-- Where an event records nothing, nothing is saved, and the disk changes by calls on the
dictionaries alone. -/
theorem Mirrors.unsaved {inputs : List PickerInput} (mirrors : s.Mirrors ledger)
    (idle : s.picker.Idle) (turn : Turn s inputs t)
    (unrecorded : PickerInput.recorded ledger.incognito inputs = []) :
    t.picker.Idle ∧ t.saves = s.saves ∧ Picker.Calls s.picker t.picker := by
  induction turn with
  | still picker _ saves _ =>
      rw [picker]
      exact ⟨idle, saves, Picker.calls_of_eq rfl⟩
  | unheard silent fed =>
      refine fed.unsaved idle ?_
      rw [PickerInput.key?_silent silent]
      split <;> rfl
  | @obeyed t input fed =>
      refine fed.unsaved idle ?_
      rw [mirrors.keeps.incognito]
      simpa [PickerInput.recorded] using unrecorded
  | @ended t _ _ ih =>
      rcases ih unrecorded with ⟨idle, saves, calls⟩
      have last : t.finish.picker.Idle ∧ t.finish.saves = t.saves ∧
          Picker.Calls t.picker t.finish.picker :=
        t.fed_finish.unsaved idle (by split <;> rfl)
      exact ⟨last.1, last.2.1.trans saves, calls.trans last.2.2⟩

theorem Mirrors.unsaved_foldl (mirrors : s.Mirrors ledger) (idle : s.picker.Idle)
    (events : List SessionEvent)
    (unrecorded : PickerInput.recorded ledger.incognito (s.hears events) = []) :
    let t := events.foldl handle s
    t.saves = s.saves ∧ Picker.Calls s.picker t.picker := by
  induction events generalizing s ledger with
  | nil => exact ⟨rfl, Picker.calls_of_eq rfl⟩
  | cons event rest ih =>
      rcases s.turn_handle event with ⟨inputs, turn, later⟩
      -- Nothing is recorded by this event, nor by the others from the switch that it leaves.
      rw [later rest, PickerInput.recorded_append, List.append_eq_nil_iff,
        ← Ledger.foldl_follow_incognito] at unrecorded
      rcases mirrors.unsaved idle turn unrecorded.1 with ⟨idle', saves, calls⟩
      rcases ih (mirrors.turn turn).1 idle' unrecorded.2 with ⟨saves', calls'⟩
      exact ⟨saves'.trans saves, calls.trans calls'⟩

/-! ## Beginnings -/

/-- Coming onto the screen changes nothing on the disk. -/
theorem start_store (p : Picker DictionaryCache) (locale : String) :
    (p.start locale).dictionaries.store = p.dictionaries.store := by
  have asked : (p.start locale).dictionaries = p.dictionaries.ensure (Locale.normalize locale) := by
    rcases Picker.start_cases p locale with shown | ⟨page, remembered, shown⟩
    · exact shown.dictionaries
    · exact shown.dictionaries
  rw [asked, Lifecycle.ensure_store]

theorem mirrors_begin (settings : Settings) (catalog : Catalog) (root path : Path) (disk : Disk)
    (locale : String) :
    let first := Program.waitingSession settings catalog root path disk
    let ledger : Ledger :=
      { capacity := first.picker.navigation.recents.capacity
        keys := first.picker.navigation.recents.visible
        incognito := settings.incognito
        saved := first.picker.navigation.recents.visible }
    ∀ start ∈ [first, Program.beginSession first locale],
      start.Mirrors ledger ∧ start.picker.Idle ∧ start.listens = true ∧ start.saves = [] ∧
        start.restored ledger.capacity = start.picker.navigation.recents.visible ∧
        start.disk = disk := by
  intro first ledger start member
  have keeps : first.picker.Keeps ledger :=
    Picker.keeps_new settings catalog (RecentsFile.load disk path) (⟨root, disk⟩ : DictionaryCache)
  have idle : first.picker.Idle := ⟨Recents.restore_pending _ _, rfl⟩
  have stored : first.restored ledger.capacity = first.picker.navigation.recents.visible := by
    rw [restored, empty_waiting]
    rfl
  rcases List.mem_cons.1 member with rfl | begun
  · exact ⟨⟨keeps, rfl⟩, idle, rfl, rfl, stored, rfl⟩
  · obtain rfl := List.mem_singleton.1 begun
    rcases start_recents first.picker locale with ⟨recents, dirty⟩
    have store := start_store first.picker locale
    have shown := keeps.start locale
    have still : Picker.Idle (first.picker.start locale) := idle.steps (first.picker.steps_start locale)
    rw [Program.beginSession, Program.withPicker, say]
    generalize first.picker.start locale = started at recents dirty store shown still ⊢
    refine ⟨⟨Picker.Keeps.resaved (p := started) shown rfl rfl, dirty⟩,
      still.displays (Picker.displays_emit _ trivial), rfl, rfl, ?_, congrArg DictionaryCache.disk store⟩
    change ((Recents.empty ledger.capacity).restore
      (RecentsFile.load started.dictionaries.store.disk path)).visible =
        started.navigation.recents.visible
    rw [store, recents]
    exact stored

/-! ## Files that are read back -/

/-- From one moment to another every directory stays, and without a save so does every file that no
installation touches. -/
structure Leaves (s t : Session) : Prop where
  directories : Disk.Spares (fun _ => true) s.disk t.disk
  saves : s.saves <:+ t.saves
  files : t.saves = s.saves → Disk.Spares DictionaryCache.isOwnName s.disk t.disk

theorem leaves_of_spares (spares : Disk.Spares DictionaryCache.isOwnName s.disk t.disk)
    (saves : t.saves = s.saves) : Leaves s t where
  directories := spares.weaken (by simp)
  saves := saves ▸ List.suffix_refl _
  files := fun _ => spares

theorem Leaves.trans {u : Session} (first : Leaves s t) (second : Leaves t u) : Leaves s u where
  directories := first.directories.trans second.directories
  saves := first.saves.trans second.saves
  files := by
    intro unsaved
    -- Saves only accumulate, so that there was none on the way either.
    have back : u.saves <:+ t.saves := by
      rw [unsaved]
      exact first.saves
    have same : u.saves = t.saves := back.eq_of_length_le second.saves.length_le
    exact (first.files (same.symm.trans unsaved)).trans (second.files same)

theorem leaves_persist (s : Session) : Leaves s s.persist := by
  rcases s.persist_cases with ⟨_, same⟩ | ⟨result, disk, written, same⟩
  · rw [same]
    exact leaves_of_spares (Disk.Spares.refl _ _) rfl
  · rw [same]
    have made : Disk.Spares (fun _ => true) s.disk (s.disk.makeParent s.recentsPath).2 :=
      Disk.spares_makeParent _ _ _
    have saved := made.trans (Disk.spares_directories_write _ s.recentsPath
      (Text.encode (Json.printTexts s.picker.navigation.recents.visible)))
    rw [show (Disk.write _ _ _).2 = disk from congrArg Prod.snd written] at saved
    refine ⟨saved, List.suffix_cons result s.saves, ?_⟩
    intro unsaved
    exact absurd unsaved (List.cons_ne_self result s.saves)

theorem Turn.leaves {inputs : List PickerInput} (turn : Turn s inputs t) : Leaves s t := by
  induction turn with
  | still picker _ saves _ =>
      refine leaves_of_spares ?_ saves
      rw [disk, disk, picker]
      exact Disk.Spares.refl _ _
  | unheard _ fed => exact (leaves_of_spares fed.spares fed.saves).trans (leaves_persist _)
  | obeyed fed => exact (leaves_of_spares fed.spares fed.saves).trans (leaves_persist _)
  | @ended t _ _ ih =>
      have last := t.fed_finish
      exact ih.trans ((leaves_of_spares last.spares last.saves).trans (leaves_persist _))

/-- What installations cannot touch is read back, whatever becomes of the saves. -/
theorem readsBack_of_apart (apart : RecentsFile.Apart s.disk s.recentsPath)
    (events : List SessionEvent) : s.ReadsBack events := by
  induction events generalizing s with
  | nil => trivial
  | cons event rest ih =>
      rcases s.turn_handle event with ⟨inputs, turn, _⟩
      have leaves := turn.leaves
      refine ⟨fun unsaved => RecentsFile.load_spared (leaves.files unsaved) apart, ih ?_⟩
      rw [turn.path]
      exact ⟨apart.named, apart.steady.spared leaves.directories⟩

/-! ## Whole sessions -/

/-- Where nothing was saved, a file that installations cannot touch is read as at the start. -/
theorem read_of_calls {path : Path} (calls : Picker.Calls s.picker t.picker)
    (apart : RecentsFile.Apart s.disk path) (bytes : List UInt8) :
    t.disk.read path = .ok bytes ↔ s.disk.read path = .ok bytes := by
  rcases calls with ⟨calls, same⟩
  rcases apart.named with ⟨name, ends, foreign⟩
  have spares := s.picker.dictionaries.spares_performAll calls
  rw [← same] at spares
  exact Disk.read_spared spares ends foreign apart.steady

/-- What is in the file shows again: at every moment of every session that saves successfully and
reads back what it wrote, the keys that a new store restores from the file are the visible ones.
While nothing is recorded nothing is saved, the disk changes by calls on the dictionaries alone, and
a file that these cannot touch stays as it is. -/
theorem restart_invisible (settings : Settings) (catalog : Catalog) (root path : Path) (disk : Disk)
    (locale : String) (events : List SessionEvent) :
    let first := Program.waitingSession settings catalog root path disk
    ∀ start ∈ [first, Program.beginSession first locale],
      let s := events.foldl handle start
      (s.Saved → start.ReadsBack events →
          s.restored settings.recentsCapacity = s.picker.navigation.recents.visible) ∧
        (PickerInput.recorded settings.incognito (heard events) = [] →
          s.saves = [] ∧ Picker.Calls start.picker s.picker ∧
            (RecentsFile.Apart disk path →
              ∀ bytes, s.disk.read path = .ok bytes ↔ disk.read path = .ok bytes)) := by
  intro first start member s
  rcases mirrors_begin settings catalog root path disk locale start member with
    ⟨mirrors, idle, listening, unsaved, stored, untouched⟩
  constructor
  · intro saved reads
    have law := mirrors.foldl_handle events reads (fun _ => stored) saved
    rw [restored, empty_waiting] at law
    exact law
  · intro unrecorded
    rw [← hears_of_listens listening] at unrecorded
    rcases mirrors.unsaved_foldl idle events unrecorded with ⟨saves, calls⟩
    refine ⟨saves.trans unsaved, calls, ?_⟩
    rw [← untouched]
    exact fun apart bytes => read_of_calls calls apart bytes

/-- A pick that is saved when its category is left, and one that is not recorded. -/
theorem restart_invisible_pick :
    let keys := Text.encode (Json.printTexts ["🐶"])
    let disk : Disk := { top := .directory "state" (.file "recent_emoji.json" keys .empty) .empty }
    let path : Path := ⟨"state/recent_emoji.json"⟩
    let first := Program.waitingSession {} ⟨[⟨⟨1⟩, "faces", ["😀", "🐱"]⟩]⟩ ⟨"dicts"⟩ path disk
    let picks := [SessionEvent.line "pick 😀".toList, .line "tab 1".toList]
    let hidden := [SessionEvent.line "incognito on".toList, .line "pick 😀".toList]
    let s := picks.foldl handle first
    let t := hidden.foldl handle first
    (s.Saved ∧ first.ReadsBack picks ∧ s.restored 32 = ["😀", "🐶"]) ∧
      PickerInput.recorded false (heard hidden) = [] ∧ RecentsFile.Apart disk path ∧
        t.saves = [] ∧ t.disk.read path = .ok keys := by
  intro keys disk path first picks hidden s t
  have apart : RecentsFile.Apart disk path :=
    ⟨⟨"recent_emoji.json", ⟨by decide, by decide, by decide⟩, by decide⟩,
      Or.inr (Or.inl (by decide))⟩
  have reads : first.ReadsBack picks := readsBack_of_apart (s := first) apart picks
  have saved : s.Saved := by decide +kernel
  have unrecorded : PickerInput.recorded false (heard hidden) = [] := by decide +kernel
  have shown := (restart_invisible {} ⟨[⟨⟨1⟩, "faces", ["😀", "🐱"]⟩]⟩ ⟨"dicts"⟩ path disk "en" picks
    first (List.mem_cons_self ..)).1 saved reads
  have kept := (restart_invisible {} ⟨[⟨⟨1⟩, "faces", ["😀", "🐱"]⟩]⟩ ⟨"dicts"⟩ path disk "en" hidden
    first (List.mem_cons_self ..)).2 unrecorded
  have held : disk.read path = .ok keys := by decide +kernel
  exact ⟨⟨saved, reads, shown.trans (by decide +kernel)⟩, unrecorded, apart, kept.1,
    (kept.2.2 apart keys).2 held⟩

end Session
end EmojiPicker

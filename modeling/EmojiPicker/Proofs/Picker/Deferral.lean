import EmojiPicker.Proofs.Picker.Display
import EmojiPicker.Proofs.Recents.Recall
import EmojiPicker.Session
import EmojiPicker.Settings

/-!
# Buffered picks lose nothing

Picks made while the recently used emoji are on the screen are buffered. Over whole runs the buffer
makes no difference.

* `PickerInput`, `Picker.feed`, `Picker.feedAll` — runs by commands and finished downloads;
* `Ledger` — what should be recorded, kept beside a run;
* `Picker.Keeps` — the picker agrees with the ledger, and buffers only in the recently used emoji;
* `Picker.Keeps.feed`, `Picker.Keeps.feedAll` — every input and every run keep the ledger;
* `Picker.flushed_feedAll` — the picks of a run in closed form.

Cursor and buffer are linked by one half of `Picker.Keeps`: outside the recently used emoji the
buffer is empty. So a direct pick never overtakes a buffered one.
-/

namespace EmojiPicker

/-! ## Runs -/

/-- What a picker is given in a session. -/
inductive PickerInput where
  | command (command : SessionCommand)
  /-- A download has an outcome. -/
  | completed (outcome : DownloadOutcome)

namespace PickerInput

/-- The key that an input picks, if picks are recorded. -/
def key? : PickerInput → Option String
  | command (.pick key) => some key
  | command (.choose key) => some key
  | _ => none

/-- Whether picks go unrecorded after an input. -/
def incognito (before : Bool) : PickerInput → Bool
  | command (.incognito on) => on
  | _ => before

/-- The keys that some inputs record, the oldest first. -/
def recorded (incognito : Bool) : List PickerInput → List String
  | [] => []
  | input :: rest =>
      (if incognito then [] else input.key?.toList) ++ recorded (input.incognito incognito) rest

end PickerInput

/-- What should be recorded at a moment of a run. -/
structure Ledger where
  capacity : Nat
  /-- The recently used keys, the latest first. -/
  keys : List String
  /-- Whether picks go unrecorded. -/
  incognito : Bool
  /-- The keys that were saved last. -/
  saved : List String

namespace Ledger

/-- The ledger after a pick. -/
def pick (ledger : Ledger) (key : String) : Ledger :=
  if ledger.incognito then ledger
  else { ledger with keys := recalled ledger.capacity ledger.keys [key] }

/-- The ledger after an input. -/
def follow (ledger : Ledger) : PickerInput → Ledger
  | .command (.pick key) => ledger.pick key
  | .command (.choose key) => ledger.pick key
  | .command (.incognito on) => { ledger with incognito := on }
  | _ => ledger

@[simp]
theorem pick_capacity (ledger : Ledger) (key : String) :
    (ledger.pick key).capacity = ledger.capacity := by
  rw [pick]
  split <;> rfl

@[simp]
theorem pick_incognito (ledger : Ledger) (key : String) :
    (ledger.pick key).incognito = ledger.incognito := by
  rw [pick]
  split <;> rfl

theorem follow_capacity (ledger : Ledger) (input : PickerInput) :
    (ledger.follow input).capacity = ledger.capacity := by
  rw [follow.eq_def]
  split <;> simp

theorem follow_incognito (ledger : Ledger) (input : PickerInput) :
    (ledger.follow input).incognito = input.incognito ledger.incognito := by
  rw [follow.eq_def, PickerInput.incognito.eq_def]
  split <;> simp

/-- One input in closed form. -/
theorem follow_keys (ledger : Ledger) (once : ledger.keys.Nodup)
    (fits : ledger.keys.length ≤ ledger.capacity) (input : PickerInput) :
    (ledger.follow input).keys =
      recalled ledger.capacity ledger.keys
        (if ledger.incognito then [] else input.key?.toList) := by
  have still : recalled ledger.capacity ledger.keys [] = ledger.keys := recalled_nil once fits
  rw [follow.eq_def, PickerInput.key?.eq_def]
  cases recorded : ledger.incognito with
  | true =>
      split <;> simp [pick, recorded, still]
  | false =>
      split <;> simp [pick, recorded, still]

/-- An input is entered whatever was saved before. -/
theorem follow_withSaved (ledger : Ledger) (saved : List String) (input : PickerInput) :
    follow { ledger with saved := saved } input = { ledger.follow input with saved := saved } := by
  rw [follow.eq_def, follow.eq_def]
  split
  · simp only [pick]
    split <;> rfl
  · simp only [pick]
    split <;> rfl
  · rfl
  · rfl

theorem foldl_follow_capacity (ledger : Ledger) (inputs : List PickerInput) :
    (inputs.foldl follow ledger).capacity = ledger.capacity := by
  induction inputs generalizing ledger with
  | nil => rfl
  | cons input rest ih => exact (ih (ledger.follow input)).trans (follow_capacity ledger input)

/-- A run in closed form. -/
theorem foldl_follow_keys (ledger : Ledger) (pos : 0 < ledger.capacity)
    (once : ledger.keys.Nodup) (fits : ledger.keys.length ≤ ledger.capacity)
    (inputs : List PickerInput) :
    (inputs.foldl follow ledger).keys =
      recalled ledger.capacity ledger.keys (PickerInput.recorded ledger.incognito inputs) := by
  induction inputs generalizing ledger with
  | nil =>
      exact (recalled_nil once fits).symm
  | cons input rest ih =>
      -- After an input the keys are again without repetitions and within the capacity.
      have keys := follow_keys ledger once fits input
      have capacity := follow_capacity ledger input
      have pos' : 0 < (ledger.follow input).capacity := by
        rw [capacity]
        exact pos
      have once' : (ledger.follow input).keys.Nodup := by
        rw [keys]
        exact nodup_recalled _ _ _
      have fits' : (ledger.follow input).keys.length ≤ (ledger.follow input).capacity := by
        rw [keys, capacity]
        exact length_recalled_le _ _ _
      rw [List.foldl_cons, ih _ pos' once' fits', capacity, keys, follow_incognito,
        ← recalled_append pos]
      rfl

end Ledger

namespace Picker

variable {σ : Type} {p q : Picker σ} {ledger : Ledger}

/-- A picker holds what a ledger says, in the visible list and the buffer together. -/
structure Agrees (p : Picker σ) (ledger : Ledger) : Prop where
  sound : p.navigation.recents.Sound
  capacity : p.navigation.recents.capacity = ledger.capacity
  /-- The buffer brings the visible list up to date. -/
  flushed : p.navigation.recents.flushed = ledger.keys
  incognito : p.options.incognito = ledger.incognito
  /-- What shows is saved, unless the picker says otherwise. -/
  saved : p.recentsDirty = false → p.navigation.recents.visible = ledger.saved

/-- A picker holds what a ledger says, and only the recently used emoji have a buffer. -/
structure Keeps (p : Picker σ) (ledger : Ledger) : Prop extends p.Agrees ledger where
  waiting : p.navigation.recents.pending = [] ∨ p.navigation.isInRecents = true

/-! ## Updates that pick nothing -/

theorem Agrees.congr (agrees : p.Agrees ledger)
    (recents : q.navigation.recents = p.navigation.recents)
    (incognito : q.options.incognito = p.options.incognito)
    (dirty : q.recentsDirty = p.recentsDirty) : q.Agrees ledger where
  sound := recents ▸ agrees.sound
  capacity := recents ▸ agrees.capacity
  flushed := recents ▸ agrees.flushed
  incognito := incognito.trans agrees.incognito
  saved := by
    rw [recents, dirty]
    exact agrees.saved

/-- Only the recently used emoji, the current category and two switches matter. -/
theorem Keeps.congr (keeps : p.Keeps ledger)
    (recents : q.navigation.recents = p.navigation.recents)
    (current : q.navigation.isInRecents = p.navigation.isInRecents)
    (incognito : q.options.incognito = p.options.incognito)
    (dirty : q.recentsDirty = p.recentsDirty) : q.Keeps ledger := by
  refine ⟨keeps.toAgrees.congr recents incognito dirty, ?_⟩
  rw [recents, current]
  exact keeps.waiting

theorem Keeps.displays (keeps : p.Keeps ledger) (shown : Displays p q) : q.Keeps ledger := by
  rcases shown with ⟨events, rfl, _⟩
  exact keeps.congr rfl rfl rfl rfl

/-- A picker that is saved as it is. -/
theorem Keeps.resaved {saved : List String} (keeps : p.Keeps { ledger with saved := saved })
    (navigation : q.navigation = p.navigation) (options : q.options = p.options) :
    q.Keeps { ledger with saved := q.navigation.recents.visible } where
  sound := navigation ▸ keeps.sound
  capacity := navigation ▸ keeps.capacity
  flushed := navigation ▸ keeps.flushed
  incognito := options ▸ keeps.incognito
  saved := fun _ => rfl
  waiting := navigation ▸ keeps.waiting

theorem settle_eq (p : Picker σ) :
    p.settle.2 = { p.applyPending with navigation := p.applyPending.navigation.invalidate.2 } := rfl

theorem settle_recents (p : Picker σ) :
    p.settle.2.navigation.recents = p.navigation.recents.flushPending.2 := by
  rw [settle_eq]
  exact p.applyPending.navigation.invalidate_recents

/-- The buffer is empty once it shows. -/
theorem settle_pending (p : Picker σ) : p.settle.2.navigation.recents.pending = [] := by
  rw [settle_recents, Recents.flushPending_pending]

/-- Once the buffer shows the cursor may be anywhere, also where it was not before. -/
theorem Agrees.settle (agrees : p.Agrees ledger) : p.settle.2.Keeps ledger where
  sound := by
    rw [settle_recents]
    exact Recents.sound_flushPending agrees.sound
  capacity := by
    rw [settle_recents, Recents.flushPending_capacity]
    exact agrees.capacity
  flushed := by
    rw [Recents.flushed_of_pending_nil p.settle_pending, settle_recents]
    exact agrees.flushed
  waiting := Or.inl p.settle_pending
  incognito := agrees.incognito
  saved := by
    intro clean
    -- A picker that is not dirty now was not dirty before, and the flush changed nothing.
    have both : p.recentsDirty = false ∧ p.navigation.recents.flushPending.1 = false := by
      rw [settle_eq] at clean
      exact Bool.or_eq_false_iff.1 clean
    rw [settle_recents]
    calc p.navigation.recents.flushPending.2.visible
        = p.navigation.recents.visible := Recents.flushPending_unchanged both.2
      _ = ledger.saved := agrees.saved both.1

/-! ## Events that pick nothing -/

theorem Keeps.leaveSearch (keeps : p.Keeps ledger) : p.leaveSearch.Keeps ledger :=
  keeps.congr rfl rfl rfl rfl

theorem Keeps.flushRecents (keeps : p.Keeps ledger) : p.flushRecents.Keeps ledger :=
  keeps.settle.displays (displays_flushRecents p)

theorem Keeps.hide (keeps : p.Keeps ledger) : p.hide.Keeps ledger := by
  -- Hiding is leaving the search, coming off the screen, and then a flush.
  have hidden : Agrees { p.leaveSearch with visible := false } ledger :=
    keeps.toAgrees.congr rfl rfl rfl
  exact hidden.settle.displays (displays_hide p)

theorem hide_pending (p : Picker σ) : p.hide.navigation.recents.pending = [] := by
  rcases displays_hide p with ⟨events, h, _⟩
  rw [h]
  exact settle_pending _

/-- The one move that needs care: with the recently used emoji left, their buffer has to end. -/
theorem Agrees.afterChange (agrees : p.Agrees ledger) {previous : CategoryId}
    (waiting : p.navigation.recents.pending = [] ∨ previous.isRecents = true) :
    (p.afterChange previous p.navigation.cursor.category).Keeps ledger := by
  rw [Picker.afterChange]
  split
  · exact agrees.settle
  · next stays =>
      -- Without a flush the cursor enters the recently used emoji, or it was elsewhere before.
      refine ⟨agrees, waiting.imp_right ?_⟩
      intro was
      simpa [was, Navigation.isInRecents] using stays

theorem Keeps.entering (keeps : p.Keeps ledger) (id : CategoryId) (page : Nat)
    (remembered : List (CategoryId × Nat)) :
    ((p.entering id page remembered).afterChange p.navigation.cursor.category id).Keeps ledger := by
  have agrees : (p.entering id page remembered).Agrees ledger :=
    keeps.toAgrees.congr rfl rfl rfl
  exact agrees.afterChange keeps.waiting

theorem Keeps.selectCategory (keeps : p.Keeps ledger) (id : CategoryId) (animate : Bool) :
    (p.selectCategory id animate).Keeps ledger := by
  rcases selectCategory_cases p id animate with shown | ⟨page, remembered, shown⟩
  · exact keeps.leaveSearch.displays shown
  · exact (keeps.leaveSearch.entering id page remembered).displays shown

theorem Keeps.enterSearch (keeps : p.Keeps ledger) : p.enterSearch.Keeps ledger := by
  rcases enterSearch_cases p with same | ⟨_, shown⟩
  · rw [same]
    exact keeps
  · have searching : Keeps { p with search := p.search.enter } ledger :=
      keeps.congr rfl rfl rfl rfl
    exact searching.displays shown

theorem Keeps.exitSearch (keeps : p.Keeps ledger) : p.exitSearch.Keeps ledger := by
  rcases exitSearch_cases p with same | shown
  · rw [same]
    exact keeps
  · exact keeps.leaveSearch.displays shown

theorem Keeps.clickTab (keeps : p.Keeps ledger) (tab : Tab) : (p.clickTab tab).Keeps ledger := by
  cases tab with
  | search =>
      exact keeps.enterSearch
  | category id =>
      exact keeps.selectCategory id _

theorem Keeps.swipe (keeps : p.Keeps ledger) (position : Nat) : (p.swipe position).Keeps ledger := by
  rw [Picker.swipe]
  split
  · exact keeps.selectCategory _ _
  · exact keeps

theorem Keeps.scroll (keeps : p.Keeps ledger) (report : ScrollReport) :
    (p.scroll report).Keeps ledger := by
  rcases scroll_cases p report with same | ⟨page, shown⟩
  · rw [same]
    exact keeps
  · have turned : Keeps { p with navigation :=
        { p.navigation with cursor := ⟨p.navigation.cursor.category, page⟩ } } ledger :=
      keeps.congr rfl rfl rfl rfl
    exact turned.displays shown

theorem Keeps.leave (keeps : p.Keeps ledger) (id : CategoryId) : (p.leave id).Keeps ledger := by
  rw [Picker.leave]
  split
  · exact keeps.flushRecents
  · exact keeps

theorem Keeps.query (keeps : p.Keeps ledger) (text : String) : (p.query text).Keeps ledger := by
  rcases query_cases p text with ⟨_, same⟩ | ⟨_, shown⟩
  · rw [same]
    exact keeps
  · refine Keeps.displays ?_ shown
    exact keeps.congr rfl rfl rfl rfl

theorem Keeps.refreshSearch (keeps : p.Keeps ledger) : p.refreshSearch.Keeps ledger := by
  rcases refreshSearch_cases p with ⟨_, same⟩ | ⟨_, shown⟩
  · rw [same]
    exact keeps
  · refine Keeps.displays ?_ shown
    exact keeps.congr rfl rfl rfl rfl

theorem Keeps.clearCache (keeps : p.Keeps ledger) : p.clearCache.Keeps ledger :=
  Keeps.refreshSearch (keeps.congr rfl rfl rfl rfl)

theorem Keeps.requestDownload (keeps : p.Keeps ledger) : p.requestDownload.2.Keeps ledger :=
  keeps.displays (displays_requestDownload p)

theorem Keeps.setIncognito (keeps : p.Keeps ledger) (on : Bool) :
    (p.setIncognito on).Keeps { ledger with incognito := on } where
  sound := keeps.sound
  capacity := keeps.capacity
  flushed := keeps.flushed
  waiting := keeps.waiting
  incognito := rfl
  saved := keeps.saved

section Locale

variable [DictionaryStore σ]

theorem Keeps.start (keeps : p.Keeps ledger) (locale : String) : (p.start locale).Keeps ledger := by
  rcases start_cases p locale with shown | ⟨page, remembered, shown⟩
  · refine Keeps.displays ?_ shown
    exact keeps.congr rfl rfl rfl rfl
  · refine Keeps.displays ?_ shown
    exact keeps.congr rfl rfl rfl rfl

theorem Keeps.changeLocale (keeps : p.Keeps ledger) (locale : String) :
    (p.changeLocale locale).Keeps ledger :=
  Keeps.refreshSearch (keeps.congr rfl rfl rfl rfl)

theorem Keeps.completeDownload (keeps : p.Keeps ledger) (outcome : DownloadOutcome) :
    (p.completeDownload outcome).Keeps ledger := by
  rcases completeDownload_cases p outcome with
    shown | ⟨bytes, _, ⟨path, shown, _, noticed, same⟩ | ⟨_, shown⟩⟩
  · exact keeps.displays shown
  · rw [same]
    have published : shown.Keeps ledger := by
      refine Keeps.displays ?_ noticed
      exact keeps.congr rfl rfl rfl rfl
    exact published.refreshSearch
  · refine Keeps.displays ?_ shown
    exact keeps.congr rfl rfl rfl rfl

end Locale

/-! ## Picks -/

/-- Where a pick is buffered the buffer takes it, and elsewhere there is no buffer to overtake. -/
theorem Keeps.record (keeps : p.Keeps ledger) (key : String) :
    (p.record key).Keeps { ledger with keys := recalled ledger.capacity ledger.keys [key] } := by
  have sound := keeps.sound
  rcases record_cases p key with ⟨current, same⟩ | ⟨current, ⟨unchanged, same⟩ | ⟨changed, shown⟩⟩
  · -- in the recently used emoji
    rw [same]
    exact
      { sound := Recents.sound_addPending sound key
        capacity := (Recents.addPending_capacity _ key).trans keeps.capacity
        flushed := by
          rw [← keeps.capacity, ← keeps.flushed]
          exact Recents.flushed_addPending sound key
        waiting := Or.inr current
        incognito := keeps.incognito
        saved := fun clean => (Recents.addPending_visible _ key).trans (keeps.saved clean) }
  -- elsewhere, where nothing is buffered
  all_goals
    have empty : p.navigation.recents.pending = [] := by
      rcases keeps.waiting with empty | inside
      · exact empty
      · rw [current] at inside
        exact absurd inside (by simp)
    have moved : (p.navigation.recents.addFirst key).2.visible =
        recalled ledger.capacity ledger.keys [key] := by
      rw [Recents.addFirst_visible sound key, ← Recents.flushed_of_pending_nil empty,
        keeps.flushed, keeps.capacity]
  · rw [same]
    have still := Recents.addFirst_unchanged unchanged
    rw [still] at moved
    refine ⟨⟨sound, keeps.capacity, ?_, keeps.incognito, keeps.saved⟩, Or.inl empty⟩
    rw [Recents.flushed_of_pending_nil empty]
    exact moved
  · refine Keeps.displays ?_ shown
    have pending : (p.navigation.recents.addFirst key).2.pending = [] :=
      (Recents.addFirst_pending _ key).trans empty
    have recents :
        (p.navigation.withRecents (p.navigation.recents.addFirst key).2).invalidate.2.recents =
          (p.navigation.recents.addFirst key).2 :=
      Navigation.invalidate_recents _
    exact
      { sound := by
          rw [recents]
          exact Recents.sound_addFirst sound key
        capacity := by
          rw [recents]
          exact (Recents.addFirst_capacity _ key).trans keeps.capacity
        flushed := by
          rw [recents, Recents.flushed_of_pending_nil pending]
          exact moved
        waiting := Or.inl (by rw [recents, pending])
        incognito := keeps.incognito
        saved := by
          intro clean
          exact absurd clean (by simp) }

theorem Keeps.pick (keeps : p.Keeps ledger) (key : String) :
    (p.pick key).Keeps (ledger.pick key) := by
  rcases pick_cases p key with ⟨on, shown⟩ | ⟨off, same⟩
  · have unrecorded : ledger.incognito = true := keeps.incognito.symm.trans on
    rw [Ledger.pick, if_pos unrecorded]
    exact keeps.displays shown
  · have recorded : ¬ ledger.incognito = true := by
      rw [← keeps.incognito, off]
      simp
    rw [Ledger.pick, if_neg recorded, same]
    exact (keeps.displays (p.displays_commit key)).record key

theorem Keeps.choose (keeps : p.Keeps ledger) (key : String) :
    (p.choose key).Keeps (ledger.pick key) := by
  rcases choose_cases p key with same | shown
  · rw [same]
    exact keeps.pick key
  · exact (keeps.pick key).leaveSearch.displays shown

/-! ## Runs -/

/-- Every picker begins with the keys that it was given in the ledger. -/
theorem keeps_restored (catalog : Catalog) (capacity : Nat) (keys : List String)
    (pages : PageOptions) (store : σ) (switches : PickerOptions) :
    let recents := (Recents.empty capacity).restore keys
    (new (Navigation.ofCatalog catalog recents pages) store switches).Keeps
      { capacity := recents.capacity
        keys := recents.visible
        incognito := switches.incognito
        saved := recents.visible } := by
  intro recents
  have empty : recents.pending = [] := Recents.restore_pending _ keys
  exact
    { sound := Recents.sound_restore (Recents.sound_empty _) keys
      capacity := rfl
      flushed := Recents.flushed_of_pending_nil empty
      incognito := rfl
      saved := fun _ => rfl
      waiting := Or.inl empty }

theorem keeps_new (settings : Settings) (catalog : Catalog) (recents : List String) (store : σ) :
    let start := settings.picker catalog recents store
    start.Keeps
      { capacity := start.navigation.recents.capacity
        keys := start.navigation.recents.visible
        incognito := settings.incognito
        saved := start.navigation.recents.visible } :=
  keeps_restored catalog _ recents _ store settings.pickerOptions

section Runs

variable [DictionaryStore σ]

/-- The picker after an input. -/
def feed (p : Picker σ) : PickerInput → Picker σ
  | .command .quit => p.stop
  | .command .download => p.requestDownload.2
  | .command command => Session.applyTo p command
  | .completed outcome => p.completeDownload outcome

/-- The picker after some inputs. -/
def feedAll (p : Picker σ) (inputs : List PickerInput) : Picker σ :=
  inputs.foldl feed p

theorem Keeps.feed (keeps : p.Keeps ledger) (input : PickerInput) :
    (p.feed input).Keeps (ledger.follow input) := by
  cases input with
  | completed outcome => exact keeps.completeDownload outcome
  | command command =>
      cases command with
      | nothing => exact keeps
      | help => exact keeps.displays (displays_emit p trivial)
      | tab tab => exact keeps.clickTab tab
      | swipe position => exact keeps.swipe position
      | scroll offset extent range firstFull firstPartial category => exact keeps.scroll _
      | leave category => exact keeps.leave category
      | pick key => exact keeps.pick key
      | query text => exact keeps.query text
      | choose key => exact keeps.choose key
      | close => exact keeps.exitSearch
      | locale locale => exact keeps.changeLocale locale
      | download => exact keeps.requestDownload
      | clearCache => exact keeps.clearCache
      | incognito on => exact keeps.setIncognito on
      | hide => exact keeps.hide
      | reveal => exact keeps.start p.locale
      | quit => exact keeps.hide

theorem Keeps.feedAll (keeps : p.Keeps ledger) (inputs : List PickerInput) :
    (p.feedAll inputs).Keeps (inputs.foldl Ledger.follow ledger) := by
  induction inputs generalizing p ledger with
  | nil => exact keeps
  | cons input rest ih => exact ih (keeps.feed input)

/-- The buffer is invisible: at every moment of every run the visible list and the buffer together
hold what direct picks would have left, and nothing is buffered any more once the picker is hidden
or stopped or the recently used emoji are left. -/
theorem flushed_feedAll (settings : Settings) (catalog : Catalog) (recents : List String)
    (store : σ) (inputs : List PickerInput) :
    let start := settings.picker catalog recents store
    let recorded (inputs : List PickerInput) : List String :=
      recalled start.navigation.recents.capacity start.navigation.recents.visible
        (PickerInput.recorded settings.incognito inputs)
    (start.feedAll inputs).navigation.recents.flushed = recorded inputs ∧
      ∀ input,
        let before := start.feedAll inputs
        let after := before.feed input
        input = .command .hide ∨ input = .command .quit ∨
            (before.navigation.isInRecents = true ∧ after.navigation.isInRecents = false) →
          after.navigation.recents.pending = [] ∧
            after.navigation.recents.visible = recorded (inputs ++ [input]) := by
  intro start recorded
  have begun := keeps_new settings catalog recents store
  have flushed : ∀ inputs, (start.feedAll inputs).navigation.recents.flushed = recorded inputs := by
    intro inputs
    rw [(begun.feedAll inputs).flushed]
    exact Ledger.foldl_follow_keys _ start.navigation.recents.capacity_pos
      begun.sound.visible_nodup begun.sound.visible_le inputs
  refine ⟨flushed inputs, ?_⟩
  intro input before after ended
  have run : start.feedAll (inputs ++ [input]) = after := by
    simp [feedAll, after, before]
  have empty : after.navigation.recents.pending = [] := by
    rcases ended with rfl | rfl | ⟨_, outside⟩
    · exact hide_pending before
    · exact hide_pending before
    · -- A buffer would mean that the recently used emoji are still current.
      have keeps := begun.feedAll (inputs ++ [input])
      rw [run] at keeps
      rcases keeps.waiting with empty | inside
      · exact empty
      · rw [outside] at inside
        exact absurd inside (by simp)
  refine ⟨empty, ?_⟩
  rw [← Recents.flushed_of_pending_nil empty, ← run]
  exact flushed (inputs ++ [input])

/-- Two buffered picks, one of a key that shows already, and then another category. -/
theorem flushed_feedAll_tab :
    let start := ({ recentsCapacity := 2 } : Settings).picker
      ⟨[⟨⟨1⟩, "smileys", ["😀", "😂"]⟩]⟩ ["🐶", "🐱"] (⟨⟨"dicts"⟩, {}⟩ : DictionaryCache)
    let before := start.feedAll [.command (.pick "😀"), .command (.pick "🐶")]
    let after := before.feed (.command (.tab (.category ⟨1⟩)))
    (before.navigation.isInRecents = true ∧ after.navigation.isInRecents = false) ∧
      before.navigation.recents.visible = ["🐶", "🐱"] ∧
      before.navigation.recents.flushed = ["🐶", "😀"] ∧
      after.navigation.recents.pending = [] ∧
      after.navigation.recents.visible = ["🐶", "😀"] := by
  have law := flushed_feedAll { recentsCapacity := 2 } ⟨[⟨⟨1⟩, "smileys", ["😀", "😂"]⟩]⟩
    ["🐶", "🐱"] (⟨⟨"dicts"⟩, {}⟩ : DictionaryCache) [.command (.pick "😀"), .command (.pick "🐶")]
  have left := law.2 (.command (.tab (.category ⟨1⟩))) (Or.inr (Or.inr ⟨by decide, by decide⟩))
  refine ⟨⟨by decide, by decide⟩, by decide, ?_, left.1, ?_⟩
  · exact law.1.trans (by decide)
  · exact left.2.trans (by decide)

end Runs

end Picker
end EmojiPicker

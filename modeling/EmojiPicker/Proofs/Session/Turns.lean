import EmojiPicker.Program
import EmojiPicker.Proofs.Picker.Deferral

/-!
# Turns of a session

One event gives the picker one input at most, which is followed by a save, and it may end the session.

* `Session.heard` — the commands that a session obeys;
* `Session.Fed` — a session whose picker had an input that is not saved yet;
* `Session.Turn`, `Session.turn_handle` — what one event comes to.

Some inputs are no commands of the user: finished downloads, and nothing at all where a line is
faulty. They record nothing, and the session does not hear them.
-/

namespace EmojiPicker

/-- An input that is not heard. It records nothing and switches nothing. -/
def PickerInput.isSilent : PickerInput → Bool
  | .completed _ => true
  | .command .nothing => true
  | _ => false

theorem Ledger.follow_silent (ledger : Ledger) {input : PickerInput} (silent : input.isSilent = true) :
    ledger.follow input = ledger := by
  cases input with
  | completed outcome => rfl
  | command command =>
      cases command with
      | nothing => rfl
      | _ => exact absurd silent (by simp [PickerInput.isSilent])

namespace Session

variable {s t : Session}

/-! ## What a session obeys -/

/-- The inputs in some events, up to the first one that ends the session or its lines. -/
def heard : List SessionEvent → List PickerInput
  | [] => []
  | .line text :: rest =>
      match SessionCommand.parse text with
      | .ok .quit => []
      | .ok command => .command command :: heard rest
      | .error _ => heard rest
  | .delivered _ _ :: rest => heard rest
  | .unreadable _ :: _ => []
  | .inputClosed :: _ => []

/-- Whether a session reads further lines. -/
def listens (s : Session) : Bool :=
  s.phase == .running && ! s.inputClosed

/-- The inputs in some events, for a session that may be over already. -/
def hears (s : Session) (events : List SessionEvent) : List PickerInput :=
  if s.listens then heard events else []

/-- The picker is off the screen and nothing is buffered. -/
def Stopped (s : Session) : Prop :=
  s.picker.visible = false ∧ s.picker.navigation.recents.pending = []

/-! ## Turns -/

/-- A session whose picker had an input. Nothing is saved yet. -/
structure Fed (s : Session) (input : PickerInput) (t : Session) : Prop where
  picker : Picker.Displays (s.picker.feed input) t.picker
  path : t.recentsPath = s.recentsPath
  saves : t.saves = s.saves
  stopped : t.phase = .finished → t.Stopped

/-- What one event comes to: the inputs that are heard, and the session after it. -/
inductive Turn (s : Session) : List PickerInput → Session → Prop where
  /-- Nothing happens to the picker. -/
  | still {t : Session} (picker : t.picker = s.picker) (path : t.recentsPath = s.recentsPath)
      (saves : t.saves = s.saves) (phase : t.phase = .finished → s.phase = .finished) : Turn s [] t
  | unheard {t : Session} {input : PickerInput} (silent : input.isSilent = true)
      (fed : Fed s input t) : Turn s [] t.persist
  | obeyed {t : Session} {input : PickerInput} (fed : Fed s input t) : Turn s [input] t.persist
  | ended {t : Session} {inputs : List PickerInput} (turn : Turn s inputs t) : Turn s inputs t.finish

theorem not_finished (running : s.phase = .running) (same : t.phase = s.phase) :
    t.phase = .finished → t.Stopped := by
  intro finished
  rw [same, running] at finished
  exact absurd finished (by simp)

theorem download_cases (s : Session) :
    s.download.picker = s.picker.requestDownload.2 ∧ s.download.recentsPath = s.recentsPath ∧
      s.download.saves = s.saves ∧ s.download.phase = s.phase ∧
      s.download.inputClosed = s.inputClosed := by
  rw [download]
  rcases s.picker.requestDownload with ⟨_ | request, picker⟩
  · exact ⟨rfl, rfl, rfl, rfl, rfl⟩
  · exact ⟨rfl, rfl, rfl, rfl, rfl⟩

/-- A finish is the input of a quit, whether there was one or the lines came to an end. -/
theorem fed_finish (s : Session) :
    Fed s (.command .quit) { s with picker := s.picker.stop, phase := .finished } where
  picker := Picker.Displays.refl _
  path := rfl
  saves := rfl
  stopped := fun _ => ⟨Picker.hide_visible s.picker, Picker.hide_pending s.picker⟩

theorem Turn.settle {inputs : List PickerInput} (turn : Turn s inputs t) : Turn s inputs t.settle := by
  rw [Session.settle]
  split
  · exact .ended turn
  · exact turn

theorem turn_obey (running : s.phase = .running) {command : SessionCommand} (goesOn : command ≠ .quit) :
    Turn s [.command command] (s.obey command) := by
  cases command with
  | quit => exact absurd rfl goesOn
  | download =>
      rcases s.download_cases with ⟨picker, path, saves, phase, _⟩
      refine .obeyed ⟨?_, path, saves, not_finished running phase⟩
      rw [picker]
      exact Picker.Displays.refl _
  | _ => exact .obeyed ⟨Picker.Displays.refl _, rfl, rfl, not_finished running rfl⟩

theorem turn_deliver (running : s.phase = .running) (index : Nat)
    (result : Except String (List UInt8)) : Turn s [] (s.deliver index result) := by
  rw [deliver]
  split
  · next request _ =>
      have fed : Fed s (.completed ⟨request.locale, result⟩)
          { s with
            picker := s.picker.completeDownload ⟨request.locale, result⟩
            downloads := s.downloads.set index ⟨request, true⟩
            inFlight := s.inFlight - 1 } :=
        ⟨Picker.Displays.refl _, rfl, rfl, not_finished running rfl⟩
      exact Turn.settle (.unheard rfl fed)
  · exact .still rfl rfl rfl id

/-! ## What a session goes on to hear -/

theorem persist_listens (s : Session) : s.persist.listens = s.listens := by
  rw [persist]
  split <;> rfl

theorem finish_listens (s : Session) : s.finish.listens = false := by
  rw [finish, persist_listens]
  rfl

theorem settle_listens (s : Session) : s.settle.listens = s.listens := by
  rw [settle]
  split
  · next ended =>
      have closed : s.inputClosed = true := (Bool.and_eq_true_iff.1 ended).1
      rw [finish_listens, listens, closed]
      simp
  · rfl

theorem deliver_listens (s : Session) (index : Nat) (result : Except String (List UInt8)) :
    (s.deliver index result).listens = s.listens := by
  rw [deliver]
  split
  · rw [settle_listens, persist_listens]
    rfl
  · rfl

theorem obey_listens {command : SessionCommand} (goesOn : command ≠ .quit) :
    (s.obey command).listens = s.listens := by
  cases command with
  | quit => exact absurd rfl goesOn
  | download =>
      rcases s.download_cases with ⟨_, _, _, phase, closed⟩
      rw [obey, persist_listens, listens, phase, closed]
      rfl
  | _ => exact persist_listens _

theorem handle_of_ended (ended : s.phase ≠ .running) (event : SessionEvent) :
    s.handle event = s := by
  rw [handle.eq_def]
  split
  · next running => exact absurd running ended
  · next running => exact absurd running ended
  · next running => exact absurd running ended
  · next running => exact absurd running ended
  · rfl

theorem hears_of_deaf (deaf : s.listens = false) (events : List SessionEvent) :
    s.hears events = [] := by
  rw [hears, deaf]
  rfl

theorem hears_of_listens (listening : s.listens = true) (events : List SessionEvent) :
    s.hears events = heard events := by
  rw [hears, listening]
  rfl

/-- A line: a command is obeyed, and after all of them but one the session goes on. -/
theorem turn_readLine (running : s.phase = .running) (listening : s.listens = true)
    (text : List Char) :
    ∃ inputs, Turn s inputs (s.readLine text) ∧
      ∀ rest, heard (.line text :: rest) = inputs ++ (s.readLine text).hears rest := by
  rw [readLine]
  cases parsed : SessionCommand.parse text with
  | error fault =>
      have fed : Fed s (.command .nothing) (s.say s!"error: {fault.message}") :=
        ⟨Picker.displays_emit _ trivial, rfl, rfl, not_finished running rfl⟩
      refine ⟨[], .unheard rfl fed, ?_⟩
      intro rest
      have goesOn : (s.say s!"error: {fault.message}").persist.listens = true := by
        rw [persist_listens]
        exact listening
      simp only [heard, parsed]
      exact (hears_of_listens goesOn rest).symm
  | ok command =>
      by_cases quits : command = .quit
      · subst quits
        refine ⟨[], .ended (.still rfl rfl rfl id), ?_⟩
        intro rest
        simp only [heard, parsed]
        exact (hears_of_deaf s.finish_listens rest).symm
      · refine ⟨[.command command], turn_obey running quits, ?_⟩
        intro rest
        have goesOn : (s.obey command).listens = true := (obey_listens quits).trans listening
        dsimp only
        rw [hears_of_listens goesOn]
        cases command with
        | quit => exact absurd rfl quits
        | _ => simp [heard, parsed]

/-- One event: a session hears at most one input of it, and then goes on to hear the others or not. -/
theorem turn_handle (s : Session) (event : SessionEvent) :
    ∃ inputs, Turn s inputs (s.handle event) ∧
      ∀ rest, s.hears (event :: rest) = inputs ++ (s.handle event).hears rest := by
  have same : Turn s [] s := .still rfl rfl rfl id
  have ignored : s.listens = false → ∀ rest, s.hears (event :: rest) = [] ++ s.hears rest := by
    intro deaf rest
    rw [hears_of_deaf deaf, hears_of_deaf deaf]
    rfl
  by_cases running : s.phase = .running
  swap
  · have deaf : s.listens = false := by simp [listens, running]
    rw [handle_of_ended running]
    exact ⟨[], same, ignored deaf⟩
  rw [handle.eq_def, running]
  cases event with
  | delivered index result =>
      refine ⟨[], turn_deliver running index result, ?_⟩
      intro rest
      rw [hears, hears, deliver_listens]
      rfl
  | line text =>
      cases closed : s.inputClosed with
      | true =>
          exact ⟨[], same, ignored (by simp [listens, closed])⟩
      | false =>
          have listening : s.listens = true := by simp [listens, running, closed]
          rcases turn_readLine running listening text with ⟨inputs, turn, later⟩
          refine ⟨inputs, turn, ?_⟩
          intro rest
          rw [hears_of_listens listening]
          exact later rest
  | unreadable fault =>
      cases closed : s.inputClosed with
      | true =>
          exact ⟨[], same, ignored (by simp [listens, closed])⟩
      | false =>
          have listening : s.listens = true := by simp [listens, running, closed]
          refine ⟨[], .still rfl rfl rfl (by simp), ?_⟩
          intro rest
          rw [hears_of_listens listening, hears_of_deaf]
          · rfl
          · rfl
  | inputClosed =>
      cases closed : s.inputClosed with
      | true =>
          exact ⟨[], same, ignored (by simp [listens, closed])⟩
      | false =>
          have listening : s.listens = true := by simp [listens, running, closed]
          -- The session stays for its downloads, and ends at once if there are none.
          have fed : Fed s (.command .nothing)
              { s with inputClosed := true, phase := .running } :=
            ⟨Picker.Displays.refl _, rfl, rfl, by simp⟩
          refine ⟨[], Turn.settle (.unheard rfl fed), ?_⟩
          intro rest
          rw [hears_of_listens listening, hears_of_deaf]
          · rfl
          · simp only [Bool.false_eq_true, if_false]
            rw [settle_listens, persist_listens]
            simp [listens]

end Session
end EmojiPicker

import EmojiPicker.Proofs.Picker.Oblivious
import EmojiPicker.Proofs.Session.Turns

/-!
# Incognito picks leave no trace

Two sessions that pick differently while picks go unrecorded differ in what they put into the text, and
in nothing else.

* `Session.above`, `Session.oblivious_handle` — a session never reads its display;
* `Session.Veiled` — events that differ in the keys of incognito picks only;
* `ViewEvent.Alike` — displays that differ in some commits only;
* `Session.incognito_untraced` — two runs over such events.
-/

namespace EmojiPicker

/-! ## Displays -/

/-- Two displays that are the same but for some commits, with the keys that they commit, in order. -/
inductive ViewEvent.Alike : List (String × String) → List ViewEvent → List ViewEvent → Prop where
  | nil : Alike [] [] []
  | same (event : ViewEvent) {pairs : List (String × String)} {xs ys : List ViewEvent}
      (rest : Alike pairs xs ys) : Alike pairs (event :: xs) (event :: ys)
  | commit (key other : String) {pairs : List (String × String)} {xs ys : List ViewEvent}
      (rest : Alike pairs xs ys) :
      Alike ((key, other) :: pairs) (.commit key :: xs) (.commit other :: ys)

namespace ViewEvent

variable {pairs more : List (String × String)} {xs ys us vs : List ViewEvent}

theorem Alike.refl (xs : List ViewEvent) : Alike [] xs xs := by
  induction xs with
  | nil => exact .nil
  | cons event _ ih => exact .same event ih

theorem Alike.append (first : Alike pairs xs ys) (later : Alike more us vs) :
    Alike (pairs ++ more) (xs ++ us) (ys ++ vs) := by
  induction first with
  | nil => exact later
  | same event _ ih => exact .same event ih
  | commit key other _ ih => exact .commit key other ih

end ViewEvent

namespace Session

variable {s t u : Session}

/-! ## Sessions do not read their display -/

/-- A session with an older display under its own. -/
def above (s : Session) (older : List ViewEvent) : Session :=
  { s with picker := s.picker.above older }

theorem above_persist (s : Session) (older : List ViewEvent) :
    (s.above older).persist = s.persist.above older := by
  have there : (s.above older).picker.takeDirty =
      (s.picker.takeDirty.1, s.picker.takeDirty.2.above older) := rfl
  rw [persist, persist, there]
  rcases s.picker.takeDirty with ⟨_ | _, picker⟩
  · rfl
  · rfl

theorem above_finish (s : Session) (older : List ViewEvent) :
    (s.above older).finish = s.finish.above older := by
  have stopped : (s.above older).picker.stop = s.picker.stop.above older :=
    Picker.oblivious_hide s.picker older
  rw [finish, stopped]
  exact above_persist { s with picker := s.picker.stop, phase := .finished } older

theorem above_settle (s : Session) (older : List ViewEvent) :
    (s.above older).settle = s.settle.above older := by
  have closed : (s.above older).inputClosed = s.inputClosed := rfl
  have inFlight : (s.above older).inFlight = s.inFlight := rfl
  rw [settle, settle, closed, inFlight]
  split
  · exact s.above_finish older
  · rfl

theorem above_download (s : Session) (older : List ViewEvent) :
    (s.above older).download = s.download.above older := by
  have asked : (s.above older).picker.requestDownload =
      (s.picker.requestDownload.1, s.picker.requestDownload.2.above older) :=
    Picker.oblivious_requestDownload s.picker older
  rw [download, download, asked]
  rcases s.picker.requestDownload with ⟨_ | request, picker⟩
  · rfl
  · rfl

theorem above_obey (s : Session) (command : SessionCommand) (older : List ViewEvent) :
    (s.above older).obey command = (s.obey command).above older := by
  have applied : applyTo (s.above older).picker command = (applyTo s.picker command).above older :=
    Picker.oblivious_applyTo command s.picker older
  have saved : persist { s.above older with picker := applyTo (s.above older).picker command } =
      (persist { s with picker := applyTo s.picker command }).above older := by
    rw [applied]
    exact above_persist { s with picker := applyTo s.picker command } older
  cases command with
  | quit => exact s.above_finish older
  | download =>
      rw [obey, above_download, above_persist]
      rfl
  | _ => exact saved

theorem above_deliver (s : Session) (index : Nat) (result : Except String (List UInt8))
    (older : List ViewEvent) :
    (s.above older).deliver index result = (s.deliver index result).above older := by
  have there : (s.above older).downloads = s.downloads := rfl
  rw [deliver, deliver, there]
  split
  · next request _ =>
      have completed : (s.above older).picker.completeDownload ⟨request.locale, result⟩ =
          (s.picker.completeDownload ⟨request.locale, result⟩).above older :=
        Picker.oblivious_completeDownload _ s.picker older
      rw [completed, ← above_settle, ← above_persist]
      rfl
  · rfl

theorem above_readLine (s : Session) (text : List Char) (older : List ViewEvent) :
    (s.above older).readLine text = (s.readLine text).above older := by
  rw [readLine, readLine]
  split
  · exact s.above_obey _ older
  · exact above_persist (s.say _) older

/-- Events go on as they would without the older display. -/
theorem above_handle (s : Session) (event : SessionEvent) (older : List ViewEvent) :
    (s.above older).handle event = (s.handle event).above older := by
  have phase : (s.above older).phase = s.phase := rfl
  have closed : (s.above older).inputClosed = s.inputClosed := rfl
  rw [handle.eq_def, handle.eq_def, phase, closed]
  split
  · exact s.above_deliver _ _ older
  · split
    · rfl
    · exact s.above_readLine _ older
  · split <;> rfl
  · split
    · rfl
    · rw [← above_settle, ← above_persist]
      rfl
  · rfl

/-! ## Runs that differ in incognito picks -/

/-- A line that picks a key, from the page or from the results, while picks go unrecorded. -/
structure Unrecorded (s : Session) (picking : String → SessionCommand) (text : List Char)
    (key : String) : Prop where
  listens : s.listens = true
  incognito : s.picker.options.incognito = true
  picks : picking = .pick ∨ picking = .choose
  parsed : SessionCommand.parse text = .ok (picking key)

/-- Two runs of a session whose lines differ in the keys of some picks alone, all of them made while
picks go unrecorded; with those keys, in order. -/
inductive Veiled :
    Session → List SessionEvent → List SessionEvent → List (String × String) → Prop where
  | nil (s : Session) : Veiled s [] [] []
  | same {s : Session} (event : SessionEvent) {events others : List SessionEvent}
      {pairs : List (String × String)} (rest : Veiled (s.handle event) events others pairs) :
      Veiled s (event :: events) (event :: others) pairs
  | rekeyed {s : Session} {picking : String → SessionCommand} {text other : List Char}
      {key otherKey : String} (one : Unrecorded s picking text key)
      (two : Unrecorded s picking other otherKey) {events others : List SessionEvent}
      {pairs : List (String × String)} (rest : Veiled (s.handle (.line text)) events others pairs) :
      Veiled s (.line text :: events) (.line other :: others) ((key, otherKey) :: pairs)

/-- After some of the events the runs have differed in the first of the keys. -/
theorem Veiled.take {events others : List SessionEvent} {pairs : List (String × String)}
    (veiled : Veiled s events others pairs) (n : Nat) :
    ∃ shown, shown <+: pairs ∧ Veiled s (events.take n) (others.take n) shown := by
  induction veiled generalizing n with
  | nil s => exact ⟨[], List.prefix_rfl, by simpa using Veiled.nil s⟩
  | @same s event events others pairs rest ih =>
      cases n with
      | zero => exact ⟨[], List.nil_prefix, .nil s⟩
      | succ n =>
          rcases ih n with ⟨shown, first, veiled⟩
          exact ⟨shown, first, .same event veiled⟩
  | @rekeyed s _ _ _ key otherKey one two _ _ _ _ ih =>
      cases n with
      | zero => exact ⟨[], List.nil_prefix, .nil s⟩
      | succ n =>
          rcases ih n with ⟨shown, first, veiled⟩
          exact ⟨(key, otherKey) :: shown, List.cons_prefix_cons.2 ⟨rfl, first⟩,
            .rekeyed one two veiled⟩

/-- Two sessions that differ in some commits on their displays, and in nothing else. -/
structure Twins (pairs : List (String × String)) (s t : Session) : Prop where
  same : t = { s with picker := { s.picker with display := t.picker.display } }
  alike : ViewEvent.Alike pairs s.displayed t.displayed

/-- A session before it displayed anything. -/
def blank (s : Session) : Session :=
  { s with picker := { s.picker with display := [] } }

theorem above_blank (s : Session) : s.blank.above s.picker.display = s := rfl

theorem displayed_above (s : Session) (older : List ViewEvent) :
    (s.above older).displayed = older.reverse ++ s.displayed :=
  List.reverse_append

theorem Twins.above_blank {pairs : List (String × String)} (twins : Twins pairs s t) :
    s.blank.above t.picker.display = t :=
  twins.same.symm

theorem twins_above (s : Session) {pairs : List (String × String)} {xs ys : List ViewEvent}
    (alike : ViewEvent.Alike pairs xs.reverse ys.reverse) : Twins pairs (s.above xs) (s.above ys) where
  same := rfl
  alike := by
    rw [displayed_above, displayed_above]
    simpa using alike.append (.refl s.displayed)

theorem Twins.handle {pairs : List (String × String)} (twins : Twins pairs s t)
    (event : SessionEvent) : Twins pairs (s.handle event) (t.handle event) := by
  rw [← s.above_blank, ← twins.above_blank, above_handle, above_handle]
  exact twins_above _ twins.alike

/-- A session that puts a key into the text. -/
def commit (s : Session) (key : String) : Session :=
  { s with picker := s.picker.emit (.commit key) }

/-- What a pick comes to besides its commit, while it goes unrecorded: a choice may end the search. -/
def afterPick (s : Session) : SessionCommand → Session
  | .choose _ => persist { s with picker := s.picker.endChoice }
  | _ => s.persist

theorem handle_of_listens (listens : s.listens = true) (text : List Char) :
    s.handle (.line text) = s.readLine text := by
  have going : s.phase = .running ∧ s.inputClosed = false := by simpa [Session.listens] using listens
  rw [handle.eq_def, going.1, going.2]
  rfl

section Picks

variable {picking : String → SessionCommand} {text other : List Char} {key otherKey : String}

/-- The commit is all that is left of the key. -/
theorem Unrecorded.handle (line : Unrecorded s picking text key) (any : String) :
    s.handle (.line text) = (s.commit key).afterPick (picking any) := by
  have picked : s.picker.pick key = s.picker.emit (.commit key) := by
    rw [Picker.pick]
    exact if_pos line.incognito
  rw [handle_of_listens line.listens, readLine, line.parsed]
  rcases line.picks with rfl | rfl
  · change persist { s with picker := s.picker.pick key } = _
    rw [picked]
    rfl
  · change persist { s with picker := s.picker.choose key } = _
    rw [Picker.choose_eq, picked]
    rfl

theorem above_afterPick (s : Session) (picks : picking = .pick ∨ picking = .choose) (any : String)
    (older : List ViewEvent) :
    (s.above older).afterPick (picking any) = (s.afterPick (picking any)).above older := by
  rcases picks with rfl | rfl
  · exact s.above_persist older
  · have ended : (s.above older).picker.endChoice = s.picker.endChoice.above older :=
      Picker.oblivious_endChoice s.picker older
    rw [afterPick, ended]
    exact above_persist { s with picker := s.picker.endChoice } older

/-- The other session is in the same state, display aside. -/
theorem Twins.unrecorded {pairs : List (String × String)} (twins : Twins pairs s t)
    (line : Unrecorded s picking text key) : Unrecorded t picking text key := by
  rw [twins.same]
  exact ⟨line.listens, line.incognito, line.picks, line.parsed⟩

/-- One step of both runs. -/
theorem Twins.rekeyed {pairs : List (String × String)} (twins : Twins pairs s t)
    (one : Unrecorded s picking text key) (two : Unrecorded s picking other otherKey) :
    Twins (pairs ++ [(key, otherKey)]) (s.handle (.line text)) (t.handle (.line other)) := by
  -- Both go on as the blank session does, with the commits among what was displayed before.
  have first : s.commit key = s.blank.above (.commit key :: s.picker.display) := rfl
  have second : t.commit otherKey = s.blank.above (.commit otherKey :: t.picker.display) := by
    rw [← twins.above_blank]
    rfl
  rw [one.handle "", (twins.unrecorded two).handle "", first, second,
    above_afterPick _ one.picks, above_afterPick _ one.picks]
  refine twins_above _ ?_
  rw [List.reverse_cons, List.reverse_cons]
  exact twins.alike.append (.commit key otherKey .nil)

end Picks

theorem Twins.run {before pairs : List (String × String)} {events others : List SessionEvent}
    (veiled : Veiled s events others pairs) (twins : Twins before s t) :
    Twins (before ++ pairs) (events.foldl Session.handle s) (others.foldl Session.handle t) := by
  induction veiled generalizing before t with
  -- The run of the first session leads, as the other one is in the same state at every event.
  | nil s => simpa using twins
  | same event _ ih => exact ih (twins.handle event)
  | rekeyed one two _ ih =>
      have next := ih (twins.rekeyed one two)
      rw [List.append_assoc] at next
      exact next

/-- Picks that go unrecorded leave no trace: of two runs that differ in the keys of such picks alone,
over whatever events and from whatever session, after every event

* the sessions are the same but for their displays: what is visible, buffered and to be saved, cursor
  and search, and every file;
* their displays are the same but for the commits of those picks so far. -/
theorem incognito_untraced (s : Session) {events others : List SessionEvent}
    {pairs : List (String × String)} (veiled : Veiled s events others pairs) (n : Nat) :
    let t := (events.take n).foldl handle s
    let u := (others.take n).foldl handle s
    ∃ shown, shown <+: pairs ∧ Veiled s (events.take n) (others.take n) shown ∧
      u = { t with picker := { t.picker with display := u.picker.display } } ∧
      ViewEvent.Alike shown t.displayed u.displayed := by
  intro t u
  rcases veiled.take n with ⟨shown, first, soFar⟩
  have begun : Twins [] s s := ⟨rfl, .refl s.displayed⟩
  have twins : Twins shown t u := by simpa using begun.run soFar
  exact ⟨shown, first, soFar, twins.same, twins.alike⟩

/-- Two picks that go unrecorded while another one is buffered, and a result of a search. -/
theorem incognito_untraced_choose :
    let first := Program.waitingSession {} ⟨[⟨⟨1⟩, "faces", ["😀", "🐱"]⟩]⟩ ⟨"dicts"⟩
      ⟨"recent_emoji.json"⟩ { top := .file "recent_emoji.json" (Text.encode "[\"🐶\"]".toList) .empty }
    let s := Program.beginSession first "en"
    let events : List SessionEvent := [.line "pick 😀".toList, .line "incognito on".toList,
      .line "pick 🐱".toList, .line "tab search".toList, .line "choose 🐱".toList, .line "hide".toList]
    let others : List SessionEvent := [.line "pick 😀".toList, .line "incognito on".toList,
      .line "pick 🐶".toList, .line "tab search".toList, .line "choose 😀".toList, .line "hide".toList]
    let t := (events.take 6).foldl handle s
    let u := (others.take 6).foldl handle s
    Veiled s events others [("🐱", "🐶"), ("🐱", "😀")] ∧ t.displayed ≠ u.displayed ∧
      t.picker.navigation.recents.visible = ["😀", "🐶"] ∧
      u.picker.navigation.recents.visible = ["😀", "🐶"] ∧ u.disk = t.disk := by
  intro first s events others t u
  have veiled : Veiled s events others [("🐱", "🐶"), ("🐱", "😀")] :=
    .same _ <| .same _ <|
      .rekeyed ⟨by decide +kernel, by decide +kernel, Or.inl rfl, by decide +kernel⟩
        ⟨by decide +kernel, by decide +kernel, Or.inl rfl, by decide +kernel⟩ <|
      .same _ <|
      .rekeyed ⟨by decide +kernel, by decide +kernel, Or.inr rfl, by decide +kernel⟩
        ⟨by decide +kernel, by decide +kernel, Or.inr rfl, by decide +kernel⟩ <|
      .same _ <| .nil _
  have visible : t.picker.navigation.recents.visible = ["😀", "🐶"] := by decide +kernel
  have told : t.displayed ≠ u.displayed := by decide +kernel
  have law := incognito_untraced s veiled 6
  extract_lets at law
  rcases law with ⟨_, _, _, same, _⟩
  have same : u = { t with picker := { t.picker with display := u.picker.display } } := same
  -- From here on the two runs are any sessions of which this is true.
  clear_value t u
  have navigation : u.picker.navigation = t.picker.navigation := by rw [same]
  have disk : u.disk = t.disk := by
    rw [same]
    rfl
  exact ⟨veiled, told, visible, navigation ▸ visible, disk⟩

end Session
end EmojiPicker

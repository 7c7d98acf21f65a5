import EmojiPicker.Proofs.Picker.Located
import EmojiPicker.Proofs.Session.Saving

/-!
# Downloads among the lines

Downloads deliver their results at any later moment, in any order, between any lines.

* `Session.received` — the downloads whose results a session acts on, in order;
* `Session.Counted` — every result is acted on once, and the others are in flight;
* `Session.Accounted`, `Accounted.foldl_handle` — this with what else holds between events;
* `Session.deliveries_interleave` — results nobody waits for, and the end of the input.
-/

namespace EmojiPicker
namespace Session

variable {s t : Session} {seen : List Nat}

/-! ## Results -/

/-- The download whose result a session acts on: it runs, and the download has no result yet. -/
def receives (s : Session) : SessionEvent → Option Nat
  | .delivered index _ =>
      match s.phase, s.downloads[index]? with
      | .running, some ⟨_, false⟩ => some index
      | _, _ => none
  | _ => none

/-- The downloads whose results a session acts on. -/
def received (s : Session) : List SessionEvent → List Nat
  | [] => []
  | event :: rest => (s.receives event).toList ++ (s.handle event).received rest

theorem receives_eq_some_iff {index place : Nat} {result : Except String (List UInt8)} :
    s.receives (.delivered index result) = some place ↔
      index = place ∧ s.phase = .running ∧
        ∃ request, s.downloads[index]? = some ⟨request, false⟩ := by
  rw [receives]
  split
  · next request running known => simp [running, known]
  · next other =>
      constructor
      · intro acted
        exact absurd acted (by simp)
      · rintro ⟨_, running, request, known⟩
        exact absurd known (other request running)

/-- Any other result is ignored. -/
theorem handle_of_not_received {index : Nat} {result : Except String (List UInt8)}
    (ignored : s.receives (.delivered index result) = none) :
    s.handle (.delivered index result) = s := by
  by_cases running : s.phase = .running
  · rw [handle.eq_def, running]
    change s.deliver index result = s
    rw [deliver]
    split
    · next request known =>
        have acted : s.receives (.delivered index result) = some index :=
          receives_eq_some_iff.2 ⟨rfl, running, request, known⟩
        rw [ignored] at acted
        exact absurd acted (by simp)
    · rfl
  · exact handle_of_ended running _

/-- A session that a result has reached. Nothing is saved yet. -/
def reached (s : Session) (index : Nat) (request : DownloadRequest)
    (result : Except String (List UInt8)) : Session :=
  { s with
    picker := s.picker.completeDownload ⟨request.locale, result⟩
    downloads := s.downloads.set index ⟨request, true⟩
    inFlight := s.inFlight - 1 }

theorem handle_received {index : Nat} {request : DownloadRequest} (running : s.phase = .running)
    (known : s.downloads[index]? = some ⟨request, false⟩) (result : Except String (List UInt8)) :
    s.handle (.delivered index result) = settle (s.reached index request result).persist := by
  rw [handle.eq_def, running]
  change s.deliver index result = _
  rw [deliver, known]
  rfl

/-! ## What is in flight -/

/-- Every download has been acted on once, or is in flight. -/
structure Counted (s : Session) (seen : List Nat) : Prop where
  outstanding : s.inFlight = s.downloads.countP (fun download => ! download.handled)
  total : s.inFlight + seen.length = s.downloads.length
  once : seen.Nodup
  handled : ∀ index, index ∈ seen ↔ ∃ request, s.downloads[index]? = some ⟨request, true⟩

/-- Only the list of downloads and the counter matter. -/
theorem Counted.congr (counted : s.Counted seen) (downloads : t.downloads = s.downloads)
    (inFlight : t.inFlight = s.inFlight) : t.Counted seen where
  outstanding := by rw [inFlight, downloads]; exact counted.outstanding
  total := by rw [inFlight, downloads]; exact counted.total
  once := counted.once
  handled := by rw [downloads]; exact counted.handled

/-- A download that is not handled is in flight. -/
theorem Counted.inFlight_pos (counted : s.Counted seen) {index : Nat} {request : DownloadRequest}
    (known : s.downloads[index]? = some ⟨request, false⟩) : 0 < s.inFlight := by
  rw [counted.outstanding, List.countP_pos_iff]
  exact ⟨⟨request, false⟩, List.mem_of_getElem? known, rfl⟩

/-- Where nothing is in flight every result has come. -/
theorem Counted.all_received (counted : s.Counted seen) (landed : s.inFlight = 0) {index : Nat}
    (started : index < s.downloads.length) : index ∈ seen := by
  have found : s.downloads[index]? = some s.downloads[index] := List.getElem?_eq_getElem started
  rcases download : s.downloads[index] with ⟨request, handled⟩
  rw [download] at found
  cases handled with
  | true => exact (counted.handled index).2 ⟨request, found⟩
  | false =>
      have := counted.inFlight_pos found
      exact absurd landed (Nat.ne_of_gt this)

/-- A session with one download more. -/
def launched (s : Session) (request : DownloadRequest) : Session :=
  { s with
    downloads := s.downloads ++ [⟨request, false⟩]
    inFlight := s.inFlight + 1 }

theorem Counted.launched (counted : s.Counted seen) (request : DownloadRequest) :
    (s.launched request).Counted seen where
  outstanding := by simp [Session.launched, counted.outstanding]
  total := by
    have total := counted.total
    simp only [Session.launched, List.length_append, List.length_singleton]
    omega
  once := counted.once
  handled := by
    intro index
    rw [counted.handled, Session.launched, List.getElem?_append]
    split
    · rfl
    · next beyond =>
        -- The new download has no result, and the old ones are all before it.
        have old : s.downloads[index]? = none := List.getElem?_eq_none (Nat.le_of_not_lt beyond)
        rw [old]
        cases index - s.downloads.length <;> simp

theorem Counted.reached (counted : s.Counted seen) {index : Nat} {request : DownloadRequest}
    (known : s.downloads[index]? = some ⟨request, false⟩) (result : Except String (List UInt8)) :
    (s.reached index request result).Counted (seen ++ [index]) := by
  rcases List.getElem?_eq_some_iff.1 known with ⟨bound, found⟩
  have positive := counted.inFlight_pos known
  -- Had it been handled before, its flag would say so.
  have fresh : index ∉ seen := by
    intro member
    rcases (counted.handled index).1 member with ⟨other, same⟩
    rw [known] at same
    exact absurd same (by simp)
  constructor
  · have fewer := List.countP_set (p := fun download : Download => ! download.handled)
      (a := ⟨request, true⟩) bound
    simp only [Session.reached]
    rw [fewer, found, counted.outstanding]
    simp
  · have total := counted.total
    simp only [Session.reached, List.length_append, List.length_singleton, List.length_set]
    omega
  · rw [List.nodup_append]
    refine ⟨counted.once, by simp, ?_⟩
    intro place member other last same
    obtain rfl := List.mem_singleton.1 last
    exact fresh (same ▸ member)
  · intro place
    rw [List.mem_append, List.mem_singleton, counted.handled, Session.reached, List.getElem?_set]
    split
    · next same =>
        subst same
        simp [bound]
    · next other => simp [Ne.symm other]

/-! ## Between events -/

/-- From one moment to another no download was started and no result came. -/
structure Continues (s t : Session) : Prop where
  downloads : t.downloads = s.downloads
  inFlight : t.inFlight = s.inFlight
  inputClosed : t.inputClosed = s.inputClosed

theorem Counted.continues (counted : s.Counted seen) (same : Continues s t) : t.Counted seen :=
  counted.congr same.downloads same.inFlight

theorem Continues.persist (same : Continues s t) : Continues s t.persist := by
  rcases t.persist_frame with ⟨disk, saves, kept⟩
  rw [kept]
  exact ⟨same.downloads, same.inFlight, same.inputClosed⟩

theorem continues_finish (s : Session) : Continues s s.finish := by
  rw [finish]
  exact .persist ⟨rfl, rfl, rfl⟩

theorem continues_settle (s : Session) : Continues s s.settle := by
  rw [settle]
  split
  · exact s.continues_finish
  · exact ⟨rfl, rfl, rfl⟩

/-- After the end of the input a session runs exactly as long as something is in flight. -/
def Waits (s : Session) : Prop :=
  s.inputClosed = true →
    (s.phase = .running ∧ 0 < s.inFlight) ∨ (s.phase = .finished ∧ s.inFlight = 0)

theorem waits_settle (running : s.phase = .running) : s.settle.Waits := by
  intro closed
  rw [s.continues_settle.inFlight]
  rw [s.continues_settle.inputClosed] at closed
  by_cases landed : s.inFlight = 0
  · refine Or.inr ⟨?_, landed⟩
    rw [settle, closed, landed]
    exact persist_phase _
  · refine Or.inl ⟨?_, Nat.pos_of_ne_zero landed⟩
    rw [settle, closed]
    simpa [landed] using running

theorem settle_clean (clean : s.picker.recentsDirty = false) :
    s.settle.picker.recentsDirty = false := by
  rw [settle]
  split
  · exact persist_clean _
  · exact clean

theorem obey_clean (s : Session) (command : SessionCommand) :
    (s.obey command).picker.recentsDirty = false := by
  cases command with
  | _ => exact persist_clean _

theorem readLine_clean (s : Session) (text : List Char) :
    (s.readLine text).picker.recentsDirty = false := by
  rw [readLine]
  split
  · exact s.obey_clean _
  · exact persist_clean _

/-- A line starts one download or none. -/
theorem continues_readLine (s : Session) (text : List Char) :
    Continues s (s.readLine text) ∨
      ∃ request, Continues (s.launched request) (s.readLine text) := by
  rw [readLine]
  split
  · next command _ =>
      cases command with
      | quit => exact Or.inl s.continues_finish
      | download =>
          simp only [obey, download]
          rcases s.picker.requestDownload with ⟨_ | request, picker⟩
          · exact Or.inl (.persist ⟨rfl, rfl, rfl⟩)
          · exact Or.inr ⟨request, .persist ⟨rfl, rfl, rfl⟩⟩
      | _ =>
          simp only [obey]
          exact Or.inl (.persist ⟨rfl, rfl, rfl⟩)
  · exact Or.inl (.persist ⟨rfl, rfl, rfl⟩)

/-! ## The locale -/

theorem located_persist (located : s.picker.Located) : s.persist.picker.Located := by
  rcases s.persist_frame with ⟨disk, saves, same⟩
  rw [same]
  exact located

theorem Fed.located {input : PickerInput} (fed : Fed s input t) (located : s.picker.Located) :
    t.persist.picker.Located :=
  located_persist (located.steps fed.steps)

theorem Turn.located {inputs : List PickerInput} (turn : Turn s inputs t)
    (located : s.picker.Located) : t.picker.Located := by
  induction turn with
  | still picker _ _ _ =>
      rw [picker]
      exact located
  | unheard _ fed => exact fed.located located
  | obeyed fed => exact fed.located located
  | @ended t _ _ ih => exact t.fed_finish.located ih

/-! ## Events -/

/-- What holds between events, for the downloads whose results were acted on so far. -/
structure Accounted (s : Session) (seen : List Nat) : Prop where
  counted : s.Counted seen
  waits : s.Waits
  located : s.picker.Located
  /-- What changed before the first download is saved by then. -/
  clean : s.downloads ≠ [] → s.picker.recentsDirty = false

theorem Accounted.readLine (accounted : s.Accounted seen) (reading : s.inputClosed = false)
    {text : List Char} (located : (s.readLine text).picker.Located) :
    (s.readLine text).Accounted seen := by
  have clean : (s.readLine text).downloads ≠ [] → (s.readLine text).picker.recentsDirty = false :=
    fun _ => s.readLine_clean text
  have waits : (s.readLine text).inputClosed = s.inputClosed → (s.readLine text).Waits := by
    intro same closed
    rw [same, reading] at closed
    exact absurd closed (by simp)
  rcases s.continues_readLine text with same | ⟨request, same⟩
  · exact ⟨accounted.counted.continues same, waits same.inputClosed, located, clean⟩
  · have counted := accounted.counted.launched request
    exact ⟨counted.continues same, waits same.inputClosed, located, clean⟩

theorem Accounted.deliver (accounted : s.Accounted seen) (running : s.phase = .running) {index : Nat}
    {request : DownloadRequest} (known : s.downloads[index]? = some ⟨request, false⟩)
    {result : Except String (List UInt8)}
    (located : (settle (s.reached index request result).persist).picker.Located) :
    (settle (s.reached index request result).persist).Accounted (seen ++ [index]) where
  counted := by
    have counted := accounted.counted.reached known result
    exact (counted.continues (.persist ⟨rfl, rfl, rfl⟩)).continues (continues_settle _)
  waits := waits_settle ((persist_phase _).trans running)
  located := located
  clean := fun _ => settle_clean (persist_clean _)

/-- The session stays for what is in flight, or ends. -/
theorem Accounted.close (accounted : s.Accounted seen) (running : s.phase = .running)
    (located : (settle (persist { s with inputClosed := true })).picker.Located) :
    (settle (persist { s with inputClosed := true })).Accounted seen where
  counted := by
    have counted : Counted { s with inputClosed := true } seen := accounted.counted.congr rfl rfl
    exact (counted.continues (.persist ⟨rfl, rfl, rfl⟩)).continues (continues_settle _)
  waits := waits_settle ((persist_phase _).trans running)
  located := located
  clean := fun _ => settle_clean (persist_clean _)

theorem receives_of_ended (ended : s.phase ≠ .running) (event : SessionEvent) :
    s.receives event = none := by
  cases event with
  | delivered index result =>
      rw [Option.eq_none_iff_forall_ne_some]
      intro place acted
      exact ended (receives_eq_some_iff.1 acted).2.1
  | _ => rfl

theorem Accounted.handle (accounted : s.Accounted seen) (event : SessionEvent) :
    (s.handle event).Accounted (seen ++ (s.receives event).toList) := by
  rcases s.turn_handle event with ⟨inputs, turn, _⟩
  have located := turn.located accounted.located
  by_cases running : s.phase = .running
  swap
  · rw [handle_of_ended running, receives_of_ended running, Option.toList_none, List.append_nil]
    exact accounted
  -- Results are taken as long as the session runs, all else only while the input is open.
  cases event with
  | delivered index result =>
      cases acted : s.receives (.delivered index result) with
      | none =>
          rw [handle_of_not_received acted, Option.toList_none, List.append_nil]
          exact accounted
      | some place =>
          rcases receives_eq_some_iff.1 acted with ⟨rfl, _, request, known⟩
          rw [handle_received running known] at located ⊢
          exact accounted.deliver running known located
  | line text =>
      change (s.handle (.line text)).Accounted (seen ++ [])
      rw [List.append_nil]
      rw [handle.eq_def, running] at located ⊢
      cases reading : s.inputClosed with
      | true => exact accounted
      | false =>
          rw [reading] at located
          exact accounted.readLine reading located
  | unreadable fault =>
      change (s.handle (.unreadable fault)).Accounted (seen ++ [])
      rw [List.append_nil, handle.eq_def, running]
      cases reading : s.inputClosed with
      | true => exact accounted
      | false =>
          refine ⟨accounted.counted.congr rfl rfl, ?_, accounted.located, accounted.clean⟩
          intro closed
          exact absurd closed (by simp)
  | inputClosed =>
      change (s.handle .inputClosed).Accounted (seen ++ [])
      rw [List.append_nil]
      cases reading : s.inputClosed with
      | true =>
          have same : s.handle .inputClosed = s := by simp [Session.handle, running, reading]
          rw [same]
          exact accounted
      | false =>
          have ended : s.handle .inputClosed = settle (persist { s with inputClosed := true }) := by
            simp [Session.handle, running, reading]
          rw [ended] at located ⊢
          exact accounted.close running located

theorem Accounted.foldl_handle (accounted : s.Accounted seen) (events : List SessionEvent) :
    (events.foldl Session.handle s).Accounted (seen ++ s.received events) := by
  induction events generalizing s seen with
  | nil =>
      rw [received, List.append_nil]
      exact accounted
  | cons event rest ih =>
      rw [received, ← List.append_assoc]
      exact ih (accounted.handle event)

/-! ## Whole sessions -/

theorem accounted_begin {p : Picker DictionaryCache} (located : p.Located) (path : Path) :
    Accounted { picker := p, recentsPath := path } [] where
  counted := ⟨rfl, rfl, List.nodup_nil, by simp⟩
  waits := by
    intro closed
    exact absurd closed (by simp)
  located := located
  clean := by
    intro started
    exact absurd rfl started

/-- Where a result is for another locale, all that it changes is that the download is handled. -/
theorem handle_stale (accounted : s.Accounted seen) (running : s.phase = .running) {index : Nat}
    {request : DownloadRequest} (known : s.downloads[index]? = some ⟨request, false⟩)
    (stale : Locale.normalize request.locale ≠ s.picker.locale)
    (result : Except String (List UInt8)) :
    s.handle (.delivered index result) =
      settle { s with
        downloads := s.downloads.set index ⟨request, true⟩, inFlight := s.inFlight - 1 } := by
  have started : s.downloads ≠ [] := by
    rintro empty
    rw [empty] at known
    exact absurd known (by simp)
  have same : s.picker.completeDownload ⟨request.locale, result⟩ = s.picker :=
    Picker.completeDownload_stale accounted.located stale
  rw [handle_received running known, reached, same]
  exact congrArg settle (persist_of_clean (accounted.clean started))

/-- Downloads and lines may interleave in any order: for every picker that was started, whatever
happened to it since and whatever is on its display, and all events of a session over it,

* the locale of the picker is the active one of its dictionaries;
* a download that has no result is in flight, and a result for another locale changes nothing but
  that, whether it is bytes or a failure;
* every result is acted on once at most, and in flight are the others;
* after the end of the input the session waits for those in flight and ends when there is none. -/
theorem deliveries_interleave (p : Picker DictionaryCache) (locale : String)
    (before : List PickerEvent) (display : List ViewEvent) (path : Path)
    (events : List SessionEvent) :
    let started := (p.start locale).run before
    let first : Session := { picker := { started with display := display }, recentsPath := path }
    let s := events.foldl handle first
    s.picker.dictionaries.activeLocale = some s.picker.locale ∧
      (∀ index request result, s.phase = .running →
        s.downloads[index]? = some ⟨request, false⟩ →
          0 < s.inFlight ∧
            (Locale.normalize request.locale ≠ s.picker.locale →
              s.handle (.delivered index result) =
                settle { s with
                  downloads := s.downloads.set index ⟨request, true⟩
                  inFlight := s.inFlight - 1 })) ∧
      (first.received events).Nodup ∧
      s.inFlight + (first.received events).length = s.downloads.length ∧
      (s.inputClosed = true →
        (s.phase = .running ∧ 0 < s.inFlight) ∨
          (s.phase = .finished ∧ ∀ index < s.downloads.length, index ∈ first.received events)) := by
  intro started first s
  have located : first.picker.Located := (p.located_start locale).run before
  have accounted : s.Accounted (first.received events) :=
    (accounted_begin located path).foldl_handle events
  have counted := accounted.counted
  refine ⟨accounted.located, ?_, counted.once, counted.total, ?_⟩
  · intro index request result running known
    refine ⟨counted.inFlight_pos known, ?_⟩
    intro stale
    exact handle_stale accounted running known stale result
  · intro closed
    rcases accounted.waits closed with waiting | ⟨finished, landed⟩
    · exact Or.inl waiting
    · refine Or.inr ⟨finished, ?_⟩
      intro index bound
      exact counted.all_received landed bound

/-- A download that fails when the locale was changed and the input has ended. -/
theorem deliveries_interleave_late :
    let settings : Settings := { dictionaryAddress := some "file:///published" }
    let picker := settings.picker ⟨[⟨⟨1⟩, "faces", ["😀", "🐱"]⟩]⟩ [] (⟨⟨"dicts"⟩, {}⟩ : DictionaryCache)
    let started := (picker.start "en").run []
    let first : Session :=
      { picker := { started with display := [] }, recentsPath := ⟨"recent_emoji.json"⟩ }
    let events := [SessionEvent.line "download".toList, .line "locale de".toList, .inputClosed]
    let request : DownloadRequest := ⟨"en", "file:///published/emoji_en.dict"⟩
    let s := events.foldl handle first
    (s.phase = .running ∧ s.downloads[0]? = some ⟨request, false⟩ ∧
        Locale.normalize request.locale ≠ s.picker.locale ∧ s.inputClosed = true) ∧
      0 < s.inFlight ∧
      s.handle (.delivered 0 (.error "gone")) =
        settle { s with
          downloads := s.downloads.set 0 ⟨request, true⟩
          inFlight := s.inFlight - 1 } := by
  intro settings picker started first events request s
  have running : s.phase = .running := by decide +kernel
  have known : s.downloads[0]? = some ⟨request, false⟩ := by decide +kernel
  have stale : Locale.normalize request.locale ≠ s.picker.locale := by decide +kernel
  have closed : s.inputClosed = true := by decide +kernel
  have law := deliveries_interleave picker "en" [] [] ⟨"recent_emoji.json"⟩ events
  -- The session of the law is the one here.
  extract_lets at law
  rcases law with ⟨_, results, _, _, waits⟩
  have waiting : 0 < s.inFlight := by
    rcases waits closed with ⟨_, positive⟩ | ⟨finished, _⟩
    · exact positive
    · exact absurd (running.symm.trans finished) (by simp)
  exact ⟨⟨running, known, stale, closed⟩, waiting, (results 0 request _ running known).2 stale⟩

/-- The program greets the user between the start and the first event. -/
example (p : Picker DictionaryCache) (path : Path) (locale : String) :
    Program.beginSession { picker := p, recentsPath := path } locale =
      { picker :=
          { (p.start locale).run [] with
            display := .message Program.greeting :: (p.start locale).display }
        recentsPath := path } := rfl

end Session
end EmojiPicker

import EmojiPicker.Picker
import EmojiPicker.Proofs.Navigation.Moves
import EmojiPicker.Proofs.Recents.Recall

/-!
# Events apart from what they display

Every event of the picker changes some fields and then displays something.

* `Picker.Shows` — tabs and pages as they are at the moment;
* `Picker.Displays` — one picker is another one after some more display, which shows it as it is;
* `Picker.displays_flushRecents`, `Picker.displays_hide`, `Picker.displays_applyChange`,
  `Picker.displays_selectCategory`, `Picker.displays_record` and so on — the events up to display;
* `Picker.selectCategory_cases`, `Picker.scroll_cases`, `Picker.record_cases` and so on — the same
  with the fields that change.

An invariant of the other fields is thereby settled on a few plain updates, and display never
occurs in its proof again. What is displayed is settled by the picker that displays it.
-/

namespace EmojiPicker
namespace Picker

variable {σ : Type} {p q r : Picker σ}

/-- What is displayed of the tabs and of a page is what the picker has at the moment. -/
def Shows (p : Picker σ) : ViewEvent → Prop
  | .tabs tabs current => tabs = p.tabs ∧ current = p.currentTab
  | .page category page keys _ =>
      p.navigation.cursor = ⟨category, page⟩ ∧ keys = p.navigation.pageKeys category page
  | _ => True

/-- One picker is another one that displayed something more, and showed itself as it is. -/
def Displays (p q : Picker σ) : Prop :=
  ∃ events, q = { p with display := events ++ p.display } ∧ ∀ event ∈ events, p.Shows event

namespace Displays

theorem refl (p : Picker σ) : Displays p p :=
  ⟨[], rfl, by simp⟩

theorem trans (first : Displays p q) (second : Displays q r) : Displays p r := by
  rcases first with ⟨xs, rfl, showsFirst⟩
  rcases second with ⟨ys, rfl, showsThen⟩
  refine ⟨ys ++ xs, by simp, ?_⟩
  -- More display changes nothing that is shown.
  intro event found
  rcases List.mem_append.1 found with later | earlier
  · exact showsThen event later
  · exact showsFirst event earlier

end Displays

/-! ## The display itself -/

theorem displays_emit (p : Picker σ) {event : ViewEvent} (shows : p.Shows event) :
    Displays p (p.emit event) := by
  refine ⟨[event], rfl, ?_⟩
  intro other found
  rw [List.mem_singleton.1 found]
  exact shows

theorem displays_commit (p : Picker σ) (key : String) : Displays p (p.emit (.commit key)) :=
  displays_emit p trivial

theorem displays_renderTabs (p : Picker σ) : Displays p p.renderTabs :=
  displays_emit p ⟨rfl, rfl⟩

theorem displays_renderPage (p : Picker σ) (animate : Bool) : Displays p (p.renderPage animate) := by
  have page : Displays p (p.emit (.page p.navigation.cursor.category p.navigation.cursor.page
      (p.navigation.pageKeys p.navigation.cursor.category p.navigation.cursor.page) animate)) :=
    displays_emit p ⟨rfl, rfl⟩
  exact page.trans (displays_emit _ trivial)

theorem displays_renderChange (p : Picker σ) (change : CategoryChange) :
    Displays p (p.renderChange change) :=
  p.displays_renderTabs.trans (displays_renderPage _ _)

theorem displays_renderSearch (p : Picker σ) : Displays p p.renderSearch :=
  displays_emit p trivial

theorem displays_render (p : Picker σ) : Displays p p.render := by
  rw [render]
  refine Displays.trans p.displays_renderTabs ?_
  split
  · exact displays_renderSearch _
  · exact displays_renderPage _ _

/-! ## Navigation -/

theorem displays_flushRecents (p : Picker σ) : Displays p.settle.2 p.flushRecents := by
  rw [flushRecents]
  rcases h : p.settle with ⟨redirect, settled⟩
  cases redirect with
  | none =>
      exact Displays.refl settled
  | some change =>
      dsimp only
      split
      · exact displays_renderChange settled change
      · exact Displays.refl settled

/-- A change of category, the display aside: one away from the recently used emoji ends their
buffer. -/
def afterChange (p : Picker σ) (previous current : CategoryId) : Picker σ :=
  if previous.isRecents && ! current.isRecents then p.settle.2 else p

theorem displays_applyChange (p : Picker σ) (change : CategoryChange) :
    Displays (p.afterChange change.previous change.current) (p.applyChange change) := by
  rw [applyChange, afterChange]
  split
  · exact Displays.trans (displays_flushRecents p) (displays_renderChange _ change)
  · exact displays_renderChange p change

theorem displays_hide (p : Picker σ) :
    Displays { p.leaveSearch with visible := false }.settle.2 p.hide :=
  displays_flushRecents _

theorem hide_visible (p : Picker σ) : p.hide.visible = false := by
  rcases displays_hide p with ⟨events, h, _⟩
  rw [h]
  rfl

/-- The picker after a selection, nothing else being done about it. -/
def selecting (p : Picker σ) (id : CategoryId) (animate : Bool) : Picker σ :=
  { p with navigation := (p.navigation.select id animate).2 }

/-- What follows a change of category, if there was one, the display aside. -/
def followed (p : Picker σ) : Option CategoryChange → Picker σ
  | none => p
  | some change => p.afterChange change.previous change.current

theorem displays_selectCategory (p : Picker σ) (id : CategoryId) (animate : Bool) :
    Displays ((p.leaveSearch.selecting id animate).followed (p.navigation.select id animate).1)
      (p.selectCategory id animate) := by
  rw [selectCategory, selecting]
  -- Leaving the search changes nothing that a selection reads.
  change Displays (followed { p.leaveSearch with navigation := (p.navigation.select id animate).2 } _) _
  rcases chosen : p.navigation.select id animate with ⟨change, navigation⟩
  have same : p.leaveSearch.navigation.select id animate = (change, navigation) := chosen
  simp only [same]
  cases change with
  | some change => exact displays_applyChange _ change
  | none =>
      obtain rfl : navigation = p.navigation := p.navigation.select_eq_of_none chosen
      dsimp only
      split
      · exact displays_render _
      · exact Displays.refl _

/-- The picker with the cursor in another category. -/
def entering (p : Picker σ) (id : CategoryId) (page : Nat) (remembered : List (CategoryId × Nat)) :
    Picker σ :=
  { p with navigation := { p.navigation with
      cursor := ⟨id, page⟩, remembered := remembered, initialized := true } }

/-- A category that is not entered only ends search mode. -/
theorem selectCategory_cases (p : Picker σ) (id : CategoryId) (animate : Bool) :
    Displays p.leaveSearch (p.selectCategory id animate) ∨
      ∃ page remembered,
        Displays
          ((p.leaveSearch.entering id page remembered).afterChange p.navigation.cursor.category id)
          (p.selectCategory id animate) := by
  have shown := displays_selectCategory p id animate
  rw [selecting] at shown
  change Displays (followed { p.leaveSearch with
    navigation := (p.navigation.select id animate).2 } _) _ at shown
  rcases p.navigation.select_cases id animate with h | ⟨page, remembered, h⟩
  · rw [h] at shown
    exact Or.inl shown
  · rw [h] at shown
    exact Or.inr ⟨page, remembered, shown⟩

theorem displays_scroll (p : Picker σ) (report : ScrollReport) :
    Displays { p with navigation := (p.navigation.scroll report).2 } (p.scroll report) := by
  rw [scroll]
  rcases p.navigation.scroll_cases report with h | ⟨progress, page, h⟩ <;> simp only [h]
  · exact Displays.refl p
  · exact displays_emit _ trivial

theorem scroll_cases (p : Picker σ) (report : ScrollReport) :
    p.scroll report = p ∨
      ∃ page, Displays
        { p with navigation := { p.navigation with cursor := ⟨p.navigation.cursor.category, page⟩ } }
        (p.scroll report) := by
  rw [scroll]
  rcases p.navigation.scroll_cases report with h | ⟨progress, page, h⟩ <;> simp only [h]
  · exact Or.inl trivial
  · exact Or.inr ⟨page, displays_emit _ trivial⟩

/-! ## Picks -/

/-- A pick is buffered, or counts for nothing, or shows at once. -/
theorem record_cases (p : Picker σ) (key : String) :
    (p.navigation.isInRecents = true ∧
        p.record key =
          { p with
            navigation := p.navigation.withRecents (p.navigation.recents.addPending key) }) ∨
      (p.navigation.isInRecents = false ∧
        ((p.navigation.recents.addFirst key).1 = false ∧ p.record key = p ∨
          (p.navigation.recents.addFirst key).1 = true ∧
            Displays
              { p with
                navigation :=
                  (p.navigation.withRecents (p.navigation.recents.addFirst key).2).invalidate.2
                recentsDirty := true }
              (p.record key))) := by
  rw [record]
  cases current : p.navigation.isInRecents with
  | true =>
      exact Or.inl ⟨rfl, rfl⟩
  | false =>
      refine Or.inr ⟨rfl, ?_⟩
      rcases added : p.navigation.recents.addFirst key with ⟨changed, recents⟩
      cases changed with
      | false =>
          exact Or.inl ⟨rfl, rfl⟩
      | true =>
          refine Or.inr ⟨rfl, ?_⟩
          simp only [Bool.false_eq_true, if_false]
          split
          · exact displays_renderTabs _
          · exact Displays.refl _

/-- The picker after a record, the display aside. -/
def noted (p : Picker σ) (key : String) : Picker σ :=
  if p.navigation.isInRecents then
    { p with navigation := p.navigation.withRecents (p.navigation.recents.addPending key) }
  else if (p.navigation.recents.addFirst key).1 then
    { p with
      navigation := (p.navigation.withRecents (p.navigation.recents.addFirst key).2).invalidate.2
      recentsDirty := true }
  else
    p

theorem displays_record (p : Picker σ) (key : String) : Displays (p.noted key) (p.record key) := by
  rw [noted]
  rcases record_cases p key with ⟨current, same⟩ | ⟨current, ⟨unchanged, same⟩ | ⟨changed, shown⟩⟩
  · rw [same, if_pos current]
    exact Displays.refl _
  · rw [same, current, unchanged]
    exact Displays.refl p
  · rw [current, changed]
    exact shown

/-- A record leaves what is visible, or is followed by a repair. -/
theorem noted_cases (p : Picker σ) (key : String) :
    ∃ recents dirty,
      (recents.visible = p.navigation.recents.visible ∧
          p.noted key =
            { p with navigation := p.navigation.withRecents recents, recentsDirty := dirty }) ∨
        p.noted key =
          { p with
            navigation := (p.navigation.withRecents recents).invalidate.2
            recentsDirty := dirty } := by
  rw [noted]
  split
  · exact ⟨_, _, Or.inl ⟨Recents.addPending_visible _ key, rfl⟩⟩
  · split
    · exact ⟨_, _, Or.inr rfl⟩
    · exact ⟨p.navigation.recents, p.recentsDirty, Or.inl ⟨rfl, rfl⟩⟩

theorem noted_display (p : Picker σ) (key : String) : (p.noted key).display = p.display := by
  rcases p.noted_cases key with ⟨_, _, ⟨_, same⟩ | same⟩ <;> rw [same]

theorem pick_cases (p : Picker σ) (key : String) :
    (p.options.incognito = true ∧ Displays p (p.pick key)) ∨
      (p.options.incognito = false ∧ p.pick key = (p.emit (.commit key)).record key) := by
  rw [pick]
  cases h : p.options.incognito with
  | true =>
      exact Or.inl ⟨rfl, by simpa [emit, h] using p.displays_commit key⟩
  | false =>
      exact Or.inr ⟨rfl, by simp [emit, h]⟩

/-! ## Search -/

theorem enterSearch_cases (p : Picker σ) :
    p.enterSearch = p ∨
      ((p.options.searchTabVisible = true ∧ p.search.active = false) ∧
        Displays { p with search := p.search.enter } p.enterSearch) := by
  rw [enterSearch]
  split
  · next h =>
      simp only [Bool.and_eq_true, Bool.not_eq_true'] at h
      exact Or.inr ⟨h, displays_render _⟩
  · exact Or.inl rfl

theorem exitSearch_cases (p : Picker σ) :
    p.exitSearch = p ∨ Displays p.leaveSearch p.exitSearch := by
  rw [exitSearch]
  split
  · exact Or.inr (displays_render _)
  · exact Or.inl rfl

theorem choose_cases (p : Picker σ) (key : String) :
    p.choose key = p.pick key ∨ Displays (p.pick key).leaveSearch (p.choose key) := by
  rw [choose, SearchSession.choose]
  by_cases ends : ((p.pick key).search.active && (p.pick key).search.exitOnPick) = true
  · have exit : (p.pick key).search.exit = (true, (p.pick key).leaveSearch.search) :=
      Prod.ext (Bool.and_eq_true_iff.1 ends).1 rfl
    simp only [if_pos ends, exit]
    exact Or.inr (displays_render _)
  · simp only [if_neg ends]
    exact Or.inl trivial

theorem query_cases (p : Picker σ) (text : String) :
    (p.search.active = false ∧ p.query text = p) ∨
      (p.search.active = true ∧
        Displays
          { p with
            search := { p.search with
              lastQuery := text
              results := (p.index.search p.navigation p.dictionaries.current? text).1 }
            index := (p.index.search p.navigation p.dictionaries.current? text).2 }
          (p.query text)) := by
  rw [query, SearchSession.query]
  by_cases h : p.search.active = true
  · simp only [if_pos h]
    exact Or.inr ⟨h, displays_renderSearch _⟩
  · simp only [if_neg h]
    exact Or.inl ⟨by simpa using h, trivial⟩

theorem refreshSearch_cases (p : Picker σ) :
    (p.search.active = false ∧ p.refreshSearch = p) ∨
      (p.search.active = true ∧
        Displays
          { p with
            search := { p.search with
              results :=
                (p.index.search p.navigation p.dictionaries.current? p.search.lastQuery).1 }
            index := (p.index.search p.navigation p.dictionaries.current? p.search.lastQuery).2 }
          p.refreshSearch) := by
  rw [refreshSearch, SearchSession.refresh]
  by_cases h : p.search.active = true
  · simp only [if_pos h]
    exact Or.inr ⟨h, displays_renderSearch _⟩
  · simp only [if_neg h]
    exact Or.inl ⟨by simpa using h, trivial⟩

/-! ## Keys -/

/-- Accepted keys count the pages and forget the keys to search. A redirect is followed where pages are
on the screen, and not under a search. -/
theorem displays_setKeys {id : CategoryId} {keys : List String} {navigation : Navigation}
    (accepted : p.navigation.setKeys id keys = .ok navigation) :
    let changed := { p with navigation := navigation.invalidate.2, index := p.index.invalidate }
    ∃ q, p.setKeys id keys = .ok q ∧
      Displays
        (if p.visible && ! p.search.active then changed.followed navigation.invalidate.1 else changed)
        q := by
  intro changed
  rw [setKeys]
  rcases moved : navigation.invalidate with ⟨redirect, repaired⟩
  simp only [accepted, bind, Except.bind, moved]
  split
  · cases redirect with
    | none =>
        exact ⟨_, rfl, by simpa [changed, moved, followed] using displays_render _⟩
    | some change =>
        exact ⟨_, rfl, by simpa [changed, moved, followed] using displays_applyChange _ change⟩
  · exact ⟨_, rfl, by simpa [changed, moved] using Displays.refl _⟩

/-- New keys are refused, or count the pages and forget the keys to search. -/
theorem setKeys_cases (p : Picker σ) (id : CategoryId) (keys : List String) :
    (∃ failure, p.setKeys id keys = .error failure) ∨
      ∃ navigation q, p.navigation.setKeys id keys = .ok navigation ∧ p.setKeys id keys = .ok q ∧
        let changed := { p with
          navigation := navigation.invalidate.2, index := p.index.invalidate }
        (Displays changed q ∨
          (p.search.active = false ∧
            ∃ previous current, Displays (changed.afterChange previous current) q)) := by
  cases accepted : p.navigation.setKeys id keys with
  | error failure =>
      exact Or.inl ⟨failure, by simp [setKeys, accepted, bind, Except.bind]⟩
  | ok navigation =>
      rcases displays_setKeys accepted with ⟨q, same, shown⟩
      refine Or.inr ⟨navigation, q, rfl, same, ?_⟩
      split at shown
      · next onScreen =>
          have off : p.search.active = false := by
            simp only [Bool.and_eq_true, Bool.not_eq_true'] at onScreen
            exact onScreen.2
          cases redirect : navigation.invalidate.1 with
          | none =>
              rw [redirect] at shown
              exact Or.inl shown
          | some change =>
              rw [redirect] at shown
              exact Or.inr ⟨off, change.previous, change.current, shown⟩
      · exact Or.inl shown

/-! ## Locale and downloads -/

theorem displays_requestDownload (p : Picker σ) : Displays p p.requestDownload.2 := by
  rw [requestDownload]
  split
  · exact displays_emit p trivial
  · exact displays_emit p trivial

variable [DictionaryStore σ]

theorem displays_start (p : Picker σ) (locale : String) :
    Displays (selecting { p.useLocale locale with visible := true } p.navigation.cursor.category false)
      (p.start locale) :=
  displays_render _

theorem start_cases (p : Picker σ) (locale : String) :
    Displays { p.useLocale locale with visible := true } (p.start locale) ∨
      ∃ page remembered,
        Displays
          (entering { p.useLocale locale with visible := true }
            p.navigation.cursor.category page remembered)
          (p.start locale) := by
  have shown := displays_start p locale
  -- The locale is used before the current category is selected, but a selection does not read it.
  rw [selecting] at shown
  change Displays { p.useLocale locale with
    visible := true
    navigation := (p.navigation.select p.navigation.cursor.category false).2 } _ at shown
  rcases p.navigation.select_cases p.navigation.cursor.category false with
    h | ⟨page, remembered, h⟩
  · rw [h] at shown
    exact Or.inl shown
  · rw [h] at shown
    exact Or.inr ⟨page, remembered, shown⟩

/-- Only an installed download makes the search begin anew. -/
theorem completeDownload_cases (p : Picker σ) (outcome : DownloadOutcome) :
    Displays p (p.completeDownload outcome) ∨
      ∃ bytes, outcome.result = .ok bytes ∧
        let installed := p.dictionaries.install bytes outcome.locale
        (∃ path shown, installed.1 = .ok (.installed path) ∧
            Displays { p with dictionaries := installed.2 } shown ∧
            p.completeDownload outcome = shown.refreshSearch) ∨
          ((∀ path, installed.1 ≠ .ok (.installed path)) ∧
            Displays { p with dictionaries := installed.2 } (p.completeDownload outcome)) := by
  rw [completeDownload]
  cases result : outcome.result with
  | error reason =>
      refine Or.inl ?_
      dsimp only
      split
      · exact displays_emit p trivial
      · exact Displays.refl p
  | ok bytes =>
      refine Or.inr ⟨bytes, rfl, ?_⟩
      dsimp only
      rcases installed : p.dictionaries.install bytes outcome.locale with ⟨answer, dictionaries⟩
      rcases answer with failure | path | active
      · exact Or.inr ⟨by simp, displays_emit _ trivial⟩
      · let published : Picker σ := { p with dictionaries := dictionaries }
        have noticed : Displays published
            (published.notify (.dictionaryInstalled (Locale.normalize outcome.locale))) :=
          displays_emit _ trivial
        exact Or.inl ⟨path, _, rfl, noticed, rfl⟩
      · exact Or.inr ⟨by simp, Displays.refl _⟩

end Picker
end EmojiPicker

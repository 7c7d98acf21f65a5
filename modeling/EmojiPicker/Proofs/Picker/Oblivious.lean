import EmojiPicker.Proofs.Picker.Display
import EmojiPicker.Session

/-!
# What was displayed does not matter

The picker adds to its display and never reads it.

* `Picker.above` — a picker with an older display under its own;
* `Picker.Oblivious` — a change that an older display passes through unseen;
* `Picker.oblivious_pick`, `Picker.oblivious_selectCategory` and so on — the events of the picker;
* `Picker.oblivious_applyTo` — every command.

Two pickers that differ in their displays alone therefore stay so, and display the same from then on.
-/

namespace EmojiPicker
namespace Picker

variable {σ : Type}

/-- A picker with an older display under its own. -/
def above (p : Picker σ) (older : List ViewEvent) : Picker σ :=
  { p with display := p.display ++ older }

/-- A change that does not read the display, and only adds to it. -/
def Oblivious (change : Picker σ → Picker σ) : Prop :=
  ∀ p older, change (p.above older) = (change p).above older

namespace Oblivious

variable {first second : Picker σ → Picker σ}

theorem comp (later : Oblivious second) (sooner : Oblivious first) :
    Oblivious fun p => second (first p) := by
  intro p older
  calc second (first (p.above older))
      = second ((first p).above older) := by rw [sooner]
    _ = (second (first p)).above older := later _ older

/-- A choice between two changes, by a test that does not read the display either. -/
theorem ite (test : Picker σ → Bool) (blind : ∀ p older, test (p.above older) = test p)
    (yes : Oblivious first) (no : Oblivious second) :
    Oblivious fun p => if test p then first p else second p := by
  intro p older
  dsimp only
  rw [blind]
  split
  · exact yes p older
  · exact no p older

end Oblivious

theorem oblivious_id : Oblivious fun p : Picker σ => p :=
  fun _ _ => rfl

/-! ## The display -/

theorem oblivious_emit (event : ViewEvent) : Oblivious fun p : Picker σ => p.emit event :=
  fun _ _ => rfl

theorem oblivious_renderTabs : Oblivious fun p : Picker σ => p.renderTabs :=
  fun _ _ => rfl

theorem oblivious_renderPage (animate : Bool) : Oblivious fun p : Picker σ => p.renderPage animate :=
  fun _ _ => rfl

theorem oblivious_renderSearch : Oblivious fun p : Picker σ => p.renderSearch :=
  fun _ _ => rfl

theorem oblivious_render : Oblivious fun p : Picker σ => p.render := by
  have drawn : Oblivious fun p : Picker σ =>
      if p.search.active then p.renderSearch else p.renderPage false :=
    .ite (·.search.active) (fun _ _ => rfl) oblivious_renderSearch (oblivious_renderPage false)
  exact drawn.comp oblivious_renderTabs

theorem oblivious_renderChange (change : CategoryChange) :
    Oblivious fun p : Picker σ => p.renderChange change :=
  (oblivious_renderPage change.animate).comp oblivious_renderTabs

/-! ## Navigation -/

theorem oblivious_leaveSearch : Oblivious fun p : Picker σ => p.leaveSearch :=
  fun _ _ => rfl

theorem oblivious_flushRecents : Oblivious fun p : Picker σ => p.flushRecents := by
  intro p older
  have settled : (p.above older).settle = (p.settle.1, p.settle.2.above older) := rfl
  simp only [flushRecents, settled]
  rcases p.settle with ⟨_ | change, q⟩
  · rfl
  · exact Oblivious.ite (fun p => p.visible && ! p.search.active) (fun _ _ => rfl)
      (oblivious_renderChange change) oblivious_id q older

theorem oblivious_hide : Oblivious fun p : Picker σ => p.hide := by
  have hidden : Oblivious fun p : Picker σ => { p.leaveSearch with visible := false } :=
    fun _ _ => rfl
  exact oblivious_flushRecents.comp hidden

theorem oblivious_applyChange (change : CategoryChange) :
    Oblivious fun p : Picker σ => p.applyChange change :=
  (oblivious_renderChange change).comp
    (.ite (fun _ => change.previous.isRecents && ! change.current.isRecents) (fun _ _ => rfl)
      oblivious_flushRecents oblivious_id)

theorem oblivious_selectCategory (id : CategoryId) (animate : Bool) :
    Oblivious fun p : Picker σ => p.selectCategory id animate := by
  intro p older
  have moved : (p.above older).leaveSearch.navigation = p.leaveSearch.navigation := rfl
  simp only [selectCategory]
  rw [moved]
  rcases p.leaveSearch.navigation.select id animate with ⟨_ | change, navigation⟩
  · -- Whether the search was on is read before it is left.
    exact Oblivious.ite (fun _ => p.search.active) (fun _ _ => rfl) oblivious_render oblivious_id
      p.leaveSearch older
  · exact oblivious_applyChange change { p.leaveSearch with navigation := navigation } older

theorem oblivious_enterSearch : Oblivious fun p : Picker σ => p.enterSearch := by
  have entered : Oblivious fun p : Picker σ => render { p with search := p.search.enter } :=
    oblivious_render.comp fun _ _ => rfl
  exact .ite (fun p => p.options.searchTabVisible && ! p.search.active) (fun _ _ => rfl) entered
    oblivious_id

theorem oblivious_clickTab (tab : Tab) : Oblivious fun p : Picker σ => p.clickTab tab := by
  cases tab with
  | search => exact oblivious_enterSearch
  | category id =>
      -- The argument is read off the picker, so that this is no instance of the selection as it stands.
      intro p older
      exact oblivious_selectCategory id p.options.animations p older

theorem oblivious_swipe (position : Nat) : Oblivious fun p : Picker σ => p.swipe position := by
  intro p older
  have there : (p.above older).navigation = p.navigation := rfl
  simp only [swipe, there]
  split
  · exact oblivious_selectCategory _ false p older
  · rfl

theorem oblivious_scroll (report : ScrollReport) : Oblivious fun p : Picker σ => p.scroll report := by
  intro p older
  have there : (p.above older).navigation = p.navigation := rfl
  simp only [scroll, there]
  rcases p.navigation.scroll report with ⟨_ | progress, navigation⟩
  · rfl
  · rfl

theorem oblivious_leave (id : CategoryId) : Oblivious fun p : Picker σ => p.leave id :=
  .ite (fun _ => id.isRecents) (fun _ _ => rfl) oblivious_flushRecents oblivious_id

/-! ## Picks and search -/

theorem oblivious_record (key : String) : Oblivious fun p : Picker σ => p.record key := by
  intro p older
  have there : (p.above older).navigation = p.navigation := rfl
  simp only [record, there]
  split
  · rfl
  rcases p.navigation.recents.addFirst key with ⟨_ | _, recents⟩
  · rfl
  · -- The tabs are compared with those before the pick.
    let noted : Picker σ := { p with
      navigation := (p.navigation.withRecents recents).invalidate.2, recentsDirty := true }
    exact Oblivious.ite (fun q => q.visible && ! q.search.active && p.tabs != q.tabs)
      (fun _ _ => rfl) oblivious_renderTabs oblivious_id noted older

theorem oblivious_pick (key : String) : Oblivious fun p : Picker σ => p.pick key := by
  have recorded : Oblivious fun p : Picker σ => if p.options.incognito then p else p.record key :=
    .ite (·.options.incognito) (fun _ _ => rfl) oblivious_id (oblivious_record key)
  exact recorded.comp (oblivious_emit (.commit key))

/-- What follows a chosen result: the search may end. -/
def endChoice (p : Picker σ) : Picker σ :=
  match p.search.choose with
  | (true, search) => { p with search := search }.render
  | (false, _) => p

theorem choose_eq (p : Picker σ) (key : String) : p.choose key = (p.pick key).endChoice := rfl

theorem oblivious_endChoice : Oblivious fun p : Picker σ => p.endChoice := by
  intro p older
  have there : (p.above older).search = p.search := rfl
  simp only [endChoice, there]
  rcases p.search.choose with ⟨_ | _, search⟩
  · rfl
  · exact oblivious_render { p with search := search } older

theorem oblivious_choose (key : String) : Oblivious fun p : Picker σ => p.choose key :=
  oblivious_endChoice.comp (oblivious_pick key)

theorem oblivious_exitSearch : Oblivious fun p : Picker σ => p.exitSearch :=
  .ite (·.search.active) (fun _ _ => rfl) (oblivious_render.comp oblivious_leaveSearch) oblivious_id

theorem oblivious_query (text : String) : Oblivious fun p : Picker σ => p.query text := by
  intro p older
  have found : (p.above older).search.query (p.above older).index (p.above older).navigation
      (p.above older).dictionaries.current? text =
        p.search.query p.index p.navigation p.dictionaries.current? text := rfl
  simp only [query, found]
  rcases p.search.query p.index p.navigation p.dictionaries.current? text with ⟨_ | _, search, index⟩
  · rfl
  · rfl

theorem oblivious_refreshSearch : Oblivious fun p : Picker σ => p.refreshSearch := by
  have repeated : Oblivious fun p : Picker σ =>
      let found := p.search.refresh p.index p.navigation p.dictionaries.current?
      { p with search := found.1, index := found.2 }.renderSearch :=
    fun _ _ => rfl
  exact .ite (·.search.active) (fun _ _ => rfl) repeated oblivious_id

/-! ## Dictionaries -/

theorem oblivious_requestDownload (p : Picker σ) (older : List ViewEvent) :
    (p.above older).requestDownload = (p.requestDownload.1, p.requestDownload.2.above older) := by
  have there : (p.above older).options = p.options := rfl
  rw [requestDownload, requestDownload, there]
  cases p.options.dictionaryAddress with
  | none => rfl
  | some base => rfl

theorem oblivious_clearCache : Oblivious fun p : Picker σ => p.clearCache := by
  have closed : Oblivious fun p : Picker σ =>
      { p with dictionaries := p.dictionaries.close, index := p.index.invalidate } :=
    fun _ _ => rfl
  exact oblivious_refreshSearch.comp closed

variable [DictionaryStore σ]

theorem oblivious_useLocale (locale : String) : Oblivious fun p : Picker σ => p.useLocale locale :=
  fun _ _ => rfl

theorem oblivious_start (locale : String) : Oblivious fun p : Picker σ => p.start locale := by
  have selected : Oblivious fun p : Picker σ =>
      selecting { p.useLocale locale with visible := true } p.navigation.cursor.category false :=
    fun _ _ => rfl
  exact oblivious_render.comp selected

theorem oblivious_changeLocale (locale : String) :
    Oblivious fun p : Picker σ => p.changeLocale locale :=
  oblivious_refreshSearch.comp (oblivious_useLocale locale)

theorem oblivious_completeDownload (outcome : DownloadOutcome) :
    Oblivious fun p : Picker σ => p.completeDownload outcome := by
  intro p older
  have there : (p.above older).dictionaries = p.dictionaries := rfl
  simp only [completeDownload, there]
  cases outcome.result with
  | error reason =>
      exact Oblivious.ite (Locale.normalize outcome.locale == ·.locale) (fun _ _ => rfl)
        (oblivious_emit _) oblivious_id p older
  | ok bytes =>
      dsimp only
      rcases p.dictionaries.install bytes outcome.locale with
        ⟨failure | path | active, dictionaries⟩
      · rfl
      · exact oblivious_refreshSearch.comp (oblivious_emit _)
          { p with dictionaries := dictionaries } older
      · rfl

/-! ## Commands -/

theorem oblivious_applyTo (command : SessionCommand) :
    Oblivious fun p : Picker σ => Session.applyTo p command := by
  cases command with
  | nothing => exact oblivious_id
  | help => exact oblivious_emit _
  | tab tab => exact oblivious_clickTab tab
  | swipe position => exact oblivious_swipe position
  | scroll offset extent range firstFull firstPartial category =>
      intro p older
      exact oblivious_scroll _ p older
  | leave category => exact oblivious_leave category
  | pick key => exact oblivious_pick key
  | query text => exact oblivious_query text
  | choose key => exact oblivious_choose key
  | close => exact oblivious_exitSearch
  | locale locale => exact oblivious_changeLocale locale
  | download => exact oblivious_id
  | clearCache => exact oblivious_clearCache
  | incognito on => exact fun _ _ => rfl
  | hide => exact oblivious_hide
  | reveal =>
      intro p older
      exact oblivious_start p.locale p older
  | quit => exact oblivious_id

end Picker
end EmojiPicker

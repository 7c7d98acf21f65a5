import EmojiPicker.Proofs.Navigation.Tabs
import EmojiPicker.Proofs.Picker.Paging

/-!
# The tab strip on the screen

Every event decides for itself what to display anew. What it leaves on the screen is what the picker
has.

* `ViewEvent.lastStrip?`, `ViewEvent.lastPage?` — what is on the screen;
* `Picker.Anchored` — what holds at every moment, over a catalog with keys: each strip contains the tab
  that it marks;
* `Picker.UpToDate` — between events the last strip is that of the picker, and the last page is of its
  category;
* `Picker.Anchored.settle_still` — buffered picks show without a redirect, under the same tabs;
* `Picker.UpToDate.feed` — every input.

A render settles everything, whatever was on the screen. The events that need care are those that
display less: a flush, and a pick, which may show the recently used emoji for the first time.
-/

namespace EmojiPicker

/-! ## The screen -/

namespace ViewEvent

/-- The tab strip on the screen with the tab that it marks; the latest event comes first. -/
def lastStrip? (display : List ViewEvent) : Option (List Tab × Tab) :=
  display.findSome? fun
    | .tabs all current => some (all, current)
    | _ => none

/-- The category of the page on the screen. -/
def lastPage? (display : List ViewEvent) : Option CategoryId :=
  display.findSome? fun
    | .page category _ _ _ => some category
    | _ => none

variable {display : List ViewEvent}

theorem mem_of_lastStrip? {all : List Tab} {current : Tab}
    (found : lastStrip? display = some (all, current)) : .tabs all current ∈ display := by
  rcases List.exists_of_findSome?_eq_some found with ⟨event, there, same⟩
  cases event with
  | tabs => simp_all
  | _ => exact absurd same (by simp)

theorem mem_of_lastPage? {category : CategoryId} (found : lastPage? display = some category) :
    ∃ page keys animate, .page category page keys animate ∈ display := by
  rcases List.exists_of_findSome?_eq_some found with ⟨event, there, same⟩
  cases event with
  | page => exact ⟨_, _, _, by simpa [← Option.some.inj same] using there⟩
  | _ => exact absurd same (by simp)

end ViewEvent

namespace Picker

variable {σ : Type} {p q : Picker σ}

/-! ## Marked tabs -/

/-- What holds at every moment, over a catalog with keys. -/
structure Anchored (p : Picker σ) : Prop where
  paged : p.Paged
  stocked : p.navigation.Stocked
  offered : p.search.active = true → p.options.searchTabVisible = true
  /-- Every strip on the display contains the tab that it marks. -/
  marked : ∀ tabs current, .tabs tabs current ∈ p.display → current ∈ tabs

theorem Anchored.offers_cursor (anchored : p.Anchored) :
    p.navigation.offers p.navigation.cursor.category = true :=
  anchored.paged.placed.offers_cursor anchored.paged.fresh anchored.stocked

theorem Anchored.currentTab_mem (anchored : p.Anchored) : p.currentTab ∈ p.tabs := by
  rw [currentTab]
  split
  · next active =>
      -- The search has a tab of its own, before the categories.
      rw [tabs, Navigation.tabs_eq, anchored.offered active]
      exact List.mem_cons_self
  · exact anchored.paged.fresh.category_mem_tabs anchored.paged.placed.known anchored.offers_cursor _

theorem Anchored.displays (anchored : p.Anchored) (shown : Displays p q) : q.Anchored := by
  have paged := anchored.paged.displays shown
  rcases shown with ⟨events, rfl, shows⟩
  refine ⟨paged, anchored.stocked, anchored.offered, ?_⟩
  intro tabs current found
  rcases List.mem_append.1 found with new | old
  · -- A new strip is that of the picker.
    rcases shows _ new with ⟨rfl, rfl⟩
    exact anchored.currentTab_mem
  · exact anchored.marked tabs current old

section Steps

variable [DictionaryStore σ] {recording : Bool}

/-- Without new keys the categories keep theirs. -/
theorem Step.same_catalog (step : Step recording false p q) :
    q.navigation.ids = p.navigation.ids ∧ q.navigation.keys = p.navigation.keys :=
  step.catalog_cases.resolve_right (by simp)

/-- Search mode is on only where there is a tab for it. -/
theorem Step.offered {rekeying : Bool} (step : Step recording rekeying p q)
    (offered : p.search.active = true → p.options.searchTabVisible = true) :
    q.search.active = true → q.options.searchTabVisible = true := by
  cases step with
  | displayed shown =>
      rcases shown with ⟨events, rfl, _⟩
      exact offered
  | searched search index begun => exact fun active => (begun active).elim offered id
  | recorded key =>
      rcases p.noted_cases key with ⟨_, _, ⟨_, same⟩ | same⟩
      · rw [same]
        exact offered
      · rw [same]
        exact offered
  | _ => exact offered

theorem Anchored.step (anchored : p.Anchored) (step : Step recording false p q) : q.Anchored where
  paged := anchored.paged.step step
  stocked := anchored.stocked.congr step.same_catalog.1 step.same_catalog.2
  offered := step.offered anchored.offered
  marked := by
    rcases step.display_cases with shown | same
    · exact (anchored.displays shown).marked
    · rw [same]
      exact anchored.marked

theorem Anchored.steps (anchored : p.Anchored) (steps : Steps recording false p q) : q.Anchored := by
  induction steps with
  | refl => exact anchored
  | tail _ step ih => exact ih.step step

end Steps

/-! ## Renders -/

/-- On the screen are the tabs of the picker, with its category marked, and a page of that category. -/
def UpToDate (p : Picker σ) : Prop :=
  p.visible = true → p.search.active = false →
    ViewEvent.lastStrip? p.display = some (p.tabs, .category p.navigation.cursor.category) ∧
      ViewEvent.lastPage? p.display = some p.navigation.cursor.category

theorem currentTab_of_inactive (inactive : p.search.active = false) :
    p.currentTab = .category p.navigation.cursor.category := by
  rw [currentTab, inactive]
  rfl

theorem upToDate_renderChange (p : Picker σ) (change : CategoryChange) :
    (p.renderChange change).UpToDate := by
  intro _ inactive
  have strip : ViewEvent.lastStrip? (p.renderChange change).display = some (p.tabs, p.currentTab) := rfl
  have inactive : p.search.active = false := inactive
  rw [strip, currentTab_of_inactive inactive]
  exact ⟨rfl, rfl⟩

theorem upToDate_render (p : Picker σ) : p.render.UpToDate := by
  rw [render]
  split
  · next active =>
      intro _ inactive
      exact absurd (active.symm.trans inactive) (by simp)
  · next inactive =>
      -- The page is displayed as after a change of category that changed nothing.
      let still : CategoryChange :=
        ⟨p.navigation.cursor.category, p.navigation.cursor.category, false, false⟩
      exact p.upToDate_renderChange still

theorem upToDate_of_active (active : p.search.active = true) : p.UpToDate := by
  intro _ inactive
  exact absurd (active.symm.trans inactive) (by simp)

theorem upToDate_of_hidden (hidden : p.visible = false) : p.UpToDate := by
  intro visible
  exact absurd (hidden.symm.trans visible) (by simp)

/-- Only the screen, the tabs and the current category matter, while the picker shows its pages. -/
theorem UpToDate.congr (upToDate : p.UpToDate) (visible : q.visible = true → p.visible = true)
    (search : q.search.active = false → p.search.active = false) (tabs : q.tabs = p.tabs)
    (category : q.navigation.cursor.category = p.navigation.cursor.category)
    (strip : ViewEvent.lastStrip? q.display = ViewEvent.lastStrip? p.display)
    (page : ViewEvent.lastPage? q.display = ViewEvent.lastPage? p.display) : q.UpToDate := by
  intro seen inactive
  rw [tabs, category, strip, page]
  exact upToDate (visible seen) (search inactive)

/-- A picker that displays more of itself as it is stays on the screen as it is. -/
theorem UpToDate.displays (upToDate : p.UpToDate) (shown : Displays p q) : q.UpToDate := by
  rcases shown with ⟨events, rfl, shows⟩
  intro seen inactive
  rcases upToDate seen inactive with ⟨strip, page⟩
  have marked : p.currentTab = .category p.navigation.cursor.category :=
    currentTab_of_inactive inactive
  -- The latest strip and the latest page are new ones, which show the picker, or the old ones.
  constructor
  · change (events ++ p.display).findSome? _ =
      some (p.tabs, Tab.category p.navigation.cursor.category)
    rw [List.findSome?_append, Option.or_eq_some_iff]
    cases new : ViewEvent.lastStrip? events with
    | none => exact Or.inr ⟨new, strip⟩
    | some latest =>
        rcases shows _ (ViewEvent.mem_of_lastStrip? new) with ⟨tabs, current⟩
        refine Or.inl (new.trans (congrArg some ?_))
        exact Prod.ext tabs (current.trans marked)
  · change (events ++ p.display).findSome? _ = some p.navigation.cursor.category
    rw [List.findSome?_append, Option.or_eq_some_iff]
    cases new : ViewEvent.lastPage? events with
    | none => exact Or.inr ⟨new, page⟩
    | some latest =>
        rcases ViewEvent.mem_of_lastPage? new with ⟨number, keys, animate, there⟩
        have cursor := (shows _ there).1
        exact Or.inl (new.trans (congrArg some (congrArg Cursor.category cursor).symm))

/-! ## Buffered picks -/

/-- Buffered picks show without a redirect and under the same tabs: they are buffered only where the
recently used emoji are shown already. -/
theorem Anchored.settle_still (anchored : p.Anchored)
    (waiting : p.navigation.recents.pending = [] ∨ p.navigation.isInRecents = true) :
    p.settle.1 = none ∧ p.settle.2.tabs = p.tabs ∧
      p.settle.2.navigation.cursor.category = p.navigation.cursor.category := by
  -- The cursor is on a shown category, and what is visible does not vanish.
  let flushed := p.applyPending.navigation
  have kept : p.navigation.recents.visible ≠ [] → flushed.recents.visible ≠ [] :=
    Recents.flushPending_visible_ne_nil
  have offered : flushed.offers flushed.cursor.category = true :=
    Navigation.offers_withRecents anchored.offers_cursor kept
  have repaired := Navigation.invalidate_of_offers (n := flushed) anchored.paged.placed.known offered
  have same : ∀ id ∈ p.navigation.ids, flushed.offers id = p.navigation.offers id := by
    intro id _
    cases other : id.isRecents with
    | false => exact Navigation.offers_congr rfl other
    | true =>
        rcases waiting with empty | current
        · have keys : flushed.keysOf id = p.navigation.keysOf id := by
            rw [Navigation.keysOf, Navigation.keysOf, other]
            exact Recents.flushed_of_pending_nil empty
          rw [Navigation.offers, keys]
          rfl
        · -- Both are the category of the cursor, which is shown before and after.
          have here : id = p.navigation.cursor.category := by
            rw [eq_of_beq other]
            exact (eq_of_beq current).symm
          rw [here, anchored.offers_cursor]
          exact offered
  have repairs := Navigation.sameKeys_invalidate flushed
  refine ⟨congrArg Prod.fst repaired, ?_, ?_⟩
  · exact anchored.paged.fresh.tabs_congr (Navigation.fresh_invalidate flushed) repairs.ids
      (fun id known => (repairs.offers id).trans (same id known)) _
  · exact congrArg (fun repair => repair.2.cursor.category) repaired

theorem UpToDate.flushRecents (upToDate : p.UpToDate) (anchored : p.Anchored)
    (waiting : p.navigation.recents.pending = [] ∨ p.navigation.isInRecents = true) :
    p.flushRecents.UpToDate := by
  rcases anchored.settle_still waiting with ⟨stays, tabs, category⟩
  have same : p.flushRecents = p.settle.2 := by
    rw [Picker.flushRecents]
    rcases settled : p.settle with ⟨redirect, q⟩
    rw [settled] at stays
    obtain rfl : redirect = none := stays
    rfl
  rw [same]
  exact upToDate.congr id id tabs category rfl rfl

/-! ## Picks -/

/-- Where a pick shows at once, the page on the screen is of another category. -/
theorem UpToDate.record (upToDate : p.UpToDate) (anchored : p.Anchored) (key : String) :
    (p.record key).UpToDate := by
  rw [Picker.record]
  split
  · -- buffered, so that nothing shows
    exact upToDate.congr id id rfl rfl rfl rfl
  next elsewhere =>
  rcases p.navigation.recents.addFirst key with ⟨_ | _, recents⟩
  · exact upToDate
  -- The category of the cursor keeps its keys, so that the repair leaves the cursor there.
  let added := p.navigation.withRecents recents
  have other : p.navigation.cursor.category.isRecents = false := by
    simpa [Navigation.isInRecents] using elsewhere
  have same : added.offers added.cursor.category = p.navigation.offers p.navigation.cursor.category :=
    Navigation.offers_congr rfl other
  have repaired := Navigation.invalidate_of_offers (n := added) anchored.paged.placed.known
    (same.trans anchored.offers_cursor)
  have category : added.invalidate.2.cursor.category = p.navigation.cursor.category :=
    congrArg (fun repair => repair.2.cursor.category) repaired
  let q : Picker σ := { p with navigation := added.invalidate.2, recentsDirty := true }
  change UpToDate (if q.visible && ! q.search.active && p.tabs != q.tabs then q.renderTabs else q)
  split
  · -- The tabs are displayed anew, above the page that was there.
    intro seen inactive
    have inactive : q.search.active = false := inactive
    have strip : ViewEvent.lastStrip? q.renderTabs.display = some (q.tabs, q.currentTab) := rfl
    rw [strip, currentTab_of_inactive inactive]
    have page := (upToDate seen inactive).2
    exact ⟨rfl, page.trans (congrArg some category.symm)⟩
  · next unchanged =>
      -- They are not where nothing is displayed anyway, or where they are the same.
      intro seen inactive
      have tabs : p.tabs = q.tabs := by simpa [seen, inactive] using unchanged
      exact upToDate.congr id id tabs.symm category rfl rfl seen inactive

theorem UpToDate.pick (upToDate : p.UpToDate) (anchored : p.Anchored) (key : String) :
    (p.pick key).UpToDate := by
  have committed : UpToDate (p.emit (.commit key)) := upToDate.displays (p.displays_commit key)
  rw [Picker.pick]
  split
  · exact committed
  · exact committed.record (anchored.displays (p.displays_commit key)) key

theorem UpToDate.choose (upToDate : p.UpToDate) (anchored : p.Anchored) (key : String) :
    (p.choose key).UpToDate := by
  rw [Picker.choose]
  split
  · exact upToDate_render _
  · exact upToDate.pick anchored key

/-! ## Navigation -/

theorem UpToDate.selectCategory (upToDate : p.UpToDate) (id : CategoryId) (animate : Bool) :
    (p.selectCategory id animate).UpToDate := by
  rw [Picker.selectCategory]
  split
  · exact upToDate_renderChange _ _
  · split
    · exact upToDate_render _
    · next searching =>
        exact upToDate.congr (fun seen => seen) (fun _ => by simpa using searching) rfl rfl rfl rfl

theorem UpToDate.enterSearch (upToDate : p.UpToDate) : p.enterSearch.UpToDate := by
  rw [Picker.enterSearch]
  split
  · exact upToDate_render _
  · exact upToDate

theorem UpToDate.exitSearch (upToDate : p.UpToDate) : p.exitSearch.UpToDate := by
  rw [Picker.exitSearch]
  split
  · exact upToDate_render _
  · exact upToDate

theorem UpToDate.clickTab (upToDate : p.UpToDate) (tab : Tab) : (p.clickTab tab).UpToDate := by
  cases tab with
  | search => exact upToDate.enterSearch
  | category id => exact upToDate.selectCategory id _

theorem UpToDate.swipe (upToDate : p.UpToDate) (position : Nat) : (p.swipe position).UpToDate := by
  rw [Picker.swipe]
  split
  · exact upToDate.selectCategory _ _
  · exact upToDate

theorem UpToDate.scroll (upToDate : p.UpToDate) (report : ScrollReport) :
    (p.scroll report).UpToDate := by
  rw [Picker.scroll]
  rcases p.navigation.scroll_cases report with h | ⟨progress, page, h⟩
  · simp only [h]
    exact upToDate
  · simp only [h]
    exact upToDate.congr id id rfl rfl rfl rfl

theorem UpToDate.leave (upToDate : p.UpToDate) (anchored : p.Anchored)
    (waiting : p.navigation.recents.pending = [] ∨ p.navigation.isInRecents = true)
    (id : CategoryId) : (p.leave id).UpToDate := by
  rw [Picker.leave]
  split
  · exact upToDate.flushRecents anchored waiting
  · exact upToDate

/-! ## Search and dictionaries -/

theorem UpToDate.query (upToDate : p.UpToDate) (text : String) : (p.query text).UpToDate := by
  rcases query_cases p text with ⟨_, same⟩ | ⟨active, events, same, _⟩
  · rw [same]
    exact upToDate
  · rw [same]
    exact upToDate_of_active active

theorem UpToDate.refreshSearch (upToDate : p.UpToDate) : p.refreshSearch.UpToDate := by
  rcases refreshSearch_cases p with ⟨_, same⟩ | ⟨active, events, same, _⟩
  · rw [same]
    exact upToDate
  · rw [same]
    exact upToDate_of_active active

section Locale

variable [DictionaryStore σ]

theorem UpToDate.completeDownload (upToDate : p.UpToDate) (outcome : DownloadOutcome) :
    (p.completeDownload outcome).UpToDate := by
  rcases completeDownload_cases p outcome with
    shown | ⟨bytes, _, ⟨path, noticing, _, noticed, same⟩ | ⟨_, shown⟩⟩
  · exact upToDate.displays shown
  · rw [same]
    have published : noticing.UpToDate := by
      refine UpToDate.displays ?_ noticed
      exact upToDate.congr id id rfl rfl rfl rfl
    exact published.refreshSearch
  · refine UpToDate.displays ?_ shown
    exact upToDate.congr id id rfl rfl rfl rfl

/-! ## Inputs -/

theorem UpToDate.feed (upToDate : p.UpToDate) (anchored : p.Anchored)
    (waiting : p.navigation.recents.pending = [] ∨ p.navigation.isInRecents = true)
    (input : PickerInput) : (p.feed input).UpToDate := by
  cases input with
  | completed outcome => exact upToDate.completeDownload outcome
  | command command =>
      cases command with
      | nothing => exact upToDate
      | help => exact upToDate.displays (displays_emit p trivial)
      | tab tab => exact upToDate.clickTab tab
      | swipe position => exact upToDate.swipe position
      | scroll offset extent range firstFull firstPartial category => exact upToDate.scroll _
      | leave category => exact upToDate.leave anchored waiting category
      | pick key => exact upToDate.pick anchored key
      | query text => exact upToDate.query text
      | choose key => exact upToDate.choose anchored key
      | close => exact upToDate.exitSearch
      | locale locale => exact UpToDate.refreshSearch (upToDate.congr id id rfl rfl rfl rfl)
      | download => exact upToDate.displays (displays_requestDownload p)
      | clearCache => exact UpToDate.refreshSearch (upToDate.congr id id rfl rfl rfl rfl)
      | incognito on => exact upToDate.congr id id rfl rfl rfl rfl
      | hide => exact upToDate_of_hidden p.hide_visible
      | reveal => exact upToDate_render _
      | quit => exact upToDate_of_hidden p.hide_visible

end Locale

end Picker
end EmojiPicker

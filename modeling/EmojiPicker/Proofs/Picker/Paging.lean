import EmojiPicker.Proofs.Navigation.Pages
import EmojiPicker.Proofs.Picker.Steps
import Mathlib.Algebra.Order.Floor.Div
import Mathlib.Data.List.Induction

/-!
# Pages on the display

A picker never displays an empty page of a category that has keys.

* `Picker.Paged` — the counts of pages are those of the keys, and the cursor is on a page;
* `Picker.Paged.step`, `Picker.Paged.steps` — elementary changes keep it;
* `Picker.Paints`, `Picker.paints_react` — the pages that an event displays agree with the keys after it;
* `Picker.pages_filled` — every run.

Keys change in one elementary change with the repair that follows, so that `Paged` holds at every moment
of an event at which something is displayed, and not between events only. Pages are displayed when all
keys have changed.
-/

namespace EmojiPicker
namespace Picker

variable {σ : Type} {p q r : Picker σ}

/-! ## Counts and cursor -/

structure Paged (p : Picker σ) : Prop where
  placed : p.navigation.Placed
  fresh : p.navigation.Fresh

theorem Paged.displays (paged : p.Paged) (shown : Displays p q) : q.Paged := by
  rcases shown with ⟨events, rfl, _⟩
  exact ⟨paged.placed, paged.fresh⟩

theorem Paged.settle (paged : p.Paged) : p.settle.2.Paged := by
  have flushed := paged.placed.withRecents p.navigation.recents.flushPending.2
  exact ⟨Navigation.invalidate_placed flushed.ordered flushed.known, Navigation.fresh_invalidate _⟩

theorem Paged.noted (paged : p.Paged) (key : String) : (p.noted key).Paged := by
  rcases p.noted_cases key with ⟨recents, _, ⟨visible, same⟩ | same⟩
  · rw [same]
    exact ⟨paged.placed.withRecents recents, paged.fresh.withRecents visible⟩
  · rw [same]
    have added := paged.placed.withRecents recents
    exact ⟨Navigation.invalidate_placed added.ordered added.known, Navigation.fresh_invalidate _⟩

theorem paged_new (catalog : Catalog) (recents : Recents) (options : PageOptions) (store : σ)
    (switches : PickerOptions) :
    (new (Navigation.ofCatalog catalog recents options) store switches).Paged :=
  ⟨Navigation.placed_ofCatalog catalog recents options,
    Navigation.fresh_ofCatalog catalog recents options⟩

section Steps

variable [DictionaryStore σ] {recording rekeying : Bool}

theorem Paged.step (paged : p.Paged) (step : Step recording rekeying p q) : q.Paged := by
  have same : ∀ {q : Picker σ}, q.navigation = p.navigation → q.Paged := by
    intro q navigation
    exact ⟨navigation ▸ paged.placed, navigation ▸ paged.fresh⟩
  cases step with
  | displayed shown => exact paged.displays shown
  | shown => exact same rfl
  | searched => exact same rfl
  | selected id animate => exact ⟨paged.placed.select id animate, paged.fresh.select id animate⟩
  | scrolled report => exact ⟨paged.placed.scroll report, paged.fresh.scroll report⟩
  | rekeyed accepted =>
      have replaced := paged.placed.setKeys accepted
      exact ⟨Navigation.invalidate_placed replaced.ordered replaced.known,
        Navigation.fresh_invalidate _⟩
  | settled => exact paged.settle
  | recorded key => exact paged.noted key
  | saved => exact same rfl
  | switched => exact same rfl
  | localized => exact same rfl
  | installed => exact same rfl
  | closed => exact same rfl

theorem Paged.steps (paged : p.Paged) (steps : Steps recording rekeying p q) : q.Paged := by
  induction steps with
  | refl => exact paged
  | tail _ step ih => exact ih.step step

theorem Paged.run (paged : p.Paged) (events : List PickerEvent) : (p.run events).Paged := by
  induction events generalizing p with
  | nil => exact paged
  | cons event rest ih => exact ih (paged.steps (p.steps_react event))

end Steps

/-! ## What events display -/

/-- Every page that is displayed between two moments holds what its category has at the later one, and
is not empty if that category has any keys. -/
def Paints (p q : Picker σ) : Prop :=
  ∃ events, q.display = events ++ p.display ∧
    ∀ category page keys animate, .page category page keys animate ∈ events →
      keys = q.navigation.pageKeys category page ∧
        (keys ≠ [] ∨ q.navigation.keysOf category = [])

theorem paints_of_display (same : q.display = p.display) : Paints p q :=
  ⟨[], same, by simp⟩

/-- Keys stay as they are while they are displayed. -/
theorem Paints.displays (paints : Paints p q) (paged : q.Paged) (shown : Displays q r) :
    Paints p r := by
  rcases paints with ⟨before, first, held⟩
  rcases shown with ⟨events, rfl, shows⟩
  refine ⟨events ++ before, by simp [first], ?_⟩
  intro category page keys animate found
  rcases List.mem_append.1 found with new | old
  · rcases shows _ new with ⟨cursor, same⟩
    have filled := paged.placed.filled paged.fresh
    rw [cursor, ← same] at filled
    refine ⟨same, ?_⟩
    by_cases empty : keys = []
    · exact Or.inr (filled empty)
    · exact Or.inl empty
  · exact held category page keys animate old

theorem Paints.congr (paints : Paints p q) (navigation : r.navigation = q.navigation)
    (display : r.display = q.display) : Paints p r := by
  rw [Paints, navigation, display]
  exact paints

theorem Displays.paints (shown : Displays q r) (paged : q.Paged) (same : q.display = p.display) :
    Paints p r :=
  (paints_of_display same).displays paged shown

theorem Paged.afterChange (paged : p.Paged) (previous current : CategoryId) :
    (p.afterChange previous current).Paged ∧
      (p.afterChange previous current).display = p.display := by
  rw [Picker.afterChange]
  split
  · exact ⟨paged.settle, rfl⟩
  · exact ⟨paged, rfl⟩

theorem paints_flushRecents (paged : p.Paged) : Paints p p.flushRecents :=
  (displays_flushRecents p).paints paged.settle rfl

theorem paints_hide (paged : p.Paged) : Paints p p.hide := by
  have hidden : Paged { p.leaveSearch with visible := false } := ⟨paged.placed, paged.fresh⟩
  exact (displays_hide p).paints hidden.settle rfl

theorem paints_selectCategory (paged : p.Paged) (id : CategoryId) (animate : Bool) :
    Paints p (p.selectCategory id animate) := by
  have selected : (p.leaveSearch.selecting id animate).Paged :=
    ⟨paged.placed.select id animate, paged.fresh.select id animate⟩
  have shown := displays_selectCategory p id animate
  cases answer : (p.navigation.select id animate).1 with
  | none =>
      rw [answer] at shown
      exact shown.paints selected rfl
  | some change =>
      rw [answer] at shown
      rcases selected.afterChange change.previous change.current with ⟨followed, same⟩
      exact shown.paints followed same

theorem paints_enterSearch (paged : p.Paged) : Paints p p.enterSearch := by
  rcases enterSearch_cases p with same | ⟨_, shown⟩
  · rw [same]
    exact paints_of_display rfl
  · exact shown.paints ⟨paged.placed, paged.fresh⟩ rfl

theorem paints_exitSearch (paged : p.Paged) : Paints p p.exitSearch := by
  rcases exitSearch_cases p with same | shown
  · rw [same]
    exact paints_of_display rfl
  · exact shown.paints ⟨paged.placed, paged.fresh⟩ rfl

/-- A pick is in the text before it is recorded, and no page is displayed before that. -/
theorem paints_pick (paged : p.Paged) (key : String) : Paints p (p.pick key) := by
  rcases pick_cases p key with ⟨_, shown⟩ | ⟨_, same⟩
  · exact shown.paints paged rfl
  · rw [same]
    have committed : Paints p ((p.emit (.commit key)).noted key) :=
      ⟨[.commit key], noted_display _ key, by simp⟩
    have noted : ((p.emit (.commit key)).noted key).Paged :=
      (paged.displays (p.displays_commit key)).noted key
    exact committed.displays noted (displays_record _ key)

theorem Paints.refreshSearch (paints : Paints p q) (paged : q.Paged) : Paints p q.refreshSearch := by
  rcases refreshSearch_cases q with ⟨_, same⟩ | ⟨_, shown⟩
  · rw [same]
    exact paints
  · refine Paints.displays ?_ ?_ shown
    · exact paints.congr rfl rfl
    · exact ⟨paged.placed, paged.fresh⟩

theorem paints_setKeys {id : CategoryId} {keys : List String} (paged : p.Paged)
    (accepted : p.setKeys id keys = .ok q) : Paints p q := by
  rcases setKeys_cases p id keys with ⟨failure, refused⟩ | ⟨navigation, r, counted, same, outcome⟩
  · rw [refused] at accepted
    exact absurd accepted (by simp)
  · obtain rfl : r = q := Except.ok.inj (same.symm.trans accepted)
    have replaced := paged.placed.setKeys counted
    have changed : Paged { p with
        navigation := navigation.invalidate.2, index := p.index.invalidate } :=
      ⟨Navigation.invalidate_placed replaced.ordered replaced.known, Navigation.fresh_invalidate _⟩
    rcases outcome with shown | ⟨_, previous, current, shown⟩
    · exact shown.paints changed rfl
    · rcases changed.afterChange previous current with ⟨followed, kept⟩
      exact shown.paints followed kept

section Events

variable [DictionaryStore σ]

theorem paints_choose (paged : p.Paged) (key : String) : Paints p (p.choose key) := by
  have picked : Paints p (p.pick key) := paints_pick paged key
  rcases choose_cases p key with same | shown
  · rw [same]
    exact picked
  · have steps : Steps true true p (p.pick key) := p.steps_pick key fun _ => rfl
    have after := paged.steps steps
    refine Paints.displays ?_ ?_ shown
    · exact picked.congr rfl rfl
    · exact ⟨after.placed, after.fresh⟩

theorem paints_completeDownload (paged : p.Paged) (outcome : DownloadOutcome) :
    Paints p (p.completeDownload outcome) := by
  rcases completeDownload_cases p outcome with
    shown | ⟨bytes, _, ⟨path, noticing, _, noticed, same⟩ | ⟨_, shown⟩⟩
  · exact shown.paints paged rfl
  · rw [same]
    have installed : Paged { p with
        dictionaries := (p.dictionaries.install bytes outcome.locale).2 } :=
      ⟨paged.placed, paged.fresh⟩
    exact (noticed.paints installed rfl).refreshSearch (installed.displays noticed)
  · exact shown.paints ⟨paged.placed, paged.fresh⟩ rfl

/-- Every event changes keys before it displays pages. -/
theorem paints_react (paged : p.Paged) (event : PickerEvent) : Paints p (p.react event) := by
  have located : ∀ locale, (p.useLocale locale).Paged := fun _ => ⟨paged.placed, paged.fresh⟩
  cases event with
  | start locale =>
      exact (displays_start p locale).paints
        ⟨paged.placed.select _ false, paged.fresh.select _ false⟩ rfl
  | stop => exact paints_hide paged
  | hide => exact paints_hide paged
  | render => exact (displays_render p).paints paged rfl
  | clickTab tab =>
      cases tab with
      | search => exact paints_enterSearch paged
      | category id => exact paints_selectCategory paged id _
  | swipe position =>
      rw [react, swipe]
      split
      · exact paints_selectCategory paged _ _
      · exact paints_of_display rfl
  | scroll report =>
      exact (displays_scroll p report).paints ⟨paged.placed.scroll report, paged.fresh.scroll report⟩
        rfl
  | leave id =>
      rw [react, leave]
      split
      · exact paints_flushRecents paged
      · exact paints_of_display rfl
  | flushRecents => exact paints_flushRecents paged
  | pick key => exact paints_pick paged key
  | enterSearch => exact paints_enterSearch paged
  | exitSearch => exact paints_exitSearch paged
  | query text =>
      rw [react]
      rcases query_cases p text with ⟨_, same⟩ | ⟨_, shown⟩
      · rw [same]
        exact paints_of_display rfl
      · exact shown.paints ⟨paged.placed, paged.fresh⟩ rfl
  | choose key => exact paints_choose paged key
  | find text => exact paints_of_display rfl
  | changeLocale locale => exact Paints.refreshSearch (paints_of_display rfl) (located locale)
  | requestDownload => exact (displays_requestDownload p).paints paged rfl
  | completeDownload outcome => exact paints_completeDownload paged outcome
  | clearCache => exact Paints.refreshSearch (paints_of_display rfl) ⟨paged.placed, paged.fresh⟩
  | setKeys id keys =>
      rw [react]
      split
      · next accepted => exact paints_setKeys paged accepted
      · exact paints_of_display rfl
  | setIncognito on => exact paints_of_display rfl
  | takeDirty => exact paints_of_display rfl

end Events

/-! ## Runs -/

variable [DictionaryStore σ]

/-- After every run of events, those included that replace keys or come while the picker is hidden or
searches,

* every category has as many pages as its keys fill, the last one perhaps in part;
* the page of the cursor is below the count of its category, or 0 where the count is 0;
* every page on the display was displayed during one of the events, which left `after`. It held what its
  category has after that event, and it was not empty unless the category had no keys at all. -/
theorem pages_filled (catalog : Catalog) (recents : Recents) (options : PageOptions) (store : σ)
    (switches : PickerOptions) (events : List PickerEvent) :
    let start := new (Navigation.ofCatalog catalog recents options) store switches
    let n := (start.run events).navigation
    (∀ c ∈ n.categories, c.pageCount = (n.keysOf c.id).length ⌈/⌉ n.options.pageCapacity) ∧
      (∀ c ∈ n.categories, c.id = n.cursor.category →
        n.cursor.page < c.pageCount ∨ (n.cursor.page = 0 ∧ c.pageCount = 0)) ∧
      ∀ later category page keys animate earlier,
        (start.run events).display = later ++ .page category page keys animate :: earlier →
          ∃ past event rest, events = past ++ event :: rest ∧
            let before := start.run past
            let after := before.react event
            (∃ new, earlier = new ++ before.display) ∧
              (∃ new, after.display = new ++ .page category page keys animate :: earlier) ∧
              keys = after.navigation.pageKeys category page ∧
              (keys ≠ [] ∨ after.navigation.keysOf category = []) := by
  intro start n
  have begun : start.Paged := paged_new catalog recents options store switches
  have paged := begun.run events
  refine ⟨paged.fresh, fun c hc current => paged.placed.inRange hc current, ?_⟩
  intro later category page keys animate earlier displayed
  -- From the last event back to the one that displayed the page.
  induction events using List.reverseRecOn generalizing later with
  | nil => exact absurd displayed (by simp [start, run, new])
  | append_singleton past event ih =>
      rcases paints_react (begun.run past) event with ⟨shown, display, held⟩
      rw [run_concat] at displayed
      rcases List.append_eq_append_iff.1 (display.symm.trans displayed) with
        ⟨before, _, old⟩ | ⟨new, parts, old⟩
      · rcases ih (begun.run past) before old with ⟨first, other, rest, split, found⟩
        exact ⟨first, other, rest ++ [event], by simp [split], found⟩
      cases new with
      | nil =>
          rcases ih (begun.run past) [] old.symm with ⟨first, other, rest, split, found⟩
          exact ⟨first, other, rest ++ [event], by simp [split], found⟩
      | cons latest more =>
          -- The page is among what this event displayed.
          obtain ⟨rfl, tail⟩ := List.cons.inj old
          have there := held category page keys animate (by simp [parts])
          exact ⟨past, event, [], rfl, ⟨more, tail⟩, ⟨later, displayed⟩, there⟩

/-- The keys of the current category go away, and then the recently used emoji, of which there are
none, are shown. -/
theorem pages_filled_emptied :
    let start := new
      (Navigation.ofCatalog ⟨[⟨⟨1⟩, "smileys", ["😀"]⟩, ⟨⟨2⟩, "food", ["🍏", "🍎", "🍐"]⟩]⟩
        (.empty 8) (.ofCapacity 2 true))
      (⟨⟨"dicts"⟩, {}⟩ : DictionaryCache) ⟨false, true, true, true, none⟩
    let p := start.run [.start "en", .setKeys ⟨1⟩ [], .clickTab (.category .recents)]
    let n := p.navigation
    (⟨.recents, "recents", 0, 0⟩ ∈ n.categories ∧ CategoryId.recents = n.cursor.category ∧
        p.display = p.display.take 1 ++ .page .recents 0 [] true :: p.display.drop 2) ∧
      (n.cursor.page < 0 ∨ (n.cursor.page = 0 ∧ 0 = 0)) ∧
      ∃ past event, (∃ new, p.display.drop 2 = new ++ (start.run past).display) ∧
        ((start.run past).react event).navigation.keysOf .recents = [] := by
  intro start p n
  have law := pages_filled
    ⟨[⟨⟨1⟩, "smileys", ["😀"]⟩, ⟨⟨2⟩, "food", ["🍏", "🍎", "🍐"]⟩]⟩ (.empty 8) (.ofCapacity 2 true)
    (⟨⟨"dicts"⟩, {}⟩ : DictionaryCache) ⟨false, true, true, true, none⟩
    [.start "en", .setKeys ⟨1⟩ [], .clickTab (.category .recents)]
  extract_lets at law
  rcases law with ⟨_, onPage, filled⟩
  have listed : ⟨.recents, "recents", 0, 0⟩ ∈ n.categories := by decide +kernel
  have current : CategoryId.recents = n.cursor.category := by decide +kernel
  have displayed : p.display = p.display.take 1 ++ .page .recents 0 [] true :: p.display.drop 2 := by
    decide +kernel
  refine ⟨⟨listed, current, displayed⟩, onPage _ listed current, ?_⟩
  rcases filled _ _ _ _ _ _ displayed with ⟨past, event, _, _, before, _, _, keys⟩
  exact ⟨past, event, before, keys.resolve_left (absurd rfl)⟩

end Picker
end EmojiPicker

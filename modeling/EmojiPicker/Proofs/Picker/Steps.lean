import EmojiPicker.Proofs.Picker.Deferral
import EmojiPicker.Proofs.Picker.Events
import Mathlib.Logic.Relation

/-!
# Elementary changes of a picker

All that inputs and events do to a picker is made of a few elementary changes, of which one displays
and the others do not.

* `Picker.Step`, `Picker.Steps` — one change, and some of them one after the other;
* `Picker.steps_feed`, `Picker.steps_react` — every input of a session and every event;
* `Picker.steps_start` — coming onto the screen.

What every step keeps, every input keeps. Steps that record a pick and steps that replace keys are
told apart from the others, so that inputs that do neither are those made of the others alone.
-/

namespace EmojiPicker
namespace Picker

variable {σ : Type} [DictionaryStore σ] {recording rekeying : Bool} {p q : Picker σ}

/-- One elementary change. Picks are recorded only where `recording` allows it, and keys are replaced
only where `rekeying` does. -/
inductive Step (recording rekeying : Bool) : Picker σ → Picker σ → Prop where
  /-- The only change of the display: the picker shows itself as it is. -/
  | displayed {p q : Picker σ} (shown : Displays p q) : Step recording rekeying p q
  | shown (p : Picker σ) (visible : Bool) : Step recording rekeying p { p with visible := visible }
  /-- Search mode begins only where there is a tab for it. -/
  | searched (p : Picker σ) (search : SearchSession) (index : SearchIndex)
      (begun : search.active = true →
        p.search.active = true ∨ p.options.searchTabVisible = true) :
      Step recording rekeying p { p with search := search, index := index }
  | selected (p : Picker σ) (id : CategoryId) (animate : Bool) :
      Step recording rekeying p (p.selecting id animate)
  | scrolled (p : Picker σ) (report : ScrollReport) :
      Step recording rekeying p { p with navigation := (p.navigation.scroll report).2 }
  | rekeyed {p : Picker σ} {id : CategoryId} {keys : List String} {navigation : Navigation}
      (accepted : p.navigation.setKeys id keys = .ok navigation) (allowed : rekeying = true) :
      Step recording rekeying p { p with navigation := navigation.invalidate.2 }
  | settled (p : Picker σ) : Step recording rekeying p p.settle.2
  | recorded (p : Picker σ) (key : String) (allowed : recording = true) :
      Step recording rekeying p (p.noted key)
  | saved (p : Picker σ) : Step recording rekeying p { p with recentsDirty := false }
  | switched (p : Picker σ) (on : Bool) : Step recording rekeying p (p.setIncognito on)
  | localized (p : Picker σ) (locale : String) : Step recording rekeying p (p.useLocale locale)
  | installed (p : Picker σ) (bytes : List UInt8) (locale : String) :
      Step recording rekeying p
        { p with dictionaries := (p.dictionaries.install bytes locale).2 }
  | closed (p : Picker σ) :
      Step recording rekeying p { p with dictionaries := p.dictionaries.close }

/-- Some elementary changes. -/
abbrev Steps (recording rekeying : Bool) : Picker σ → Picker σ → Prop :=
  Relation.ReflTransGen (Step recording rekeying)

/-- Only one kind of elementary change displays anything. -/
theorem Step.display_cases (step : Step recording rekeying p q) :
    Displays p q ∨ q.display = p.display := by
  cases step with
  | displayed shown => exact Or.inl shown
  | recorded key => exact Or.inr (p.noted_display key)
  | _ => exact Or.inr rfl

/-- New keys aside, the categories keep theirs. -/
theorem Step.catalog_cases (step : Step recording rekeying p q) :
    (q.navigation.ids = p.navigation.ids ∧ q.navigation.keys = p.navigation.keys) ∨
      (rekeying = true ∧ ∃ id keys navigation,
        p.navigation.setKeys id keys = .ok navigation ∧ q.navigation = navigation.invalidate.2) := by
  cases step with
  | displayed shown =>
      rcases shown with ⟨events, rfl, _⟩
      exact Or.inl ⟨rfl, rfl⟩
  | selected id animate =>
      have same := p.navigation.sameKeys_select id animate
      exact Or.inl ⟨same.ids, same.keys⟩
  | scrolled report =>
      have same := p.navigation.sameKeys_scroll report
      exact Or.inl ⟨same.ids, same.keys⟩
  | rekeyed accepted allowed => exact Or.inr ⟨allowed, _, _, _, accepted, rfl⟩
  | settled =>
      have same := p.applyPending.navigation.sameKeys_invalidate
      exact Or.inl ⟨same.ids, same.keys⟩
  | recorded key =>
      -- A record changes the recently used emoji, which are no part of the catalog.
      rcases p.noted_cases key with ⟨_, _, ⟨_, same⟩ | same⟩
      · rw [same]
        exact Or.inl ⟨rfl, rfl⟩
      · rw [same]
        exact Or.inl ⟨Navigation.invalidate_ids _, Navigation.invalidate_keys _⟩
  | _ => exact Or.inl ⟨rfl, rfl⟩

/-! ## Navigation and the display -/

theorem Displays.steps (shown : Displays p q) : Steps recording rekeying p q :=
  .single (.displayed shown)

theorem steps_flushRecents (p : Picker σ) : Steps recording rekeying p p.flushRecents :=
  .trans (.single (.settled p)) (displays_flushRecents p).steps

theorem steps_leaveSearch (p : Picker σ) : Steps recording rekeying p p.leaveSearch :=
  .single (.searched p p.search.exit.2 p.index (by simp [SearchSession.exit]))

theorem steps_hide (p : Picker σ) : Steps recording rekeying p p.hide := by
  have hidden : Steps recording rekeying p { p.leaveSearch with visible := false } :=
    p.steps_leaveSearch.tail (.shown p.leaveSearch false)
  exact (hidden.tail (.settled _)).trans (displays_hide p).steps

theorem steps_afterChange (p : Picker σ) (previous current : CategoryId) :
    Steps recording rekeying p (p.afterChange previous current) := by
  rw [afterChange]
  split
  · exact .single (.settled p)
  · exact .refl

theorem steps_followed (p : Picker σ) (change : Option CategoryChange) :
    Steps recording rekeying p (p.followed change) := by
  cases change with
  | none => exact .refl
  | some change => exact p.steps_afterChange change.previous change.current

theorem steps_selectCategory (p : Picker σ) (id : CategoryId) (animate : Bool) :
    Steps recording rekeying p (p.selectCategory id animate) := by
  have selected : Steps recording rekeying p (p.leaveSearch.selecting id animate) :=
    p.steps_leaveSearch.tail (.selected _ id animate)
  exact (selected.trans (steps_followed _ _)).trans (displays_selectCategory p id animate).steps

theorem steps_enterSearch (p : Picker σ) : Steps recording rekeying p p.enterSearch := by
  rcases enterSearch_cases p with same | ⟨⟨offered, _⟩, shown⟩
  · rw [same]
  · refine .trans (.single ?_) shown.steps
    exact .searched p p.search.enter p.index fun _ => Or.inr offered

theorem steps_exitSearch (p : Picker σ) : Steps recording rekeying p p.exitSearch := by
  rcases exitSearch_cases p with same | shown
  · rw [same]
  · exact p.steps_leaveSearch.trans shown.steps

theorem steps_clickTab (p : Picker σ) (tab : Tab) : Steps recording rekeying p (p.clickTab tab) := by
  cases tab with
  | search => exact p.steps_enterSearch
  | category id => exact p.steps_selectCategory id _

theorem steps_swipe (p : Picker σ) (position : Nat) :
    Steps recording rekeying p (p.swipe position) := by
  rw [swipe]
  split
  · exact p.steps_selectCategory _ _
  · exact .refl

theorem steps_scroll (p : Picker σ) (report : ScrollReport) :
    Steps recording rekeying p (p.scroll report) :=
  .trans (.single (.scrolled p report)) (displays_scroll p report).steps

theorem steps_leave (p : Picker σ) (id : CategoryId) : Steps recording rekeying p (p.leave id) := by
  rw [leave]
  split
  · exact p.steps_flushRecents
  · exact .refl

/-! ## Picks and searches -/

theorem steps_pick (p : Picker σ) (key : String)
    (allowed : p.options.incognito = false → recording = true) :
    Steps recording rekeying p (p.pick key) := by
  rcases pick_cases p key with ⟨_, shown⟩ | ⟨off, same⟩
  · exact shown.steps
  · rw [same]
    have committed : Steps recording rekeying p ((p.emit (.commit key)).noted key) :=
      (p.displays_commit key).steps.tail (.recorded _ key (allowed off))
    exact committed.trans (displays_record _ key).steps

theorem steps_choose (p : Picker σ) (key : String)
    (allowed : p.options.incognito = false → recording = true) :
    Steps recording rekeying p (p.choose key) := by
  have picked : Steps recording rekeying p (p.pick key) := p.steps_pick key allowed
  rcases choose_cases p key with same | shown
  · rw [same]
    exact picked
  · exact (picked.trans (steps_leaveSearch _)).trans shown.steps

theorem steps_query (p : Picker σ) (text : String) : Steps recording rekeying p (p.query text) := by
  rcases query_cases p text with ⟨_, same⟩ | ⟨active, shown⟩
  · rw [same]
  · exact .trans (.single (.searched p _ _ fun _ => Or.inl active)) shown.steps

theorem steps_refreshSearch (p : Picker σ) : Steps recording rekeying p p.refreshSearch := by
  rcases refreshSearch_cases p with ⟨_, same⟩ | ⟨active, shown⟩
  · rw [same]
  · exact .trans (.single (.searched p _ _ fun _ => Or.inl active)) shown.steps

/-! ## Dictionaries and keys -/

theorem steps_start (p : Picker σ) (locale : String) :
    Steps recording rekeying p (p.start locale) := by
  have located : Steps recording rekeying p { p.useLocale locale with visible := true } :=
    .tail (.single (.localized p locale)) (.shown _ true)
  exact (located.tail (.selected _ _ false)).trans (displays_start p locale).steps

theorem steps_changeLocale (p : Picker σ) (locale : String) :
    Steps recording rekeying p (p.changeLocale locale) :=
  .trans (.single (.localized p locale)) (steps_refreshSearch _)

theorem steps_clearCache (p : Picker σ) : Steps recording rekeying p p.clearCache := by
  have closed : Steps recording rekeying p { p with
      dictionaries := p.dictionaries.close, index := p.index.invalidate } :=
    .tail (.single (.closed p)) (.searched _ p.search p.index.invalidate Or.inl)
  exact closed.trans (steps_refreshSearch _)

theorem steps_completeDownload (p : Picker σ) (outcome : DownloadOutcome) :
    Steps recording rekeying p (p.completeDownload outcome) := by
  rcases completeDownload_cases p outcome with
    shown | ⟨bytes, _, ⟨path, noticing, _, noticed, same⟩ | ⟨_, shown⟩⟩
  · exact shown.steps
  · rw [same]
    have installed : Steps recording rekeying p noticing :=
      .trans (.single (.installed p bytes outcome.locale)) noticed.steps
    exact installed.trans (steps_refreshSearch _)
  · exact .trans (.single (.installed p bytes outcome.locale)) shown.steps

theorem steps_setKeys {id : CategoryId} {keys : List String} (accepted : p.setKeys id keys = .ok q) :
    Steps recording true p q := by
  rcases setKeys_cases p id keys with ⟨failure, refused⟩ | ⟨navigation, r, counted, same, outcome⟩
  · rw [refused] at accepted
    exact absurd accepted (by simp)
  · obtain rfl : r = q := Except.ok.inj (same.symm.trans accepted)
    have changed : Steps recording true p { p with
        navigation := navigation.invalidate.2, index := p.index.invalidate } :=
      .tail (.single (.rekeyed counted rfl)) (.searched _ p.search p.index.invalidate Or.inl)
    rcases outcome with shown | ⟨_, previous, current, shown⟩
    · exact changed.trans shown.steps
    · exact (changed.trans (steps_afterChange _ previous current)).trans shown.steps

/-! ## Inputs and events -/

theorem steps_feed (p : Picker σ) (input : PickerInput)
    (allowed : p.options.incognito = false → input.key? ≠ none → recording = true) :
    Steps recording rekeying p (p.feed input) := by
  cases input with
  | completed outcome => exact p.steps_completeDownload outcome
  | command command =>
      cases command with
      | nothing => exact .refl
      | help => exact Displays.steps (displays_emit p trivial)
      | tab tab => exact p.steps_clickTab tab
      | swipe position => exact p.steps_swipe position
      | scroll offset extent range firstFull firstPartial category => exact p.steps_scroll _
      | leave category => exact p.steps_leave category
      | pick key => exact p.steps_pick key fun off => allowed off (by simp [PickerInput.key?])
      | query text => exact p.steps_query text
      | choose key => exact p.steps_choose key fun off => allowed off (by simp [PickerInput.key?])
      | close => exact p.steps_exitSearch
      | locale locale => exact p.steps_changeLocale locale
      | download => exact (displays_requestDownload p).steps
      | clearCache => exact p.steps_clearCache
      | incognito on => exact .single (.switched p on)
      | hide => exact p.steps_hide
      | reveal => exact p.steps_start p.locale
      | quit => exact p.steps_hide

theorem steps_react (p : Picker σ) (event : PickerEvent) : Steps true true p (p.react event) := by
  cases event with
  | start locale => exact p.steps_start locale
  | stop => exact p.steps_hide
  | hide => exact p.steps_hide
  | render => exact (displays_render p).steps
  | clickTab tab => exact p.steps_clickTab tab
  | swipe position => exact p.steps_swipe position
  | scroll report => exact p.steps_scroll report
  | leave id => exact p.steps_leave id
  | flushRecents => exact p.steps_flushRecents
  | pick key => exact p.steps_pick key fun _ => rfl
  | enterSearch => exact p.steps_enterSearch
  | exitSearch => exact p.steps_exitSearch
  | query text => exact p.steps_query text
  | choose key => exact p.steps_choose key fun _ => rfl
  | find text => exact .single (.searched p p.search _ Or.inl)
  | changeLocale locale => exact p.steps_changeLocale locale
  | requestDownload => exact (displays_requestDownload p).steps
  | completeDownload outcome => exact p.steps_completeDownload outcome
  | clearCache => exact p.steps_clearCache
  | setKeys id keys =>
      rw [react]
      split
      · next accepted => exact steps_setKeys accepted
      · exact .refl
  | setIncognito on => exact .single (.switched p on)
  | takeDirty => exact .single (.saved p)

end Picker
end EmojiPicker

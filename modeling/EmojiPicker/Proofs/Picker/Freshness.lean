import EmojiPicker.Proofs.Dictionary.Publication
import EmojiPicker.Proofs.Picker.Display
import EmojiPicker.Proofs.Picker.Events
import EmojiPicker.Settings
import Mathlib.Data.List.Induction

/-!
# When search results are current

The results of a search depend on the query, on the keys of the categories and on the published
dictionary, which change independently.

* `SearchIndex.answer` — what a query finds, without the kept keys;
* `Picker.Coherent` — the kept keys are those of the categories, and search mode leaves nothing
  behind;
* `Picker.Current` — the results are what the query finds now;
* `PickerEvent.neglectsSearch` — the two events that do not search anew: a start and new keys;
* `Picker.attends_react`, `Picker.search_react` — every other event keeps the results current, and
  these two leave them as they are;
* `Picker.results_current_iff` — so a run goes stale exactly when one of the two changes what the
  open search finds.
-/

namespace EmojiPicker

/-! ## What a query finds -/

namespace SearchIndex

variable {index : SearchIndex} {n m : Navigation}

/-- What a query finds among some keys in a dictionary, if there is one. The empty query finds
nothing. -/
def answer (keys : List String) (dictionary : Option EmojiDictionary) (query : String) :
    List String :=
  match dictionary with
  | none => []
  | some d => if query.isEmpty then [] else searchKeys d query keys

/-- The kept keys are those of the categories. -/
def Accurate (index : SearchIndex) (n : Navigation) : Prop :=
  index.kept = none ∨ index.kept = some n.allKeys

theorem Accurate.congr (accurate : index.Accurate n) (same : m.allKeys = n.allKeys) :
    index.Accurate m := by
  rw [Accurate, same]
  exact accurate

theorem allKeys_of_accurate (accurate : index.Accurate n) :
    (index.allKeys n).1 = n.allKeys ∧ (index.allKeys n).2.Accurate n := by
  rw [allKeys]
  rcases accurate with empty | kept
  · rw [empty]
    exact ⟨rfl, Or.inr rfl⟩
  · rw [kept]
    exact ⟨rfl, Or.inr kept⟩

/-- Searching through the kept keys is searching through the keys of the categories. -/
theorem search_of_accurate (accurate : index.Accurate n) (dictionary : Option EmojiDictionary)
    (query : String) :
    (index.search n dictionary query).1 = answer n.allKeys dictionary query ∧
      (index.search n dictionary query).2.Accurate n := by
  rcases allKeys_of_accurate accurate with ⟨keys, kept⟩
  rw [search.eq_def, answer.eq_def]
  -- The keys are asked for only if there is something to search and something to search in.
  cases empty : query.isEmpty with
  | true =>
      cases dictionary with
      | none => exact ⟨rfl, accurate⟩
      | some d => exact ⟨rfl, accurate⟩
  | false =>
      cases dictionary with
      | none => exact ⟨rfl, accurate⟩
      | some d =>
          dsimp only
          rw [keys]
          exact ⟨rfl, kept⟩

theorem length_answer_le (keys : List String) (dictionary : Option EmojiDictionary)
    (query : String) : (answer keys dictionary query).length ≤ maxSearchResults := by
  rw [answer.eq_def]
  cases dictionary with
  | none => exact Nat.zero_le _
  | some d =>
      dsimp only
      split
      · exact Nat.zero_le _
      · rw [searchKeys, List.length_take]
        exact Nat.min_le_left _ _

end SearchIndex

/-- The events that leave the results of an open search as they are, whatever they change. -/
def PickerEvent.neglectsSearch : PickerEvent → Bool
  | .start _ => true
  | .setKeys _ _ => true
  | _ => false

namespace Picker

variable {σ : Type} {p q r : Picker σ}

/-- What the last query finds now. -/
def answer (p : Picker σ) : List String :=
  SearchIndex.answer p.navigation.allKeys p.dictionaries.current? p.search.lastQuery

/-- The kept keys are accurate, and outside search mode there is neither query nor result. -/
structure Coherent (p : Picker σ) : Prop where
  accurate : p.index.Accurate p.navigation
  idle : p.search.active = false → p.search.lastQuery = "" ∧ p.search.results = []

/-- In search mode the results are what the last query finds now. -/
def Current (p : Picker σ) : Prop :=
  p.search.active = true → p.search.results = p.answer

theorem coherent_new (navigation : Navigation) (store : σ) (options : PickerOptions) :
    (new navigation store options).Coherent :=
  ⟨Or.inl rfl, fun _ => ⟨rfl, rfl⟩⟩

/-! ## Events that do not touch the search -/

/-- Nothing changed that the search depends on. -/
structure Quiet (p q : Picker σ) : Prop where
  search : q.search = p.search
  index : q.index = p.index
  ids : q.navigation.ids = p.navigation.ids
  keys : q.navigation.keys = p.navigation.keys
  dictionary : q.dictionaries.current? = p.dictionaries.current?

namespace Quiet

theorem refl (p : Picker σ) : Quiet p p :=
  ⟨rfl, rfl, rfl, rfl, rfl⟩

theorem trans (first : Quiet p q) (second : Quiet q r) : Quiet p r :=
  ⟨second.search.trans first.search, second.index.trans first.index,
    second.ids.trans first.ids, second.keys.trans first.keys,
    second.dictionary.trans first.dictionary⟩

theorem allKeys (quiet : Quiet p q) : q.navigation.allKeys = p.navigation.allKeys :=
  Navigation.allKeys_congr quiet.ids quiet.keys

theorem answer (quiet : Quiet p q) : q.answer = p.answer := by
  rw [Picker.answer, Picker.answer, quiet.allKeys, quiet.dictionary, quiet.search]

theorem coherent (quiet : Quiet p q) (coherent : p.Coherent) : q.Coherent where
  accurate := by
    rw [quiet.index]
    exact coherent.accurate.congr quiet.allKeys
  idle := by
    rw [quiet.search]
    exact coherent.idle

theorem current (quiet : Quiet p q) (current : p.Current) : q.Current := by
  rw [Current, quiet.search, quiet.answer]
  exact current

theorem of_displays (shown : Displays p q) : Quiet p q := by
  rcases shown with ⟨events, rfl, _⟩
  exact ⟨rfl, rfl, rfl, rfl, rfl⟩

end Quiet

theorem quiet_settle (p : Picker σ) : Quiet p p.settle.2 where
  search := rfl
  index := rfl
  ids := p.applyPending.navigation.invalidate_ids
  keys := p.applyPending.navigation.invalidate_keys
  dictionary := rfl

theorem quiet_flushRecents (p : Picker σ) : Quiet p p.flushRecents :=
  (quiet_settle p).trans (Quiet.of_displays (displays_flushRecents p))

theorem quiet_afterChange (p : Picker σ) (previous current : CategoryId) :
    Quiet p (p.afterChange previous current) := by
  rw [afterChange]
  split
  · exact quiet_settle p
  · exact Quiet.refl p

theorem quiet_entering (p : Picker σ) (id : CategoryId) (page : Nat)
    (remembered : List (CategoryId × Nat)) : Quiet p (p.entering id page remembered) :=
  ⟨rfl, rfl, rfl, rfl, rfl⟩

theorem quiet_record (p : Picker σ) (key : String) : Quiet p (p.record key) := by
  rcases record_cases p key with ⟨_, same⟩ | ⟨_, ⟨_, same⟩ | ⟨_, shown⟩⟩
  · rw [same]
    exact ⟨rfl, rfl, rfl, rfl, rfl⟩
  · rw [same]
    exact Quiet.refl p
  · refine Quiet.trans ?_ (Quiet.of_displays shown)
    exact
      { search := rfl
        index := rfl
        ids := Navigation.invalidate_ids _
        keys := Navigation.invalidate_keys _
        dictionary := rfl }

theorem quiet_pick (p : Picker σ) (key : String) : Quiet p (p.pick key) := by
  rcases pick_cases p key with ⟨_, shown⟩ | ⟨_, same⟩
  · exact Quiet.of_displays shown
  · rw [same]
    exact (Quiet.of_displays (p.displays_commit key)).trans (quiet_record _ key)

theorem quiet_scroll (p : Picker σ) (report : ScrollReport) : Quiet p (p.scroll report) := by
  rcases scroll_cases p report with same | ⟨page, shown⟩
  · rw [same]
    exact Quiet.refl p
  · refine Quiet.trans ?_ (Quiet.of_displays shown)
    exact ⟨rfl, rfl, rfl, rfl, rfl⟩

/-! ## Events that end or repeat the search -/

/-- What an event does that pays attention to the search. -/
structure Attends (p q : Picker σ) : Prop where
  coherent : q.Coherent
  current : p.Current → q.Current

theorem attends_of_quiet (coherent : p.Coherent) (quiet : Quiet p q) : Attends p q :=
  ⟨quiet.coherent coherent, quiet.current⟩

/-- Out of search mode there is nothing that could be stale. -/
theorem attends_of_left (coherent : p.Coherent) (quiet : Quiet p.leaveSearch q) : Attends p q := by
  have left : p.leaveSearch.Coherent := ⟨coherent.accurate, fun _ => ⟨rfl, rfl⟩⟩
  refine ⟨quiet.coherent left, fun _ => quiet.current ?_⟩
  intro active
  exact absurd active (by simp [leaveSearch, SearchSession.exit])

theorem attends_enterSearch (coherent : p.Coherent) : Attends p p.enterSearch := by
  rcases enterSearch_cases p with same | ⟨_, shown⟩
  · rw [same]
    exact attends_of_quiet coherent (Quiet.refl p)
  · have quiet := Quiet.of_displays shown
    have entered : Coherent { p with search := p.search.enter } := by
      refine ⟨coherent.accurate, ?_⟩
      intro off
      exact absurd off (by simp [SearchSession.enter])
    refine ⟨quiet.coherent entered, fun _ => quiet.current ?_⟩
    intro _
    -- A search begins with the empty query, which finds nothing in any dictionary.
    cases found : p.dictionaries.current? <;>
      simp [Picker.answer, SearchIndex.answer, SearchSession.enter, found]

theorem attends_exitSearch (coherent : p.Coherent) : Attends p p.exitSearch := by
  rcases exitSearch_cases p with same | shown
  · rw [same]
    exact attends_of_quiet coherent (Quiet.refl p)
  · exact attends_of_left coherent (Quiet.of_displays shown)

theorem attends_hide (coherent : p.Coherent) : Attends p p.hide := by
  have hidden : Quiet p.leaveSearch { p.leaveSearch with visible := false } :=
    ⟨rfl, rfl, rfl, rfl, rfl⟩
  exact attends_of_left coherent
    (hidden.trans ((quiet_settle _).trans (Quiet.of_displays (displays_hide p))))

theorem attends_selectCategory (coherent : p.Coherent) (id : CategoryId) (animate : Bool) :
    Attends p (p.selectCategory id animate) := by
  rcases selectCategory_cases p id animate with shown | ⟨page, remembered, shown⟩
  · exact attends_of_left coherent (Quiet.of_displays shown)
  · exact attends_of_left coherent ((quiet_entering _ id page remembered).trans
      ((quiet_afterChange _ _ _).trans (Quiet.of_displays shown)))

theorem attends_choose (coherent : p.Coherent) (key : String) : Attends p (p.choose key) := by
  have picked := quiet_pick p key
  rcases choose_cases p key with same | shown
  · rw [same]
    exact attends_of_quiet coherent picked
  · have left := attends_of_left (picked.coherent coherent) (Quiet.of_displays shown)
    exact ⟨left.coherent, fun current => left.current (picked.current current)⟩

/-- Results that were just found are current. -/
theorem current_of_search (coherent : p.Coherent) (active : p.search.active = true)
    (text : String) :
    let found := { p with
      search := { p.search with
        lastQuery := text
        results := (p.index.search p.navigation p.dictionaries.current? text).1 }
      index := (p.index.search p.navigation p.dictionaries.current? text).2 }
    found.Coherent ∧ found.Current := by
  have search := SearchIndex.search_of_accurate coherent.accurate p.dictionaries.current? text
  refine ⟨⟨search.2, ?_⟩, fun _ => search.1⟩
  intro off
  exact absurd off (by simp [active])

theorem attends_query (coherent : p.Coherent) (text : String) : Attends p (p.query text) := by
  rcases query_cases p text with ⟨_, same⟩ | ⟨active, shown⟩
  · rw [same]
    exact attends_of_quiet coherent (Quiet.refl p)
  · have quiet := Quiet.of_displays shown
    have found := current_of_search coherent active text
    exact ⟨quiet.coherent found.1, fun _ => quiet.current found.2⟩

/-- Searching anew makes the results current, whatever they were. -/
theorem refreshSearch_current (coherent : p.Coherent) :
    p.refreshSearch.Coherent ∧ p.refreshSearch.Current := by
  rcases refreshSearch_cases p with ⟨off, same⟩ | ⟨active, shown⟩
  · rw [same]
    refine ⟨coherent, ?_⟩
    intro active
    rw [off] at active
    exact absurd active (by simp)
  · have quiet := Quiet.of_displays shown
    have found := current_of_search coherent active p.search.lastQuery
    exact ⟨quiet.coherent found.1, quiet.current found.2⟩

theorem attends_refreshSearch (changed : q.Coherent) : Attends p q.refreshSearch :=
  ⟨(refreshSearch_current changed).1, fun _ => (refreshSearch_current changed).2⟩

theorem attends_clearCache (coherent : p.Coherent) : Attends p p.clearCache := by
  have cleared : Coherent { p with
      dictionaries := p.dictionaries.close, index := p.index.invalidate } :=
    ⟨Or.inl rfl, coherent.idle⟩
  exact attends_refreshSearch cleared

theorem attends_find (coherent : p.Coherent) (text : String) : Attends p (p.find text).2 :=
  ⟨⟨(SearchIndex.search_of_accurate coherent.accurate _ text).2, coherent.idle⟩, fun h => h⟩

/-! ## Every event -/

section Events

variable [DictionaryStore σ]

theorem attends_changeLocale (coherent : p.Coherent) (locale : String) :
    Attends p (p.changeLocale locale) := by
  have used : (p.useLocale locale).Coherent := ⟨coherent.accurate, coherent.idle⟩
  exact attends_refreshSearch used

theorem attends_completeDownload (coherent : p.Coherent) (outcome : DownloadOutcome) :
    Attends p (p.completeDownload outcome) := by
  rcases completeDownload_cases p outcome with
    shown | ⟨bytes, _, ⟨path, noticed, _, shown, same⟩ | ⟨refused, shown⟩⟩
  · exact attends_of_quiet coherent (Quiet.of_displays shown)
  · have installed : Coherent { p with
        dictionaries := (p.dictionaries.install bytes outcome.locale).2 } :=
      ⟨coherent.accurate, coherent.idle⟩
    rw [same]
    exact attends_refreshSearch ((Quiet.of_displays shown).coherent installed)
  · -- A download that is not installed leaves the published dictionary alone.
    refine attends_of_quiet coherent (Quiet.trans ?_ (Quiet.of_displays shown))
    rcases p.dictionaries.install_cases bytes outcome.locale with
      ⟨_, same⟩ | ⟨_, _, _, _, path, _, _, installed⟩
    · exact ⟨rfl, rfl, rfl, rfl, Lifecycle.current?_undisturbed same⟩
    · exact absurd (congrArg Prod.fst installed) (refused path)

/-- Every event but a start and new keys pays attention to the search. -/
theorem attends_react (coherent : p.Coherent) (event : PickerEvent)
    (attentive : event.neglectsSearch = false) : Attends p (p.react event) := by
  have quiet : ∀ {q : Picker σ}, Quiet p q → Attends p q := attends_of_quiet coherent
  cases event with
  | start locale => exact absurd attentive (by simp [PickerEvent.neglectsSearch])
  | setKeys id keys => exact absurd attentive (by simp [PickerEvent.neglectsSearch])
  | stop => exact attends_hide coherent
  | hide => exact attends_hide coherent
  | render => exact quiet (Quiet.of_displays (displays_render p))
  | clickTab tab =>
      cases tab with
      | search => exact attends_enterSearch coherent
      | category id => exact attends_selectCategory coherent id _
  | swipe position =>
      rw [react, swipe]
      split
      · exact attends_selectCategory coherent _ _
      · exact quiet (Quiet.refl p)
  | scroll report => exact quiet (quiet_scroll p report)
  | leave id =>
      rw [react, leave]
      split
      · exact quiet (quiet_flushRecents p)
      · exact quiet (Quiet.refl p)
  | flushRecents => exact quiet (quiet_flushRecents p)
  | pick key => exact quiet (quiet_pick p key)
  | enterSearch => exact attends_enterSearch coherent
  | exitSearch => exact attends_exitSearch coherent
  | query text => exact attends_query coherent text
  | choose key => exact attends_choose coherent key
  | find text => exact attends_find coherent text
  | changeLocale locale => exact attends_changeLocale coherent locale
  | requestDownload => exact quiet (Quiet.of_displays (displays_requestDownload p))
  | completeDownload outcome => exact attends_completeDownload coherent outcome
  | clearCache => exact attends_clearCache coherent
  | setIncognito on => exact quiet ⟨rfl, rfl, rfl, rfl, rfl⟩
  | takeDirty => exact quiet ⟨rfl, rfl, rfl, rfl, rfl⟩

theorem search_start (coherent : p.Coherent) (locale : String) :
    (p.start locale).Coherent ∧ (p.start locale).search = p.search := by
  have used : Coherent { p.useLocale locale with visible := true } :=
    ⟨coherent.accurate, coherent.idle⟩
  rcases start_cases p locale with shown | ⟨page, remembered, shown⟩
  · have quiet := Quiet.of_displays shown
    exact ⟨quiet.coherent used, quiet.search⟩
  · have quiet := (quiet_entering _ _ page remembered).trans (Quiet.of_displays shown)
    exact ⟨quiet.coherent used, quiet.search⟩

theorem search_setKeys (coherent : p.Coherent) (id : CategoryId) (keys : List String) :
    (p.react (.setKeys id keys)).Coherent ∧ (p.react (.setKeys id keys)).search = p.search := by
  rw [react]
  rcases setKeys_cases p id keys with ⟨failure, refused⟩ | ⟨navigation, q, _, accepted, outcome⟩
  · rw [refused]
    exact ⟨coherent, rfl⟩
  · rw [accepted]
    have changed : Coherent { p with
        navigation := navigation.invalidate.2, index := p.index.invalidate } :=
      ⟨Or.inl rfl, coherent.idle⟩
    rcases outcome with shown | ⟨_, previous, current, shown⟩
    · have quiet := Quiet.of_displays shown
      exact ⟨quiet.coherent changed, quiet.search⟩
    · have quiet := (quiet_afterChange _ previous current).trans (Quiet.of_displays shown)
      exact ⟨quiet.coherent changed, quiet.search⟩

/-- A start and new keys leave the search as it is. -/
theorem search_react (coherent : p.Coherent) (event : PickerEvent)
    (neglects : event.neglectsSearch = true) :
    (p.react event).Coherent ∧ (p.react event).search = p.search := by
  cases event with
  | start locale => exact search_start coherent locale
  | setKeys id keys => exact search_setKeys coherent id keys
  | _ => exact absurd neglects (by simp [PickerEvent.neglectsSearch])

/-! ## Runs -/

theorem coherent_react (coherent : p.Coherent) (event : PickerEvent) :
    (p.react event).Coherent := by
  cases neglects : event.neglectsSearch with
  | true => exact (search_react coherent event neglects).1
  | false => exact (attends_react coherent event neglects).coherent

theorem coherent_run (coherent : p.Coherent) (events : List PickerEvent) :
    (p.run events).Coherent := by
  induction events generalizing p with
  | nil => exact coherent
  | cons event rest ih => exact ih (coherent_react coherent event)

/-- After an event that neglects the search, results that were current are so only if the query
still finds the same. -/
theorem current_react_iff (coherent : p.Coherent) (current : p.Current) (event : PickerEvent) :
    (p.react event).Current ↔
      (event.neglectsSearch = true → p.search.active = true → (p.react event).answer = p.answer) := by
  cases neglects : event.neglectsSearch with
  | false =>
      have := (attends_react coherent event neglects).current current
      simp [this]
  | true =>
      have same := (search_react coherent event neglects).2
      rw [Current, same]
      constructor
      · intro still _ active
        rw [← still active, current active]
      · intro still active
        rw [still rfl active, current active]

/-- A run keeps the results of every search current exactly if no start and no new keys change what
an open search finds. In any case there are neither query nor results outside search mode, and a
query finds at most fifty keys, by the keys of the categories and the published dictionary alone. -/
theorem results_current_iff (navigation : Navigation) (store : σ) (options : PickerOptions)
    (events : List PickerEvent) :
    let after (past : List PickerEvent) : Picker σ := (new navigation store options).run past
    ((∀ past, past <+: events →
        (after past).search.active = true → (after past).search.results = (after past).answer) ↔
      ∀ past event, past ++ [event] <+: events →
        event.neglectsSearch = true → (after past).search.active = true →
          (after (past ++ [event])).answer = (after past).answer) ∧
      (after events).answer.length ≤ maxSearchResults ∧
      ((after events).find (after events).search.lastQuery).1 = (after events).answer ∧
      ((after events).search.active = false →
        (after events).search.lastQuery = "" ∧ (after events).search.results = []) := by
  intro after
  have begun := coherent_new navigation store options
  have coherent : ∀ past, (after past).Coherent := coherent_run begun
  refine ⟨⟨?_, ?_⟩, ?_, ?_, (coherent events).idle⟩
  · intro current past event inside
    have before := current past ((List.prefix_append past [event]).trans inside)
    have later := current (past ++ [event]) inside
    have step : after (past ++ [event]) = (after past).react event := run_concat _ past event
    rw [step] at later ⊢
    exact (current_react_iff (coherent past) before event).1 later
  · intro unchanged past
    -- Over the prefixes of the run, since all of the earlier results have to be current too.
    induction past using List.reverseRecOn with
    | nil =>
        intro _ active
        exact absurd active (by simp [after, run, new])
    | append_singleton past event ih =>
        intro inside
        have before := ih ((List.prefix_append past [event]).trans inside)
        have still := unchanged past event inside
        have step : after (past ++ [event]) = (after past).react event := run_concat _ past event
        rw [step] at still ⊢
        exact (current_react_iff (coherent past) before event).2 still
  · exact SearchIndex.length_answer_le _ _ _
  · exact (SearchIndex.search_of_accurate (coherent events).accurate _ _).1

/-- Both events do so. A search that found nothing while no dictionary was published finds nothing
after a start has published one, and one for a key that was taken away still shows it. -/
theorem results_stale :
    let words := "dictionary=emoji_en,locale=en,version=1\n word=😀,f=1\n  shortcut=grinning face\n"
    let disk := (({} : Disk).makeDirectories ⟨"dicts/en"⟩).2
    let stored := (disk.write ⟨"dicts/en/emoji_en.dict"⟩ (Text.encode words.toList)).2
    let start := ({} : Settings).picker ⟨[⟨⟨1⟩, "faces", ["😀", "🐶"]⟩]⟩ []
      (⟨⟨"dicts"⟩, stored⟩ : DictionaryCache)
    let searching := start.run [.start "en", .enterSearch, .query "grin"]
    let changed := searching.react (.setKeys ⟨1⟩ ["🐶"])
    let restarted := searching.run [.clearCache, .start "en"]
    (changed.search.active = true ∧ changed.search.results = ["😀"] ∧ changed.answer = []) ∧
      restarted.search.active = true ∧ restarted.search.results = [] ∧
        restarted.answer = ["😀"] := by
  decide +kernel

end Events

end Picker
end EmojiPicker

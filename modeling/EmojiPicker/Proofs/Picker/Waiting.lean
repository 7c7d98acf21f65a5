import EmojiPicker.Proofs.Navigation.Redirects
import EmojiPicker.Proofs.Navigation.Tabs
import EmojiPicker.Proofs.Picker.Paging

/-!
# Buffered picks wait in the recently used emoji

Picks are buffered while the recently used emoji are the current category, and whoever leaves that
category ends the buffer. One event can lead away from it without doing so.

* `Navigation.keysOf_setKeys` — what new keys replace;
* `Navigation.invalidate_leaves_iff` — when a repair leads away from the recently used emoji;
* `Picker.Strands` — new keys that lead away from a buffer;
* `Picker.Orderly`, `Picker.Orderly.react` — without them every event keeps the picks in order;
* `Picker.buffered_iff` — every run.

New keys are the one event that may redirect the cursor where no redirect is followed, which is off the
screen and under a search. They are also the one event that repairs pages before the buffer shows, so
that recently used emoji of which all are buffered look empty to it.
-/

namespace EmojiPicker

/-- What an event means for the record of picks. -/
def PickerEvent.input : PickerEvent → PickerInput
  | .pick key => .command (.pick key)
  | .choose key => .command (.choose key)
  | .setIncognito on => .command (.incognito on)
  | _ => .command .nothing

/-! ## New keys -/

namespace Navigation

variable {n m : Navigation} {id other : CategoryId} {keys : List String}

theorem lookup_replaced (entries : List (CategoryId × List String)) :
    (entries.map fun entry => if entry.1 = id then (id, keys) else entry).lookup other =
      if other = id then (entries.lookup other).map fun _ => keys else entries.lookup other := by
  induction entries with
  | nil => simp
  | cons entry rest ih =>
      rcases entry with ⟨number, old⟩
      by_cases replaced : number = id
      · by_cases asked : other = id
        · simp [replaced, asked]
        · have foreign : (other == id) = false := by simpa using asked
          simpa [replaced, asked, foreign, List.lookup_cons] using ih
      · by_cases asked : other = number
        · simp [replaced, asked]
        · have foreign : (other == number) = false := by simpa using asked
          simpa [replaced, foreign, List.lookup_cons] using ih

/-- New keys are those of their category, and the others keep theirs. -/
theorem keysOf_setKeys (accepted : n.setKeys id keys = .ok m) (other : CategoryId) :
    m.keysOf other = if other = id ∧ other.isRecents = false then keys else n.keysOf other := by
  rw [setKeys] at accepted
  split at accepted
  · next listed =>
      cases recents : other.isRecents with
      | true =>
          simp [← Except.ok.inj accepted, keysOf, recents]
      | false =>
          have found : m.keysOf other =
              (if other = id then (n.keys.lookup other).map fun _ => keys
                else n.keys.lookup other).getD [] := by
            simp [← Except.ok.inj accepted, keysOf, recents, lookup_replaced]
          by_cases asked : other = id
          · -- The category has keys that can be replaced.
            subst asked
            have some : (n.keys.lookup other).isSome = true := by
              simpa [List.lookup_isSome_iff] using listed
            rcases Option.isSome_iff_exists.1 some with ⟨old, there⟩
            simp [found, there]
          · simpa [asked, keysOf, recents] using found
  · exact absurd accepted (by simp)

theorem offers_recents (n : Navigation) :
    n.offers .recents = false ↔
      n.recents.visible = [] ∧ n.options.recentsAlwaysVisible = false := by
  simp [offers, keysOf, CategoryId.isRecents]

theorem isRecents_iff {id : CategoryId} : id.isRecents = true ↔ id = .recents := by
  simp [CategoryId.isRecents]

/-- A repair leads away from the recently used emoji exactly if they are not shown and others are. -/
theorem invalidate_leaves_iff (ordered : n.categories.Pairwise (·.displayOrder < ·.displayOrder))
    (known : n.cursor.category ∈ n.ids) (current : n.isInRecents = true) :
    n.invalidate.2.isInRecents = false ↔
      n.offers .recents = false ∧ ∃ id ∈ n.ids, n.offers id = true := by
  have here : n.cursor.category = .recents := isRecents_iff.1 current
  have counted : ∀ {id}, id ∈ n.ids → n.recount.isShown id = n.offers id := by
    intro id known
    exact n.fresh_recount.isShown_eq (by simpa [ids_recount] using known)
  have reached : ∀ {id}, n.recount.isShown id = true → id ∈ n.ids := by
    intro id shown
    simpa [ids_recount] using (arranged_recount ordered).known_of_isShown shown
  have leaves : n.invalidate.2.isInRecents = false ↔ ∃ change, n.invalidate.1 = some change := by
    rw [← Option.ne_none_iff_exists', ne_eq, ← invalidate_stays_iff ordered known, here,
      ← isRecents_iff, Bool.not_eq_true, isInRecents]
  rw [leaves, invalidate_redirects_iff ordered known, counted known, here]
  constructor
  · rintro ⟨unshown, id, _, shown⟩
    exact ⟨unshown, id, reached shown, (counted (reached shown)).symm.trans shown⟩
  · rintro ⟨unshown, id, there, offered⟩
    refine ⟨unshown, id, ?_, (counted there).trans offered⟩
    rintro rfl
    exact absurd (unshown.symm.trans offered) (by simp)

/-- The keys of every category but the recently used emoji can be replaced. -/
def Cataloged (n : Navigation) : Prop :=
  ∀ id ∈ n.ids, id.isRecents = false → n.keys.any (·.1 == id) = true

theorem Cataloged.congr (cataloged : n.Cataloged) (ids : m.ids = n.ids) (keys : m.keys = n.keys) :
    m.Cataloged := by
  simpa [Cataloged, ids, keys] using cataloged

theorem Cataloged.setKeys (cataloged : n.Cataloged) (accepted : n.setKeys id keys = .ok m) :
    m.Cataloged := by
  rw [Navigation.setKeys] at accepted
  split at accepted
  · rw [← Except.ok.inj accepted]
    intro other known foreign
    rcases List.any_eq_true.1 (cataloged other known foreign) with ⟨entry, listed, named⟩
    refine List.any_eq_true.2 ⟨_, List.mem_map_of_mem listed, ?_⟩
    -- A replaced entry keeps its number.
    split
    · next replaced => simpa [eq_of_beq replaced] using named
    · exact named
  · exact absurd accepted (by simp)

theorem cataloged_ofCatalog (catalog : Catalog) (recents : Recents) (options : PageOptions) :
    (ofCatalog catalog recents options).Cataloged := by
  intro id known foreign
  rw [ids_ofCatalog] at known
  rcases List.mem_cons.1 known with rfl | known
  · exact absurd foreign (by decide)
  · rcases List.mem_map.1 known with ⟨d, hd, rfl⟩
    have listed : (ofCatalog catalog recents options).keys =
        catalog.categories.reverse.map fun d => (d.id, d.keys) := rfl
    rw [listed, List.any_eq_true]
    exact ⟨(d.id, d.keys), List.mem_map_of_mem (List.mem_reverse.2 hd), by simp⟩

end Navigation

namespace Picker

variable {σ : Type} {p q : Picker σ} {ledger : Ledger} {id : CategoryId} {keys : List String}
  {navigation : Navigation}

/-- New keys that lead away from a buffer: off the screen or under a search a category gets keys, while
nothing is shown because all of the recently used emoji are buffered. -/
structure Strands (p : Picker σ) (id : CategoryId) (keys : List String) : Prop where
  buffered : p.navigation.recents.pending ≠ []
  unseen : p.visible = false ∨ p.search.active = true
  unshown : p.navigation.recents.visible = [] ∧ p.navigation.options.recentsAlwaysVisible = false
  supplied : id ∈ p.navigation.ids ∧ id.isRecents = false ∧ keys ≠ []

/-- While the recently used emoji are current without being shown, no category has keys. -/
theorem Paged.keysOf_eq_nil (paged : p.Paged) (current : p.navigation.isInRecents = true)
    (hidden : p.navigation.offers .recents = false) {other : CategoryId}
    (known : other ∈ p.navigation.ids) : p.navigation.keysOf other = [] := by
  by_contra some
  have stocked : p.navigation.shown ≠ [] := by
    intro none
    have there : other ∈ p.navigation.shown.map (·.id) := by
      rw [paged.fresh.shown_ids]
      exact List.mem_filter.2 ⟨known, Navigation.offers_of_keys some⟩
    simp [none] at there
  -- The cursor is on a category that is shown if any is.
  have shown := paged.placed.shown stocked
  rw [paged.fresh.isShown_eq paged.placed.known, Navigation.isRecents_iff.1 current] at shown
  exact absurd (shown.symm.trans hidden) (by simp)

/-- New keys are then all that there is to go to. -/
theorem Paged.leaves_iff (paged : p.Paged) (current : p.navigation.isInRecents = true)
    (accepted : p.navigation.setKeys id keys = .ok navigation) :
    navigation.invalidate.2.isInRecents = false ↔
      (p.navigation.recents.visible = [] ∧ p.navigation.options.recentsAlwaysVisible = false) ∧
        id ∈ p.navigation.ids ∧ id.isRecents = false ∧ keys ≠ [] := by
  have supplied := Navigation.keysOf_setKeys accepted
  rcases Navigation.setKeys_eq accepted with ⟨replaced, same⟩
  have placed : navigation.Placed := paged.placed.setKeys accepted
  have ids : navigation.ids = p.navigation.ids := by
    rw [same]
    rfl
  have here : navigation.isInRecents = true := by simpa [same, Navigation.isInRecents] using current
  have unshown : navigation.offers .recents = false ↔
      p.navigation.recents.visible = [] ∧ p.navigation.options.recentsAlwaysVisible = false := by
    simpa [same] using navigation.offers_recents
  rw [Navigation.invalidate_leaves_iff placed.ordered placed.known here, unshown, ids]
  apply and_congr_right
  intro hidden
  have empty : ∀ other ∈ p.navigation.ids, p.navigation.keysOf other = [] := fun _ known =>
    paged.keysOf_eq_nil current (p.navigation.offers_recents.2 hidden) known
  constructor
  · rintro ⟨other, known, offered⟩
    have foreign : other.isRecents = false := by
      cases recents : other.isRecents with
      | false => rfl
      | true =>
          rw [Navigation.isRecents_iff.1 recents] at offered
          exact absurd (offered.symm.trans (unshown.2 hidden)) (by simp)
    have some : navigation.keysOf other ≠ [] := by
      simpa [Navigation.offers, foreign] using offered
    rw [supplied] at some
    -- Only the category with the new keys has any.
    by_cases asked : other = id
    · subst asked
      exact ⟨known, foreign, by simpa [foreign] using some⟩
    · exact absurd (empty other known) (by simpa [asked] using some)
  · rintro ⟨known, foreign, some⟩
    refine ⟨id, known, Navigation.offers_of_keys ?_⟩
    simpa [supplied, foreign] using some

/-- New keys lead away from a buffer only where they strand it. -/
theorem Keeps.setKeys (keeps : p.Keeps ledger) (paged : p.Paged) (safe : ¬ p.Strands id keys)
    (accepted : p.setKeys id keys = .ok q) : q.Keeps ledger := by
  rcases setKeys_cases p id keys with ⟨failure, refused⟩ | ⟨navigation, _, counted, _, _⟩
  · exact absurd (refused.symm.trans accepted) (by simp)
  rcases displays_setKeys counted with ⟨r, same, shown⟩
  obtain rfl : r = q := Except.ok.inj (same.symm.trans accepted)
  rcases Navigation.setKeys_eq counted with ⟨replaced, kept⟩
  have recents : navigation.invalidate.2.recents = p.navigation.recents := by
    simp [Navigation.invalidate_recents, kept]
  have agrees : Agrees { p with
      navigation := navigation.invalidate.2, index := p.index.invalidate } ledger :=
    keeps.toAgrees.congr recents rfl rfl
  refine Keeps.displays ?_ shown
  split
  · -- On the screen a redirect is followed, which ends the buffer that it leaves.
    have waiting : navigation.invalidate.2.recents.pending = [] ∨
        navigation.cursor.category.isRecents = true := by
      simpa [Navigation.invalidate_recents, kept, Navigation.isInRecents] using keeps.waiting
    rcases navigation.invalidate_cases with ⟨page, stays⟩ | ⟨target, page, remembered, moves⟩
    · refine ⟨by simpa [stays, followed] using agrees, ?_⟩
      simpa [stays, followed, Navigation.isInRecents, Navigation.recount] using waiting
    · have target : target = navigation.invalidate.2.cursor.category := by simp [moves]
      simpa [moves, followed] using agrees.afterChange waiting
  · next unseen =>
      refine ⟨agrees, ?_⟩
      by_contra lost
      rw [not_or] at lost
      have buffered : p.navigation.recents.pending ≠ [] := by simpa [recents] using lost.1
      have left : navigation.invalidate.2.isInRecents = false := by simpa using lost.2
      rcases (paged.leaves_iff (keeps.waiting.resolve_left buffered) counted).1 left with
        ⟨unshown, supplied⟩
      refine safe ⟨buffered, ?_, unshown, supplied⟩
      cases visible : p.visible with
      | false => exact Or.inl rfl
      | true => simpa [visible] using unseen

/-- New keys that strand a buffer are accepted, and the cursor is somewhere else afterwards. -/
theorem Strands.leaves [DictionaryStore σ] (strands : p.Strands id keys) (paged : p.Paged)
    (cataloged : p.navigation.Cataloged) (current : p.navigation.isInRecents = true) :
    (p.react (.setKeys id keys)).navigation.recents.pending ≠ [] ∧
      (p.react (.setKeys id keys)).navigation.isInRecents = false := by
  have listed := cataloged id strands.supplied.1 strands.supplied.2.1
  have counted : ∃ navigation, p.navigation.setKeys id keys = .ok navigation := by
    simp [Navigation.setKeys, listed]
  rcases counted with ⟨navigation, counted⟩
  rcases displays_setKeys counted with ⟨q, accepted, shown⟩
  rcases Navigation.setKeys_eq counted with ⟨replaced, kept⟩
  have unseen : (p.visible && ! p.search.active) = false := by
    rcases strands.unseen with hidden | searching
    · simp [hidden]
    · simp [searching]
  have navigated : q.navigation = navigation.invalidate.2 := by
    rcases shown with ⟨events, same, _⟩
    simp [same, unseen]
  have reacted : p.react (.setKeys id keys) = q := by simp [react, accepted]
  rw [reacted, navigated]
  refine ⟨?_, (paged.leaves_iff current counted).2 ⟨strands.unshown, strands.supplied⟩⟩
  simpa [Navigation.invalidate_recents, kept] using strands.buffered

/-! ## Every event -/

/-- The picks are kept in order, whatever was saved when. -/
def Orderly (p : Picker σ) (ledger : Ledger) : Prop :=
  ∃ saved, p.Keeps { ledger with saved := saved }

section Events

variable [DictionaryStore σ] {recording rekeying : Bool}

/-- Unless new keys strand a buffer, an event keeps the picks in order. -/
theorem Orderly.react (orderly : p.Orderly ledger) (paged : p.Paged) (event : PickerEvent)
    (safe : ∀ id keys, event = .setKeys id keys → ¬ p.Strands id keys) :
    (p.react event).Orderly (ledger.follow event.input) := by
  rcases orderly with ⟨saved, keeps⟩
  cases event with
  | start locale => exact ⟨saved, keeps.start locale⟩
  | stop => exact ⟨saved, keeps.hide⟩
  | hide => exact ⟨saved, keeps.hide⟩
  | render => exact ⟨saved, keeps.displays (displays_render p)⟩
  | clickTab tab => exact ⟨saved, keeps.clickTab tab⟩
  | swipe position => exact ⟨saved, keeps.swipe position⟩
  | scroll report => exact ⟨saved, keeps.scroll report⟩
  | leave id => exact ⟨saved, keeps.leave id⟩
  | flushRecents => exact ⟨saved, keeps.flushRecents⟩
  | pick key =>
      have entered := ledger.follow_withSaved saved (.command (.pick key))
      exact ⟨saved, entered ▸ keeps.pick key⟩
  | enterSearch => exact ⟨saved, keeps.enterSearch⟩
  | exitSearch => exact ⟨saved, keeps.exitSearch⟩
  | query text => exact ⟨saved, keeps.query text⟩
  | choose key =>
      have entered := ledger.follow_withSaved saved (.command (.choose key))
      exact ⟨saved, entered ▸ keeps.choose key⟩
  | find text => exact ⟨saved, keeps.congr rfl rfl rfl rfl⟩
  | changeLocale locale => exact ⟨saved, keeps.changeLocale locale⟩
  | requestDownload => exact ⟨saved, keeps.requestDownload⟩
  | completeDownload outcome => exact ⟨saved, keeps.completeDownload outcome⟩
  | clearCache => exact ⟨saved, keeps.clearCache⟩
  | setKeys id keys =>
      rw [Picker.react]
      split
      · next accepted => exact ⟨saved, keeps.setKeys paged (safe id keys rfl) accepted⟩
      · exact ⟨saved, keeps⟩
  | setIncognito on => exact ⟨saved, keeps.setIncognito on⟩
  | takeDirty => exact ⟨_, keeps.resaved rfl rfl⟩

theorem cataloged_step (cataloged : p.navigation.Cataloged) (step : Step recording rekeying p q) :
    q.navigation.Cataloged := by
  rcases step.catalog_cases with ⟨ids, keys⟩ | ⟨_, _, _, navigation, accepted, same⟩
  · exact cataloged.congr ids keys
  · have replaced := cataloged.setKeys accepted
    rw [same]
    exact replaced.congr navigation.invalidate_ids navigation.invalidate_keys

theorem cataloged_steps (cataloged : p.navigation.Cataloged) (steps : Steps recording rekeying p q) :
    q.navigation.Cataloged := by
  induction steps with
  | refl => exact cataloged
  | tail _ step before => exact cataloged_step before step

theorem cataloged_run (cataloged : p.navigation.Cataloged) (events : List PickerEvent) :
    (p.run events).navigation.Cataloged := by
  induction events generalizing p with
  | nil => exact cataloged
  | cons event rest ih => exact ih (cataloged_steps cataloged (p.steps_react event))

/-- While nothing is stranded, the picks of a run are kept in order. -/
theorem Orderly.run (orderly : p.Orderly ledger) (paged : p.Paged) (events : List PickerEvent)
    (safe : ∀ past id keys, past ++ [.setKeys id keys] <+: events → ¬ (p.run past).Strands id keys) :
    (p.run events).Orderly ((events.map (·.input)).foldl Ledger.follow ledger) := by
  -- From the end, since whether an event strands a buffer depends on all events before it.
  induction events using List.reverseRecOn with
  | nil => exact orderly
  | append_singleton past event ih =>
      have before : past <+: past ++ [event] := List.prefix_append past [event]
      have kept := ih fun first id keys inside => safe first id keys (inside.trans before)
      have safely : ∀ id keys, event = .setKeys id keys → ¬ (p.run past).Strands id keys := by
        rintro id keys rfl
        exact safe past id keys List.prefix_rfl
      simpa [run_concat] using kept.react (paged.run past) event safely

/-! ## Every run -/

/-- In a run picks are buffered only while the recently used emoji are the current category exactly if no
new keys strand a buffer, that is, unless a category gets keys off the screen or under a search, while the
recently used emoji have no tab because all of them are buffered.

In such a run no pick overtakes another. The recently used emoji are those of the picks in their order,
whether they were buffered or not. -/
theorem buffered_iff (catalog : Catalog) (capacity : Nat) (restored : List String)
    (pages : PageOptions) (store : σ) (switches : PickerOptions) (events : List PickerEvent) :
    let recents := (Recents.empty capacity).restore restored
    let start := new (Navigation.ofCatalog catalog recents pages) store switches
    let unstranded := ∀ past id keys,
      past ++ [.setKeys id keys] <+: events → ¬ (start.run past).Strands id keys
    ((∀ past, past <+: events → (start.run past).navigation.recents.pending ≠ [] →
        (start.run past).navigation.isInRecents = true) ↔ unstranded) ∧
      (unstranded →
        (start.run events).navigation.recents.flushed =
          recalled recents.capacity recents.visible
            (PickerInput.recorded switches.incognito (events.map (·.input)))) := by
  intro recents start unstranded
  have paged : start.Paged := paged_new catalog recents pages store switches
  have cataloged : start.navigation.Cataloged :=
    Navigation.cataloged_ofCatalog catalog recents pages
  let kept : Ledger := ⟨recents.capacity, recents.visible, switches.incognito, recents.visible⟩
  have begun : start.Keeps kept := keeps_restored catalog capacity restored pages store switches
  have orderly : start.Orderly kept := ⟨recents.visible, begun⟩
  refine ⟨⟨?_, ?_⟩, ?_⟩
  · -- New keys that strand a buffer are seen at the next moment.
    intro waiting past id keys inside strands
    have before := waiting past ((List.prefix_append past _).trans inside) strands.buffered
    have after := waiting _ inside
    rcases strands.leaves (paged.run past) (cataloged_run cataloged past) before with
      ⟨buffered, left⟩
    rw [run_concat] at after
    exact absurd ((after buffered).symm.trans left) (by simp)
  · intro safe past inside buffered
    have later := orderly.run paged past fun first id keys within =>
      safe first id keys (within.trans inside)
    rcases later with ⟨saved, keeps⟩
    exact keeps.waiting.resolve_left buffered
  · intro safe
    rcases orderly.run paged events safe with ⟨saved, keeps⟩
    have once : kept.keys.Nodup := begun.sound.visible_nodup
    have fits : kept.keys.length ≤ kept.capacity := begun.sound.visible_le
    exact keeps.flushed.trans (kept.foldl_follow_keys recents.capacity_pos once fits _)

/-- New keys under a search, with a pick in the buffer. The recently used emoji are still shown, so that
the buffer ends with the next tab. -/
theorem buffered_iff_searching :
    let start := new
      (Navigation.ofCatalog ⟨[⟨⟨1⟩, "faces", ["😀", "🐶"]⟩]⟩ ((Recents.empty 8).restore ["🐱"])
        (.ofCapacity 2 false))
      (⟨⟨"dicts"⟩, {}⟩ : DictionaryCache) ⟨false, true, true, true, none⟩
    let searching : List PickerEvent :=
      [.start "en", .clickTab (.category .recents), .pick "😀", .enterSearch, .setKeys ⟨1⟩ ["🍏"]]
    let events := searching ++ [.exitSearch, .clickTab (.category ⟨1⟩), .pick "🐶"]
    (start.run searching).navigation.recents.pending = ["😀"] ∧
      (∀ past id keys, past ++ [.setKeys id keys] <+: events → ¬ (start.run past).Strands id keys) ∧
      (start.run events).navigation.recents.flushed = ["🐶", "😀", "🐱"] := by
  intro start searching events
  have law := buffered_iff ⟨[⟨⟨1⟩, "faces", ["😀", "🐶"]⟩]⟩ 8 ["🐱"] (.ofCapacity 2 false)
    (⟨⟨"dicts"⟩, {}⟩ : DictionaryCache) ⟨false, true, true, true, none⟩ events
  extract_lets at law
  have waiting : ∀ past ∈ events.inits, (start.run past).navigation.recents.pending ≠ [] →
      (start.run past).navigation.isInRecents = true := by
    decide +kernel
  have unstranded := law.1.1 fun past inside => waiting past ((List.mem_inits _ _).2 inside)
  have buffered : (start.run searching).navigation.recents.pending = ["😀"] := by decide +kernel
  have ordered := law.2 unstranded
  refine ⟨buffered, unstranded, ?_⟩
  rw [ordered]
  decide +kernel

/-- New keys under a search, while all of the recently used emoji are buffered. The cursor goes to the
new keys, the buffer stays, and its pick overtakes a later one in the end. -/
theorem buffer_stranded :
    let start := new
      (Navigation.ofCatalog ⟨[⟨⟨1⟩, "faces", []⟩]⟩ ((Recents.empty 8).restore []) (.ofCapacity 2 false))
      (⟨⟨"dicts"⟩, {}⟩ : DictionaryCache) ⟨false, true, true, true, none⟩
    let rekeyed : List PickerEvent :=
      [.start "en", .pick "😀", .enterSearch, .setKeys ⟨1⟩ ["🐶"]]
    let events := rekeyed ++ [.exitSearch, .pick "🐱", .hide]
    (start.run rekeyed).navigation.recents.pending = ["😀"] ∧
      (start.run rekeyed).navigation.isInRecents = false ∧
      recalled 8 [] (PickerInput.recorded false (events.map (·.input))) = ["🐱", "😀"] ∧
      (start.run events).navigation.recents.visible = ["😀", "🐱"] := by
  decide +kernel

end Events

end Picker
end EmojiPicker

import EmojiPicker.Dictionary.Cache
import EmojiPicker.Dictionary.Lifecycle
import EmojiPicker.Proofs.Text.Settled

/-!
# One published dictionary

Calls on the lifecycle, in any order and over any store, leave one dictionary open at most.

* `LifecycleCall`, `Lifecycle.perform` — runs of calls;
* `Lifecycle.Tidy` — nothing but the published dictionary is open;
* `Lifecycle.Sound` — also, the published dictionary is that of the active locale;
* `Lifecycle.install_cases` — what an installation may do;
* `Lifecycle.Sound.perform`, `Lifecycle.Sound.performAll` — every call and every run;
* `Lifecycle.one_dictionary_open` — what that says of states, handles and locales.

Inside a call the active locale is ahead of the published dictionary. So `Tidy` is what holds at
every moment, and `Sound` what holds between calls.
-/

namespace EmojiPicker

/-- Opening gives an open dictionary of the locale that it was asked for. -/
def OpensFresh (σ : Type) [DictionaryStore σ] : Prop :=
  ∀ (store : σ) (path : Path) (locale : String) (d : EmojiDictionary),
    (DictionaryStore.openAt store path locale).1 = .ok d →
    d.isOpen = true ∧ d.locale = Locale.normalize locale

/-- What is read from a file is open, and of the locale that it is read for. -/
theorem DictionaryCache.opensFresh : OpensFresh DictionaryCache := by
  intro cache path locale d opened
  have answer : cache.openAt path locale = .ok d := opened
  rw [DictionaryCache.openAt] at answer
  split at answer
  · exact absurd answer (by simp)
  · rw [EmojiDictionary.parse] at answer
    split at answer
    · exact absurd answer (by simp)
    · obtain rfl := Except.ok.inj answer
      exact ⟨rfl, rfl⟩

/-- A call on the lifecycle. -/
inductive LifecycleCall where
  | ensure (locale : String)
  | close
  | install (bytes : List UInt8) (locale : String)

namespace Lifecycle

variable {σ : Type} {l m : Lifecycle σ}

/-! ## What is open -/

/-- Nothing but the published dictionary is open. -/
def Tidy (l : Lifecycle σ) : Prop :=
  ∀ (index : Nat) (d : EmojiDictionary), l.issued[index]? = some d → d.isOpen = true → l.published = some index

/-- Nothing is open. -/
def AllClosed (l : Lifecycle σ) : Prop :=
  ∀ (index : Nat) (d : EmojiDictionary), l.issued[index]? = some d → d.isOpen = false

/-- Every issued dictionary is still there, closed at worst. -/
def Keeps (l m : Lifecycle σ) : Prop :=
  ∀ (index : Nat) (d : EmojiDictionary), l.issued[index]? = some d →
    m.issued[index]? = some d ∨ m.issued[index]? = some d.close

/-- The store may have changed, and what was asked of it, but nothing else. -/
structure Undisturbed (l m : Lifecycle σ) : Prop where
  issued : m.issued = l.issued
  published : m.published = l.published
  state : m.state = l.state
  activeLocale : m.activeLocale = l.activeLocale

theorem Undisturbed.trans {k : Lifecycle σ} (first : Undisturbed k l) (second : Undisturbed l m) :
    Undisturbed k m :=
  ⟨second.issued.trans first.issued, second.published.trans first.published,
    second.state.trans first.state, second.activeLocale.trans first.activeLocale⟩

theorem Tidy.of_allClosed (closed : l.AllClosed) : l.Tidy := by
  intro index d member opened
  rw [closed index d member] at opened
  exact absurd opened (by simp)

theorem Tidy.undisturbed (tidy : l.Tidy) (same : Undisturbed l m) : m.Tidy := by
  intro index d member opened
  rw [same.issued] at member
  rw [same.published]
  exact tidy index d member opened

theorem keeps_of_issued (same : m.issued = l.issued) : Keeps l m := by
  intro index d member
  rw [same]
  exact Or.inl member

theorem Keeps.trans {k : Lifecycle σ} (first : Keeps k l) (second : Keeps l m) : Keeps k m := by
  intro index d member
  rcases first index d member with same | closed
  · exact second index d same
  · -- Closing twice is closing once.
    have : m.issued[index]? = some d.close := by
      rcases second index d.close closed with same | again
      · exact same
      · exact again
    exact Or.inr this

theorem current?_undisturbed (same : Undisturbed l m) : m.current? = l.current? := by
  rw [current?, current?, same.published, same.issued]

theorem current?_eq_some {d : EmojiDictionary} (h : l.current? = some d) :
    ∃ index, l.published = some index ∧ l.issued[index]? = some d ∧ d.isOpen = true := by
  rw [current?, Option.filter_eq_some_iff, Option.bind_eq_some_iff] at h
  rcases h with ⟨⟨index, published, member⟩, opened⟩
  exact ⟨index, published, member, opened⟩

/-! ## Withdrawing and publishing -/

theorem withdraw_published (l : Lifecycle σ) (state : DictionaryState) :
    (l.withdraw state).published = none := rfl

theorem withdraw_state (l : Lifecycle σ) (state : DictionaryState) :
    (l.withdraw state).state = state := rfl

theorem withdraw_activeLocale (l : Lifecycle σ) (state : DictionaryState) :
    (l.withdraw state).activeLocale = l.activeLocale := by
  rw [withdraw]
  cases l.published <;> rfl

theorem withdraw_issued (l : Lifecycle σ) (state : DictionaryState) :
    (l.withdraw state).issued =
      match l.published with
      | some index => l.issued.modify index EmojiDictionary.close
      | none => l.issued := by
  rw [withdraw]
  cases l.published <;> rfl

theorem allClosed_withdraw (tidy : l.Tidy) (state : DictionaryState) :
    (l.withdraw state).AllClosed := by
  intro index d member
  rw [withdraw_issued] at member
  cases published : l.published with
  | none =>
      rw [published] at member
      cases opened : d.isOpen with
      | false => rfl
      | true =>
          have := tidy index d member opened
          rw [published] at this
          exact absurd this (by simp)
  | some current =>
      -- The published dictionary is closed here, and the others were closed before.
      rw [published] at member
      simp only [List.getElem?_modify] at member
      rcases Option.map_eq_some_iff.1 member with ⟨old, was, now⟩
      by_cases same : current = index
      · rw [if_pos same] at now
        rw [← now]
        rfl
      · rw [if_neg same] at now
        subst now
        cases opened : old.isOpen with
        | false => rfl
        | true =>
            have := tidy index old was opened
            rw [published] at this
            exact absurd (Option.some.inj this) same

theorem keeps_withdraw (l : Lifecycle σ) (state : DictionaryState) : Keeps l (l.withdraw state) := by
  intro index d member
  rw [withdraw_issued]
  cases l.published with
  | none => exact Or.inl member
  | some current =>
      simp only [List.getElem?_modify, member]
      by_cases same : current = index
      · exact Or.inr (by simp [same])
      · exact Or.inl (by simp [same])

theorem publish_issued (l : Lifecycle σ) (d : EmojiDictionary) :
    (l.publish d).issued = (l.withdraw .ready).issued ++ [d] := rfl

theorem publish_published (l : Lifecycle σ) (d : EmojiDictionary) :
    (l.publish d).published = some (l.withdraw .ready).issued.length := rfl

theorem tidy_publish (tidy : l.Tidy) (d : EmojiDictionary) : (l.publish d).Tidy := by
  intro index e member opened
  rw [publish_published]
  rw [publish_issued] at member
  -- Whatever was issued before is closed, so the open one is the last.
  rcases Nat.lt_trichotomy index (l.withdraw .ready).issued.length with before | same | behind
  · rw [List.getElem?_append_left before] at member
    rw [allClosed_withdraw tidy .ready index e member] at opened
    exact absurd opened (by simp)
  · rw [same]
  · rw [List.getElem?_eq_none (by simp; omega)] at member
    exact absurd member (by simp)

theorem keeps_publish (l : Lifecycle σ) (d : EmojiDictionary) : Keeps l (l.publish d) := by
  intro index e member
  rw [publish_issued]
  rcases keeps_withdraw l .ready index e member with same | closed
  · have before := (List.getElem?_eq_some_iff.1 same).1
    exact Or.inl (by rw [List.getElem?_append_left before, same])
  · have before := (List.getElem?_eq_some_iff.1 closed).1
    exact Or.inr (by rw [List.getElem?_append_left before, closed])

/-! ## Between calls -/

/-- Nothing but the published dictionary is open, that one is open and of the active locale, and the
state says whether there is one. -/
structure Sound (l : Lifecycle σ) : Prop where
  tidy : l.Tidy
  settled : l.state ≠ .loading
  ready : l.state = .ready ↔ l.published.isSome = true
  /-- The locales are compared as they are, since both are in normal form. -/
  published : ∀ index, l.published = some index →
    ∃ d, l.issued[index]? = some d ∧ d.isOpen = true ∧ l.activeLocale = some d.locale ∧
      Locale.normalize d.locale = d.locale

theorem sound_withdraw (tidy : l.Tidy) : (l.withdraw .absent).Sound where
  tidy := Tidy.of_allClosed (allClosed_withdraw tidy .absent)
  settled := by simp [withdraw_state]
  ready := by simp [withdraw_state, withdraw_published]
  published := by simp [withdraw_published]

theorem sound_publish (tidy : l.Tidy) {d : EmojiDictionary} (opened : d.isOpen = true)
    (active : l.activeLocale = some d.locale) (normal : Locale.normalize d.locale = d.locale) :
    (l.publish d).Sound where
  tidy := tidy_publish tidy d
  settled := by simp [publish, withdraw_state]
  ready := by simp [publish, withdraw_state]
  published := by
    intro index published
    rw [publish_published] at published
    obtain rfl := Option.some.inj published
    have locale : (l.publish d).activeLocale = l.activeLocale := withdraw_activeLocale l .ready
    refine ⟨d, ?_, opened, locale.trans active, normal⟩
    rw [publish_issued]
    simp

theorem Sound.undisturbed (sound : l.Sound) (same : Undisturbed l m) : m.Sound where
  tidy := sound.tidy.undisturbed same
  settled := by
    rw [same.state]
    exact sound.settled
  ready := by
    rw [same.state, same.published]
    exact sound.ready
  published := by
    rw [same.published, same.issued, same.activeLocale]
    exact sound.published

theorem sound_new (store : σ) : Sound { store := store } where
  tidy := by simp [Tidy]
  settled := by simp
  ready := by simp
  published := by simp

theorem Sound.current? (sound : l.Sound) {index : Nat} (published : l.published = some index) :
    ∃ d, l.issued[index]? = some d ∧ l.current? = some d := by
  rcases sound.published index published with ⟨d, member, opened, _⟩
  refine ⟨d, member, ?_⟩
  rw [Lifecycle.current?, published]
  simp [member, opened]

/-! ## Calls -/

section Calls

variable [DictionaryStore σ]

theorem undisturbed_resolve (l : Lifecycle σ) (locale : String) :
    Undisturbed l (l.resolve locale).2 :=
  ⟨rfl, rfl, rfl, rfl⟩

theorem undisturbed_openAt (l : Lifecycle σ) (path : Path) (locale : String) :
    Undisturbed l (l.openAt path locale).2 :=
  ⟨rfl, rfl, rfl, rfl⟩

theorem undisturbed_move (l : Lifecycle σ) (bytes : List UInt8) (locale : String) :
    Undisturbed l (l.move bytes locale).2 :=
  ⟨rfl, rfl, rfl, rfl⟩

/-- What the lifecycle opens is what its store opens. -/
theorem openAt_fst (l : Lifecycle σ) (path : Path) (locale : String) :
    (l.openAt path locale).1 = (DictionaryStore.openAt l.store path locale).1 := rfl

/-- Loading ends with no dictionary, or with one that the store opened for the locale. -/
theorem load_cases (l : Lifecycle σ) (locale : String) :
    ∃ asked, Undisturbed (l.withdraw .loading) asked ∧
      (l.load locale = asked.withdraw .absent ∨
        ∃ (store : σ) (path : Path) (d : EmojiDictionary),
          (DictionaryStore.openAt store path locale).1 = .ok d ∧
            l.load locale = asked.publish d) := by
  rw [load]
  have resolved := undisturbed_resolve (l.withdraw .loading) locale
  rcases found : (l.withdraw .loading).resolve locale with ⟨path, looked⟩
  rw [found] at resolved
  cases path with
  | none =>
      exact ⟨looked, resolved, Or.inl rfl⟩
  | some path =>
      have opened := undisturbed_openAt looked path locale
      have same := openAt_fst looked path locale
      rcases answer : looked.openAt path locale with ⟨result, asked⟩
      rw [answer] at opened same
      refine ⟨asked, resolved.trans opened, ?_⟩
      cases result with
      | error failure =>
          exact Or.inl (by simp only [answer])
      | ok d =>
          exact Or.inr ⟨looked.store, path, d, same.symm, by simp only [answer]⟩

/-- A locale that is served already keeps its dictionary; any other is loaded. -/
theorem ensure_cases (l : Lifecycle σ) (locale : String) :
    (∃ d, l.current? = some d ∧ d.serves (Locale.normalize locale) = true ∧
        l.ensure locale = { l with activeLocale := some (Locale.normalize locale) }) ∨
      l.ensure locale =
        load { l with activeLocale := some (Locale.normalize locale) } (Locale.normalize locale) := by
  rw [ensure]
  split
  · next served =>
      rcases (Option.any_eq_true _ _).1 served with ⟨d, current, serves⟩
      exact Or.inl ⟨d, current, serves, rfl⟩
  · exact Or.inr rfl

/-- An installation changes what is published only when it succeeds, and then to what the store
opened for the active locale. -/
theorem install_cases (l : Lifecycle σ) (bytes : List UInt8) (locale : String) :
    ((∀ path, (l.install bytes locale).1 ≠ .ok (.installed path)) ∧
        Undisturbed l (l.install bytes locale).2) ∨
      ∃ asked, Undisturbed l asked ∧ l.activeLocale = some (Locale.normalize locale) ∧
        ∃ (store : σ) (path : Path) (d : EmojiDictionary),
          (DictionaryStore.openAt store path (Locale.normalize locale)).1 = .ok d ∧
            l.install bytes locale = (.ok (.installed path), asked.publish d) := by
  have still : Undisturbed l l := ⟨rfl, rfl, rfl, rfl⟩
  rw [install]
  split
  · exact Or.inl ⟨by simp, still⟩
  · next active =>
      have active : l.activeLocale = some (Locale.normalize locale) := by simpa using active
      split
      · exact Or.inl ⟨by simp, still⟩
      · rw [replace]
        have moved := undisturbed_move l bytes (Locale.normalize locale)
        rcases stored : l.move bytes (Locale.normalize locale) with ⟨path, kept⟩
        rw [stored] at moved
        cases path with
        | error failure =>
            exact Or.inl ⟨by simp, moved⟩
        | ok path =>
            have opened := undisturbed_openAt kept path (Locale.normalize locale)
            have same := openAt_fst kept path (Locale.normalize locale)
            rcases answer : kept.openAt path (Locale.normalize locale) with ⟨result, asked⟩
            rw [answer] at opened same
            cases result with
            | error failure =>
                exact Or.inl ⟨by simp [answer], by simpa only [answer] using moved.trans opened⟩
            | ok d =>
                exact Or.inr ⟨asked, moved.trans opened, active, kept.store, path, d, same.symm,
                  by simp only [answer]⟩

/-! ## Runs -/

/-- The lifecycle after a call. -/
def perform (l : Lifecycle σ) : LifecycleCall → Lifecycle σ
  | .ensure locale => l.ensure locale
  | .close => l.close
  | .install bytes locale => (l.install bytes locale).2

/-- The lifecycle after some calls. -/
def performAll (l : Lifecycle σ) (calls : List LifecycleCall) : Lifecycle σ :=
  calls.foldl perform l

theorem sound_load (fresh : OpensFresh σ) (tidy : l.Tidy) {locale : String}
    (active : l.activeLocale = some locale) (normal : Locale.normalize locale = locale) :
    (l.load locale).Sound := by
  rcases load_cases l locale with ⟨asked, same, absent | ⟨store, path, d, opened, published⟩⟩
  · rw [absent]
    exact sound_withdraw ((Tidy.of_allClosed (allClosed_withdraw tidy _)).undisturbed same)
  · rcases fresh store path locale d opened with ⟨isOpen, serves⟩
    rw [normal] at serves
    rw [published]
    refine sound_publish ?_ isOpen ?_ ?_
    · exact (Tidy.of_allClosed (allClosed_withdraw tidy _)).undisturbed same
    · rw [same.activeLocale, withdraw_activeLocale, active, serves]
    · rw [serves, normal]

theorem Sound.ensure (fresh : OpensFresh σ) (sound : l.Sound) (locale : String) :
    (l.ensure locale).Sound := by
  have normal := Locale.normalize_normalize locale
  rcases ensure_cases l locale with ⟨d, current, serves, same⟩ | same
  · rw [same]
    rcases current?_eq_some current with ⟨index, published, member, opened⟩
    refine ⟨sound.tidy, sound.settled, sound.ready, ?_⟩
    intro other also
    rcases sound.published other also with ⟨e, found, isOpen, _, form⟩
    -- Only the active locale is new, and it is the published dictionary that serves it.
    have e_eq : e = d := by
      obtain rfl : index = other := Option.some.inj (published.symm.trans also)
      exact Option.some.inj (found.symm.trans member)
    refine ⟨e, found, isOpen, ?_, form⟩
    -- The dictionary serves the locale in normal form, and its own locale is in normal form too.
    have agree : Locale.normalize d.locale = Locale.normalize (Locale.normalize locale) := by
      simpa [EmojiDictionary.serves, Locale.agree] using serves
    rw [e_eq] at form ⊢
    rw [form, normal] at agree
    rw [agree]
  · -- The active locale is ahead of the published dictionary, which loading takes away first.
    rw [same]
    have tidy : Tidy { l with activeLocale := some (Locale.normalize locale) } := sound.tidy
    exact sound_load fresh tidy rfl normal

theorem Sound.install (fresh : OpensFresh σ) (sound : l.Sound) (bytes : List UInt8)
    (locale : String) : (l.install bytes locale).2.Sound := by
  rcases install_cases l bytes locale with
    ⟨_, same⟩ | ⟨asked, same, active, store, path, d, opened, published⟩
  · exact sound.undisturbed same
  · rcases fresh store path _ d opened with ⟨isOpen, serves⟩
    rw [Locale.normalize_normalize] at serves
    rw [published]
    refine sound_publish (sound.tidy.undisturbed same) isOpen ?_ ?_
    · rw [same.activeLocale, active, serves]
    · rw [serves, Locale.normalize_normalize]

theorem Sound.perform (fresh : OpensFresh σ) (sound : l.Sound) (call : LifecycleCall) :
    (l.perform call).Sound := by
  cases call with
  | ensure locale => exact sound.ensure fresh locale
  | close => exact sound_withdraw sound.tidy
  | install bytes locale => exact sound.install fresh bytes locale

theorem Sound.performAll (fresh : OpensFresh σ) (sound : l.Sound) (calls : List LifecycleCall) :
    (l.performAll calls).Sound := by
  induction calls generalizing l with
  | nil => exact sound
  | cons call rest ih => exact ih (sound.perform fresh call)

theorem keeps_load (l : Lifecycle σ) (locale : String) : Keeps l (l.load locale) := by
  rcases load_cases l locale with ⟨asked, same, outcome⟩
  have asking : Keeps l asked := (keeps_withdraw l .loading).trans (keeps_of_issued same.issued)
  rcases outcome with absent | ⟨_, _, d, _, published⟩
  · rw [absent]
    exact asking.trans (keeps_withdraw asked .absent)
  · rw [published]
    exact asking.trans (keeps_publish asked d)

theorem keeps_perform (l : Lifecycle σ) (call : LifecycleCall) : Keeps l (l.perform call) := by
  cases call with
  | close => exact keeps_withdraw l .absent
  | ensure locale =>
      rcases ensure_cases l locale with ⟨_, _, _, same⟩ | same
      · rw [perform, same]
        exact keeps_of_issued rfl
      · rw [perform, same]
        have begun : Keeps l { l with activeLocale := some (Locale.normalize locale) } :=
          keeps_of_issued rfl
        exact begun.trans (keeps_load _ _)
  | install bytes locale =>
      rw [perform]
      rcases install_cases l bytes locale with ⟨_, same⟩ | ⟨asked, same, _, _, _, d, _, published⟩
      · exact keeps_of_issued same.issued
      · rw [published]
        exact (keeps_of_issued same.issued).trans (keeps_publish asked d)

theorem keeps_performAll (l : Lifecycle σ) (calls : List LifecycleCall) :
    Keeps l (l.performAll calls) := by
  induction calls generalizing l with
  | nil => exact keeps_of_issued rfl
  | cons call rest ih => exact (keeps_perform l call).trans (ih (l.perform call))

theorem performAll_append (l : Lifecycle σ) (past future : List LifecycleCall) :
    l.performAll (past ++ future) = (l.performAll past).performAll future := by
  rw [performAll, List.foldl_append]
  rfl

/-- After every run the state is settled and says whether a dictionary answers; that one is open and
of the active locale; and every other dictionary that was ever published is closed and answers
nothing, so that one at most is open. -/
theorem one_dictionary_open (fresh : OpensFresh σ) (store : σ) (calls : List LifecycleCall) :
    let after (calls : List LifecycleCall) : Lifecycle σ := performAll { store := store } calls
    let l := after calls
    (l.state = .absent ∨ l.state = .ready) ∧
      (l.state = .ready ↔ l.current?.isSome = true) ∧
      (∀ d, l.current? = some d →
        d.isOpen = true ∧ l.activeLocale = some (Locale.normalize d.locale)) ∧
      (∀ (past future : List LifecycleCall) (index : Nat) (d : EmojiDictionary), calls = past ++ future →
        (after past).published = some index → (after past).issued[index]? = some d →
        l.published ≠ some index →
          l.issued[index]? = some d.close ∧
            ∀ word, d.close.entry? word = none ∧ d.close.description? word = none) ∧
      ∀ (i j : Nat) (d e : EmojiDictionary), l.issued[i]? = some d → l.issued[j]? = some e →
        d.isOpen = true → e.isOpen = true → i = j := by
  intro after l
  have sound : l.Sound := (sound_new store).performAll fresh calls
  refine ⟨?_, ?_, ?_, ?_, ?_⟩
  · cases state : l.state with
    | absent => exact Or.inl rfl
    | ready => exact Or.inr rfl
    | loading => exact absurd state sound.settled
  · rw [sound.ready]
    cases published : l.published with
    | none =>
        simp [Lifecycle.current?, published]
    | some index =>
        rcases sound.current? published with ⟨d, _, current⟩
        simp [current]
  · intro d current
    rcases current?_eq_some current with ⟨index, published, member, opened⟩
    rcases sound.published index published with ⟨e, found, _, active, normal⟩
    obtain rfl : e = d := Option.some.inj (found.symm.trans member)
    rw [normal]
    exact ⟨opened, active⟩
  · intro past future index d whole published member replaced
    have later : l = (after past).performAll future := by
      rw [← performAll_append, ← whole]
    have kept := keeps_performAll (after past) future index d member
    rw [← later] at kept
    refine ⟨?_, fun word => ⟨rfl, rfl⟩⟩
    rcases kept with same | closed
    · -- Were it still open it would be the published one.
      cases opened : d.isOpen with
      | true => exact absurd (sound.tidy index d same opened) replaced
      | false =>
          have still : d.close = d := by rw [EmojiDictionary.close, ← opened]
          rw [still]
          exact same
    · exact closed
  · intro i j d e hd he opened alsoOpened
    have first := sound.tidy i d hd opened
    have second := sound.tidy j e he alsoOpened
    exact Option.some.inj (first.symm.trans second)

/-- A dictionary on a disk gives way to that of another locale, spelled with some freedom. -/
theorem one_dictionary_open_swap :
    let english : List LifecycleCall := [.ensure "en", .install [123, 125] "EN"]
    let austrian : List LifecycleCall := [.ensure " de-AT ", .install [123, 125] "de_at"]
    let start : Lifecycle DictionaryCache := { store := ⟨⟨"dicts"⟩, {}⟩ }
    let l := performAll start (english ++ austrian)
    OpensFresh DictionaryCache ∧
      (performAll start english).published = some 0 ∧
      l.published = some 1 ∧
      l.state = .ready ∧
      l.issued[0]? = some ⟨"en", ⟨"dicts/en/emoji_en.dict"⟩, [], false⟩ ∧
      l.issued[1]? = some ⟨"de_at", ⟨"dicts/de_at/emoji_de.dict"⟩, [], true⟩ ∧
      l.activeLocale = some "de_at" := by
  intro english austrian start l
  have law := one_dictionary_open DictionaryCache.opensFresh
    (⟨⟨"dicts"⟩, {}⟩ : DictionaryCache) (english ++ austrian)
  have first : (performAll start english).published = some 0 := by decide +kernel
  have second : l.published = some 1 := by decide +kernel
  have replaced : l.published ≠ some 0 := by
    rw [second]
    decide
  have old := law.2.2.2.1 english austrian 0
    ⟨"en", ⟨"dicts/en/emoji_en.dict"⟩, [], true⟩ rfl first (by decide +kernel) replaced
  have current : l.current? = some ⟨"de_at", ⟨"dicts/de_at/emoji_de.dict"⟩, [], true⟩ := by
    decide +kernel
  have ready : l.state = .ready := law.2.1.2 (by rw [current]; rfl)
  refine ⟨DictionaryCache.opensFresh, first, second, ready, old.1, ?_, ?_⟩
  · decide +kernel
  · exact (law.2.2.1 _ current).2.trans (by decide +kernel)

end Calls

end Lifecycle

end EmojiPicker

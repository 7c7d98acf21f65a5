import EmojiPicker.Proofs.Dictionary.Resolution

/-!
# Installations on a disk

A lifecycle over the dictionary cache: what an installation leaves on the disk, and what is found
there afterwards.

* `Lifecycle.load_outcome` — loading publishes what is found and can be opened, and nothing else;
* `Lifecycle.Installs`, `Lifecycle.installs` — what an installation comes to;
* `Lifecycle.durable_iff` — when the installed dictionary is published again after a restart;
* `Lifecycle.install_all_or_nothing` — what an installation that does not succeed leaves as it was.

Nothing is said of the parts of downloads themselves. One that was written only halfway may stay, and
so may new directories.
-/

namespace EmojiPicker

/-! ## Locales in normal form -/

namespace DictionaryCache

variable (cache : DictionaryCache) (locale : String)

@[simp]
theorem fileName_normalize : Locale.fileName (Locale.normalize locale) = Locale.fileName locale := by
  rw [Locale.fileName, Locale.fileName, language_normalize]

@[simp]
theorem directory_normalize : cache.directory (Locale.normalize locale) = cache.directory locale := by
  rw [directory, directory, Locale.normalize_normalize]

@[simp]
theorem target_normalize : cache.target (Locale.normalize locale) = cache.target locale := by
  rw [target, target, fileName_normalize, directory_normalize]

theorem resolve?_normalize :
    cache.resolve? (Locale.normalize locale) = cache.resolve? locale := by
  rw [resolve?_eq, resolve?_eq, directory_normalize, language_normalize, Locale.normalize_normalize]

theorem target_congr {cache other : DictionaryCache} (root : other.root = cache.root)
    (locale : String) : other.target locale = cache.target locale := by
  rw [target, target, directory, directory, root]

end DictionaryCache

theorem EmojiDictionary.parse_normalize (path : Path) (locale : String) (bytes : List UInt8) :
    parse path (Locale.normalize locale) bytes = parse path locale bytes := by
  rw [parse, parse]
  cases DictionaryContent.parse bytes with
  | error fault => rfl
  | ok entries => simp only [ofEntries, Locale.normalize_normalize]

theorem EmojiDictionary.parse_eq_ok {path : Path} {locale : String} {bytes : List UInt8}
    {d : EmojiDictionary} (parsed : parse path locale bytes = .ok d) :
    d.source = path ∧ d.isOpen = true := by
  rw [parse] at parsed
  split at parsed
  · exact absurd parsed (by simp)
  · cases parsed
    exact ⟨rfl, rfl⟩

/-- Whether bytes are a dictionary depends neither on the path nor on the locale. -/
theorem EmojiDictionary.parse_elsewhere {path other : Path} {locale tag : String}
    {bytes : List UInt8} {d : EmojiDictionary} (parsed : parse path locale bytes = .ok d) :
    ∃ e, parse other tag bytes = .ok e := by
  rw [parse] at parsed
  cases content : DictionaryContent.parse bytes with
  | error fault =>
      rw [content] at parsed
      exact absurd parsed (by simp)
  | ok entries => exact ⟨ofEntries tag other entries, by rw [parse, content]⟩

theorem DictionaryCache.openAt_of_read {cache : DictionaryCache} {path : Path} {bytes : List UInt8}
    (read : cache.disk.read path = .ok bytes) (locale : String) :
    cache.openAt path locale = EmojiDictionary.parse path locale bytes := by
  rw [openAt, read]

theorem DictionaryCache.openAt_eq_ok {cache : DictionaryCache} {path : Path} {locale : String}
    {d : EmojiDictionary} (opened : cache.openAt path locale = .ok d) :
    d.source = path ∧ d.isOpen = true := by
  rw [openAt] at opened
  split at opened
  · exact absurd opened (by simp)
  · exact EmojiDictionary.parse_eq_ok opened

namespace Lifecycle

/-! ## What is published -/

section Published

variable {σ : Type} (l : Lifecycle σ)

theorem current?_withdraw (state : DictionaryState) : (l.withdraw state).current? = none := by
  rw [current?, withdraw_published]
  rfl

theorem current?_publish {d : EmojiDictionary} (opened : d.isOpen = true) :
    (l.publish d).current? = some d := by
  rw [current?, publish_published, publish_issued]
  simp [opened]

end Published

/-! ## What is asked of the cache -/

section Asking

variable (cache : DictionaryCache) (l : Lifecycle DictionaryCache)

theorem cache_resolve (locale : String) :
    DictionaryStore.resolve cache locale = (cache.resolve? locale, cache) := rfl

theorem cache_openAt (path : Path) (locale : String) :
    DictionaryStore.openAt cache path locale = (cache.openAt path locale, cache) := rfl

theorem cache_install (bytes : List UInt8) (locale : String) :
    DictionaryStore.install cache bytes locale = cache.install bytes locale := rfl

theorem resolve_cache (locale : String) :
    (l.resolve locale).1 = l.store.resolve? locale ∧ (l.resolve locale).2.store = l.store := by
  have answer := resolve_fst l locale
  have store := resolve_store l locale
  rw [cache_resolve] at answer store
  dsimp only at answer store
  exact ⟨answer, store⟩

theorem openAt_cache (path : Path) (locale : String) :
    (l.openAt path locale).1 = l.store.openAt path locale ∧
      (l.openAt path locale).2.store = l.store := by
  have answer := openAt_fst l path locale
  have store := openAt_store l path locale
  rw [cache_openAt] at answer store
  dsimp only at answer store
  exact ⟨answer, store⟩

theorem move_cache (bytes : List UInt8) (locale : String) :
    (l.move bytes locale).1 = (l.store.install bytes locale).1 ∧
      (l.move bytes locale).2.store = (l.store.install bytes locale).2 := by
  have answer := move_fst l bytes locale
  have store := move_store l bytes locale
  rw [cache_install] at answer store
  exact ⟨answer, store⟩

end Asking

/-- Loading publishes the dictionary of the file that is found, if it can be opened. Otherwise no
dictionary is published. -/
theorem load_outcome (l : Lifecycle DictionaryCache) (locale : String) :
    (∃ path d, l.store.resolve? locale = some path ∧ l.store.openAt path locale = .ok d ∧
        (l.load locale).state = .ready ∧ (l.load locale).current? = some d) ∨
      ((∀ path d, l.store.resolve? locale = some path → l.store.openAt path locale ≠ .ok d) ∧
        (l.load locale).state = .absent ∧ (l.load locale).current? = none) := by
  have still : (l.withdraw .loading).store = l.store := withdraw_store l .loading
  rcases resolve_cache (l.withdraw .loading) locale with ⟨found, kept⟩
  rw [still] at found kept
  rw [load]
  generalize (l.withdraw .loading).resolve locale = looked at found kept ⊢
  rcases looked with ⟨_ | path, looked⟩
  · refine Or.inr ⟨?_, rfl, current?_withdraw looked .absent⟩
    intro path d resolved
    rw [← found] at resolved
    exact absurd resolved (by simp)
  · dsimp only at kept
    rcases openAt_cache looked path locale with ⟨answer, _⟩
    rw [kept] at answer
    dsimp only at found ⊢
    generalize looked.openAt path locale = asked at answer ⊢
    rcases asked with ⟨failure | d, asked⟩
    · refine Or.inr ⟨?_, rfl, current?_withdraw asked .absent⟩
      intro other d resolved opened
      obtain rfl : path = other := Option.some.inj (found.trans resolved)
      rw [← answer] at opened
      exact absurd opened (by simp)
    · have opened : l.store.openAt path locale = .ok d := answer.symm
      exact Or.inl ⟨path, d, found.symm, opened, rfl,
        current?_publish asked (DictionaryCache.openAt_eq_ok opened).2⟩

/-! ## What an installation comes to -/

/-- What becomes of some bytes for a locale in normal form: the answer, and the lifecycle after
it. -/
inductive Installs (l : Lifecycle DictionaryCache) (bytes : List UInt8) (tag : String) :
    Except Failure InstallOutcome × Lifecycle DictionaryCache → Prop where
  | discarded (inactive : l.activeLocale ≠ some tag) :
      Installs l bytes tag (.ok (.discarded l.activeLocale), l)
  | invalid {failure : Failure} (active : l.activeLocale = some tag)
      (unreadable : EmojiDictionary.parse ⟨Locale.fileName tag⟩ tag bytes = .error failure) :
      Installs l bytes tag (.error (.installFailed tag failure), l)
  /-- The disk failed somewhere on the way. -/
  | refused {context : String} {fault : DiskFault} {d : EmojiDictionary}
      {m : Lifecycle DictionaryCache}
      (active : l.activeLocale = some tag)
      (readable : EmojiDictionary.parse ⟨Locale.fileName tag⟩ tag bytes = .ok d)
      (failed : (l.store.install bytes tag).1 = .error (.disk context fault))
      (same : Undisturbed l m) (stored : m.store = (l.store.install bytes tag).2) :
      Installs l bytes tag (.error (.installFailed tag (.disk context fault)), m)
  | published {d : EmojiDictionary} {m : Lifecycle DictionaryCache}
      (active : l.activeLocale = some tag)
      (readable : EmojiDictionary.parse (l.store.target tag) tag bytes = .ok d)
      (read : m.store.disk.read (l.store.target tag) = .ok bytes) (current : m.current? = some d)
      (stored : m.store = (l.store.install bytes tag).2) :
      Installs l bytes tag (.ok (.installed (l.store.target tag)), m)

/-- The file that was written is the one that is opened, so bytes that are a dictionary are
published once the disk has taken them. -/
theorem installs (l : Lifecycle DictionaryCache) (bytes : List UInt8) (locale : String) :
    Installs l bytes (Locale.normalize locale) (l.install bytes locale) := by
  rw [install]
  generalize Locale.normalize locale = tag
  split
  · next inactive => exact .discarded (by simpa using inactive)
  · next active =>
      have active : l.activeLocale = some tag := by simpa using active
      split
      · next unreadable => exact .invalid active unreadable
      · next valid readable =>
          rw [replace]
          have same := undisturbed_move l bytes tag
          rcases move_cache l bytes tag with ⟨answer, stored⟩
          generalize l.move bytes tag = kept at same answer stored ⊢
          rcases kept with ⟨result, kept⟩
          rcases l.store.install_cases bytes tag with ⟨context, fault, failed, _⟩ | ⟨written, read⟩
          · obtain rfl : result = .error (.disk context fault) := answer.trans failed
            exact .refused active readable failed same stored
          · obtain rfl : result = .ok (l.store.target tag) := answer.trans written
            have held : kept.store.disk.read (l.store.target tag) = .ok bytes := by
              rw [stored]
              exact read
            rcases EmojiDictionary.parse_elsewhere readable with ⟨d, parsed⟩
            rcases openAt_cache kept (l.store.target tag) tag with ⟨opened, still⟩
            rw [DictionaryCache.openAt_of_read held, parsed] at opened
            dsimp only
            generalize kept.openAt (l.store.target tag) tag = asked at opened still ⊢
            rcases asked with ⟨result, asked⟩
            obtain rfl : result = .ok d := opened
            have stands : (asked.publish d).store = kept.store := (publish_store asked d).trans still
            refine .published active parsed ?_ ?_ ?_
            · rw [stands]
              exact held
            · exact current?_publish asked (EmojiDictionary.parse_eq_ok parsed).2
            · exact stands.trans stored

/-! ## After a restart -/

section Restart

variable {l : Lifecycle DictionaryCache} {bytes : List UInt8} {locale : String} {path : Path}

theorem Installs.of_installed {r : Except Failure InstallOutcome × Lifecycle DictionaryCache}
    (outcome : Installs l bytes (Locale.normalize locale) r) (installed : r.1 = .ok (.installed path)) :
    r.2.store.target locale = path ∧ r.2.store.disk.read path = .ok bytes ∧
      ∃ d, EmojiDictionary.parse path locale bytes = .ok d ∧ r.2.current? = some d := by
  cases outcome with
  | discarded => exact absurd installed (by simp)
  | invalid => exact absurd installed (by simp)
  | refused => exact absurd installed (by simp)
  | @published d m _ readable read current stored =>
      obtain rfl : l.store.target (Locale.normalize locale) = path := by simpa using installed
      rw [EmojiDictionary.parse_normalize] at readable
      refine ⟨?_, read, d, readable, current⟩
      rw [← DictionaryCache.target_normalize]
      apply DictionaryCache.target_congr
      rw [stored]
      exact l.store.install_root bytes _

/-- Where no dictionary is published, the one in a file is published for its locale if that file is
what is found. -/
theorem published_iff {d : EmojiDictionary} (closed : l.current? = none)
    (read : l.store.disk.read path = .ok bytes)
    (parsed : EmojiDictionary.parse path locale bytes = .ok d) :
    ((l.ensure locale).state = .ready ∧ (l.ensure locale).current? = some d) ↔
      l.store.resolve? locale = some path := by
  have opens : l.store.openAt path (Locale.normalize locale) = .ok d := by
    rw [DictionaryCache.openAt_of_read read, EmojiDictionary.parse_normalize, parsed]
  have loads : l.ensure locale =
      load { l with activeLocale := some (Locale.normalize locale) } (Locale.normalize locale) := by
    rcases ensure_cases l locale with ⟨other, current, _⟩ | same
    · rw [closed] at current
      exact absurd current (by simp)
    · exact same
  rw [loads, ← DictionaryCache.resolve?_normalize]
  rcases load_outcome { l with activeLocale := some (Locale.normalize locale) }
    (Locale.normalize locale) with ⟨found, e, resolved, opened, ready, current⟩ | ⟨never, absent, _⟩
  · constructor
    · rintro ⟨_, same⟩
      -- A dictionary knows the file that it was read from.
      obtain rfl : e = d := Option.some.inj (current.symm.trans same)
      obtain rfl : found = path := by
        rw [← (DictionaryCache.openAt_eq_ok opened).1, (DictionaryCache.openAt_eq_ok opens).1]
      exact resolved
    · intro same
      obtain rfl : found = path := Option.some.inj (resolved.symm.trans same)
      obtain rfl : e = d := Except.ok.inj (opened.symm.trans opens)
      exact ⟨ready, current⟩
  · constructor
    · rintro ⟨ready, _⟩
      rw [absent] at ready
      exact absurd ready (by simp)
    · intro same
      exact absurd opens (never path d same)

/-- A successful installation publishes the bytes as they are. After closing, and in a new
lifecycle over the same disk, they are published again if and only if their file is the first
dictionary file in the directory of the locale. It is in there if the language holds no slash and
the directory is not the empty path. -/
theorem durable_iff (l : Lifecycle DictionaryCache) (bytes : List UInt8) (locale : String)
    (path : Path) (installed : (l.install bytes locale).1 = .ok (.installed path)) :
    let after := (l.install bytes locale).2
    ∃ d, EmojiDictionary.parse path locale bytes = .ok d ∧ after.current? = some d ∧
      (∀ again ∈ [after.close, { store := after.store }],
        (again.ensure locale).state = .ready ∧ (again.ensure locale).current? = some d ↔
          after.store.Foremost locale) ∧
      ('/' ∉ (Locale.language locale).toList → (after.store.directory locale).text.isEmpty = false →
        Locale.fileName locale ∈
          DictionaryCache.candidates after.store.disk (after.store.directory locale)) := by
  intro after
  rcases (installs l bytes locale).of_installed installed with ⟨target, read, d, parsed, current⟩
  refine ⟨d, parsed, current, ?_, ?_⟩
  · intro again member
    have blank : again.store = after.store ∧ again.current? = none := by
      rcases List.mem_cons.1 member with rfl | fresh
      · exact ⟨withdraw_store after .absent, current?_withdraw after .absent⟩
      · obtain rfl := List.mem_singleton.1 fresh
        exact ⟨rfl, rfl⟩
    rcases blank with ⟨store, closed⟩
    have reads : again.store.disk.read path = .ok bytes := by
      rw [store]
      exact read
    rw [published_iff closed reads parsed, store, ← target]
    exact after.store.resolve?_eq_target_iff locale
  · intro whole full
    have named : '/' ∉ (Locale.fileName locale).toList := by
      rw [DictionaryCache.fileName_toList]
      simp [whole]
    rw [← target] at read
    exact DictionaryCache.mem_candidates_of_read full
      (DictionaryCache.isDictionaryName_fileName locale) named read

/-- An installation in a directory of its own. -/
theorem durable_iff_alone :
    let l := ensure { store := (⟨⟨"dicts"⟩, {}⟩ : DictionaryCache) } "en"
    let r := l.install [123, 125] "EN"
    r.1 = .ok (.installed ⟨"dicts/en/emoji_en.dict"⟩) ∧
      (r.2.close.ensure "EN").current? = some ⟨"en", ⟨"dicts/en/emoji_en.dict"⟩, [], true⟩ := by
  intro l r
  have installed : r.1 = .ok (.installed ⟨"dicts/en/emoji_en.dict"⟩) := by decide +kernel
  rcases durable_iff l [123, 125] "EN" _ installed with ⟨d, parsed, _, again, held⟩
  have foremost : r.2.store.Foremost "EN" := by
    refine ⟨held (by decide +kernel) (by decide +kernel), ?_⟩
    have alone : DictionaryCache.candidates r.2.store.disk (r.2.store.directory "EN") =
        ["emoji_en.dict"] := by decide +kernel
    rw [alone]
    decide +kernel
  have published := ((again r.2.close List.mem_cons_self).2 foremost).2
  have same : Except.ok d = .ok ⟨"en", ⟨"dicts/en/emoji_en.dict"⟩, [], true⟩ :=
    parsed.symm.trans (by decide +kernel)
  exact ⟨installed, published.trans (congrArg some (Except.ok.inj same))⟩

/-- An installation beside a file that comes before it. Its dictionary is published, and the old one
again after a restart. -/
theorem installed_shadowed :
    let old := "dictionary=emoji_en,locale=en,version=1\n word=😀,f=1\n  shortcut=old face\n"
    let new := "dictionary=emoji_en,locale=en,version=2\n word=😀,f=1\n  shortcut=new face\n"
    let disk := (({} : Disk).makeDirectories ⟨"dicts/en"⟩).2
    let stored := (disk.write ⟨"dicts/en/emoji.dict"⟩ (Text.encode old.toList)).2
    let l := ensure { store := (⟨⟨"dicts"⟩, stored⟩ : DictionaryCache) } "en"
    let r := l.install (Text.encode new.toList) "en"
    let described (l : Lifecycle DictionaryCache) := l.current?.bind (·.description? "😀")
    r.1 = .ok (.installed ⟨"dicts/en/emoji_en.dict"⟩) ∧ described r.2 = some "new face" ∧
      described (r.2.close.ensure "en") = some "old face" ∧
      described (ensure { store := r.2.store } "en") = some "old face" := by
  decide +kernel

end Restart

/-! ## All or nothing -/

section Failing

variable {l : Lifecycle DictionaryCache} {bytes : List UInt8} {tag : String}
  {r : Except Failure InstallOutcome × Lifecycle DictionaryCache}

theorem Installs.of_discarded {active : Option String} (outcome : Installs l bytes tag r)
    (discarded : r.1 = .ok (.discarded active)) : r.2 = l := by
  cases outcome with
  | discarded => rfl
  | invalid => exact absurd discarded (by simp)
  | refused => exact absurd discarded (by simp)
  | published => exact absurd discarded (by simp)

theorem Installs.of_invalid {fault : FormatFault} (outcome : Installs l bytes tag r)
    (invalid : DictionaryContent.parse bytes = .error fault) : r.2 = l := by
  have unreadable : ∀ (path : Path) (locale : String) (d : EmojiDictionary),
      EmojiDictionary.parse path locale bytes ≠ .ok d := by
    intro path locale d parsed
    rw [EmojiDictionary.parse, invalid] at parsed
    exact absurd parsed (by simp)
  cases outcome with
  | discarded => rfl
  | invalid => rfl
  | refused _ readable => exact absurd readable (unreadable _ _ _)
  | published _ readable => exact absurd readable (unreadable _ _ _)

/-- An installation that fails leaves everything but the store alone, and the store changes by
failing itself, if at all. -/
theorem Installs.of_error {failure : Failure} (outcome : Installs l bytes tag r)
    (failed : r.1 = .error failure) :
    Undisturbed l r.2 ∧
      (r.2.store = l.store ∨
        r.2.store = (l.store.install bytes tag).2 ∧
          ∃ context fault, (l.store.install bytes tag).1 = .error (.disk context fault)) := by
  cases outcome with
  | discarded => exact absurd failed (by simp)
  | invalid => exact ⟨⟨rfl, rfl, rfl, rfl⟩, Or.inl rfl⟩
  | refused _ _ refused same stored => exact ⟨same, Or.inr ⟨stored, _, _, refused⟩⟩
  | published => exact absurd failed (by simp)

theorem Installs.of_valid {failure : Failure} {entries : List WordEntry}
    (outcome : Installs l bytes tag r) (valid : DictionaryContent.parse bytes = .ok entries)
    (failed : r.1 = .error failure) :
    ∃ context fault, (l.store.install bytes tag).1 = .error (.disk context fault) ∧
      failure = .installFailed tag (.disk context fault) := by
  cases outcome with
  | discarded => exact absurd failed (by simp)
  | invalid _ unreadable =>
      rw [EmojiDictionary.parse, valid] at unreadable
      exact absurd unreadable (by simp)
  | refused _ _ refused => exact ⟨_, _, refused, (Except.error.inj failed).symm⟩
  | published => exact absurd failed (by simp)

end Failing

/-- What is discarded or is no dictionary changes nothing at all. An installation that fails leaves
the published dictionary and the active locale as they are, and finds the same file with the same
bytes for every locale whose directories are anchored. Bytes that are a dictionary fail only by the
disk. -/
theorem install_all_or_nothing (l : Lifecycle DictionaryCache) (plain : l.store.disk.Plain)
    (bytes : List UInt8) (locale : String) :
    let result := (l.install bytes locale).1
    let after := (l.install bytes locale).2
    (∀ active, result = .ok (.discarded active) → after = l) ∧
      (∀ fault, DictionaryContent.parse bytes = .error fault → after = l) ∧
      (∀ failure, result = .error failure →
        Undisturbed l after ∧ after.current? = l.current? ∧
          ∀ other, (∀ directory ∈ l.store.searched other, l.store.disk.Anchored directory) →
            after.store.resolve? other = l.store.resolve? other ∧
              ∀ file, l.store.resolve? other = some file →
                ∃ content, l.store.disk.read file = .ok content ∧
                  after.store.disk.read file = .ok content) ∧
      ∀ entries failure, DictionaryContent.parse bytes = .ok entries → result = .error failure →
        ∃ context fault,
          (l.store.install bytes (Locale.normalize locale)).1 = .error (.disk context fault) ∧
            failure = .installFailed (Locale.normalize locale) (.disk context fault) := by
  have outcome := installs l bytes locale
  intro result after
  refine ⟨?_, fun _ => outcome.of_invalid, ?_, fun _ _ => outcome.of_valid⟩
  · intro active discarded
    exact outcome.of_discarded discarded
  · intro failure failed
    rcases outcome.of_error failed with ⟨same, kept⟩
    refine ⟨same, current?_undisturbed same, ?_⟩
    intro other anchored
    have root : after.store.root = l.store.root ∧ after.store.disk.Plain ∧
        Disk.Spares DictionaryCache.isPartName l.store.disk after.store.disk := by
      rcases kept with unchanged | ⟨changed, context, fault, refused⟩
      · rw [show after.store = l.store from unchanged]
        exact ⟨rfl, plain, Disk.Spares.refl _ _⟩
      · rw [show after.store = _ from changed]
        refine ⟨l.store.install_root bytes _, DictionaryCache.plain_install plain bytes _, ?_⟩
        rcases l.store.install_cases bytes (Locale.normalize locale) with
          ⟨_, _, _, spares⟩ | ⟨written, _⟩
        · exact spares
        · rw [written] at refused
          exact absurd refused (by simp)
    exact DictionaryCache.resolve?_spared root.1 root.2.2 plain root.2.1 anchored

/-- A write that breaks off halfway, over an installed dictionary that serves another locale too. -/
theorem install_all_or_nothing_torn :
    let disk : Disk := { mishaps := [.none, .none, .none, .none, .torn [123]] }
    let l := performAll { store := (⟨⟨"dicts"⟩, disk⟩ : DictionaryCache) }
      [.ensure "en", .install [123, 125] "en"]
    let r := l.install [123, 125] "EN"
    let file : Path := ⟨"dicts/en/emoji_en.dict"⟩
    l.store.disk.Plain ∧
      r.1 = .error (.installFailed "en" (.disk "write dicts/en/emoji_en.dict.part" .device)) ∧
      r.2.current? = some ⟨"en", file, [], true⟩ ∧
      r.2.store.resolve? "en-GB" = some file ∧ r.2.store.disk.read file = .ok [123, 125] := by
  intro disk l r file
  have plain : l.store.disk.Plain := plain_performAll (Disk.plain_of_empty rfl) _
  have failed : r.1 =
      .error (.installFailed "en" (.disk "write dicts/en/emoji_en.dict.part" .device)) := by
    decide +kernel
  rcases (install_all_or_nothing l plain [123, 125] "EN").2.2.1 _ failed with
    ⟨_, current, elsewhere⟩
  have anchored : ∀ directory ∈ l.store.searched "en-GB", l.store.disk.Anchored directory := by
    have level : ∀ directory ∈ l.store.searched "en-GB", ".." ∉ directory.names := by
      decide +kernel
    intro directory member
    exact Or.inl ⟨[], directory.names, _, rfl, .done _, level directory member⟩
  have found : l.store.resolve? "en-GB" = some file := by decide +kernel
  rcases elsewhere "en-GB" anchored with ⟨same, files⟩
  rcases files file found with ⟨content, before, after⟩
  have held : l.store.disk.read file = .ok [123, 125] := by decide +kernel
  refine ⟨plain, failed, current.trans (by decide +kernel), same.trans found, ?_⟩
  exact after.trans (before.symm.trans held)

/-- A directory that a failed installation has left behind. A locale whose directory is written as
one above it had no dictionary, and now it has. -/
theorem install_opens_way_up :
    let disk := (({} : Disk).makeDirectories ⟨"dicts/b"⟩).2
    let stored := (disk.write ⟨"dicts/b/emoji_b.dict"⟩ [123, 125]).2
    let l := performAll { store := (⟨⟨"dicts"⟩, stored⟩ : DictionaryCache) }
      [.ensure "a/../b", .ensure "a/c"]
    let r := l.install [123, 125] "a/c"
    r.1 = .error (.installFailed "a/c"
        (.disk "write dicts/a/c/emoji_a/c.dict.part" .notFound)) ∧
      l.store.resolve? "a/../b" = none ∧
      r.2.store.resolve? "a/../b" = some ⟨"dicts/a/../b/emoji_b.dict"⟩ := by
  decide +kernel

end Lifecycle
end EmojiPicker

import EmojiPicker.Proofs.Dictionary.Publication
import EmojiPicker.Proofs.Disk.Touching

/-!
# Where dictionaries are stored

The dictionary cache changes its disk by installations only, and those touch files of two kinds.

* `DictionaryCache.isOwnName` — the names of those files;
* `DictionaryCache.Installing` — how far an installation gets;
* `DictionaryCache.spares_install`, `DictionaryCache.touches_install`,
  `DictionaryCache.plain_install` — an installation, also one that fails half-way;
* `DictionaryCache.install_cases`, `DictionaryCache.installed_places` — one that fails has touched
  parts only, one that succeeds has its bytes in place and no part left;
* `Lifecycle.spares_performAll`, `Lifecycle.plain_performAll` — every run of calls on a lifecycle over
  the cache.
-/

namespace EmojiPicker

namespace DictionaryCache

/-! ## Installations -/

/-- Whether a name is one that an installation gives to a file. -/
def isOwnName (name : String) : Bool :=
  ".dict".toList.isSuffixOf name.toList || ".part".toList.isSuffixOf name.toList

theorem target_endsIn_dict (cache : DictionaryCache) (locale : String) :
    ∃ name, (cache.target locale).EndsIn name ∧ ".dict".toList <:+ name.toList := by
  have named : (Locale.fileName locale).toList =
      ("emoji_".toList ++ (Locale.language locale).toList) ++ ".dict".toList := by
    simp [Locale.fileName, toString]
  exact (cache.directory locale).endsIn_child named (by decide) (by decide)

theorem target_endsIn (cache : DictionaryCache) (locale : String) :
    ∃ name, (cache.target locale).EndsIn name ∧ isOwnName name = true := by
  rcases cache.target_endsIn_dict locale with ⟨name, ends, tail⟩
  refine ⟨name, ends, ?_⟩
  rw [isOwnName, List.isSuffixOf_iff_suffix.2 tail, Bool.true_or]

/-- Whether a name is one that a file has until it is installed completely. -/
def isPartName (name : String) : Bool :=
  ".part".toList.isSuffixOf name.toList

theorem isOwnName_of_isPartName {name : String} (part : isPartName name = true) :
    isOwnName name = true := by
  rw [isPartName] at part
  rw [isOwnName, part, Bool.or_true]

theorem isPartName_of_isDictionaryName {name : String} (dictionary : isDictionaryName name = true) :
    isPartName name = false := by
  rw [isDictionaryName, Bool.and_eq_true, Bool.not_eq_true'] at dictionary
  exact dictionary.2

theorem partialTarget_endsIn (cache : DictionaryCache) (locale : String) :
    ∃ name, (cache.partialTarget locale).EndsIn name ∧ isPartName name = true := by
  have named : (Locale.fileName locale ++ ".part").toList =
      (Locale.fileName locale).toList ++ ".part".toList := by
    simp
  rcases (cache.directory locale).endsIn_child named (by decide) (by decide) with ⟨name, ends, tail⟩
  exact ⟨name, ends, List.isSuffixOf_iff_suffix.2 tail⟩

/-- How an installation goes: each of its operations may fail, and then it is over. -/
inductive Installing (cache : DictionaryCache) (bytes : List UInt8) (locale : String) :
    Except Failure Path × DictionaryCache → Prop where
  | unmade {context : String} {fault : DiskFault} {ready : Disk}
      (made : cache.disk.makeDirectories (cache.directory locale) = (.error fault, ready)) :
      Installing cache bytes locale (.error (.disk context fault), { cache with disk := ready })
  | unwritten {context : String} {fault : DiskFault} {ready full : Disk}
      (made : cache.disk.makeDirectories (cache.directory locale) = (.ok (), ready))
      (written : ready.write (cache.partialTarget locale) bytes = (.error fault, full)) :
      Installing cache bytes locale (.error (.disk context fault), { cache with disk := full })
  | unmoved {context : String} {fault : DiskFault} {ready full final : Disk}
      (made : cache.disk.makeDirectories (cache.directory locale) = (.ok (), ready))
      (written : ready.write (cache.partialTarget locale) bytes = (.ok (), full))
      (moved : full.renameFile (cache.partialTarget locale) (cache.target locale) =
        (.error fault, final)) :
      Installing cache bytes locale
        (.error (.disk context fault),
          { cache with disk := (final.removeFile (cache.partialTarget locale)).2 })
  | installed {ready full final : Disk}
      (made : cache.disk.makeDirectories (cache.directory locale) = (.ok (), ready))
      (written : ready.write (cache.partialTarget locale) bytes = (.ok (), full))
      (moved : full.renameFile (cache.partialTarget locale) (cache.target locale) = (.ok (), final)) :
      Installing cache bytes locale (.ok (cache.target locale), { cache with disk := final })

theorem installing (cache : DictionaryCache) (bytes : List UInt8) (locale : String) :
    Installing cache bytes locale (cache.install bytes locale) := by
  unfold install
  dsimp only
  rcases made : cache.disk.makeDirectories (cache.directory locale) with ⟨fault | ⟨⟩, ready⟩
  · exact .unmade made
  dsimp only
  rcases written : ready.write (cache.partialTarget locale) bytes with ⟨fault | ⟨⟩, full⟩
  · exact .unwritten made written
  dsimp only
  rcases moved : full.renameFile (cache.partialTarget locale) (cache.target locale) with
    ⟨fault | ⟨⟩, final⟩
  · exact .unmoved made written moved
  · exact .installed made written moved

/-- What each operation does to a disk, an installation does, however far it gets. -/
theorem install_relates {R : Disk → Disk → Prop} (trans : ∀ {d e f}, R d e → R e f → R d f)
    {cache : DictionaryCache} {bytes : List UInt8} {locale : String}
    (makes : ∀ d, R d (d.makeDirectories (cache.directory locale)).2)
    (writes : ∀ d, R d (d.write (cache.partialTarget locale) bytes).2)
    (moves : ∀ d, R d (d.renameFile (cache.partialTarget locale) (cache.target locale)).2)
    (removes : ∀ d, R d (d.removeFile (cache.partialTarget locale)).2) :
    R cache.disk (cache.install bytes locale).2.disk := by
  have first := makes cache.disk
  have outcome := cache.installing bytes locale
  generalize cache.install bytes locale = result at outcome ⊢
  cases outcome with
  | unmade made =>
      rw [made] at first
      exact first
  | @unwritten _ _ ready _ made written =>
      have second := writes ready
      rw [made] at first
      rw [written] at second
      exact trans first second
  | @unmoved _ _ ready full final made written moved =>
      have second := writes ready
      have third := moves full
      rw [made] at first
      rw [written] at second
      rw [moved] at third
      dsimp only at first second third ⊢
      exact trans first (trans second (trans third (removes final)))
  | @installed ready full _ made written moved =>
      have second := writes ready
      have third := moves full
      rw [made] at first
      rw [written] at second
      rw [moved] at third
      exact trans first (trans second third)

/-- An installation touches files with its own kinds of names, however far it gets. -/
theorem spares_install (cache : DictionaryCache) (bytes : List UInt8) (locale : String) :
    Disk.Spares isOwnName cache.disk (cache.install bytes locale).2.disk := by
  rcases cache.target_endsIn locale with ⟨goal, toGoal, ownGoal⟩
  rcases cache.partialTarget_endsIn locale with ⟨part, toPart, isPart⟩
  have ownPart := isOwnName_of_isPartName isPart
  exact install_relates (R := Disk.Spares isOwnName) Disk.Spares.trans
    (fun d => Disk.spares_makeDirectories isOwnName d _)
    (fun d => Disk.spares_write toPart ownPart d bytes)
    (fun d => Disk.spares_renameFile toPart toGoal ownPart ownGoal d)
    (fun d => Disk.spares_removeFile toPart ownPart d)

/-- An installation makes the directory of its locale and touches two files in it. -/
theorem touches_install (cache : DictionaryCache) (bytes : List UInt8) (locale : String) :
    Disk.Touches [cache.directory locale] [cache.target locale, cache.partialTarget locale]
      cache.disk (cache.install bytes locale).2.disk :=
  install_relates (R := Disk.Touches _ _) Disk.Touches.trans
    (fun d => d.touches_makeDirectories _)
    (fun d => (d.touches_write _ bytes).weaken (List.Subset.refl _) (by simp))
    (fun d => d.touches_renameFile _ _)
    (fun d => (d.touches_removeFile _).weaken (List.Subset.refl _) (by simp))

theorem plain_install {cache : DictionaryCache} (plain : cache.disk.Plain) (bytes : List UInt8)
    (locale : String) : (cache.install bytes locale).2.disk.Plain :=
  install_relates (R := fun d e => d.Plain → e.Plain) (fun first second => second ∘ first)
    (fun _ before => before.makeDirectories _) (fun _ before => before.write _ bytes)
    (fun _ before => before.renameFile _ _) (fun _ before => before.removeFile _) plain

theorem install_root (cache : DictionaryCache) (bytes : List UInt8) (locale : String) :
    (cache.install bytes locale).2.root = cache.root := by
  have outcome := cache.installing bytes locale
  generalize cache.install bytes locale = result at outcome ⊢
  cases outcome with
  | unmade | unwritten | unmoved | installed => rfl

/-- An installation fails by the disk and has touched parts only, or the bytes are read from its
target. -/
theorem install_cases (cache : DictionaryCache) (bytes : List UInt8) (locale : String) :
    (∃ context fault, (cache.install bytes locale).1 = .error (.disk context fault) ∧
        Disk.Spares isPartName cache.disk (cache.install bytes locale).2.disk) ∨
      (cache.install bytes locale).1 = .ok (cache.target locale) ∧
        (cache.install bytes locale).2.disk.read (cache.target locale) = .ok bytes := by
  rcases cache.target_endsIn locale with ⟨goal, toGoal, _⟩
  rcases cache.partialTarget_endsIn locale with ⟨part, toPart, isPart⟩
  have first := Disk.spares_makeDirectories isPartName cache.disk (cache.directory locale)
  have outcome := cache.installing bytes locale
  generalize cache.install bytes locale = result at outcome ⊢
  cases outcome with
  | unmade made =>
      rw [made] at first
      exact Or.inl ⟨_, _, rfl, first⟩
  | @unwritten _ _ ready _ made written =>
      have second := Disk.spares_write toPart isPart ready bytes
      rw [made] at first
      rw [written] at second
      exact Or.inl ⟨_, _, rfl, first.trans second⟩
  | @unmoved _ _ ready full final made written moved =>
      -- The part is where it was, and is taken away.
      have second := Disk.spares_write toPart isPart ready bytes
      rw [made] at first
      rw [written] at second
      dsimp only at first second ⊢
      refine Or.inl ⟨_, _, rfl, (first.trans second).trans ?_⟩
      have still := Disk.renameFile_cases full (cache.partialTarget locale) (cache.target locale)
      rw [moved] at still
      rcases still with ⟨_, mishaps, same⟩ | ⟨_, _, _, arrived, _⟩
      · rw [show final = { full with mishaps := mishaps } from same]
        exact (Disk.spares_mishaps isPartName full mishaps).trans
          (Disk.spares_removeFile toPart isPart _)
      · exact absurd arrived (by simp)
  | @installed ready full _ made written moved =>
      have held := (Disk.read_write (by rw [written] : (ready.write _ bytes).1 = .ok ())).1
      rw [written] at held
      have arrived := Disk.read_renameFile toPart toGoal held (by rw [moved])
      rw [moved] at arrived
      exact Or.inr ⟨rfl, arrived⟩

/-- After an installation that succeeds the file is in place, and its part is gone. -/
theorem installed_places {cache : DictionaryCache} {bytes : List UInt8} {locale : String}
    {path : Path} (success : (cache.install bytes locale).1 = .ok path) :
    let after := (cache.install bytes locale).2.disk
    path = cache.target locale ∧
      ∃ goal part, after.LeadsTo (cache.target locale) goal ∧ after.standing goal = .file bytes ∧
        after.LeadsTo (cache.partialTarget locale) part ∧ after.standing part = .nothing := by
  rcases cache.target_endsIn_dict locale with ⟨target, toTarget, complete⟩
  rcases cache.partialTarget_endsIn locale with ⟨source, toSource, isPart⟩
  have other : source ≠ target := by
    rintro rfl
    have part := List.isSuffixOf_iff_suffix.1 isPart
    exact absurd (List.suffix_of_suffix_length_le part complete (by decide)) (by decide)
  have arrived := cache.install_cases bytes locale
  have outcome := cache.installing bytes locale
  generalize cache.install bytes locale = result at success arrived outcome ⊢
  cases outcome with
  | unmade | unwritten | unmoved => exact absurd success (by simp)
  | @installed _ full _ _ _ moved =>
      rcases arrived with ⟨_, _, failed, _⟩ | ⟨_, read⟩
      · exact absurd failed (by simp)
      · rcases Disk.read_eq_ok_iff.1 read with ⟨goal, aim, stands, _⟩
        have left := Disk.renameFile_leaves toSource toTarget other (by rw [moved])
        rw [moved] at left
        rcases left with ⟨part, leads, gone⟩
        exact ⟨(Except.ok.inj success).symm, goal, part, aim, stands, leads, gone⟩

end DictionaryCache

namespace Lifecycle

variable {σ : Type}

/-! ## Calls -/

theorem withdraw_store (l : Lifecycle σ) (state : DictionaryState) :
    (l.withdraw state).store = l.store := by
  rw [withdraw]
  cases l.published <;> rfl

theorem publish_store (l : Lifecycle σ) (d : EmojiDictionary) : (l.publish d).store = l.store :=
  withdraw_store l .ready

section Stores

variable [DictionaryStore σ]

theorem resolve_fst (l : Lifecycle σ) (locale : String) :
    (l.resolve locale).1 = (DictionaryStore.resolve l.store locale).1 := rfl

theorem move_fst (l : Lifecycle σ) (bytes : List UInt8) (locale : String) :
    (l.move bytes locale).1 = (DictionaryStore.install l.store bytes locale).1 := rfl

theorem resolve_store (l : Lifecycle σ) (locale : String) :
    (l.resolve locale).2.store = (DictionaryStore.resolve l.store locale).2 := rfl

theorem openAt_store (l : Lifecycle σ) (path : Path) (locale : String) :
    (l.openAt path locale).2.store = (DictionaryStore.openAt l.store path locale).2 := rfl

theorem move_store (l : Lifecycle σ) (bytes : List UInt8) (locale : String) :
    (l.move bytes locale).2.store = (DictionaryStore.install l.store bytes locale).2 := rfl

end Stores

/-- Looking for a dictionary and opening it leave the cache as it is. -/
theorem load_store (l : Lifecycle DictionaryCache) (locale : String) :
    (l.load locale).store = l.store := by
  have resolved := resolve_store (l.withdraw .loading) locale
  rw [load]
  generalize (l.withdraw .loading).resolve locale = looked at resolved ⊢
  rcases looked with ⟨_ | path, looked⟩
  · exact (withdraw_store looked .absent).trans (resolved.trans (withdraw_store l .loading))
  have opened := openAt_store looked path locale
  dsimp only
  generalize looked.openAt path locale = asked at opened ⊢
  have still : asked.2.store = l.store :=
    opened.trans (resolved.trans (withdraw_store l .loading))
  rcases asked with ⟨_ | d, asked⟩
  · exact (withdraw_store asked .absent).trans still
  · exact (publish_store asked d).trans still

theorem ensure_store (l : Lifecycle DictionaryCache) (locale : String) :
    (l.ensure locale).store = l.store := by
  rcases ensure_cases l locale with ⟨_, _, _, same⟩ | same
  · rw [same]
  · rw [same, load_store]

/-- An installation leaves the cache as it is, or the cache installs the bytes, and then it is the
cache that names the installed file. -/
theorem install_store (l : Lifecycle DictionaryCache) (bytes : List UInt8) (locale : String) :
    ((l.install bytes locale).2.store = l.store ∧
        ∀ path, (l.install bytes locale).1 ≠ .ok (.installed path)) ∨
      (l.install bytes locale).2.store = (l.store.install bytes (Locale.normalize locale)).2 ∧
        ∀ path, (l.install bytes locale).1 = .ok (.installed path) →
          (l.store.install bytes (Locale.normalize locale)).1 = .ok path := by
  rw [install]
  split
  · exact Or.inl ⟨rfl, by simp⟩
  · split
    · exact Or.inl ⟨rfl, by simp⟩
    · refine Or.inr ?_
      have moved := move_store l bytes (Locale.normalize locale)
      have named : _ = (l.store.install bytes (Locale.normalize locale)).1 :=
        move_fst l bytes (Locale.normalize locale)
      rw [replace]
      generalize l.move bytes (Locale.normalize locale) = kept at moved named ⊢
      rcases kept with ⟨failure | path, kept⟩
      · exact ⟨moved, by simp⟩
      have opened := openAt_store kept path (Locale.normalize locale)
      dsimp only
      generalize kept.openAt path (Locale.normalize locale) = asked at opened ⊢
      have still := opened.trans moved
      rcases asked with ⟨failure | d, asked⟩
      · exact ⟨still, by simp⟩
      · refine ⟨(publish_store asked d).trans still, fun other same => ?_⟩
        cases same
        exact named.symm

theorem spares_perform (l : Lifecycle DictionaryCache) (call : LifecycleCall) :
    Disk.Spares DictionaryCache.isOwnName l.store.disk (l.perform call).store.disk := by
  cases call with
  | ensure locale =>
      rw [perform, ensure_store]
      exact Disk.Spares.refl _ _
  | close =>
      rw [perform, close, withdraw_store]
      exact Disk.Spares.refl _ _
  | install bytes locale =>
      rw [perform]
      rcases install_store l bytes locale with ⟨same, _⟩ | ⟨same, _⟩
      · rw [same]
        exact Disk.Spares.refl _ _
      · rw [same]
        exact l.store.spares_install bytes (Locale.normalize locale)

theorem spares_performAll (l : Lifecycle DictionaryCache) (calls : List LifecycleCall) :
    Disk.Spares DictionaryCache.isOwnName l.store.disk (l.performAll calls).store.disk := by
  induction calls generalizing l with
  | nil => exact Disk.Spares.refl _ _
  | cons call rest ih => exact (l.spares_perform call).trans (ih (l.perform call))

theorem plain_perform {l : Lifecycle DictionaryCache} (plain : l.store.disk.Plain)
    (call : LifecycleCall) : (l.perform call).store.disk.Plain := by
  cases call with
  | ensure locale =>
      rw [perform, ensure_store]
      exact plain
  | close =>
      rw [perform, close, withdraw_store]
      exact plain
  | install bytes locale =>
      rw [perform]
      rcases install_store l bytes locale with ⟨same, _⟩ | ⟨same, _⟩
      · rw [same]
        exact plain
      · rw [same]
        exact DictionaryCache.plain_install plain bytes (Locale.normalize locale)

theorem plain_performAll {l : Lifecycle DictionaryCache} (plain : l.store.disk.Plain)
    (calls : List LifecycleCall) : (l.performAll calls).store.disk.Plain := by
  induction calls generalizing l with
  | nil => exact plain
  | cons call rest ih => exact ih (plain_perform plain call)

end Lifecycle
end EmojiPicker

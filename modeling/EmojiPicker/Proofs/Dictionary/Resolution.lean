import EmojiPicker.Proofs.Dictionary.Storage

/-!
# Which dictionary file is found

* `DictionaryCache.candidates` — the dictionary files of a directory, by their names;
* `DictionaryCache.leastName?_eq_some_iff`, `DictionaryCache.fileIn?_eq` — the least of them is found;
* `DictionaryCache.Foremost`, `DictionaryCache.resolve?_eq_target_iff` — when that is the file of an
  installation;
* `DictionaryCache.searched`, `DictionaryCache.resolve?_spared` — parts of downloads change nothing of
  what is found, nor new directories, where all searched directories are anchored.
-/

namespace EmojiPicker

namespace DictionaryCache

/-! ## The least name -/

theorem leastName?_eq_none_iff {names : List String} : leastName? names = none ↔ names = [] := by
  cases names with
  | nil => simp [leastName?]
  | cons name rest => cases found : leastName? rest <;> simp [leastName?, found]

theorem least_of_leastName? {names : List String} {least : String}
    (found : leastName? names = some least) : least ∈ names ∧ ∀ other ∈ names, ¬ other < least := by
  induction names generalizing least with
  | nil => exact absurd found (by simp [leastName?])
  | cons name rest ih =>
      rw [leastName?] at found
      cases later : leastName? rest with
      | none =>
          rw [later] at found
          obtain rfl := Option.some.inj found
          obtain rfl := leastName?_eq_none_iff.1 later
          refine ⟨List.mem_cons_self, ?_⟩
          intro other held
          obtain rfl := List.mem_singleton.1 held
          exact String.lt_irrefl other
      | some best =>
          rw [later] at found
          rcases ih later with ⟨member, minimal⟩
          obtain rfl := Option.some.inj found
          split
          · next below =>
              refine ⟨List.mem_cons_of_mem name member, ?_⟩
              intro other held
              rcases List.mem_cons.1 held with rfl | held
              · exact String.lt_asymm below
              · exact minimal other held
          · next above =>
              refine ⟨List.mem_cons_self, ?_⟩
              intro other held
              rcases List.mem_cons.1 held with rfl | held
              · exact String.lt_irrefl other
              · have later : best ≤ other := String.not_lt.1 (minimal other held)
                exact String.not_lt.2 (String.le_trans (String.not_lt.1 above) later)

theorem leastName?_eq_some_iff {names : List String} {name : String} :
    leastName? names = some name ↔ name ∈ names ∧ ∀ other ∈ names, ¬ other < name := by
  constructor
  · exact least_of_leastName?
  · rintro ⟨member, minimal⟩
    cases found : leastName? names with
    | none =>
        rw [leastName?_eq_none_iff.1 found] at member
        exact absurd member (by simp)
    | some least =>
        rcases least_of_leastName? found with ⟨held, below⟩
        have first : name ≤ least := String.not_lt.1 (minimal least held)
        have second : least ≤ name := String.not_lt.1 (below name member)
        rw [String.le_antisymm first second]

/-- Only which names there are counts, not how they are listed. -/
theorem leastName?_congr {names others : List String} (same : ∀ name, name ∈ names ↔ name ∈ others) :
    leastName? names = leastName? others := by
  apply Option.ext
  intro name
  rw [leastName?_eq_some_iff, leastName?_eq_some_iff, same]
  simp only [same]

/-! ## Dictionary files of a directory -/

/-- The dictionary files in a directory, by their names. -/
def candidates (disk : Disk) (directory : Path) : List String :=
  match disk.list directory with
  | .error _ => []
  | .ok names =>
      names.filter fun name => isDictionaryName name && disk.isFile (directory.child name)

theorem fileIn?_eq (disk : Disk) (directory : Path) :
    fileIn? disk directory = (leastName? (candidates disk directory)).map directory.child := by
  rw [fileIn?, candidates]
  cases disk.list directory with
  | error fault => rfl
  | ok names => rfl

section Names

variable {name : String}

theorem isDictionaryName_front (dictionary : isDictionaryName name = true) :
    ∃ rest, name.toList = 'e' :: rest := by
  rw [isDictionaryName, Bool.and_eq_true] at dictionary
  rcases List.isPrefixOf_iff_prefix.1 dictionary.1 with ⟨rest, chars⟩
  exact ⟨_, chars.symm⟩

theorem isDictionaryName_relative (dictionary : isDictionaryName name = true) :
    (Path.mk name).isAbsolute = false := by
  rcases isDictionaryName_front dictionary with ⟨rest, chars⟩
  rw [Path.isAbsolute, chars]
  rfl

theorem isDictionaryName_entry (dictionary : isDictionaryName name = true)
    (whole : '/' ∉ name.toList) : Path.EntryName name := by
  rcases isDictionaryName_front dictionary with ⟨rest, chars⟩
  refine ⟨whole, by simp [chars], ?_, ?_⟩
  · rintro rfl
    exact absurd chars (by simp)
  · rintro rfl
    exact absurd chars (by simp)

theorem fileName_toList (locale : String) :
    (Locale.fileName locale).toList =
      "emoji_".toList ++ (Locale.language locale).toList ++ ".dict".toList := by
  simp [Locale.fileName, toString]

theorem isDictionaryName_fileName (locale : String) :
    isDictionaryName (Locale.fileName locale) = true := by
  have front : "emoji".toList <+: (Locale.fileName locale).toList :=
    ⟨'_' :: ((Locale.language locale).toList ++ ".dict".toList), by simp [fileName_toList]⟩
  have back : ".dict".toList <:+ (Locale.fileName locale).toList :=
    ⟨"emoji_".toList ++ (Locale.language locale).toList, (fileName_toList locale).symm⟩
  have complete : ¬ ".part".toList <:+ (Locale.fileName locale).toList := by
    intro part
    exact absurd (List.suffix_of_suffix_length_le part back (by decide)) (by decide)
  rw [isDictionaryName, List.isPrefixOf_iff_prefix.2 front, Bool.true_and, Bool.not_eq_true',
    Bool.eq_false_iff]
  exact fun part => complete (List.isSuffixOf_iff_suffix.1 part)

end Names

section Directories

variable {disk : Disk} {directory : Path} {name : String}

theorem of_mem_candidates (member : name ∈ candidates disk directory) :
    isDictionaryName name = true ∧ (∃ bytes, disk.read (directory.child name) = .ok bytes) ∧
      ∃ names, disk.list directory = .ok names ∧ name ∈ names := by
  rw [candidates] at member
  cases listed : disk.list directory with
  | error fault =>
      rw [listed] at member
      exact absurd member (by simp)
  | ok names =>
      simp only [listed, List.mem_filter, Bool.and_eq_true] at member
      rcases member with ⟨held, dictionary, file⟩
      exact ⟨dictionary, Disk.isFile_iff.1 file, names, rfl, held⟩

/-- The empty path is no directory. -/
theorem full_of_mem_candidates (member : name ∈ candidates disk directory) :
    directory.text.isEmpty = false := by
  rcases of_mem_candidates member with ⟨_, _, names, listed, _⟩
  rcases Disk.list_eq_ok_iff.1 listed with ⟨place, _, leads, _⟩
  exact (Disk.leadsTo_iff.1 leads).2.1

theorem mem_candidates_of_read {bytes : List UInt8} (full : directory.text.isEmpty = false)
    (dictionary : isDictionaryName name = true) (whole : '/' ∉ name.toList)
    (read : disk.read (directory.child name) = .ok bytes) : name ∈ candidates disk directory := by
  have entry := isDictionaryName_entry dictionary whole
  rcases Disk.exists_mem_list read full entry with ⟨names, listed, member⟩
  rw [candidates, listed]
  simp only [List.mem_filter, Bool.and_eq_true]
  exact ⟨member, dictionary, Disk.isFile_iff.2 ⟨bytes, read⟩⟩

theorem whole_of_mem_candidates (plain : disk.Plain) (member : name ∈ candidates disk directory) :
    '/' ∉ name.toList := by
  rcases of_mem_candidates member with ⟨_, _, names, listed, held⟩
  rcases Disk.list_eq_ok_iff.1 listed with ⟨place, inside, _, found, rfl⟩
  apply plain name place
  rw [Disk.standing, Disk.entry?_cons, found]
  rcases there : inside.find? name with _ | ⟨below⟩ | ⟨bytes⟩
  · exact absurd there (Folder.mem_names_iff.1 held)
  · simp [there, Standing.of]
  · simp [there, Standing.of]

/-- What is found is a file in the directory, with the name of a dictionary. -/
theorem fileIn?_eq_some {file : Path} (found : fileIn? disk directory = some file) :
    ∃ name ∈ candidates disk directory, file = directory.child name := by
  rw [fileIn?_eq, Option.map_eq_some_iff] at found
  rcases found with ⟨name, least, rfl⟩
  exact ⟨name, (leastName?_eq_some_iff.1 least).1, rfl⟩

end Directories

/-! ## Directories that are searched -/

theorem language_normalize (locale : String) :
    Locale.language (Locale.normalize locale) = Locale.language locale := by
  simp only [Locale.language, Locale.normalize_normalize]

/-- The file for a locale is the one of its own directory, otherwise that of its language. -/
theorem resolve?_eq (cache : DictionaryCache) (locale : String) :
    cache.resolve? locale =
      (fileIn? cache.disk (cache.directory locale)).or
        (if Locale.language locale == Locale.normalize locale then none
          else fileIn? cache.disk (cache.root.child (Locale.language locale))) := by
  unfold resolve? directory
  dsimp only
  rw [language_normalize]
  generalize fileIn? cache.disk (cache.root.child (Locale.normalize locale)) = own
  cases own <;> simp only [Option.none_or, Option.some_or]

/-! ## The file of an installation -/

/-- The file that an installation gives to a locale is the first dictionary file in the directory
of the locale. -/
structure Foremost (cache : DictionaryCache) (locale : String) : Prop where
  held : Locale.fileName locale ∈ candidates cache.disk (cache.directory locale)
  first : ∀ name ∈ candidates cache.disk (cache.directory locale), ¬ name < Locale.fileName locale

/-- The language stands in front of the first underscore of a tag. -/
theorem normalize_toList (locale : String) :
    (Locale.normalize locale).toList =
      (Locale.language locale).toList ++ (Locale.normalize locale).toList.dropWhile (· != '_') := by
  rw [Locale.language, String.toList_ofList]
  exact List.takeWhile_append_dropWhile.symm

/-- A tag with a region goes on with an underscore behind its language. -/
theorem region_of_language_ne {locale : String}
    (region : Locale.language locale ≠ Locale.normalize locale) :
    ∃ rest, (Locale.normalize locale).toList =
      (Locale.language locale).toList ++ '_' :: rest := by
  have whole := normalize_toList locale
  have shorter : (Locale.language locale).toList ≠ (Locale.normalize locale).toList :=
    fun same => region (String.toList_inj.1 same)
  generalize (Locale.normalize locale).toList = tag at whole shorter ⊢
  have first := List.head?_dropWhile_not (· != '_') tag
  cases later : tag.dropWhile (· != '_') with
  | nil =>
      rw [later, List.append_nil] at whole
      exact absurd whole.symm shorter
  | cons c rest =>
      rw [later] at first whole
      obtain rfl : c = '_' := by simpa using first
      exact ⟨rest, whole⟩

/-- What is found for the language is not the file of the locale. -/
theorem child_language_ne_target (cache : DictionaryCache) {locale name : String}
    (region : Locale.language locale ≠ Locale.normalize locale)
    (dictionary : isDictionaryName name = true) :
    (cache.root.child (Locale.language locale)).child name ≠ cache.target locale := by
  intro same
  rcases region_of_language_ne region with ⟨rest, tag⟩
  have absolute : (Path.mk (Locale.language locale)).isAbsolute =
      (Path.mk (Locale.normalize locale)).isAbsolute := by
    rw [Path.isAbsolute, Path.isAbsolute, tag]
    cases (Locale.language locale).toList <;> rfl
  rcases cache.root.join_front absolute with ⟨front, left, right⟩
  rcases (cache.root.child (Locale.language locale)).child_text
    (isDictionaryName_relative dictionary) with ⟨slash, kind, first⟩
  rcases (cache.directory locale).child_text
    (isDictionaryName_relative (isDictionaryName_fileName locale)) with ⟨other, _, second⟩
  -- Behind the language one text goes on with an underscore, and the other one does not.
  have texts : slash.toList ++ name.toList =
      '_' :: rest ++ (other.toList ++ (Locale.fileName locale).toList) := by
    have whole := congrArg String.toList (first.symm.trans ((congrArg Path.text same).trans second))
    rw [directory, Path.child, Path.child, left, right] at whole
    simpa only [String.toList_append, tag, List.append_assoc, List.append_cancel_left_eq] using whole
  rcases isDictionaryName_front dictionary with ⟨more, chars⟩
  rcases kind with rfl | rfl
  · rw [chars] at texts
    exact absurd texts (by simp)
  · exact absurd texts (by simp)

/-- The installed file is found for its locale where it is the first one, and only there. -/
theorem resolve?_eq_target_iff (cache : DictionaryCache) (locale : String) :
    cache.resolve? locale = some (cache.target locale) ↔ cache.Foremost locale := by
  have named := isDictionaryName_relative (isDictionaryName_fileName locale)
  rw [resolve?_eq, Option.or_eq_some_iff]
  constructor
  · rintro (own | ⟨_, general⟩)
    · rw [fileIn?_eq, Option.map_eq_some_iff] at own
      rcases own with ⟨name, least, same⟩
      rcases leastName?_eq_some_iff.1 least with ⟨held, first⟩
      have relative := isDictionaryName_relative (of_mem_candidates held).1
      obtain rfl : name = Locale.fileName locale := Path.child_inj _ relative named same
      exact ⟨held, first⟩
    · split at general
      · exact absurd general (by simp)
      · next region =>
          rcases fileIn?_eq_some general with ⟨name, held, same⟩
          have differs := cache.child_language_ne_target (by simpa using region)
            (of_mem_candidates held).1
          exact absurd same.symm differs
  · rintro ⟨held, first⟩
    refine Or.inl ?_
    rw [fileIn?_eq, leastName?_eq_some_iff.2 ⟨held, first⟩]
    rfl

/-! ## What parts of downloads leave alone -/

/-- The directories that are searched for a locale. -/
def searched (cache : DictionaryCache) (locale : String) : List Path :=
  [cache.directory locale, cache.root.child (Locale.language locale)]

theorem exists_searched {cache : DictionaryCache} {locale : String} {file : Path}
    (found : cache.resolve? locale = some file) :
    ∃ directory ∈ cache.searched locale, fileIn? cache.disk directory = some file := by
  rw [resolve?_eq, Option.or_eq_some_iff] at found
  rcases found with own | ⟨_, general⟩
  · exact ⟨_, List.mem_cons_self, own⟩
  · split at general
    · exact absurd general (by simp)
    · exact ⟨_, List.mem_cons_of_mem _ List.mem_cons_self, general⟩

theorem resolve?_congr {before after : DictionaryCache} {locale : String}
    (root : after.root = before.root)
    (same : ∀ directory ∈ before.searched locale,
      fileIn? after.disk directory = fileIn? before.disk directory) :
    after.resolve? locale = before.resolve? locale := by
  have own := same _ List.mem_cons_self
  have general := same _ (List.mem_cons_of_mem _ List.mem_cons_self)
  rw [resolve?_eq, resolve?_eq, directory, root, ← directory, own, general]

section Parts

variable {before after : Disk} {directory : Path}

theorem read_candidate {name : String} {bytes : List UInt8}
    (spares : Disk.Spares isPartName before after) (anchored : before.Anchored directory)
    (dictionary : isDictionaryName name = true) (whole : '/' ∉ name.toList) :
    after.read (directory.child name) = .ok bytes ↔ before.read (directory.child name) = .ok bytes := by
  have entry := isDictionaryName_entry dictionary whole
  exact Disk.read_anchored spares (entry.endsIn_child directory)
    (isPartName_of_isDictionaryName dictionary) (anchored.child entry)

theorem mem_candidates_spared (spares : Disk.Spares isPartName before after) (plain : before.Plain)
    (plainAfter : after.Plain) (anchored : before.Anchored directory) (name : String) :
    name ∈ candidates after directory ↔ name ∈ candidates before directory := by
  constructor
  · intro member
    have full := full_of_mem_candidates member
    have whole := whole_of_mem_candidates plainAfter member
    rcases of_mem_candidates member with ⟨dictionary, ⟨bytes, read⟩, _⟩
    exact mem_candidates_of_read full dictionary whole
      ((read_candidate spares anchored dictionary whole).1 read)
  · intro member
    have full := full_of_mem_candidates member
    have whole := whole_of_mem_candidates plain member
    rcases of_mem_candidates member with ⟨dictionary, ⟨bytes, read⟩, _⟩
    exact mem_candidates_of_read full dictionary whole
      ((read_candidate spares anchored dictionary whole).2 read)

end Parts

/-- Where all searched directories are anchored, the same file is found, with the same bytes. -/
theorem resolve?_spared {before after : DictionaryCache} {locale : String}
    (root : after.root = before.root) (spares : Disk.Spares isPartName before.disk after.disk)
    (plain : before.disk.Plain) (plainAfter : after.disk.Plain)
    (anchored : ∀ directory ∈ before.searched locale, before.disk.Anchored directory) :
    after.resolve? locale = before.resolve? locale ∧
      ∀ file, before.resolve? locale = some file →
        ∃ bytes, before.disk.read file = .ok bytes ∧ after.disk.read file = .ok bytes := by
  constructor
  · refine resolve?_congr root ?_
    intro directory member
    rw [fileIn?_eq, fileIn?_eq]
    exact congrArg (Option.map _) (leastName?_congr
      (mem_candidates_spared spares plain plainAfter (anchored directory member)))
  · intro file found
    rcases exists_searched found with ⟨directory, member, inside⟩
    rcases fileIn?_eq_some inside with ⟨name, held, rfl⟩
    rcases of_mem_candidates held with ⟨dictionary, ⟨bytes, read⟩, _⟩
    have whole := whole_of_mem_candidates plain held
    exact ⟨bytes, read,
      (read_candidate spares (anchored directory member) dictionary whole).2 read⟩

end DictionaryCache
end EmojiPicker

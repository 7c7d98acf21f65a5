import EmojiPicker.Proofs.Dictionary.Resolution
import EmojiPicker.Proofs.Text.ByteOrder

/-!
# Which dictionary file is chosen, as a rule

* `DictionaryCache.Eligible` — the files of a directory that count as dictionaries;
* `DictionaryCache.Chosen` — the file for a locale by the order of bytes;
* `DictionaryCache.resolve?_eq_some_iff`, `DictionaryCache.resolve?_eq_none_iff` — resolving follows
  the rule;
* `Disk.Alike` — disks on which a path has the same meaning for files that both of them hold;
* `DictionaryCache.chosen_by_rule` — what the choice does not depend on.
-/

namespace EmojiPicker

/-! ## Disks on which a path means the same -/

namespace Disk

variable {d e : Disk} {p : Path}

/-- Two disks hold the same files whose names begin with `emoji` and do not end in `.part`; what is
in them may differ. -/
def SameDictionaries (d e : Disk) : Prop :=
  ∀ name place, "emoji".toList <+: name.toList → ¬ ".part".toList <:+ name.toList →
    ((∃ bytes, d.standing (name :: place) = .file bytes) ↔
      ∃ bytes, e.standing (name :: place) = .file bytes)

/-- The first names of a path lead to one place on both disks, and from there the others never go
up; or the path is unfit for any use. -/
def Alike (d e : Disk) (p : Path) : Prop :=
  (∃ front back mid, p.names = front ++ back ∧ d.Leads (d.origin p) front mid ∧
      e.Leads (e.origin p) front mid ∧ ".." ∉ back) ∨
    misspelling? p ≠ none

theorem SameDictionaries.symm (same : SameDictionaries d e) : SameDictionaries e d :=
  fun name place begins complete => (same name place begins complete).symm

theorem Alike.symm (alike : Alike d e p) : Alike e d p := by
  rcases alike with ⟨front, back, mid, names, first, second, level⟩ | misspelled
  · exact Or.inl ⟨front, back, mid, names, second, first, level⟩
  · exact Or.inr misspelled

/-- A path that never goes up is alike on all disks. -/
theorem alike_of_level (workingDirectory : e.workingDirectory = d.workingDirectory)
    (level : ".." ∉ p.names) : Alike d e p := by
  refine Or.inl ⟨[], p.names, d.origin p, rfl, .done _, ?_, level⟩
  have origin : e.origin p = d.origin p := by rw [origin, origin, workingDirectory]
  rw [origin]
  exact .done _

/-- What a path leads to on one disk it leads to on another one too, if something stands there on
both. -/
theorem Alike.leadsTo_child {name : String} {place : Place} {bytes : List UInt8}
    (alike : Alike d e p) (entry : Path.EntryName name)
    (leads : d.LeadsTo (p.child name) (name :: place))
    (stands : e.standing (name :: place) = .file bytes) :
    e.LeadsTo (p.child name) (name :: place) := by
  rcases leadsTo_iff.1 leads with ⟨spelled, written, way⟩
  refine leadsTo_iff.2 ⟨spelled, written, ?_⟩
  rcases alike with ⟨front, back, mid, names, first, second, level⟩ | misspelled
  · rw [entry.origin_child, entry.names_child, names, List.append_assoc] at way
    rw [entry.origin_child, entry.names_child, names, List.append_assoc]
    rcases Leads.append_iff.1 way with ⟨other, before, behind⟩
    obtain rfl : other = mid := first.unique before
    have level' : ".." ∉ back ++ [name] := by simp [level, Ne.symm entry.up]
    exact Leads.append_iff.2 ⟨other, second, behind.back level' entry.here (by simp [stands])⟩
  · exact absurd (misspelling?_child entry spelled) misspelled

end Disk

namespace DictionaryCache

variable {disk before after : Disk} {directory file : Path} {locale name : String}

/-! ## Eligible files -/

/-- A regular file of a directory whose name begins with `emoji` and does not end in `.part`, with a
path that the disk takes. -/
structure Eligible (disk : Disk) (directory : Path) (name : String) : Prop where
  begins : "emoji".toList <+: name.toList
  complete : ¬ ".part".toList <:+ name.toList
  file : ∃ place bytes, disk.LeadsTo directory place ∧
    disk.LeadsTo (directory.child name) (name :: place) ∧
      disk.standing (name :: place) = .file bytes

theorem isDictionaryName_iff :
    isDictionaryName name = true ↔
      "emoji".toList <+: name.toList ∧ ¬ ".part".toList <:+ name.toList := by
  rw [isDictionaryName, Bool.and_eq_true, Bool.not_eq_true', List.isPrefixOf_iff_prefix,
    Bool.eq_false_iff, ne_eq, List.isSuffixOf_iff_suffix]

theorem Eligible.dictionary (eligible : Eligible disk directory name) :
    isDictionaryName name = true :=
  isDictionaryName_iff.2 ⟨eligible.begins, eligible.complete⟩

/-- The candidates are the eligible files. -/
theorem mem_candidates_iff (plain : disk.Plain) :
    name ∈ candidates disk directory ↔ Eligible disk directory name := by
  constructor
  · intro member
    have full := full_of_mem_candidates member
    have whole := whole_of_mem_candidates plain member
    rcases of_mem_candidates member with ⟨dictionary, ⟨bytes, read⟩, _⟩
    rcases isDictionaryName_iff.1 dictionary with ⟨begins, complete⟩
    have entry := isDictionaryName_entry dictionary whole
    rcases Disk.read_eq_ok_iff.1 read with ⟨place, leads, stands, _⟩
    rcases leads.above_child full entry with ⟨mid, led, _, moves⟩
    obtain rfl := Disk.next?_of_ne entry.here entry.up moves
    exact ⟨begins, complete, mid, bytes, led, leads, stands⟩
  · intro eligible
    rcases eligible.file with ⟨place, bytes, led, leads, stands⟩
    have whole := plain name place (by simp [stands])
    have flat := (isDictionaryName_entry eligible.dictionary whole).flat_child directory
    have read := Disk.read_eq_ok_iff.2 ⟨_, leads, stands, flat⟩
    exact mem_candidates_of_read (Disk.leadsTo_iff.1 led).2.1 eligible.dictionary whole read

/-! ## The rule -/

/-- The eligible file of a directory whose name is the least one by its bytes. -/
def Least (disk : Disk) (directory file : Path) : Prop :=
  ∃ name, Eligible disk directory name ∧
    (∀ other, Eligible disk directory other →
      ¬ Text.encode other.toList < Text.encode name.toList) ∧
    file = directory.child name

theorem fileIn?_eq_some_iff (plain : disk.Plain) :
    fileIn? disk directory = some file ↔ Least disk directory file := by
  rw [fileIn?_eq, Option.map_eq_some_iff]
  constructor
  · rintro ⟨name, least, rfl⟩
    rcases leastName?_eq_some_iff.1 least with ⟨member, least⟩
    refine ⟨name, (mem_candidates_iff plain).1 member, fun other eligible => ?_, rfl⟩
    rw [Text.encode_lt_iff, ← String.lt_iff]
    exact least other ((mem_candidates_iff plain).2 eligible)
  · rintro ⟨name, eligible, least, rfl⟩
    refine ⟨name, leastName?_eq_some_iff.2 ⟨(mem_candidates_iff plain).2 eligible, ?_⟩, rfl⟩
    intro other member
    have law := least other ((mem_candidates_iff plain).1 member)
    rw [Text.encode_lt_iff, ← String.lt_iff] at law
    exact law

theorem fileIn?_eq_none_iff (plain : disk.Plain) :
    fileIn? disk directory = none ↔ ∀ name, ¬ Eligible disk directory name := by
  rw [fileIn?_eq, Option.map_eq_none_iff, leastName?_eq_none_iff, List.eq_nil_iff_forall_not_mem]
  simp only [mem_candidates_iff plain]

/-- The file for a locale: the least one of its own directory, and if there is none that of the
directory of its language. -/
def Chosen (cache : DictionaryCache) (locale : String) (file : Path) : Prop :=
  Least cache.disk (cache.directory locale) file ∨
    (∀ name, ¬ Eligible cache.disk (cache.directory locale) name) ∧
      Least cache.disk (cache.root.child (Locale.language locale)) file

theorem child_language_of_eq (cache : DictionaryCache)
    (same : (Locale.language locale == Locale.normalize locale) = true) :
    cache.root.child (Locale.language locale) = cache.directory locale :=
  congrArg cache.root.child (beq_iff_eq.1 same)

theorem resolve?_eq_some_iff {cache : DictionaryCache} (plain : cache.disk.Plain) :
    cache.resolve? locale = some file ↔ cache.Chosen locale file := by
  rw [resolve?_eq, Option.or_eq_some_iff, fileIn?_eq_some_iff plain, fileIn?_eq_none_iff plain,
    Chosen]
  refine or_congr_right (and_congr_right fun none => ?_)
  split
  · next same =>
      -- Both directories are the same one, and there is nothing in it.
      rw [child_language_of_eq cache same]
      refine iff_of_false (by simp) ?_
      rintro ⟨name, eligible, _⟩
      exact none name eligible
  · exact fileIn?_eq_some_iff plain

theorem resolve?_eq_none_iff {cache : DictionaryCache} (plain : cache.disk.Plain) :
    cache.resolve? locale = none ↔
      (∀ name, ¬ Eligible cache.disk (cache.directory locale) name) ∧
        ∀ name, ¬ Eligible cache.disk (cache.root.child (Locale.language locale)) name := by
  rw [resolve?_eq, Option.or_eq_none_iff, fileIn?_eq_none_iff plain]
  refine and_congr_right fun none => ?_
  split
  · next same =>
      rw [child_language_of_eq cache same]
      exact iff_of_true rfl none
  · exact fileIn?_eq_none_iff plain

/-! ## What it does not depend on -/

theorem resolve?_agree (cache : DictionaryCache) {other : String}
    (agree : Locale.agree locale other = true) : cache.resolve? other = cache.resolve? locale := by
  have same : Locale.normalize other = Locale.normalize locale := (beq_iff_eq.1 agree).symm
  have language : Locale.language other = Locale.language locale := by
    rw [Locale.language, Locale.language, same]
  rw [resolve?_eq, resolve?_eq, directory, directory, same, language]

theorem fileIn?_congr (plain : before.Plain) (plainAfter : after.Plain)
    (same : ∀ name, Eligible after directory name ↔ Eligible before directory name) :
    fileIn? after directory = fileIn? before directory := by
  rw [fileIn?_eq, fileIn?_eq]
  refine congrArg (Option.map _) (leastName?_congr fun name => ?_)
  rw [mem_candidates_iff plainAfter, mem_candidates_iff plain]
  exact same name

/-- Directories and other files play no role where the directory is alike on both disks. -/
theorem Eligible.alike (eligible : Eligible before directory name) (plain : before.Plain)
    (dictionaries : Disk.SameDictionaries before after)
    (alike : Disk.Alike before after directory) : Eligible after directory name := by
  rcases eligible.file with ⟨place, bytes, led, leads, stands⟩
  have full := (Disk.leadsTo_iff.1 led).2.1
  have entry := isDictionaryName_entry eligible.dictionary (plain name place (by simp [stands]))
  rcases (dictionaries name place eligible.begins eligible.complete).1 ⟨bytes, stands⟩ with
    ⟨bytes', stands'⟩
  have leads' := alike.leadsTo_child entry leads stands'
  rcases leads'.above_child full entry with ⟨mid, led', _, moves⟩
  obtain rfl : place = mid := (List.cons.inj (Disk.next?_of_ne entry.here entry.up moves)).2
  exact ⟨eligible.begins, eligible.complete, place, bytes', led', leads', stands'⟩

theorem sameDictionaries_of_spares (spares : Disk.Spares isPartName before after) :
    Disk.SameDictionaries before after := by
  intro name place _ complete
  have foreign : isPartName name = false := by
    rw [isPartName, Bool.eq_false_iff, ne_eq, List.isSuffixOf_iff_suffix]
    exact complete
  simp only [spares.files foreign]

/-- The order in which a directory lists its entries plays no role. -/
theorem Eligible.reordered (eligible : Eligible before directory name)
    (workingDirectory : after.workingDirectory = before.workingDirectory)
    (same : ∀ place, after.standing place = before.standing place) :
    Eligible after directory name := by
  have spares : Disk.Spares (fun _ => false) before after :=
    ⟨workingDirectory, fun stands => (same _).trans stands, fun _ => by rw [same]⟩
  rcases eligible.file with ⟨place, bytes, led, leads, stands⟩
  exact ⟨eligible.begins, eligible.complete, place, bytes, led.spared spares, leads.spared spares,
    (same _).trans stands⟩

theorem plain_of_standing (plain : before.Plain)
    (same : ∀ place, after.standing place = before.standing place) : after.Plain := by
  intro name above stands
  rw [same] at stands
  exact plain name above stands

/-- The file for a locale is chosen by names alone: the least eligible one of the directory of the
locale, otherwise of that of the language, otherwise none. Locales that agree have the same file. So
have disks that list their directories in other orders, and disks that differ in directories and in
files that are not eligible anyway, where the searched directories are alike on both. -/
theorem chosen_by_rule (cache : DictionaryCache) (locale : String) (plain : cache.disk.Plain) :
    (∀ file, cache.resolve? locale = some file ↔ cache.Chosen locale file) ∧
      (cache.resolve? locale = none ↔
        (∀ name, ¬ Eligible cache.disk (cache.directory locale) name) ∧
          ∀ name, ¬ Eligible cache.disk (cache.root.child (Locale.language locale)) name) ∧
      (∀ other, Locale.agree locale other = true →
        cache.resolve? other = cache.resolve? locale) ∧
      (∀ after : Disk, after.workingDirectory = cache.disk.workingDirectory →
        (∀ place, after.standing place = cache.disk.standing place) →
          { cache with disk := after }.resolve? locale = cache.resolve? locale) ∧
      ∀ after : Disk, after.Plain → Disk.SameDictionaries cache.disk after →
        (∀ directory ∈ cache.searched locale, Disk.Alike cache.disk after directory) →
          { cache with disk := after }.resolve? locale = cache.resolve? locale := by
  refine ⟨fun file => resolve?_eq_some_iff plain, resolve?_eq_none_iff plain,
    fun other => cache.resolve?_agree, ?_, ?_⟩
  · intro after workingDirectory same
    refine resolve?_congr rfl fun directory _ => ?_
    refine fileIn?_congr plain (plain_of_standing plain same) fun name => ⟨?_, ?_⟩
    · intro eligible
      exact eligible.reordered workingDirectory.symm fun place => (same place).symm
    · intro eligible
      exact eligible.reordered workingDirectory same
  · intro after plainAfter dictionaries alike
    refine resolve?_congr rfl fun directory member => ?_
    have both := alike directory member
    refine fileIn?_congr plain plainAfter fun name => ⟨?_, ?_⟩
    · intro eligible
      exact eligible.alike plainAfter dictionaries.symm both.symm
    · intro eligible
      exact eligible.alike plain dictionaries both

/-- A directory of the locale itself that holds nothing but a part of a download. -/
theorem chosen_by_rule_fallback :
    let stored := (((({} : Disk).makeDirectories ⟨"dicts/en"⟩).2.write ⟨"dicts/en/emoji_b"⟩ [1]).2.write
      ⟨"dicts/en/emoji_a"⟩ [2]).2
    let cache : DictionaryCache := ⟨⟨"dicts"⟩, stored⟩
    let after := ((stored.makeDirectories ⟨"dicts/en_us"⟩).2.write
      ⟨"dicts/en_us/emoji_en.dict.part"⟩ [3]).2
    cache.disk.Plain ∧ cache.Chosen "en-US" ⟨"dicts/en/emoji_a"⟩ ∧
      cache.resolve? " EN_us" = some ⟨"dicts/en/emoji_a"⟩ ∧
      { cache with disk := after }.resolve? "en-US" = some ⟨"dicts/en/emoji_a"⟩ := by
  intro stored cache after
  have plain : cache.disk.Plain :=
    (((Disk.plain_of_empty rfl).makeDirectories _).write _ _).write _ _
  have found : cache.resolve? "en-US" = some ⟨"dicts/en/emoji_a"⟩ := by decide +kernel
  rcases chosen_by_rule cache "en-US" plain with ⟨rule, _, agree, _, others⟩
  have ends : Path.EndsIn ⟨"dicts/en_us/emoji_en.dict.part"⟩ "emoji_en.dict.part" :=
    ⟨by decide +kernel, by decide, by decide⟩
  have spares := (Disk.spares_makeDirectories isPartName stored ⟨"dicts/en_us"⟩).trans
    (Disk.spares_write ends (by decide +kernel) _ [3])
  have level : ∀ directory ∈ cache.searched "en-US", ".." ∉ directory.names := by decide +kernel
  have same := others after ((plain.makeDirectories _).write _ _) (sameDictionaries_of_spares spares)
    fun directory member => Disk.alike_of_level spares.workingDirectory (level directory member)
  exact ⟨plain, (rule _).1 found, (agree " EN_us" (by decide +kernel)).trans found, same.trans found⟩

/-- A directory that is new and holds nothing. The directory of a locale is written as one above it,
and leads to files now. -/
theorem new_directory_shows_file :
    let disk := (({} : Disk).makeDirectories ⟨"dicts/b"⟩).2
    let stored := (disk.write ⟨"dicts/b/emoji_b.dict"⟩ [123, 125]).2
    let cache : DictionaryCache := ⟨⟨"dicts"⟩, stored⟩
    let after := (stored.makeDirectories ⟨"dicts/a"⟩).2
    cache.resolve? "a/../b" = none ∧
      { cache with disk := after }.resolve? "a/../b" = some ⟨"dicts/a/../b/emoji_b.dict"⟩ := by
  decide +kernel

end DictionaryCache
end EmojiPicker

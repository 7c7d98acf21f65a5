import EmojiPicker.Proofs.Dictionary.Resolution
import EmojiPicker.Proofs.Disk.Components

/-!
# Dictionaries below their root

* `Locale.Filed` — a locale that is one name as a path, with a language that holds no slash;
* `DictionaryCache.liesIn_iff` — those are the locales with one directory in the root and one file in
  that directory;
* `Disk.Within`, `Path.Beneath` — places at or below a directory, and paths that lead there;
* `DictionaryCache.stays_below_root` — what installing and resolving touch for such a locale.

Nothing keeps a locale from going up, or from being an absolute path: see
`DictionaryCache.leaves_root`.
-/

namespace EmojiPicker

/-! ## Below a directory -/

/-- The path `q` goes on behind `p`, and never up from there. -/
structure Path.Beneath (q p : Path) : Prop where
  absolute : q.isAbsolute = p.isAbsolute
  names : ∃ more, ".." ∉ more ∧ q.names = p.names ++ more

theorem Path.level_of_whole {name : String} (whole : '/' ∉ name.toList) (level : name ≠ "..") :
    ".." ∉ (Path.mk name).names := by
  intro up
  by_cases present : name.toList = []
  · rw [Path.names, present] at up
    exact absurd up (by simp [Text.pieces])
  · rw [Path.names_of_whole whole present, List.mem_singleton] at up
    exact level up.symm

theorem Path.beneath_child (p : Path) {name : String} (relative : (Path.mk name).isAbsolute = false)
    (level : ".." ∉ (Path.mk name).names) : (p.child name).Beneath p where
  absolute := (p.names_child relative).2
  names := ⟨_, level, (p.names_child relative).1⟩

theorem Path.Beneath.child {p q : Path} {name : String} (beneath : q.Beneath p)
    (entry : EntryName name) : (q.child name).Beneath p where
  absolute := (q.names_child entry.relative).2.trans beneath.absolute
  names := by
    rcases beneath.names with ⟨more, level, names⟩
    refine ⟨more ++ [name], by simp [level, Ne.symm entry.up], ?_⟩
    rw [entry.names_child, names, List.append_assoc]

theorem Path.Beneath.origin_eq {p q : Path} (beneath : q.Beneath p) (d : Disk) :
    d.origin q = d.origin p := by
  rw [Disk.origin, Disk.origin, beneath.absolute]

namespace Disk

variable {d : Disk} {p q : Path} {place : Place}

/-- A place is that of a directory, or lies below it. -/
def Within (d : Disk) (p : Path) (place : Place) : Prop :=
  ∃ mid below, d.Leads (d.origin p) p.names mid ∧ place = below ++ mid

/-- A way that never goes up ends where it starts or below. -/
theorem Leads.downward {final : Place} {names : List String} (leads : d.Leads place names final)
    (level : ".." ∉ names) : ∃ below, final = below ++ place := by
  induction leads with
  | done place => exact ⟨[], rfl⟩
  | @step place next final name rest _ moves _ ih =>
      have up : name ≠ ".." := by
        rintro rfl
        exact level List.mem_cons_self
      rcases ih fun later => level (List.mem_cons_of_mem name later) with ⟨below, rfl⟩
      by_cases here : name = "."
      · rw [next?, if_pos (by simpa using here)] at moves
        obtain rfl := Option.some.inj moves
        exact ⟨below, rfl⟩
      · rw [next?_of_ne here up moves]
        exact ⟨below ++ [name], by simp⟩

theorem LeadsTo.within (leads : d.LeadsTo q place) (beneath : q.Beneath p) : d.Within p place := by
  rcases beneath.names with ⟨more, level, names⟩
  have way := (leadsTo_iff.1 leads).2.2
  rw [beneath.origin_eq d, names] at way
  rcases Leads.append_iff.1 way with ⟨mid, first, second⟩
  rcases second.downward level with ⟨below, same⟩
  exact ⟨mid, below, first, same⟩

/-- On the way to a path beneath a directory lies what is on the way to the directory, and then what
is in it. -/
theorem Passes.within (passes : d.Passes q place) (beneath : q.Beneath p) :
    d.Within p place ∨ d.Passes p place := by
  rcases beneath.names with ⟨more, level, names⟩
  rcases passes with ⟨front, begins, leads⟩
  rw [beneath.origin_eq d] at leads
  rw [names] at begins
  rcases List.prefix_or_prefix_of_prefix begins (List.prefix_append p.names more) with
    early | ⟨rest, rfl⟩
  · exact Or.inr ⟨front, early, leads⟩
  · have behind := (List.prefix_append_right_inj p.names).1 begins
    rcases Leads.append_iff.1 leads with ⟨mid, first, second⟩
    rcases second.downward fun up => level (behind.subset up) with ⟨below, same⟩
    exact Or.inl ⟨mid, below, first, same⟩

end Disk

/-! ## Locales -/

namespace Locale

/-- A locale that is one name as a path, and whose language is a part of a name. -/
structure Filed (locale : String) : Prop where
  single : ∃ name, (Path.mk (normalize locale)).components = [.entry name]
  whole : '/' ∉ (language locale).toList

theorem filed_of_entryName {locale : String} (entry : Path.EntryName (normalize locale)) :
    Filed locale := by
  refine ⟨⟨normalize locale, ?_⟩, ?_⟩
  · refine Path.components_eq_singleton_iff.2 ⟨_, [], ?_, entry.isStep, entry.ofStep, rfl⟩
    exact Text.pieces_whole (Text.no_slash entry.whole)
  · intro slash
    refine entry.whole ?_
    rw [DictionaryCache.normalize_toList]
    exact List.mem_append_left _ slash

end Locale

namespace DictionaryCache

variable {locale : String}

/-! ## File names -/

theorem entryName_of_front {name : String} {rest : List Char} (chars : name.toList = 'e' :: rest)
    (whole : '/' ∉ name.toList) : Path.EntryName name where
  whole := whole
  present := by simp [chars]
  here := by
    rintro rfl
    exact absurd chars (by simp)
  up := by
    rintro rfl
    exact absurd chars (by simp)

theorem entryName_fileName (whole : '/' ∉ (Locale.language locale).toList) :
    Path.EntryName (Locale.fileName locale) := by
  refine isDictionaryName_entry (isDictionaryName_fileName locale) ?_
  rw [fileName_toList]
  simp [whole]

theorem entryName_part (whole : '/' ∉ (Locale.language locale).toList) :
    Path.EntryName (Locale.fileName locale ++ ".part") := by
  have chars : (Locale.fileName locale ++ ".part").toList =
      (Locale.fileName locale).toList ++ ".part".toList := by
    simp
  rcases isDictionaryName_front (isDictionaryName_fileName locale) with ⟨rest, front⟩
  have complete := (entryName_fileName whole).whole
  have begins : (Locale.fileName locale ++ ".part").toList = 'e' :: (rest ++ ".part".toList) := by
    rw [chars, front]
    rfl
  refine entryName_of_front begins ?_
  rw [chars]
  simp [complete]

/-- A slash in the language cuts the file name into several steps. -/
theorem two_le_steps_fileName (slash : '/' ∈ (Locale.language locale).toList) :
    2 ≤ (Path.steps (Locale.fileName locale)).length := by
  -- The first step begins like the file name, and the last one ends like it.
  rcases List.append_of_mem slash with ⟨front, back, chars⟩
  have whole : (Locale.fileName locale).toList =
      ("emoji_".toList ++ front) ++ '/' :: (back ++ ".dict".toList) := by
    rw [fileName_toList, chars]
    simp
  have tail : ∀ c ∈ ".dict".toList, (c == '/') = false := by simp
  rcases Text.pieces_append tail back with ⟨before, last, later⟩
  have ends : Path.isStep (last ++ ".dict".toList) = true := by
    cases last <;> simp [Path.isStep]
  rcases cut : Text.pieces (· == '/') ("emoji_".toList ++ front) with _ | ⟨first, rest⟩
  · exact absurd cut (Text.pieces_ne_nil _ _)
  have begins : Path.isStep first = true := by
    have chars : "emoji_".toList ++ front = 'e' :: ("moji_".toList ++ front) := rfl
    rcases inner : Text.pieces (· == '/') ("moji_".toList ++ front) with _ | ⟨piece, more⟩
    · exact absurd inner (Text.pieces_ne_nil _ _)
    · rw [chars, Text.pieces, inner] at cut
      obtain rfl : first = 'e' :: piece := (List.cons.inj cut).1.symm
      rfl
  rw [Path.steps, whole, Text.pieces_separated (by rfl), cut, later, List.cons_append,
    Path.stepsOf_cons begins, Path.stepsOf_append, Path.stepsOf_append, Path.stepsOf_cons ends]
  simp
  omega

/-! ## One directory and one file -/

/-- What a tag begins with, up to an underscore, its language begins with. -/
theorem isPrefix_language {front : List Char} (begins : front <+: (Locale.normalize locale).toList)
    (within : ∀ c ∈ front, (c != '_') = true) : front <+: (Locale.language locale).toList := by
  rcases begins with ⟨rest, chars⟩
  rw [Locale.language, String.toList_ofList, ← chars, List.takeWhile_append_of_pos within]
  exact List.prefix_append front _

/-- A locale has one directory in every root and one file in it just if it is filed. -/
theorem liesIn_iff (cache : DictionaryCache) (locale : String) :
    ((cache.directory locale).LiesIn cache.root ∧
        (cache.target locale).LiesIn (cache.directory locale) ∧
        (cache.partialTarget locale).LiesIn (cache.directory locale)) ↔
      Locale.Filed locale := by
  constructor
  · rintro ⟨directory, ⟨file, target⟩, _⟩
    have whole : '/' ∉ (Locale.language locale).toList := by
      intro slash
      have named := isDictionaryName_relative (isDictionaryName_fileName locale)
      have long := two_le_steps_fileName slash
      rw [DictionaryCache.target, Path.components_child directory.full named,
        List.append_cancel_left_eq] at target
      rw [target] at long
      exact absurd long (by simp)
    -- A slash at the start of the tag, or behind a dot there, would stand in the language.
    have relative : (Path.mk (Locale.normalize locale)).isAbsolute = false := by
      cases absolute : (Path.mk (Locale.normalize locale)).isAbsolute with
      | false => rfl
      | true =>
          rw [Path.isAbsolute, beq_iff_eq, List.head?_eq_some_iff] at absolute
          rcases absolute with ⟨rest, chars⟩
          have begins : ['/'] <+: (Locale.normalize locale).toList := ⟨rest, chars.symm⟩
          have slash := (isPrefix_language begins (by simp)).subset List.mem_cons_self
          exact absurd slash whole
    have undotted : ¬ ['.', '/'] <+: (Locale.normalize locale).toList := by
      intro begins
      have slash := (isPrefix_language begins (by simp)).subset (by simp : '/' ∈ ['.', '/'])
      exact absurd slash whole
    rcases directory with ⟨name, components⟩
    exact ⟨⟨name, Path.components_singleton_of_child relative undotted components⟩, whole⟩
  · intro filed
    rcases filed.single with ⟨name, single⟩
    have directory : (cache.directory locale).LiesIn cache.root :=
      ⟨name, cache.root.components_child_of_singleton single⟩
    exact ⟨directory, (entryName_fileName filed.whole).liesIn directory.full,
      (entryName_part filed.whole).liesIn directory.full⟩

/-! ## What is touched -/

section Touched

variable {cache : DictionaryCache} {place : Place}

theorem directory_beneath (cache : DictionaryCache) (filed : Locale.Filed locale) :
    (cache.directory locale).Beneath cache.root := by
  rcases filed.single with ⟨name, single⟩
  exact cache.root.beneath_child (Path.relative_of_components_singleton single)
    (Path.level_of_components_singleton single)

/-- An installation touches only what is in the root, and makes the root. -/
theorem install_within (cache : DictionaryCache) (filed : Locale.Filed locale) (bytes : List UInt8)
    (place : Place) :
    let after := (cache.install bytes locale).2.disk
    after.standing place = cache.disk.standing place ∨ after.Within cache.root place ∨
      cache.disk.standing place = .nothing ∧ after.standing place = .directory ∧
        after.Passes cache.root place := by
  have beneath := directory_beneath cache filed
  rcases (cache.touches_install bytes locale).places place with
    same | ⟨free, made, p, member, passes⟩ | ⟨_, p, member, leads⟩
  · exact Or.inl same
  · rw [List.mem_singleton.1 member] at passes
    rcases passes.within beneath with within | passes
    · exact Or.inr (Or.inl within)
    · exact Or.inr (Or.inr ⟨free, made, passes⟩)
  · have file : p.Beneath cache.root := by
      rcases List.mem_pair.1 member with same | same
      · rw [same]
        exact beneath.child (entryName_fileName filed.whole)
      · rw [same]
        exact beneath.child (entryName_part filed.whole)
    exact Or.inr (Or.inl (leads.within file))

theorem searched_beneath (filed : Locale.Filed locale) (level : Locale.language locale ≠ "..")
    {directory : Path} (member : directory ∈ cache.searched locale) :
    directory.Beneath cache.root := by
  rcases List.mem_pair.1 member with same | same
  · rw [same]
    exact directory_beneath cache filed
  · rw [same]
    exact cache.root.beneath_child (Path.relative_of_whole filed.whole)
      (Path.level_of_whole filed.whole level)

/-- What is found for a locale lies in the root. -/
theorem resolve?_within (filed : Locale.Filed locale) (level : Locale.language locale ≠ "..")
    (plain : cache.disk.Plain) {file : Path} (found : cache.resolve? locale = some file) :
    ∃ place, cache.disk.LeadsTo file place ∧ cache.disk.Within cache.root place := by
  rcases exists_searched found with ⟨directory, member, inside⟩
  rcases fileIn?_eq_some inside with ⟨name, held, rfl⟩
  rcases of_mem_candidates held with ⟨dictionary, ⟨bytes, read⟩, _⟩
  rcases Disk.read_eq_ok_iff.1 read with ⟨place, leads, _⟩
  have entry := isDictionaryName_entry dictionary (whole_of_mem_candidates plain held)
  exact ⟨place, leads, leads.within ((searched_beneath filed level member).child entry)⟩

end Touched

/-- A locale has one directory in its root and one file in that just if it is filed. For such a
locale an installation touches nothing outside of the root, apart from the directories that lead
there, however far it gets; and what is searched and found for it lies in the root, unless its
language is the step up. -/
theorem stays_below_root (cache : DictionaryCache) (locale : String) :
    (((cache.directory locale).LiesIn cache.root ∧
        (cache.target locale).LiesIn (cache.directory locale) ∧
        (cache.partialTarget locale).LiesIn (cache.directory locale)) ↔
      Locale.Filed locale) ∧
      (Locale.Filed locale →
        (∀ bytes place,
          let after := (cache.install bytes locale).2.disk
          after.standing place = cache.disk.standing place ∨ after.Within cache.root place ∨
            cache.disk.standing place = .nothing ∧ after.standing place = .directory ∧
              after.Passes cache.root place) ∧
          (Locale.language locale ≠ ".." → cache.disk.Plain →
            (∀ directory ∈ cache.searched locale, ∀ place, cache.disk.LeadsTo directory place →
              cache.disk.Within cache.root place) ∧
              ∀ file, cache.resolve? locale = some file →
                ∃ place, cache.disk.LeadsTo file place ∧ cache.disk.Within cache.root place)) := by
  refine ⟨liesIn_iff cache locale, fun filed => ⟨install_within cache filed, fun level plain => ?_⟩⟩
  refine ⟨fun directory member place leads => ?_, fun file => resolve?_within filed level plain⟩
  exact leads.within (searched_beneath filed level member)

theorem stays_below_root_region :
    let cache : DictionaryCache := ⟨⟨"dicts"⟩, {}⟩
    let after := (cache.install [1] "en-US").2
    let file : Path := ⟨"dicts/en_us/emoji_en.dict"⟩
    (cache.directory "en-US").LiesIn cache.root ∧
      after.disk.Within cache.root ["emoji_en.dict", "en_us", "dicts"] ∧
      after.resolve? "en-US" = some file ∧
      ∃ place, after.disk.LeadsTo file place ∧ after.disk.Within after.root place := by
  intro cache after file
  have filed : Locale.Filed "en-US" := by
    refine Locale.filed_of_entryName ⟨?_, ?_, ?_, ?_⟩ <;> decide +kernel
  have found : after.resolve? "en-US" = some file := by decide +kernel
  rcases stays_below_root cache "en-US" with ⟨placed, touched⟩
  rcases stays_below_root after "en-US" with ⟨_, kept⟩
  refine ⟨(placed.2 filed).1, ?_, found, ?_⟩
  · have installed : after.disk.standing ["emoji_en.dict", "en_us", "dicts"] = .file [1] := by
      decide +kernel
    have missing : cache.disk.standing ["emoji_en.dict", "en_us", "dicts"] = .nothing := by
      decide +kernel
    rcases (touched filed).1 [1] ["emoji_en.dict", "en_us", "dicts"] with same | within | made
    · exact absurd (installed.symm.trans (same.trans missing)) (by simp)
    · exact within
    · exact absurd (installed.symm.trans made.2.1) (by simp)
  · have plain : after.disk.Plain := plain_install (Disk.plain_of_empty rfl) [1] "en-US"
    exact ((kept filed).2 (by decide +kernel) plain).2 file found

/-- The locale that is the step up. Its directory is the one around the root, where a dictionary is
found and another one installed. -/
theorem leaves_root :
    let disk := (({} : Disk).makeDirectories ⟨"dicts"⟩).2
    let cache : DictionaryCache := ⟨⟨"dicts"⟩, (disk.write ⟨"emoji_out.dict"⟩ [123, 125]).2⟩
    ¬ (cache.directory "..").LiesIn cache.root ∧
      cache.resolve? ".." = some ⟨"dicts/../emoji_out.dict"⟩ ∧
      cache.disk.LeadsTo ⟨"dicts/../emoji_out.dict"⟩ ["emoji_out.dict"] ∧
      ¬ cache.disk.Within cache.root ["emoji_out.dict"] ∧
      (cache.install [1] "..").2.disk.standing ["emoji_...dict"] = .file [1] := by
  intro disk cache
  refine ⟨?_, by decide +kernel, by rw [Disk.LeadsTo]; decide +kernel, ?_, by decide +kernel⟩
  · rintro ⟨name, inside⟩
    have up : (cache.directory "..").components = cache.root.components ++ [.up] := by decide +kernel
    rw [up] at inside
    simp at inside
  · rintro ⟨mid, below, leads, same⟩
    have root : cache.disk.LeadsTo cache.root ["dicts"] := by
      rw [Disk.LeadsTo]
      decide +kernel
    obtain rfl : mid = ["dicts"] := (Disk.leadsTo_iff.1 root).2.2.unique leads
    have last := congrArg List.getLast? same
    simp at last

end DictionaryCache
end EmojiPicker

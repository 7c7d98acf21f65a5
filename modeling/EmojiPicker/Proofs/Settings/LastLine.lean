import EmojiPicker.Proofs.Settings.Values

/-!
# The last line of a field counts

Every line of a settings file is about one field at most, and the fields do not disturb each other.

* `Settings.Names`, `Settings.Sets`, `Settings.ofLine?_eq_some_iff` — what a line is about, and what it sets;
* `Settings.setting`, `Settings.setting_apply_self` — one field of the settings, and its change;
* `Settings.setting_foldl` — a field after some lines;
* `Settings.parse_joined`, `Settings.parse_parse` — texts by their lines, and one text behind another;
* `Settings.last_line_wins` — the fields after a text.
-/

namespace EmojiPicker

/-! ## Lines -/

namespace Setting

/-- The field that a setting is about. -/
def field : Setting → SettingsField
  | locale _ => .locale
  | pageCapacity _ => .pageCapacity
  | recentsCapacity _ => .recentsCapacity
  | recentsAlwaysVisible _ => .recentsAlwaysVisible
  | searchTabVisible _ => .searchTabVisible
  | exitSearchOnPick _ => .exitSearchOnPick
  | incognito _ => .incognito
  | animations _ => .animations
  | dictionaryAddress _ => .dictionaryAddress
  | catalogPath _ => .catalogPath

end Setting

theorem SettingsField.Gives.field_eq {field : SettingsField} {text : List Char} {setting : Setting}
    (given : field.Gives text setting) : setting.field = field := by
  cases given with
  | count counted _ _ =>
      cases field with
      | pageCapacity | recentsCapacity =>
          rw [← Option.some.inj counted]
          rfl
      | _ => exact absurd counted (by simp [countOf])
  | switch switched _ _ =>
      cases field with
      | recentsAlwaysVisible | searchTabVisible | exitSearchOnPick | incognito | animations =>
          rw [← Option.some.inj switched]
          rfl
      | _ => exact absurd switched (by simp [switchOf])
  | _ => rfl

namespace Settings

/-- A line is about a field if the key before its first equals sign names the field. The text of the line is
what stands behind the sign. -/
def Names (line : List Char) (field : SettingsField) (text : List Char) : Prop :=
  ∃ key, line = key ++ '=' :: text ∧ '=' ∉ key ∧ ∃ name ∈ field.names, SettingsField.Spells key name

/-- A line sets a field to a valid value. -/
def Sets (line : List Char) (field : SettingsField) (setting : Setting) : Prop :=
  ∃ text, Names line field text ∧ field.Gives (Text.trim text) setting

theorem ofLine?_of_names {line text : List Char} {field : SettingsField} (about : Names line field text) :
    Setting.ofLine? line = field.read? (Text.trim text) := by
  rcases about with ⟨key, rfl, named, spelled⟩
  rw [Setting.ofLine?_written named, SettingsField.ofKey?_eq_some_iff.2 spelled]
  rfl

/-- A line sets what the reader of lines takes from it, and every other line sets nothing. -/
theorem ofLine?_eq_some_iff {line : List Char} {setting : Setting} :
    Setting.ofLine? line = some setting ↔ Sets line setting.field setting := by
  constructor
  · intro read
    by_cases equals : '=' ∈ line
    · rcases List.eq_append_cons_of_mem equals with ⟨key, text, rfl, named⟩
      rw [Setting.ofLine?_written named] at read
      rcases Option.bind_eq_some_iff.1 read with ⟨field, about, read⟩
      have given := SettingsField.read?_eq_some_iff.1 read
      rw [given.field_eq]
      exact ⟨text, ⟨key, rfl, named, SettingsField.ofKey?_eq_some_iff.1 about⟩, given⟩
    · have absent : '=' ∉ Text.trim line := fun there => equals (Text.mem_of_mem_trim there)
      simp [Setting.ofLine?, Text.splitOnce?_eq_none absent] at read
  · rintro ⟨text, about, given⟩
    rw [ofLine?_of_names about]
    exact SettingsField.read?_eq_some_iff.2 given

/-! ## Fields of the settings -/

/-- One field of the settings. -/
def setting (s : Settings) : SettingsField → Setting
  | .locale => .locale s.locale
  | .pageCapacity => .pageCapacity s.pageCapacity
  | .recentsCapacity => .recentsCapacity s.recentsCapacity
  | .recentsAlwaysVisible => .recentsAlwaysVisible s.recentsAlwaysVisible
  | .searchTabVisible => .searchTabVisible s.searchTabVisible
  | .exitSearchOnPick => .exitSearchOnPick s.exitSearchOnPick
  | .incognito => .incognito s.incognito
  | .animations => .animations s.animations
  | .dictionaryAddress => .dictionaryAddress s.dictionaryAddress
  | .catalogPath => .catalogPath s.catalogPath

variable {s t : Settings} {field : SettingsField} {given other : Setting}

theorem setting_apply_self (s : Settings) (given : Setting) :
    (s.apply given).setting given.field = given := by
  cases given <;> rfl

theorem setting_apply_of_ne (elsewhere : given.field ≠ field) :
    (s.apply given).setting field = s.setting field := by
  cases given <;> cases field <;> first | rfl | exact absurd rfl elsewhere

/-- Settings are their fields. -/
theorem ext_setting (same : ∀ field, s.setting field = t.setting field) : s = t := by
  have locale := Setting.locale.inj (same .locale)
  have pageCapacity := Setting.pageCapacity.inj (same .pageCapacity)
  have recentsCapacity := Setting.recentsCapacity.inj (same .recentsCapacity)
  have recentsAlwaysVisible := Setting.recentsAlwaysVisible.inj (same .recentsAlwaysVisible)
  have searchTabVisible := Setting.searchTabVisible.inj (same .searchTabVisible)
  have exitSearchOnPick := Setting.exitSearchOnPick.inj (same .exitSearchOnPick)
  have incognito := Setting.incognito.inj (same .incognito)
  have animations := Setting.animations.inj (same .animations)
  have dictionaryAddress := Setting.dictionaryAddress.inj (same .dictionaryAddress)
  have catalogPath := Setting.catalogPath.inj (same .catalogPath)
  cases s
  cases t
  simp_all

theorem apply_comm (s : Settings) (apart : given.field ≠ other.field) :
    (s.apply given).apply other = (s.apply other).apply given := by
  apply ext_setting
  intro field
  -- A field is set by one of the two at most, and the other one leaves it alone.
  by_cases first : given.field = field
  · subst first
    rw [setting_apply_of_ne apart.symm, setting_apply_self, setting_apply_self]
  · by_cases second : other.field = field
    · subst second
      rw [setting_apply_self, setting_apply_of_ne first, setting_apply_self]
    · rw [setting_apply_of_ne second, setting_apply_of_ne first, setting_apply_of_ne first,
        setting_apply_of_ne second]

/-! ## One line after the other -/

section Lines

variable {line : List Char} {lines : List (List Char)}

theorem Sets.field_eq (sets : Sets line field given) : given.field = field := by
  rcases sets with ⟨_, _, gives⟩
  exact gives.field_eq

theorem applyLine_of_sets (sets : Sets line field given) (s : Settings) :
    s.applyLine line = s.apply given := by
  have read : Setting.ofLine? line = some given := ofLine?_eq_some_iff.2 (sets.field_eq.symm ▸ sets)
  rw [applyLine, read]

/-- A line that does not set a field leaves it alone. -/
theorem setting_applyLine (unset : ∀ given, ¬ Sets line field given) (s : Settings) :
    (s.applyLine line).setting field = s.setting field := by
  rw [applyLine]
  cases read : Setting.ofLine? line with
  | none => rfl
  | some given =>
      have sets := ofLine?_eq_some_iff.1 read
      apply setting_apply_of_ne
      rintro rfl
      exact unset given sets

theorem setting_foldl (unset : ∀ line ∈ lines, ∀ given, ¬ Sets line field given) (s : Settings) :
    (lines.foldl applyLine s).setting field = s.setting field := by
  induction lines generalizing s with
  | nil => rfl
  | cons line rest ih =>
      rw [List.foldl_cons, ih fun later member => unset later (List.mem_cons_of_mem line member)]
      exact setting_applyLine (unset line List.mem_cons_self) s

/-- The last line that sets a field decides about it. -/
theorem setting_foldl_of_last {before after : List (List Char)} (sets : Sets line field given)
    (last : ∀ later ∈ after, ∀ given, ¬ Sets later field given) (s : Settings) :
    ((before ++ line :: after).foldl applyLine s).setting field = given := by
  rw [List.foldl_append, List.foldl_cons, setting_foldl last, applyLine_of_sets sets, ← sets.field_eq]
  exact setting_apply_self _ given

/-- Either no line sets a field, or one of them is the last one that does. -/
theorem exists_last_sets (field : SettingsField) (lines : List (List Char)) :
    (∀ line ∈ lines, ∀ given, ¬ Sets line field given) ∨
      ∃ before line after given, lines = before ++ line :: after ∧ Sets line field given ∧
        ∀ later ∈ after, ∀ other, ¬ Sets later field other := by
  -- What is behind decides first, so that a line in front counts only if none behind it does.
  induction lines with
  | nil => exact Or.inl fun _ none => absurd none List.not_mem_nil
  | cons first rest ih =>
      rcases ih with none | ⟨before, line, after, given, rfl, sets, last⟩
      · by_cases there : ∃ given, Sets first field given
        · rcases there with ⟨given, sets⟩
          exact Or.inr ⟨[], first, rest, given, rfl, sets, none⟩
        · refine Or.inl (List.forall_mem_cons.2 ⟨?_, none⟩)
          exact not_exists.1 there
      · exact Or.inr ⟨first :: before, line, after, given, rfl, sets, last⟩

theorem field_of_names {text : List Char} (about : Names line field text)
    (read : Setting.ofLine? line = some given) : given.field = field := by
  rw [ofLine?_of_names about] at read
  exact (SettingsField.read?_eq_some_iff.1 read).field_eq

/-- Lines about different fields may change places, whether or not their values are valid. -/
theorem applyLine_comm {first second text text' : List Char} {field field' : SettingsField}
    (about : Names first field text) (about' : Names second field' text') (apart : field ≠ field')
    (s : Settings) : (s.applyLine first).applyLine second = (s.applyLine second).applyLine first := by
  rw [applyLine.eq_def s first, applyLine.eq_def s second]
  cases read : Setting.ofLine? first with
  | none =>
      cases read' : Setting.ofLine? second with
      | none => simp [applyLine, read, read']
      | some other => simp [applyLine, read, read']
  | some given =>
      cases read' : Setting.ofLine? second with
      | none => simp [applyLine, read, read']
      | some other =>
          have fields : given.field ≠ other.field := by
            rwa [field_of_names about read, field_of_names about' read']
          simpa [applyLine, read, read'] using apply_comm s fields

end Lines

/-! ## Texts -/

theorem applyLine_congr {line line' : List Char} (same : Text.trim line = Text.trim line')
    (s : Settings) : s.applyLine line = s.applyLine line' := by
  have read : Setting.ofLine? line = Setting.ofLine? line' := by
    rw [Setting.ofLine?, Setting.ofLine?, same]
  rw [applyLine, applyLine, read]

/-- Line ends are no part of what a text sets. -/
theorem foldl_linesOfPieces (pieces : List (List Char)) (s : Settings) :
    (Text.linesOfPieces '\r' pieces).foldl applyLine s = pieces.foldl applyLine s := by
  induction pieces generalizing s with
  | nil => rfl
  | cons piece more ih =>
      cases more with
      | nil =>
          cases piece with
          | nil => rfl
          | cons c rest => rfl
      | cons next others =>
          rw [Text.linesOfPieces, List.foldl_cons, List.foldl_cons, ih,
            applyLine_congr (Text.trim_stripOne piece)]
          simp

theorem parse_eq_foldl (s : Settings) (text : List Char) :
    s.parse text = (Text.pieces (· == '\n') text).foldl applyLine s :=
  foldl_linesOfPieces _ s

/-- One text behind another is read as the first and then the second. -/
theorem parse_parse (s : Settings) (text behind : List Char) :
    (s.parse text).parse behind = s.parse (text ++ '\n' :: behind) := by
  have cut : Text.pieces (· == '\n') (text ++ '\n' :: behind) =
      Text.pieces (· == '\n') text ++ Text.pieces (· == '\n') behind :=
    Text.pieces_separated rfl text behind
  rw [parse_eq_foldl, parse_eq_foldl, parse_eq_foldl, cut, List.foldl_append]

/-- A text of some lines. -/
def joined (lines : List (List Char)) : List Char :=
  ['\n'].intercalate lines

theorem parse_joined {lines : List (List Char)} (flat : ∀ line ∈ lines, '\n' ∉ line) (s : Settings) :
    s.parse (joined lines) = lines.foldl applyLine s := by
  cases lines with
  | nil => rfl
  | cons first rest =>
      have cut : Text.pieces (· == '\n') (joined (first :: rest)) = first :: rest :=
        Text.pieces_intercalate rfl (List.cons_ne_nil first rest) fun line member =>
          Text.not_feed (flat line member)
      rw [parse_eq_foldl, cut]

theorem parse_swapped {before after : List (List Char)} {first second text text' : List Char}
    {field field' : SettingsField} (about : Names first field text) (about' : Names second field' text')
    (apart : field ≠ field') (flat : ∀ line ∈ before ++ first :: second :: after, '\n' ∉ line)
    (s : Settings) :
    s.parse (joined (before ++ first :: second :: after)) =
      s.parse (joined (before ++ second :: first :: after)) := by
  have same : (before ++ second :: first :: after).Perm (before ++ first :: second :: after) :=
    (List.Perm.swap first second after).append_left before
  have flat' : ∀ line ∈ before ++ second :: first :: after, '\n' ∉ line := fun line member =>
    flat line (same.mem_iff.1 member)
  rw [parse_joined flat, parse_joined flat', List.foldl_append, List.foldl_append]
  simp only [List.foldl_cons]
  rw [applyLine_comm about about' apart]

/-- No line sets a number to 0. -/
theorem Sets.count_pos {line : List Char} {field : SettingsField} {make : Nat → Setting}
    {given : Setting} (sets : Sets line field given) (counted : field.countOf = some make) :
    ∃ n, given = make n ∧ 0 < n := by
  rcases sets with ⟨_, _, gives⟩
  cases gives with
  | count counted' _ count =>
      rw [counted] at counted'
      obtain rfl := Option.some.inj counted'
      exact ⟨_, rfl, count.2.1⟩
  | switch switched _ _ =>
      cases field with
      | pageCapacity | recentsCapacity => exact absurd switched (by simp [SettingsField.switchOf])
      | _ => exact absurd counted (by simp [SettingsField.countOf])
  | _ => exact absurd counted (by simp [SettingsField.countOf])

/-- After a text,

* each field has the value of the last line that names the field with a valid value, or stays as it was if
  there is no such line;
* a second text is read as if it stood in the lines behind the first one;
* neither number has become 0.

Two lines behind each other that name different fields may change places in every text. -/
theorem last_line_wins (s : Settings) (text : List Char) :
    (∀ field,
      (∃ before line after given, Text.lines text = before ++ line :: after ∧ Sets line field given ∧
        (∀ later ∈ after, ∀ other, ¬ Sets later field other) ∧ (s.parse text).setting field = given) ∨
      ((∀ line ∈ Text.lines text, ∀ given, ¬ Sets line field given) ∧
        (s.parse text).setting field = s.setting field)) ∧
    (∀ behind, (s.parse text).parse behind = s.parse (text ++ '\n' :: behind)) ∧
    ((s.parse text).pageCapacity = s.pageCapacity ∨ 0 < (s.parse text).pageCapacity) ∧
    ((s.parse text).recentsCapacity = s.recentsCapacity ∨ 0 < (s.parse text).recentsCapacity) ∧
    (∀ before first second after field field' value value',
      (∀ line ∈ before ++ first :: second :: after, '\n' ∉ line) → Names first field value →
      Names second field' value' → field ≠ field' →
        s.parse (joined (before ++ first :: second :: after)) =
          s.parse (joined (before ++ second :: first :: after))) := by
  have settled : ∀ field,
      (∃ before line after given, Text.lines text = before ++ line :: after ∧ Sets line field given ∧
        (∀ later ∈ after, ∀ other, ¬ Sets later field other) ∧ (s.parse text).setting field = given) ∨
      ((∀ line ∈ Text.lines text, ∀ given, ¬ Sets line field given) ∧
        (s.parse text).setting field = s.setting field) := by
    intro field
    rcases exists_last_sets field (Text.lines text) with none | ⟨before, line, after, given, cut, sets, last⟩
    · exact Or.inr ⟨none, setting_foldl none s⟩
    · refine Or.inl ⟨before, line, after, given, cut, sets, last, ?_⟩
      rw [parse, cut]
      exact setting_foldl_of_last sets last s
  refine ⟨settled, parse_parse s text, ?_, ?_, ?_⟩
  · rcases settled .pageCapacity with ⟨_, _, _, given, _, sets, _, now⟩ | ⟨_, kept⟩
    · rcases sets.count_pos rfl with ⟨n, rfl, positive⟩
      exact Or.inr (Setting.pageCapacity.inj now ▸ positive)
    · exact Or.inl (Setting.pageCapacity.inj kept)
  · rcases settled .recentsCapacity with ⟨_, _, _, given, _, sets, _, now⟩ | ⟨_, kept⟩
    · rcases sets.count_pos rfl with ⟨n, rfl, positive⟩
      exact Or.inr (Setting.recentsCapacity.inj now ▸ positive)
    · exact Or.inl (Setting.recentsCapacity.inj kept)
  · intro before first second after field field' value value' flat about about' apart
    exact parse_swapped about about' apart flat s

/-- Lines about two fields, with names, a number and comments in unusual spellings. The address keeps its
slashes and the hash that no space stands in front of. -/
theorem last_line_wins_apart :
    let first := "Keys.Per-Page = +012 # few".toList
    let second := "Dictionary URL=https://example.org/#a # mirror".toList
    let address : Setting := .dictionaryAddress (some "https://example.org/#a")
    (∀ line ∈ [first, second], '\n' ∉ line) ∧ Names first .pageCapacity " +012 # few".toList ∧
      Names second .dictionaryAddress "https://example.org/#a # mirror".toList ∧
      Sets second .dictionaryAddress address ∧
      parse {} (joined [first, second]) = parse {} (joined [second, first]) ∧
      parse {} (joined [first, second]) =
        { pageCapacity := 12, dictionaryAddress := some "https://example.org/#a" } := by
  intro first second address
  have flat : ∀ line ∈ [first, second], '\n' ∉ line := by decide +kernel
  have about : Names first .pageCapacity " +012 # few".toList :=
    ⟨"Keys.Per-Page ".toList, by decide +kernel, by decide +kernel,
      SettingsField.ofKey?_eq_some_iff.1 (by decide +kernel)⟩
  have about' : Names second .dictionaryAddress "https://example.org/#a # mirror".toList :=
    ⟨"Dictionary URL".toList, by decide +kernel, by decide +kernel,
      SettingsField.ofKey?_eq_some_iff.1 (by decide +kernel)⟩
  have read : Setting.ofLine? second = some address := by decide +kernel
  have sets : Sets second .dictionaryAddress address := ofLine?_eq_some_iff.1 read
  have law := (last_line_wins {} []).2.2.2.2 [] first second [] _ _ _ _ flat about about' (by decide)
  exact ⟨flat, about, about', sets, law, by decide +kernel⟩

end Settings
end EmojiPicker

import EmojiPicker.Proofs.Text.Pieces
import EmojiPicker.Proofs.Text.Trimming
import EmojiPicker.Settings

/-!
# Comments behind settings

A line of the settings file may end in a comment, which should not count.

* `SettingsField.ofKey?`, `Setting.ofLine?_written` — the field that a line names and its text;
* `SettingsField.Bare` — values in which no comment begins;
* `SettingsField.Bare.read?_noted` — comments behind such values;
* `SettingsField.hashed`, `SettingsField.read?_hash`, `SettingsField.read?_hashed` — comments behind no value;
* `Settings.line`, `Settings.parse_line` — a file of one line;
* `Settings.comment_ignored` — what a comment does to the settings of a file;
* `Settings.hash_begins_value` — a comment that is taken for a value.

A hash that begins the text of a field is kept, since values may begin with one. Behind an empty value it is
the comment that begins the text.
-/

namespace EmojiPicker
namespace SettingsField

/-! ## Keys -/

/-- The field that a key names. -/
def ofKey? (key : List Char) : Option SettingsField :=
  ofName? (normalizeKey key)

theorem ofKey?_congr {key other : List Char} (h : Text.trim key = Text.trim other) :
    ofKey? key = ofKey? other := by
  rw [ofKey?, ofKey?, normalizeKey, normalizeKey, h]

/-- The names of fields begin with letters. -/
theorem head_of_ofName? {name : String} {field : SettingsField} (h : ofName? name = some field) :
    name.toList.head? ≠ some '#' ∧ name.toList.head? ≠ some '/' := by
  unfold ofName? at h
  split at h
  case h_17 => exact absurd h (by simp)
  all_goals decide

theorem ofKey?_mark {key rest : List Char} {c : Char} (mark : c = '#' ∨ c = '/')
    (begins : Text.trimStart key = c :: rest) : ofKey? key = none := by
  have seen : Text.isBlank c = false := by
    rcases mark with rfl | rfl <;> decide
  -- Neither trimming nor lower case changes the mark.
  have kept : (normalizeKey key).toList.head? = some c := by
    rw [normalizeKey, String.toList_ofList, Text.trim, begins, Text.trimEnd_cons seen]
    rcases mark with rfl | rfl <;> rfl
  cases named : ofKey? key with
  | none => rfl
  | some field =>
      have letter := head_of_ofName? named
      rcases mark with rfl | rfl
      · exact absurd kept letter.1
      · exact absurd kept letter.2

end SettingsField

namespace Setting

/-- A comment is no setting, because its text up to the equals sign is no key. -/
theorem ofKey?_of_isComment {key text : List Char}
    (h : isComment (Text.trimStart key ++ '=' :: text) = true) : SettingsField.ofKey? key = none := by
  cases begins : Text.trimStart key with
  | nil =>
      rw [begins] at h
      exact absurd h (by simp [isComment])
  | cons c rest =>
      rw [begins] at h
      have mark : c = '#' ∨ c = '/' := by
        simp only [isComment, List.cons_append, Bool.or_eq_true, List.isPrefixOf_iff_prefix] at h
        rcases h with hash | slashes
        · exact Or.inl (List.cons_prefix_cons.1 hash).1.symm
        · exact Or.inr (List.cons_prefix_cons.1 slashes).1.symm
      exact SettingsField.ofKey?_mark mark begins

/-- A line sets the field that stands before its first equals sign, by the text behind it. -/
theorem ofLine?_written {key : List Char} (named : '=' ∉ key) (text : List Char) :
    ofLine? (key ++ '=' :: text) =
      (SettingsField.ofKey? key).bind fun field => field.read? (Text.trim text) := by
  have front : '=' ∉ Text.trimStart key := fun there =>
    named ((List.dropWhile_sublist _).subset there)
  have cut : Text.splitOnce? '=' (Text.trimStart key ++ '=' :: Text.trimEnd text) =
      some (Text.trimStart key, Text.trimEnd text) := Text.splitOnce?_append front _
  have same : SettingsField.ofKey? (Text.trimStart key) = SettingsField.ofKey? key :=
    SettingsField.ofKey?_congr (Text.trim_trimStart key)
  rw [ofLine?, Text.trim_around (by decide)]
  -- A comment is passed over, and would set nothing as a line with an equals sign either.
  cases comment : isComment (Text.trimStart key ++ '=' :: Text.trimEnd text) with
  | true => simp [ofKey?_of_isComment comment]
  | false =>
      rw [SettingsField.ofKey?] at same
      simp [cut, same, Text.trim_trimEnd]

end Setting

/-! ## Values -/

namespace SettingsField

/-- A value in which no comment begins: no hash in any field, and no two slashes in any field but the
address. -/
structure Bare (field : SettingsField) (value : List Char) : Prop where
  no_hash : '#' ∉ value
  no_slashes : field ≠ .dictionaryAddress → ¬ ['/', '/'] <:+: value

section Values

variable {value : List Char}

/-- A text that begins with a hash keeps it. -/
theorem dropComment_hash (rest : List Char) :
    dropComment ('#' :: rest) =
      '#' :: Text.trimEnd (Text.upTo ['#'] (Text.upTo ['/', '/'] rest)) := by
  have seen : Text.isBlank '#' = false := by decide
  change Text.trim ('#' :: Text.upTo ['#'] (Text.upTo ['/', '/'] rest)) = _
  rw [Text.trim, Text.trimStart_eq_self (by simpa using seen), Text.trimEnd_cons seen]

/-- In a text that does not begin with a hash every comment is dropped. -/
theorem dropComment_of_head {text : List Char} (begins : text.head? ≠ some '#') :
    dropComment text = Text.trim (Text.upTo ['#'] (Text.upTo ['/', '/'] text)) := by
  rw [dropComment]
  split
  · next rest cut =>
      cases text with
      | nil => exact absurd cut (by simp [Text.upTo])
      | cons c others =>
          rw [Text.upTo] at cut
          split at cut
          · exact absurd cut (by simp)
          · exact absurd (by rw [(List.cons.inj cut).1]; rfl) begins
  · rfl

theorem hash_not_head {text : List Char} (no_hash : '#' ∉ text) : text.head? ≠ some '#' :=
  fun first => no_hash (List.mem_of_mem_head? first)

theorem Bare.part {field : SettingsField} (bare : field.Bare value) {part : List Char}
    (inside : part <:+: value) : field.Bare part where
  no_hash := fun there => bare.no_hash (inside.subset there)
  no_slashes := fun other there => bare.no_slashes other (there.trans inside)

theorem Bare.dropComment_eq {field : SettingsField} (bare : field.Bare value)
    (other : field ≠ .dictionaryAddress) : dropComment value = Text.trim value := by
  have single : ¬ ['#'] <:+: value := fun there => bare.no_hash (there.subset (by simp))
  rw [dropComment_of_head (hash_not_head bare.no_hash), Text.upTo_whole (bare.no_slashes other),
    Text.upTo_whole single]

theorem Bare.dropAddressComment_eq {field : SettingsField} (bare : field.Bare value) :
    dropAddressComment value = Text.trim value := by
  have pair : ¬ [' ', '#'] <:+: value := fun there => bare.no_hash (there.subset (by simp))
  rw [dropAddressComment, Text.upTo_whole pair]

/-- The comment behind a value is dropped, also where it holds further hashes and slashes. -/
theorem Bare.dropComment_noted {field : SettingsField} (bare : field.Bare value)
    (other : field ≠ .dictionaryAddress) (nonempty : value ≠ []) (comment : List Char) :
    dropComment (value ++ ' ' :: '#' :: comment) = Text.trim value := by
  have begins : (value ++ ' ' :: '#' :: comment).head? ≠ some '#' := by
    rw [List.head?_append_of_ne_nil _ nonempty]
    exact hash_not_head bare.no_hash
  have slashes : Text.upTo ['/', '/'] (value ++ ' ' :: '#' :: comment) =
      value ++ ' ' :: '#' :: Text.upTo ['/', '/'] comment := by
    rw [Text.upTo_append (by decide) (bare.no_slashes other)]
    rfl
  have hash : Text.upTo ['#'] (value ++ ' ' :: '#' :: Text.upTo ['/', '/'] comment) =
      value ++ [' '] := by
    -- Only the first hash counts here, so it is the one behind the value, whatever the comment holds.
    have outside : '#' ∉ value ++ [' '] := by simpa using bare.no_hash
    have cut : Text.upTo ([] ++ ['#'])
        ((value ++ [' ']) ++ ([] ++ '#' :: Text.upTo ['/', '/'] comment)) = value ++ [' '] :=
      Text.upTo_pattern (by decide) outside _
    simpa using cut
  rw [dropComment_of_head begins, slashes, hash, Text.trim_append_right Text.space_blank]

theorem Bare.dropAddressComment_noted {field : SettingsField} (bare : field.Bare value)
    (comment : List Char) :
    dropAddressComment (value ++ ' ' :: '#' :: comment) = Text.trim value := by
  have cut : Text.upTo ([' '] ++ ['#']) (value ++ ([' '] ++ '#' :: comment)) = value :=
    Text.upTo_pattern (by decide) bare.no_hash comment
  exact congrArg Text.trim cut

/-- Each field reads its text without the comment that its kind of values may have. -/
theorem read?_congr {field : SettingsField} {text other : List Char}
    (values : field ≠ .dictionaryAddress → dropComment text = dropComment other)
    (address : field = .dictionaryAddress → dropAddressComment text = dropAddressComment other) :
    field.read? text = field.read? other := by
  cases field with
  | dictionaryAddress => simp only [read?, address rfl]
  | _ => simp only [read?, values (by decide)]

/-- The hash of a comment parts the text of a line. -/
theorem trim_parted (value comment : List Char) :
    Text.trim (value ++ ' ' :: '#' :: comment) =
      Text.trimStart (value ++ [' ']) ++ '#' :: Text.trimEnd comment := by
  have whole : value ++ ' ' :: '#' :: comment = (value ++ [' ']) ++ '#' :: comment := by simp
  rw [whole, Text.trim_around (by decide)]

theorem trim_noted (seen : ∃ c ∈ value, Text.isBlank c = false) (comment : List Char) :
    Text.trim (value ++ ' ' :: '#' :: comment) =
      Text.trimStart value ++ ' ' :: '#' :: Text.trimEnd comment := by
  have begins : value.dropWhile Text.isBlank ≠ [] := Text.trimStart_ne_nil seen
  have front : Text.trimStart (value ++ [' ']) = Text.trimStart value ++ [' '] := by
    rw [Text.trimStart, List.dropWhile_append, if_neg (by simpa using begins)]
    rfl
  rw [trim_parted, front, List.append_assoc, List.singleton_append]

/-- Without a value in front of it, the comment itself is the text. -/
theorem trim_hashed (blank : ∀ c ∈ value, Text.isBlank c = true) (comment : List Char) :
    Text.trim (value ++ ' ' :: '#' :: comment) = '#' :: Text.trimEnd comment := by
  have front : ∀ c ∈ value ++ [' '], Text.isBlank c = true := by
    intro c member
    rcases List.mem_append.1 member with inside | space
    · exact blank c inside
    · exact Text.space_blank c space
  rw [trim_parted, Text.trimStart_eq_nil front, List.nil_append]

/-- Behind a value a comment does not count, whatever the field. -/
theorem Bare.read?_noted {field : SettingsField} (bare : field.Bare value)
    (seen : ∃ c ∈ value, Text.isBlank c = false) (comment : List Char) :
    field.read? (Text.trim (value ++ ' ' :: '#' :: comment)) = field.read? (Text.trim value) := by
  -- Both texts are trimmed before a comment is looked for: the value at its two ends without a comment,
  -- and at its front only with one.
  have front : field.Bare (Text.trimStart value) := bare.part (List.dropWhile_suffix _).isInfix
  have whole : field.Bare (Text.trim value) := front.part (Text.trimEnd_isPrefix _).isInfix
  rw [trim_noted seen]
  refine read?_congr ?_ ?_
  · intro other
    rw [front.dropComment_noted other (Text.trimStart_ne_nil seen), whole.dropComment_eq other,
      Text.trim_trimStart, Text.trim_trim]
  · intro _
    rw [front.dropAddressComment_noted, whole.dropAddressComment_eq, Text.trim_trimStart, Text.trim_trim]

end Values

/-! ## No value -/

/-- The fields whose values are texts of any form. -/
def isText : SettingsField → Bool
  | .locale | .dictionaryAddress | .catalogPath => true
  | _ => false

theorem positive?_hash (rest : List Char) : positive? ('#' :: rest) = none := rfl

theorem switch?_hash (rest : List Char) : switch? ('#' :: rest) = none := by
  have other (word : String) (letter : word.toList.head? ≠ some '#') :
      String.ofList (('#' :: rest).map Char.toLower) ≠ word := by
    intro same
    exact letter (by rw [← same, String.toList_ofList]; rfl)
  unfold switch?
  split
  case h_9 => rfl
  all_goals
    next word => exact absurd word (other _ (by decide))

/-- Numbers and switches take neither a comment nor an empty text for a value. -/
theorem read?_hash {field : SettingsField} (h : field.isText = false) (rest : List Char) :
    field.read? ('#' :: rest) = field.read? [] := by
  cases field with
  | locale | dictionaryAddress | catalogPath => exact absurd h (by decide)
  | pageCapacity | recentsCapacity =>
      rw [read?, dropComment_hash, positive?_hash]
      rfl
  | recentsAlwaysVisible | searchTabVisible | exitSearchOnPick | incognito | animations =>
      rw [read?, dropComment_hash, switch?_hash]
      rfl

/-- What a field that takes texts makes of a comment without a value: its hash, and the comment up to a
further hash or two slashes. -/
def hashed (comment : List Char) : List Char :=
  '#' :: Text.trimEnd (Text.upTo ['#'] (Text.upTo ['/', '/'] (' ' :: comment)))

theorem dropComment_hashed (comment : List Char) :
    dropComment ('#' :: Text.trimEnd (' ' :: comment)) = hashed comment := by
  let text := ' ' :: comment
  -- The blanks at the end of the comment are no part of what it is cut at, so they stay at the end.
  rcases Text.exists_trimEnd text with ⟨ys, blank, whole⟩
  have slash : ∀ c ∈ ['/', '/'], Text.isBlank c = false := Text.whole_iff.1 (by decide)
  have mark : ∀ c ∈ ['#'], Text.isBlank c = false := Text.whole_iff.1 (by decide)
  rcases Text.upTo_append_blank slash blank (Text.trimEnd text) with ⟨zs, ends, slashes⟩
  rcases Text.upTo_append_blank mark ends (Text.upTo ['/', '/'] (Text.trimEnd text))
    with ⟨ws, last, hash⟩
  have cut : Text.upTo ['#'] (Text.upTo ['/', '/'] text) =
      Text.upTo ['#'] (Text.upTo ['/', '/'] (Text.trimEnd text)) ++ ws := by
    rw [← hash, ← slashes, whole]
  rw [dropComment_hash, hashed]
  change _ = '#' :: Text.trimEnd (Text.upTo ['#'] (Text.upTo ['/', '/'] text))
  rw [cut, Text.trimEnd_append_blank last]

theorem read?_hashed (comment : List Char) :
    let text := String.ofList (hashed comment)
    read? .locale ('#' :: Text.trimEnd (' ' :: comment)) = some (.locale text) ∧
      read? .catalogPath ('#' :: Text.trimEnd (' ' :: comment)) = some (.catalogPath (some ⟨text⟩)) := by
  intro text
  have given : nonempty? (dropComment ('#' :: Text.trimEnd (' ' :: comment))) = some text := by
    rw [dropComment_hashed]
    rfl
  rw [read?, read?, given]
  exact ⟨rfl, rfl⟩

end SettingsField

/-! ## Files of one line -/

namespace Settings

/-- The line that gives a key a value. -/
def line (key value : List Char) : List Char :=
  key ++ " = ".toList ++ value

theorem parse_line (s : Settings) {key value : List Char} (named : '=' ∉ key)
    (flat : '\n' ∉ key ∧ '\n' ∉ value) :
    s.parse (line key value) =
      ((SettingsField.ofKey? key).bind fun field => field.read? (Text.trim value)).elim s s.apply := by
  have text : line key value = (key ++ [' ']) ++ '=' :: ' ' :: value := by simp [line]
  have flat : '\n' ∉ line key value := by simp [line, flat]
  have whole : '=' ∉ key ++ [' '] := by simpa using named
  have same : SettingsField.ofKey? (key ++ [' ']) = SettingsField.ofKey? key :=
    SettingsField.ofKey?_congr (Text.trim_append_right Text.space_blank key)
  have cut : Text.trim (' ' :: value) = Text.trim value :=
    Text.trim_append_left Text.space_blank value
  have set : Setting.ofLine? (line key value) =
      (SettingsField.ofKey? key).bind fun field => field.read? (Text.trim value) := by
    rw [text, Setting.ofLine?_written whole, same, cut]
  rw [parse, Text.lines_whole flat, if_neg (by simp [line]), List.foldl_cons, List.foldl_nil, applyLine,
    set]
  split
  · next setting there => rw [there]; rfl
  · next none => rw [none]; rfl

/-- A comment behind a value that can be seen changes nothing, and neither does one without a value where
the key names a number, a switch or no field. A locale and a path begin with the hash of a comment that
nothing stands in front of. -/
theorem comment_ignored (s : Settings) {key value comment : List Char} (named : '=' ∉ key)
    (flat : '\n' ∉ key ∧ '\n' ∉ value ∧ '\n' ∉ comment)
    (bare : ∀ field ∈ SettingsField.ofKey? key, field.Bare value) :
    let field := SettingsField.ofKey? key
    let plain := s.parse (line key value)
    let noted := s.parse (line key (value ++ " # ".toList ++ comment))
    let text := String.ofList (SettingsField.hashed comment)
    ((∃ c ∈ value, Text.isBlank c = false) → noted = plain) ∧
      ((∀ f ∈ field, f.isText = false) → noted = plain) ∧
      ((∀ c ∈ value, Text.isBlank c = true) →
        (field = some .locale → noted = { s with locale := text }) ∧
        (field = some .catalogPath → noted = { s with catalogPath := some ⟨text⟩ })) := by
  intro field plain noted text
  have read_plain : plain =
      (field.bind fun f => f.read? (Text.trim value)).elim s s.apply :=
    parse_line s named ⟨flat.1, flat.2.1⟩
  have read_noted : noted =
      (field.bind fun f => f.read? (Text.trim (value ++ ' ' :: '#' :: ' ' :: comment))).elim s s.apply := by
    have behind : '\n' ∉ value ++ " # ".toList ++ comment := by simp [flat]
    have whole : value ++ " # ".toList ++ comment = value ++ ' ' :: '#' :: ' ' :: comment := by simp
    rw [← whole]
    exact parse_line s named ⟨flat.1, behind⟩
  have same : (∀ f ∈ field, f.read? (Text.trim (value ++ ' ' :: '#' :: ' ' :: comment)) =
      f.read? (Text.trim value)) → noted = plain := by
    intro agree
    rw [read_noted, read_plain, Option.bind_congr agree]
  have valued : (∃ c ∈ value, Text.isBlank c = false) → noted = plain := by
    intro seen
    apply same
    intro f names
    exact (bare f names).read?_noted seen (' ' :: comment)
  refine ⟨valued, ?_, ?_⟩
  · intro other
    by_cases seen : ∃ c ∈ value, Text.isBlank c = false
    · exact valued seen
    · -- The comment is the whole text, which these fields read no more than an empty one.
      have blank : ∀ c ∈ value, Text.isBlank c = true := by simpa using seen
      apply same
      intro f names
      have empty : Text.trim value = [] := by
        rw [Text.trim, Text.trimStart_eq_nil blank]
        rfl
      rw [SettingsField.trim_hashed blank, empty, SettingsField.read?_hash (other f names)]
  · intro blank
    rw [SettingsField.trim_hashed blank] at read_noted
    constructor
    · intro names
      rw [read_noted, names, Option.bind_some, (SettingsField.read?_hashed comment).1]
      rfl
    · intro names
      rw [read_noted, names, Option.bind_some, (SettingsField.read?_hashed comment).2]
      rfl

/-- A path behind which a note stands, with further marks in it. -/
theorem comment_ignored_path :
    '=' ∉ "catalog".toList ∧
      ('\n' ∉ "catalog".toList ∧ '\n' ∉ "faces.json ".toList ∧ '\n' ∉ "see // and #2".toList) ∧
      (∀ field ∈ SettingsField.ofKey? "catalog".toList, field.Bare "faces.json ".toList) ∧
      parse {} (line "catalog".toList ("faces.json ".toList ++ " # ".toList ++ "see // and #2".toList)) =
        { catalogPath := some ⟨"faces.json"⟩ } := by
  have named : '=' ∉ "catalog".toList := by decide
  have flat : '\n' ∉ "catalog".toList ∧ '\n' ∉ "faces.json ".toList ∧
      '\n' ∉ "see // and #2".toList := by decide
  have bare : ∀ field ∈ SettingsField.ofKey? "catalog".toList, field.Bare "faces.json ".toList := by
    intro field _
    refine ⟨by decide, fun _ there => ?_⟩
    rw [← Text.contains_iff] at there
    exact absurd there (by decide)
  have seen : ∃ c ∈ "faces.json ".toList, Text.isBlank c = false := ⟨'f', by decide, by decide⟩
  have plain : parse {} (line "catalog".toList "faces.json ".toList) =
      { catalogPath := some ⟨"faces.json"⟩ } := by decide +kernel
  exact ⟨named, flat, bare, ((comment_ignored {} named flat bare).1 seen).trans plain⟩

/-- A comment that is taken for a value: without it the line sets nothing. -/
theorem hash_begins_value :
    let plain := parse {} (line "locale".toList [])
    let noted := parse {} (line "locale".toList ([] ++ " # ".toList ++ "home".toList))
    plain = {} ∧ noted = { locale := "# home" } ∧ noted ≠ plain := by
  decide +kernel

end Settings
end EmojiPicker

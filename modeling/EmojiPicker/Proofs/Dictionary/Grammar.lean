import EmojiPicker.Proofs.Dictionary.WordLists

/-!
# The grammar of word lists

A text is a word list, or one of its lines is the first bad one, or it has neither a header nor a word. Which of
the three holds, and what is listed, is said here by relations between what is written and what it means.

* `WordList.HasFields`, `WordList.FirstAttribute`, `WordList.Says` — what a line says;
* `WordList.Bad`, `WordList.BadLine`, `WordList.Clean` — the lines at which a reader stops;
* `WordList.Lists` — the entries of some lines;
* `WordList.hasFields_iff`, `WordList.Line.ofText_eq_word_iff` — each line is read as what it says;
* `WordList.Reads.add_of_bad`, `WordList.Reads.exists_add` — and one line after the other;
* `WordList.exists_first_bad`, `WordList.parse_of_bad`, `WordList.parse_eq_ok_iff` — what becomes of all lines;
* `DictionaryContent.parse_by_grammar` — what becomes of a text.
-/

namespace EmojiPicker
namespace WordList

variable {text field line name value : List Char} {others : List (List Char)}
  {before lines : List (List Char)} {fault : LineFault} {number : Nat}

/-! ## What a line says -/

/-- How a field is written: a backslash stands for the character behind it, which may be any. -/
inductive Spells : List Char → List Char → Prop where
  | nil : Spells [] []
  | plain {c : Char} {text field : List Char} (comma : c ≠ ',') (backslash : c ≠ '\\')
      (rest : Spells text field) : Spells (c :: text) (c :: field)
  | escaped (c : Char) {text field : List Char} (rest : Spells text field) :
      Spells ('\\' :: c :: text) (c :: field)

/-- How the fields of a line are written. A last backslash stands for nothing. -/
inductive HasFields : List Char → List (List Char) → Prop where
  | last {text field : List Char} (spelled : Spells text field) : HasFields text [field]
  | dangling {text field : List Char} (spelled : Spells text field) :
      HasFields (text ++ ['\\']) [field]
  | more {text field rest : List Char} {others : List (List Char)} (spelled : Spells text field)
      (behind : HasFields rest others) : HasFields (text ++ ',' :: rest) (field :: others)

/-- The name and the value around the first equals sign of the first field that has one. -/
inductive FirstAttribute : List (List Char) → List Char → List Char → Prop where
  | here {name value : List Char} (whole : '=' ∉ name) (others : List (List Char)) :
      FirstAttribute ((name ++ '=' :: value) :: others) (Text.trim name) (Text.trim value)
  | later {field name value : List Char} {others : List (List Char)} (malformed : '=' ∉ field)
      (behind : FirstAttribute others name value) : FirstAttribute (field :: others) name value

/-- A line that is neither blank nor a comment says its first attribute. -/
structure Says (line : List Char) (name : String) (value : List Char) : Prop where
  shown : Text.trim line ≠ []
  spoken : (Text.trim line).head? ≠ some '#'
  first : ∃ fields, HasFields (Text.trim line) fields ∧ FirstAttribute fields name.toList value

/-- Some of these lines say an attribute of this name. -/
def Said (name : String) (lines : List (List Char)) : Prop :=
  ∃ line ∈ lines, ∃ value, Says line name value

/-! ## What a list says -/

/-- What is wrong with a line behind others. -/
inductive Bad (before : List (List Char)) (line : List Char) : LineFault → Prop where
  | emptyWord (word : Says line "word" []) : Bad before line .emptyWord
  | shortcutBeforeWord {value : List Char} (shortcut : Says line "shortcut" value)
      (wordless : ¬ Said "word" before) : Bad before line .shortcutBeforeWord

/-- What is wrong with the line of this number; the first one is number 1. -/
def BadLine (lines : List (List Char)) (number : Nat) (fault : LineFault) : Prop :=
  ∃ before line after, lines = before ++ line :: after ∧ number = before.length + 1 ∧
    Bad before line fault

/-- No line of these is bad. -/
def Clean (lines : List (List Char)) : Prop :=
  ∀ number fault, ¬ BadLine lines number fault

def HasContent (lines : List (List Char)) : Prop :=
  Said "dictionary" lines ∨ Said "word" lines

/-- The shortcuts of some lines that are not empty, in their order. -/
inductive Shortcuts : List (List Char) → List String → Prop where
  | nil : Shortcuts [] []
  | shortcut {lines : List (List Char)} {shortcuts : List String} {line value : List Char}
      (earlier : Shortcuts lines shortcuts) (said : Says line "shortcut" value) (filled : value ≠ []) :
      Shortcuts (lines ++ [line]) (shortcuts ++ [String.ofList value])
  | other {lines : List (List Char)} {shortcuts : List String} {line : List Char}
      (earlier : Shortcuts lines shortcuts) (silent : ∀ value, Says line "shortcut" value → value = []) :
      Shortcuts (lines ++ [line]) shortcuts

/-- The entries of some lines: one for each word, with the shortcuts of the lines up to the next one. -/
inductive Lists : List (List Char) → List WordEntry → Prop where
  | nil {lines : List (List Char)} (wordless : ¬ Said "word" lines) : Lists lines []
  | word {before more : List (List Char)} {entries : List WordEntry} {line word : List Char}
      {shortcuts : List String} (earlier : Lists before entries) (said : Says line "word" word)
      (wordless : ¬ Said "word" more) (listed : Shortcuts more shortcuts) :
      Lists (before ++ line :: more) (entries ++ [⟨String.ofList word, shortcuts⟩])

/-! ## Fields -/

theorem Spells.fields_append {first : List Char} (spelled : Spells text field) (rest : List Char)
    (behind : fields rest = first :: others) : fields (text ++ rest) = (field ++ first) :: others := by
  induction spelled with
  | nil => exact behind
  | plain comma backslash _ ih =>
      rw [List.cons_append, fields_plain comma backslash, ih]
      rfl
  | escaped c _ ih =>
      rw [List.cons_append, List.cons_append, fields, ih]
      rfl

/-- One more character in front of a line belongs to its first field. -/
theorem HasFields.push {c : Char} {all : List (List Char)} (whole : List Char)
    (push : ∀ {text field}, Spells text field → Spells (whole ++ text) (c :: field))
    (has : HasFields text all) : HasFields (whole ++ text) (pushFirst c all) := by
  cases has with
  | last spelled => exact .last (push spelled)
  | dangling spelled =>
      rw [← List.append_assoc]
      exact .dangling (push spelled)
  | more spelled behind =>
      rw [← List.append_assoc]
      exact .more (push spelled) behind

/-- Every line can be read in exactly one way. -/
theorem hasFields_iff {all : List (List Char)} : HasFields text all ↔ fields text = all := by
  constructor
  · intro has
    induction has with
    | last spelled => simpa using spelled.fields_append [] rfl
    | dangling spelled => simpa using spelled.fields_append ['\\'] rfl
    | @more _ _ rest _ spelled _ ih =>
        have cut := spelled.fields_append (',' :: rest) (by rw [fields, ih])
        simpa using cut
  · rintro rfl
    -- The cases are those of the cut: an escape, a last backslash, a comma, any other character.
    induction text using fields.induct with
    | case1 => exact .last .nil
    | case2 c rest ih =>
        rw [fields]
        exact ih.push ['\\', c] (.escaped c)
    | case3 => exact .dangling .nil
    | case4 rest ih =>
        rw [fields]
        exact .more .nil ih
    | case5 c rest escape dangling comma ih =>
        have backslash : c ≠ '\\' := by
          rintro rfl
          cases rest with
          | nil => exact dangling rfl rfl
          | cons d more => exact escape d more rfl rfl
        have comma : c ≠ ',' := comma
        rw [fields_plain comma backslash]
        exact ih.push [c] (.plain comma backslash)

theorem attribute?_eq_none (malformed : '=' ∉ field) : attribute? field = none := by
  rw [attribute?, Text.splitOnce?_eq_none malformed]
  rfl

theorem firstAttribute_iff {all : List (List Char)} :
    FirstAttribute all name value ↔ (all.filterMap attribute?).head? = some (name, value) := by
  constructor
  · intro first
    induction first with
    | here whole others => rw [List.filterMap_cons_some (attribute?_append whole _)]; rfl
    | later malformed _ ih => rwa [List.filterMap_cons_none (attribute?_eq_none malformed)]
  · intro first
    induction all with
    | nil => cases first
    | cons field others ih =>
        by_cases sign : '=' ∈ field
        · rcases List.eq_append_cons_of_mem sign with ⟨front, rest, rfl, whole⟩
          rw [List.filterMap_cons_some (attribute?_append whole rest)] at first
          cases first
          exact .here whole others
        · rw [List.filterMap_cons_none (attribute?_eq_none sign)] at first
          exact .later sign (ih first)

/-! ## Lines -/

theorem says_iff {name : String} :
    Says line name value ↔ Text.trim line ≠ [] ∧ (Text.trim line).head? ≠ some '#' ∧
      (attributes (Text.trim line)).head? = some (name.toList, value) := by
  rw [attributes, ← firstAttribute_iff]
  constructor
  · rintro ⟨shown, spoken, all, has, first⟩
    exact ⟨shown, spoken, hasFields_iff.1 has ▸ first⟩
  · rintro ⟨shown, spoken, first⟩
    exact ⟨shown, spoken, _, hasFields_iff.2 rfl, first⟩

theorem Says.value_eq {name : String} {other : List Char} (said : Says line name value)
    (again : Says line name other) : value = other := by
  have same := (says_iff.1 said).2.2.symm.trans (says_iff.1 again).2.2
  simpa using same

/-- A line is what it says, unless it says nothing that matters. -/
theorem Line.ofText_eq_iff {kind : Line} (loud : kind ≠ .silent) :
    ofText line = kind ↔ ∃ name value, Says line name value ∧ ofAttribute name.toList value = kind := by
  simp only [says_iff]
  by_cases shown : Text.trim line = []
  · simp [ofText, shown, loud.symm]
  by_cases spoken : (Text.trim line).head? = some '#'
  · simp [ofText, spoken, loud.symm]
  rw [ofText]
  cases attributes (Text.trim line) with
  | nil => simp [shown, spoken, loud.symm]
  | cons first more =>
      rcases first with ⟨name, value⟩
      constructor
      · intro same
        exact ⟨String.ofList name, value, ⟨shown, spoken, by simp⟩, by simpa [shown, spoken] using same⟩
      · rintro ⟨other, text, ⟨_, _, first⟩, same⟩
        cases first
        simpa [shown, spoken] using same

theorem Line.ofAttribute_cases (name : String) (value : List Char) :
    (name = "dictionary" ∧ ofAttribute name.toList value = .header) ∨
      (name = "word" ∧ ofAttribute name.toList value = .word value) ∨
      (name = "shortcut" ∧ ofAttribute name.toList value = .shortcut value) ∨
      ofAttribute name.toList value = .silent := by
  by_cases header : name = "dictionary"
  · subst header
    exact .inl ⟨rfl, rfl⟩
  by_cases word : name = "word"
  · subst word
    exact .inr (.inl ⟨rfl, rfl⟩)
  by_cases shortcut : name = "shortcut"
  · subst shortcut
    exact .inr (.inr (.inl ⟨rfl, rfl⟩))
  · have others : ofAttribute name.toList value = .silent := by
      simp only [ofAttribute, beq_iff_eq, String.toList_inj, header, word, shortcut, if_false]
    exact .inr (.inr (.inr others))

theorem Line.ofText_eq_header_iff : ofText line = .header ↔ ∃ value, Says line "dictionary" value := by
  rw [ofText_eq_iff (by simp)]
  constructor
  · rintro ⟨name, value, said, same⟩
    rcases ofAttribute_cases name value with ⟨rfl, _⟩ | ⟨_, made⟩ | ⟨_, made⟩ | made
    · exact ⟨value, said⟩
    all_goals cases made.symm.trans same
  · rintro ⟨value, said⟩
    exact ⟨_, value, said, rfl⟩

theorem Line.ofText_eq_word_iff : ofText line = .word value ↔ Says line "word" value := by
  rw [ofText_eq_iff (by simp)]
  constructor
  · rintro ⟨name, text, said, same⟩
    rcases ofAttribute_cases name text with ⟨_, made⟩ | ⟨rfl, made⟩ | ⟨_, made⟩ | made
    case inr.inl =>
      cases made.symm.trans same
      exact said
    all_goals cases made.symm.trans same
  · intro said
    exact ⟨_, value, said, rfl⟩

theorem Line.ofText_eq_shortcut_iff : ofText line = .shortcut value ↔ Says line "shortcut" value := by
  rw [ofText_eq_iff (by simp)]
  constructor
  · rintro ⟨name, text, said, same⟩
    rcases ofAttribute_cases name text with ⟨_, made⟩ | ⟨_, made⟩ | ⟨rfl, made⟩ | made
    case inr.inr.inl =>
      cases made.symm.trans same
      exact said
    all_goals cases made.symm.trans same
  · intro said
    exact ⟨_, value, said, rfl⟩

/-! ## Lists -/

theorem said_concat {name : String} :
    Said name (lines ++ [line]) ↔ Said name lines ∨ ∃ value, Says line name value := by
  simp only [Said, List.mem_append, List.mem_singleton, or_and_right, exists_or, exists_eq_left]

variable {entries : List WordEntry}

theorem Lists.eq_nil_iff (listed : Lists lines entries) : entries = [] ↔ ¬ Said "word" lines := by
  cases listed with
  | nil wordless => simpa using wordless
  | @word before more earlier line word shortcuts _ said _ _ =>
      have there : Said "word" (before ++ line :: more) := ⟨line, by simp, word, said⟩
      simpa using there

theorem Lists.concat_word (listed : Lists lines entries) (said : Says line "word" value) :
    Lists (lines ++ [line]) (entries ++ [⟨String.ofList value, []⟩]) :=
  .word listed said (by simp [Said]) .nil

theorem not_said_concat {name : String} (unsaid : ¬ Said name lines)
    (other : ∀ value, ¬ Says line name value) : ¬ Said name (lines ++ [line]) := by
  rw [said_concat, not_or, not_exists]
  exact ⟨unsaid, other⟩

theorem Lists.concat_silent (listed : Lists lines entries) (wordless : ∀ value, ¬ Says line "word" value)
    (silent : ∀ value, Says line "shortcut" value → value = []) : Lists (lines ++ [line]) entries := by
  cases listed with
  | nil unsaid => exact .nil (not_said_concat unsaid wordless)
  | word earlier said unsaid shortcuts =>
      rw [List.append_assoc, List.cons_append]
      exact .word earlier said (not_said_concat unsaid wordless) (.other shortcuts silent)

/-- A shortcut belongs to the latest entry. -/
theorem Lists.concat_shortcut {entry : WordEntry} (listed : Lists lines (entries ++ [entry]))
    (said : Says line "shortcut" value) : Lists (lines ++ [line]) (entries ++ [addShortcut value entry]) := by
  have wordless : ∀ word, ¬ Says line "word" word := by
    intro word there
    have kind := (Line.ofText_eq_word_iff.2 there).symm.trans (Line.ofText_eq_shortcut_iff.2 said)
    cases kind
  by_cases filled : value = []
  · have same : addShortcut value entry = entry := by simp [addShortcut, filled]
    rw [same]
    exact listed.concat_silent wordless fun other again => (again.value_eq said).trans filled
  · -- The lines list something, so that they end in a word and what belongs to it.
    generalize latest : entries ++ [entry] = all at listed
    cases listed with
    | nil _ => simp at latest
    | word earlier there unsaid shortcuts =>
        rcases List.append_inj' latest rfl with ⟨rfl, same⟩
        cases same
        rw [List.append_assoc, List.cons_append]
        have added := Shortcuts.shortcut shortcuts said filled
        simpa [addShortcut, filled] using
          Lists.word earlier there (not_said_concat unsaid wordless) added

variable {all : List WordEntry}

theorem Shortcuts.concat_cases {shortcuts : List String} (listed : Shortcuts (lines ++ [line]) shortcuts) :
    (∃ earlier value, Shortcuts lines earlier ∧ Says line "shortcut" value ∧ value ≠ [] ∧
        shortcuts = earlier ++ [String.ofList value]) ∨
      (Shortcuts lines shortcuts ∧ ∀ value, Says line "shortcut" value → value = []) := by
  generalize whole : lines ++ [line] = passed at listed
  cases listed with
  | nil => simp at whole
  | shortcut earlier said filled =>
      rcases List.append_inj' whole rfl with ⟨rfl, last⟩
      obtain rfl := List.head_eq_of_cons_eq last
      exact .inl ⟨_, _, earlier, said, filled, rfl⟩
  | other earlier silent =>
      rcases List.append_inj' whole rfl with ⟨rfl, last⟩
      obtain rfl := List.head_eq_of_cons_eq last
      exact .inr ⟨earlier, silent⟩

theorem Shortcuts.unique {shortcuts others : List String} (listed : Shortcuts lines shortcuts)
    (again : Shortcuts lines others) : shortcuts = others := by
  induction lines using List.reverseRecOn generalizing shortcuts others with
  | nil =>
      have none : ∀ {found}, Shortcuts [] found → found = [] := by
        intro found listed
        generalize empty : ([] : List (List Char)) = passed at listed
        cases listed with
        | nil => rfl
        | shortcut _ _ _ => simp at empty
        | other _ _ => simp at empty
      rw [none listed, none again]
  | append_singleton lines line ih =>
      rcases listed.concat_cases with ⟨_, value, earlier, said, filled, rfl⟩ | ⟨earlier, silent⟩
      · rcases again.concat_cases with ⟨_, other, same, repeated, _, rfl⟩ | ⟨_, silent⟩
        · rw [ih earlier same, said.value_eq repeated]
        · exact absurd (silent value said) filled
      · rcases again.concat_cases with ⟨_, value, _, said, filled, _⟩ | ⟨same, _⟩
        · exact absurd (silent value said) filled
        · exact ih earlier same

/-- Lines can be cut at their last word in one way. -/
theorem cut_at_word {before' more more' : List (List Char)} {line' word word' : List Char}
    (same : before ++ line :: more = before' ++ line' :: more') (said : Says line "word" word)
    (said' : Says line' "word" word') (wordless : ¬ Said "word" more) (wordless' : ¬ Said "word" more') :
    before = before' ∧ line = line' ∧ more = more' := by
  -- If one cut were behind the other, its word would stand among lines without words.
  rcases List.append_eq_append_iff.1 same with ⟨front, rfl, behind⟩ | ⟨front, rfl, behind⟩
  · cases front with
    | nil => simpa using behind
    | cons first rest =>
        have later : line' ∈ more := by
          rw [List.tail_eq_of_cons_eq behind]
          simp
        exact absurd ⟨line', later, word', said'⟩ wordless
  · cases front with
    | nil => simpa [eq_comm] using behind
    | cons first rest =>
        have later : line ∈ more' := by
          rw [List.tail_eq_of_cons_eq behind]
          simp
        exact absurd ⟨line, later, word, said⟩ wordless'

/-- Lines list one thing only. -/
theorem Lists.unique (listed : Lists lines entries) (again : Lists lines all) : entries = all := by
  induction listed generalizing all with
  | nil wordless => exact (again.eq_nil_iff.2 wordless).symm
  | @word before more entries line word shortcuts earlier said wordless listed ih =>
      generalize whole : before ++ line :: more = passed at again
      cases again with
      | nil unsaid => exact absurd ⟨line, by simp [← whole], word, said⟩ unsaid
      | word earlier' said' wordless' listed' =>
          rcases cut_at_word whole said said' wordless wordless' with ⟨rfl, rfl, rfl⟩
          rw [ih earlier', said.value_eq said', listed.unique listed']

/-! ## One line after the other -/

/-- What is known of some lines when they have been read. -/
structure Reads (before : List (List Char)) (p : Progress) : Prop where
  headed : p.hasHeader = true ↔ Said "dictionary" before
  listed : Lists before p.entries.reverse

variable {p : Progress}

theorem Reads.add_of_bad (reads : Reads before p) (bad : Bad before line fault) :
    p.add (.ofText line) = .error fault := by
  cases bad with
  | emptyWord word =>
      rw [Line.ofText_eq_word_iff.2 word]
      rfl
  | shortcutBeforeWord shortcut wordless =>
      have none : p.entries = [] := by simpa using reads.listed.eq_nil_iff.2 wordless
      rw [Line.ofText_eq_shortcut_iff.2 shortcut, Progress.add, none]

theorem Reads.exists_add (reads : Reads before p) (good : ∀ fault, ¬ Bad before line fault) :
    ∃ q, p.add (.ofText line) = .ok q ∧ Reads (before ++ [line]) q := by
  have headed : ∀ {kind}, Line.ofText line = kind → kind ≠ .header →
      (p.hasHeader = true ↔ Said "dictionary" (before ++ [line])) := by
    rintro _ rfl other
    rw [said_concat, ← Line.ofText_eq_header_iff, reads.headed]
    simp [other]
  have wordless : (∀ word, Line.ofText line ≠ .word word) → ∀ word, ¬ Says line "word" word :=
    fun other word said => other word (Line.ofText_eq_word_iff.2 said)
  have silent : (∀ text, Line.ofText line ≠ .shortcut text) → ∀ text, Says line "shortcut" text → text = [] :=
    fun other text said => absurd (Line.ofText_eq_shortcut_iff.2 said) (other text)
  -- Only a header touches the flag, and only a word or a shortcut touches the entries.
  cases kind : Line.ofText line with
  | silent =>
      have listed := reads.listed.concat_silent (wordless (by simp [kind])) (silent (by simp [kind]))
      exact ⟨p, rfl, headed kind (by simp), listed⟩
  | header =>
      have listed := reads.listed.concat_silent (wordless (by simp [kind])) (silent (by simp [kind]))
      have said : Said "dictionary" (before ++ [line]) :=
        said_concat.2 (.inr (Line.ofText_eq_header_iff.1 kind))
      exact ⟨{ p with hasHeader := true }, rfl, by simp [said], listed⟩
  | word text =>
      have said := Line.ofText_eq_word_iff.1 kind
      have filled : text ≠ [] := by
        rintro rfl
        exact good _ (.emptyWord said)
      refine ⟨{ p with entries := ⟨String.ofList text, []⟩ :: p.entries }, ?_, headed kind (by simp), ?_⟩
      · simp [Progress.add, filled]
      · simpa using reads.listed.concat_word said
  | shortcut text =>
      have said := Line.ofText_eq_shortcut_iff.1 kind
      cases latest : p.entries with
      | nil =>
          have unsaid := reads.listed.eq_nil_iff.1 (by simp [latest])
          exact absurd (.shortcutBeforeWord said unsaid) (good _)
      | cons entry earlier =>
          have listed : Lists before (earlier.reverse ++ [entry]) := by
            simpa [latest] using reads.listed
          refine ⟨{ p with entries := addShortcut text entry :: earlier }, ?_, headed kind (by simp), ?_⟩
          · rw [Progress.add, latest]
          · simpa using listed.concat_shortcut said

/-! ## All lines -/

theorem clean_nil : Clean [] := by
  rintro number fault ⟨before, line, after, same, _⟩
  simp at same

theorem BadLine.append (bad : BadLine lines number fault) (more : List (List Char)) :
    BadLine (lines ++ more) number fault := by
  rcases bad with ⟨before, line, after, rfl, counted, bad⟩
  exact ⟨before, line, after ++ more, by simp, counted, bad⟩

theorem BadLine.number_le (bad : BadLine lines number fault) : number ≤ lines.length := by
  rcases bad with ⟨before, line, after, rfl, rfl, _⟩
  simp

theorem clean_concat_iff :
    Clean (lines ++ [line]) ↔ Clean lines ∧ ∀ fault, ¬ Bad lines line fault := by
  constructor
  · intro clean
    refine ⟨fun number fault bad => clean number fault (bad.append [line]), ?_⟩
    intro fault bad
    exact clean _ fault ⟨lines, line, [], rfl, rfl, bad⟩
  · rintro ⟨clean, good⟩ number fault ⟨before, wrong, after, same, counted, bad⟩
    rcases List.eq_nil_or_concat' after with rfl | ⟨more, last, rfl⟩
    · rcases List.append_inj' same rfl with ⟨rfl, alike⟩
      obtain rfl : line = wrong := List.head_eq_of_cons_eq alike
      exact good fault bad
    · rw [← List.cons_append, ← List.append_assoc] at same
      rcases List.append_inj' same rfl with ⟨rfl, _⟩
      exact clean number fault ⟨before, wrong, more, rfl, counted, bad⟩

/-- Lines are read as long as none is bad. -/
theorem Clean.exists_reads (clean : Clean lines) :
    ∃ p, (lines.map Line.ofText).foldlM Progress.add {} = .ok p ∧ Reads lines p := by
  -- By induction on the lines from the last one, since what is bad depends on those before.
  induction lines using List.reverseRecOn with
  | nil => exact ⟨{}, rfl, by simp [Said], .nil (by simp [Said])⟩
  | append_singleton lines line ih =>
      rcases clean_concat_iff.1 clean with ⟨clean, good⟩
      rcases ih clean with ⟨p, passed, reads⟩
      rcases reads.exists_add good with ⟨q, added, reads⟩
      refine ⟨q, ?_, reads⟩
      rw [List.map_append, List.foldlM_append, passed]
      change [Line.ofText line].foldlM Progress.add p = .ok q
      rw [List.foldlM_cons, added]
      rfl

theorem exists_first_bad (dirty : ¬ Clean lines) :
    ∃ before line after fault, lines = before ++ line :: after ∧ Clean before ∧ Bad before line fault := by
  induction lines using List.reverseRecOn with
  | nil => exact absurd clean_nil dirty
  | append_singleton lines line ih =>
      by_cases clean : Clean lines
      · have bad : ∃ fault, Bad lines line fault := by
          simpa [clean_concat_iff, clean] using dirty
        rcases bad with ⟨fault, bad⟩
        exact ⟨lines, line, [], fault, rfl, clean, bad⟩
      · rcases ih clean with ⟨before, wrong, after, fault, rfl, clean, bad⟩
        exact ⟨before, wrong, after ++ [line], fault, by simp, clean, bad⟩

/-- Nothing is read behind a fault. -/
theorem Progress.addAll_of_fault {q : Progress} {passed : List Line} {line : Line}
    (read : passed.foldlM add p = .ok q) (stops : q.add line = .error fault) (more : List Line) (number : Nat) :
    p.addAll number (passed ++ line :: more) = .error (number + passed.length, fault) := by
  induction passed generalizing p number with
  | nil =>
      cases read
      rw [List.nil_append, addAll, stops]
      rfl
  | cons first passed ih =>
      rw [List.foldlM_cons] at read
      rw [List.cons_append, addAll]
      cases added : p.add first with
      | error wrong =>
          rw [added] at read
          cases read
      | ok next =>
          rw [added] at read
          have later := ih read (number + 1)
          rw [List.length_cons, Nat.add_comm passed.length, ← Nat.add_assoc]
          exact later

section Parse

variable {text : List Char}

/-- The first bad line is reported, whatever follows. -/
theorem parse_of_bad {after : List (List Char)} (divided : Text.lines text = before ++ line :: after)
    (clean : Clean before) (bad : Bad before line fault) :
    WordList.parse text = .error (before.length + 1, fault) := by
  rcases clean.exists_reads with ⟨p, passed, reads⟩
  have stopped := Progress.addAll_of_fault passed (reads.add_of_bad bad) (after.map Line.ofText) 1
  rw [parse, ofLines, divided, List.map_append, List.map_cons, stopped, List.length_map, Nat.add_comm]

theorem parse_of_clean (clean : Clean (Text.lines text)) :
    (¬ HasContent (Text.lines text) → WordList.parse text = .error (0, .noContent)) ∧
      (HasContent (Text.lines text) →
        ∃ entries, WordList.parse text = .ok entries ∧ Lists (Text.lines text) entries) := by
  rcases clean.exists_reads with ⟨p, passed, reads⟩
  have none : p.entries = [] ↔ ¬ Said "word" (Text.lines text) := by
    simpa using reads.listed.eq_nil_iff
  have empty : (! p.hasHeader && p.entries.isEmpty) = true ↔ ¬ HasContent (Text.lines text) := by
    rw [HasContent, not_or, ← none, ← reads.headed]
    simp
  rw [parse, ofLines, (Progress.addAll_eq_ok_iff _ _ _).2 passed]
  constructor
  · intro lacking
    exact if_pos (empty.2 lacking)
  · intro content
    exact ⟨p.entries.reverse, if_neg (fun lacking => empty.1 lacking content), reads.listed⟩

theorem exists_fault_iff :
    (∃ fault, WordList.parse text = .error fault) ↔
      ¬ Clean (Text.lines text) ∨ ¬ HasContent (Text.lines text) := by
  by_cases clean : Clean (Text.lines text)
  · by_cases content : HasContent (Text.lines text)
    · rcases (parse_of_clean clean).2 content with ⟨entries, read, _⟩
      simp [read, clean, content]
    · have failed := (parse_of_clean clean).1 content
      simp [failed, content]
  · rcases exists_first_bad clean with ⟨before, line, after, fault, divided, passed, bad⟩
    have failed := parse_of_bad divided passed bad
    simp [failed, clean]

/-- What a text lists is what it is read as, if it is read at all. -/
theorem parse_eq_ok_iff :
    WordList.parse text = .ok entries ↔
      Clean (Text.lines text) ∧ HasContent (Text.lines text) ∧ Lists (Text.lines text) entries := by
  constructor
  · intro read
    have sound : ¬ (¬ Clean (Text.lines text) ∨ ¬ HasContent (Text.lines text)) := by
      rw [← exists_fault_iff]
      simp [read]
    rw [not_or, not_not, not_not] at sound
    rcases (parse_of_clean sound.1).2 sound.2 with ⟨all, again, listed⟩
    cases read.symm.trans again
    exact ⟨sound.1, sound.2, listed⟩
  · rintro ⟨clean, content, listed⟩
    rcases (parse_of_clean clean).2 content with ⟨all, read, again⟩
    rw [read, listed.unique again]

end Parse

end WordList

namespace DictionaryContent

open WordList

theorem parse_encode {text : List Char}
    (plain : (Text.trimStart (text.dropWhile (· == '\ufeff'))).head? ≠ some '{') :
    parse (Text.encode text) =
      match WordList.parse (text.dropWhile (· == '\ufeff')) with
      | .ok entries => .ok entries
      | .error (number, fault) => .error (.line number fault) := by
  rw [parse, Text.decode_encode]
  exact if_neg (by simpa [dropMarks] using plain)

/-- A text that does not begin like a JSON document is a word list unless one of its lines is bad, or none
is a header or a word.

* The first bad line is reported by its number.
* Where all lines are good and there is no content, the fault stands at line 0.
* The entries are those of the lines. -/
theorem parse_by_grammar (text : List Char)
    (plain : (Text.trimStart (text.dropWhile (· == '\ufeff'))).head? ≠ some '{') :
    let lines := Text.lines (text.dropWhile (· == '\ufeff'))
    let read := parse (Text.encode text)
    ((∃ fault, read = .error fault) ↔
        (∃ number fault, BadLine lines number fault) ∨ ¬ HasContent lines) ∧
      (∀ number fault, BadLine lines number fault →
        (∀ earlier < number, ∀ other, ¬ BadLine lines earlier other) →
          read = .error (.line number fault)) ∧
      (Clean lines → ¬ HasContent lines → read = .error (.line 0 .noContent)) ∧
      ∀ entries, read = .ok entries ↔ Clean lines ∧ HasContent lines ∧ Lists lines entries := by
  intro lines read
  have parsed : read = _ := parse_encode plain
  refine ⟨?_, ?_, ?_, ?_⟩
  · have dirty : (∃ number fault, BadLine lines number fault) ↔ ¬ Clean lines := by simp [Clean]
    rw [dirty, ← exists_fault_iff, parsed]
    cases WordList.parse (text.dropWhile (· == '\ufeff')) with
    | error fault => simp
    | ok entries => simp
  · rintro _ fault ⟨before, line, after, divided, rfl, bad⟩ first
    have clean : Clean before := by
      intro number other earlier
      have below := earlier.number_le
      have there : BadLine lines number other := divided ▸ earlier.append (line :: after)
      exact first number (by omega) other there
    rw [parsed, parse_of_bad divided clean bad]
  · intro clean lacking
    rw [parsed, (parse_of_clean clean).1 lacking]
  · intro entries
    rw [← parse_eq_ok_iff, parsed]
    cases WordList.parse (text.dropWhile (· == '\ufeff')) with
    | error fault => simp
    | ok all => simp

/-- A text with marks before its first word, both line ends, fields that are no attributes, escapes, a last
backslash and a header behind; and one whose second line is the first of two that are bad. -/
theorem parse_by_grammar_odd :
    let text := ("\ufeff\ufeffword=hi\x0d\nshortcut=o/\njunk,word=:-\\, \\\nshortcut=a=b\\\\\n" ++
      " shortcut= ,f=1\x0d\ndictionary=again\n# shortcut=no\n\\word=x\n\nshortcut = y").toList
    let body := text.drop 2
    let wrong := "f=1\nshortcut=lost\nword=,f=2\nword=late\n".toList
    let entries : List WordEntry := [⟨"hi", ["o/"]⟩, ⟨":-,", ["a=b\\"]⟩, ⟨"x", ["y"]⟩]
    text.dropWhile (· == '\ufeff') = body ∧ (Text.trimStart body).head? ≠ some '{' ∧
      parse (Text.encode text) = .ok entries ∧ Lists (Text.lines body) entries ∧
      wrong.dropWhile (· == '\ufeff') = wrong ∧ (Text.trimStart wrong).head? ≠ some '{' ∧
      parse (Text.encode wrong) = .error (.line 2 .shortcutBeforeWord) ∧
      ∃ number fault, BadLine (Text.lines wrong) number fault := by
  intro text body wrong entries
  have marked : text.dropWhile (· == '\ufeff') = body := by decide +kernel
  have plain : (Text.trimStart (text.dropWhile (· == '\ufeff'))).head? ≠ some '{' := by decide +kernel
  have read : parse (Text.encode text) = .ok entries := by
    rw [parse_encode plain]
    decide +kernel
  have unmarked : wrong.dropWhile (· == '\ufeff') = wrong := by decide +kernel
  have plain' : (Text.trimStart (wrong.dropWhile (· == '\ufeff'))).head? ≠ some '{' := by decide +kernel
  have stopped : parse (Text.encode wrong) = .error (.line 2 .shortcutBeforeWord) := by
    rw [parse_encode plain']
    decide +kernel
  have headed : HasContent (Text.lines wrong) :=
    .inr ⟨"word=late".toList, by decide +kernel, "late".toList,
      Line.ofText_eq_word_iff.1 (by decide +kernel)⟩
  have listed := ((parse_by_grammar text plain).2.2.2 entries).1 read
  have reason := (parse_by_grammar wrong plain').1.1 ⟨_, stopped⟩
  rw [marked] at plain listed
  rw [unmarked] at plain' reason
  exact ⟨marked, plain, read, listed.2.2, unmarked, plain', stopped,
    reason.resolve_right (not_not_intro headed)⟩

end DictionaryContent
end EmojiPicker

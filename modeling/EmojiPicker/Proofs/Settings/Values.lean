import EmojiPicker.Proofs.Settings.Comments
import EmojiPicker.Proofs.Text.Numerals
import EmojiPicker.Proofs.Text.Settled
import Mathlib.Data.List.Forall2

/-!
# Names and values of settings

What a key and the text behind it say, by rules about their characters.

* `SettingsField.Spells`, `SettingsField.ofKey?_eq_some_iff` — how a key may write the name of a field;
* `SettingsField.CommentBegins`, `SettingsField.Holds` — where a comment begins, and the value in front of it;
* `SettingsField.holds_dropComment`, `SettingsField.holds_dropAddressComment` — that value is what is read;
* `SettingsField.Gives`, `SettingsField.read?_eq_some_iff` — what a text gives to each field.
-/

namespace EmojiPicker
namespace SettingsField

/-! ## Names -/

/-- The names that a field goes by. -/
def names : SettingsField → List String
  | locale => ["locale", "language"]
  | pageCapacity => ["page_capacity", "keys_per_page"]
  | recentsCapacity => ["recents_capacity", "max_recents"]
  | recentsAlwaysVisible => ["recents_always_visible"]
  | searchTabVisible => ["search_tab_visible", "show_search_tab"]
  | exitSearchOnPick => ["exit_search_on_pick"]
  | incognito => ["incognito"]
  | animations => ["animations", "animate"]
  | dictionaryAddress => ["dictionary_url"]
  | catalogPath => ["catalog_path", "catalog"]

/-- A character of a key may stand for its lower case. A dot, a hyphen and a space may stand for an
underscore. -/
def StandsFor (c d : Char) : Prop :=
  ∃ lower, Text.lowerLetter c = [lower] ∧ (lower = d ∨ (d = '_' ∧ lower ∈ ['.', '-', ' ']))

/-- A key writes a name character by character. Blanks around it do not count. -/
def Spells (key : List Char) (name : String) : Prop :=
  List.Forall₂ StandsFor (Text.trim key) name.toList

/-- The characters of names: no other character is taken for one of them. -/
def Plain (d : Char) : Prop :=
  d.toNat < 0x80 ∧ d ∉ ['.', '-', ' ']

instance (d : Char) : Decidable (Plain d) :=
  inferInstanceAs (Decidable (_ ∧ _))

theorem underscore_eq_iff {x d : Char} (plain : Plain d) :
    underscore x = d ↔ x = d ∨ (d = '_' ∧ x ∈ ['.', '-', ' ']) := by
  by_cases special : x ∈ ['.', '-', ' ']
  · have shown : underscore x = '_' := by
      rcases List.mem_cons.1 special with rfl | special
      · rfl
      · rcases List.mem_cons.1 special with rfl | special
        · rfl
        · rw [List.mem_singleton.1 special]
          rfl
    have other : x ≠ d := fun same => plain.2 (same ▸ special)
    rw [shown]
    simp only [other, special, and_true, false_or]
    exact eq_comm
  · have kept : underscore x = x := by
      rw [underscore, if_neg]
      simpa [or_assoc] using special
    simp [kept, special]

theorem lowerLetter_cases (c : Char) :
    (∃ x, Text.lowerLetter c = [x]) ∨ Text.lowerLetter c = ['i', '\u0307'] := by
  unfold Text.lowerLetter
  split
  · exact Or.inl ⟨_, rfl⟩
  · split
    · exact Or.inr rfl
    · split
      · exact Or.inl ⟨_, rfl⟩
      · exact Or.inl ⟨_, rfl⟩

theorem standsFor_iff {c d lower : Char} (one : Text.lowerLetter c = [lower]) (plain : Plain d) :
    StandsFor c d ↔ underscore lower = d := by
  rw [underscore_eq_iff plain, StandsFor, one]
  constructor
  · rintro ⟨x, same, stands⟩
    rwa [List.cons.inj same |>.1]
  · intro stands
    exact ⟨lower, rfl, stands⟩

/-- A character that is no ASCII stands for nothing in a name. -/
theorem underscore_ne {x d : Char} (wide : 0x80 ≤ x.toNat) (plain : Plain d) : underscore x ≠ d := by
  have narrow : ∀ e ∈ ['.', '-', ' '], e.toNat < 0x80 := by simp
  rw [Ne, underscore_eq_iff plain]
  rintro (rfl | ⟨_, special⟩)
  · exact absurd plain.1 (by omega)
  · exact absurd (narrow x special) (by omega)

/-- The normal form of a key is a name exactly if the key writes that name. -/
theorem map_lowercaseAfter_eq_iff {ds : List Char} (plain : ∀ d ∈ ds, Plain d) (before cs : List Char) :
    (Text.lowercaseAfter before cs).map underscore = ds ↔ List.Forall₂ StandsFor cs ds := by
  induction cs generalizing before ds with
  | nil =>
      rw [Text.lowercaseAfter, List.map_nil, List.forall₂_nil_left_iff]
      exact eq_comm
  | cons c rest ih =>
      rw [Text.lowercaseAfter_cons, List.map_append]
      cases ds with
      | nil =>
          simp only [List.append_eq_nil_iff, List.map_eq_nil_iff, Text.lowerIn_ne_nil, false_and,
            List.forall₂_nil_right_iff, List.cons_ne_nil]
      | cons d ds =>
          have first := plain d List.mem_cons_self
          have others : ∀ e ∈ ds, Plain e := fun e member => plain e (List.mem_cons_of_mem d member)
          rw [List.forall₂_cons, ← ih others (c :: before)]
          by_cases sigma : c = 'Σ'
          · -- No name has a sigma of any kind.
            subst sigma
            have lower : Text.lowerLetter 'Σ' = ['σ'] := by decide +kernel
            have never : underscore (if Text.isWordFinal before rest then 'ς' else 'σ') ≠ d := by
              split
              · exact underscore_ne (by decide) first
              · exact underscore_ne (by decide) first
            rw [standsFor_iff lower first, Text.lowerIn_sigma]
            simp [never, underscore_ne (x := 'σ') (by decide) first]
          · rw [Text.lowerIn_of_ne sigma]
            rcases lowerLetter_cases c with ⟨x, one⟩ | two
            · rw [standsFor_iff one first, one]
              simp
            · -- The dot above that comes with a lower i belongs to no name either.
              have never : ¬ StandsFor c d := by
                rintro ⟨x, one, _⟩
                rw [two] at one
                simp at one
              have absent : '\u0307' ∉ ds := fun there => absurd (others '\u0307' there) (by decide)
              rw [two]
              simp only [never, false_and, iff_false]
              intro same
              have second := (List.cons.inj same).2
              exact absent (second ▸ List.mem_cons_self)

theorem plain_of_mem_names {field : SettingsField} {name : String} (listed : name ∈ field.names) :
    ∀ d ∈ name.toList, Plain d := by
  have all : field.names.all (·.toList.all (Plain ·)) = true := by
    cases field <;> decide +kernel
  intro d there
  exact of_decide_eq_true (List.all_eq_true.1 (List.all_eq_true.1 all name listed) d there)

theorem ofName?_eq_some_iff {name : String} {field : SettingsField} :
    ofName? name = some field ↔ name ∈ field.names := by
  constructor
  · intro named
    unfold ofName? at named
    split at named
    case h_17 => exact absurd named (by simp)
    all_goals
      rw [← Option.some.inj named]
      decide
  · intro listed
    have all : ∀ name ∈ field.names, ofName? name = some field := by
      cases field <;> decide
    exact all name listed

/-- A key names a field if it writes one of its names. -/
theorem ofKey?_eq_some_iff {key : List Char} {field : SettingsField} :
    ofKey? key = some field ↔ ∃ name ∈ field.names, Spells key name := by
  have normal : ∀ name ∈ field.names, normalizeKey key = name ↔ Spells key name := by
    intro name listed
    rw [← String.toList_inj, normalizeKey, String.toList_ofList]
    exact map_lowercaseAfter_eq_iff (plain_of_mem_names listed) [] (Text.trim key)
  rw [ofKey?, ofName?_eq_some_iff]
  constructor
  · intro listed
    exact ⟨normalizeKey key, listed, (normal _ listed).1 rfl⟩
  · rintro ⟨name, listed, spelled⟩
    exact (normal name listed).2 spelled ▸ listed

/-! ## Comments -/

/-- A comment begins between these two parts of a text. In an address, which has slashes in it, that is at a
space with a hash. Elsewhere it is at two slashes, and at a hash that has something in front of it. -/
def CommentBegins (field : SettingsField) (front behind : List Char) : Prop :=
  if field = .dictionaryAddress then [' ', '#'] <+: behind
  else ['/', '/'] <+: behind ∨ (front ≠ [] ∧ ['#'] <+: behind)

/-- The value in a text: what stands in front of the comment, without the blanks around it. -/
def Holds (field : SettingsField) (text value : List Char) : Prop :=
  ∃ front, Text.Before field.CommentBegins text front ∧ value = Text.trim front

theorem Holds.unique {field : SettingsField} {text value other : List Char}
    (one : field.Holds text value) (two : field.Holds text other) : value = other := by
  rcases one with ⟨front, before, rfl⟩
  rcases two with ⟨part, also, rfl⟩
  rw [before.unique also]

/-- A hash that begins a text is passed over on the way to the next one. -/
theorem before_hash (rest : List Char) :
    Text.Before (fun front behind => front ≠ [] ∧ ['#'] <+: behind) ('#' :: rest)
      ('#' :: Text.upTo ['#'] rest) := by
  have next := Text.before_upTo ['#'] rest
  refine ⟨?_, ?_⟩
  · rcases next.cut with ⟨behind, split, ends⟩
    exact ⟨behind, congrArg ('#' :: ·) split, ends.imp_right fun begins => ⟨by simp, begins⟩⟩
  · rintro earlier later whole short ⟨inside, begins⟩
    cases earlier with
    | nil => exact inside rfl
    | cons c more =>
        exact next.first more later (List.cons.inj whole).2 (by simpa using short) begins

theorem before_other_hash {text : List Char} (other : text.head? ≠ some '#') :
    Text.Before (fun front behind => front ≠ [] ∧ ['#'] <+: behind) text (Text.upTo ['#'] text) := by
  have next := Text.before_upTo ['#'] text
  refine ⟨?_, ?_⟩
  · rcases next.cut with ⟨behind, split, ends⟩
    refine ⟨behind, split, ends.imp_right fun begins => ⟨?_, begins⟩⟩
    intro none
    rcases begins with ⟨more, rfl⟩
    rw [none] at split
    exact other (congrArg List.head? split)
  · intro earlier later whole short begins
    exact next.first earlier later whole short begins.2

theorem holds_dropComment {field : SettingsField} (other : field ≠ .dictionaryAddress)
    (text : List Char) : field.Holds text (dropComment text) := by
  have begins : field.CommentBegins =
      fun front behind => ['/', '/'] <+: behind ∨ (front ≠ [] ∧ ['#'] <+: behind) := by
    funext front behind
    rw [CommentBegins, if_neg other]
  -- One character is seen without what stands behind it.
  have near : ∀ l r s : List Char, r ≠ [] →
      (l ≠ [] ∧ ['#'] <+: r ++ s ↔ l ≠ [] ∧ ['#'] <+: r) := by
    intro l r s some
    cases r with
    | nil => exact absurd rfl some
    | cons c more => simp
  have slashes := Text.before_upTo ['/', '/'] text
  rw [Holds, begins, dropComment]
  split
  · next rest cut =>
      rw [cut] at slashes
      exact ⟨_, slashes.either (before_hash rest) near, rfl⟩
  · next noHash =>
      have head : (Text.upTo ['/', '/'] text).head? ≠ some '#' := by
        intro first
        rcases List.head?_eq_some_iff.1 first with ⟨rest, whole⟩
        exact noHash rest whole
      exact ⟨_, slashes.either (before_other_hash head) near, rfl⟩

theorem holds_dropAddressComment (text : List Char) :
    Holds .dictionaryAddress text (dropAddressComment text) :=
  ⟨_, Text.before_upTo [' ', '#'] text, rfl⟩

/-! ## Values -/

/-- Words for on and off, in either case. -/
def IsSwitch (value : List Char) (on : Bool) : Prop :=
  String.ofList (value.map Char.toLower) ∈
    if on then ["true", "1", "yes", "on"] else ["false", "0", "no", "off"]

/-- A numeral of a positive number of 64 bits. -/
def IsCount (value : List Char) (n : Nat) : Prop :=
  Numeral.Decimal value n ∧ 0 < n ∧ n < 2 ^ 64

/-- The fields that are numbers. -/
def countOf : SettingsField → Option (Nat → Setting)
  | pageCapacity => some .pageCapacity
  | recentsCapacity => some .recentsCapacity
  | _ => none

/-- The fields that are switches. -/
def switchOf : SettingsField → Option (Bool → Setting)
  | recentsAlwaysVisible => some .recentsAlwaysVisible
  | searchTabVisible => some .searchTabVisible
  | exitSearchOnPick => some .exitSearchOnPick
  | incognito => some .incognito
  | animations => some .animations
  | _ => none

/-- What a text gives to each field. Without a value a locale, a number and a switch get nothing; the address
and the path of the catalog are cleared. -/
inductive Gives : SettingsField → List Char → Setting → Prop where
  | locale {text value : List Char} (holds : Holds .locale text value) (some : value ≠ []) :
      Gives .locale text (.locale (String.ofList value))
  | count {field : SettingsField} {make : Nat → Setting} {text value : List Char} {n : Nat}
      (counted : field.countOf = some make) (holds : field.Holds text value)
      (count : IsCount value n) : Gives field text (make n)
  | switch {field : SettingsField} {make : Bool → Setting} {text value : List Char} {on : Bool}
      (switched : field.switchOf = some make) (holds : field.Holds text value)
      (switch : IsSwitch value on) : Gives field text (make on)
  | address {text value : List Char} (holds : Holds .dictionaryAddress text value)
      (some : value ≠ []) :
      Gives .dictionaryAddress text (.dictionaryAddress (Option.some (String.ofList value)))
  | noAddress {text : List Char} (holds : Holds .dictionaryAddress text []) :
      Gives .dictionaryAddress text (.dictionaryAddress Option.none)
  | catalog {text value : List Char} (holds : Holds .catalogPath text value) (some : value ≠ []) :
      Gives .catalogPath text (.catalogPath (Option.some ⟨String.ofList value⟩))
  | noCatalog {text : List Char} (holds : Holds .catalogPath text []) :
      Gives .catalogPath text (.catalogPath Option.none)

theorem switch?_eq_some_iff {value : List Char} {on : Bool} :
    switch? value = some on ↔ IsSwitch value on := by
  rw [IsSwitch, switch?]
  generalize String.ofList (value.map Char.toLower) = word
  constructor
  · intro read
    split at read
    case h_9 => exact absurd read (by simp)
    all_goals
      rw [← Option.some.inj read]
      decide
  · intro listed
    cases on with
    | true =>
        have cases : word = "true" ∨ word = "1" ∨ word = "yes" ∨ word = "on" := by simpa using listed
        rcases cases with rfl | rfl | rfl | rfl
        all_goals rfl
    | false =>
        have cases : word = "false" ∨ word = "0" ∨ word = "no" ∨ word = "off" := by simpa using listed
        rcases cases with rfl | rfl | rfl | rfl
        all_goals rfl

theorem positive?_eq_some_iff {value : List Char} {n : Nat} :
    positive? value = some n ↔ IsCount value n := by
  have size : Numeral.pageSize = 2 ^ 64 := rfl
  rw [positive?, Option.filter_eq_some_iff, Numeral.count?_eq_some_iff, IsCount, size]
  constructor
  · rintro ⟨⟨spelled, _, below⟩, positive⟩
    exact ⟨spelled, by simpa using positive, below⟩
  · rintro ⟨spelled, positive, below⟩
    refine ⟨⟨spelled, ?_, below⟩, by simpa using positive⟩
    -- Behind a minus there is no positive number.
    generalize same : (n : Int) = k at spelled
    cases spelled with
    | plain zeros m => exact Numeral.head?_padded (by decide)
    | plus zeros m => simp
    | minus zeros m => omega

theorem nonempty?_eq_some_iff {value : List Char} {text : String} :
    nonempty? value = some text ↔ value ≠ [] ∧ String.ofList value = text := by
  cases value with
  | nil => simp [nonempty?]
  | cons c rest => simp [nonempty?]

theorem nonempty?_of_ne_nil {value : List Char} (some : value ≠ []) :
    nonempty? value = Option.some (String.ofList value) :=
  nonempty?_eq_some_iff.2 ⟨some, rfl⟩

theorem ne_address_of_countOf {field : SettingsField} {make : Nat → Setting}
    (counted : field.countOf = some make) : field ≠ .dictionaryAddress := by
  rintro rfl
  exact absurd counted (by simp [countOf])

theorem ne_address_of_switchOf {field : SettingsField} {make : Bool → Setting}
    (switched : field.switchOf = some make) : field ≠ .dictionaryAddress := by
  rintro rfl
  exact absurd switched (by simp [switchOf])

theorem read?_of_countOf {field : SettingsField} {make : Nat → Setting}
    (counted : field.countOf = some make) (text : List Char) :
    field.read? text = (positive? (dropComment text)).map make := by
  cases field with
  | pageCapacity | recentsCapacity =>
      rw [← Option.some.inj counted]
      rfl
  | _ => exact absurd counted (by simp [countOf])

theorem read?_of_switchOf {field : SettingsField} {make : Bool → Setting}
    (switched : field.switchOf = some make) (text : List Char) :
    field.read? text = (switch? (dropComment text)).map make := by
  cases field with
  | recentsAlwaysVisible | searchTabVisible | exitSearchOnPick | incognito | animations =>
      rw [← Option.some.inj switched]
      rfl
  | _ => exact absurd switched (by simp [switchOf])

/-- A field is read as what its text gives, and not read if the text gives nothing. -/
theorem read?_eq_some_iff {field : SettingsField} {text : List Char} {setting : Setting} :
    field.read? text = some setting ↔ field.Gives text setting := by
  constructor
  · intro read
    cases field with
    | locale =>
        rcases Option.map_eq_some_iff.1 read with ⟨tag, given, rfl⟩
        rcases nonempty?_eq_some_iff.1 given with ⟨some, rfl⟩
        exact .locale (holds_dropComment (by decide) text) some
    | pageCapacity | recentsCapacity =>
        rcases Option.map_eq_some_iff.1 read with ⟨n, given, rfl⟩
        exact .count rfl (holds_dropComment (by decide) text) (positive?_eq_some_iff.1 given)
    | recentsAlwaysVisible | searchTabVisible | exitSearchOnPick | incognito | animations =>
        rcases Option.map_eq_some_iff.1 read with ⟨on, given, rfl⟩
        exact .switch rfl (holds_dropComment (by decide) text) (switch?_eq_some_iff.1 given)
    | dictionaryAddress =>
        obtain rfl := Option.some.inj read
        have holds := holds_dropAddressComment text
        by_cases none : dropAddressComment text = []
        · rw [none] at holds ⊢
          exact .noAddress holds
        · rw [nonempty?_of_ne_nil none]
          exact .address holds none
    | catalogPath =>
        obtain rfl := Option.some.inj read
        have holds : Holds .catalogPath text _ := holds_dropComment (by decide) text
        by_cases none : dropComment text = []
        · rw [none] at holds ⊢
          exact .noCatalog holds
        · rw [nonempty?_of_ne_nil none]
          exact .catalog holds none
  · intro given
    cases given with
    | locale holds some =>
        rw [holds.unique (holds_dropComment (by decide) text)] at some ⊢
        rw [read?, nonempty?_of_ne_nil some]
        rfl
    | count counted holds count =>
        rw [holds.unique (holds_dropComment (ne_address_of_countOf counted) text)] at count
        rw [read?_of_countOf counted, positive?_eq_some_iff.2 count]
        rfl
    | switch switched holds switch =>
        rw [holds.unique (holds_dropComment (ne_address_of_switchOf switched) text)] at switch
        rw [read?_of_switchOf switched, switch?_eq_some_iff.2 switch]
        rfl
    | address holds some =>
        rw [holds.unique (holds_dropAddressComment text)] at some ⊢
        rw [read?, nonempty?_of_ne_nil some]
    | noAddress holds =>
        rw [read?, ← holds.unique (holds_dropAddressComment text)]
        rfl
    | catalog holds some =>
        rw [holds.unique (holds_dropComment (by decide) text)] at some ⊢
        rw [read?, nonempty?_of_ne_nil some]
        rfl
    | noCatalog holds =>
        rw [read?, ← holds.unique (holds_dropComment (by decide) text)]
        rfl

end SettingsField

end EmojiPicker

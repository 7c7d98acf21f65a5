import EmojiPicker.Proofs.Session.Lines
import EmojiPicker.Proofs.Text.Numerals

/-!
# Commands are read as they are written

* `SessionCommand.written` — the line of a command: its name and its arguments, each behind a space;
* `SessionCommand.Writable` — the commands that a line can hold;
* `SessionCommand.parse_around` — blanks in front of a line and a carriage return behind it;
* `SessionCommand.parse_spaced`, `SessionCommand.parse_written` — what such a line is read as;
* `SessionCommand.numbers`, `SessionCommand.refuses_outside` — the ranges of the numbers in a line;
* `SessionCommand.written_back` — each line is read back, and no number is brought into its range.

The two commands with a key are left out: a key may have blanks in it, and a line names it only up to the
first of them.
-/

namespace EmojiPicker
namespace SessionCommand

/-! ## Lines of words -/

/-- A text that is not cut at blanks. -/
structure IsWord (cs : List Char) : Prop where
  nonempty : cs ≠ []
  whole : ∀ c ∈ cs, Text.isBlank c = false

theorem isWord_iff {cs : List Char} :
    (cs ≠ [] ∧ cs.all (! Text.isBlank ·) = true) ↔ IsWord cs := by
  rw [Text.whole_iff]
  exact ⟨fun ⟨nonempty, whole⟩ => ⟨nonempty, whole⟩, fun word => ⟨word.nonempty, word.whole⟩⟩

instance (cs : List Char) : Decidable (IsWord cs) :=
  decidable_of_iff _ isWord_iff

/-- A name and arguments, each behind a space. -/
def spaced (name : String) (args : List (List Char)) : List Char :=
  name.toList ++ args.flatMap (' ' :: ·)

theorem words_flatMap {word : List Char} {more : List (List Char)}
    (words : ∀ w ∈ word :: more, IsWord w) :
    Text.words (word ++ more.flatMap (' ' :: ·)) = word :: more := by
  induction more generalizing word with
  | nil =>
      have first := words word List.mem_cons_self
      simpa using Text.words_whole first.nonempty first.whole
  | cons next more ih =>
      have first := words word List.mem_cons_self
      rw [List.flatMap_cons, List.cons_append, Text.words_append first.nonempty first.whole (by decide),
        ih fun w member => words w (List.mem_cons_of_mem word member)]

theorem IsWord.getLast? {cs : List Char} (word : IsWord cs) : cs.getLast? ≠ some '\r' := by
  intro last
  have seen := word.whole '\r' (List.mem_of_mem_getLast? last)
  exact absurd seen (by decide)

/-- A line ends as its last argument does, or in a space. -/
theorem getLast?_spaced {name : String} {args : List (List Char)}
    (named : name.toList.getLast? ≠ some '\r') (ends : ∀ a ∈ args, a.getLast? ≠ some '\r') :
    (spaced name args).getLast? ≠ some '\r' := by
  rcases List.eq_nil_or_concat args with rfl | ⟨front, last, rfl⟩
  · simpa [spaced] using named
  · have split : spaced name (front.concat last) =
        (name.toList ++ front.flatMap (' ' :: ·)) ++ ' ' :: last := by simp [spaced]
    rw [split, List.getLast?_append]
    cases last with
    | nil => simp
    | cons c rest =>
        have other : (c :: rest).getLast? ≠ some '\r' := ends _ (by simp)
        simpa [List.getLast?_cons_cons] using other

/-- The name decides what is made of the arguments. -/
theorem parse_spaced {name : String} (named : IsWord name.toList) {word : List Char}
    {more : List (List Char)} (words : ∀ w ∈ word :: more, IsWord w) :
    ∃ rest, parse (spaced name (word :: more)) = ofWord name rest ∧ Text.words rest = word :: more := by
  let rest := word ++ more.flatMap (' ' :: ·)
  have nonempty : name ≠ "" := by simpa using named.nonempty
  have ends : rest.getLast? ≠ some '\r' := by
    have first : (String.ofList word).toList.getLast? ≠ some '\r' := by
      simpa using (words word List.mem_cons_self).getLast?
    have others : ∀ a ∈ more, a.getLast? ≠ some '\r' := fun a member =>
      (words a (List.mem_cons_of_mem word member)).getLast?
    have same : rest = spaced (String.ofList word) more := by simp [rest, spaced]
    rw [same]
    exact getLast?_spaced first others
  have text : spaced name (word :: more) = line name (String.ofList rest) := by
    simp [spaced, line, rest]
  refine ⟨rest, ?_, words_flatMap words⟩
  rw [text, parse_line named.whole nonempty, String.toList_ofList, Text.stripOne_eq_self ends]

/-! ## Around a line -/

theorem parse_congr {xs ys : List Char}
    (same : Text.trimStart (Text.stripOne '\r' xs) = Text.trimStart (Text.stripOne '\r' ys)) :
    parse xs = parse ys := by
  rw [parse, parse, same]

/-- Blanks in front of a line do not count, and neither does a carriage return behind it. -/
theorem parse_around {before text behind : List Char} (blank : ∀ c ∈ before, Text.isBlank c = true)
    (ends : text.getLast? ≠ some '\r') (behind_cases : behind = [] ∨ behind = ['\r']) :
    parse (before ++ text ++ behind) = parse text := by
  have stripped : ∃ front, (∀ c ∈ front, Text.isBlank c = true) ∧
      Text.stripOne '\r' (before ++ text ++ behind) = front ++ text := by
    rcases behind_cases with rfl | rfl
    · rw [List.append_nil]
      by_cases empty : text = []
      · -- The carriage return may be one of the blanks in front of nothing.
        subst empty
        rw [List.append_nil]
        refine ⟨Text.stripOne '\r' before, ?_, by simp⟩
        intro c member
        rw [Text.stripOne] at member
        split at member
        · exact blank c (List.dropLast_subset _ member)
        · exact blank c member
      · refine ⟨before, blank, Text.stripOne_eq_self ?_⟩
        rw [List.getLast?_append_of_ne_nil before empty]
        exact ends
    · refine ⟨before, blank, ?_⟩
      simp [Text.stripOne]
  rcases stripped with ⟨front, blank, cut⟩
  apply parse_congr
  rw [cut, Text.stripOne_eq_self ends, Text.trimStart_append blank]

/-! ## Writing -/

def name : SessionCommand → String
  | nothing => ""
  | help => "help"
  | tab _ => "tab"
  | swipe _ => "swipe"
  | scroll _ _ _ _ _ _ => "scroll"
  | leave _ => "leave"
  | pick _ => "pick"
  | query _ => "query"
  | choose _ => "choose"
  | close => "close"
  | locale _ => "locale"
  | download => "download"
  | clearCache => "clear-cache"
  | incognito _ => "incognito"
  | hide => "hide"
  | reveal => "show"
  | quit => "quit"

/-- A word in decimal. -/
def digits (n : UInt32) : String :=
  n.toNat.repr

def arguments : SessionCommand → List String
  | tab .search => ["search"]
  | tab (.category id) => [digits id.value]
  | swipe position => [position.repr]
  | scroll offset extent range firstFull firstPartial category =>
      [digits offset, digits extent, digits range, firstFull.repr, firstPartial.repr] ++
        (category.map (digits ·.value)).toList
  | leave category => [digits category.value]
  | pick key => [key]
  | query text => [text]
  | choose key => [key]
  | locale tag => [tag]
  | incognito on => [if on then "on" else "off"]
  | _ => []

def written (command : SessionCommand) : List Char :=
  spaced command.name (command.arguments.map String.toList)

/-- What a line can hold: numbers of 64 bits, a search text that does not end in a carriage return, and a
locale that is a word. -/
def Writable : SessionCommand → Prop
  | swipe position => position < Numeral.pageSize
  | scroll _ _ _ firstFull firstPartial _ =>
      Numeral.InPositions firstFull ∧ Numeral.InPositions firstPartial
  | query text => text.toList.getLast? ≠ some '\r'
  | locale tag => IsWord tag.toList
  | pick _ => False
  | choose _ => False
  | _ => True

/-! ## Numbers -/

theorem isBlank_of_isDigit {c : Char} (digit : c.isDigit = true) : Text.isBlank c = false := by
  have range : 48 ≤ c.toNat ∧ c.toNat ≤ 57 := by
    simpa [Char.isDigit, UInt32.le_iff_toNat_le] using digit
  simp [Text.isBlank]
  omega

/-- A number is a word, however it is spelled. -/
theorem isWord_of_decimal {cs : List Char} {k : Int} (spelled : Numeral.Decimal cs k) : IsWord cs := by
  have row : ∀ zeros n, ∀ c ∈ Numeral.padded zeros n, Text.isBlank c = false := fun zeros n c member =>
    isBlank_of_isDigit (Numeral.isDigit_of_mem_padded c member)
  cases spelled with
  | plain zeros n => exact ⟨Numeral.padded_ne_nil zeros n, row zeros n⟩
  | plus zeros n => exact ⟨by simp, List.forall_mem_cons.2 ⟨by decide, row zeros n⟩⟩
  | minus zeros n => exact ⟨by simp, List.forall_mem_cons.2 ⟨by decide, row zeros n⟩⟩

theorem decimal_digits (n : UInt32) : Numeral.Decimal (digits n).toList n.toNat :=
  Numeral.decimal_repr n.toNat

theorem word32_digits (what : String) (n : UInt32) :
    word32 what (some (digits n).toList) = .ok n := by
  have read : Numeral.count? Numeral.wordSize (digits n).toList = some n.toNat :=
    Numeral.count?_of_lt n.toNat_lt
  simp [word32, argument, read]

theorem categoryId_digits (id : CategoryId) : categoryId (some (digits id.value).toList) = .ok id := by
  rw [categoryId, word32_digits]
  rfl

theorem count64_repr (what : String) {n : Nat} (fits : n < Numeral.pageSize) :
    count64 what (some n.repr.toList) = .ok n := by
  rw [count64, argument, Numeral.count?_of_lt fits]

theorem position64_repr (what : String) {k : Int} (fits : Numeral.InPositions k) :
    position64 what (some k.repr.toList) = .ok k := by
  simp [position64, argument, Numeral.position?_of_decimal (Numeral.decimal_repr_int k), fits]

/-! ## Reading what was written -/

theorem isWord_name {command : SessionCommand} (said : command ≠ .nothing) :
    IsWord command.name.toList := by
  cases command <;> rw [name]
  case nothing => exact absurd rfl said
  all_goals decide

/-- The arguments of a command are words, save for a search text. -/
theorem isWord_of_mem_arguments {command : SessionCommand} (writable : command.Writable)
    (plain : ∀ text, command ≠ .query text) : ∀ a ∈ command.arguments, IsWord a.toList := by
  have number : ∀ n : UInt32, IsWord (digits n).toList := fun n =>
    isWord_of_decimal (decimal_digits n)
  have position : ∀ k : Int, IsWord k.repr.toList := fun k =>
    isWord_of_decimal (Numeral.decimal_repr_int k)
  have one {a : String} (word : IsWord a.toList) : ∀ b ∈ [a], IsWord b.toList :=
    List.forall_mem_singleton.2 word
  cases command with
  | query text => exact absurd rfl (plain text)
  | pick key => exact writable.elim
  | choose key => exact writable.elim
  | tab tab =>
      cases tab with
      | search => exact one (by decide)
      | category id => exact one (number id.value)
  | swipe n => exact one (isWord_of_decimal (Numeral.decimal_repr n))
  | scroll offset extent range firstFull firstPartial category =>
      have optional : ∀ a ∈ (category.map (digits ·.value)).toList, IsWord a.toList := by
        intro a member
        rcases Option.map_eq_some_iff.1 (Option.mem_toList.1 member) with ⟨id, _, rfl⟩
        exact number id.value
      refine List.forall_mem_append.2 ⟨?_, optional⟩
      simp only [List.forall_mem_cons]
      exact ⟨number offset, number extent, number range, position firstFull, position firstPartial,
        List.forall_mem_nil _⟩
  | leave id => exact one (number id.value)
  | locale tag => exact one writable
  | incognito on =>
      cases on with
      | true => exact one (by decide)
      | false => exact one (by decide)
  | _ => exact List.forall_mem_nil _

/-- No line ends in a carriage return of its own. -/
theorem getLast?_written {command : SessionCommand} (writable : command.Writable) :
    command.written.getLast? ≠ some '\r' := by
  have named : command.name.toList.getLast? ≠ some '\r' := by
    by_cases said : command = .nothing
    · simp [said, name]
    · exact (isWord_name said).getLast?
  refine getLast?_spaced named ?_
  rw [List.forall_mem_map]
  by_cases plain : ∀ text, command ≠ .query text
  · exact fun a member => (isWord_of_mem_arguments writable plain a member).getLast?
  · -- A search text is not cut into words.
    rcases not_forall.1 plain with ⟨text, search⟩
    obtain rfl := not_not.1 search
    exact List.forall_mem_singleton.2 writable

/-- A line with arguments is read from the words that they are. -/
theorem parse_written_of_words {command : SessionCommand} {result : Except CommandFault SessionCommand}
    (writable : command.Writable) (plain : ∀ text, command ≠ .query text)
    (given : command.arguments ≠ [])
    (read : ∀ rest, Text.words rest = command.arguments.map String.toList →
      ofWord command.name rest = result) :
    parse command.written = result := by
  have words := isWord_of_mem_arguments writable plain
  have said : command ≠ .nothing := by
    rintro rfl
    exact given rfl
  have spoken : ∃ rest, parse command.written = ofWord command.name rest ∧
      Text.words rest = command.arguments.map String.toList := by
    rw [written]
    generalize command.arguments = args at given words ⊢
    cases args with
    | nil => exact absurd rfl given
    | cons first more =>
        rw [← List.forall_mem_map] at words
        exact parse_spaced (isWord_name said) words
  rcases spoken with ⟨rest, parsed, cut⟩
  rw [parsed, read rest cut]

/-- A number is not taken for the tab of the search. -/
theorem tabOf_of_decimal {cs : List Char} {k : Int} (spelled : Numeral.Decimal cs k) :
    tabOf (some cs) = (fun id => .tab (.category id)) <$> categoryId (some cs) := by
  have other : cs ≠ "search".toList := by
    have letter : 's'.isDigit = false := by decide
    cases spelled with
    | plain zeros n => exact fun same => Numeral.head?_padded letter (by rw [same]; rfl)
    | plus zeros n => exact fun same => absurd (List.cons.inj same).1 (by decide)
    | minus zeros n => exact fun same => absurd (List.cons.inj same).1 (by decide)
  rw [tabOf, if_neg (by simpa using other)]

theorem bind_eq_ok_iff {ε α β : Type} {x : Except ε α} {f : α → Except ε β} {b : β} :
    x >>= f = .ok b ↔ ∃ a, x = .ok a ∧ f a = .ok b := by
  cases x with
  | error fault => simp [bind, Except.bind]
  | ok a => simp [bind, Except.bind]

/-- All arguments of a scroll report have to be numbers. -/
theorem scrollOf_eq_ok_iff {args : List (List Char)} {command : SessionCommand} :
    scrollOf args = .ok command ↔
      ∃ offset, word32 "offset" args[0]? = .ok offset ∧
      ∃ extent, word32 "extent" args[1]? = .ok extent ∧
      ∃ range, word32 "range" args[2]? = .ok range ∧
      ∃ firstFull, position64 "first fully visible position" args[3]? = .ok firstFull ∧
      ∃ firstPartial, position64 "first partially visible position" args[4]? = .ok firstPartial ∧
      ∃ category, categoryId? args[5]? = .ok category ∧
        .ok (scroll offset extent range firstFull firstPartial category) =
          (.ok command : Except CommandFault SessionCommand) := by
  simp only [scrollOf, bind_eq_ok_iff]
  rfl

theorem parse_written {command : SessionCommand} (writable : command.Writable) :
    parse command.written = .ok command := by
  cases command with
  | pick key => exact writable.elim
  | choose key => exact writable.elim
  | query text =>
      -- The rest of the line as it stands, blanks and all.
      have spoken : written (.query text) = line "query" text := by
        simp [written, spaced, name, arguments, line]
      rw [spoken, parse_line (Text.whole_iff.1 (by decide)) (by decide), Text.stripOne_eq_self writable]
      simp [ofWord]
  | tab tab =>
      cases tab with
      | search => decide +kernel
      | category id =>
          refine parse_written_of_words writable (by simp) (by simp [arguments]) fun rest words => ?_
          change tabOf (Text.words rest)[0]? = _
          rw [words]
          change tabOf (some (digits id.value).toList) = _
          rw [tabOf_of_decimal (decimal_digits id.value), categoryId_digits]
          rfl
  | swipe n =>
      refine parse_written_of_words writable (by simp) (by simp [arguments]) fun rest words => ?_
      change swipe <$> count64 "position" (Text.words rest)[0]? = _
      rw [words]
      change swipe <$> count64 "position" (some n.repr.toList) = _
      rw [count64_repr _ writable]
      rfl
  | scroll offset extent range firstFull firstPartial category =>
      refine parse_written_of_words writable (by simp) (by simp [arguments]) fun rest words => ?_
      change scrollOf (Text.words rest) = _
      rw [scrollOf_eq_ok_iff, words]
      have optional : categoryId? (category.map fun id => (digits id.value).toList) = .ok category := by
        cases category with
        | none => rfl
        | some id =>
          change some <$> categoryId (some (digits id.value).toList) = _
          rw [categoryId_digits]
          rfl
      have last : ((scroll offset extent range firstFull firstPartial category).arguments.map
          String.toList)[5]? = category.map fun id => (digits id.value).toList := by
        cases category <;> rfl
      exact ⟨offset, word32_digits _ offset, extent, word32_digits _ extent, range, word32_digits _ range,
        firstFull, position64_repr _ writable.1, firstPartial, position64_repr _ writable.2, category,
        last ▸ optional, rfl⟩
  | leave id =>
      refine parse_written_of_words writable (by simp) (by simp [arguments]) fun rest words => ?_
      change leave <$> categoryId (Text.words rest)[0]? = _
      rw [words]
      change leave <$> categoryId (some (digits id.value).toList) = _
      rw [categoryId_digits]
      rfl
  | locale tag =>
      refine parse_written_of_words writable (by simp) (by simp [arguments]) fun rest words => ?_
      change locale <$> anyText "locale" (Text.words rest)[0]? = _
      rw [words]
      change Except.ok (locale (String.ofList tag.toList)) = _
      rw [String.ofList_toList]
  | incognito on =>
      cases on with
      | true => decide +kernel
      | false => decide +kernel
  | _ => decide +kernel

/-! ## Numbers out of range -/

/-- A number in a line: what it is called, its least value and the bound that it stays below. -/
structure NumberArgument where
  what : String
  least : Int
  bound : Int

def NumberArgument.Holds (argument : NumberArgument) (k : Int) : Prop :=
  argument.least ≤ k ∧ k < argument.bound

/-- A number of 32 bits. -/
def NumberArgument.word (what : String) : NumberArgument :=
  ⟨what, 0, 2 ^ 32⟩

/-- A number of 64 bits without sign. -/
def NumberArgument.count (what : String) : NumberArgument :=
  ⟨what, 0, 2 ^ 64⟩

/-- A number of 64 bits with sign. -/
def NumberArgument.position (what : String) : NumberArgument :=
  ⟨what, -2 ^ 63, 2 ^ 63⟩

/-- The numbers in the line of a command, in order. -/
def numbers : String → List NumberArgument
  | "tab" => [.word "category id"]
  | "swipe" => [.count "position"]
  | "scroll" =>
      [.word "offset", .word "extent", .word "range", .position "first fully visible position",
        .position "first partially visible position", .word "category id"]
  | "leave" => [.word "category id"]
  | _ => []

theorem isWord_of_numbers {name : String} {i : Nat} {argument : NumberArgument}
    (listed : (numbers name)[i]? = some argument) : IsWord name.toList := by
  unfold numbers at listed
  split at listed
  case h_5 => simp at listed
  all_goals decide

section Outside

variable {word : List Char} {k : Int} (spelled : Numeral.Decimal word k)

include spelled

theorem word32_outside {what : String} (outside : ¬ (NumberArgument.word what).Holds k) :
    word32 what (some word) = .error (.invalid what) := by
  have refused : Numeral.count? Numeral.wordSize word = none :=
    Numeral.count?_of_outside spelled outside
  simp [word32, argument, refused]

theorem count64_outside {what : String} (outside : ¬ (NumberArgument.count what).Holds k) :
    count64 what (some word) = .error (.invalid what) := by
  have refused : Numeral.count? Numeral.pageSize word = none :=
    Numeral.count?_of_outside spelled outside
  simp [count64, argument, refused]

theorem position64_outside {what : String} (outside : ¬ (NumberArgument.position what).Holds k) :
    position64 what (some word) = .error (.invalid what) := by
  have refused : ¬ Numeral.InPositions k := outside
  simp [position64, argument, Numeral.position?_of_decimal spelled, refused]

theorem categoryId_outside (outside : ¬ (NumberArgument.word "category id").Holds k) :
    categoryId (some word) = .error (.invalid "category id") := by
  rw [categoryId, word32_outside spelled outside]
  rfl

theorem categoryId?_outside (outside : ¬ (NumberArgument.word "category id").Holds k) :
    categoryId? (some word) = .error (.invalid "category id") := by
  rw [categoryId?, categoryId_outside spelled outside]
  · rfl
  · simp

/-- One number out of range is enough to refuse a scroll report. -/
theorem scrollOf_outside {args : List (List Char)} {i : Nat} {argument : NumberArgument}
    (listed : (numbers "scroll")[i]? = some argument) (given : args[i]? = some word)
    (outside : ¬ argument.Holds k) (command : SessionCommand) : scrollOf args ≠ .ok command := by
  intro accepted
  rcases scrollOf_eq_ok_iff.1 accepted with
    ⟨offset, first, extent, second, range, third, firstFull, fourth, firstPartial, fifth, category,
      sixth, _⟩
  -- Whichever number it is, its own reader has refused it.
  rcases i with _ | _ | _ | _ | _ | _ | i
  · obtain rfl : .word "offset" = argument := Option.some.inj listed
    rw [given, word32_outside spelled outside] at first
    exact nomatch first
  · obtain rfl : .word "extent" = argument := Option.some.inj listed
    rw [given, word32_outside spelled outside] at second
    exact nomatch second
  · obtain rfl : .word "range" = argument := Option.some.inj listed
    rw [given, word32_outside spelled outside] at third
    exact nomatch third
  · obtain rfl : .position "first fully visible position" = argument := Option.some.inj listed
    rw [given, position64_outside spelled outside] at fourth
    exact nomatch fourth
  · obtain rfl : .position "first partially visible position" = argument := Option.some.inj listed
    rw [given, position64_outside spelled outside] at fifth
    exact nomatch fifth
  · obtain rfl : .word "category id" = argument := Option.some.inj listed
    rw [given, categoryId?_outside spelled outside] at sixth
    exact nomatch sixth
  · simp [numbers] at listed

/-- So it is for every command with numbers. -/
theorem refuses_outside {name : String} {args : List (List Char)} {i : Nat}
    {argument : NumberArgument} (listed : (numbers name)[i]? = some argument)
    (words : ∀ w ∈ args, IsWord w) (given : args[i]? = some word) (outside : ¬ argument.Holds k) :
    ∃ fault, parse (spaced name args) = .error fault := by
  have spoken : ∃ rest, parse (spaced name args) = ofWord name rest ∧ Text.words rest = args := by
    cases args with
    | nil => simp at given
    | cons first more => exact parse_spaced (isWord_of_numbers listed) words
  rcases spoken with ⟨rest, read, cut⟩
  rw [read]
  -- The cases are the commands that have numbers; all but the scroll report have only one.
  unfold numbers at listed
  split at listed
  · rcases List.getElem?_eq_some_iff.1 listed with ⟨only, rfl⟩
    obtain rfl : i = 0 := by simpa using only
    refine ⟨.invalid "category id", ?_⟩
    change tabOf (Text.words rest)[0]? = _
    rw [cut, given, tabOf_of_decimal spelled, categoryId_outside spelled outside]
    rfl
  · rcases List.getElem?_eq_some_iff.1 listed with ⟨only, rfl⟩
    obtain rfl : i = 0 := by simpa using only
    refine ⟨.invalid "position", ?_⟩
    change swipe <$> count64 "position" (Text.words rest)[0]? = _
    rw [cut, given, count64_outside spelled outside]
    rfl
  · cases refused : ofWord "scroll" rest with
    | error fault => exact ⟨fault, rfl⟩
    | ok command =>
        have accepted : scrollOf (Text.words rest) = .ok command := refused
        rw [cut] at accepted
        exact absurd accepted (scrollOf_outside spelled listed given outside command)
  · rcases List.getElem?_eq_some_iff.1 listed with ⟨only, rfl⟩
    obtain rfl : i = 0 := by simpa using only
    refine ⟨.invalid "category id", ?_⟩
    change leave <$> categoryId (Text.words rest)[0]? = _
    rw [cut, given, categoryId_outside spelled outside]
    rfl
  · simp at listed

end Outside

/-! ## All lines -/

/-- Every command but those with a key is read back from its line, whatever blanks stand in front of the
line and whether or not a carriage return stands behind it. A line of a command with numbers, one of which
is out of its range, is refused, however that number is spelled and whatever the other arguments are. -/
theorem written_back {before behind : List Char} (blank : ∀ c ∈ before, Text.isBlank c = true)
    (ending : behind = [] ∨ behind = ['\r']) :
    (∀ command : SessionCommand, command.Writable →
      parse (before ++ command.written ++ behind) = .ok command) ∧
    (∀ (name : String) (args : List (List Char)) (i : Nat) (argument : NumberArgument)
      (word : List Char) (k : Int), (numbers name)[i]? = some argument → (∀ w ∈ args, IsWord w) →
      args[i]? = some word → Numeral.Decimal word k → ¬ argument.Holds k →
        ∃ fault, parse (before ++ spaced name args ++ behind) = .error fault) := by
  constructor
  · intro command writable
    rw [parse_around blank (getLast?_written writable) ending]
    exact parse_written writable
  · intro name args i argument word k listed words given spelled outside
    have ends := getLast?_spaced (isWord_of_numbers listed).getLast? fun a member => (words a member).getLast?
    rw [parse_around blank ends ending]
    exact refuses_outside spelled listed words given outside

/-- A report with the least position, behind a tab and in front of a carriage return, and one that would be
read as a range of 0 if numbers wrapped. -/
theorem written_back_report :
    let report : SessionCommand := .scroll 0 100 550 (-9223372036854775808) 3 (some ⟨7⟩)
    let wrapped := ["1".toList, "2".toList, "04294967296".toList, "0".toList, "0".toList]
    report.Writable ∧ (∀ w ∈ wrapped, IsWord w) ∧
      parse "\t scroll 0 100 550 -9223372036854775808 3 7\x0d".toList = .ok report ∧
      ∃ fault, parse "\t scroll 1 2 04294967296 0 0\x0d".toList = .error fault := by
  intro report wrapped
  have blank : ∀ c ∈ ['\t', ' '], Text.isBlank c = true := List.all_eq_true.1 (by decide)
  have law := written_back blank (Or.inr rfl)
  have writable : report.Writable := ⟨by decide, by decide⟩
  have words : ∀ w ∈ wrapped, IsWord w := by decide
  have spelled : Numeral.Decimal "04294967296".toList 4294967296 := by
    have row : "04294967296".toList = Numeral.padded 1 4294967296 := by decide +kernel
    exact row ▸ Numeral.Decimal.plain 1 4294967296
  have outside : ¬ (NumberArgument.word "range").Holds 4294967296 := by
    rw [NumberArgument.Holds, NumberArgument.word]
    decide
  have read := law.1 report writable
  have refused := law.2 "scroll" wrapped 2 _ _ _ rfl words rfl spelled outside
  have spoken : "\t scroll 0 100 550 -9223372036854775808 3 7\x0d".toList =
      ['\t', ' '] ++ report.written ++ ['\r'] := by decide +kernel
  have other : "\t scroll 1 2 04294967296 0 0\x0d".toList =
      ['\t', ' '] ++ spaced "scroll" wrapped ++ ['\r'] := by decide +kernel
  exact ⟨writable, words, spoken ▸ read, other ▸ refused⟩

end SessionCommand
end EmojiPicker

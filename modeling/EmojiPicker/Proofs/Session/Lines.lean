import EmojiPicker.Catalog.Builtin
import EmojiPicker.Proofs.Text.Pieces
import EmojiPicker.Proofs.Text.Trimming
import EmojiPicker.Session.Command
import Mathlib.Data.List.TakeWhile

/-!
# Lines with a key

A line gives a command its key behind a space, and keys may be any texts.

* `SessionCommand.line`, `SessionCommand.parse_line` — the line of a command and its rest;
* `SessionCommand.parse_key` — the commands that take the first word of the rest;
* `SessionCommand.picked_whole_iff` — the keys that such a line can name;
* `SessionCommand.emoticon_cut` — an emoticon of the builtin catalog that it cannot.
-/

namespace EmojiPicker
namespace SessionCommand

/-- A command by name and what it is to be given. -/
def line (name rest : String) : List Char :=
  (name ++ " " ++ rest).toList

/-- The first space ends the name of the command. The rest is what follows, without a carriage return at
its end. -/
theorem parse_line {name : String} (whole : ∀ c ∈ name.toList, Text.isBlank c = false)
    (nonempty : name ≠ "") (rest : String) :
    parse (line name rest) = ofWord name (Text.stripOne '\r' rest.toList) := by
  -- No blank at either end of the name, so that what the line is trimmed by is not in it.
  have named := Text.trimmed_of_whole whole
  have spaceless : ' ' ∉ name.toList := fun there => absurd (whole ' ' there) (by decide)
  have begins : ∀ c ∈ (name.toList ++ ' ' :: Text.stripOne '\r' rest.toList).head?,
      Text.isBlank c = false := by
    intro c first
    rw [List.head?_append_of_ne_nil _ (by simpa using nonempty)] at first
    exact named.head c first
  have ends : Text.trimEnd name.toList = name.toList := by
    have trimmed := Text.trim_eq_self named
    rwa [Text.trim, Text.trimStart_eq_self named.head] at trimmed
  have stripped : Text.stripOne '\r' (line name rest) =
      name.toList ++ ' ' :: Text.stripOne '\r' rest.toList := by
    have text : line name rest = name.toList ++ ' ' :: rest.toList := by simp [line]
    rw [text, Text.stripOne_append (by decide)]
  simp only [parse, stripped, Text.trimStart_eq_self begins, Text.splitOnce?_append spaceless,
    Option.getD_some, ends, String.ofList_toList]

/-- A command that takes one word takes the first one. -/
theorem parse_key {name : String} {make : String → SessionCommand}
    (whole : ∀ c ∈ name.toList, Text.isBlank c = false) (nonempty : name ≠ "")
    (takes : ∀ rest, ofWord name rest = make <$> anyText "emoji" (Text.words rest)[0]?)
    {key : String} (given : key ≠ "") (trimmed : Text.Trimmed key.toList) :
    parse (line name key) =
      .ok (make (String.ofList (key.toList.takeWhile (! Text.isBlank ·)))) := by
  -- The carriage return that a line may lose would be a blank at the end of the key.
  have ends : key.toList.getLast? ≠ some '\r' := by
    intro last
    exact absurd (trimmed.last '\r' last) (by decide)
  rw [parse_line whole nonempty, Text.stripOne_eq_self ends, takes, ← List.head?_eq_getElem?,
    Text.head?_words (by simpa using given) trimmed.head]
  rfl

/-- The lines that pick and choose a key are never refused, but they read it only up to its first blank. So
a key is picked as it is exactly if there is no blank in it. -/
theorem picked_whole_iff (key : String) (given : key ≠ "") (trimmed : Text.Trimmed key.toList) :
    let first := String.ofList (key.toList.takeWhile (! Text.isBlank ·))
    parse (line "pick" key) = .ok (.pick first) ∧
      parse (line "choose" key) = .ok (.choose first) ∧
      (parse (line "pick" key) = .ok (.pick key) ↔ ∀ c ∈ key.toList, Text.isBlank c = false) ∧
      (parse (line "choose" key) = .ok (.choose key) ↔
        ∀ c ∈ key.toList, Text.isBlank c = false) := by
  intro first
  have picked : parse (line "pick" key) = .ok (.pick first) :=
    parse_key (Text.whole_iff.1 (by decide)) (by decide) (fun _ => rfl) given trimmed
  have chosen : parse (line "choose" key) = .ok (.choose first) :=
    parse_key (Text.whole_iff.1 (by decide)) (by decide) (fun _ => rfl) given trimmed
  have same : first = key ↔ ∀ c ∈ key.toList, Text.isBlank c = false := by
    rw [← String.toList_inj, String.toList_ofList, List.takeWhile_eq_self_iff]
    simp
  refine ⟨picked, chosen, ?_, ?_⟩
  · rw [picked, ← same]
    simp
  · rw [chosen, ← same]
    simp

/-- An emoticon without blanks. -/
theorem picked_whole_iff_shrug :
    "¯\\_(ツ)_/¯" ≠ "" ∧ Text.Trimmed "¯\\_(ツ)_/¯".toList ∧
      parse (line "pick" "¯\\_(ツ)_/¯") = .ok (.pick "¯\\_(ツ)_/¯") ∧
      parse (line "choose" "¯\\_(ツ)_/¯") = .ok (.choose "¯\\_(ツ)_/¯") := by
  have given : "¯\\_(ツ)_/¯" ≠ "" := by decide
  have trimmed : Text.Trimmed "¯\\_(ツ)_/¯".toList := by decide +kernel
  have whole : ∀ c ∈ "¯\\_(ツ)_/¯".toList, Text.isBlank c = false :=
    Text.whole_iff.1 (by decide +kernel)
  have law := picked_whole_iff "¯\\_(ツ)_/¯" given trimmed
  exact ⟨given, trimmed, law.2.2.1.2 whole, law.2.2.2.2 whole⟩

/-- The last emoticon of the builtin catalog has a space in it. The lines that should pick it pick another
key, the part before the space, which no category holds. -/
theorem emoticon_cut :
    let key := "(╯°□°）╯︵ ┻━┻"
    let held (key : String) := Catalog.builtin.categories.any (·.keys.contains key)
    held key = true ∧ Text.Trimmed key.toList ∧
      parse (line "pick" key) = .ok (.pick "(╯°□°）╯︵") ∧
      parse (line "choose" key) = .ok (.choose "(╯°□°）╯︵") ∧
      held "(╯°□°）╯︵" = false := by
  decide +kernel

end SessionCommand
end EmojiPicker

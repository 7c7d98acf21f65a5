import EmojiPicker.Json.Value
import EmojiPicker.Text.Numeral

/-!
# Reading JSON values as data

* `Json.text?`, `Json.texts?`, `Json.word?` — texts, lists of texts, numbers of 32 bits;
* `Json.listOf?` — a list whose items are read alike;
* `Json.record?` — the fields of a record, in the order in which the record declares them.

A record may be written as an object or as the array of its fields. In an object fields without a
meaning are passed over and a field with one may occur once; in an array fields may be missing at
the end. Every name in an object has to spell a text.
-/

namespace EmojiPicker
namespace Json

def text? : Json → Option String
  | .string text => text.map String.ofList
  | _ => none

def listOf? {α : Type} (read : Json → Option α) : Json → Option (List α)
  | .array items => items.mapM read
  | _ => none

def texts? : Json → Option (List String) :=
  listOf? text?

/-- A number of 32 bits, written as a whole number without sign. -/
def word? : Json → Option UInt32
  | .number text =>
      ((Numeral.digits? text).filter (· < Numeral.wordSize)).map UInt32.ofNat
  | _ => none

def valuesOf (name : String) (fields : List (String × Json)) : List Json :=
  fields.filterMap fun (n, v) => if n == name then some v else none

/-- The only value under a name, if there is one; more than one is a fault. -/
def field? (fields : List (String × Json)) (name : String) : Option (Option Json) :=
  match valuesOf name fields with
  | [] => some none
  | [v] => some (some v)
  | _ => none

/-- The fields of a record with the given names, `none` for each that is missing. -/
def record? (names : List String) : Json → Option (List (Option Json))
  -- an object, in any order
  | .object fields => do
      let fields ← fields.mapM fun (name, v) => name.map fun n => (String.ofList n, v)
      names.mapM (field? fields)
  -- an array, in the order of the names
  | .array items =>
      if items.length ≤ names.length then
        some (items.map some ++ List.replicate (names.length - items.length) none)
      else
        none
  | _ => none

def required? {α : Type} (read : Json → Option α) (field : Option Json) : Option α :=
  field.bind read

/-- The value of a field that is `missing` where it is not written. -/
def optional? {α : Type} (missing : α) (read : Json → Option α) : Option Json → Option α
  | none => some missing
  | some v => read v

end Json
end EmojiPicker

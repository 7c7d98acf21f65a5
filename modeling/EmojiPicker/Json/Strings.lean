import EmojiPicker.Json.Record

/-!
# Lists of texts as JSON documents

* `Json.quote` — a string literal with the shortest escapes;
* `Json.printTexts` — an array of strings without blanks;
* `Json.parseTexts?` — the texts of such a document.
-/

namespace EmojiPicker
namespace Json

def hexDigit (n : Nat) : Char :=
  Char.ofNat (if n < 10 then 0x30 + n else 0x61 + (n - 10))

/-- How a character is written in a string literal: quotes, backslashes and controls are escaped,
the five controls with a short escape by it, and all else stands for itself. -/
def escape (c : Char) : List Char :=
  if c == '"' then ['\\', '"']
  else if c == '\\' then ['\\', '\\']
  else if c == '\x08' then ['\\', 'b']
  else if c == '\x0c' then ['\\', 'f']
  else if c == '\n' then ['\\', 'n']
  else if c == '\r' then ['\\', 'r']
  else if c == '\t' then ['\\', 't']
  else if c.toNat < 0x20 then
    ['\\', 'u', '0', '0', hexDigit (c.toNat / 16), hexDigit (c.toNat % 16)]
  else [c]

def quote (cs : List Char) : List Char :=
  '"' :: cs.flatMap escape ++ ['"']

def printTexts (texts : List String) : List Char :=
  '[' :: [','].intercalate (texts.map fun t => quote t.toList) ++ [']']

def parseTexts? (cs : List Char) : Option (List String) := do
  texts? (← parse? cs)

example : printTexts ["a\"b", "\x01\n"] = "[\"a\\\"b\",\"\\u0001\\n\"]".toList := by
  decide +kernel

example : parseTexts? (printTexts ["a\"b", "\x01\n", "😀"]) = some ["a\"b", "\x01\n", "😀"] := by
  decide +kernel

example : parseTexts? "[\"\\ud83d\\ude00\"]".toList = some ["😀"] := by
  decide +kernel

example : parseTexts? "[\"\\ud83d\"]".toList = none := by
  decide +kernel

end Json
end EmojiPicker

import EmojiPicker.Text.LetterCase

/-!
# Lower case

The full lower-case mapping of Unicode, without rules of a language:

* `lowerLetter` — the lower case of one character away from any context;
* `isWordFinal` — the context in which a capital sigma ends a word;
* `lowercase` — the lower case of a text.
-/

namespace EmojiPicker
namespace Text

/-- The lower case of one character: `İ` becomes an `i` with a dot above, a listed letter its
partner, and every other character stays. -/
def lowerLetter (c : Char) : List Char :=
  if c.toNat < 0x80 then
    [c.toLower]
  else if c == 'İ' then
    ['i', '\u0307']
  else
    match lowercaseRuns.find? (·.covers c.toNat) with
    | some run => [Char.ofNat (run.map c.toNat)]
    | none => [c]

def meetsCased (cs : List Char) : Bool :=
  (cs.dropWhile isCaseIgnorable).head?.any isCased

/-- Whether a letter between `before` (nearest character first) and `after` ends a word: a cased
character comes before it and none after it, case-ignorable ones passed over. -/
def isWordFinal (before after : List Char) : Bool :=
  meetsCased before && ! meetsCased after

/-- The lower case of `cs`, where `before` holds the characters in front of it, nearest first. A
capital sigma at the end of a word becomes `ς`. -/
def lowercaseAfter (before : List Char) : List Char → List Char
  | [] => []
  | c :: rest =>
      -- The one lower case that depends on where it stands.
      let lower :=
        if c == 'Σ' then [if isWordFinal before rest then 'ς' else 'σ'] else lowerLetter c
      lower ++ lowercaseAfter (c :: before) rest

def lowercase (cs : List Char) : List Char :=
  lowercaseAfter [] cs

/-! ## Laws -/

theorem lowerLetter_ne_nil (c : Char) : lowerLetter c ≠ [] := by
  unfold lowerLetter
  split
  · simp
  · split
    · simp
    · split <;> simp

example : lowercase "ΑΣ ΑΣΑ İSTANBUL ẞ".toList = "ας ασα i̇stanbul ß".toList := by
  decide +kernel

end Text
end EmojiPicker

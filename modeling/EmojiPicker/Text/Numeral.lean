/-!
# Decimal numerals

Reading of whole numbers as command words and settings write them: ASCII digits only, at least one,
an optional `+`, a `-` where negative numbers exist, and the value within the range of its kind.

* `digits?` — the value of a row of digits;
* `count?` — a number below a bound;
* `position?` — a number of 64 bits with sign;
* `wordSize`, `pageSize` — the bounds 2³² and 2⁶⁴.
-/

namespace EmojiPicker
namespace Numeral

def wordSize : Nat := UInt32.size

def pageSize : Nat := UInt64.size

def pushDigit (value : Nat) (c : Char) : Nat :=
  value * 10 + (c.toNat - '0'.toNat)

/-- The value of a row of at least one ASCII digit. -/
def digits? (cs : List Char) : Option Nat :=
  if cs.isEmpty || cs.any (! ·.isDigit) then none else some (cs.foldl pushDigit 0)

def dropPlus : List Char → List Char
  | '+' :: rest => rest
  | cs => cs

def count? (bound : Nat) (cs : List Char) : Option Nat :=
  (digits? (dropPlus cs)).filter (· < bound)

/-- A number of 64 bits with sign. -/
def position? : List Char → Option Int
  | '-' :: rest => ((digits? rest).filter (· ≤ UInt64.size / 2)).map fun n => -(n : Int)
  | cs => ((digits? (dropPlus cs)).filter (· < UInt64.size / 2)).map fun n => (n : Int)

end Numeral
end EmojiPicker

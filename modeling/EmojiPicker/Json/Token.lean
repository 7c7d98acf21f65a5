/-!
# JSON tokens

The lexical level of RFC 8259.

* `StringPart`, `assemble?` — the parts of a string literal and the text they spell;
* `isNumber` — the grammar of number literals;
* `Token` — brackets, separators and literals;
* `Token.scan?` — the tokens of a document.

A literal may name code units that pair with no other. Such a string is well formed but spells no
text.
-/

namespace EmojiPicker
namespace Json

/-! ## Strings -/

inductive StringPart where
  | char (c : Char)
  /-- A code unit of 16 bits, written by its number. -/
  | unit (n : Nat)
  deriving DecidableEq, Repr

def isHighSurrogate (n : Nat) : Bool :=
  0xD800 ≤ n && n < 0xDC00

def isLowSurrogate (n : Nat) : Bool :=
  0xDC00 ≤ n && n < 0xE000

def pairChar (high low : Nat) : Char :=
  Char.ofNat (0x10000 + (high - 0xD800) * 0x400 + (low - 0xDC00))

/-- The text that some parts spell; none if a code unit lacks its partner. -/
def assemble? : List StringPart → Option (List Char)
  | [] => some []
  | .char c :: rest => (c :: ·) <$> assemble? rest
  -- Two code units may be one character, or each a character of its own.
  | .unit high :: .unit low :: rest =>
      if isHighSurrogate high then
        if isLowSurrogate low then (pairChar high low :: ·) <$> assemble? rest else none
      else if isLowSurrogate high then none
      else (Char.ofNat high :: ·) <$> assemble? (.unit low :: rest)
  | .unit n :: rest =>
      if isHighSurrogate n || isLowSurrogate n then none
      else (Char.ofNat n :: ·) <$> assemble? rest

def shortEscape? : Char → Option Char
  | '"' => some '"'
  | '\\' => some '\\'
  | '/' => some '/'
  | 'b' => some '\x08'
  | 'f' => some '\x0c'
  | 'n' => some '\n'
  | 'r' => some '\r'
  | 't' => some '\t'
  | _ => none

def hexValue? (c : Char) : Option Nat :=
  let n := c.toNat
  if 0x30 ≤ n && n ≤ 0x39 then some (n - 0x30)
  else if 0x41 ≤ n && n ≤ 0x46 then some (n - 0x41 + 10)
  else if 0x61 ≤ n && n ≤ 0x66 then some (n - 0x61 + 10)
  else none

/-! ## Numbers -/

def isDigits (cs : List Char) : Bool :=
  ! cs.isEmpty && cs.all (·.isDigit)

def isExponentPart : List Char → Bool
  | [] => true
  | e :: rest =>
      (e == 'e' || e == 'E') &&
        match rest with
        | '+' :: digits => isDigits digits
        | '-' :: digits => isDigits digits
        | digits => isDigits digits

def isFractionPart : List Char → Bool
  | '.' :: rest =>
      isDigits (rest.takeWhile (·.isDigit)) && isExponentPart (rest.dropWhile (·.isDigit))
  | cs => isExponentPart cs

/-- Whether a text is a number without sign: no zero in front of other digits. -/
def isUnsigned (cs : List Char) : Bool :=
  let whole := cs.takeWhile (·.isDigit)
  isDigits whole && (whole.length == 1 || whole.head? != some '0') &&
    isFractionPart (cs.dropWhile (·.isDigit))

def isNumber : List Char → Bool
  | '-' :: rest => isUnsigned rest
  | cs => isUnsigned cs

def isNumberChar (c : Char) : Bool :=
  c.isDigit || c == '-' || c == '+' || c == '.' || c == 'e' || c == 'E'

/-! ## Tokens -/

inductive Token where
  | openArray | closeArray
  | openObject | closeObject
  | comma | colon
  | null
  | bool (value : Bool)
  | number (text : List Char)
  /-- A string, none if it spells no text. -/
  | string (text : Option (List Char))
  deriving DecidableEq, Repr

namespace Token

/-- Where in a token the scanner stands. Characters and parts read so far are kept last first. -/
inductive Position where
  | outside
  | inNumber (read : List Char)
  | inWord (read : List Char)
  | inString (read : List StringPart)
  | inEscape (read : List StringPart)
  /-- In the number of a code unit, with the digits to come and the value so far. -/
  | inUnit (read : List StringPart) (missing value : Nat)

def isSpace (c : Char) : Bool :=
  c == ' ' || c == '\t' || c == '\n' || c == '\r'

def punctuation? : Char → Option Token
  | '[' => some openArray
  | ']' => some closeArray
  | '{' => some openObject
  | '}' => some closeObject
  | ',' => some comma
  | ':' => some colon
  | _ => none

def ofWord? (word : List Char) : Option Token :=
  if word == "null".toList then some null
  else if word == "true".toList then some (bool true)
  else if word == "false".toList then some (bool false)
  else none

def ofNumber? (text : List Char) : Option Token :=
  if isNumber text then some (number text) else none

/-- What the character `c` between tokens begins or is: the tokens it completes, and the position
after it. -/
def begin? (c : Char) : Option (List Token × Position) :=
  if isSpace c then some ([], .outside)
  else if c == '"' then some ([], .inString [])
  else if isNumberChar c && ! c.isAlpha then some ([], .inNumber [c])
  else if c.isLower then some ([], .inWord [c])
  else (punctuation? c).map fun t => ([t], .outside)

/-- One character: the tokens it completes, and the position after it. -/
def advance? : Position → Char → Option (List Token × Position)
  | .outside, c => begin? c
  -- Numbers and words have no end of their own: they end where another token begins.
  | .inNumber read, c =>
      if isNumberChar c then some ([], .inNumber (c :: read))
      else do
        let token ← ofNumber? read.reverse
        let (tokens, position) ← begin? c
        return (token :: tokens, position)
  | .inWord read, c =>
      if c.isLower then some ([], .inWord (c :: read))
      else do
        let token ← ofWord? read.reverse
        let (tokens, position) ← begin? c
        return (token :: tokens, position)
  | .inString read, c =>
      if c == '"' then some ([string (assemble? read.reverse)], .outside)
      else if c == '\\' then some ([], .inEscape read)
      else if c.toNat < 0x20 then none
      else some ([], .inString (.char c :: read))
  | .inEscape read, c =>
      if c == 'u' then some ([], .inUnit read 4 0)
      else (shortEscape? c).map fun e => ([], .inString (.char e :: read))
  | .inUnit read missing value, c =>
      (hexValue? c).map fun digit =>
        let value := value * 16 + digit
        if missing ≤ 1 then ([], .inString (.unit value :: read))
        else ([], .inUnit read (missing - 1) value)

def finish? : Position → Option (List Token)
  | .outside => some []
  | .inNumber read => (ofNumber? read.reverse).map ([·])
  | .inWord read => (ofWord? read.reverse).map ([·])
  | _ => none

def scanFrom? (position : Position) : List Char → Option (List Token)
  | [] => finish? position
  | c :: rest => do
      let (tokens, next) ← advance? position c
      return tokens ++ (← scanFrom? next rest)

def scan? (cs : List Char) : Option (List Token) :=
  scanFrom? .outside cs

end Token
end Json
end EmojiPicker

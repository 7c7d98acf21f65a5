/-!
# UTF-8

Texts as bytes and back.

* `encodeChar`, `encode` — the bytes of a character and of a text;
* `Utf8Error` — where and how bytes fail to be a text, with its wording;
* `decode` — the text of some bytes, or the first fault in them.

A fault is an ill-formed sequence, whose length is that of the longest start of a well-formed
sequence (at least one byte), or bytes that end inside a sequence.
-/

namespace EmojiPicker
namespace Text

/-! ## Writing -/

/-- The bytes of a character: one below U+0080, two below U+0800, three below U+10000, else four. -/
def encodeChar (c : Char) : List UInt8 :=
  let n := c.toNat
  if n < 0x80 then
    [UInt8.ofNat n]
  else if n < 0x800 then
    [UInt8.ofNat (0xC0 + n / 64), UInt8.ofNat (0x80 + n % 64)]
  else if n < 0x10000 then
    [UInt8.ofNat (0xE0 + n / 4096), UInt8.ofNat (0x80 + n / 64 % 64), UInt8.ofNat (0x80 + n % 64)]
  else
    [UInt8.ofNat (0xF0 + n / 262144), UInt8.ofNat (0x80 + n / 4096 % 64),
      UInt8.ofNat (0x80 + n / 64 % 64), UInt8.ofNat (0x80 + n % 64)]

def encode (cs : List Char) : List UInt8 :=
  cs.flatMap encodeChar

/-! ## Faults -/

inductive Utf8Error where
  /-- The `length` bytes from `index` on start no character. -/
  | illFormed (length index : Nat)
  /-- The bytes end inside the character that starts at `index`. -/
  | incomplete (index : Nat)
  deriving Repr, DecidableEq

def Utf8Error.message : Utf8Error → String
  | .illFormed length index => s!"invalid utf-8 sequence of {length} bytes from index {index}"
  | .incomplete index => s!"incomplete utf-8 byte sequence from index {index}"

/-! ## Reading -/

/-- A byte that may stand after the second place of a sequence. -/
def isContinuation (b : UInt8) : Bool :=
  0x80 ≤ b.toNat && b.toNat < 0xC0

/-- A byte that may follow the lead byte `lead` of three or four bytes: the ranges leave out long
forms, surrogates and numbers above U+10FFFF. -/
def isSecond (lead second : UInt8) : Bool :=
  let s := second.toNat
  match lead.toNat with
  | 0xE0 => 0xA0 ≤ s && s < 0xC0
  | 0xED => 0x80 ≤ s && s < 0xA0
  | 0xF0 => 0x90 ≤ s && s < 0xC0
  | 0xF4 => 0x80 ≤ s && s < 0x90
  | _ => 0x80 ≤ s && s < 0xC0

/-- The value of a sequence with `acc` from its bytes so far and one byte more. -/
def pushByte (acc : Nat) (b : UInt8) : Nat :=
  acc * 64 + (b.toNat - 0x80)

/-- The text of the bytes from `index` on. -/
def decodeFrom (index : Nat) : List UInt8 → Except Utf8Error (List Char)
  | [] => .ok []
  | a :: rest =>
      if a.toNat < 0x80 then
        (Char.ofNat a.toNat :: ·) <$> decodeFrom (index + 1) rest
      else if a.toNat < 0xC2 || 0xF5 ≤ a.toNat then
        .error (.illFormed 1 index)
      else
        match rest with
        | [] => .error (.incomplete index)
        | b :: rest =>
            if ! isSecond a b then
              .error (.illFormed 1 index)
            else if a.toNat < 0xE0 then
              (Char.ofNat (pushByte (a.toNat - 0xC0) b) :: ·) <$> decodeFrom (index + 2) rest
            else
              match rest with
              | [] => .error (.incomplete index)
              | c :: rest =>
                  if ! isContinuation c then
                    .error (.illFormed 2 index)
                  else if a.toNat < 0xF0 then
                    (Char.ofNat (pushByte (pushByte (a.toNat - 0xE0) b) c) :: ·) <$>
                      decodeFrom (index + 3) rest
                  else
                    match rest with
                    | [] => .error (.incomplete index)
                    | d :: rest =>
                        if ! isContinuation d then
                          .error (.illFormed 3 index)
                        else
                          (Char.ofNat (pushByte (pushByte (pushByte (a.toNat - 0xF0) b) c) d) :: ·)
                            <$> decodeFrom (index + 4) rest

def decode (bytes : List UInt8) : Except Utf8Error (List Char) :=
  decodeFrom 0 bytes

end Text
end EmojiPicker

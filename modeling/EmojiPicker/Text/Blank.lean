/-!
# White space

The characters that count as white space, and what is built on them:

* `isBlank` — Unicode's `White_Space` property, by its ranges;
* `trimStart`, `trimEnd`, `trim` — a text without the white space at its ends.
-/

namespace EmojiPicker
namespace Text

/-- The property `White_Space`: the ASCII controls from tab to carriage return, the space, and the
wide, narrow and unbreakable spaces of the other blocks. Zero-width characters do not count. -/
def isBlank (c : Char) : Bool :=
  let n := c.toNat
  (9 ≤ n && n ≤ 13) || n == 0x20 || n == 0x85 || n == 0xA0 || n == 0x1680 ||
    (0x2000 ≤ n && n ≤ 0x200A) || n == 0x2028 || n == 0x2029 || n == 0x202F || n == 0x205F ||
    n == 0x3000

def trimStart (cs : List Char) : List Char :=
  cs.dropWhile isBlank

def trimEnd (cs : List Char) : List Char :=
  (trimStart cs.reverse).reverse

def trim (cs : List Char) : List Char :=
  trimEnd (trimStart cs)

/-! ## Laws -/

@[simp]
theorem trimStart_nil : trimStart [] = [] := rfl

theorem trimStart_cons (c : Char) (cs : List Char) :
    trimStart (c :: cs) = if isBlank c then trimStart cs else c :: cs := by
  simp only [trimStart, List.dropWhile_cons]

/-- What trimming leaves starts with no blank. -/
theorem isBlank_head_trimStart (c : Char) (cs rest : List Char) (h : trimStart cs = c :: rest) :
    isBlank c = false := by
  induction cs with
  | nil => simp at h
  | cons d ds ih =>
      rw [trimStart_cons] at h
      split at h
      · exact ih h
      · next hd =>
          injection h with hcd _
          subst hcd
          simpa using hd

theorem trimStart_trimStart (cs : List Char) : trimStart (trimStart cs) = trimStart cs := by
  cases h : trimStart cs with
  | nil => rfl
  | cons c rest => rw [trimStart_cons, isBlank_head_trimStart c cs rest h]; rfl

end Text
end EmojiPicker

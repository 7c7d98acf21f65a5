/-!
# Ratios in single precision

A ratio of whole numbers as the nearest number of double precision and from there the nearest one of
single precision, by exact arithmetic.

* `divideToEven` — a quotient rounded to the nearest whole number, halves to the even one;
* `Dyadic` — a whole number over a power of two, and `Dyadic.round` to a number of binary places;
* `Single` — a number of single precision between zero and one by its bit pattern;
* `Single.ofRatio` — the rounded ratio; `Single.hundredths`, `Single.render` — its two decimals.
-/

namespace EmojiPicker

/-- The whole number nearest to `n / d`; a half goes to the even neighbour. -/
def divideToEven (n d : Nat) : Nat :=
  let q := n / d
  let r := n % d
  if 2 * r < d then q
  else if d < 2 * r then q + 1
  else q + q % 2

/-- The number `significand / 2 ^ exponent`. -/
structure Dyadic where
  significand : Nat
  exponent : Nat
  deriving DecidableEq, Repr

namespace Dyadic

/-- The exponent at which `n / d`, with both positive and `n ≤ d`, has `places` binary places. -/
def exponentFor (places n d : Nat) : Nat :=
  -- The logarithms leave two candidates.
  let guess := places - 1 + d.log2 - n.log2
  if n * Nat.pow 2 guess < d * Nat.pow 2 (places - 1) then guess + 1 else guess

/-- The number nearest to `n / d` with `places` binary places. -/
def round (places n d : Nat) : Dyadic :=
  let e := exponentFor places n d
  ⟨divideToEven (n * Nat.pow 2 e) d, e⟩

end Dyadic

structure Single where
  /-- The bit pattern: the exponent above the 23 lower bits of the significand. -/
  bits : Nat
  deriving DecidableEq, Repr, Inhabited

namespace Single

def zero : Single := ⟨0⟩

/-- A number with 24 binary places. A significand of `2 ^ 24` carries into the exponent. -/
def ofDyadic (x : Dyadic) : Single :=
  ⟨(149 - x.exponent) * Nat.pow 2 23 + x.significand⟩

/-- The ratio `n / d` for `n ≤ d`, rounded to 53 and then to 24 binary places. -/
def ofRatio (n d : Nat) : Single :=
  if n = 0 || d = 0 then
    zero
  else
    -- Rounding once would differ where the wide number lies half-way.
    let wide := Dyadic.round 53 n d
    ofDyadic (Dyadic.round 24 wide.significand (Nat.pow 2 wide.exponent))

def toDyadic (x : Single) : Dyadic :=
  if x.bits = 0 then ⟨0, 0⟩ else ⟨Nat.pow 2 23 + x.bits % Nat.pow 2 23, 150 - x.bits / Nat.pow 2 23⟩

/-- The nearest number of hundredths, halves to the even one. -/
def hundredths (x : Single) : Nat :=
  divideToEven (100 * x.toDyadic.significand) (Nat.pow 2 x.toDyadic.exponent)

def render (x : Single) : String :=
  let n := x.hundredths
  s!"{n / 100}.{n % 100 / 10}{n % 10}"

example : ofRatio 1 2 = ⟨1056964608⟩ := by decide +kernel
example : (ofRatio 1 8).render = "0.12" ∧ (ofRatio 3 8).render = "0.38" := by decide +kernel

end Single
end EmojiPicker

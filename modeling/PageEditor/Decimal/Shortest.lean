/-!
# PageEditor.Decimal.Shortest

The shortest decimal text of a double, and the notations it is written in.

A finite double is `mant * 2^exp` exactly. Every real strictly between it and the midpoints to
its two neighbours reads back as the same double; the midpoints themselves read back as it
only when `mant` is even, since a tie goes to the even mantissa.

1. Of the decimals in that interval, those with the fewest significant digits are taken.
2. Of those, the one nearest to the double; an exact tie goes as a `Tie` says, to the larger
   one or to the one whose last digit is even.
3. The result is written as a `Notation` says: positionally for the positions of the point it
   names and with an exponent for the rest, with or without a point and one zero place on a
   whole number, and with or without a plus sign on a positive exponent. A minus sign stands
   before every negative value, zero included.

For `p` digits it is enough to test the two neighbours of the value on the grid of `p`
significant digits: the interval holds the value, so if it holds any point of the grid it holds
one of those two. The whole search is exact arithmetic on naturals.
-/

namespace PageEditor.Decimal

/-! ## The exact parts of a double -/

/-- A finite nonzero double split into exact parts. The value is `mant * 2^exp`, the reals that
read back as it lie between `(mant - minus) * 2^exp` and `(mant + plus) * 2^exp`, and the ends
belong to that interval when `inclusive` holds. -/
structure Binary where
  mant : Nat
  exp : Int
  minus : Nat
  plus : Nat
  inclusive : Bool
  deriving Repr, DecidableEq

/-- What a double is, read off its bits. -/
inductive Classified where
  | notANumber
  | infinite (negative : Bool)
  | zero (negative : Bool)
  | finite (negative : Bool) (b : Binary)
  deriving Repr, DecidableEq

/-- Reads the sign, exponent field and fraction of a double. A whole power of two above the
smallest exponent has a lower neighbour twice as close as the upper one, so its interval reaches
a quarter unit down and half a unit up; every other value reaches half a unit each way. -/
def classify (bits : Nat) : Classified :=
  let negative := bits / Nat.pow 2 63 % 2 == 1
  let field : Nat := bits / Nat.pow 2 52 % Nat.pow 2 11
  let fraction : Nat := bits % Nat.pow 2 52
  if field == Nat.pow 2 11 - 1 then
    if fraction == 0 then .infinite negative else .notANumber
  else if field == 0 then
    if fraction == 0 then .zero negative
    else .finite negative ⟨2 * fraction, -1075, 1, 1, fraction % 2 == 0⟩
  else
    let mant : Nat := fraction + Nat.pow 2 52
    let exp : Int := (field : Int) - 1075
    if fraction == 0 then .finite negative ⟨4 * mant, exp - 2, 1, 2, true⟩
    else .finite negative ⟨2 * mant, exp - 1, 1, 1, mant % 2 == 0⟩

/-! ## The search over decimal grids -/

/-- The number of decimal digits of a natural, with `0` taken to have none. -/
def digitCount (n : Nat) : Nat :=
  if n = 0 then 0 else (Nat.toDigits 10 n).length

/-- A binary value as a fraction `num / den` of naturals, with the two ends of its interval over
the same denominator. -/
structure Fraction where
  num : Nat
  den : Nat
  lo : Nat
  hi : Nat
  inclusive : Bool

/-- The fraction of a binary value: a negative binary exponent becomes the denominator. -/
def Binary.toFraction (b : Binary) : Fraction :=
  let scale := Nat.pow 2 b.exp.toNat
  let den := Nat.pow 2 (-b.exp).toNat
  ⟨b.mant * scale, den, (b.mant - b.minus) * scale, (b.mant + b.plus) * scale, b.inclusive⟩

/-- `10^s` as the pair `(up, down)`, one of which is `1`. -/
def tenPow (s : Int) : Nat × Nat :=
  (Nat.pow 10 s.toNat, Nat.pow 10 (-s).toNat)

/-- The least `e` with `num / den < 10^e`. With `a` digits above and `b` below the bar the
value lies strictly between `10^(a-b-1)` and `10^(a-b+1)`, so `e` is `a - b` or one more. -/
def Fraction.magnitude (f : Fraction) : Int :=
  let e : Int := (digitCount f.num : Int) - digitCount f.den
  let (up, down) := tenPow e
  if f.num * down < f.den * up then e else e + 1

/-- Whether `c * 10^s` lies in the interval of the fraction. -/
def Fraction.holds (f : Fraction) (s : Int) (c : Nat) : Bool :=
  let (up, down) := tenPow s
  let x := c * up * f.den
  if f.inclusive then f.lo * down ≤ x && x ≤ f.hi * down
  else f.lo * down < x && x < f.hi * down

/-- Which way an exact tie between the two nearest decimals of one length goes. -/
inductive Tie where
  /-- To the larger one. -/
  | up
  /-- To the one whose last digit is even. -/
  | even
  deriving Repr, DecidableEq

/-- The one of two neighbouring grid points `below` and `below + 1` that a tie picks. -/
def Tie.pick (t : Tie) (below : Nat) : Nat :=
  match t with
  | .up => below + 1
  | .even => if below % 2 = 0 then below else below + 1

/-- The candidate with `p` significant digits: the grid point nearest to the value among the
one below and the one above that lie in the interval, the one the tie rule picks when both are
as near. -/
def Fraction.candidate (f : Fraction) (tie : Tie) (p : Nat) : Option (Nat × Int) :=
  let s := f.magnitude - p
  let (up, down) := tenPow s
  let scaled := f.num * down
  let unit := f.den * up
  let below := scaled / unit
  if below * unit = scaled then
    (if f.holds s below then some (below, s) else none)
  else
    let above := below + 1
    match f.holds s below, f.holds s above with
    | true, true =>
      let toBelow := scaled - below * unit
      let toAbove := above * unit - scaled
      if toBelow < toAbove then some (below, s)
      else if toAbove < toBelow then some (above, s)
      else some (tie.pick below, s)
    | true, false => some (below, s)
    | false, true => some (above, s)
    | false, false => none

/-- Drops the trailing zeros of a digit string, raising the exponent to match. -/
def trim (c : Nat) (s : Int) : Nat × Int :=
  let zeros := ((Nat.toDigits 10 c).reverse.takeWhile (· == '0')).length
  if c = 0 then (0, 0) else (c / Nat.pow 10 zeros, s + zeros)

/-- The shortest decimal `c * 10^s` in the interval of a binary value, nearest first. Seventeen
significant digits always suffice for a double; the last line is never reached. -/
def Binary.shortest (b : Binary) (tie : Tie) : Nat × Int :=
  let f := b.toFraction
  match (List.range 17).findSome? (fun i => f.candidate tie (i + 1)) with
  | some (c, s) => trim c s
  | none => trim (f.num / f.den) 0

/-! ## Notations -/

/-- Writes `c * 10^s` with no exponent: zeros after the digits for `s ≥ 0`, and otherwise a
point `-s` places from the right, with a leading `0.` and zeros when the digits are fewer. -/
def positional (c : Nat) (s : Int) : String :=
  let digits := Nat.toDigits 10 c
  if 0 ≤ s then
    String.ofList (digits ++ List.replicate s.toNat '0')
  else
    let places := (-s).toNat
    if places < digits.length then
      String.ofList (digits.take (digits.length - places) ++ '.' :: digits.drop (digits.length - places))
    else
      String.ofList ('0' :: '.' :: List.replicate (places - digits.length) '0' ++ digits)

/-- Writes `c * 10^s` with one digit before the point and an exponent after the letter `e`:
the point is left out after a single digit, and a positive exponent has a plus sign when
`plus` holds. -/
def scientific (c : Nat) (s : Int) (plus : Bool) : String :=
  let digits := Nat.toDigits 10 c
  let e : Int := s + digits.length - 1
  let mantissa := match digits with
    | [] => "0"
    | [d] => String.ofList [d]
    | d :: rest => String.ofList (d :: '.' :: rest)
  let sign := if e < 0 then "-" else if plus then "+" else ""
  mantissa ++ "e" ++ sign ++ toString e.natAbs

/-- How a shortest decimal is written. The value is `0.d₁d₂… × 10^k` for its digits `dᵢ`. -/
structure Notation where
  /-- Which way a tie between two shortest decimals goes. -/
  tie : Tie
  /-- The bounds `(low, high)` of the positions `low < k ≤ high` written without an exponent;
  every position is when there are none. -/
  plainBetween : Option (Int × Int)
  /-- Whether a whole number written without an exponent, zero included, ends in `.0`. -/
  pointZero : Bool
  /-- Whether a positive exponent has a plus sign. -/
  plusExponent : Bool
  deriving Repr, DecidableEq

/-- Whether a notation writes the point at position `k` without an exponent. -/
def Notation.plainAt (n : Notation) (k : Int) : Bool :=
  match n.plainBetween with
  | none => true
  | some (low, high) => low < k && k ≤ high

/-- Writes a shortest decimal `c * 10^s`, with `c` free of trailing zeros. -/
def Notation.digits (n : Notation) (c : Nat) (s : Int) : String :=
  if n.plainAt (s + (Nat.toDigits 10 c).length) then
    positional c s ++ (if n.pointZero && 0 ≤ s then ".0" else "")
  else scientific c s n.plusExponent

/-- The text of a double in a notation: the fewest digits that read back, `-` before every
negative value including negative zero, and `NaN`, `inf`, `-inf` for the rest. -/
def Notation.write (n : Notation) (x : Float) : String :=
  match classify x.toBits.toNat with
  | .notANumber => "NaN"
  | .infinite negative => if negative then "-inf" else "inf"
  | .zero negative => (if negative then "-" else "") ++ (if n.pointZero then "0.0" else "0")
  | .finite negative b =>
    let (c, s) := b.shortest n.tie
    (if negative then "-" else "") ++ n.digits c s

end PageEditor.Decimal

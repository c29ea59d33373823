/-
Numbers with 53 significant bits.

A finite number is a whole number of steps of a power of two, `mantissa * 2 ^ scale`.
The steps are as fine as they can be while the mantissa has at most 53 bits, and never
finer than `2 ^ (-1074)`, so a number has one such form.  `ofRatio` gives the number
nearest to a quotient, and the even one of two that are equally near.

The decimal text of a number has the fewest digits that read back as it, and the
nearest such digits to the number, and the even ones of two that are equally near.  Whether digits read back is a question about an
interval: every number is the nearest one exactly for the quotients between the
middles to its two neighbours, and its text is searched for on finer and finer decimal
grids until a grid point lies in that interval.  All of it is exact integer arithmetic.
-/
import ClusterAccess.Text.Digits

namespace ClusterAccess

open Text

/-- A binary number of double precision. -/
inductive Binary64 where
  /-- The number `mantissa * 2 ^ scale`, or its negation. -/
  | finite (negative : Bool) (mantissa : Nat) (scale : Int)
  | infinite (negative : Bool)
  | notANumber
  deriving DecidableEq, Repr

namespace Binary64

/-- The finest step. -/
def minScale : Int := -1074

/-- The coarsest step of a finite number. -/
def maxScale : Int := 971

/-- The least whole number of 53 bits. -/
def mantissaStart : Nat := Nat.pow 2 52

/-- The quotient `num / (den * 2 ^ scale)` as a quotient of natural numbers. -/
def rescale (num den : Nat) (scale : Int) : Nat × Nat :=
  if scale ≥ 0 then (num, den * Nat.pow 2 scale.toNat)
  else (num * Nat.pow 2 (-scale).toNat, den)

/-- The quotient rounded to a whole number, and to the even one in the middle of two. -/
def roundQuotient (num den : Nat) : Nat :=
  let whole := num / den
  let rest := num % den
  if 2 * rest < den then whole
  else if 2 * rest > den then whole + 1
  else whole + whole % 2

/-- The step that a quotient is measured in: its whole part has 53 bits then, unless the step
would be finer than the finest one. -/
def scaleFor (num den : Nat) : Int :=
  let guess : Int := Int.ofNat (Nat.log2 num) - Int.ofNat (Nat.log2 den) - 52
  let (n, d) := rescale num den guess
  let exact :=
    if n / d < mantissaStart then guess - 1
    else if n / d ≥ 2 * mantissaStart then guess + 1
    else guess
  max exact minScale

/-- The number nearest to a quotient. -/
def ofRatio (negative : Bool) (num den : Nat) : Binary64 :=
  if num = 0 then .finite negative 0 minScale
  else
    let scale := scaleFor num den
    let (n, d) := rescale num den scale
    let mantissa := roundQuotient n d
    let (mantissa, scale) :=
      if mantissa = 2 * mantissaStart then (mantissaStart, scale + 1) else (mantissa, scale)
    if scale > maxScale then .infinite negative else .finite negative mantissa scale

/-- The number nearest to `digits * 10 ^ exponent`. -/
def ofDecimal (negative : Bool) (digits : Nat) (exponent : Int) : Binary64 :=
  let places := Int.ofNat (Nat.toDigits 10 digits).length
  if digits = 0 ∨ places + exponent < -400 then .finite negative 0 minScale
  else if places + exponent > 400 then .infinite negative
  else if exponent ≥ 0 then ofRatio negative (digits * Nat.pow 10 exponent.toNat) 1
  else ofRatio negative digits (Nat.pow 10 (-exponent).toNat)

/-! ### Decimal literals -/

/-- Takes a sign off a text. -/
def takeSign : List Char → Bool × List Char
  | '-' :: rest => (true, rest)
  | '+' :: rest => (false, rest)
  | rest => (false, rest)

/-- The exponent of a literal; nothing may follow it. -/
def exponent? : List Char → Option Int
  | [] => some 0
  | mark :: rest =>
    if mark = 'e' ∨ mark = 'E' then
      let (negative, digits) := takeSign rest
      (digits? digits).map fun n => if negative then -(Int.ofNat n) else Int.ofNat n
    else none

/-- The number nearest to a decimal literal: a sign, digits around a point, and an exponent, of
which everything but one digit may be left out. -/
def ofLiteral? (text : List Char) : Option Binary64 :=
  let (negative, text) := takeSign text
  let whole := text.takeWhile Char.isDigit
  let text := text.dropWhile Char.isDigit
  let (fraction, text) :=
    match text with
    | '.' :: text => (text.takeWhile Char.isDigit, text.dropWhile Char.isDigit)
    | text => ([], text)
  match digits? (whole ++ fraction), exponent? text with
  | some digits, some exponent =>
    some (ofDecimal negative digits (exponent - Int.ofNat fraction.length))
  | _, _ => none

/-! ### Decimal text -/

/-- A decimal number `digits * 10 ^ exponent`. -/
structure Decimal where
  digits : Nat
  exponent : Int
  deriving DecidableEq, Repr

/-- Four times a number with this mantissa and scale, as a quotient. -/
def quadruple (mantissa : Nat) (scale : Int) : Nat × Nat :=
  if scale ≥ 0 then (4 * mantissa * Nat.pow 2 scale.toNat, 1)
  else (4 * mantissa, Nat.pow 2 (-scale).toNat)

/-- Four times the distance from a number to the middle below it, in units of `2 ^ scale`: half a
step, or a quarter where the steps below are finer. -/
def gapBelow (mantissa : Nat) (scale : Int) : Nat :=
  if mantissa = mantissaStart ∧ scale > minScale then 1 else 2

/-- The point of the grid of multiples of `10 ^ exponent` that is nearest to a positive number,
if it reads back as the number. -/
def onGrid? (mantissa : Nat) (scale exponent : Int) : Option Decimal :=
  let (value, den) := quadruple mantissa scale
  -- Everything below is scaled by one factor, which makes it whole.
  let (up, step) :=
    if exponent ≥ 0 then (1, 4 * den * Nat.pow 10 exponent.toNat)
    else (Nat.pow 10 (-exponent).toNat, 4 * den)
  let value := value * up
  let quarter := up * (if scale ≥ 0 then Nat.pow 2 scale.toNat else 1)
  let low := value - gapBelow mantissa scale * quarter
  let high := value + 2 * quarter
  let inside (point : Nat) : Bool :=
    if mantissa % 2 = 0 then low ≤ point && point ≤ high else low < point && point < high
  let below := value / step
  let beneath := below * step
  let above := beneath + step
  let preferBeneath :=
    value - beneath < above - value || (value - beneath = above - value && below % 2 = 0)
  if inside beneath && (!inside above || preferBeneath) then some ⟨below, exponent⟩
  else if inside above then some ⟨below + 1, exponent⟩
  else none

/-- The number of digits before the point of a positive number, which may be negative. -/
def magnitude (mantissa : Nat) (scale : Int) : Int :=
  let (value, den) := quadruple mantissa scale
  if value ≥ 4 * den then Int.ofNat (Nat.toDigits 10 (value / (4 * den))).length
  else 1 - Int.ofNat (Nat.toDigits 10 ((4 * den) / value)).length

/-- The first point of finer and finer grids that reads back as the number. -/
def searchGrids (mantissa : Nat) (scale exponent : Int) : Nat → Decimal
  | 0 => (onGrid? mantissa scale exponent).getD ⟨mantissa, 0⟩
  | finer + 1 =>
    match onGrid? mantissa scale exponent with
    | some point => point
    | none => searchGrids mantissa scale (exponent - 1) finer

/-- Takes the zeros off the end of the digits. -/
def trimZeros : Nat → Decimal → Decimal
  | 0, d => d
  | fuel + 1, d =>
    if d.digits ≠ 0 ∧ d.digits % 10 = 0 then trimZeros fuel ⟨d.digits / 10, d.exponent + 1⟩ else d

/-- The shortest decimal that reads back as a positive number. -/
def shortest (mantissa : Nat) (scale : Int) : Decimal :=
  trimZeros 20 (searchGrids mantissa scale (magnitude mantissa scale) 19)

/-- Writes a decimal: positionally where at most sixteen digits stand before the point and at most
four zeros after it, and with an exponent elsewhere. -/
def renderDecimal (d : Decimal) : List Char :=
  let digits := Nat.toDigits 10 d.digits
  let length := Int.ofNat digits.length
  let point := length + d.exponent
  if 0 ≤ d.exponent ∧ point ≤ 16 then
    digits ++ List.replicate d.exponent.toNat '0' ++ ['.', '0']
  else if 0 < point ∧ point ≤ 16 then
    digits.take point.toNat ++ '.' :: digits.drop point.toNat
  else if -5 < point ∧ point ≤ 0 then
    '0' :: '.' :: List.replicate (-point).toNat '0' ++ digits
  else
    let exponent := (toString (point - 1)).toList
    match digits with
    | [] => []
    | [digit] => digit :: 'e' :: exponent
    | digit :: more => digit :: '.' :: more ++ 'e' :: exponent

/-- The text of a finite number. -/
def renderFinite (negative : Bool) (mantissa : Nat) (scale : Int) : List Char :=
  let size :=
    if mantissa = 0 then ['0', '.', '0'] else renderDecimal (shortest mantissa scale)
  if negative then '-' :: size else size

end Binary64

end ClusterAccess

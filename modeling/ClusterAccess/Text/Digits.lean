/-
Whole numbers in decimal.

`digits?` reads a run of digits as the number it writes, and `unsigned?` a number of
limited width; `hexDigits` writes the low digits of a number in base sixteen.
-/
namespace ClusterAccess.Text

/-- The value of a decimal digit. -/
def digit? (c : Char) : Option Nat :=
  if c.isDigit then some (c.toNat - '0'.toNat) else none

/-- The value of a hexadecimal digit, in either case. -/
def hexDigit? (c : Char) : Option Nat :=
  if c.isDigit then some (c.toNat - '0'.toNat)
  else if 'a' ≤ c ∧ c ≤ 'f' then some (c.toNat - 'a'.toNat + 10)
  else if 'A' ≤ c ∧ c ≤ 'F' then some (c.toNat - 'A'.toNat + 10)
  else none

/-- The number that a text of digits in some base writes after a number already read. -/
def readDigits (base : Nat) (digit : Char → Option Nat) (high : Nat) : List Char → Option Nat
  | [] => some high
  | c :: rest =>
    match digit c with
    | some d => if d < base then readDigits base digit (high * base + d) rest else none
    | none => none

/-- The number a text of decimal digits writes; the empty text writes none. -/
def digits? (text : List Char) : Option Nat :=
  if text = [] then none else readDigits 10 digit? 0 text

/-- A number of so many bits: digits, with an optional plus sign before them. -/
def unsigned? (bits : Nat) (text : List Char) : Option Nat :=
  let digits :=
    match text with
    | '+' :: digits => digits
    | digits => digits
  (digits? digits).filter (· < Nat.pow 2 bits)

/-- The hexadecimal digit of a value below sixteen. -/
def hexDigitOf (upper : Bool) (n : Nat) : Char :=
  if n < 10 then Char.ofNat ('0'.toNat + n)
  else Char.ofNat ((if upper then 'A' else 'a').toNat + (n - 10))

/-- The last `width` hexadecimal digits of a number, highest first. -/
def hexDigits (upper : Bool) : Nat → Nat → List Char
  | 0, _ => []
  | width + 1, n => hexDigits upper width (n / 16) ++ [hexDigitOf upper (n % 16)]

end ClusterAccess.Text

/-
The literals of JSON numbers.

A literal is judged in three ways: does it follow the grammar, is it a natural
number that was written as one, and is its value within the range of a double.
-/
import ClusterAccess.Text.Digits

namespace ClusterAccess.Json

open Text

/-- The parts of a number literal: sign, whole part, fraction and exponent. -/
structure NumberParts where
  negative : Bool
  whole : List Char
  fraction : Option (List Char)
  /-- The sign of the exponent and its digits. -/
  exponent : Option (Bool × List Char)
  deriving DecidableEq, Repr

/-- Takes the exponent of a literal apart; nothing may follow it. -/
def exponentOf : List Char → Option (Option (Bool × List Char))
  | [] => some none
  | mark :: rest =>
    if mark = 'e' ∨ mark = 'E' then
      let (negative, digits) :=
        match rest with
        | '-' :: digits => (true, digits)
        | '+' :: digits => (false, digits)
        | digits => (false, digits)
      if digits ≠ [] ∧ digits.all Char.isDigit then some (some (negative, digits)) else none
    else none

/-- Takes a literal apart, if it follows the grammar of numbers. -/
def numberParts? (literal : List Char) : Option NumberParts := do
  let (negative, rest) :=
    match literal with
    | '-' :: rest => (true, rest)
    | rest => (false, rest)
  let whole := rest.takeWhile Char.isDigit
  let rest := rest.dropWhile Char.isDigit
  if whole = [] ∨ (whole.head? = some '0' ∧ whole.length ≠ 1) then none
  else
    match rest with
    | '.' :: rest =>
      let fraction := rest.takeWhile Char.isDigit
      if fraction = [] then none
      else
        let exponent ← exponentOf (rest.dropWhile Char.isDigit)
        some ⟨negative, whole, some fraction, exponent⟩
    | rest =>
      let exponent ← exponentOf rest
      some ⟨negative, whole, none, exponent⟩

/-- The natural number of a literal without sign, fraction or exponent. -/
def natural? (literal : String) : Option Nat :=
  digits? literal.toList

/-- The integer of a literal without fraction or exponent; `-0` is not one. -/
def integer? (literal : String) : Option Int :=
  match literal.toList with
  | '-' :: digits =>
    match digits? digits with
    | some 0 => none
    | some n => some (-(Int.ofNat n))
    | none => none
  | digits => (digits? digits).map Int.ofNat

/-- The least magnitude that no double comes near: half a step above the largest one. -/
def doubleBound : Nat := Nat.pow 2 1024 - Nat.pow 2 970

/-- Is the value of a literal within the range of a double? -/
def inDoubleRange (literal : String) : Bool :=
  match numberParts? literal.toList with
  | none => false
  | some parts =>
    let fraction := parts.fraction.getD []
    let digits := parts.whole ++ fraction
    let mantissa := (digits? digits).getD 0
    let shift : Int :=
      match parts.exponent with
      | none => 0
      | some (negative, exponent) =>
        let size := Int.ofNat ((digits? exponent).getD 0)
        if negative then -size else size
    let scale := shift - Int.ofNat fraction.length
    -- A number of at most 300 places before the point is in range, however long it is written.
    if mantissa = 0 ∨ Int.ofNat digits.length + scale ≤ 300 then true
    else if scale ≤ 0 then mantissa < doubleBound * Nat.pow 10 scale.natAbs
    else if scale > 400 then false
    else mantissa * Nat.pow 10 scale.natAbs < doubleBound

end ClusterAccess.Json

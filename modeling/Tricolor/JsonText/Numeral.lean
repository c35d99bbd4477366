import Tricolor.JsonText.Reader

/-!
# Numerals

A numeral is read digit by digit before anyone asks what it may stand for.  A
count is a plain one that fits into 64 bits.  Any other numeral is of the wrong
kind where a count is expected, unless it is too large even for a binary64
number, in which case it is no number at all.
-/

namespace Tricolor.JsonText

/-- The greatest count. -/
def maxCount : Nat := UInt64.size - 1

def isDigit (char : Char) : Bool := '0' ≤ char && char ≤ '9'

/-- A number as it is written. -/
structure Numeral where
  negative : Bool
  whole : List Nat
  /-- The digits behind the point, if there is one. -/
  fraction : Option (List Nat)
  exponent : Option Int
  deriving DecidableEq, Repr

def digitValues (digits : List Char) : List Nat :=
  digits.map fun digit => digit.toNat - '0'.toNat

def ofDigits (digits : List Nat) : Nat :=
  digits.foldl (fun value digit => 10 * value + digit) 0

/-- Reads at least one digit. -/
def readDigits (text : List Char) : Except Failure (List Nat × List Char) :=
  match text with
  | [] => .error .truncated
  | char :: _ =>
      if isDigit char then .ok (digitValues (text.takeWhile isDigit), text.dropWhile isDigit)
      else .error .malformed

theorem readDigits_length_lt {text rest : List Char} {digits : List Nat}
    (read : readDigits text = .ok (digits, rest)) : rest.length < text.length := by
  unfold readDigits at read
  split at read
  · cases read
  · next char tail =>
      split at read
      · next starts =>
          cases read
          rw [List.dropWhile_cons_of_pos starts]
          exact Nat.lt_succ_of_le (List.dropWhile_suffix _).length_le
      · cases read

/-- Reads the part before the point, which has no leading zeros. -/
def readWhole (text : List Char) : Except Failure (List Nat × List Char) :=
  match readDigits text with
  | .error failure => .error failure
  | .ok (digits, rest) =>
      if digits.head? = some 0 ∧ 1 < digits.length then .error .malformed else .ok (digits, rest)

/-- Reads the part behind the point, if there is a point. -/
def readFraction : List Char → Except Failure (Option (List Nat) × List Char)
  | '.' :: text =>
      match readDigits text with
      | .error failure => .error failure
      | .ok (digits, rest) => .ok (some digits, rest)
  | text => .ok (none, text)

/-- Reads the sign of an exponent. -/
def readSign : List Char → Bool × List Char
  | '-' :: text => (true, text)
  | '+' :: text => (false, text)
  | text => (false, text)

/-- Reads the exponent, if there is one. -/
def readExponent : List Char → Except Failure (Option Int × List Char)
  | [] => .ok (none, [])
  | char :: text =>
      if char = 'e' ∨ char = 'E' then
        match readDigits (readSign text).2 with
        | .error failure => .error failure
        | .ok (digits, rest) =>
            let magnitude : Int := ofDigits digits
            .ok (some (if (readSign text).1 then -magnitude else magnitude), rest)
      else .ok (none, char :: text)

/-- Reads the minus sign of a numeral. -/
def readMinus : List Char → Bool × List Char
  | '-' :: text => (true, text)
  | text => (false, text)

def readNumeral (text : List Char) : Except Failure (Numeral × List Char) :=
  let (negative, text) := readMinus text
  match readWhole text with
  | .error failure => .error failure
  | .ok (whole, text) =>
      match readFraction text with
      | .error failure => .error failure
      | .ok (fraction, text) =>
          match readExponent text with
          | .error failure => .error failure
          | .ok (exponent, rest) => .ok ({ negative, whole, fraction, exponent }, rest)

theorem readWhole_length_lt {text rest : List Char} {digits : List Nat}
    (read : readWhole text = .ok (digits, rest)) : rest.length < text.length := by
  unfold readWhole at read
  split at read
  · cases read
  · next found =>
      split at read
      · cases read
      · cases read
        exact readDigits_length_lt found

theorem readFraction_length_le {text rest : List Char} {digits : Option (List Nat)}
    (read : readFraction text = .ok (digits, rest)) : rest.length ≤ text.length := by
  unfold readFraction at read
  split at read
  · split at read
    · cases read
    · next found =>
        cases read
        exact Nat.le_succ_of_le (Nat.le_of_lt (readDigits_length_lt found))
  · cases read
    exact Nat.le_refl _

theorem readSign_length_le (text : List Char) : (readSign text).2.length ≤ text.length := by
  unfold readSign
  split <;> simp

theorem readExponent_length_le {text rest : List Char} {exponent : Option Int}
    (read : readExponent text = .ok (exponent, rest)) : rest.length ≤ text.length := by
  cases text with
  | nil =>
      cases read
      exact Nat.le_refl _
  | cons char text =>
      rw [readExponent] at read
      split at read
      · have signShorter := readSign_length_le text
        split at read
        · cases read
        · next found =>
            cases read
            have shorter := readDigits_length_lt found
            simp only [List.length_cons]
            omega
      · cases read
        exact Nat.le_refl _

theorem readMinus_length_le (text : List Char) : (readMinus text).2.length ≤ text.length := by
  unfold readMinus
  split <;> simp

theorem readNumeral_length_lt {text rest : List Char} {numeral : Numeral}
    (read : readNumeral text = .ok (numeral, rest)) : rest.length < text.length := by
  have minusShorter := readMinus_length_le text
  unfold readNumeral at read
  dsimp only at read
  split at read
  · cases read
  · next foundWhole =>
      have wholeShorter := readWhole_length_lt foundWhole
      split at read
      · cases read
      · next foundFraction =>
          have fractionShorter := readFraction_length_le foundFraction
          split at read
          · cases read
          · next foundExponent =>
              have exponentShorter := readExponent_length_le foundExponent
              cases read
              omega

namespace Numeral

/-- The count that a plain numeral stands for. -/
def count? (numeral : Numeral) : Option Nat :=
  if numeral.negative = false ∧ numeral.fraction = none ∧ numeral.exponent = none ∧
      ofDigits numeral.whole ≤ maxCount then
    some (ofDigits numeral.whole)
  else none

/-- The nearest number with 53 significant bits, an even one on a tie. -/
def roundTo53Bits (value : Nat) : Nat :=
  if value < Nat.pow 2 53 then value
  else
    let dropped := Nat.log2 value - 52
    let quotient := value / Nat.pow 2 dropped
    let remainder := value % Nat.pow 2 dropped
    let half := Nat.pow 2 (dropped - 1)
    let roundsUp := half < remainder ∨ (remainder = half ∧ quotient % 2 = 1)
    (if roundsUp then quotient + 1 else quotient) * Nat.pow 2 dropped

/-- Halfway between the greatest binary64 number and the next power of two:
from here on nothing rounds to a binary64 number. -/
def binary64Limit : Nat := Nat.pow 2 1024 - Nat.pow 2 970

/-- Appends digits to a significand while it fits into 64 bits; the second
component is the number of digits left over. -/
def extend (significand : Nat) : List Nat → Nat × Nat
  | [] => (significand, 0)
  | digit :: digits =>
      if 10 * significand + digit ≤ maxCount then extend (10 * significand + digit) digits
      else (significand, digits.length + 1)

/-- The numeral as a significand of at most 64 bits and a power of ten. -/
def scientific (numeral : Numeral) : Nat × Int :=
  let fraction := numeral.fraction.getD []
  let (significand, droppedWhole) := extend 0 numeral.whole
  let (significand, droppedFraction) := extend significand fraction
  (significand,
    (droppedWhole : Int) - ((fraction.length - droppedFraction : Nat) : Int) +
      numeral.exponent.getD 0)

/-- The numeral is too large for a binary64 number, its significand and its
power of ten being rounded before they are multiplied. -/
def overflows (numeral : Numeral) : Bool :=
  let (significand, exponent) := numeral.scientific
  if significand = 0 ∨ exponent < 0 then false
  else if 308 < exponent then true
  else
    binary64Limit ≤
      roundTo53Bits significand * roundTo53Bits (Nat.pow 10 exponent.toNat)

/-- Why the numeral is refused where it stands for nothing expected. -/
def refusal (numeral : Numeral) : Failure :=
  if numeral.overflows then .malformed else .mismatched

end Numeral

end Tricolor.JsonText

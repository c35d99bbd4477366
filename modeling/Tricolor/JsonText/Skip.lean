import Tricolor.JsonText.Numeral
import Tricolor.JsonText.Quoted

/-!
# Passing over values

Values that nobody asked for must be JSON, but they may nest to any depth and
their numbers may be of any size.
-/

namespace Tricolor.JsonText

/-- An array or object that has been opened. -/
inductive Bracket where
  | array
  | object
  deriving DecidableEq, Repr

def Bracket.closing : Bracket → Char
  | .array => ']'
  | .object => '}'

/-- Passes over a number; a number that breaks off is malformed. -/
def skipNumeral (text : List Char) : Except Failure (List Char) :=
  match readNumeral text with
  | .error _ => .error .malformed
  | .ok (_, rest) => .ok rest

/-- Passes over a value that is neither an array nor an object. -/
def skipScalar : List Char → Except Failure (List Char)
  | [] => .error .truncated
  | 'n' :: text => readWord ['u', 'l', 'l'] text
  | 't' :: text => readWord ['r', 'u', 'e'] text
  | 'f' :: text => readWord ['a', 'l', 's', 'e'] text
  | '"' :: text => skipQuoted text
  | text => skipNumeral text

theorem skipScalar_length_lt {text rest : List Char}
    (skipped : skipScalar text = .ok rest) : rest.length < text.length := by
  unfold skipScalar at skipped
  split at skipped
  · cases skipped
  · exact Nat.lt_succ_of_le (readWord_length_le skipped)
  · exact Nat.lt_succ_of_le (readWord_length_le skipped)
  · exact Nat.lt_succ_of_le (readWord_length_le skipped)
  · exact Nat.lt_succ_of_lt (skipQuoted_length_lt skipped)
  · unfold skipNumeral at skipped
    split at skipped
    · cases skipped
    · next found =>
        cases skipped
        exact readNumeral_length_lt found

/-- Passes over a member's name and its colon. -/
def skipName (text : List Char) : Except Failure (List Char) :=
  match skipBlanks text with
  | [] => .error .truncated
  | '"' :: name =>
      match skipQuoted name with
      | .error failure => .error failure
      | .ok rest => readColon rest
  | _ => .error .malformed

theorem skipName_length_lt {text rest : List Char}
    (skipped : skipName text = .ok rest) : rest.length < text.length := by
  unfold skipName at skipped
  split at skipped
  · cases skipped
  · next blanks =>
      have nameShorter := length_lt_of_skipBlanks_eq_cons blanks
      split at skipped
      · cases skipped
      · next found =>
          have quotedShorter := skipQuoted_length_lt found
          have colonShorter := readColon_length_lt skipped
          omega
  · cases skipped

/-- What a text is expected to go on with. -/
inductive Expectation where
  | value
  /-- A value has just ended. -/
  | separator

/-- Passes over what remains of a value inside the given brackets, innermost
first, up to the last closing bracket. -/
def skipNested (expectation : Expectation) (brackets : List Bracket) (text : List Char) :
    Except Failure (List Char) :=
  match expectation with
  | .value =>
      match _blanks : skipBlanks text with
      | [] => .error .truncated
      | '[' :: items =>
          match _closing : skipBlanks items with
          | ']' :: rest => skipNested .separator brackets rest
          | _ => skipNested .value (.array :: brackets) items
      | '{' :: members =>
          match _closing : skipBlanks members with
          | '}' :: rest => skipNested .separator brackets rest
          | _ =>
              match _name : skipName members with
              | .error failure => .error failure
              | .ok rest => skipNested .value (.object :: brackets) rest
      | scalar =>
          match _scalar : skipScalar scalar with
          | .error failure => .error failure
          | .ok rest => skipNested .separator brackets rest
  | .separator =>
      match brackets with
      | [] => .ok text
      | bracket :: outer =>
          match _blanks : skipBlanks text with
          | [] => .error .truncated
          | char :: rest =>
              if char = bracket.closing then skipNested .separator outer rest
              else if char = ',' then
                match bracket with
                | .array => skipNested .value (.array :: outer) rest
                | .object =>
                    match _name : skipName rest with
                    | .error failure => .error failure
                    | .ok rest => skipNested .value (.object :: outer) rest
              else .error .malformed
termination_by text.length
decreasing_by
  · have shorter := length_lt_of_skipBlanks_eq_cons _blanks
    have closingShorter := length_lt_of_skipBlanks_eq_cons _closing
    omega
  · exact length_lt_of_skipBlanks_eq_cons _blanks
  · have shorter := length_lt_of_skipBlanks_eq_cons _blanks
    have closingShorter := length_lt_of_skipBlanks_eq_cons _closing
    omega
  · have shorter := length_lt_of_skipBlanks_eq_cons _blanks
    have nameShorter := skipName_length_lt _name
    omega
  · have blanksShorter := skipBlanks_length_le text
    have scalarShorter := skipScalar_length_lt _scalar
    rw [_blanks] at blanksShorter
    omega
  · exact length_lt_of_skipBlanks_eq_cons _blanks
  · exact length_lt_of_skipBlanks_eq_cons _blanks
  · have shorter := length_lt_of_skipBlanks_eq_cons _blanks
    have nameShorter := skipName_length_lt _name
    omega

theorem skipNested_length_le {expectation : Expectation} {brackets : List Bracket}
    {text rest : List Char} (skipped : skipNested expectation brackets text = .ok rest) :
    rest.length ≤ text.length := by
  fun_induction skipNested expectation brackets text with
  | case1 => cases skipped
  | case2 brackets text items blanks afterItems closing ih =>
      have shorter := length_lt_of_skipBlanks_eq_cons blanks
      have closingShorter := length_lt_of_skipBlanks_eq_cons closing
      have tailShorter := ih skipped
      omega
  | case3 brackets text items blanks _ ih =>
      have shorter := length_lt_of_skipBlanks_eq_cons blanks
      have tailShorter := ih skipped
      omega
  | case4 brackets text members blanks afterMembers closing ih =>
      have shorter := length_lt_of_skipBlanks_eq_cons blanks
      have closingShorter := length_lt_of_skipBlanks_eq_cons closing
      have tailShorter := ih skipped
      omega
  | case5 => cases skipped
  | case6 brackets text members blanks afterName name _ ih =>
      have shorter := length_lt_of_skipBlanks_eq_cons blanks
      have nameShorter := skipName_length_lt name
      have tailShorter := ih skipped
      omega
  | case7 => cases skipped
  | case8 brackets text _ _ _ afterScalar scalar ih =>
      have blanksShorter := skipBlanks_length_le text
      have scalarShorter := skipScalar_length_lt scalar
      have tailShorter := ih skipped
      omega
  | case9 =>
      cases skipped
      exact Nat.le_refl _
  | case10 => cases skipped
  | case11 text bracket outer rest blanks ih =>
      have shorter := length_lt_of_skipBlanks_eq_cons blanks
      have tailShorter := ih skipped
      omega
  | case12 text outer rest blanks _ ih =>
      have shorter := length_lt_of_skipBlanks_eq_cons blanks
      have tailShorter := ih skipped
      omega
  | case13 => cases skipped
  | case14 text outer rest afterName name blanks _ ih =>
      have shorter := length_lt_of_skipBlanks_eq_cons blanks
      have nameShorter := skipName_length_lt name
      have tailShorter := ih skipped
      omega
  | case15 => cases skipped

/-- Passes over one value. -/
def skipValue (text : List Char) : Except Failure (List Char) :=
  skipNested .value [] text

theorem skipValue_length_le {text rest : List Char}
    (skipped : skipValue text = .ok rest) : rest.length ≤ text.length :=
  skipNested_length_le skipped

end Tricolor.JsonText

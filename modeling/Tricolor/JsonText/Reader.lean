/-!
# Reading JSON text

A reader takes a value off the front of a text.  Texts are read from left to
right, and the first problem met decides how the whole text is classified.
-/

namespace Tricolor.JsonText

/-- Why a text cannot be read. -/
inductive Failure where
  /-- The text ends too early. -/
  | truncated
  /-- The text is not JSON. -/
  | malformed
  /-- The text is JSON, but not of the expected kind. -/
  | mismatched
  deriving DecidableEq, Repr

/-- Reads a value off the front of a text and returns what is left of it,
which is always less than there was. -/
structure Reader (α : Type) where
  read : List Char → Except Failure (α × List Char)
  shortens : ∀ {text value rest},
    read text = .ok (value, rest) → rest.length < text.length

def isBlank (char : Char) : Bool :=
  char == ' ' || char == '\n' || char == '\t' || char == '\r'

def skipBlanks (text : List Char) : List Char :=
  text.dropWhile isBlank

theorem skipBlanks_length_le (text : List Char) :
    (skipBlanks text).length ≤ text.length :=
  (List.dropWhile_suffix _).length_le

theorem length_lt_of_skipBlanks_eq_cons {text rest : List Char} {char : Char}
    (skipped : skipBlanks text = char :: rest) : rest.length < text.length := by
  have bound := skipBlanks_length_le text
  rw [skipped] at bound
  exact bound

/-- Reads exactly the given characters. -/
def readWord : List Char → List Char → Except Failure (List Char)
  | [], text => .ok text
  | _ :: _, [] => .error .truncated
  | expected :: word, char :: text =>
      if char = expected then readWord word text else .error .malformed

theorem readWord_length_le {word text rest : List Char}
    (read : readWord word text = .ok rest) : rest.length ≤ text.length := by
  induction word generalizing text with
  | nil =>
      cases read
      exact Nat.le_refl _
  | cons expected word ih =>
      cases text with
      | nil => cases read
      | cons char text =>
          rw [readWord] at read
          split at read
          · exact Nat.le_succ_of_le (ih read)
          · cases read

/-- Reads the colon between a member's name and its value. -/
def readColon (text : List Char) : Except Failure (List Char) :=
  match skipBlanks text with
  | [] => .error .truncated
  | ':' :: rest => .ok rest
  | _ => .error .malformed

theorem readColon_length_lt {text rest : List Char}
    (read : readColon text = .ok rest) : rest.length < text.length := by
  unfold readColon at read
  split at read
  · cases read
  · next skipped =>
      cases read
      exact length_lt_of_skipBlanks_eq_cons skipped
  · cases read

/-- Reads a whole text: one value with nothing but blanks behind it. -/
def Reader.readAll (reader : Reader α) (text : List Char) : Except Failure α :=
  match reader.read text with
  | .error failure => .error failure
  | .ok (value, rest) => if (skipBlanks rest).isEmpty then .ok value else .error .malformed

def Reader.map (change : α → β) (reader : Reader α) : Reader β where
  read text := match reader.read text with
    | .error failure => .error failure
    | .ok (value, rest) => .ok (change value, rest)
  shortens := by
    intro text value rest read
    split at read
    · cases read
    · next found =>
        cases read
        exact reader.shortens found

end Tricolor.JsonText

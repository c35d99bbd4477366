import Tricolor.JsonText.Numeral
import Tricolor.JsonText.Quoted

/-!
# Readers of single values

Readers of counts, strings, optional strings and names out of a fixed choice.
A value of the wrong kind is only called mismatched as far as it has been
looked at: its own text may turn out to be truncated or malformed first.
-/

namespace Tricolor.JsonText

def failureOf (otherwise : Failure) : Except Failure α → Failure
  | .error failure => failure
  | .ok _ => otherwise

/-- How a text is refused that does not start with a value of the expected
kind.  Arrays and objects are not looked into. -/
def misfit : List Char → Failure
  | [] => .truncated
  | 'n' :: text => failureOf .mismatched (readWord ['u', 'l', 'l'] text)
  | 't' :: text => failureOf .mismatched (readWord ['r', 'u', 'e'] text)
  | 'f' :: text => failureOf .mismatched (readWord ['a', 'l', 's', 'e'] text)
  | '"' :: text => failureOf .mismatched (readQuoted text)
  | '[' :: _ => .mismatched
  | '{' :: _ => .mismatched
  | char :: text =>
      if char = '-' ∨ isDigit char then
        match readNumeral (char :: text) with
        | .error failure => failure
        | .ok (numeral, _) => numeral.refusal
      else .malformed

def readCount (text : List Char) : Except Failure (Nat × List Char) :=
  match readNumeral (skipBlanks text) with
  | .error _ => .error (misfit (skipBlanks text))
  | .ok (numeral, rest) =>
      match numeral.count? with
      | some count => .ok (count, rest)
      | none => .error numeral.refusal

/-- A number from 0 to `maxCount`. -/
def count : Reader Nat where
  read := readCount
  shortens := by
    intro text value rest read
    have blanks := skipBlanks_length_le text
    unfold readCount at read
    split at read
    · cases read
    · next found =>
        have shorter := readNumeral_length_lt found
        split at read
        · cases read
          omega
        · cases read

def readString (text : List Char) : Except Failure (String × List Char) :=
  match skipBlanks text with
  | '"' :: quoted =>
      match readQuoted quoted with
      | .error failure => .error failure
      | .ok (chars, rest) => .ok (String.ofList chars, rest)
  | other => .error (misfit other)

theorem readString_length_lt {text rest : List Char} {value : String}
    (read : readString text = .ok (value, rest)) : rest.length < text.length := by
  unfold readString at read
  split at read
  · next blanks =>
      have shorter := length_lt_of_skipBlanks_eq_cons blanks
      split at read
      · cases read
      · next found =>
          cases read
          have quotedShorter := readQuoted_length_lt found
          omega
  · cases read

def string : Reader String where
  read := readString
  shortens := readString_length_lt

def readNull (text : List Char) : Except Failure (List Char) :=
  match skipBlanks text with
  | 'n' :: word => readWord ['u', 'l', 'l'] word
  | other => .error (misfit other)

theorem readNull_length_lt {text rest : List Char}
    (read : readNull text = .ok rest) : rest.length < text.length := by
  unfold readNull at read
  split at read
  · next blanks =>
      have shorter := length_lt_of_skipBlanks_eq_cons blanks
      have wordShorter := readWord_length_le read
      omega
  · cases read

def readOptionalString (text : List Char) : Except Failure (Option String × List Char) :=
  match skipBlanks text with
  | 'n' :: word =>
      match readWord ['u', 'l', 'l'] word with
      | .error failure => .error failure
      | .ok rest => .ok (none, rest)
  | _ =>
      match readString text with
      | .error failure => .error failure
      | .ok (value, rest) => .ok (some value, rest)

/-- A string, or `null` for none. -/
def optionalString : Reader (Option String) where
  read := readOptionalString
  shortens := by
    intro text value rest read
    unfold readOptionalString at read
    split at read
    · next blanks =>
        have shorter := length_lt_of_skipBlanks_eq_cons blanks
        split at read
        · cases read
        · next found =>
            cases read
            have wordShorter := readWord_length_le found
            omega
    · split at read
      · cases read
      · next found =>
          cases read
          exact readString_length_lt found

/-- Looks up the name of a choice. -/
def chooseName (choices : List (String × α)) (name : String) : Except Failure α :=
  match choices.find? fun choice => choice.1 == name with
  | some choice => .ok choice.2
  | none => .error .mismatched

/-- Reads the closing brace of a choice written as an object. -/
def readBrace (text : List Char) : Except Failure (List Char) :=
  match skipBlanks text with
  | [] => .error .truncated
  | '}' :: rest => .ok rest
  | _ => .error .malformed

theorem readBrace_length_lt {text rest : List Char}
    (read : readBrace text = .ok rest) : rest.length < text.length := by
  unfold readBrace at read
  split at read
  · cases read
  · next blanks =>
      cases read
      exact length_lt_of_skipBlanks_eq_cons blanks
  · cases read

/-- Reads the name of an object's only member; nothing but a string can be one. -/
def readTag (text : List Char) : Except Failure (String × List Char) :=
  match skipBlanks text with
  | [] => .error .truncated
  | '"' :: quoted =>
      match readQuoted quoted with
      | .error failure => .error failure
      | .ok (chars, rest) => .ok (String.ofList chars, rest)
  | _ => .error .malformed

theorem readTag_length_lt {text rest : List Char} {name : String}
    (read : readTag text = .ok (name, rest)) : rest.length < text.length := by
  unfold readTag at read
  split at read
  · cases read
  · next blanks =>
      have shorter := length_lt_of_skipBlanks_eq_cons blanks
      split at read
      · cases read
      · next found =>
          cases read
          have quotedShorter := readQuoted_length_lt found
          omega
  · cases read

/-- Reads a choice that is the only member of an object, with nothing else to
say; the opening brace has been read. -/
def readTagged (choices : List (String × α)) (text : List Char) :
    Except Failure (α × List Char) :=
  match readTag text with
  | .error failure => .error failure
  | .ok (name, text) =>
      match chooseName choices name with
      | .error failure => .error failure
      | .ok value =>
          match readColon text with
          | .error failure => .error failure
          | .ok text =>
              match readNull text with
              | .error failure => .error failure
              | .ok text =>
                  match readBrace text with
                  | .error failure => .error failure
                  | .ok rest => .ok (value, rest)

theorem readTagged_length_lt {choices : List (String × α)} {text rest : List Char} {value : α}
    (read : readTagged choices text = .ok (value, rest)) : rest.length < text.length := by
  unfold readTagged at read
  split at read
  · cases read
  · next foundName =>
      split at read
      · cases read
      · split at read
        · cases read
        · next foundColon =>
            split at read
            · cases read
            · next foundNull =>
                split at read
                · cases read
                · next foundBrace =>
                    cases read
                    have nameShorter := readTag_length_lt foundName
                    have colonShorter := readColon_length_lt foundColon
                    have nullShorter := readNull_length_lt foundNull
                    have braceShorter := readBrace_length_lt foundBrace
                    omega

def readChoice (choices : List (String × α)) (text : List Char) :
    Except Failure (α × List Char) :=
  match skipBlanks text with
  | [] => .error .truncated
  | '"' :: quoted =>
      match readQuoted quoted with
      | .error failure => .error failure
      | .ok (chars, rest) =>
          match chooseName choices (String.ofList chars) with
          | .error failure => .error failure
          | .ok value => .ok (value, rest)
  | '{' :: tagged => readTagged choices tagged
  | _ => .error .malformed

/-- One of the named values: its name, or an object that maps the name to
`null`. -/
def choice (choices : List (String × α)) : Reader α where
  read := readChoice choices
  shortens := by
    intro text value rest read
    unfold readChoice at read
    split at read
    · cases read
    · next blanks =>
        have shorter := length_lt_of_skipBlanks_eq_cons blanks
        split at read
        · cases read
        · next found =>
            have quotedShorter := readQuoted_length_lt found
            split at read
            · cases read
            · cases read
              omega
    · next blanks =>
        have shorter := length_lt_of_skipBlanks_eq_cons blanks
        have taggedShorter := readTagged_length_lt read
        omega
    · cases read

end Tricolor.JsonText

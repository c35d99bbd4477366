import Tricolor.JsonText.Reader

/-!
# Quoted strings

A quote, a backslash and control characters are escaped when written.  Reading
accepts every escape, and joins a pair of surrogate escapes into the character
that they stand for; a surrogate on its own stands for nothing.
-/

namespace Tricolor.JsonText

/-- The character that a one-letter escape stands for. -/
def shortEscape? : Char → Option Char
  | '"' => some '"'
  | '\\' => some '\\'
  | '/' => some '/'
  | 'b' => some '\x08'
  | 'f' => some '\x0c'
  | 'n' => some '\n'
  | 'r' => some '\r'
  | 't' => some '\t'
  | _ => none

def hexDigit? (char : Char) : Option Nat :=
  if '0' ≤ char ∧ char ≤ '9' then some (char.toNat - '0'.toNat)
  else if 'a' ≤ char ∧ char ≤ 'f' then some (char.toNat - 'a'.toNat + 10)
  else if 'A' ≤ char ∧ char ≤ 'F' then some (char.toNat - 'A'.toNat + 10)
  else none

/-- The length of a text in bytes. -/
def byteLength (text : List Char) : Nat :=
  text.foldr (fun char length => char.utf8Size + length) 0

/-- The number written with four hexadecimal digits. -/
def hexUnit? (first second third fourth : Char) : Option Nat := do
  let first ← hexDigit? first
  let second ← hexDigit? second
  let third ← hexDigit? third
  let fourth ← hexDigit? fourth
  return ((first * 16 + second) * 16 + third) * 16 + fourth

/-- Reads four hexadecimal digits.  The text counts as ending too early only
if fewer than four bytes are left. -/
def readHexUnit : List Char → Except Failure (Nat × List Char)
  | first :: second :: third :: fourth :: rest =>
      match hexUnit? first second third fourth with
      | some unit => .ok (unit, rest)
      | none => .error .malformed
  | text => if byteLength text < 4 then .error .truncated else .error .malformed

theorem readHexUnit_length_lt {text rest : List Char} {unit : Nat}
    (read : readHexUnit text = .ok (unit, rest)) : rest.length < text.length := by
  unfold readHexUnit at read
  split at read
  · split at read
    · cases read
      simp only [List.length_cons]
      omega
    · cases read
  · split at read <;> cases read

def isLeadingSurrogate (unit : Nat) : Bool := 0xD800 ≤ unit && unit ≤ 0xDBFF

def isTrailingSurrogate (unit : Nat) : Bool := 0xDC00 ≤ unit && unit ≤ 0xDFFF

/-- The character beyond the basic plane that two surrogates stand for. -/
def joinSurrogates (leading trailing : Nat) : Char :=
  Char.ofNat (0x10000 + (leading - 0xD800) * 0x400 + (trailing - 0xDC00))

/-- Reads the second half of a surrogate pair. -/
def readTrailingSurrogate (leading : Nat) : List Char → Except Failure (Char × List Char)
  | [] => .error .truncated
  | ['\\'] => .error .truncated
  | '\\' :: 'u' :: text =>
      match readHexUnit text with
      | .error failure => .error failure
      | .ok (unit, rest) =>
          if isTrailingSurrogate unit then .ok (joinSurrogates leading unit, rest)
          else .error .malformed
  | _ => .error .malformed

theorem readTrailingSurrogate_length_lt {leading : Nat} {text rest : List Char} {char : Char}
    (read : readTrailingSurrogate leading text = .ok (char, rest)) :
    rest.length < text.length := by
  unfold readTrailingSurrogate at read
  split at read
  · cases read
  · cases read
  · split at read
    · cases read
    · next found =>
        split at read
        · simp only [Except.ok.injEq, Prod.mk.injEq] at read
          rw [← read.2]
          have shorter := readHexUnit_length_lt found
          simp only [List.length_cons]
          omega
        · cases read
  · cases read

/-- Reads what follows the backslash of an escape. -/
def readEscape : List Char → Except Failure (Char × List Char)
  | [] => .error .truncated
  | 'u' :: text =>
      match readHexUnit text with
      | .error failure => .error failure
      | .ok (unit, rest) =>
          if isTrailingSurrogate unit then .error .malformed
          else if isLeadingSurrogate unit then readTrailingSurrogate unit rest
          else .ok (Char.ofNat unit, rest)
  | char :: rest =>
      match shortEscape? char with
      | some escaped => .ok (escaped, rest)
      | none => .error .malformed

theorem readEscape_length_lt {text rest : List Char} {char : Char}
    (read : readEscape text = .ok (char, rest)) : rest.length < text.length := by
  unfold readEscape at read
  split at read
  · cases read
  · split at read
    · cases read
    · next found =>
        have shorter := readHexUnit_length_lt found
        simp only [List.length_cons]
        split at read
        · cases read
        · split at read
          · have pairShorter := readTrailingSurrogate_length_lt read
            omega
          · cases read
            omega
  · split at read
    · cases read
      simp only [List.length_cons]
      omega
    · cases read

/-- Reads a string up to its closing quote; the opening one has been read. -/
def readQuoted (text : List Char) : Except Failure (List Char × List Char) :=
  match text with
  | [] => .error .truncated
  | '"' :: rest => .ok ([], rest)
  | '\\' :: escape =>
      match _found : readEscape escape with
      | .error failure => .error failure
      | .ok (char, rest) =>
          match readQuoted rest with
          | .error failure => .error failure
          | .ok (chars, rest) => .ok (char :: chars, rest)
  | char :: rest =>
      if char < ' ' then .error .malformed
      else
        match readQuoted rest with
        | .error failure => .error failure
        | .ok (chars, rest) => .ok (char :: chars, rest)
termination_by text.length
decreasing_by
  · have shorter := readEscape_length_lt _found
    simp only [List.length_cons]
    omega
  · simp

theorem readQuoted_length_lt {text chars rest : List Char}
    (read : readQuoted text = .ok (chars, rest)) : rest.length < text.length := by
  fun_induction readQuoted text generalizing chars rest with
  | case1 => cases read
  | case2 rest => cases read; simp
  | case3 => cases read
  | case4 => cases read
  | case5 escape char afterEscape found chars afterQuote tail ih =>
      cases read
      have shorter := readEscape_length_lt found
      have shorterTail := ih tail
      simp only [List.length_cons]
      omega
  | case6 => cases read
  | case7 => cases read
  | case8 char text _ _ _ chars afterQuote tail ih =>
      cases read
      have shorterTail := ih tail
      simp only [List.length_cons]
      omega

/-- Passes over an escape.  A surrogate on its own is passed over as well. -/
def skipEscape : List Char → Except Failure (List Char)
  | [] => .error .truncated
  | 'u' :: text => (readHexUnit text).map (·.2)
  | char :: rest => if (shortEscape? char).isSome then .ok rest else .error .malformed

theorem skipEscape_length_lt {text rest : List Char}
    (skipped : skipEscape text = .ok rest) : rest.length < text.length := by
  unfold skipEscape at skipped
  split at skipped
  · cases skipped
  · next text =>
      cases found : readHexUnit text with
      | error failure => rw [found] at skipped; cases skipped
      | ok read =>
          rw [found] at skipped
          cases skipped
          have shorter : read.2.length < text.length := readHexUnit_length_lt found
          simp only [List.length_cons]
          omega
  · split at skipped
    · cases skipped
      simp
    · cases skipped

/-- Passes over a string; the opening quote has been read. -/
def skipQuoted (text : List Char) : Except Failure (List Char) :=
  match text with
  | [] => .error .truncated
  | '"' :: rest => .ok rest
  | '\\' :: escape =>
      match _found : skipEscape escape with
      | .error failure => .error failure
      | .ok rest => skipQuoted rest
  | char :: rest => if char < ' ' then .error .malformed else skipQuoted rest
termination_by text.length
decreasing_by
  · have shorter := skipEscape_length_lt _found
    simp only [List.length_cons]
    omega
  · simp

theorem skipQuoted_length_lt {text rest : List Char}
    (skipped : skipQuoted text = .ok rest) : rest.length < text.length := by
  fun_induction skipQuoted text with
  | case1 => cases skipped
  | case2 rest => cases skipped; simp
  | case3 => cases skipped
  | case4 escape afterEscape found ih =>
      have shorter := skipEscape_length_lt found
      have shorterTail := ih skipped
      simp only [List.length_cons]
      omega
  | case5 => cases skipped
  | case6 char text _ _ _ ih =>
      have shorterTail := ih skipped
      simp only [List.length_cons]
      omega

def hexDigit (value : Nat) : Char :=
  if value < 10 then Char.ofNat ('0'.toNat + value) else Char.ofNat ('a'.toNat + (value - 10))

/-- One character as it is written between quotes. -/
def escapeChar (char : Char) : List Char :=
  if char = '"' then ['\\', '"']
  else if char = '\\' then ['\\', '\\']
  else if char = '\x08' then ['\\', 'b']
  else if char = '\x0c' then ['\\', 'f']
  else if char = '\n' then ['\\', 'n']
  else if char = '\r' then ['\\', 'r']
  else if char = '\t' then ['\\', 't']
  else if char < ' ' then
    ['\\', 'u', '0', '0', hexDigit (char.toNat / 16), hexDigit (char.toNat % 16)]
  else [char]

/-- A string with its quotes. -/
def quote (chars : List Char) : List Char :=
  '"' :: chars.flatMap escapeChar ++ ['"']

end Tricolor.JsonText

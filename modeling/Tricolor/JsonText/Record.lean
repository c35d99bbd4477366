import Tricolor.JsonText.Scalar
import Tricolor.JsonText.Skip

/-!
# Reading records

A record is read from an object, whose members may come in any order, or from
an array that lists the fields in theirs.  What is not given keeps its default;
members that are no fields are passed over, and no field may be given twice.
-/

namespace Tricolor.JsonText

/-- A field of a record: its name, and how its value changes the record. -/
structure RecordField (σ : Type) where
  name : String
  reader : Reader (σ → σ)

/-- Describes a field by the reader of its value and by its assignment. -/
def RecordField.of (name : String) (reader : Reader α) (assign : α → σ → σ) : RecordField σ where
  name
  reader := reader.map assign

/-- The record read so far, and the names of the fields that were given. -/
structure Progress (σ : Type) where
  record : σ
  seen : List String := []

/-- Reads the value of a member, its name having been read. -/
def readMember (fields : List (RecordField σ)) (progress : Progress σ) (name : String)
    (text : List Char) : Except Failure (Progress σ × List Char) :=
  match fields.find? fun field => field.name == name with
  | none =>
      match readColon text with
      | .error failure => .error failure
      | .ok text =>
          match skipValue text with
          | .error failure => .error failure
          | .ok rest => .ok (progress, rest)
  | some field =>
      if name ∈ progress.seen then .error .mismatched
      else
        match readColon text with
        | .error failure => .error failure
        | .ok text =>
            match field.reader.read text with
            | .error failure => .error failure
            | .ok (change, rest) =>
                .ok ({ record := change progress.record, seen := name :: progress.seen }, rest)

theorem readMember_length_lt {fields : List (RecordField σ)} {progress after : Progress σ}
    {name : String} {text rest : List Char}
    (read : readMember fields progress name text = .ok (after, rest)) :
    rest.length < text.length := by
  unfold readMember at read
  split at read
  · split at read
    · cases read
    · next foundColon =>
        have colonShorter := readColon_length_lt foundColon
        split at read
        · cases read
        · next foundValue =>
            cases read
            have valueShorter := skipValue_length_le foundValue
            omega
  · next field _ =>
      split at read
      · cases read
      · split at read
        · cases read
        · next foundColon =>
            have colonShorter := readColon_length_lt foundColon
            split at read
            · cases read
            · next foundValue =>
                cases read
                have valueShorter := field.reader.shortens foundValue
                omega

/-- How an object or array goes on. -/
inductive Continuation where
  | item (rest : List Char)
  | close (rest : List Char)

def Continuation.rest : Continuation → List Char
  | .item rest => rest
  | .close rest => rest

/-- What comes after an opened object or after one of its members: the name of
a member, without its opening quote, or the end. -/
def nextMember (first : Bool) (text : List Char) : Except Failure Continuation :=
  match skipBlanks text with
  | [] => .error .truncated
  | '}' :: rest => .ok (.close rest)
  | '"' :: rest => if first then .ok (.item rest) else .error .malformed
  | ',' :: rest =>
      if first then .error .malformed
      else
        match skipBlanks rest with
        | [] => .error .truncated
        | '"' :: rest => .ok (.item rest)
        | _ => .error .malformed
  | _ => .error .malformed

theorem nextMember_length_lt {first : Bool} {text : List Char} {next : Continuation}
    (read : nextMember first text = .ok next) : next.rest.length < text.length := by
  unfold nextMember at read
  split at read
  · cases read
  · next blanks =>
      cases read
      exact length_lt_of_skipBlanks_eq_cons blanks
  · next blanks =>
      split at read
      · cases read
        exact length_lt_of_skipBlanks_eq_cons blanks
      · cases read
  · next blanks =>
      have shorter := length_lt_of_skipBlanks_eq_cons blanks
      split at read
      · cases read
      · split at read
        · cases read
        · next blanksAfter =>
            cases read
            have shorterAfter := length_lt_of_skipBlanks_eq_cons blanksAfter
            simp only [Continuation.rest]
            omega
        · cases read
  · cases read

/-- Reads the members of an object up to its closing brace. -/
def readMembers (fields : List (RecordField σ)) (first : Bool) (progress : Progress σ)
    (text : List Char) : Except Failure (σ × List Char) :=
  match _next : nextMember first text with
  | .error failure => .error failure
  | .ok (.close rest) => .ok (progress.record, rest)
  | .ok (.item quoted) =>
      match _name : readQuoted quoted with
      | .error failure => .error failure
      | .ok (name, afterName) =>
          match _member : readMember fields progress (String.ofList name) afterName with
          | .error failure => .error failure
          | .ok (progress, rest) => readMembers fields false progress rest
termination_by text.length
decreasing_by
  have nextShorter := nextMember_length_lt _next
  have nameShorter := readQuoted_length_lt _name
  have memberShorter := readMember_length_lt _member
  simp only [Continuation.rest] at nextShorter
  omega

theorem readMembers_length_lt {fields : List (RecordField σ)} {first : Bool} {progress : Progress σ}
    {text rest : List Char} {record : σ}
    (read : readMembers fields first progress text = .ok (record, rest)) :
    rest.length < text.length := by
  fun_induction readMembers fields first progress text with
  | case1 => cases read
  | case2 first progress text afterClose found =>
      cases read
      exact nextMember_length_lt found
  | case3 => cases read
  | case4 => cases read
  | case5 first progress text quoted foundNext name afterName foundName progressAfter afterMember
      foundMember ih =>
      have nextShorter := nextMember_length_lt foundNext
      have nameShorter := readQuoted_length_lt foundName
      have memberShorter := readMember_length_lt foundMember
      have tailShorter := ih read
      simp only [Continuation.rest] at nextShorter
      omega

/-- What comes after an opened array or after one of its elements: an element,
or the end. -/
def nextElement (first : Bool) (text : List Char) : Except Failure Continuation :=
  match skipBlanks text with
  | [] => .error .truncated
  | char :: rest =>
      if char = ']' then .ok (.close rest)
      else if first then .ok (.item (char :: rest))
      else if char = ',' then
        match skipBlanks rest with
        | [] => .error .truncated
        | char :: rest =>
            if char = ']' then .error .malformed else .ok (.item (char :: rest))
      else .error .malformed

theorem nextElement_length_le {first : Bool} {text : List Char} {next : Continuation}
    (read : nextElement first text = .ok next) : next.rest.length ≤ text.length := by
  unfold nextElement at read
  split at read
  · cases read
  · next blanks =>
      have shorter := length_lt_of_skipBlanks_eq_cons blanks
      split at read
      · cases read
        exact Nat.le_of_lt shorter
      · split at read
        · cases read
          exact shorter
        · split at read
          · split at read
            · cases read
            · next blanksAfter =>
                have shorterAfter := length_lt_of_skipBlanks_eq_cons blanksAfter
                split at read
                · cases read
                · cases read
                  simp only [Continuation.rest, List.length_cons]
                  omega
          · cases read

/-- Reads the closing bracket of an array that has given every field. -/
def readBracket (text : List Char) : Except Failure (List Char) :=
  match skipBlanks text with
  | [] => .error .truncated
  | ']' :: rest => .ok rest
  | _ => .error .malformed

/-- Reads the elements of an array, one for each field, up to its closing
bracket.  An array may end before all fields are given. -/
def readElements : List (RecordField σ) → (first : Bool) → σ → List Char →
    Except Failure (σ × List Char)
  | [], _, record, text =>
      match readBracket text with
      | .error failure => .error failure
      | .ok rest => .ok (record, rest)
  | field :: fields, first, record, text =>
      match nextElement first text with
      | .error failure => .error failure
      | .ok (.close rest) => .ok (record, rest)
      | .ok (.item text) =>
          match field.reader.read text with
          | .error failure => .error failure
          | .ok (change, rest) => readElements fields false (change record) rest

theorem readElements_length_le {fields : List (RecordField σ)} {first : Bool} {before record : σ}
    {text rest : List Char}
    (read : readElements fields first before text = .ok (record, rest)) :
    rest.length ≤ text.length := by
  induction fields generalizing first before text with
  | nil =>
      rw [readElements] at read
      split at read
      · cases read
      · next found =>
          cases read
          unfold readBracket at found
          split at found
          · cases found
          · next blanks =>
              cases found
              exact Nat.le_of_lt (length_lt_of_skipBlanks_eq_cons blanks)
          · cases found
  | cons field fields ih =>
      rw [readElements] at read
      split at read
      · cases read
      · next found =>
          cases read
          exact nextElement_length_le found
      · next foundNext =>
          have nextShorter := nextElement_length_le foundNext
          simp only [Continuation.rest] at nextShorter
          split at read
          · cases read
          · next foundValue =>
              have valueShorter := field.reader.shortens foundValue
              have tailShorter := ih read
              omega

def readRecord (fields : List (RecordField σ)) (defaults : σ) (text : List Char) :
    Except Failure (σ × List Char) :=
  match skipBlanks text with
  | '[' :: elements => readElements fields true defaults elements
  | '{' :: members => readMembers fields true { record := defaults } members
  | other => .error (misfit other)

/-- A record with the given fields, in their order, and default. -/
def record (fields : List (RecordField σ)) (defaults : σ) : Reader σ where
  read := readRecord fields defaults
  shortens := by
    intro text value rest read
    unfold readRecord at read
    split at read
    · next blanks =>
        have shorter := length_lt_of_skipBlanks_eq_cons blanks
        have elementsShorter := readElements_length_le read
        omega
    · next blanks =>
        have shorter := length_lt_of_skipBlanks_eq_cons blanks
        have membersShorter := readMembers_length_lt read
        omega
    · cases read

end Tricolor.JsonText

import Tricolor.JsonText.Quoted

/-!
# Writing JSON text

Values as this library writes them: numbers are counts, and the members of an
object keep the order in which they are listed.
-/

namespace Tricolor.JsonText

inductive Value where
  | null
  | number (value : Nat)
  | string (value : String)
  | list (items : List Value)
  | object (members : List (String × Value))
  deriving Repr

namespace Value

def ofOption (encode : α → Value) : Option α → Value
  | none => .null
  | some value => encode value

mutual

/-- The text of a value without any blanks. -/
def compact : Value → List Char
  | .null => ['n', 'u', 'l', 'l']
  | .number value => Nat.toDigits 10 value
  | .string value => quote value.toList
  | .list items => '[' :: compactItems items ++ [']']
  | .object members => '{' :: compactMembers members ++ ['}']

def compactItems : List Value → List Char
  | [] => []
  | [item] => item.compact
  | item :: next :: items => item.compact ++ ',' :: compactItems (next :: items)

def compactMembers : List (String × Value) → List Char
  | [] => []
  | [(name, value)] => quote name.toList ++ ':' :: value.compact
  | (name, value) :: next :: members =>
      quote name.toList ++ ':' :: value.compact ++ ',' :: compactMembers (next :: members)

end

/-- The start of a line that is indented to the given depth. -/
def lineBreak (depth : Nat) : List Char :=
  '\n' :: List.replicate (2 * depth) ' '

mutual

/-- The text of a value with every item and member on a line of its own, two
blanks further in than the brackets around it. -/
def pretty (depth : Nat) : Value → List Char
  | .null => ['n', 'u', 'l', 'l']
  | .number value => Nat.toDigits 10 value
  | .string value => quote value.toList
  | .list [] => ['[', ']']
  | .list (item :: items) =>
      '[' :: prettyItems (depth + 1) (item :: items) ++ lineBreak depth ++ [']']
  | .object [] => ['{', '}']
  | .object (member :: members) =>
      '{' :: prettyMembers (depth + 1) (member :: members) ++ lineBreak depth ++ ['}']

def prettyItems (depth : Nat) : List Value → List Char
  | [] => []
  | [item] => lineBreak depth ++ item.pretty depth
  | item :: next :: items =>
      lineBreak depth ++ item.pretty depth ++ ',' :: prettyItems depth (next :: items)

def prettyMembers (depth : Nat) : List (String × Value) → List Char
  | [] => []
  | [(name, value)] => lineBreak depth ++ quote name.toList ++ ':' :: ' ' :: value.pretty depth
  | (name, value) :: next :: members =>
      lineBreak depth ++ quote name.toList ++ ':' :: ' ' :: value.pretty depth ++
        ',' :: prettyMembers depth (next :: members)

end

end Value

end Tricolor.JsonText

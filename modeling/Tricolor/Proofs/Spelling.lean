import Tricolor.JsonText.Skip

/-!
# Values as they are written

A text of JSON is made of tokens with blanks around them, and its tokens are those of one
value.  Values are trees here whose leaves are kept as they are spelt: nothing is said yet of
what a numeral or a string stands for, so that a string may hold half a surrogate pair and a
numeral may be of any size.
-/

namespace Tricolor.JsonText

/-- What a string is made of between its quotes. -/
inductive Piece where
  /-- A character that stands for itself. -/
  | plain (char : Char) (proper : char ≠ '"' ∧ char ≠ '\\' ∧ ¬ char < ' ')
  /-- A backslash and a letter. -/
  | escape (letter char : Char) (proper : shortEscape? letter = some char)
  /-- A code unit written with four hexadecimal digits. -/
  | unit (first second third fourth : Char) (value : Nat)
      (proper : hexUnit? first second third fourth = some value)

def Piece.text : Piece → List Char
  | .plain char _ => [char]
  | .escape letter _ _ => ['\\', letter]
  | .unit first second third fourth _ _ => ['\\', 'u', first, second, third, fourth]

/-- The text of a string between its quotes. -/
def spell (pieces : List Piece) : List Char :=
  pieces.flatMap Piece.text

/-- The characters that a string stands for.  A surrogate on its own stands for nothing. -/
def meaning? : List Piece → Option (List Char)
  | [] => some []
  | .plain char _ :: pieces => (meaning? pieces).map (char :: ·)
  | .escape _ char _ :: pieces => (meaning? pieces).map (char :: ·)
  | .unit _ _ _ _ value _ :: pieces =>
      if isTrailingSurrogate value then none
      else if isLeadingSurrogate value then
        match pieces with
        | .unit _ _ _ _ trailing _ :: pieces =>
            if isTrailingSurrogate trailing then
              (meaning? pieces).map (joinSurrogates value trailing :: ·)
            else none
        | _ => none
      else (meaning? pieces).map (Char.ofNat value :: ·)

def IsDigits (digits : List Char) : Prop :=
  digits ≠ [] ∧ ∀ digit ∈ digits, digit.isDigit = true

/-- Digits without leading zeros. -/
structure IsWhole (digits : List Char) : Prop where
  proper : IsDigits digits
  unpadded : digits.head? = some '0' → digits.length = 1

inductive IsFraction : List Char → Prop
  | absent : IsFraction []
  | present {digits : List Char} (proper : IsDigits digits) : IsFraction ('.' :: digits)

inductive IsExponent : List Char → Prop
  | absent : IsExponent []
  | present {mark : Char} {sign digits : List Char} (marked : mark = 'e' ∨ mark = 'E')
      (signed : sign = [] ∨ sign = ['+'] ∨ sign = ['-']) (proper : IsDigits digits) :
      IsExponent (mark :: (sign ++ digits))

/-- A number of the grammar. -/
inductive IsNumeral : List Char → Prop
  | intro {sign whole fraction exponent : List Char} (signed : sign = [] ∨ sign = ['-'])
      (unpadded : IsWhole whole) (fractional : IsFraction fraction)
      (exponential : IsExponent exponent) :
      IsNumeral (sign ++ (whole ++ (fraction ++ exponent)))

inductive Word where
  | null
  | yes
  | no
  deriving DecidableEq, Repr

def Word.text : Word → List Char
  | .null => ['n', 'u', 'l', 'l']
  | .yes => ['t', 'r', 'u', 'e']
  | .no => ['f', 'a', 'l', 's', 'e']

def Bracket.opening : Bracket → Char
  | .array => '['
  | .object => '{'

inductive Token where
  | word (name : Word)
  | numeral (text : List Char) (proper : IsNumeral text)
  | quoted (pieces : List Piece)
  | comma
  | colon
  | opening (bracket : Bracket)
  | closing (bracket : Bracket)

def Token.text : Token → List Char
  | .word name => name.text
  | .numeral text _ => text
  | .quoted pieces => '"' :: (spell pieces ++ ['"'])
  | .comma => [',']
  | .colon => [':']
  | .opening bracket => [bracket.opening]
  | .closing bracket => [bracket.closing]

/-- A text is made of these tokens, with any blanks before, between and behind them. -/
inductive Spaced : List Token → List Char → Prop
  | nil {gap : List Char} (blank : ∀ char ∈ gap, isBlank char = true) : Spaced [] gap
  | cons {gap rest : List Char} {token : Token} {tokens : List Token}
      (blank : ∀ char ∈ gap, isBlank char = true) (later : Spaced tokens rest) :
      Spaced (token :: tokens) (gap ++ (token.text ++ rest))

/-- A value as it is written, apart from the blanks. -/
inductive Tree where
  | word (name : Word)
  | numeral (text : List Char) (proper : IsNumeral text)
  | quoted (pieces : List Piece)
  | array (items : List Tree)
  | object (members : List (List Piece × Tree))

/-- The name of a member, as it is spelt, and its value. -/
abbrev Member := List Piece × Tree

/-- What stands before an item or member. -/
def separator (first : Bool) : List Token :=
  if first then [] else [.comma]

mutual

def Tree.tokens : Tree → List Token
  | .word name => [.word name]
  | .numeral text proper => [.numeral text proper]
  | .quoted pieces => [.quoted pieces]
  | .array items => .opening .array :: itemTokens true items
  | .object members => .opening .object :: memberTokens true members

/-- What is left of an array after its opening bracket or after an item. -/
def itemTokens (first : Bool) : List Tree → List Token
  | [] => [.closing .array]
  | item :: items => separator first ++ item.tokens ++ itemTokens false items

/-- What is left of an object after its opening bracket or after a member. -/
def memberTokens (first : Bool) : List (List Piece × Tree) → List Token
  | [] => [.closing .object]
  | (name, value) :: members =>
      separator first ++ .quoted name :: .colon :: value.tokens ++ memberTokens false members

end

/-- The text is this value, with any blanks in and around it. -/
def Tree.Spells (tree : Tree) (text : String) : Prop :=
  Spaced tree.tokens text.toList

end Tricolor.JsonText

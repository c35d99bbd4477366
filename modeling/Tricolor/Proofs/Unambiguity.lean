import Tricolor.Proofs.Scanning

/-!
# One text, one value

Blanks apart, a text is cut into tokens in one way only, and its tokens are those of one value
at most.  So it makes sense to speak of the members of an object as it is written.
-/

namespace Tricolor.JsonText

variable {text rest rest' : List Char} {token token' : Token} {tokens tokens' : List Token}

/-! ## Tokens -/

theorem not_isBlank_of_isDigit {char : Char} (digit : char.isDigit = true) :
    isBlank char = false := by
  by_contra blank
  simp only [isBlank, Bool.or_eq_true, beq_iff_eq, Bool.not_eq_false] at blank
  obtain ((rfl | rfl) | rfl) | rfl := blank <;> exact absurd digit (by decide)

/-- The token that begins with a character, where the character alone tells. -/
def Token.ofHead? : Char → Option Token
  | 'n' => some (.word .null)
  | 't' => some (.word .yes)
  | 'f' => some (.word .no)
  | ',' => some .comma
  | ':' => some .colon
  | '[' => some (.opening .array)
  | '{' => some (.opening .object)
  | ']' => some (.closing .array)
  | '}' => some (.closing .object)
  | _ => none

theorem Token.ofHead?_eq_none {char : Char} (begins : char.isDigit = true ∨ char = '-') :
    ofHead? char = none := by
  unfold ofHead?
  split <;> first | rfl | exact absurd begins (by decide)

/-- How a token begins. -/
inductive Token.Begins : Token → Char → Prop
  | fixed {token : Token} {char : Char} (known : ofHead? char = some token) : Begins token char
  | quoted (pieces : List Piece) : Begins (.quoted pieces) '"'
  | numeral {text : List Char} (proper : IsNumeral text) {char : Char}
      (begins : char.isDigit = true ∨ char = '-') : Begins (.numeral text proper) char

theorem Token.exists_begins (token : Token) :
    ∃ char tail, token.text = char :: tail ∧ token.Begins char := by
  cases token with
  | word name => cases name <;> exact ⟨_, _, rfl, .fixed rfl⟩
  | numeral text proper =>
      obtain ⟨char, tail, spelt, begins⟩ := proper.exists_head
      exact ⟨char, tail, spelt, .numeral proper begins⟩
  | quoted pieces => exact ⟨'"', _, rfl, .quoted pieces⟩
  | comma => exact ⟨',', [], rfl, .fixed rfl⟩
  | colon => exact ⟨':', [], rfl, .fixed rfl⟩
  | opening bracket => cases bracket <;> exact ⟨_, [], rfl, .fixed rfl⟩
  | closing bracket => cases bracket <;> exact ⟨_, [], rfl, .fixed rfl⟩

theorem Token.Begins.visible {char : Char} (begins : token.Begins char) :
    isBlank char = false := by
  cases begins with
  | fixed known =>
      by_contra blank
      simp only [isBlank, Bool.or_eq_true, beq_iff_eq, Bool.not_eq_false] at blank
      obtain ((rfl | rfl) | rfl) | rfl := blank <;> cases known
  | quoted => rfl
  | numeral proper digit =>
      obtain digit | rfl := digit
      · exact not_isBlank_of_isDigit digit
      · rfl

/-- Where the first character tells, it tells the token. -/
theorem Token.Begins.eq_of_ofHead? {char : Char} (begins : token.Begins char)
    (known : ofHead? char = some token') : token = token' := by
  cases begins with
  | fixed found => simpa [found] using known
  | quoted => cases known
  | numeral proper digit => simp [ofHead?_eq_none digit] at known

theorem spaced_nil_iff : Spaced [] text ↔ skipBlanks text = [] := by
  rw [skipBlanks, List.dropWhile_eq_nil_iff]
  constructor
  · rintro ⟨blank⟩
    exact blank
  · exact .nil

/-- The first token is what comes behind the blanks. -/
theorem spaced_cons_iff :
    Spaced (token :: tokens) text ↔
      ∃ rest, skipBlanks text = token.text ++ rest ∧ Spaced tokens rest := by
  constructor
  · rintro (_ | ⟨blank, later⟩)
    refine ⟨_, ?_, later⟩
    obtain ⟨char, tail, spelt, begins⟩ := token.exists_begins
    rw [skipBlanks, List.dropWhile_append_of_pos blank, spelt, List.cons_append,
      List.dropWhile_cons_of_neg (by simp [begins.visible])]
  · rintro ⟨rest, skipped, later⟩
    have whole : text = text.takeWhile isBlank ++ (token.text ++ rest) := by
      rw [← skipped, skipBlanks, List.takeWhile_append_dropWhile]
    rw [whole]
    exact .cons (fun char member => List.mem_takeWhile_imp member) later

theorem exists_spaced (tokens : List Token) : ∃ text, Spaced tokens text := by
  induction tokens with
  | nil => exact ⟨[], .nil (by simp)⟩
  | cons token tokens induction =>
      obtain ⟨rest, later⟩ := induction
      exact ⟨[] ++ (token.text ++ rest), .cons (by simp) later⟩

/-- A value is complete before these tokens. -/
def Stops (tokens : List Token) : Prop :=
  ∀ token ∈ tokens.head?, token = .comma ∨ ∃ bracket, token = .closing bracket

theorem stops_nil : Stops [] := by simp [Stops]

theorem stops_comma (tokens : List Token) : Stops (.comma :: tokens) := by simp [Stops]

theorem stops_closing (bracket : Bracket) (tokens : List Token) :
    Stops (.closing bracket :: tokens) := by simp [Stops]

/-- Blanks, a comma or a closing bracket continue no numeral. -/
theorem Stops.ends (stops : Stops tokens) (later : Spaced tokens rest) : Ends rest := by
  intro char first
  by_cases blank : isBlank char = true
  · simp only [isBlank, Bool.or_eq_true, beq_iff_eq] at blank
    obtain ((rfl | rfl) | rfl) | rfl := blank <;> decide
  · have unskipped : skipBlanks rest = rest := by
      cases rest with
      | nil => rfl
      | cons head tail =>
          cases first
          exact List.dropWhile_cons_of_neg (by simpa using blank)
    cases tokens with
    | nil =>
        rw [spaced_nil_iff, unskipped] at later
        simp [later] at first
    | cons token tokens =>
        obtain ⟨tail, spelt, _⟩ := spaced_cons_iff.mp later
        rw [unskipped] at spelt
        obtain rfl | ⟨bracket, rfl⟩ := stops token rfl
        · obtain rfl : char = ',' := by simpa [spelt, Token.text, eq_comm] using first
          decide
        · cases bracket
          · obtain rfl : char = ']' := by
              simpa [spelt, Token.text, Bracket.closing, eq_comm] using first
            decide
          · obtain rfl : char = '}' := by
              simpa [spelt, Token.text, Bracket.closing, eq_comm] using first
            decide

/-- The first character of a piece tells a backslash from what stands for itself, and the
second an escape by letter from one by code unit. -/
theorem Piece.unique {piece piece' : Piece} (same : piece.text ++ rest = piece'.text ++ rest') :
    piece = piece' ∧ rest = rest' := by
  cases piece with
  | plain char proper =>
      cases piece' with
      | plain => simpa [Piece.text] using same
      | escape => simp [Piece.text, proper.2.1] at same
      | unit => simp [Piece.text, proper.2.1] at same
  | escape letter char proper =>
      cases piece' with
      | plain _ proper' => simp [Piece.text, proper'.2.1.symm] at same
      | escape letter' char' proper' =>
          simp only [Piece.text, List.cons_append, List.nil_append, List.cons.injEq, true_and]
            at same
          obtain ⟨rfl, rfl⟩ := same
          obtain rfl : char = char' := by simpa [proper] using proper'
          exact ⟨rfl, rfl⟩
      | unit =>
          simp only [Piece.text, List.cons_append, List.cons.injEq] at same
          obtain ⟨-, rfl, -⟩ := same
          cases proper
  | unit a b c d value proper =>
      cases piece' with
      | plain _ proper' => simp [Piece.text, proper'.2.1.symm] at same
      | escape _ _ proper' =>
          simp only [Piece.text, List.cons_append, List.cons.injEq] at same
          obtain ⟨-, rfl, -⟩ := same
          cases proper'
      | unit a' b' c' d' value' proper' =>
          simp only [Piece.text, List.cons_append, List.nil_append, List.cons.injEq, true_and]
            at same
          obtain ⟨rfl, rfl, rfl, rfl, rfl⟩ := same
          obtain rfl : value = value' := by simpa [proper] using proper'
          exact ⟨rfl, rfl⟩

theorem Piece.head_ne_quote (piece : Piece) : piece.text ++ rest ≠ '"' :: rest' := by
  cases piece with
  | plain char proper => simp [Piece.text, proper.1]
  | escape => simp [Piece.text]
  | unit => simp [Piece.text]

theorem spell_unique {pieces pieces' : List Piece}
    (same : spell pieces ++ '"' :: rest = spell pieces' ++ '"' :: rest') :
    pieces = pieces' ∧ rest = rest' := by
  induction pieces generalizing pieces' with
  | nil =>
      cases pieces' with
      | nil => simpa using same
      | cons piece' pieces' =>
          rw [spell_cons, List.append_assoc] at same
          exact absurd same.symm piece'.head_ne_quote
  | cons piece pieces induction =>
      cases pieces' with
      | nil =>
          rw [spell_cons, List.append_assoc] at same
          exact absurd same piece.head_ne_quote
      | cons piece' pieces' =>
          rw [spell_cons, spell_cons, List.append_assoc, List.append_assoc] at same
          obtain ⟨rfl, sameLater⟩ := Piece.unique same
          obtain ⟨rfl, rfl⟩ := induction sameLater
          exact ⟨rfl, rfl⟩

theorem numeral_unique {text' : List Char} (proper : IsNumeral text) (proper' : IsNumeral text')
    (ends : Ends rest) (ends' : Ends rest') (same : text ++ rest = text' ++ rest') :
    text = text' ∧ rest = rest' := by
  obtain ⟨_, read, _⟩ := proper.readNumeral_append ends
  obtain ⟨_, read', _⟩ := proper'.readNumeral_append ends'
  rw [same, read'] at read
  obtain rfl : rest' = rest := congrArg Prod.snd (Except.ok.inj read)
  exact ⟨List.append_cancel_right same, rfl⟩

def Token.isNumeral : Token → Bool
  | .numeral _ _ => true
  | _ => false

theorem Token.unique (same : token.text ++ rest = token'.text ++ rest')
    (ends : token.isNumeral = true → Ends rest) (ends' : token'.isNumeral = true → Ends rest') :
    token = token' ∧ rest = rest' := by
  obtain ⟨char, tail, spelt, begins⟩ := token.exists_begins
  obtain ⟨char', tail', spelt', begins'⟩ := token'.exists_begins
  obtain rfl : char = char' := by
    rw [spelt, spelt'] at same
    exact (List.cons.inj same).1
  cases begins with
  | fixed known =>
      cases begins' with
      | fixed known' =>
          obtain rfl : token = token' := by simpa [known] using known'
          exact ⟨rfl, List.append_cancel_left same⟩
      | quoted => cases known
      | numeral _ digit => simp [ofHead?_eq_none digit] at known
  | quoted pieces =>
      cases begins' with
      | fixed known' => cases known'
      | quoted pieces' =>
          obtain ⟨rfl, rfl⟩ := spell_unique (by simpa [Token.text] using same)
          exact ⟨rfl, rfl⟩
      | numeral _ digit => exact absurd digit (by decide)
  | numeral proper digit =>
      cases begins' with
      | fixed known' => simp [ofHead?_eq_none digit] at known'
      | quoted => exact absurd digit (by decide)
      | numeral proper' _ =>
          obtain ⟨rfl, rfl⟩ := numeral_unique proper proper' (ends rfl) (ends' rfl) same
          exact ⟨rfl, rfl⟩

/-- Where two ways of cutting up a text begin with the same token, they go on with the same
text. -/
theorem spaced_cons_unique (spaced : Spaced (token :: tokens) text)
    (spaced' : Spaced (token' :: tokens') text)
    (stops : token.isNumeral = true → Stops tokens)
    (stops' : token'.isNumeral = true → Stops tokens') :
    token = token' ∧ ∃ rest, Spaced tokens rest ∧ Spaced tokens' rest := by
  obtain ⟨rest, skipped, later⟩ := spaced_cons_iff.mp spaced
  obtain ⟨rest', skipped', later'⟩ := spaced_cons_iff.mp spaced'
  obtain ⟨rfl, rfl⟩ := Token.unique (skipped.symm.trans skipped')
    (fun numeral => (stops numeral).ends later) (fun numeral => (stops' numeral).ends later')
  exact ⟨rfl, rest, later, later'⟩

/-! ## Values -/

theorem stops_itemTokens (items : List Tree) (tokens : List Token) :
    Stops (itemTokens false items ++ tokens) := by
  cases items with
  | nil => exact stops_closing _ _
  | cons => exact stops_comma _

theorem stops_memberTokens (members : List Member) (tokens : List Token) :
    Stops (memberTokens false members ++ tokens) := by
  cases members with
  | nil => exact stops_closing _ _
  | cons => exact stops_comma _

/-- The first token of a value. -/
def Tree.root : Tree → Token
  | .word name => .word name
  | .numeral text proper => .numeral text proper
  | .quoted pieces => .quoted pieces
  | .array _ => .opening .array
  | .object _ => .opening .object

/-- The tokens of a value behind the first one. -/
def Tree.branches : Tree → List Token
  | .array items => itemTokens true items
  | .object members => memberTokens true members
  | _ => []

theorem Tree.tokens_eq (tree : Tree) : tree.tokens = tree.root :: tree.branches := by
  cases tree <;> rfl

theorem Tree.stops_branches {tree : Tree} (stops : Stops tokens)
    (numeral : tree.root.isNumeral = true) : Stops (tree.branches ++ tokens) := by
  cases tree with
  | numeral => exact stops
  | word => cases numeral
  | quoted => cases numeral
  | array => cases numeral
  | object => cases numeral

/-- A value does not begin with a closing bracket. -/
theorem Tree.exists_head {tree : Tree} (spaced : Spaced (tree.tokens ++ tokens) text) :
    ∃ char tail, skipBlanks text = char :: tail ∧ ∀ bracket : Bracket, char ≠ bracket.closing := by
  rw [tree.tokens_eq, List.cons_append] at spaced
  obtain ⟨rest, skipped, -⟩ := spaced_cons_iff.mp spaced
  obtain ⟨char, tail, spelt, begins⟩ := tree.root.exists_begins
  refine ⟨char, tail ++ rest, by rw [skipped, spelt]; rfl, fun bracket same => ?_⟩
  have closes : tree.root = .closing bracket :=
    begins.eq_of_ofHead? (by rw [same]; cases bracket <;> rfl)
  cases tree <;> cases closes

theorem not_spaced_closing {tree : Tree} {bracket : Bracket}
    (spaced : Spaced (tree.tokens ++ tokens) text) :
    ¬ Spaced (.closing bracket :: tokens') text := by
  intro closed
  obtain ⟨char, tail, skipped, other⟩ := Tree.exists_head spaced
  obtain ⟨rest, skipped', -⟩ := spaced_cons_iff.mp closed
  rw [skipped] at skipped'
  exact other bracket (List.cons.inj skipped').1

/-- Behind the comma, or where none is needed, both go on with the same text. -/
theorem separator_unique {first : Bool} (spaced : Spaced (separator first ++ tokens) text)
    (spaced' : Spaced (separator first ++ tokens') text) :
    ∃ rest, Spaced tokens rest ∧ Spaced tokens' rest := by
  cases first with
  | true => exact ⟨text, spaced, spaced'⟩
  | false => exact (spaced_cons_unique spaced spaced' nofun nofun).2

theorem itemTokens_cons (first : Bool) (item : Tree) (items : List Tree) (tokens : List Token) :
    itemTokens first (item :: items) ++ tokens =
      separator first ++ (item.tokens ++ (itemTokens false items ++ tokens)) := by
  simp [itemTokens]

theorem memberTokens_cons (first : Bool) (name : List Piece) (value : Tree)
    (members : List Member) (tokens : List Token) :
    memberTokens first ((name, value) :: members) ++ tokens =
      separator first ++
        .quoted name :: .colon :: (value.tokens ++ (memberTokens false members ++ tokens)) := by
  simp [memberTokens]

theorem not_spaced_items_nil {first : Bool} {item : Tree} {items : List Tree}
    (spaced : Spaced (itemTokens first (item :: items) ++ tokens) text) :
    ¬ Spaced (itemTokens first [] ++ tokens') text := by
  rw [itemTokens_cons] at spaced
  cases first with
  | true => exact not_spaced_closing spaced
  | false => exact fun closed => nomatch (spaced_cons_unique spaced closed nofun nofun).1

theorem not_spaced_members_nil {first : Bool} {member : Member} {members : List Member}
    (spaced : Spaced (memberTokens first (member :: members) ++ tokens) text) :
    ¬ Spaced (memberTokens first [] ++ tokens') text := by
  rw [memberTokens_cons] at spaced
  cases first with
  | true => exact fun closed => nomatch (spaced_cons_unique spaced closed nofun nofun).1
  | false => exact fun closed => nomatch (spaced_cons_unique spaced closed nofun nofun).1

mutual

/-- Two values that begin at the same place of a text are the same, and end at the same
place. -/
theorem Tree.unique (tree tree' : Tree) {tokens tokens' : List Token} {text : List Char}
    (stops : Stops tokens) (stops' : Stops tokens')
    (spaced : Spaced (tree.tokens ++ tokens) text)
    (spaced' : Spaced (tree'.tokens ++ tokens') text) :
    tree = tree' ∧ ∃ rest, Spaced tokens rest ∧ Spaced tokens' rest := by
  rw [tree.tokens_eq, List.cons_append] at spaced
  rw [tree'.tokens_eq, List.cons_append] at spaced'
  obtain ⟨same, rest, later, later'⟩ := spaced_cons_unique spaced spaced'
    (Tree.stops_branches stops) (Tree.stops_branches stops')
  cases tree with
  | word name =>
      cases tree' <;> cases same
      exact ⟨rfl, rest, later, later'⟩
  | numeral text proper =>
      cases tree' <;> cases same
      exact ⟨rfl, rest, later, later'⟩
  | quoted pieces =>
      cases tree' <;> cases same
      exact ⟨rfl, rest, later, later'⟩
  | array items =>
      cases tree' <;> cases same
      obtain ⟨rfl, left⟩ := items_unique items _ later later'
      exact ⟨rfl, left⟩
  | object members =>
      cases tree' <;> cases same
      obtain ⟨rfl, left⟩ := members_unique members _ later later'
      exact ⟨rfl, left⟩

theorem items_unique (items items' : List Tree) {first : Bool} {tokens tokens' : List Token}
    {text : List Char} (spaced : Spaced (itemTokens first items ++ tokens) text)
    (spaced' : Spaced (itemTokens first items' ++ tokens') text) :
    items = items' ∧ ∃ rest, Spaced tokens rest ∧ Spaced tokens' rest := by
  cases items with
  | nil =>
      cases items' with
      | nil => exact ⟨rfl, (spaced_cons_unique spaced spaced' nofun nofun).2⟩
      | cons => exact absurd spaced (not_spaced_items_nil spaced')
  | cons item items =>
      cases items' with
      | nil => exact absurd spaced' (not_spaced_items_nil spaced)
      | cons item' items' =>
          rw [itemTokens_cons] at spaced spaced'
          obtain ⟨_, begun, begun'⟩ := separator_unique spaced spaced'
          obtain ⟨rfl, _, later, later'⟩ := item.unique item'
            (stops_itemTokens items tokens) (stops_itemTokens items' tokens') begun begun'
          obtain ⟨rfl, left⟩ := items_unique items items' later later'
          exact ⟨rfl, left⟩

theorem members_unique (members members' : List (List Piece × Tree)) {first : Bool}
    {tokens tokens' : List Token} {text : List Char}
    (spaced : Spaced (memberTokens first members ++ tokens) text)
    (spaced' : Spaced (memberTokens first members' ++ tokens') text) :
    members = members' ∧ ∃ rest, Spaced tokens rest ∧ Spaced tokens' rest := by
  cases members with
  | nil =>
      cases members' with
      | nil => exact ⟨rfl, (spaced_cons_unique spaced spaced' nofun nofun).2⟩
      | cons => exact absurd spaced (not_spaced_members_nil spaced')
  | cons member members =>
      cases members' with
      | nil => exact absurd spaced' (not_spaced_members_nil spaced)
      | cons member' members' =>
          obtain ⟨name, value⟩ := member
          obtain ⟨name', value'⟩ := member'
          rw [memberTokens_cons] at spaced spaced'
          obtain ⟨_, begun, begun'⟩ := separator_unique spaced spaced'
          obtain ⟨sameName, _, named, named'⟩ := spaced_cons_unique begun begun' nofun nofun
          obtain ⟨_, _, valued, valued'⟩ := spaced_cons_unique named named' nofun nofun
          obtain ⟨rfl, _, later, later'⟩ := value.unique value'
            (stops_memberTokens members tokens) (stops_memberTokens members' tokens')
            valued valued'
          obtain ⟨rfl, left⟩ := members_unique members members' later later'
          cases sameName
          exact ⟨rfl, left⟩

end

/-- A text is one value in one way. -/
theorem Tree.eq_of_spaced {tree tree' : Tree} (spaced : Spaced tree.tokens text)
    (spaced' : Spaced tree'.tokens text) : tree = tree' :=
  (tree.unique tree' stops_nil stops_nil (by simpa using spaced) (by simpa using spaced')).1

end Tricolor.JsonText

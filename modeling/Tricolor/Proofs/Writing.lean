import Tricolor.JsonText.Value
import Tricolor.Proofs.RecordMeaning

/-!
# Values as they are written out

What is written for a value, compactly or over several lines, is made of the tokens of a tree
that keeps every number and string of it.
-/

namespace Tricolor.JsonText

variable {chars text rest : List Char} {tokens : List Token} {first : Bool}

/-! ## Strings -/

theorem hexDigit?_hexDigit : ∀ value < 16, hexDigit? (hexDigit value) = some value := by
  decide

theorem hexUnit?_hexDigit {value : Nat} (small : value < 256) :
    hexUnit? '0' '0' (hexDigit (value / 16)) (hexDigit (value % 16)) = some value := by
  have zero : hexDigit? '0' = some 0 := rfl
  simp [hexUnit?, zero, hexDigit?_hexDigit (value / 16) (by omega),
    hexDigit?_hexDigit (value % 16) (by omega), Nat.div_add_mod']

theorem toNat_lt_of_lt_blank {char : Char} (control : char < ' ') : char.toNat < 32 := by
  simpa [Char.lt_def, UInt32.lt_iff_toNat_lt] using control

/-- The piece that a character is written as. -/
def Piece.ofChar (char : Char) : Piece :=
  if quoted : char = '"' then .escape '"' char (by simp [quoted, shortEscape?])
  else if backslash : char = '\\' then .escape '\\' char (by simp [backslash, shortEscape?])
  else if backspace : char = '\x08' then .escape 'b' char (by simp [backspace, shortEscape?])
  else if feed : char = '\x0c' then .escape 'f' char (by simp [feed, shortEscape?])
  else if line : char = '\n' then .escape 'n' char (by simp [line, shortEscape?])
  else if back : char = '\r' then .escape 'r' char (by simp [back, shortEscape?])
  else if tab : char = '\t' then .escape 't' char (by simp [tab, shortEscape?])
  else if control : char < ' ' then
    .unit '0' '0' (hexDigit (char.toNat / 16)) (hexDigit (char.toNat % 16)) char.toNat
      (hexUnit?_hexDigit (Nat.lt_trans (toNat_lt_of_lt_blank control) (by decide)))
  else .plain char ⟨quoted, backslash, control⟩

theorem Piece.text_ofChar (char : Char) : (Piece.ofChar char).text = escapeChar char := by
  unfold Piece.ofChar escapeChar
  split_ifs <;> rfl

theorem meaning?_ofChar (char : Char) (pieces : List Piece) :
    meaning? (Piece.ofChar char :: pieces) = (meaning? pieces).map (char :: ·) := by
  unfold Piece.ofChar
  split_ifs with _ _ _ _ _ _ _ control
  any_goals rfl
  have small := toNat_lt_of_lt_blank control
  have notTrailing : ¬ isTrailingSurrogate char.toNat = true := by
    simp [isTrailingSurrogate]
    omega
  have notLeading : ¬ isLeadingSurrogate char.toNat = true := by
    simp [isLeadingSurrogate]
    omega
  rw [meaning?_unit _ notTrailing notLeading, Char.ofNat_toNat]

/-- The pieces that a string is written as. -/
def piecesOf (chars : List Char) : List Piece :=
  chars.map Piece.ofChar

theorem spell_piecesOf (chars : List Char) : spell (piecesOf chars) = chars.flatMap escapeChar := by
  simp [spell, piecesOf, List.flatMap_map, Piece.text_ofChar]

theorem meaning?_piecesOf (chars : List Char) : meaning? (piecesOf chars) = some chars := by
  induction chars with
  | nil => rfl
  | cons char chars induction =>
      rw [piecesOf, List.map_cons, meaning?_ofChar, ← piecesOf, induction]
      rfl

/-! ## Numbers -/

theorem isDigits_toDigits (value : Nat) : IsDigits (Nat.toDigits 10 value) :=
  ⟨Nat.toDigits_ne_nil, fun _ among => Nat.isDigit_of_mem_toDigits (by decide) (by decide) among⟩

theorem digitChar_ne_zero : ∀ value < 10, 0 < value → value.digitChar ≠ '0' := by
  decide

theorem head?_toDigits_ne_zero {value : Nat} (positive : 0 < value) :
    (Nat.toDigits 10 value).head? ≠ some '0' := by
  induction value using Nat.strongRecOn with
  | ind value induction =>
      rcases Nat.lt_or_ge value 10 with small | large
      · simpa [Nat.toDigits_of_lt_base small] using digitChar_ne_zero value small positive
      · obtain ⟨digit, digits, split⟩ :=
          List.exists_cons_of_ne_nil (Nat.toDigits_ne_nil (n := value / 10) (b := 10))
        have first := induction (value / 10) (by omega) (by omega)
        rw [split] at first
        simpa [Nat.toDigits_of_base_le (b := 10) (by decide) large, split] using first

theorem isNumeral_toDigits (value : Nat) : IsNumeral (Nat.toDigits 10 value) := by
  have whole : IsWhole (Nat.toDigits 10 value) := by
    refine ⟨isDigits_toDigits value, fun padded => ?_⟩
    rcases Nat.eq_zero_or_pos value with rfl | positive
    · rfl
    · exact absurd padded (head?_toDigits_ne_zero positive)
  simpa using IsNumeral.intro (.inl rfl) whole .absent .absent

/-! ## Values -/

mutual

/-- What is written for a value, apart from the blanks. -/
def Value.tree : Value → Tree
  | .null => .word .null
  | .number value => .numeral (Nat.toDigits 10 value) (isNumeral_toDigits value)
  | .string value => .quoted (piecesOf value.toList)
  | .list items => .array (itemTrees items)
  | .object members => .object (memberTrees members)

def itemTrees : List Value → List Tree
  | [] => []
  | item :: items => item.tree :: itemTrees items

def memberTrees : List (String × Value) → List Member
  | [] => []
  | (name, value) :: members => (piecesOf name.toList, value.tree) :: memberTrees members

end

theorem spaced_nothing : Spaced [] [] :=
  .nil (List.forall_mem_nil _)

theorem spaced_token (token : Token) (later : Spaced tokens rest) :
    Spaced (token :: tokens) (token.text ++ rest) :=
  @Spaced.cons [] _ _ _ (by simp) later

theorem spaced_quote (chars : List Char) (later : Spaced tokens rest) :
    Spaced (.quoted (piecesOf chars) :: tokens) (quote chars ++ rest) := by
  have spelt : quote chars = (Token.quoted (piecesOf chars)).text := by
    simp [quote, Token.text, spell_piecesOf]
  rw [spelt]
  exact spaced_token _ later

mutual

theorem Value.compact_spaced (value : Value) {tokens : List Token} {rest : List Char}
    (later : Spaced tokens rest) :
    Spaced (value.tree.tokens ++ tokens) (value.compact ++ rest) := by
  cases value with
  | null => exact spaced_token _ later
  | number value => exact spaced_token _ later
  | string value => exact spaced_quote _ later
  | list items =>
      have spaced := spaced_token (.opening .array)
        (compactItems_spaced items (spaced_token (.closing .array) later))
      simpa [Value.tree, Value.compact, Tree.tokens, Token.text, Bracket.opening, Bracket.closing]
        using spaced
  | object members =>
      have spaced := spaced_token (.opening .object)
        (compactMembers_spaced members (spaced_token (.closing .object) later))
      simpa [Value.tree, Value.compact, Tree.tokens, Token.text, Bracket.opening, Bracket.closing]
        using spaced

theorem compactItems_spaced (items : List Value) {tokens : List Token} {rest : List Char}
    (closed : Spaced (.closing .array :: tokens) rest) :
    Spaced (itemTokens true (itemTrees items) ++ tokens) (Value.compactItems items ++ rest) := by
  match items with
  | [] => exact closed
  | [item] =>
      have spaced := item.compact_spaced closed
      simpa [itemTrees, itemTokens, separator, Value.compactItems] using spaced
  | item :: next :: items =>
      have spaced := item.compact_spaced
        (spaced_token .comma (compactItems_spaced (next :: items) closed))
      simpa [itemTrees, itemTokens, separator, Value.compactItems, Token.text] using spaced

theorem compactMembers_spaced (members : List (String × Value)) {tokens : List Token}
    {rest : List Char} (closed : Spaced (.closing .object :: tokens) rest) :
    Spaced (memberTokens true (memberTrees members) ++ tokens)
      (Value.compactMembers members ++ rest) := by
  match members with
  | [] => exact closed
  | [(name, value)] =>
      have spaced := spaced_quote name.toList
        (spaced_token .colon (value.compact_spaced closed))
      simpa [memberTrees, memberTokens, separator, Value.compactMembers, Token.text] using spaced
  | (name, value) :: next :: members =>
      have spaced := spaced_quote name.toList
        (spaced_token .colon (value.compact_spaced
          (spaced_token .comma (compactMembers_spaced (next :: members) closed))))
      simpa [memberTrees, memberTokens, separator, Value.compactMembers, Token.text] using spaced

end

theorem Spaced.indent {gap : List Char} (spaced : Spaced tokens text)
    (blank : ∀ char ∈ gap, isBlank char = true) : Spaced tokens (gap ++ text) := by
  cases spaced with
  | nil more => exact .nil (List.forall_mem_append.mpr ⟨blank, more⟩)
  | cons more later =>
      rw [← List.append_assoc]
      exact .cons (List.forall_mem_append.mpr ⟨blank, more⟩) later

theorem spaced_lineBreak (depth : Nat) (spaced : Spaced tokens text) :
    Spaced tokens (Value.lineBreak depth ++ text) := by
  refine spaced.indent ?_
  simp [Value.lineBreak, isBlank]

theorem spaced_blank (spaced : Spaced tokens text) : Spaced tokens (' ' :: text) :=
  Spaced.indent spaced (by simp [isBlank] : ∀ char ∈ [' '], isBlank char = true)

mutual

theorem Value.pretty_spaced (value : Value) (depth : Nat) {tokens : List Token}
    {rest : List Char} (later : Spaced tokens rest) :
    Spaced (value.tree.tokens ++ tokens) (value.pretty depth ++ rest) := by
  match value with
  | .null => exact spaced_token _ later
  | .number value => exact spaced_token _ later
  | .string value => exact spaced_quote _ later
  | .list [] =>
      have spaced := spaced_token (.opening .array) (spaced_token (.closing .array) later)
      simpa [Value.tree, itemTrees, Value.pretty, Tree.tokens, itemTokens, Token.text,
        Bracket.opening, Bracket.closing] using spaced
  | .list (item :: items) =>
      have spaced := spaced_token (.opening .array)
        (prettyItems_spaced (item :: items) (depth + 1)
          (spaced_lineBreak depth (spaced_token (.closing .array) later)))
      simpa [Value.tree, Value.pretty, Tree.tokens, Token.text, Bracket.opening, Bracket.closing]
        using spaced
  | .object [] =>
      have spaced := spaced_token (.opening .object) (spaced_token (.closing .object) later)
      simpa [Value.tree, memberTrees, Value.pretty, Tree.tokens, memberTokens, Token.text,
        Bracket.opening, Bracket.closing] using spaced
  | .object (member :: members) =>
      have spaced := spaced_token (.opening .object)
        (prettyMembers_spaced (member :: members) (depth + 1)
          (spaced_lineBreak depth (spaced_token (.closing .object) later)))
      simpa [Value.tree, Value.pretty, Tree.tokens, Token.text, Bracket.opening, Bracket.closing]
        using spaced

theorem prettyItems_spaced (items : List Value) (depth : Nat) {tokens : List Token}
    {rest : List Char} (closed : Spaced (.closing .array :: tokens) rest) :
    Spaced (itemTokens true (itemTrees items) ++ tokens)
      (Value.prettyItems depth items ++ rest) := by
  match items with
  | [] => exact closed
  | [item] =>
      have spaced := spaced_lineBreak depth (item.pretty_spaced depth closed)
      simpa [itemTrees, itemTokens, separator, Value.prettyItems] using spaced
  | item :: next :: items =>
      have spaced := spaced_lineBreak depth (item.pretty_spaced depth
        (spaced_token .comma (prettyItems_spaced (next :: items) depth closed)))
      simpa [itemTrees, itemTokens, separator, Value.prettyItems, Token.text] using spaced

theorem prettyMembers_spaced (members : List (String × Value)) (depth : Nat)
    {tokens : List Token} {rest : List Char} (closed : Spaced (.closing .object :: tokens) rest) :
    Spaced (memberTokens true (memberTrees members) ++ tokens)
      (Value.prettyMembers depth members ++ rest) := by
  match members with
  | [] => exact closed
  | [(name, value)] =>
      have spaced := spaced_lineBreak depth (spaced_quote name.toList
        (spaced_token .colon (spaced_blank (value.pretty_spaced depth closed))))
      simpa [memberTrees, memberTokens, separator, Value.prettyMembers, Token.text] using spaced
  | (name, value) :: next :: members =>
      have spaced := spaced_lineBreak depth (spaced_quote name.toList
        (spaced_token .colon (spaced_blank (value.pretty_spaced depth
          (spaced_token .comma (prettyMembers_spaced (next :: members) depth closed))))))
      simpa [memberTrees, memberTokens, separator, Value.prettyMembers, Token.text] using spaced

end

theorem Value.spells_compact (value : Value) : value.tree.Spells (String.ofList value.compact) := by
  simpa [Tree.Spells] using value.compact_spaced spaced_nothing

theorem Value.spells_pretty (value : Value) (depth : Nat) :
    value.tree.Spells (String.ofList (value.pretty depth)) := by
  simpa [Tree.Spells] using value.pretty_spaced depth spaced_nothing

/-! ## What is written means the same -/

theorem isCount_number {value : Nat} (small : value ≤ maxCount) :
    (Value.number value).tree.IsCount value := by
  have digits : Nat.ofDigitChars 10 (Nat.toDigits 10 value) 0 = value :=
    Nat.ofDigitChars_toDigits (by decide) (by decide)
  have count := @Tree.IsCount.digits _ (isNumeral_toDigits value) (isDigits_toDigits value).2
    (by rwa [digits])
  rwa [digits] at count

theorem isString_string (value : String) : (Value.string value).tree.IsString value := by
  have means := Tree.IsString.quoted (meaning?_piecesOf value.toList)
  rwa [String.ofList_toList] at means

theorem isOptionalString_ofOption (value : Option String) :
    (Value.ofOption .string value).tree.IsOptionalString value := by
  cases value with
  | none => exact .absent
  | some value => exact .given (isString_string value)

/-- The members of an object give their values under their names. -/
theorem gives_memberTrees (members : List (String × Value)) :
    List.Forall₂ Member.Gives (memberTrees members)
      (members.map fun member => (member.1, member.2.tree)) := by
  induction members with
  | nil => exact .nil
  | cons member members induction =>
      exact .cons ⟨meaning?_piecesOf member.1.toList, rfl⟩ induction

/-- A value that means something is read for it, however it is written. -/
theorem Reader.Denotes.readAll_written {α : Type} {reader : Reader α}
    {means : Tree → α → Prop} {result : α} (denotes : reader.Denotes means) {written : Value}
    (meant : means written.tree result) :
    reader.readAll written.compact = .ok result ∧
      ∀ depth, reader.readAll (written.pretty depth) = .ok result := by
  constructor
  · have spells := written.spells_compact
    rw [Tree.Spells, String.toList_ofList] at spells
    exact (denotes.readAll_iff_of_spaced spells).mpr meant
  · intro depth
    have spells := written.spells_pretty depth
    rw [Tree.Spells, String.toList_ofList] at spells
    exact (denotes.readAll_iff_of_spaced spells).mpr meant

end Tricolor.JsonText

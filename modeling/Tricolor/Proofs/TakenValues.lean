import Tricolor.JsonText.Scalar
import Tricolor.Proofs.Skipping

/-!
# What a reader takes a value for

A reader whose results have a meaning in terms of the value read looks at nothing else: it
takes the value for the same wherever it stands in a text, with whatever blanks in and around
it.  Counts, strings and names have such meanings.
-/

namespace Tricolor.JsonText

variable {α β : Type} {reader : Reader α} {means : Tree → α → Prop} {tree : Tree} {value other : α}
  {text rest : List Char} {tokens : List Token} {pieces : List Piece} {chars : List Char}

/-- The reader takes the value for `value`, wherever it stands. -/
def Reader.Takes (reader : Reader α) (tree : Tree) (value : α) : Prop :=
  ∀ tokens text, Stops tokens → Spaced (tree.tokens ++ tokens) text →
    ∃ rest, Spaced tokens rest ∧ reader.read text = .ok (value, rest)

/-- What the reader reads is a value with this meaning, and it reads every such value. -/
structure Reader.Denotes (reader : Reader α) (means : Tree → α → Prop) : Prop where
  takes : ∀ {tree value}, means tree value → reader.Takes tree value
  traced : ∀ {text value rest}, reader.read text = .ok (value, rest) →
    ∃ tree, means tree value ∧ ∀ tokens, Spaced tokens rest → Spaced (tree.tokens ++ tokens) text

theorem Reader.Takes.unique (taken : reader.Takes tree value) (again : reader.Takes tree other) :
    value = other := by
  obtain ⟨text, spaced⟩ := exists_spaced (tree.tokens ++ [])
  obtain ⟨rest, -, read⟩ := taken [] text stops_nil spaced
  obtain ⟨rest', -, read'⟩ := again [] text stops_nil spaced
  rw [read] at read'
  exact congrArg Prod.fst (Except.ok.inj read')

namespace Reader.Denotes

/-- A whole text is read for what its value means. -/
theorem readAll_iff (denotes : reader.Denotes means) :
    reader.readAll text = .ok value ↔ ∃ tree, Spaced tree.tokens text ∧ means tree value := by
  unfold readAll
  constructor
  · intro read
    split at read
    · cases read
    · rename_i found
      split at read
      · rename_i ended
        cases read
        obtain ⟨tree, meant, traced⟩ := denotes.traced found
        have spaced := traced [] (spaced_nil_iff.mpr (List.isEmpty_iff.mp ended))
        exact ⟨tree, by simpa using spaced, meant⟩
      · cases read
  · rintro ⟨tree, spaced, meant⟩
    obtain ⟨rest, ended, read⟩ := denotes.takes meant [] text stops_nil (by simpa using spaced)
    simp [read, spaced_nil_iff.mp ended]

theorem readAll_iff_of_spaced (denotes : reader.Denotes means) (spaced : Spaced tree.tokens text) :
    reader.readAll text = .ok value ↔ means tree value := by
  rw [denotes.readAll_iff]
  constructor
  · rintro ⟨tree', spaced', meant⟩
    obtain rfl := Tree.eq_of_spaced spaced spaced'
    exact meant
  · exact fun meant => ⟨tree, spaced, meant⟩

/-- What a value is taken for is what it means. -/
theorem takes_iff (denotes : reader.Denotes means) :
    reader.Takes tree value ↔ means tree value := by
  constructor
  · intro taken
    obtain ⟨text, spaced⟩ := exists_spaced (tree.tokens ++ [])
    obtain ⟨rest, ended, read⟩ := taken [] text stops_nil spaced
    obtain ⟨tree', meant, traced⟩ := denotes.traced read
    obtain ⟨rfl, -⟩ := tree.unique tree' stops_nil stops_nil spaced (traced [] ended)
    exact meant
  · exact denotes.takes

/-- Whatever else its results mean, they say for what a value is taken. -/
theorem lawful (denotes : reader.Denotes means) : reader.Denotes reader.Takes where
  takes := id
  traced read := by
    obtain ⟨tree, meant, traced⟩ := denotes.traced read
    exact ⟨tree, denotes.takes meant, traced⟩

theorem map (denotes : reader.Denotes means) (change : α → β) :
    (reader.map change).Denotes fun tree result =>
      ∃ value, means tree value ∧ result = change value where
  takes := by
    rintro tree _ ⟨value, meant, rfl⟩ tokens text stops spaced
    obtain ⟨rest, later, read⟩ := denotes.takes meant tokens text stops spaced
    exact ⟨rest, later, by simp [Reader.map, read]⟩
  traced := by
    intro text result rest read
    simp only [Reader.map] at read
    split at read
    · cases read
    · rename_i found
      cases read
      obtain ⟨tree, meant, traced⟩ := denotes.traced found
      exact ⟨tree, ⟨_, meant, rfl⟩, traced⟩

end Reader.Denotes

/-! ## Single values -/

/-- A count is written with digits alone. -/
inductive Tree.IsCount : Tree → Nat → Prop
  | digits {text : List Char} {proper : IsNumeral text}
      (plain : ∀ char ∈ text, char.isDigit = true)
      (small : Nat.ofDigitChars 10 text 0 ≤ maxCount) :
      IsCount (.numeral text proper) (Nat.ofDigitChars 10 text 0)

theorem Tree.IsCount.le_maxCount {value : Nat} (count : tree.IsCount value) : value ≤ maxCount := by
  cases count with
  | digits _ small => exact small

theorem count_denotes : count.Denotes Tree.IsCount where
  takes := by
    intro tree value meant tokens text stops spaced
    cases meant with
    | @digits spelt proper plain small =>
        obtain ⟨rest, skipped, later⟩ := spaced_cons_iff.mp spaced
        have begun : skipBlanks text = spelt ++ rest := skipped
        obtain ⟨numeral, read, speltBy⟩ := proper.readNumeral_append (stops.ends later)
        have counted := speltBy.count?_eq_some_iff.mpr ⟨plain, rfl, small⟩
        exact ⟨rest, later, by simp only [count, readCount, begun, read, counted]⟩
  traced := by
    intro text value rest read
    simp only [count, readCount] at read
    split at read
    · cases read
    · rename_i found
      obtain ⟨spelt, speltBy, split⟩ := exists_numeral found
      split at read
      · rename_i counted
        cases read
        obtain ⟨plain, rfl, small⟩ := speltBy.count?_eq_some_iff.mp counted
        exact ⟨.numeral spelt speltBy.isNumeral, .digits plain small,
          fun tokens later => spaced_cons_iff.mpr ⟨rest, split, later⟩⟩
      · cases read

inductive Tree.IsString : Tree → String → Prop
  | quoted {pieces : List Piece} {chars : List Char} (means : meaning? pieces = some chars) :
      IsString (.quoted pieces) (String.ofList chars)

/-- A string is read up to its closing quote, if it stands for anything. -/
theorem exists_rest_of_quoted (means : meaning? pieces = some chars)
    (spaced : Spaced (.quoted pieces :: tokens) text) :
    ∃ quoted rest, Spaced tokens rest ∧ skipBlanks text = '"' :: quoted ∧
      readQuoted quoted = .ok (chars, rest) := by
  obtain ⟨rest, skipped, later⟩ := spaced_cons_iff.mp spaced
  exact ⟨spell pieces ++ '"' :: rest, rest, later, by simp [skipped, Token.text],
    readQuoted_append means rest⟩

theorem exists_pieces {quoted : List Char} (opened : skipBlanks text = '"' :: quoted)
    (read : readQuoted quoted = .ok (chars, rest)) :
    ∃ pieces, meaning? pieces = some chars ∧
      ∀ tokens, Spaced tokens rest → Spaced (.quoted pieces :: tokens) text := by
  obtain ⟨pieces, rfl, means⟩ := exists_quoted read
  exact ⟨pieces, means, fun tokens later =>
    spaced_cons_iff.mpr ⟨rest, by simp [opened, Token.text], later⟩⟩

theorem string_denotes : string.Denotes Tree.IsString where
  takes := by
    rintro _ _ ⟨means⟩ tokens text stops spaced
    obtain ⟨quoted, rest, later, opened, read⟩ := exists_rest_of_quoted means spaced
    exact ⟨rest, later, by simp [string, readString, opened, read]⟩
  traced := by
    intro text value rest read
    simp only [string, readString] at read
    split at read
    · rename_i opened
      split at read
      · cases read
      · rename_i found
        cases read
        obtain ⟨pieces, means, traced⟩ := exists_pieces opened found
        exact ⟨.quoted pieces, .quoted means, traced⟩
    · cases read

inductive Tree.IsOptionalString : Tree → Option String → Prop
  | absent : IsOptionalString (.word .null) none
  | given {tree : Tree} {value : String} (means : tree.IsString value) :
      IsOptionalString tree (some value)

theorem optionalString_denotes : optionalString.Denotes Tree.IsOptionalString where
  takes := by
    rintro _ _ (_ | means) tokens text stops spaced
    · obtain ⟨rest, skipped, later⟩ := spaced_cons_iff.mp spaced
      refine ⟨rest, later, ?_⟩
      have null := readWord_append ['u', 'l', 'l'] rest
      simp_all [optionalString, readOptionalString, Token.text, Word.text]
    · obtain ⟨rest, later, read⟩ := string_denotes.takes means tokens text stops spaced
      refine ⟨rest, later, ?_⟩
      cases means with
      | quoted means =>
          obtain ⟨quoted, _, _, opened, _⟩ := exists_rest_of_quoted means spaced
          change readString text = _ at read
          simp [optionalString, readOptionalString, opened, read]
  traced := by
    intro text value rest read
    simp only [optionalString, readOptionalString] at read
    split at read
    · rename_i skipped
      split at read
      · cases read
      · rename_i found
        cases read
        exact ⟨.word .null, .absent, fun tokens later => spaced_cons_iff.mpr
          ⟨rest, by simp [skipped, eq_of_readWord found, Token.text, Word.text], later⟩⟩
    · split at read
      · cases read
      · rename_i found
        cases read
        obtain ⟨tree, means, traced⟩ := string_denotes.traced found
        exact ⟨tree, .given means, traced⟩

/-- One of the named values: the name itself, or an object with nothing but `null` under the
name. -/
inductive Tree.IsChoice (choices : List (String × α)) : Tree → α → Prop
  | name {pieces : List Piece} {chars : List Char} {value : α}
      (means : meaning? pieces = some chars)
      (chosen : chooseName choices (String.ofList chars) = .ok value) :
      IsChoice choices (.quoted pieces) value
  | tagged {pieces : List Piece} {chars : List Char} {value : α}
      (means : meaning? pieces = some chars)
      (chosen : chooseName choices (String.ofList chars) = .ok value) :
      IsChoice choices (.object [(pieces, .word .null)]) value

theorem readNull_spaced (spaced : Spaced (.word .null :: tokens) text) :
    ∃ rest, Spaced tokens rest ∧ readNull text = .ok rest := by
  obtain ⟨rest, skipped, later⟩ := spaced_cons_iff.mp spaced
  have null := readWord_append ['u', 'l', 'l'] rest
  exact ⟨rest, later, by simp_all [readNull, Token.text, Word.text]⟩

theorem spaced_of_readNull (read : readNull text = .ok rest) (later : Spaced tokens rest) :
    Spaced (.word .null :: tokens) text := by
  unfold readNull at read
  split at read
  · rename_i skipped
    exact spaced_cons_iff.mpr
      ⟨rest, by simp [skipped, eq_of_readWord read, Token.text, Word.text], later⟩
  · cases read

theorem readBrace_spaced (spaced : Spaced (.closing .object :: tokens) text) :
    ∃ rest, Spaced tokens rest ∧ readBrace text = .ok rest := by
  obtain ⟨rest, skipped, later⟩ := spaced_cons_iff.mp spaced
  exact ⟨rest, later, by simp [readBrace, skipped, Token.text, Bracket.closing]⟩

theorem spaced_of_readBrace (read : readBrace text = .ok rest) (later : Spaced tokens rest) :
    Spaced (.closing .object :: tokens) text := by
  unfold readBrace at read
  split at read
  · cases read
  · rename_i skipped
    cases read
    exact spaced_cons_iff.mpr ⟨rest, skipped, later⟩
  · cases read

variable {choices : List (String × α)}

theorem readTagged_spaced (means : meaning? pieces = some chars)
    (chosen : chooseName choices (String.ofList chars) = .ok value)
    (spaced : Spaced (memberTokens true [(pieces, .word .null)] ++ tokens) text) :
    ∃ rest, Spaced tokens rest ∧ readTagged choices text = .ok (value, rest) := by
  obtain ⟨quoted, afterName, named, opened, read⟩ := exists_rest_of_quoted means spaced
  obtain ⟨afterColon, valued, colon⟩ := readColon_spaced named
  obtain ⟨afterNull, closed, null⟩ := readNull_spaced valued
  obtain ⟨rest, later, brace⟩ := readBrace_spaced closed
  exact ⟨rest, later, by simp [readTagged, readTag, opened, read, chosen, colon, null, brace]⟩

theorem exists_tag {name : String} (read : readTag text = .ok (name, rest)) :
    ∃ pieces chars, meaning? pieces = some chars ∧ name = String.ofList chars ∧
      ∀ tokens, Spaced tokens rest → Spaced (.quoted pieces :: tokens) text := by
  unfold readTag at read
  split at read
  · cases read
  · rename_i opened
    split at read
    · cases read
    · rename_i found
      cases read
      obtain ⟨pieces, means, traced⟩ := exists_pieces opened found
      exact ⟨pieces, _, means, rfl, traced⟩
  · cases read

theorem exists_tagged (read : readTagged choices text = .ok (value, rest)) :
    ∃ pieces chars, meaning? pieces = some chars ∧
      chooseName choices (String.ofList chars) = .ok value ∧
      ∀ tokens, Spaced tokens rest →
        Spaced (memberTokens true [(pieces, .word .null)] ++ tokens) text := by
  unfold readTagged at read
  split at read
  · cases read
  · rename_i foundName
    obtain ⟨pieces, chars, means, rfl, traced⟩ := exists_tag foundName
    split at read
    · cases read
    · rename_i chosen
      split at read
      · cases read
      · rename_i colon
        split at read
        · cases read
        · rename_i null
          split at read
          · cases read
          · rename_i brace
            cases read
            exact ⟨pieces, chars, means, chosen, fun tokens later =>
              traced _ (spaced_of_readColon colon
                (spaced_of_readNull null (spaced_of_readBrace brace later)))⟩

theorem choice_denotes (choices : List (String × α)) :
    (choice choices).Denotes (Tree.IsChoice choices) where
  takes := by
    rintro _ value (⟨means, chosen⟩ | ⟨means, chosen⟩) tokens text stops spaced
    · obtain ⟨quoted, rest, later, opened, read⟩ := exists_rest_of_quoted means spaced
      exact ⟨rest, later, by simp [choice, readChoice, opened, read, chosen]⟩
    · obtain ⟨inside, opened, begun⟩ := spaced_object_iff.mp spaced
      obtain ⟨rest, later, read⟩ := readTagged_spaced means chosen begun
      exact ⟨rest, later, by simp [choice, readChoice, opened, read]⟩
  traced := by
    intro text value rest read
    simp only [choice, readChoice] at read
    split at read
    · cases read
    · rename_i opened
      split at read
      · cases read
      · rename_i found
        split at read
        · cases read
        · rename_i chosen
          cases read
          obtain ⟨pieces, means, traced⟩ := exists_pieces opened found
          exact ⟨.quoted pieces, .name means chosen, traced⟩
    · rename_i opened
      obtain ⟨pieces, chars, means, chosen, traced⟩ := exists_tagged read
      exact ⟨_, .tagged means chosen, fun tokens later =>
        spaced_object_iff.mpr ⟨_, opened, traced tokens later⟩⟩
    · cases read

end Tricolor.JsonText

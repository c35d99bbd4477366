import Tricolor.Proofs.Unambiguity

/-!
# Passing over values

Whatever is passed over is one value, and every value is passed over to its end, to any depth
and whatever it stands for.
-/

namespace Tricolor.JsonText

variable {text rest word : List Char} {tokens : List Token} {name : List Piece}
  {brackets : List Bracket}

theorem readWord_append (word rest : List Char) : readWord word (word ++ rest) = .ok rest := by
  induction word with
  | nil => rfl
  | cons char word induction => simp [readWord, induction]

theorem eq_of_readWord (read : readWord word text = .ok rest) : text = word ++ rest := by
  induction word generalizing text with
  | nil =>
      cases read
      rfl
  | cons expected word induction =>
      cases text with
      | nil => cases read
      | cons char text =>
          rw [readWord] at read
          split at read
          · rename_i same
            rw [induction read, same, List.cons_append]
          · cases read

theorem readColon_spaced (spaced : Spaced (.colon :: tokens) text) :
    ∃ rest, Spaced tokens rest ∧ readColon text = .ok rest := by
  obtain ⟨rest, skipped, later⟩ := spaced_cons_iff.mp spaced
  exact ⟨rest, later, by simp [readColon, skipped, Token.text]⟩

theorem spaced_of_readColon (read : readColon text = .ok rest) (later : Spaced tokens rest) :
    Spaced (.colon :: tokens) text := by
  unfold readColon at read
  split at read
  · cases read
  · rename_i skipped
    cases read
    exact spaced_cons_iff.mpr ⟨rest, skipped, later⟩
  · cases read

theorem skipName_spaced (spaced : Spaced (.quoted name :: .colon :: tokens) text) :
    ∃ rest, Spaced tokens rest ∧ skipName text = .ok rest := by
  obtain ⟨afterName, skipped, named⟩ := spaced_cons_iff.mp spaced
  obtain ⟨rest, later, colon⟩ := readColon_spaced named
  refine ⟨rest, later, ?_⟩
  simp [skipName, skipped, Token.text, skipQuoted_append, colon]

theorem spaced_of_skipName (skipped : skipName text = .ok rest) :
    ∃ name, ∀ tokens, Spaced tokens rest → Spaced (.quoted name :: .colon :: tokens) text := by
  unfold skipName at skipped
  split at skipped
  · cases skipped
  · rename_i quoted blanks
    split at skipped
    · cases skipped
    · rename_i found
      obtain ⟨name, rfl⟩ := exists_skipped found
      refine ⟨name, fun tokens later => ?_⟩
      exact spaced_cons_iff.mpr ⟨_, by simp [blanks, Token.text], spaced_of_readColon skipped later⟩
  · cases skipped

/-- A value without brackets, by its only token. -/
def Tree.IsScalar : Tree → Prop
  | .array _ => False
  | .object _ => False
  | _ => True

/-- What begins like a numeral is passed over as one. -/
theorem skipScalar_of_begins {char : Char} (begins : char.isDigit = true ∨ char = '-') :
    skipScalar (char :: text) = skipNumeral (char :: text) := by
  rw [skipScalar.eq_6]
  · exact nofun
  all_goals
    rintro left same
    cases same
    exact absurd begins (by decide)

theorem skipScalar_append {tree : Tree} (scalar : tree.IsScalar)
    (ends : tree.root.isNumeral = true → Ends rest) :
    skipScalar (tree.root.text ++ rest) = .ok rest := by
  cases tree with
  | word name => cases name <;> exact readWord_append _ rest
  | quoted pieces => simpa [Tree.root, Token.text, skipScalar] using skipQuoted_append pieces rest
  | numeral text proper =>
      obtain ⟨numeral, read, -⟩ := proper.readNumeral_append (ends rfl)
      obtain ⟨char, tail, rfl, begins⟩ := proper.exists_head
      rw [Tree.root, Token.text, List.cons_append, skipScalar_of_begins begins, skipNumeral,
        ← List.cons_append, read]
  | array => cases scalar
  | object => cases scalar

theorem exists_scalar (skipped : skipScalar text = .ok rest) :
    ∃ tree : Tree, tree.IsScalar ∧ text = tree.root.text ++ rest := by
  unfold skipScalar at skipped
  split at skipped
  · cases skipped
  · exact ⟨.word .null, trivial, congrArg _ (eq_of_readWord skipped)⟩
  · exact ⟨.word .yes, trivial, congrArg _ (eq_of_readWord skipped)⟩
  · exact ⟨.word .no, trivial, congrArg _ (eq_of_readWord skipped)⟩
  · obtain ⟨pieces, rfl⟩ := exists_skipped skipped
    exact ⟨.quoted pieces, trivial, by simp [Tree.root, Token.text]⟩
  · unfold skipNumeral at skipped
    split at skipped
    · cases skipped
    · rename_i found
      cases skipped
      obtain ⟨spelt, speltBy, rfl⟩ := exists_numeral found
      exact ⟨.numeral spelt speltBy.isNumeral, trivial, rfl⟩

/-! ## One step -/

section

variable {items members afterName : List Char}

theorem skipNested_empty_array (opened : skipBlanks text = '[' :: items)
    (closed : skipBlanks items = ']' :: rest) :
    skipNested .value brackets text = skipNested .separator brackets rest := by
  rw [skipNested.eq_1]
  split
  · simp_all
  · split <;> simp_all
  · simp_all
  · simp_all

theorem skipNested_array (opened : skipBlanks text = '[' :: items)
    (inhabited : ∀ rest, skipBlanks items ≠ ']' :: rest) :
    skipNested .value brackets text = skipNested .value (.array :: brackets) items := by
  rw [skipNested.eq_1]
  split
  · simp_all
  · split <;> simp_all
  · simp_all
  · simp_all

theorem skipNested_empty_object (opened : skipBlanks text = '{' :: members)
    (closed : skipBlanks members = '}' :: rest) :
    skipNested .value brackets text = skipNested .separator brackets rest := by
  rw [skipNested.eq_1]
  split
  · simp_all
  · simp_all
  · split <;> simp_all
  · simp_all

theorem skipNested_object (opened : skipBlanks text = '{' :: members)
    (inhabited : ∀ rest, skipBlanks members ≠ '}' :: rest)
    (named : skipName members = .ok afterName) :
    skipNested .value brackets text = skipNested .value (.object :: brackets) afterName := by
  rw [skipNested.eq_1]
  split
  · simp_all
  · simp_all
  · split
    · simp_all
    · split <;> simp_all
  · simp_all

theorem skipNested_scalar (noArray : ∀ items, skipBlanks text ≠ '[' :: items)
    (noObject : ∀ members, skipBlanks text ≠ '{' :: members)
    (skipped : skipScalar (skipBlanks text) = .ok rest) :
    skipNested .value brackets text = skipNested .separator brackets rest := by
  rw [skipNested.eq_1]
  split
  · simp_all [skipScalar]
  · simp_all
  · simp_all
  · split <;> simp_all

theorem skipNested_closing {bracket : Bracket}
    (closed : skipBlanks text = bracket.closing :: rest) :
    skipNested .separator (bracket :: brackets) text = skipNested .separator brackets rest := by
  rw [skipNested.eq_3]
  split <;> simp_all

theorem skipNested_item (separated : skipBlanks text = ',' :: rest) :
    skipNested .separator (.array :: brackets) text =
      skipNested .value (.array :: brackets) rest := by
  rw [skipNested.eq_3]
  split <;> simp_all [Bracket.closing]

theorem skipNested_member (separated : skipBlanks text = ',' :: rest)
    (named : skipName rest = .ok afterName) :
    skipNested .separator (.object :: brackets) text =
      skipNested .value (.object :: brackets) afterName := by
  rw [skipNested.eq_3]
  split
  · simp_all
  · simp_all [Bracket.closing]
    split <;> simp_all

end

/-! ## Whole values -/

theorem Tree.IsScalar.tokens_eq {tree : Tree} (scalar : tree.IsScalar) :
    tree.tokens = [tree.root] := by
  cases tree with
  | array => cases scalar
  | object => cases scalar
  | word => rfl
  | numeral => rfl
  | quoted => rfl

theorem Tree.IsScalar.root_ne_opening {tree : Tree} (scalar : tree.IsScalar) (bracket : Bracket) :
    tree.root ≠ .opening bracket := by
  cases tree with
  | array => cases scalar
  | object => cases scalar
  | word => exact nofun
  | numeral => exact nofun
  | quoted => exact nofun

theorem Tree.IsScalar.skipNested_value {tree : Tree} (scalar : tree.IsScalar)
    (brackets : List Bracket) (stops : Stops tokens)
    (spaced : Spaced (tree.tokens ++ tokens) text) :
    ∃ rest, Spaced tokens rest ∧
      skipNested .value brackets text = skipNested .separator brackets rest := by
  rw [scalar.tokens_eq] at spaced
  obtain ⟨rest, skipped, later⟩ := spaced_cons_iff.mp spaced
  obtain ⟨char, tail, spelt, begins⟩ := tree.root.exists_begins
  have unopened : ∀ bracket : Bracket, ∀ left, skipBlanks text ≠ bracket.opening :: left := by
    intro bracket left opened
    rw [skipped, spelt, List.cons_append, List.cons.injEq] at opened
    refine scalar.root_ne_opening bracket (begins.eq_of_ofHead? ?_)
    rw [opened.1]
    cases bracket <;> rfl
  refine ⟨rest, later, skipNested_scalar (unopened .array) (unopened .object) ?_⟩
  rw [skipped]
  exact skipScalar_append scalar fun _ => stops.ends later

theorem spaced_array_iff {items : List Tree} :
    Spaced ((Tree.array items).tokens ++ tokens) text ↔
      ∃ inside, skipBlanks text = '[' :: inside ∧ Spaced (itemTokens true items ++ tokens) inside :=
  spaced_cons_iff

theorem spaced_object_iff {members : List Member} :
    Spaced ((Tree.object members).tokens ++ tokens) text ↔
      ∃ inside, skipBlanks text = '{' :: inside ∧
        Spaced (memberTokens true members ++ tokens) inside :=
  spaced_cons_iff

theorem skipName_member {first : Bool} {value : Tree} {members : List Member}
    (spaced : Spaced (.quoted name :: .colon ::
      (value.tokens ++ (memberTokens first members ++ tokens))) text) :
    ∃ rest, Spaced (value.tokens ++ (memberTokens first members ++ tokens)) rest ∧
      skipName text = .ok rest ∧ ∀ left, skipBlanks text ≠ '}' :: left := by
  obtain ⟨rest, later, named⟩ := skipName_spaced spaced
  obtain ⟨quoted, skipped, -⟩ := spaced_cons_iff.mp spaced
  exact ⟨rest, later, named, by simp [skipped, Token.text]⟩

mutual

/-- A value is passed over to its end, whatever brackets are open around it. -/
theorem Tree.skipNested_value (tree : Tree) (brackets : List Bracket) {tokens : List Token}
    {text : List Char} (stops : Stops tokens) (spaced : Spaced (tree.tokens ++ tokens) text) :
    ∃ rest, Spaced tokens rest ∧
      skipNested .value brackets text = skipNested .separator brackets rest := by
  cases tree with
  | word name =>
      have scalar : (Tree.word name).IsScalar := trivial
      exact scalar.skipNested_value brackets stops spaced
  | numeral text proper =>
      have scalar : (Tree.numeral text proper).IsScalar := trivial
      exact scalar.skipNested_value brackets stops spaced
  | quoted pieces =>
      have scalar : (Tree.quoted pieces).IsScalar := trivial
      exact scalar.skipNested_value brackets stops spaced
  | array items =>
      obtain ⟨inside, opened, begun⟩ := spaced_array_iff.mp spaced
      cases items with
      | nil =>
          obtain ⟨rest, closed, later⟩ := spaced_cons_iff.mp begun
          exact ⟨rest, later, skipNested_empty_array opened closed⟩
      | cons item items =>
          rw [itemTokens_cons] at begun
          obtain ⟨char, tail, head, unclosed⟩ := Tree.exists_head begun
          have inhabited : ∀ rest, skipBlanks inside ≠ ']' :: rest := by
            rw [head]
            rintro rest same
            exact unclosed .array (List.cons.inj same).1
          obtain ⟨afterItem, laterItems, first⟩ :=
            item.skipNested_value (.array :: brackets) (stops_itemTokens items tokens) begun
          obtain ⟨rest, later, skipped⟩ := items_skipNested items brackets laterItems
          exact ⟨rest, later, (skipNested_array opened inhabited).trans (first.trans skipped)⟩
  | object members =>
      obtain ⟨inside, opened, begun⟩ := spaced_object_iff.mp spaced
      cases members with
      | nil =>
          obtain ⟨rest, closed, later⟩ := spaced_cons_iff.mp begun
          exact ⟨rest, later, skipNested_empty_object opened closed⟩
      | cons member members =>
          obtain ⟨name, value⟩ := member
          rw [memberTokens_cons] at begun
          obtain ⟨afterName, valued, named, inhabited⟩ := skipName_member begun
          obtain ⟨afterValue, laterMembers, first⟩ :=
            value.skipNested_value (.object :: brackets) (stops_memberTokens members tokens) valued
          obtain ⟨rest, later, skipped⟩ := members_skipNested members brackets laterMembers
          exact ⟨rest, later,
            (skipNested_object opened inhabited named).trans (first.trans skipped)⟩

theorem items_skipNested (items : List Tree) (brackets : List Bracket) {tokens : List Token}
    {text : List Char} (spaced : Spaced (itemTokens false items ++ tokens) text) :
    ∃ rest, Spaced tokens rest ∧
      skipNested .separator (.array :: brackets) text = skipNested .separator brackets rest := by
  cases items with
  | nil =>
      obtain ⟨rest, closed, later⟩ := spaced_cons_iff.mp spaced
      exact ⟨rest, later, skipNested_closing closed⟩
  | cons item items =>
      rw [itemTokens_cons] at spaced
      obtain ⟨begun, separated, itemSpaced⟩ := spaced_cons_iff.mp spaced
      obtain ⟨afterItem, laterItems, first⟩ :=
        item.skipNested_value (.array :: brackets) (stops_itemTokens items tokens) itemSpaced
      obtain ⟨rest, later, skipped⟩ := items_skipNested items brackets laterItems
      exact ⟨rest, later, (skipNested_item separated).trans (first.trans skipped)⟩

theorem members_skipNested (members : List (List Piece × Tree)) (brackets : List Bracket)
    {tokens : List Token} {text : List Char}
    (spaced : Spaced (memberTokens false members ++ tokens) text) :
    ∃ rest, Spaced tokens rest ∧
      skipNested .separator (.object :: brackets) text = skipNested .separator brackets rest := by
  cases members with
  | nil =>
      obtain ⟨rest, closed, later⟩ := spaced_cons_iff.mp spaced
      exact ⟨rest, later, skipNested_closing closed⟩
  | cons member members =>
      obtain ⟨name, value⟩ := member
      rw [memberTokens_cons] at spaced
      obtain ⟨begun, separated, memberSpaced⟩ := spaced_cons_iff.mp spaced
      obtain ⟨afterName, valued, named, -⟩ := skipName_member memberSpaced
      obtain ⟨afterValue, laterMembers, first⟩ :=
        value.skipNested_value (.object :: brackets) (stops_memberTokens members tokens) valued
      obtain ⟨rest, later, skipped⟩ := members_skipNested members brackets laterMembers
      exact ⟨rest, later, (skipNested_member separated named).trans (first.trans skipped)⟩

end

/-- Every value is passed over to its end. -/
theorem Tree.skipValue_spaced (tree : Tree) (stops : Stops tokens)
    (spaced : Spaced (tree.tokens ++ tokens) text) :
    ∃ rest, Spaced tokens rest ∧ skipValue text = .ok rest := by
  obtain ⟨rest, later, skipped⟩ := tree.skipNested_value [] stops spaced
  exact ⟨rest, later, skipped.trans (skipNested.eq_2 rest)⟩

/-- What closes the open brackets, innermost first, with what else is inside them. -/
inductive Closes : List Bracket → List Token → Prop
  | nil : Closes [] []
  | array {outer : List Bracket} {closing : List Token} (items : List Tree)
      (closes : Closes outer closing) :
      Closes (.array :: outer) (itemTokens false items ++ closing)
  | object {outer : List Bracket} {closing : List Token} (members : List Member)
      (closes : Closes outer closing) :
      Closes (.object :: outer) (memberTokens false members ++ closing)

/-- What a text has been passed over for. -/
def Passed : Expectation → List Bracket → List Char → List Char → Prop
  | .value, brackets, text, rest =>
      ∃ tree : Tree, ∃ closing, Closes brackets closing ∧
        ∀ tokens, Spaced tokens rest → Spaced (tree.tokens ++ (closing ++ tokens)) text
  | .separator, brackets, text, rest =>
      ∃ closing, Closes brackets closing ∧
        ∀ tokens, Spaced tokens rest → Spaced (closing ++ tokens) text

theorem passed_of_skipNested {expectation : Expectation}
    (skipped : skipNested expectation brackets text = .ok rest) :
    Passed expectation brackets text rest := by
  -- The first item or member behind an opened bracket joins those that its closing brings.
  fun_induction skipNested expectation brackets text with
  | case1 => cases skipped
  | case2 brackets text items opened afterItems closed induction =>
      obtain ⟨closing, closes, traced⟩ := induction skipped
      exact ⟨.array [], closing, closes, fun tokens later =>
        spaced_array_iff.mpr ⟨_, opened, spaced_cons_iff.mpr ⟨_, closed, traced tokens later⟩⟩⟩
  | case3 brackets text items opened _ induction =>
      obtain ⟨item, _, closes, traced⟩ := induction skipped
      cases closes with
      | array items closes =>
          refine ⟨.array (item :: items), _, closes, fun tokens later => ?_⟩
          refine spaced_array_iff.mpr ⟨_, opened, ?_⟩
          rw [itemTokens_cons]
          simpa [separator] using traced tokens later
  | case4 brackets text members opened afterMembers closed induction =>
      obtain ⟨closing, closes, traced⟩ := induction skipped
      exact ⟨.object [], closing, closes, fun tokens later =>
        spaced_object_iff.mpr ⟨_, opened, spaced_cons_iff.mpr ⟨_, closed, traced tokens later⟩⟩⟩
  | case5 => cases skipped
  | case6 brackets text members opened afterName named _ induction =>
      obtain ⟨value, _, closes, traced⟩ := induction skipped
      obtain ⟨name, nameTraced⟩ := spaced_of_skipName named
      cases closes with
      | object members closes =>
          refine ⟨.object ((name, value) :: members), _, closes, fun tokens later => ?_⟩
          refine spaced_object_iff.mpr ⟨_, opened, ?_⟩
          rw [memberTokens_cons]
          exact nameTraced _ (by simpa using traced tokens later)
  | case7 => cases skipped
  | case8 brackets text _ _ _ afterScalar found induction =>
      obtain ⟨closing, closes, traced⟩ := induction skipped
      obtain ⟨tree, scalar, spelt⟩ := exists_scalar found
      refine ⟨tree, closing, closes, fun tokens later => ?_⟩
      rw [scalar.tokens_eq]
      exact spaced_cons_iff.mpr ⟨_, spelt, traced tokens later⟩
  | case9 =>
      cases skipped
      exact ⟨[], .nil, fun _ later => later⟩
  | case10 => cases skipped
  | case11 text bracket outer afterBracket closed induction =>
      obtain ⟨closing, closes, traced⟩ := induction skipped
      cases bracket with
      | array =>
          exact ⟨_, .array [] closes, fun tokens later =>
            spaced_cons_iff.mpr ⟨_, closed, traced tokens later⟩⟩
      | object =>
          exact ⟨_, .object [] closes, fun tokens later =>
            spaced_cons_iff.mpr ⟨_, closed, traced tokens later⟩⟩
  | case12 text outer afterComma separated _ induction =>
      obtain ⟨item, _, closes, traced⟩ := induction skipped
      cases closes with
      | array items closes =>
          refine ⟨_, .array (item :: items) closes, fun tokens later => ?_⟩
          rw [List.append_assoc, itemTokens_cons]
          exact spaced_cons_iff.mpr ⟨_, separated, by simpa using traced tokens later⟩
  | case13 => cases skipped
  | case14 text outer afterComma afterName named separated _ induction =>
      obtain ⟨value, _, closes, traced⟩ := induction skipped
      obtain ⟨name, nameTraced⟩ := spaced_of_skipName named
      cases closes with
      | object members closes =>
          refine ⟨_, .object ((name, value) :: members) closes, fun tokens later => ?_⟩
          rw [List.append_assoc, memberTokens_cons]
          exact spaced_cons_iff.mpr
            ⟨_, separated, nameTraced _ (by simpa using traced tokens later)⟩
  | case15 => cases skipped

/-- What is passed over is one value. -/
theorem exists_tree_of_skipValue (skipped : skipValue text = .ok rest) :
    ∃ tree : Tree, ∀ tokens, Spaced tokens rest → Spaced (tree.tokens ++ tokens) text := by
  obtain ⟨tree, _, closes, traced⟩ := passed_of_skipNested skipped
  cases closes
  exact ⟨tree, traced⟩

end Tricolor.JsonText

import Mathlib.Data.List.TakeWhile
import Tricolor.Proofs.Spelling

/-!
# Scanning single tokens

Numerals, strings and blanks are scanned exactly as far as they reach: what has been scanned
is a token, and a token is scanned to its end wherever it stands.  Only a numeral can be
continued by what comes behind it.
-/

namespace Tricolor.JsonText

variable {text rest digits sign whole fraction exponent : List Char}

/-! ## Numerals -/

/-- No numeral goes on here. -/
def Ends (rest : List Char) : Prop :=
  ∀ char ∈ rest.head?, char.isDigit = false ∧ char ≠ '.' ∧ char ≠ 'e' ∧ char ≠ 'E'

theorem isDigit_eq : isDigit = Char.isDigit := rfl

theorem readDigits_append (proper : IsDigits digits)
    (ends : ∀ char ∈ rest.head?, char.isDigit = false) :
    readDigits (digits ++ rest) = .ok (digitValues digits, rest) := by
  obtain ⟨nonempty, all⟩ := proper
  have stopped : rest.takeWhile Char.isDigit = [] ∧ rest.dropWhile Char.isDigit = rest := by
    cases rest with
    | nil => simp
    | cons char rest => simp [ends char rfl]
  cases digits with
  | nil => contradiction
  | cons digit digits =>
      have first : isDigit digit = true := by
        rw [isDigit_eq]
        exact all digit (by simp)
      simp only [List.cons_append, readDigits, first, if_true]
      rw [isDigit_eq, ← List.cons_append, List.takeWhile_append_of_pos all,
        List.dropWhile_append_of_pos all, stopped.1, stopped.2, List.append_nil]

theorem exists_digits {values : List Nat} (read : readDigits text = .ok (values, rest)) :
    ∃ digits, IsDigits digits ∧ text = digits ++ rest ∧ values = digitValues digits := by
  unfold readDigits at read
  split at read
  · cases read
  · rename_i char tail
    split at read
    · rename_i first
      cases read
      refine ⟨(char :: tail).takeWhile isDigit, ⟨?_, ?_⟩, ?_, rfl⟩
      · simp [first]
      · intro digit member
        exact List.mem_takeWhile_imp member
      · rw [List.takeWhile_append_dropWhile]
    · cases read

/-- The digits before the point have no leading zeros, and neither have their values. -/
theorem isWhole_iff (proper : IsDigits digits) :
    IsWhole digits ↔ ¬ ((digitValues digits).head? = some 0 ∧ 1 < (digitValues digits).length) := by
  cases digits with
  | nil => exact absurd rfl proper.1
  | cons digit digits =>
      have bounds := Char.isDigit_iff_toNat.mp (proper.2 digit (by simp))
      have zero : digit.toNat - '0'.toNat = 0 ↔ digit = '0' := by
        rw [← Char.toNat_inj]
        omega
      have first : (digitValues (digit :: digits)).head? = some 0 ↔ digit = '0' := by
        simpa [digitValues] using zero
      have long : 1 < (digitValues (digit :: digits)).length ↔ digits ≠ [] := by
        simp [digitValues, List.length_pos_iff]
      rw [first, long]
      constructor
      · rintro ⟨_, unpadded⟩ ⟨rfl, more⟩
        exact more (by simpa using unpadded rfl)
      · intro unpadded
        refine ⟨proper, fun zeroFirst => ?_⟩
        simpa using fun more => unpadded ⟨by simpa using zeroFirst, more⟩

theorem readWhole_append (unpadded : IsWhole whole)
    (ends : ∀ char ∈ rest.head?, char.isDigit = false) :
    readWhole (whole ++ rest) = .ok (digitValues whole, rest) := by
  have padless := (isWhole_iff unpadded.proper).mp unpadded
  simp [readWhole, readDigits_append unpadded.proper ends, padless]

theorem exists_whole {values : List Nat} (read : readWhole text = .ok (values, rest)) :
    ∃ whole, IsWhole whole ∧ text = whole ++ rest ∧ values = digitValues whole := by
  unfold readWhole at read
  split at read
  · cases read
  · rename_i found
    obtain ⟨digits, proper, spelt, rfl⟩ := exists_digits found
    split at read
    · cases read
    · rename_i unpadded
      cases read
      exact ⟨digits, (isWhole_iff proper).mpr unpadded, spelt, rfl⟩

theorem readFraction_append (fractional : IsFraction fraction)
    (ends : ∀ char ∈ rest.head?, char.isDigit = false ∧ char ≠ '.') :
    ∃ values, readFraction (fraction ++ rest) = .ok (values, rest) := by
  cases fractional with
  | absent =>
      refine ⟨none, readFraction.eq_2 _ ?_⟩
      rintro tail rfl
      exact (ends '.' rfl).2 rfl
  | present proper =>
      exact ⟨_, by
        simp only [List.cons_append, readFraction,
          readDigits_append proper fun char first => (ends char first).1]; rfl⟩

theorem exists_fraction {values : Option (List Nat)}
    (read : readFraction text = .ok (values, rest)) :
    ∃ fraction, IsFraction fraction ∧ text = fraction ++ rest ∧
      (values = none ↔ fraction = []) := by
  unfold readFraction at read
  split at read
  · split at read
    · cases read
    · rename_i found
      cases read
      obtain ⟨digits, proper, rfl, _⟩ := exists_digits found
      exact ⟨'.' :: digits, .present proper, rfl, by simp⟩
  · cases read
    exact ⟨[], .absent, rfl, by simp⟩

/-- What an exponent begins with does not continue the digits before it. -/
theorem head_exponent (exponential : IsExponent exponent) (ends : Ends rest) :
    ∀ char ∈ (exponent ++ rest).head?, char.isDigit = false ∧ char ≠ '.' := by
  cases exponential with
  | absent => exact fun char first => ⟨(ends char first).1, (ends char first).2.1⟩
  | present marked _ _ =>
      rcases marked with rfl | rfl <;> simp +decide

theorem head_fraction (fractional : IsFraction fraction) (exponential : IsExponent exponent)
    (ends : Ends rest) :
    ∀ char ∈ (fraction ++ (exponent ++ rest)).head?, char.isDigit = false := by
  cases fractional with
  | absent => exact fun char first => (head_exponent exponential ends char first).1
  | present _ => simp +decide

theorem readSign_append (signed : sign = [] ∨ sign = ['+'] ∨ sign = ['-'])
    (proper : IsDigits digits) : (readSign (sign ++ (digits ++ rest))).2 = digits ++ rest := by
  rcases signed with rfl | rfl | rfl
  · cases digits with
    | nil => exact absurd rfl proper.1
    | cons digit digits =>
        have first : digit.isDigit = true := proper.2 digit (by simp)
        have plain : readSign (digit :: (digits ++ rest)) = (false, digit :: (digits ++ rest)) :=
          readSign.eq_3 _
            (by rintro tail same; cases same; exact absurd first (by decide))
            (by rintro tail same; cases same; exact absurd first (by decide))
        simpa using congrArg Prod.snd plain
  · rfl
  · rfl

theorem exists_sign (text : List Char) :
    ∃ sign, (sign = [] ∨ sign = ['+'] ∨ sign = ['-']) ∧ text = sign ++ (readSign text).2 := by
  unfold readSign
  split
  · exact ⟨['-'], by simp, rfl⟩
  · exact ⟨['+'], by simp, rfl⟩
  · exact ⟨[], by simp, rfl⟩

theorem readExponent_append (exponential : IsExponent exponent) (ends : Ends rest) :
    ∃ value, readExponent (exponent ++ rest) = .ok (value, rest) := by
  cases exponential with
  | absent =>
      cases rest with
      | nil => exact ⟨none, rfl⟩
      | cons char rest =>
          obtain ⟨_, _, small, large⟩ := ends char rfl
          exact ⟨none, by simp [readExponent, small, large]⟩
  | present marked signed proper =>
      have digits := readDigits_append proper fun char first => (ends char first).1
      rw [List.cons_append, List.append_assoc, readExponent, if_pos marked,
        readSign_append signed proper, digits]
      exact ⟨_, rfl⟩

theorem exists_exponent {value : Option Int} (read : readExponent text = .ok (value, rest)) :
    ∃ exponent, IsExponent exponent ∧ text = exponent ++ rest ∧
      (value = none ↔ exponent = []) := by
  unfold readExponent at read
  split at read
  · cases read
    exact ⟨[], .absent, rfl, by simp⟩
  · rename_i char tail
    split at read
    · rename_i marked
      split at read
      · cases read
      · rename_i found
        cases read
        obtain ⟨sign, signed, spelt⟩ := exists_sign tail
        obtain ⟨digits, proper, split, _⟩ := exists_digits found
        refine ⟨char :: (sign ++ digits), .present marked signed proper, ?_, by simp⟩
        rw [List.cons_append, List.append_assoc, ← split, ← spelt]
    · cases read
      exact ⟨[], .absent, rfl, by simp⟩

theorem readMinus_append (signed : sign = [] ∨ sign = ['-']) (unpadded : IsWhole whole) :
    (readMinus (sign ++ (whole ++ rest))).2 = whole ++ rest := by
  rcases signed with rfl | rfl
  · cases whole with
    | nil => exact absurd rfl unpadded.proper.1
    | cons digit digits =>
        have first : digit.isDigit = true := unpadded.proper.2 digit (by simp)
        have plain : readMinus (digit :: (digits ++ rest)) = (false, digit :: (digits ++ rest)) :=
          readMinus.eq_2 _ (by rintro tail same; cases same; exact absurd first (by decide))
        simpa using congrArg Prod.snd plain
  · rfl

theorem exists_minus (text : List Char) :
    ∃ sign, (sign = [] ∨ sign = ['-']) ∧ text = sign ++ (readMinus text).2 ∧
      ((readMinus text).1 = false ↔ sign = []) := by
  unfold readMinus
  split
  · exact ⟨['-'], by simp, rfl, by simp⟩
  · exact ⟨[], by simp, rfl, by simp⟩

/-- The text from which a numeral has been read, as far as the numeral tells. -/
inductive Numeral.SpeltBy (numeral : Numeral) : List Char → Prop
  | intro {sign whole fraction exponent : List Char} (signed : sign = [] ∨ sign = ['-'])
      (unpadded : IsWhole whole) (fractional : IsFraction fraction)
      (exponential : IsExponent exponent) (positive : numeral.negative = false ↔ sign = [])
      (values : numeral.whole = digitValues whole)
      (pointless : numeral.fraction = none ↔ fraction = [])
      (unscaled : numeral.exponent = none ↔ exponent = []) :
      numeral.SpeltBy (sign ++ (whole ++ (fraction ++ exponent)))

theorem exists_numeral {numeral : Numeral} (read : readNumeral text = .ok (numeral, rest)) :
    ∃ spelt, numeral.SpeltBy spelt ∧ text = spelt ++ rest := by
  obtain ⟨sign, signed, minus, positive⟩ := exists_minus text
  unfold readNumeral at read
  dsimp only at read
  split at read
  · cases read
  · rename_i foundWhole
    obtain ⟨whole, unpadded, wholeSpelt, values⟩ := exists_whole foundWhole
    split at read
    · cases read
    · rename_i foundFraction
      obtain ⟨fraction, fractional, rfl, pointless⟩ := exists_fraction foundFraction
      split at read
      · cases read
      · rename_i foundExponent
        obtain ⟨exponent, exponential, rfl, unscaled⟩ := exists_exponent foundExponent
        cases read
        refine ⟨_, .intro signed unpadded fractional exponential positive values pointless
          unscaled, ?_⟩
        rw [minus, wholeSpelt]
        simp

theorem Numeral.SpeltBy.isNumeral {numeral : Numeral} (spelt : numeral.SpeltBy text) :
    IsNumeral text := by
  obtain ⟨signed, unpadded, fractional, exponential, _, _, _, _⟩ := spelt
  exact .intro signed unpadded fractional exponential

/-- A numeral begins with a digit or a minus sign. -/
theorem IsNumeral.exists_head (proper : IsNumeral text) :
    ∃ char tail, text = char :: tail ∧ (char.isDigit = true ∨ char = '-') := by
  obtain @⟨sign, whole, fraction, exponent, signed, unpadded, _, _⟩ := proper
  rcases signed with rfl | rfl
  · cases whole with
    | nil => exact absurd rfl unpadded.proper.1
    | cons digit digits => exact ⟨digit, _, rfl, .inl (unpadded.proper.2 digit (by simp))⟩
  · exact ⟨'-', _, rfl, .inr rfl⟩

theorem ofDigits_digitValues (digits : List Char) :
    ofDigits (digitValues digits) = Nat.ofDigitChars 10 digits 0 := by
  simp [ofDigits, digitValues, Nat.ofDigitChars_eq_foldl, List.foldl_map]

/-- Without a sign, a point and an exponent there are only digits. -/
theorem IsNumeral.plain_iff (signed : sign = [] ∨ sign = ['-']) (unpadded : IsWhole whole)
    (fractional : IsFraction fraction) (exponential : IsExponent exponent) :
    (∀ char ∈ sign ++ (whole ++ (fraction ++ exponent)), char.isDigit = true) ↔
      sign = [] ∧ fraction = [] ∧ exponent = [] := by
  constructor
  · intro plain
    refine ⟨?_, ?_, ?_⟩
    · rcases signed with rfl | rfl
      · rfl
      · exact absurd (plain '-' (by simp)) (by decide)
    · cases fractional with
      | absent => rfl
      | present _ => exact absurd (plain '.' (by simp)) (by decide)
    · cases exponential with
      | absent => rfl
      | present marked _ _ =>
          rcases marked with rfl | rfl
          · exact absurd (plain 'e' (by simp)) (by decide)
          · exact absurd (plain 'E' (by simp)) (by decide)
  · rintro ⟨rfl, rfl, rfl⟩
    simpa using unpadded.proper.2

/-- A numeral is a count if it consists of digits and is not too large. -/
theorem Numeral.SpeltBy.count?_eq_some_iff {numeral : Numeral} {value : Nat}
    (spelt : numeral.SpeltBy text) :
    numeral.count? = some value ↔
      (∀ char ∈ text, char.isDigit = true) ∧ Nat.ofDigitChars 10 text 0 = value ∧
        value ≤ maxCount := by
  obtain @⟨sign, whole, fraction, exponent, signed, unpadded, fractional, exponential, positive,
    values, pointless, unscaled⟩ := spelt
  rw [IsNumeral.plain_iff signed unpadded fractional exponential]
  simp only [Numeral.count?, Option.ite_none_right_eq_some, Option.some.injEq, positive,
    pointless, unscaled, values, ofDigits_digitValues]
  constructor
  · rintro ⟨⟨rfl, rfl, rfl, small⟩, rfl⟩
    simpa using small
  · rintro ⟨⟨rfl, rfl, rfl⟩, rfl, small⟩
    simpa using small

/-- A numeral is read to its end. -/
theorem IsNumeral.readNumeral_append (proper : IsNumeral text) (ends : Ends rest) :
    ∃ numeral, readNumeral (text ++ rest) = .ok (numeral, rest) ∧ numeral.SpeltBy text := by
  obtain ⟨numeral, read⟩ : ∃ numeral, readNumeral (text ++ rest) = .ok (numeral, rest) := by
    obtain ⟨signed, unpadded, fractional, exponential⟩ := proper
    obtain ⟨_, exponentRead⟩ := readExponent_append exponential ends
    obtain ⟨_, fractionRead⟩ := readFraction_append fractional (head_exponent exponential ends)
    have wholeRead := readWhole_append unpadded (head_fraction fractional exponential ends)
    simp only [List.append_assoc, readNumeral, readMinus_append signed unpadded, wholeRead,
      fractionRead, exponentRead]
    exact ⟨_, rfl⟩
  obtain ⟨spelt, speltBy, same⟩ := exists_numeral read
  obtain rfl : text = spelt := List.append_cancel_right same
  exact ⟨numeral, read, speltBy⟩

/-! ## Strings -/

variable {pieces : List Piece} {chars : List Char} {value : Nat}

@[simp]
theorem spell_nil : spell [] = [] := rfl

@[simp]
theorem spell_cons (piece : Piece) (pieces : List Piece) :
    spell (piece :: pieces) = piece.text ++ spell pieces := rfl

theorem spell_append (pieces more : List Piece) :
    spell (pieces ++ more) = spell pieces ++ spell more := by
  simp [spell]

theorem readHexUnit_of_proper {first second third fourth : Char}
    (proper : hexUnit? first second third fourth = some value) :
    readHexUnit (first :: second :: third :: fourth :: rest) = .ok (value, rest) := by
  simp [readHexUnit, proper]

theorem exists_hexUnit (read : readHexUnit text = .ok (value, rest)) :
    ∃ first second third fourth, hexUnit? first second third fourth = some value ∧
      text = first :: second :: third :: fourth :: rest := by
  unfold readHexUnit at read
  split at read
  · split at read
    · rename_i proper
      cases read
      exact ⟨_, _, _, _, proper, rfl⟩
    · cases read
  · split at read <;> cases read

theorem skipEscape_of_short {letter char : Char} (proper : shortEscape? letter = some char) :
    skipEscape (letter :: rest) = .ok rest := by
  rw [skipEscape.eq_3]
  · simp [proper]
  · rintro rfl
    cases proper

theorem skipEscape_of_proper {first second third fourth : Char}
    (proper : hexUnit? first second third fourth = some value) :
    skipEscape ('u' :: first :: second :: third :: fourth :: rest) = .ok rest := by
  rw [skipEscape, readHexUnit_of_proper proper]
  rfl

theorem skipQuoted_of_escape {escape : List Char} (skipped : skipEscape escape = .ok rest) :
    skipQuoted ('\\' :: escape) = skipQuoted rest := by
  rw [skipQuoted]
  split
  · rename_i refused
    rw [skipped] at refused
    cases refused
  · rename_i skippedAgain
    rw [skipped] at skippedAgain
    cases skippedAgain
    rfl

/-- A string is passed over to its end. -/
theorem skipQuoted_append (pieces : List Piece) (rest : List Char) :
    skipQuoted (spell pieces ++ '"' :: rest) = .ok rest := by
  induction pieces with
  | nil => simp [skipQuoted]
  | cons piece pieces induction =>
      cases piece with
      | plain char proper =>
          obtain ⟨noQuote, noBackslash, visible⟩ := proper
          have plain := skipQuoted.eq_4 char (spell pieces ++ '"' :: rest) noQuote noBackslash
          simpa [Piece.text, visible, induction] using plain
      | escape letter char proper =>
          exact (skipQuoted_of_escape (skipEscape_of_short proper)).trans induction
      | unit first second third fourth value proper =>
          exact (skipQuoted_of_escape (skipEscape_of_proper proper)).trans induction

theorem exists_escape (skipped : skipEscape text = .ok rest) :
    ∃ piece : Piece, '\\' :: text = piece.text ++ rest := by
  unfold skipEscape at skipped
  split at skipped
  · cases skipped
  · rename_i text
    cases found : readHexUnit text with
    | error failure =>
        rw [found] at skipped
        cases skipped
    | ok read =>
        obtain ⟨value, left⟩ := read
        rw [found] at skipped
        cases skipped
        obtain ⟨first, second, third, fourth, proper, rfl⟩ := exists_hexUnit found
        exact ⟨.unit first second third fourth value proper, rfl⟩
  · rename_i letter left _
    split at skipped
    · rename_i known
      cases skipped
      obtain ⟨char, proper⟩ := Option.isSome_iff_exists.mp known
      exact ⟨.escape letter char proper, rfl⟩
    · cases skipped

theorem exists_skipped (skipped : skipQuoted text = .ok rest) :
    ∃ pieces, text = spell pieces ++ '"' :: rest := by
  fun_induction skipQuoted text with
  | case1 => cases skipped
  | case2 rest =>
      cases skipped
      exact ⟨[], rfl⟩
  | case3 => cases skipped
  | case4 escape afterEscape found induction =>
      obtain ⟨piece, spelt⟩ := exists_escape found
      obtain ⟨pieces, rfl⟩ := induction skipped
      exact ⟨piece :: pieces, by simp [spelt]⟩
  | case5 => cases skipped
  | case6 char text noQuote noBackslash visible induction =>
      obtain ⟨pieces, rfl⟩ := induction skipped
      exact ⟨.plain char ⟨by simpa using noQuote, by simpa using noBackslash, visible⟩ :: pieces,
        rfl⟩

theorem readEscape_of_short {letter char : Char} (proper : shortEscape? letter = some char) :
    readEscape (letter :: rest) = .ok (char, rest) := by
  rw [readEscape.eq_3]
  · simp [proper]
  · rintro rfl
    cases proper

section

variable {a b c d a' b' c' d' : Char} {trailing : Nat}

theorem readEscape_of_unit (proper : hexUnit? a b c d = some value)
    (notTrailing : ¬ isTrailingSurrogate value = true)
    (notLeading : ¬ isLeadingSurrogate value = true) :
    readEscape ('u' :: a :: b :: c :: d :: rest) = .ok (Char.ofNat value, rest) := by
  simp [readEscape, readHexUnit_of_proper proper, notTrailing, notLeading]

theorem readEscape_of_pair (proper : hexUnit? a b c d = some value)
    (notTrailing : ¬ isTrailingSurrogate value = true)
    (isLeading : isLeadingSurrogate value = true)
    (properToo : hexUnit? a' b' c' d' = some trailing)
    (isTrailing : isTrailingSurrogate trailing = true) :
    readEscape ('u' :: a :: b :: c :: d :: '\\' :: 'u' :: a' :: b' :: c' :: d' :: rest) =
      .ok (joinSurrogates value trailing, rest) := by
  simp [readEscape, readTrailingSurrogate, readHexUnit_of_proper proper,
    readHexUnit_of_proper properToo, notTrailing, isLeading, isTrailing]

theorem meaning?_unit (proper : hexUnit? a b c d = some value)
    (notTrailing : ¬ isTrailingSurrogate value = true)
    (notLeading : ¬ isLeadingSurrogate value = true) (more : List Piece) :
    meaning? (.unit a b c d value proper :: more) =
      (meaning? more).map (Char.ofNat value :: ·) := by
  rw [meaning?.eq_def]
  simp [notTrailing, notLeading]

theorem meaning?_pair (proper : hexUnit? a b c d = some value)
    (notTrailing : ¬ isTrailingSurrogate value = true)
    (isLeading : isLeadingSurrogate value = true)
    (properToo : hexUnit? a' b' c' d' = some trailing)
    (isTrailing : isTrailingSurrogate trailing = true) (more : List Piece) :
    meaning? (.unit a b c d value proper :: .unit a' b' c' d' trailing properToo :: more) =
      (meaning? more).map (joinSurrogates value trailing :: ·) := by
  rw [meaning?.eq_def]
  simp [notTrailing, isLeading, isTrailing]

end

theorem exists_trailingSurrogate {leading : Nat} {char : Char}
    (read : readTrailingSurrogate leading text = .ok (char, rest)) :
    ∃ a b c d trailing, hexUnit? a b c d = some trailing ∧ isTrailingSurrogate trailing = true ∧
      text = '\\' :: 'u' :: a :: b :: c :: d :: rest ∧ char = joinSurrogates leading trailing := by
  unfold readTrailingSurrogate at read
  split at read
  · cases read
  · cases read
  · split at read
    · cases read
    · rename_i found
      split at read
      · rename_i isTrailing
        simp only [Except.ok.injEq, Prod.mk.injEq] at read
        obtain ⟨rfl, rfl⟩ := read
        obtain ⟨a, b, c, d, proper, rfl⟩ := exists_hexUnit found
        exact ⟨a, b, c, d, _, proper, isTrailing, rfl, rfl⟩
      · cases read
  · cases read

/-- What has been read from one escape, or from two for a surrogate pair. -/
theorem exists_character {escape : List Char} {char : Char}
    (read : readEscape escape = .ok (char, rest)) :
    ∃ pieces, '\\' :: escape = spell pieces ++ rest ∧
      ∀ more, meaning? (pieces ++ more) = (meaning? more).map (char :: ·) := by
  unfold readEscape at read
  split at read
  · cases read
  · split at read
    · cases read
    · rename_i found
      obtain ⟨a, b, c, d, proper, rfl⟩ := exists_hexUnit found
      split at read
      · cases read
      · rename_i notTrailing
        split at read
        · rename_i isLeading
          obtain ⟨a', b', c', d', trailing, properToo, isTrailing, rfl, joined⟩ :=
            exists_trailingSurrogate read
          refine ⟨[.unit a b c d _ proper, .unit a' b' c' d' trailing properToo],
            by simp [Piece.text], ?_⟩
          rw [joined]
          exact meaning?_pair proper notTrailing isLeading properToo isTrailing
        · rename_i notLeading
          cases read
          exact ⟨[.unit a b c d _ proper], rfl, meaning?_unit proper notTrailing notLeading⟩
  · rename_i letter left _
    split at read
    · rename_i proper
      cases read
      exact ⟨[.escape letter char proper], rfl, fun more => by simp [meaning?]⟩
    · cases read

theorem exists_quoted (read : readQuoted text = .ok (chars, rest)) :
    ∃ pieces, text = spell pieces ++ '"' :: rest ∧ meaning? pieces = some chars := by
  fun_induction readQuoted text generalizing chars rest with
  | case1 => cases read
  | case2 rest =>
      cases read
      exact ⟨[], rfl, rfl⟩
  | case3 => cases read
  | case4 => cases read
  | case5 escape char afterEscape found chars afterQuote later induction =>
      cases read
      obtain ⟨front, spelt, means⟩ := exists_character found
      obtain ⟨pieces, rfl, meansLater⟩ := induction later
      refine ⟨front ++ pieces, ?_, ?_⟩
      · rw [spelt, spell_append, List.append_assoc]
      · rw [means, meansLater, Option.map_some]
  | case6 => cases read
  | case7 => cases read
  | case8 char text noQuote noBackslash visible chars afterQuote later induction =>
      cases read
      obtain ⟨pieces, rfl, meansLater⟩ := induction later
      exact ⟨.plain char ⟨noQuote, noBackslash, visible⟩ :: pieces, rfl,
        by simp [meaning?, meansLater]⟩

theorem readQuoted_of_escape {escape : List Char} {char : Char}
    (read : readEscape escape = .ok (char, rest))
    (later : readQuoted rest = .ok (chars, digits)) :
    readQuoted ('\\' :: escape) = .ok (char :: chars, digits) := by
  rw [readQuoted]
  split
  · rename_i refused
    rw [read] at refused
    cases refused
  · rename_i readAgain
    rw [read] at readAgain
    cases readAgain
    rw [later]

/-- A string that stands for something is read to its end. -/
theorem readQuoted_append (means : meaning? pieces = some chars) (rest : List Char) :
    readQuoted (spell pieces ++ '"' :: rest) = .ok (chars, rest) := by
  fun_induction meaning? pieces generalizing chars with
  | case1 =>
      cases means
      simp [readQuoted]
  | case2 char proper pieces induction =>
      obtain ⟨chars, later, rfl⟩ := Option.map_eq_some_iff.mp means
      obtain ⟨noQuote, noBackslash, visible⟩ := proper
      have plain := readQuoted.eq_4 char (spell pieces ++ '"' :: rest) noQuote noBackslash
      simpa [Piece.text, visible, induction later] using plain
  | case3 letter char proper pieces induction =>
      obtain ⟨chars, later, rfl⟩ := Option.map_eq_some_iff.mp means
      exact readQuoted_of_escape (readEscape_of_short proper) (induction later)
  | case4 => cases means
  | case5 a b c d value proper notTrailing isLeading a' b' c' d' trailing properToo pieces
      isTrailing induction =>
      obtain ⟨chars, later, rfl⟩ := Option.map_eq_some_iff.mp means
      exact readQuoted_of_escape
        (readEscape_of_pair proper notTrailing isLeading properToo isTrailing) (induction later)
  | case6 => cases means
  | case7 => cases means
  | case8 a b c d value proper pieces notTrailing notLeading induction =>
      obtain ⟨chars, later, rfl⟩ := Option.map_eq_some_iff.mp means
      exact readQuoted_of_escape (readEscape_of_unit proper notTrailing notLeading)
        (induction later)

end Tricolor.JsonText

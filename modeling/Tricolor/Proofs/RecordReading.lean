import Mathlib.Data.List.DropRight
import Tricolor.JsonText.Record
import Tricolor.Proofs.TakenValues

/-!
# Reading records

What a record is read from is an object or an array, and the record depends on the values of
its members or items alone.
-/

namespace Tricolor.JsonText

variable {σ : Type} {fields : List (RecordField σ)} {field : RecordField σ} {defaults : σ}
  {progress after : Progress σ} {record before : σ} {member : Member} {members : List Member}
  {items : List Tree} {pieces : List Piece} {chars : List Char} {value : Tree} {first : Bool}
  {text rest : List Char} {tokens : List Token}

/-- How far a record has got with one more member. -/
inductive Notes (fields : List (RecordField σ)) (progress : Progress σ) :
    Member → Progress σ → Prop
  | unknown {pieces : List Piece} {chars : List Char} {value : Tree}
      (means : meaning? pieces = some chars)
      (unknown : (fields.find? fun field => field.name == String.ofList chars) = none) :
      Notes fields progress (pieces, value) progress
  | known {pieces : List Piece} {chars : List Char} {value : Tree} {field : RecordField σ}
      {change : σ → σ} (means : meaning? pieces = some chars)
      (known : (fields.find? fun field => field.name == String.ofList chars) = some field)
      (fresh : String.ofList chars ∉ progress.seen)
      (taken : field.reader.Takes value change) :
      Notes fields progress (pieces, value)
        { record := change progress.record, seen := String.ofList chars :: progress.seen }

/-- What becomes of a record with all these members. -/
inductive Gathers (fields : List (RecordField σ)) : Progress σ → List Member → σ → Prop
  | nil {progress : Progress σ} : Gathers fields progress [] progress.record
  | cons {progress after : Progress σ} {member : Member} {members : List Member} {record : σ}
      (noted : Notes fields progress member after)
      (gathered : Gathers fields after members record) :
      Gathers fields progress (member :: members) record

/-- What becomes of a record when the items are the values of the first fields. -/
inductive Lists : List (RecordField σ) → σ → List Tree → σ → Prop
  | nil {fields : List (RecordField σ)} {record : σ} : Lists fields record [] record
  | cons {field : RecordField σ} {fields : List (RecordField σ)} {before record : σ} {item : Tree}
      {items : List Tree} {change : σ → σ} (taken : field.reader.Takes item change)
      (listed : Lists fields (change before) items record) :
      Lists (field :: fields) before (item :: items) record

/-- A record is told by its members or by its items. -/
inductive Records (fields : List (RecordField σ)) (defaults : σ) : Tree → σ → Prop
  | object {members : List Member} {record : σ}
      (gathered : Gathers fields { record := defaults } members record) :
      Records fields defaults (.object members) record
  | array {items : List Tree} {record : σ} (listed : Lists fields defaults items record) :
      Records fields defaults (.array items) record

/-- The readers of the fields have regard to values alone. -/
def Lawful (fields : List (RecordField σ)) : Prop :=
  ∀ field ∈ fields, field.reader.Denotes field.reader.Takes

/-! ## Members -/

theorem readMember_spaced (means : meaning? pieces = some chars)
    (noted : Notes fields progress (pieces, value) after) (stops : Stops tokens)
    (spaced : Spaced (.colon :: (value.tokens ++ tokens)) text) :
    ∃ rest, Spaced tokens rest ∧
      readMember fields progress (String.ofList chars) text = .ok (after, rest) := by
  obtain ⟨afterColon, valued, colon⟩ := readColon_spaced spaced
  cases noted with
  | unknown again unknown =>
      obtain rfl : _ = chars := Option.some.inj (again.symm.trans means)
      obtain ⟨rest, later, skipped⟩ := value.skipValue_spaced stops valued
      exact ⟨rest, later, by simp only [readMember, unknown, colon, skipped]⟩
  | known again known fresh taken =>
      obtain rfl : _ = chars := Option.some.inj (again.symm.trans means)
      obtain ⟨rest, later, read⟩ := taken tokens afterColon stops valued
      exact ⟨rest, later, by simp only [readMember, known, fresh, if_false, colon, read]⟩

theorem exists_noted (lawful : Lawful fields) (means : meaning? pieces = some chars)
    (read : readMember fields progress (String.ofList chars) text = .ok (after, rest)) :
    ∃ value, Notes fields progress (pieces, value) after ∧
      ∀ tokens, Spaced tokens rest → Spaced (.colon :: (value.tokens ++ tokens)) text := by
  unfold readMember at read
  split at read
  · rename_i unknown
    split at read
    · cases read
    · rename_i colon
      split at read
      · cases read
      · rename_i skipped
        cases read
        obtain ⟨value, traced⟩ := exists_tree_of_skipValue skipped
        exact ⟨value, .unknown means unknown, fun tokens later =>
          spaced_of_readColon colon (traced tokens later)⟩
  · rename_i known
    split at read
    · cases read
    · rename_i fresh
      split at read
      · cases read
      · rename_i colon
        split at read
        · cases read
        · rename_i found
          cases read
          obtain ⟨value, taken, traced⟩ := (lawful _ (List.mem_of_find?_eq_some known)).traced found
          exact ⟨value, .known means known fresh taken, fun tokens later =>
            spaced_of_readColon colon (traced tokens later)⟩

theorem nextMember_spaced (spaced : Spaced (separator first ++ .quoted pieces :: tokens) text) :
    ∃ rest, Spaced tokens rest ∧
      nextMember first text = .ok (.item (spell pieces ++ '"' :: rest)) := by
  cases first with
  | true =>
      obtain ⟨rest, skipped, later⟩ := spaced_cons_iff.mp spaced
      exact ⟨rest, later, by simp [nextMember, skipped, Token.text]⟩
  | false =>
      obtain ⟨begun, separated, named⟩ := spaced_cons_iff.mp spaced
      obtain ⟨rest, skipped, later⟩ := spaced_cons_iff.mp named
      exact ⟨rest, later, by simp [nextMember, separated, skipped, Token.text]⟩

theorem spaced_of_nextMember
    (next : nextMember first text = .ok (.item (spell pieces ++ '"' :: rest)))
    (later : Spaced tokens rest) : Spaced (separator first ++ .quoted pieces :: tokens) text := by
  unfold nextMember at next
  split at next
  · cases next
  · cases next
  · rename_i opened
    split at next
    · rename_i begins
      cases next
      subst begins
      exact spaced_cons_iff.mpr ⟨rest, by simp [opened, Token.text], later⟩
    · cases next
  · rename_i separated
    split at next
    · cases next
    · rename_i begins
      split at next
      · cases next
      · rename_i opened
        cases next
        obtain rfl : first = false := by simpa using begins
        exact spaced_cons_iff.mpr ⟨_, separated,
          spaced_cons_iff.mpr ⟨rest, by simp [opened, Token.text], later⟩⟩
      · cases next
  · cases next

theorem nextMember_closing (spaced : Spaced (.closing .object :: tokens) text) :
    ∃ rest, Spaced tokens rest ∧ nextMember first text = .ok (.close rest) := by
  obtain ⟨rest, skipped, later⟩ := spaced_cons_iff.mp spaced
  exact ⟨rest, later, by simp [nextMember, skipped, Token.text, Bracket.closing]⟩

theorem spaced_of_nextMember_close (next : nextMember first text = .ok (.close rest))
    (later : Spaced tokens rest) : Spaced (.closing .object :: tokens) text := by
  unfold nextMember at next
  split at next
  · cases next
  · rename_i closed
    cases next
    exact spaced_cons_iff.mpr ⟨rest, closed, later⟩
  · split at next <;> cases next
  · split at next
    · cases next
    · split at next <;> cases next
  · cases next

theorem readMembers_of_close (next : nextMember first text = .ok (.close rest)) :
    readMembers fields first progress text = .ok (progress.record, rest) := by
  rw [readMembers]
  split <;> simp_all

theorem readMembers_of_item {quoted afterName : List Char}
    (next : nextMember first text = .ok (.item quoted))
    (named : readQuoted quoted = .ok (chars, afterName))
    (read : readMember fields progress (String.ofList chars) afterName = .ok (after, rest)) :
    readMembers fields first progress text = readMembers fields false after rest := by
  rw [readMembers]
  split
  · simp_all
  · simp_all
  · split
    · simp_all
    · split <;> simp_all

theorem readMembers_spaced (gathered : Gathers fields progress members record)
    (spaced : Spaced (memberTokens first members ++ tokens) text) :
    ∃ rest, Spaced tokens rest ∧
      readMembers fields first progress text = .ok (record, rest) := by
  induction gathered generalizing first text with
  | nil =>
      obtain ⟨rest, later, closed⟩ := nextMember_closing spaced
      exact ⟨rest, later, readMembers_of_close closed⟩
  | @cons progress after member members record noted gathered induction =>
      obtain ⟨pieces, value⟩ := member
      obtain ⟨chars, means⟩ : ∃ chars, meaning? pieces = some chars := by
        cases noted with
        | unknown means => exact ⟨_, means⟩
        | known means => exact ⟨_, means⟩
      rw [memberTokens_cons] at spaced
      obtain ⟨afterName, valued, next⟩ := nextMember_spaced spaced
      obtain ⟨afterValue, begun, read⟩ :=
        readMember_spaced means noted (stops_memberTokens members tokens) valued
      obtain ⟨rest, later, readLater⟩ := induction begun
      exact ⟨rest, later,
        (readMembers_of_item next (readQuoted_append means afterName) read).trans readLater⟩

theorem exists_gathered (lawful : Lawful fields)
    (read : readMembers fields first progress text = .ok (record, rest)) :
    ∃ members, Gathers fields progress members record ∧
      ∀ tokens, Spaced tokens rest → Spaced (memberTokens first members ++ tokens) text := by
  fun_induction readMembers fields first progress text with
  | case1 => cases read
  | case2 first progress text afterClose closed =>
      cases read
      exact ⟨[], .nil, fun tokens later => spaced_of_nextMember_close closed later⟩
  | case3 => cases read
  | case4 => cases read
  | case5 first progress text quoted next name afterName named progressAfter afterMember found
      induction =>
      obtain ⟨pieces, rfl, means⟩ := exists_quoted named
      obtain ⟨value, noted, memberTraced⟩ := exists_noted lawful means found
      obtain ⟨members, gathered, traced⟩ := induction read
      refine ⟨(pieces, value) :: members, .cons noted gathered, fun tokens later => ?_⟩
      rw [memberTokens_cons]
      exact spaced_of_nextMember next (memberTraced _ (traced tokens later))

/-! ## Items -/

theorem spaced_skipBlanks_iff : Spaced tokens (skipBlanks text) ↔ Spaced tokens text := by
  have idempotent : skipBlanks (skipBlanks text) = skipBlanks text := List.dropWhile_idempotent _ _
  cases tokens with
  | nil => simp only [spaced_nil_iff, idempotent]
  | cons token tokens => simp only [spaced_cons_iff, idempotent]

theorem nextElement_spaced {item : Tree}
    (spaced : Spaced (separator first ++ (item.tokens ++ tokens)) text) :
    ∃ begun, Spaced (item.tokens ++ tokens) begun ∧
      nextElement first text = .ok (.item begun) := by
  cases first with
  | true =>
      obtain ⟨char, rest, skipped, noClosing⟩ := item.exists_head spaced
      refine ⟨char :: rest, skipped ▸ spaced_skipBlanks_iff.mpr spaced, ?_⟩
      have goesOn : char ≠ ']' := noClosing .array
      simp [nextElement, skipped, goesOn]
  | false =>
      obtain ⟨begun, separated, valued⟩ := spaced_cons_iff.mp spaced
      obtain ⟨char, rest, skipped, noClosing⟩ := item.exists_head valued
      refine ⟨char :: rest, skipped ▸ spaced_skipBlanks_iff.mpr valued, ?_⟩
      have goesOn : char ≠ ']' := noClosing .array
      simp [nextElement, separated, Token.text, skipped, goesOn]

theorem spaced_of_nextElement (next : nextElement first text = .ok (.item rest))
    (later : Spaced tokens rest) : Spaced (separator first ++ tokens) text := by
  unfold nextElement at next
  split at next
  · cases next
  · rename_i skipped
    split at next
    · cases next
    · split at next
      · rename_i begins
        cases next
        subst begins
        rwa [← skipped, spaced_skipBlanks_iff] at later
      · rename_i begun
        obtain rfl : first = false := by simpa using begun
        split at next
        · rename_i separates
          subst separates
          split at next
          · cases next
          · rename_i skippedAfter
            split at next
            · cases next
            · cases next
              rw [← skippedAfter, spaced_skipBlanks_iff] at later
              exact spaced_cons_iff.mpr ⟨_, skipped, later⟩
        · cases next

theorem nextElement_closing (first : Bool) (spaced : Spaced (.closing .array :: tokens) text) :
    ∃ rest, Spaced tokens rest ∧ nextElement first text = .ok (.close rest) := by
  obtain ⟨rest, skipped, later⟩ := spaced_cons_iff.mp spaced
  exact ⟨rest, later, by simp [nextElement, skipped, Token.text, Bracket.closing]⟩

theorem spaced_of_nextElement_close (next : nextElement first text = .ok (.close rest))
    (later : Spaced tokens rest) : Spaced (.closing .array :: tokens) text := by
  unfold nextElement at next
  split at next
  · cases next
  · rename_i skipped
    split at next
    · rename_i closes
      cases next
      subst closes
      exact spaced_cons_iff.mpr ⟨rest, skipped, later⟩
    · split at next
      · cases next
      · split at next
        · split at next
          · cases next
          · split at next <;> cases next
        · cases next

theorem readBracket_spaced (spaced : Spaced (.closing .array :: tokens) text) :
    ∃ rest, Spaced tokens rest ∧ readBracket text = .ok rest := by
  obtain ⟨rest, skipped, later⟩ := spaced_cons_iff.mp spaced
  exact ⟨rest, later, by simp [readBracket, skipped, Token.text, Bracket.closing]⟩

theorem spaced_of_readBracket (read : readBracket text = .ok rest) (later : Spaced tokens rest) :
    Spaced (.closing .array :: tokens) text := by
  unfold readBracket at read
  split at read
  · cases read
  · rename_i skipped
    cases read
    exact spaced_cons_iff.mpr ⟨rest, skipped, later⟩
  · cases read

theorem readElements_spaced (listed : Lists fields before items record)
    (spaced : Spaced (itemTokens first items ++ tokens) text) :
    ∃ rest, Spaced tokens rest ∧ readElements fields first before text = .ok (record, rest) := by
  induction listed generalizing first text with
  | @nil fields record =>
      cases fields with
      | nil =>
          obtain ⟨rest, later, closed⟩ := readBracket_spaced spaced
          exact ⟨rest, later, by simp only [readElements, closed]⟩
      | cons field fields =>
          obtain ⟨rest, later, closed⟩ := nextElement_closing first spaced
          exact ⟨rest, later, by simp only [readElements, closed]⟩
  | @cons field fields before record item items change taken listed induction =>
      rw [itemTokens_cons] at spaced
      obtain ⟨begun, valued, next⟩ := nextElement_spaced spaced
      obtain ⟨afterItem, begunNext, read⟩ :=
        taken (itemTokens false items ++ tokens) begun (stops_itemTokens items tokens) valued
      obtain ⟨rest, later, readLater⟩ := induction begunNext
      exact ⟨rest, later, by simp only [readElements, next, read, readLater]⟩

theorem exists_listed (lawful : Lawful fields)
    (read : readElements fields first before text = .ok (record, rest)) :
    ∃ items, Lists fields before items record ∧
      ∀ tokens, Spaced tokens rest → Spaced (itemTokens first items ++ tokens) text := by
  induction fields generalizing first before text with
  | nil =>
      simp only [readElements] at read
      split at read
      · cases read
      · rename_i closed
        cases read
        exact ⟨[], .nil, fun tokens later => spaced_of_readBracket closed later⟩
  | cons field fields induction =>
      simp only [readElements] at read
      split at read
      · cases read
      · rename_i closed
        cases read
        exact ⟨[], .nil, fun tokens later => spaced_of_nextElement_close closed later⟩
      · rename_i next
        split at read
        · cases read
        · rename_i found
          obtain ⟨item, taken, itemTraced⟩ := (lawful field (by simp)).traced found
          obtain ⟨items, listed, traced⟩ :=
            induction (fun other among => lawful other (by simp [among])) read
          refine ⟨item :: items, .cons taken listed, fun tokens later => ?_⟩
          rw [itemTokens_cons]
          exact spaced_of_nextElement next (itemTraced _ (traced tokens later))

/-! ## Records -/

theorem record_denotes (lawful : Lawful fields) (defaults : σ) :
    (JsonText.record fields defaults).Denotes (Records fields defaults) where
  takes := by
    rintro _ _ (gathered | listed) tokens text stops spaced
    · obtain ⟨inside, opened, begun⟩ := spaced_object_iff.mp spaced
      obtain ⟨rest, later, read⟩ := readMembers_spaced gathered begun
      exact ⟨rest, later, by simp [JsonText.record, readRecord, opened, read]⟩
    · obtain ⟨inside, opened, begun⟩ := spaced_array_iff.mp spaced
      obtain ⟨rest, later, read⟩ := readElements_spaced listed begun
      exact ⟨rest, later, by simp [JsonText.record, readRecord, opened, read]⟩
  traced := by
    intro text record rest read
    simp only [JsonText.record, readRecord] at read
    split at read
    · rename_i opened
      obtain ⟨items, listed, traced⟩ := exists_listed lawful read
      exact ⟨.array items, .array listed, fun tokens later =>
        spaced_array_iff.mpr ⟨_, opened, traced tokens later⟩⟩
    · rename_i opened
      obtain ⟨members, gathered, traced⟩ := exists_gathered lawful read
      exact ⟨.object members, .object gathered, fun tokens later =>
        spaced_object_iff.mpr ⟨_, opened, traced tokens later⟩⟩
    · cases read

end Tricolor.JsonText

import Mathlib.Data.List.Forall2
import Mathlib.Data.List.Nodup
import Mathlib.Data.List.Perm.Basic
import Tricolor.Proofs.RecordReading

/-!
# What records mean

A record depends on the values that are given under the names of its fields and on nothing
else.  The members of an object give their values under their names, and an array gives its
items under the names of the first fields.
-/

namespace Tricolor.JsonText

variable {α σ : Type} {fields : List (RecordField σ)} {field : RecordField σ} {defaults : σ}
  {progress : Progress σ} {record before : σ} {members moved : List Member} {items : List Tree}
  {given given' : List (String × Tree)} {name : String} {names : List String} {tree tree' : Tree}
  {change : σ → σ}

/-- The member gives its value under its name. -/
def Member.Gives (member : Member) (entry : String × Tree) : Prop :=
  meaning? member.1 = some entry.1.toList ∧ member.2 = entry.2

/-- No name of these is given twice.  Others may be. -/
def Once (names : List String) (given : List (String × Tree)) : Prop :=
  ∀ name ∈ names, (given.map Prod.fst).count name ≤ 1

/-- A value under the name means `value`, and without one it is the default. -/
def Given (given : List (String × Tree)) (name : String) (means : Tree → α → Prop)
    (default value : α) : Prop :=
  match given.lookup name with
  | none => value = default
  | some tree => means tree value

/-- A record with fields of these names is told by what is given under them. -/
inductive Describes (names : List String) (told : List (String × Tree) → σ → Prop) :
    Tree → σ → Prop
  | object {members : List Member} {given : List (String × Tree)} {record : σ}
      (gives : List.Forall₂ Member.Gives members given) (once : Once names given)
      (holds : told given record) : Describes names told (.object members) record
  | array {items : List Tree} {record : σ} (short : items.length ≤ names.length)
      (holds : told (names.zip items) record) : Describes names told (.array items) record

/-- What becomes of a record when each field, in the order of the fields, takes what is given
under its name. -/
inductive Assembles (given : List (String × Tree)) : List (RecordField σ) → σ → σ → Prop
  | nil {record : σ} : Assembles given [] record record
  | absent {field : RecordField σ} {fields : List (RecordField σ)} {before record : σ}
      (absent : given.lookup field.name = none) (later : Assembles given fields before record) :
      Assembles given (field :: fields) before record
  | present {field : RecordField σ} {fields : List (RecordField σ)} {before record : σ}
      {tree : Tree} {change : σ → σ} (found : given.lookup field.name = some tree)
      (taken : field.reader.Takes tree change)
      (later : Assembles given fields (change before) record) :
      Assembles given (field :: fields) before record

/-- Whichever of the two fields is set first, the record becomes the same. -/
def RecordField.Commutes (field other : RecordField σ) : Prop :=
  ∀ tree tree' change change', field.reader.Takes tree change →
    other.reader.Takes tree' change' → ∀ record, change (change' record) = change' (change record)

/-- The fields have names of their own and do not interfere. -/
structure Orderly (fields : List (RecordField σ)) : Prop where
  lawful : Lawful fields
  distinct : (fields.map RecordField.name).Nodup
  commute : fields.Pairwise RecordField.Commutes

/-- What is true of the default and of whatever can be meant is true of the value. -/
theorem Given.holds {means : Tree → α → Prop} {default value : α} {property : α → Prop}
    (told : Given given name means default value) (ofDefault : property default)
    (ofMeant : ∀ {tree value}, means tree value → property value) : property value := by
  unfold Given at told
  split at told
  · exact told ▸ ofDefault
  · exact ofMeant told

theorem Describes.exists_told {told : List (String × Tree) → σ → Prop}
    (described : Describes names told tree record) : ∃ given, told given record := by
  cases described with
  | object _ _ holds => exact ⟨_, holds⟩
  | array _ holds => exact ⟨_, holds⟩

/-! ## Assembling -/

theorem lookup_cons_of_ne {value : Tree} (different : name ≠ field.name) :
    List.lookup field.name ((name, value) :: given) = given.lookup field.name := by
  have other : (field.name == name) = false := by simp [different.symm]
  rw [List.lookup_cons, other]

theorem Assembles.congr (assembled : Assembles given fields before record)
    (same : ∀ field ∈ fields, given.lookup field.name = given'.lookup field.name) :
    Assembles given' fields before record := by
  induction assembled with
  | nil => exact .nil
  | absent absent later induction =>
      exact .absent ((same _ (by simp)).symm.trans absent)
        (induction fun field among => same field (by simp [among]))
  | present found taken later induction =>
      exact .present ((same _ (by simp)).symm.trans found) taken
        (induction fun field among => same field (by simp [among]))

theorem assembles_nothing_iff : Assembles [] fields before record ↔ record = before := by
  constructor
  · intro assembled
    induction assembled with
    | nil => rfl
    | absent absent later induction => exact induction
    | present found => cases found
  · rintro rfl
    induction fields with
    | nil => exact .nil
    | cons field fields induction => exact .absent rfl induction

theorem assembles_cons_other_iff {value : Tree} (unknown : name ∉ fields.map RecordField.name) :
    Assembles ((name, value) :: given) fields before record ↔
      Assembles given fields before record := by
  have same : ∀ field ∈ fields,
      List.lookup field.name ((name, value) :: given) = given.lookup field.name := by
    intro field among
    apply lookup_cons_of_ne
    rintro rfl
    exact unknown (List.mem_map_of_mem among)
  exact ⟨fun assembled => assembled.congr same,
    fun assembled => assembled.congr fun field among => (same field among).symm⟩

/-- A value given first may as well be taken first. -/
theorem assembles_cons_known_iff (orderly : Orderly fields) (among : field ∈ fields)
    (absent : given.lookup field.name = none) (taken : field.reader.Takes tree change) :
    Assembles ((field.name, tree) :: given) fields before record ↔
      Assembles given fields (change before) record := by
  induction fields generalizing before with
  | nil => cases among
  | cons head fields induction =>
      -- A field before this one takes what it took, and its change commutes with the new one.
      have apart := List.nodup_cons.mp orderly.distinct
      have later : Orderly fields :=
        ⟨fun other among => orderly.lawful other (by simp [among]), apart.2,
          (List.pairwise_cons.mp orderly.commute).2⟩
      rcases List.mem_cons.mp among with rfl | among
      · constructor
        · rintro (_ | ⟨missing, -⟩ | ⟨found, taken', assembled⟩)
          · simp at missing
          · obtain rfl : tree = _ := by simpa using found
            obtain rfl := taken.unique taken'
            exact .absent absent ((assembles_cons_other_iff apart.1).mp assembled)
        · rintro (_ | ⟨-, assembled⟩ | ⟨found, -, -⟩)
          · exact .present (by simp) taken ((assembles_cons_other_iff apart.1).mpr assembled)
          · rw [absent] at found
            cases found
      · have different : field.name ≠ head.name := fun same =>
          apart.1 (same ▸ List.mem_map_of_mem among)
        have commute := (List.pairwise_cons.mp orderly.commute).1 field among
        constructor
        · rintro (_ | ⟨missing, assembled⟩ | ⟨found, headTaken, assembled⟩)
          · rw [lookup_cons_of_ne different] at missing
            exact .absent missing ((induction later among).mp assembled)
          · rw [lookup_cons_of_ne different] at found
            refine .present found headTaken ?_
            rw [commute _ _ _ _ headTaken taken]
            exact (induction later among).mp assembled
        · rintro (_ | ⟨missing, assembled⟩ | ⟨found, headTaken, assembled⟩)
          · rw [← lookup_cons_of_ne different] at missing
            exact .absent missing ((induction later among).mpr assembled)
          · rw [← lookup_cons_of_ne different] at found
            rw [commute _ _ _ _ headTaken taken] at assembled
            exact .present found headTaken ((induction later among).mpr assembled)

theorem Assembles.exists_taken (assembled : Assembles given fields before record)
    (among : field ∈ fields) (found : given.lookup field.name = some tree) :
    ∃ change, field.reader.Takes tree change := by
  induction assembled with
  | nil => cases among
  | absent absent later induction =>
      rcases List.mem_cons.mp among with rfl | among
      · rw [absent] at found
        cases found
      · exact induction among
  | present found' taken later induction =>
      rcases List.mem_cons.mp among with rfl | among
      · obtain rfl := Option.some.inj (found'.symm.trans found)
        exact ⟨_, taken⟩
      · exact induction among

/-! ## Objects -/

theorem mem_of_find?_name (found : (fields.find? fun field => field.name == name) = some field) :
    field ∈ fields ∧ field.name = name :=
  ⟨List.mem_of_find?_eq_some found, by simpa using List.find?_some found⟩

theorem lookup_eq_none_of_not_mem (unknown : name ∉ given.map Prod.fst) :
    given.lookup name = none := by
  simp only [List.lookup_eq_none_iff]
  intro entry among
  simpa using fun same : name = entry.1 => unknown (same ▸ List.mem_map_of_mem among)

theorem not_mem_of_count_le_one {seen keys : List String}
    (once : (seen ++ name :: keys).count name ≤ 1) : name ∉ seen ∧ name ∉ keys := by
  simp only [List.count_append, List.count_cons_self] at once
  constructor
  · rw [← List.count_eq_zero]
    omega
  · rw [← List.count_eq_zero]
    omega

/-- Members told one after the other leave a value under each name. -/
theorem Gathers.exists_given (orderly : Orderly fields)
    (gathered : Gathers fields progress members record) (distinct : progress.seen.Nodup) :
    ∃ given, List.Forall₂ Member.Gives members given ∧
      (∀ name ∈ fields.map RecordField.name,
        (progress.seen ++ given.map Prod.fst).count name ≤ 1) ∧
      Assembles given fields progress.record record := by
  -- A member's name goes from those to come to those seen, and the two are counted together.
  induction gathered with
  | nil =>
      exact ⟨[], .nil, fun name _ => by simpa using List.nodup_iff_count_le_one.mp distinct name,
        assembles_nothing_iff.mpr rfl⟩
  | @cons progress after member members record noted gathered induction =>
      cases noted with
      | @unknown pieces chars value means unknown =>
          obtain ⟨given, gives, once, assembled⟩ := induction distinct
          have other : String.ofList chars ∉ fields.map RecordField.name := by simpa using unknown
          refine ⟨(String.ofList chars, value) :: given, .cons ⟨by simpa using means, rfl⟩ gives,
            fun name known => ?_, (assembles_cons_other_iff other).mpr assembled⟩
          have different : String.ofList chars ≠ name := fun same => other (same ▸ known)
          simpa [List.count_cons, different] using once name known
      | @known pieces chars value field change means known fresh taken =>
          obtain ⟨among, named⟩ := mem_of_find?_name known
          obtain ⟨given, gives, onceAfter, assembled⟩ :=
            induction (List.nodup_cons.mpr ⟨fresh, distinct⟩)
          have once : ∀ name ∈ fields.map RecordField.name,
              (progress.seen ++ String.ofList chars :: given.map Prod.fst).count name ≤ 1 :=
            fun name known => List.perm_middle.count_eq name ▸ onceAfter name known
          refine ⟨(String.ofList chars, value) :: given, .cons ⟨by simpa using means, rfl⟩ gives,
            once, ?_⟩
          have absent :=
            (not_mem_of_count_le_one (once _ (named ▸ List.mem_map_of_mem among))).2
          rw [← named] at absent ⊢
          exact (assembles_cons_known_iff orderly among (lookup_eq_none_of_not_mem absent)
            taken).mpr assembled

/-- Values under their names are told by members one after the other. -/
theorem gathers_of_given (orderly : Orderly fields)
    (gives : List.Forall₂ Member.Gives members given)
    (once : ∀ name ∈ fields.map RecordField.name,
      (progress.seen ++ given.map Prod.fst).count name ≤ 1)
    (assembled : Assembles given fields progress.record record) :
    Gathers fields progress members record := by
  induction gives generalizing progress with
  | nil =>
      obtain rfl := assembles_nothing_iff.mp assembled
      exact .nil
  | @cons member entry members given gives later induction =>
      obtain ⟨pieces, value⟩ := member
      obtain ⟨name, _⟩ := entry
      obtain ⟨means, rfl⟩ := gives
      have spelt : String.ofList name.toList = name := by simp
      cases found : fields.find? fun field => field.name == name with
      | none =>
          have unknown : name ∉ fields.map RecordField.name := by simpa using found
          refine .cons (.unknown means (spelt.symm ▸ found))
            (induction (fun known among => ?_) ((assembles_cons_other_iff unknown).mp assembled))
          have different : name ≠ known := fun same => unknown (same ▸ among)
          simpa [List.count_cons, different] using once known among
      | some field =>
          obtain ⟨among, rfl⟩ := mem_of_find?_name found
          obtain ⟨change, taken⟩ : ∃ change, field.reader.Takes value change :=
            assembled.exists_taken among (by simp)
          obtain ⟨fresh, absent⟩ :=
            not_mem_of_count_le_one (once field.name (List.mem_map_of_mem among))
          have assembled := (assembles_cons_known_iff orderly among
            (lookup_eq_none_of_not_mem absent) taken).mp assembled
          refine .cons (.known means (spelt.symm ▸ found) (spelt.symm ▸ fresh) taken)
            (induction (fun known among => ?_) assembled)
          simpa [List.count_cons, Nat.add_assoc] using once known among

/-! ## Arrays -/

theorem lists_iff (distinct : (fields.map RecordField.name).Nodup) :
    Lists fields before items record ↔ items.length ≤ fields.length ∧
      Assembles ((fields.map RecordField.name).zip items) fields before record := by
  induction fields generalizing before items with
  | nil =>
      constructor
      · rintro ⟨⟩
        exact ⟨by simp, .nil⟩
      · rintro ⟨short, ⟨⟩⟩
        obtain rfl := List.eq_nil_of_length_eq_zero (Nat.le_zero.mp short)
        exact .nil
  | cons field fields induction =>
      have apart := List.nodup_cons.mp distinct
      cases items with
      | nil =>
          rw [List.zip_nil_right, assembles_nothing_iff]
          constructor
          · rintro ⟨⟩
            simp
          · rintro ⟨-, rfl⟩
            exact .nil
      | cons item items =>
          simp only [List.map_cons, List.zip_cons_cons, List.length_cons, Nat.add_le_add_iff_right]
          constructor
          · rintro (_ | ⟨taken, listed⟩)
            obtain ⟨short, assembled⟩ := (induction apart.2).mp listed
            exact ⟨short, .present (by simp) taken
              ((assembles_cons_other_iff apart.1).mpr assembled)⟩
          · rintro ⟨short, assembled⟩
            obtain _ | ⟨missing, -⟩ | ⟨found, taken, assembled⟩ := assembled
            · simp at missing
            · obtain rfl : item = _ := by simpa using found
              exact .cons taken ((induction apart.2).mpr
                ⟨short, (assembles_cons_other_iff apart.1).mp assembled⟩)

/-! ## Records -/

/-- A record is told by what is given under the names of its fields. -/
theorem records_iff_describes (orderly : Orderly fields) :
    Records fields defaults tree record ↔
      Describes (fields.map RecordField.name)
        (fun given record => Assembles given fields defaults record) tree record := by
  constructor
  · rintro (gathered | listed)
    · obtain ⟨given, gives, once, assembled⟩ := gathered.exists_given orderly List.nodup_nil
      exact .object gives once assembled
    · obtain ⟨short, assembled⟩ := (lists_iff orderly.distinct).mp listed
      exact .array (by simpa using short) assembled
  · rintro (⟨gives, once, assembled⟩ | ⟨short, assembled⟩)
    · exact .object (gathers_of_given orderly gives once assembled)
    · exact .array ((lists_iff orderly.distinct).mpr ⟨by simpa using short, assembled⟩)

/-- The reader of a record, told by a record's settings rather than field by field. -/
theorem records_iff_of_told {told : List (String × Tree) → σ → Prop} (orderly : Orderly fields)
    (assembles : ∀ {given record}, Assembles given fields defaults record ↔ told given record) :
    Records fields defaults tree record ↔
      Describes (fields.map RecordField.name) told tree record := by
  simp only [records_iff_describes orderly, assembles]

theorem record_denotes_of_told {told : List (String × Tree) → σ → Prop} (orderly : Orderly fields)
    (assembles : ∀ {given record}, Assembles given fields defaults record ↔ told given record) :
    (JsonText.record fields defaults).Denotes (Describes (fields.map RecordField.name) told) := by
  have means {tree : Tree} {record : σ} : Records fields defaults tree record ↔ _ :=
    records_iff_of_told orderly assembles
  have denotes := record_denotes orderly.lawful defaults
  constructor
  · exact fun described => denotes.takes (means.mpr described)
  · intro text record rest read
    obtain ⟨tree, recorded, traced⟩ := denotes.traced read
    exact ⟨tree, means.mp recorded, traced⟩

/-! ## Fields that are assigned -/

section Assignment

variable {β : Type} {reader : Reader α} {other : Reader β} {means : Tree → α → Prop}
  {assign : α → σ → σ} {assignOther : β → σ → σ} {otherName : String} {default : α}

theorem exists_assigned (taken : (reader.map assign).Takes tree change) :
    ∃ value, change = assign value := by
  obtain ⟨text, spaced⟩ := exists_spaced (tree.tokens ++ [])
  obtain ⟨rest, -, read⟩ := taken [] text stops_nil spaced
  simp only [Reader.map] at read
  split at read
  · cases read
  · cases read
    exact ⟨_, rfl⟩

theorem commutes_of
    (commute : ∀ value value' record,
      assign value (assignOther value' record) = assignOther value' (assign value record)) :
    (RecordField.of name reader assign).Commutes (RecordField.of otherName other assignOther) := by
  intro tree tree' change change' taken taken' record
  obtain ⟨value, rfl⟩ := exists_assigned taken
  obtain ⟨value', rfl⟩ := exists_assigned taken'
  exact commute value value' record

/-- The value of a field is what is given under its name, or else its default, whatever is given
under other names. -/
theorem assembles_field_iff (denotes : reader.Denotes means)
    (keeps : assign default before = before) :
    Assembles given (.of name reader assign :: fields) before record ↔
      ∃ value, Given given name means default value ∧
        Assembles given fields (assign value before) record := by
  have takes {tree : Tree} {change : σ → σ} :
      (RecordField.of name reader assign).reader.Takes tree change ↔
        ∃ value, means tree value ∧ change = assign value :=
    (denotes.map assign).takes_iff
  unfold Given
  constructor
  · rintro (_ | ⟨absent, later⟩ | ⟨found, taken, later⟩)
    · exact ⟨default, by simp [show given.lookup name = none from absent], by rwa [keeps]⟩
    · obtain ⟨value, meant, rfl⟩ := takes.mp taken
      exact ⟨value, by simpa [show given.lookup name = some _ from found] using meant, later⟩
  · rintro ⟨value, told, later⟩
    split at told
    · rename_i absent
      rw [told, keeps] at later
      exact .absent absent later
    · rename_i found
      exact .present found (takes.mpr ⟨value, told, rfl⟩) later

end Assignment

/-! ## Rearranging -/

/-- A member of another name. -/
def Member.Unknown (names : List String) (member : Member) : Prop :=
  ∃ name, meaning? member.1 = some name.toList ∧ name ∉ names

/-- The same members in any order, with members of other names among them. -/
def Padded (names : List String) (members moved : List Member) : Prop :=
  ∃ extra : List Member, (∀ member ∈ extra, member.Unknown names) ∧ moved.Perm (members ++ extra)

/-- Two ways to write down the same record: an object whose members are moved among others, each
as it was or as `alike` allows, and an array with the values of the first members. -/
inductive Rewrites (names : List String) (alike : Member → Member → Prop) : Tree → Tree → Prop
  | object {members changed moved : List Member} (changes : List.Forall₂ alike members changed)
      (padded : Padded names changed moved) : Rewrites names alike (.object members) (.object moved)
  | array {items : List Tree} {members : List Member} (short : items.length ≤ names.length)
      (gives : List.Forall₂ Member.Gives members (names.zip items)) :
      Rewrites names alike (.array items) (.object members)

/-- Told by what is given under the names. -/
def Local (names : List String) (told : List (String × Tree) → σ → Prop) : Prop :=
  ∀ {given given' record}, (∀ name ∈ names, given.lookup name = given'.lookup name) →
    told given record → told given' record

theorem lookup_eq_some_iff_mem (once : (given.map Prod.fst).count name ≤ 1) :
    given.lookup name = some tree ↔ (name, tree) ∈ given := by
  induction given with
  | nil => simp
  | cons entry given induction =>
      obtain ⟨other, value⟩ := entry
      by_cases same : name = other
      · subst same
        have absent : name ∉ given.map Prod.fst := by
          rw [← List.count_eq_zero]
          simpa using once
        have none : (name, tree) ∉ given := fun among => absent (List.mem_map_of_mem among)
        simp [none, eq_comm]
      · have different : (name == other) = false := by simpa using same
        have later := induction (by simpa [List.count_cons, Ne.symm same] using once)
        rw [List.lookup_cons, different]
        simp [later, same]

theorem lookup_eq_of_perm (moved : given.Perm given')
    (once : (given.map Prod.fst).count name ≤ 1) : given.lookup name = given'.lookup name := by
  have once' : (given'.map Prod.fst).count name ≤ 1 := (moved.map Prod.fst).count_eq name ▸ once
  ext tree
  rw [lookup_eq_some_iff_mem once, lookup_eq_some_iff_mem once', moved.mem_iff]

section Unknown

variable {others : List (String × Tree)} (unknown : ∀ entry ∈ others, entry.1 ∉ names)
  (order : given'.Perm (given ++ others))

include unknown

theorem not_mem_of_unknown (among : name ∈ names) : name ∉ others.map Prod.fst := by
  intro found
  obtain ⟨entry, there, rfl⟩ := List.mem_map.mp found
  exact unknown entry there among

include order

theorem once_padded_iff : Once names given ↔ Once names given' := by
  refine forall₂_congr fun name among => ?_
  have absent := List.count_eq_zero.mpr (not_mem_of_unknown unknown among)
  simp [(order.map Prod.fst).count_eq name, absent]

theorem lookup_padded (once : Once names given) (among : name ∈ names) :
    given.lookup name = given'.lookup name := by
  have absent := lookup_eq_none_of_not_mem (not_mem_of_unknown unknown among)
  rw [lookup_eq_of_perm order ((once_padded_iff unknown order).mp once name among)]
  simp [List.lookup_append, absent]

end Unknown

theorem Member.gives_rightUnique : Relator.RightUnique Member.Gives := by
  intro member entry entry' gives gives'
  have names : entry.1.toList = entry'.1.toList :=
    Option.some.inj (gives.1.symm.trans gives'.1)
  exact Prod.ext (String.toList_injective names) (gives.2.symm.trans gives'.2)

theorem exists_given_unknown {extra : List Member}
    (unknown : ∀ member ∈ extra, member.Unknown names) :
    ∃ others, List.Forall₂ Member.Gives extra others ∧ ∀ entry ∈ others, entry.1 ∉ names := by
  induction extra with
  | nil => exact ⟨[], .nil, by simp⟩
  | cons member extra induction =>
      obtain ⟨name, means, other⟩ := unknown member (by simp)
      obtain ⟨others, gives, later⟩ :=
        induction fun member among => unknown member (List.mem_cons_of_mem _ among)
      exact ⟨(name, member.2) :: others, .cons ⟨means, rfl⟩ gives,
        List.forall_mem_cons.mpr ⟨other, later⟩⟩

theorem exists_given_append {extra : List Member}
    (gives : List.Forall₂ Member.Gives (members ++ extra) given) :
    ∃ front back, given = front ++ back ∧ List.Forall₂ Member.Gives members front ∧
      List.Forall₂ Member.Gives extra back := by
  induction members generalizing given with
  | nil => exact ⟨[], given, rfl, .nil, gives⟩
  | cons member members induction =>
      cases gives with
      | cons first later =>
          obtain ⟨front, back, rfl, givesFront, givesBack⟩ := induction later
          exact ⟨_ :: front, back, rfl, .cons first givesFront, givesBack⟩

/-- Members of other names are passed over, and the order of members does not matter. -/
theorem describes_padded_iff {told : List (String × Tree) → σ → Prop} (localTold : Local names told)
    (padded : Padded names members moved) :
    Describes names told (.object members) record ↔
      Describes names told (.object moved) record := by
  obtain ⟨extra, unknown, order⟩ := padded
  obtain ⟨others, givesExtra, unknown⟩ := exists_given_unknown unknown
  constructor
  · rintro ⟨gives, once, holds⟩
    obtain ⟨given', gives', order'⟩ :=
      List.perm_comp_forall₂ order (List.rel_append gives givesExtra)
    exact .object gives' ((once_padded_iff unknown order').mp once)
      (localTold (fun name among => lookup_padded unknown order' once among) holds)
  · rintro ⟨gives', once', holds⟩
    obtain ⟨both, givesBoth, order'⟩ := List.perm_comp_forall₂ order.symm gives'
    obtain ⟨given, back, rfl, gives, givesBack⟩ := exists_given_append givesBoth
    obtain rfl := Member.gives_rightUnique.forall₂ givesExtra givesBack
    have once := (once_padded_iff unknown order'.symm).mpr once'
    exact .object gives once
      (localTold (fun name among => (lookup_padded unknown order'.symm once among).symm) holds)

theorem map_fst_zip_sublist (names : List String) (items : List Tree) :
    ((names.zip items).map Prod.fst).Sublist names := by
  induction names generalizing items with
  | nil => simp
  | cons name names induction =>
      cases items with
      | nil => simp
      | cons item items => simpa using induction items

/-- An array is taken for what an object with its items under the names of the first fields is. -/
theorem describes_zip_iff {told : List (String × Tree) → σ → Prop} (distinct : names.Nodup)
    (short : items.length ≤ names.length)
    (gives : List.Forall₂ Member.Gives members (names.zip items)) :
    Describes names told (.array items) record ↔
      Describes names told (.object members) record := by
  constructor
  · rintro (_ | ⟨-, holds⟩)
    refine .object gives (fun name among => ?_) holds
    exact List.nodup_iff_count_le_one.mp (distinct.sublist (map_fst_zip_sublist names items)) name
  · rintro ⟨gives', -, holds⟩
    obtain rfl := Member.gives_rightUnique.forall₂ gives gives'
    exact .array short holds

/-- Members that make no difference one by one make none together. -/
theorem Gathers.replace {changed : List Member} {alike : Member → Member → Prop}
    (gathered : Gathers fields progress members record)
    (changes : List.Forall₂ alike members changed)
    (notes : ∀ {member member' progress after}, alike member member' →
      Notes fields progress member after → Notes fields progress member' after) :
    Gathers fields progress changed record := by
  induction gathered generalizing changed with
  | nil =>
      cases changes
      exact .nil
  | cons noted gathered induction =>
      cases changes with
      | cons first later => exact .cons (notes first noted) (induction later)

theorem records_rewrites_iff (orderly : Orderly fields) {alike : Member → Member → Prop}
    (notes : ∀ {member member' progress after}, alike member member' →
      (Notes fields progress member after ↔ Notes fields progress member' after))
    (rewrites : Rewrites (fields.map RecordField.name) alike tree tree') :
    Records fields defaults tree record ↔ Records fields defaults tree' record := by
  cases rewrites with
  | @object members changed moved changes padded =>
      have replaced : Records fields defaults (.object members) record ↔
          Records fields defaults (.object changed) record := by
        constructor
        · rintro ⟨gathered⟩
          exact .object (gathered.replace changes fun same => (notes same).mp)
        · rintro ⟨gathered⟩
          exact .object (gathered.replace (List.Forall₂.flip changes) fun same => (notes same).mpr)
      rw [replaced, records_iff_describes orderly, records_iff_describes orderly]
      refine describes_padded_iff (fun same assembled => ?_) padded
      exact assembled.congr fun field among => same _ (List.mem_map_of_mem among)
  | array short gives =>
      rw [records_iff_describes orderly, records_iff_describes orderly]
      exact describes_zip_iff orderly.distinct short gives

end Tricolor.JsonText

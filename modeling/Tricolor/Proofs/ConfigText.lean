import Tricolor.CommandLine.Program
import Tricolor.Proofs.Writing

/-!
# Texts of configurations

What a text of JSON is taken for as a configuration depends on the values that it gives for the
settings, not on the order in which it names them, on what else it says, on the blanks in it or
on whether it is an object or an array.
-/

namespace Tricolor

open JsonText

variable {given : List (String × Tree)} {tree tree' : Tree} {text text' : String}

namespace CollectorConfig

def names : List String :=
  ["cycle_pause_ms", "step_budget", "thread_name", "oom_wait_ms"]

/-- What is given under its name tells each setting of the collector. -/
structure ToldBy (given : List (String × Tree)) (config : CollectorConfig) : Prop where
  cyclePauseMs : Given given "cycle_pause_ms" Tree.IsCount 1 config.cyclePauseMs
  stepBudget : Given given "step_budget" Tree.IsCount 5 config.stepBudget
  threadName : Given given "thread_name" Tree.IsString "gc-collector" config.threadName
  oomWaitMs : Given given "oom_wait_ms" Tree.IsCount 100 config.oomWaitMs

theorem orderly_fields : Orderly fields where
  lawful := by
    simp only [Lawful, fields, List.forall_mem_cons, List.not_mem_nil, false_imp_iff,
      implies_true, and_true]
    exact ⟨(count_denotes.map _).lawful, (count_denotes.map _).lawful,
      (string_denotes.map _).lawful, (count_denotes.map _).lawful⟩
  distinct := by simp [fields, RecordField.of]
  commute := by
    simp only [fields, List.pairwise_cons, List.forall_mem_cons, List.not_mem_nil, false_imp_iff,
      implies_true, and_true, List.Pairwise.nil]
    refine ⟨⟨?_, ?_, ?_⟩, ⟨?_, ?_⟩, ?_⟩ <;> exact commutes_of fun _ _ _ => rfl

theorem assembles_iff_toldBy {config : CollectorConfig} :
    Assembles given fields {} config ↔ ToldBy given config := by
  constructor
  · intro assembled
    obtain ⟨cyclePauseMs, pauseTold, assembled⟩ :=
      (assembles_field_iff count_denotes rfl).mp assembled
    obtain ⟨stepBudget, budgetTold, assembled⟩ :=
      (assembles_field_iff count_denotes rfl).mp assembled
    obtain ⟨threadName, nameTold, assembled⟩ :=
      (assembles_field_iff string_denotes rfl).mp assembled
    obtain ⟨oomWaitMs, waitTold, assembled⟩ :=
      (assembles_field_iff count_denotes rfl).mp assembled
    cases assembled
    exact ⟨pauseTold, budgetTold, nameTold, waitTold⟩
  · rintro ⟨pauseTold, budgetTold, nameTold, waitTold⟩
    refine (assembles_field_iff count_denotes rfl).mpr ⟨_, pauseTold, ?_⟩
    refine (assembles_field_iff count_denotes rfl).mpr ⟨_, budgetTold, ?_⟩
    refine (assembles_field_iff string_denotes rfl).mpr ⟨_, nameTold, ?_⟩
    refine (assembles_field_iff count_denotes rfl).mpr ⟨_, waitTold, ?_⟩
    exact .nil

/-- The settings of the collector are what an object or array gives under their names. -/
def Means : Tree → CollectorConfig → Prop :=
  Describes names ToldBy

theorem reader_denotes : reader.Denotes Means :=
  record_denotes_of_told orderly_fields assembles_iff_toldBy

/-- Two ways to write down the same settings of the collector. -/
def Rewritten : Tree → Tree → Prop :=
  Rewrites names Eq

theorem means_rewritten_iff (rewritten : Rewritten tree tree') {config : CollectorConfig} :
    Means tree config ↔ Means tree' config := by
  have records {tree : Tree} : Records fields {} tree config ↔ Means tree config :=
    records_iff_of_told orderly_fields assembles_iff_toldBy
  rw [← records, ← records]
  exact records_rewrites_iff orderly_fields (by rintro _ _ _ _ rfl; rfl) rewritten

end CollectorConfig

namespace Mode

/-- A mode is written as its name. -/
def Means : Tree → Mode → Prop :=
  Tree.IsChoice (all.map fun mode => (mode.name, mode))

theorem reader_denotes : reader.Denotes Means :=
  choice_denotes _

end Mode

namespace Config

def names : List String :=
  ["capacity", "mutators", "operations", "seed", "mode", "log_dir", "collector"]

/-- What is given under its name tells each setting. -/
structure ToldBy (given : List (String × Tree)) (config : Config) : Prop where
  capacity : Given given "capacity" Tree.IsCount 1024 config.capacity
  mutators : Given given "mutators" Tree.IsCount 4 config.mutators
  operations : Given given "operations" Tree.IsCount 10000 config.operations
  seed : Given given "seed" Tree.IsCount 0 config.seed
  mode : Given given "mode" Mode.Means .concurrent config.mode
  logDir : Given given "log_dir" Tree.IsOptionalString none config.logDir
  collector : Given given "collector" CollectorConfig.Means {} config.collector

theorem orderly_fields : Orderly fields where
  lawful := by
    simp only [Lawful, fields, List.forall_mem_cons, List.not_mem_nil, false_imp_iff,
      implies_true, and_true]
    exact ⟨(count_denotes.map _).lawful, (count_denotes.map _).lawful,
      (count_denotes.map _).lawful, (count_denotes.map _).lawful,
      (Mode.reader_denotes.map _).lawful, (optionalString_denotes.map _).lawful,
      (CollectorConfig.reader_denotes.map _).lawful⟩
  distinct := by simp [fields, RecordField.of]
  commute := by
    simp only [fields, List.pairwise_cons, List.forall_mem_cons, List.not_mem_nil, false_imp_iff,
      implies_true, and_true, List.Pairwise.nil]
    refine ⟨⟨?_, ?_, ?_, ?_, ?_, ?_⟩, ⟨?_, ?_, ?_, ?_, ?_⟩, ⟨?_, ?_, ?_, ?_⟩, ⟨?_, ?_, ?_⟩,
      ⟨?_, ?_⟩, ?_⟩ <;> exact commutes_of fun _ _ _ => rfl

theorem assembles_iff_toldBy {config : Config} :
    Assembles given fields {} config ↔ ToldBy given config := by
  constructor
  · intro assembled
    obtain ⟨capacity, capacityTold, assembled⟩ :=
      (assembles_field_iff count_denotes rfl).mp assembled
    obtain ⟨mutators, mutatorsTold, assembled⟩ :=
      (assembles_field_iff count_denotes rfl).mp assembled
    obtain ⟨operations, operationsTold, assembled⟩ :=
      (assembles_field_iff count_denotes rfl).mp assembled
    obtain ⟨seed, seedTold, assembled⟩ := (assembles_field_iff count_denotes rfl).mp assembled
    obtain ⟨mode, modeTold, assembled⟩ :=
      (assembles_field_iff Mode.reader_denotes rfl).mp assembled
    obtain ⟨logDir, logDirTold, assembled⟩ :=
      (assembles_field_iff optionalString_denotes rfl).mp assembled
    obtain ⟨collector, collectorTold, assembled⟩ :=
      (assembles_field_iff CollectorConfig.reader_denotes rfl).mp assembled
    cases assembled
    exact ⟨capacityTold, mutatorsTold, operationsTold, seedTold, modeTold, logDirTold,
      collectorTold⟩
  · intro told
    refine (assembles_field_iff count_denotes rfl).mpr ⟨_, told.capacity, ?_⟩
    refine (assembles_field_iff count_denotes rfl).mpr ⟨_, told.mutators, ?_⟩
    refine (assembles_field_iff count_denotes rfl).mpr ⟨_, told.operations, ?_⟩
    refine (assembles_field_iff count_denotes rfl).mpr ⟨_, told.seed, ?_⟩
    refine (assembles_field_iff Mode.reader_denotes rfl).mpr ⟨_, told.mode, ?_⟩
    refine (assembles_field_iff optionalString_denotes rfl).mpr ⟨_, told.logDir, ?_⟩
    refine (assembles_field_iff CollectorConfig.reader_denotes rfl).mpr ⟨_, told.collector, ?_⟩
    exact .nil

/-- A configuration is what an object or array gives under the names of the settings. -/
def Means : Tree → Config → Prop :=
  Describes names ToldBy

theorem reader_denotes : reader.Denotes Means :=
  record_denotes_of_told orderly_fields assembles_iff_toldBy

/-- The same member, but that the settings of the collector may be written down in another way. -/
inductive Alike : Member → Member → Prop
  | same {member : Member} : Alike member member
  | collector {pieces : List Piece} {value value' : Tree}
      (named : meaning? pieces = some "collector".toList)
      (rewritten : CollectorConfig.Rewritten value value') : Alike (pieces, value) (pieces, value')

/-- Two ways to write down the same configuration. -/
def Rewritten : Tree → Tree → Prop :=
  Rewrites names Alike

theorem find?_collector :
    (fields.find? fun field => field.name == "collector") =
      some (.of "collector" CollectorConfig.reader fun collector config =>
        { config with collector }) := by
  simp [fields, RecordField.of]

theorem notes_collector {pieces : List Piece} {value value' : Tree}
    {progress after : Progress Config}
    (named : meaning? pieces = some "collector".toList)
    (same : ∀ {config}, CollectorConfig.Means value config → CollectorConfig.Means value' config)
    (notes : Notes fields progress (pieces, value) after) :
    Notes fields progress (pieces, value') after := by
  cases notes with
  | unknown means unknown => exact .unknown means unknown
  | known means known fresh taken =>
      obtain rfl := Option.some.inj (named.symm.trans means)
      rw [String.ofList_toList, find?_collector] at known
      cases known
      have denotes := CollectorConfig.reader_denotes.map fun collector (config : Config) =>
        { config with collector }
      obtain ⟨collector, meant, rfl⟩ := denotes.takes_iff.mp taken
      exact .known means (by rw [String.ofList_toList, find?_collector]) fresh
        (denotes.takes ⟨collector, same meant, rfl⟩)

theorem notes_alike_iff {member member' : Member} {progress after : Progress Config}
    (alike : Alike member member') :
    Notes fields progress member after ↔ Notes fields progress member' after := by
  cases alike with
  | same => rfl
  | collector named rewritten =>
      exact ⟨notes_collector named (CollectorConfig.means_rewritten_iff rewritten).mp,
        notes_collector named (CollectorConfig.means_rewritten_iff rewritten).mpr⟩

theorem means_rewritten_iff (rewritten : Rewritten tree tree') {config : Config} :
    Means tree config ↔ Means tree' config := by
  have records {tree : Tree} : Records fields {} tree config ↔ Means tree config :=
    records_iff_of_told orderly_fields assembles_iff_toldBy
  rw [← records, ← records]
  exact records_rewrites_iff orderly_fields notes_alike_iff rewritten

/-- What a text is taken for depends on what it gives for each setting and on nothing else.  An
accepted text is one value in one way, and it is accepted for what that value gives under the names
of the settings, at both levels.  A text of a value that is written down in another way, with other
blanks, is accepted for the same. -/
theorem ofText_settings :
    (∀ text config, ofText text = .ok config → ∃! tree : Tree, tree.Spells text) ∧
    (∀ (tree : Tree) text config, tree.Spells text →
      (ofText text = .ok config ↔ Describes names ToldBy tree config)) ∧
    (∀ (tree tree' : Tree) text text' config, Rewritten tree tree' → tree.Spells text →
      tree'.Spells text' → (ofText text = .ok config ↔ ofText text' = .ok config)) := by
  refine ⟨fun text config read => ?_, fun tree text config spells => ?_,
    fun tree tree' text text' config rewritten spells spells' => ?_⟩
  · obtain ⟨tree, spells, -⟩ := reader_denotes.readAll_iff.mp read
    exact ⟨tree, spells, fun tree' spells' => Tree.eq_of_spaced spells' spells⟩
  · exact reader_denotes.readAll_iff_of_spaced spells
  · exact (reader_denotes.readAll_iff_of_spaced spells).trans ((means_rewritten_iff rewritten).trans
      (reader_denotes.readAll_iff_of_spaced spells').symm)

/-- The collector named before the seed and written over several lines, with a note in front and
one among the settings of the collector. -/
theorem ofText_settings_moved :
    ofText (String.ofList (Value.compact (.object [("seed", .number 7),
      ("collector", .object [("step_budget", .number 2), ("thread_name", .string "gc")])]))) =
        .ok { seed := 7, collector := { stepBudget := 2, threadName := "gc" } } ∧
    ofText (String.ofList (Value.pretty 0 (.object [("note", .list [.null, .number 1]),
      ("collector", .object [("note", .null), ("thread_name", .string "gc"),
        ("step_budget", .number 2)]), ("seed", .number 7)]))) =
        .ok { seed := 7, collector := { stepBudget := 2, threadName := "gc" } } := by
  have collector : CollectorConfig.Means
      (Value.object [("step_budget", .number 2), ("thread_name", .string "gc")]).tree
      { stepBudget := 2, threadName := "gc" } :=
    .object (gives_memberTrees _) (by simp [Once, CollectorConfig.names])
      ⟨rfl, isCount_number (by decide), isString_string "gc", rfl⟩
  have means : Means (Value.object [("seed", .number 7), ("collector",
      .object [("step_budget", .number 2), ("thread_name", .string "gc")])]).tree
      { seed := 7, collector := { stepBudget := 2, threadName := "gc" } } :=
    .object (gives_memberTrees _) (by simp [Once, names])
      ⟨rfl, rfl, rfl, isCount_number (by decide), rfl, rfl, collector⟩
  have note (names : List String) (other : "note" ∉ names) (value : Value) :
      ∀ member ∈ memberTrees [("note", value)], Member.Unknown names member :=
    List.forall_mem_singleton.mpr ⟨"note", meaning?_piecesOf _, other⟩
  have inside : CollectorConfig.Rewritten
      (Value.object [("step_budget", .number 2), ("thread_name", .string "gc")]).tree
      (Value.object [("note", .null), ("thread_name", .string "gc"),
        ("step_budget", .number 2)]).tree :=
    .object (.cons rfl (.cons rfl .nil)) ⟨_, note _ (by decide) .null,
      List.reverse_perm (memberTrees [("step_budget", .number 2), ("thread_name", .string "gc"),
        ("note", .null)])⟩
  have rewritten : Rewritten
      (Value.object [("seed", .number 7), ("collector",
        .object [("step_budget", .number 2), ("thread_name", .string "gc")])]).tree
      (Value.object [("note", .list [.null, .number 1]),
        ("collector", .object [("note", .null), ("thread_name", .string "gc"),
          ("step_budget", .number 2)]), ("seed", .number 7)]).tree :=
    .object (.cons .same (.cons (.collector (meaning?_piecesOf _) inside) .nil))
      ⟨_, note _ (by decide) (.list [.null, .number 1]), List.reverse_perm (memberTrees
        [("seed", .number 7), ("collector", .object [("note", .null), ("thread_name", .string "gc"),
          ("step_budget", .number 2)]), ("note", .list [.null, .number 1])])⟩
  have read := (ofText_settings.2.1 _ _ _ (Value.spells_compact _)).mpr means
  exact ⟨read, (ofText_settings.2.2 _ _ _ _ _ rewritten (Value.spells_compact _)
    (Value.spells_pretty _ 0)).mp read⟩

end Config

end Tricolor

import Tricolor.Proofs.ConfigText

/-!
# Configurations that are written and read again

A configuration whose counts can be read is read back from what it is written as, and every
configuration that was read is such.
-/

namespace Tricolor

open JsonText

variable {given : List (String × Tree)} {tree : Tree}

namespace CollectorConfig

/-- The numbers are counts. -/
structure Storable (config : CollectorConfig) : Prop where
  cyclePauseMs : config.cyclePauseMs ≤ maxCount
  stepBudget : config.stepBudget ≤ maxCount
  oomWaitMs : config.oomWaitMs ≤ maxCount

theorem storable_default : Storable {} :=
  ⟨by decide, by decide, by decide⟩

variable {config : CollectorConfig}

theorem ToldBy.storable (told : ToldBy given config) : config.Storable where
  cyclePauseMs := told.cyclePauseMs.holds (by decide) Tree.IsCount.le_maxCount
  stepBudget := told.stepBudget.holds (by decide) Tree.IsCount.le_maxCount
  oomWaitMs := told.oomWaitMs.holds (by decide) Tree.IsCount.le_maxCount

theorem Means.storable (means : Means tree config) : config.Storable := by
  obtain ⟨given, told⟩ := means.exists_told
  exact told.storable

/-- What is written for the settings of the collector means these settings. -/
theorem Storable.means (storable : config.Storable) : Means config.toValue.tree config := by
  refine .object (gives_memberTrees _) (by simp [Once, names]) ?_
  exact ⟨isCount_number storable.cyclePauseMs, isCount_number storable.stepBudget,
    isString_string config.threadName, isCount_number storable.oomWaitMs⟩

end CollectorConfig

theorem Mode.means_name (mode : Mode) : Mode.Means (Value.string mode.name).tree mode := by
  refine .name (meaning?_piecesOf mode.name.toList) ?_
  cases mode <;> rfl

namespace Config

/-- The numbers are counts. -/
structure Storable (config : Config) : Prop where
  capacity : config.capacity ≤ maxCount
  mutators : config.mutators ≤ maxCount
  operations : config.operations ≤ maxCount
  seed : config.seed ≤ maxCount
  collector : config.collector.Storable

variable {config : Config}

theorem ToldBy.storable (told : ToldBy given config) : config.Storable where
  capacity := told.capacity.holds (by decide) Tree.IsCount.le_maxCount
  mutators := told.mutators.holds (by decide) Tree.IsCount.le_maxCount
  operations := told.operations.holds (by decide) Tree.IsCount.le_maxCount
  seed := told.seed.holds (by decide) Tree.IsCount.le_maxCount
  collector := told.collector.holds CollectorConfig.storable_default CollectorConfig.Means.storable

theorem Means.storable (means : Means tree config) : config.Storable := by
  obtain ⟨given, told⟩ := means.exists_told
  exact told.storable

/-- What is written for a configuration means this configuration. -/
theorem Storable.means (storable : config.Storable) : Means config.toValue.tree config := by
  refine .object (gives_memberTrees _) (by simp [Once, names]) ?_
  exact ⟨isCount_number storable.capacity, isCount_number storable.mutators,
    isCount_number storable.operations, isCount_number storable.seed, Mode.means_name config.mode,
    isOptionalString_ofOption config.logDir, storable.collector.means⟩

theorem Storable.ofText_written (storable : config.Storable) :
    ofText (String.ofList config.toValue.compact) = .ok config ∧
      ∀ depth, ofText (String.ofList (config.toValue.pretty depth)) = .ok config := by
  simp only [ofText, String.toList_ofList]
  exact reader_denotes.readAll_written storable.means

/-- A configuration that can be stored is read back from what it is written as, be it in one line
or in many, and so is every configuration that was read.  The same goes for the settings of the
collector on their own. -/
theorem ofText_toValue :
    (∀ config : Config, config.Storable →
      ofText (String.ofList config.toValue.compact) = .ok config ∧
        ∀ depth, ofText (String.ofList (config.toValue.pretty depth)) = .ok config) ∧
    (∀ text config, ofText text = .ok config →
      ofText (String.ofList config.toValue.compact) = .ok config ∧
        ∀ depth, ofText (String.ofList (config.toValue.pretty depth)) = .ok config) ∧
    (∀ settings : CollectorConfig, settings.Storable →
      CollectorConfig.reader.readAll settings.toValue.compact = .ok settings ∧ ∀ depth,
        CollectorConfig.reader.readAll (settings.toValue.pretty depth) = .ok settings) ∧
    (∀ text settings, CollectorConfig.reader.readAll text = .ok settings →
      CollectorConfig.reader.readAll settings.toValue.compact = .ok settings ∧ ∀ depth,
        CollectorConfig.reader.readAll (settings.toValue.pretty depth) = .ok settings) := by
  refine ⟨fun config storable => storable.ofText_written, fun text config read => ?_,
    fun settings storable => ?_, fun text settings read => ?_⟩
  · obtain ⟨tree, -, means⟩ := reader_denotes.readAll_iff.mp read
    exact means.storable.ofText_written
  · exact CollectorConfig.reader_denotes.readAll_written storable.means
  · obtain ⟨tree, -, means⟩ := CollectorConfig.reader_denotes.readAll_iff.mp read
    exact CollectorConfig.reader_denotes.readAll_written means.storable.means

theorem ofText_toValue_quoted :
    ofText (String.ofList (toValue
      { seed := 18446744073709551615, mode := .incremental, logDir := some "a \"b\" \\ c\n\x01",
        collector := { threadName := "\t𝄞/é" } }).compact) = .ok
      { seed := 18446744073709551615, mode := .incremental, logDir := some "a \"b\" \\ c\n\x01",
        collector := { threadName := "\t𝄞/é" } } :=
  (ofText_toValue.1 _ ⟨by decide, by decide, by decide, by decide, by decide, by decide,
    by decide⟩).1

end Config

end Tricolor

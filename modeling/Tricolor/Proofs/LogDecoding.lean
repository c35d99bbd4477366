import Tricolor.Proofs.LogFiles

/-!
# What the logs tell

The log of live-node counts decodes to the counts that were reported, and the log of completed
cycles has a line for each.  It makes no difference after which signals the logs are flushed, or
closed and opened again.
-/

namespace Tricolor

namespace Log

/-- The lines of a text in which every line is ended. -/
def lines (text : String) : List String :=
  (text.toList.splitOn '\n').dropLast.map String.ofList

/-- The number that a line of decimal digits stands for. -/
def number? (line : String) : Option Nat :=
  if line.toList ≠ [] ∧ line.toList.all Char.isDigit = true then
    some (Nat.ofDigitChars 10 line.toList 0)
  else none

/-- The numbers in the lines of a text, if there is one in each line. -/
def numbers? (text : String) : Option (List Nat) :=
  (lines text).mapM number?

theorem splitOn_text {written : List String} (plain : ∀ line ∈ written, '\n' ∉ line.toList) :
    (text written).toList.splitOn '\n' = written.map String.toList ++ [[]] := by
  induction written with
  | nil => simp [text]
  | cons line written induction =>
      obtain ⟨plainLine, plainLines⟩ := List.forall_mem_cons.mp plain
      simp only [text, String.toList_append, List.append_assoc, List.map_cons, List.cons_append]
      rw [← induction plainLines]
      exact List.splitOn_append_cons_self_of_not_mem plainLine _

/-- A text is split into the lines that it was made of. -/
theorem lines_text {written : List String} (plain : ∀ line ∈ written, '\n' ∉ line.toList) :
    lines (text written) = written := by
  simp [lines, splitOn_text plain]

theorem toList_toString (count : Nat) : (toString count).toList = Nat.toDigits 10 count := by
  simp

theorem plain_toString (count : Nat) : '\n' ∉ (toString count).toList := by
  rw [toList_toString]
  intro among
  have digit := Nat.isDigit_of_mem_toDigits (by decide) (by decide) among
  cases digit

theorem number?_toString (count : Nat) : number? (toString count) = some count := by
  have digits : (Nat.toDigits 10 count).all Char.isDigit = true :=
    List.all_eq_true.mpr fun _ among =>
      Nat.isDigit_of_mem_toDigits (by decide) (by decide) among
  rw [number?, toList_toString, if_pos ⟨Nat.toDigits_ne_nil, digits⟩,
    Nat.ofDigitChars_toDigits (by decide) (by decide)]

theorem numbers?_text (counts : List Nat) :
    numbers? (text (counts.map toString)) = some counts := by
  have plain : ∀ line ∈ counts.map toString, '\n' ∉ line.toList := by
    intro line among
    obtain ⟨count, -, rfl⟩ := List.mem_map.mp among
    exact plain_toString count
  rw [numbers?, lines_text plain]
  induction counts with
  | nil => rfl
  | cons count counts induction =>
      have later := induction fun line among => plain line (List.mem_cons_of_mem _ among)
      rw [List.map_cons, List.mapM_cons, number?_toString, later]
      rfl

theorem lines_progressText (events : List Event) :
    lines (progressText events) = List.replicate (Event.passes events) passMarker := by
  refine lines_text fun line among => ?_
  rw [List.eq_of_mem_replicate among]
  decide

/-! ## Signals -/

theorem text_append (written more : List String) :
    text (written ++ more) = text written ++ text more := by
  induction written with
  | nil => simp [text]
  | cons line written induction => simp [text, induction, String.append_assoc]

theorem memoryText_append (events more : List Event) :
    memoryText (events ++ more) = memoryText events ++ memoryText more := by
  simp [memoryText, Event.liveCounts, text_append]

theorem progressText_append (events more : List Event) :
    progressText (events ++ more) = progressText events ++ progressText more := by
  simp [progressText, Event.passes, ← List.replicate_append_replicate, text_append]

/-- The logs have been told of these events, whether their lines have been handed on or are still
buffered. -/
structure Carries (log : Log) (events : List Event) : Prop where
  memoryAccepting : log.memoryUsage.accepting = true
  progressAccepting : log.progress.accepting = true
  memory : log.memoryUsage.written ++ log.memoryUsage.buffered = memoryText events
  progress : log.progress.written ++ log.progress.buffered = progressText events

namespace Carries

variable {log : Log} {events : List Event}

theorem empty : Carries {} [] := by
  constructor <;> rfl

theorem flush (carries : log.Carries events) : log.flush.Carries events := by
  obtain ⟨memoryAccepting, progressAccepting, memory, progress⟩ := carries
  constructor <;> simp_all [Log.flush, LineWriter.flush]

/-- A flush hands everything on. -/
theorem written_flush (carries : log.Carries events) :
    log.flush.memoryUsage.written = memoryText events ∧
      log.flush.progress.written = progressText events := by
  simp [Log.flush, LineWriter.flush, carries.memoryAccepting, carries.progressAccepting,
    carries.memory, carries.progress]

theorem accept (carries : log.Carries events) (signal : Signal) :
    (log.accept signal).Carries (events ++ Signal.events [signal]) := by
  cases signal with
  | flush => simpa [Log.accept, Signal.events] using carries.flush
  | event event =>
      have accepted : log.accept (.event event) = _ := foldl_accept_event log [event]
      have signalled : Signal.events [.event event] = [event] := rfl
      rw [accepted, signalled]
      constructor
      · exact carries.memoryAccepting
      · exact carries.progressAccepting
      · rw [memoryText_append, ← carries.memory, String.append_assoc]
      · rw [progressText_append, ← carries.progress, String.append_assoc]

theorem foldl_accept (carries : log.Carries events) (signals : List Signal) :
    (signals.foldl Log.accept log).Carries (events ++ Signal.events signals) := by
  induction signals generalizing log events with
  | nil => simpa [Signal.events] using carries
  | cons signal signals induction =>
      have later := induction (carries.accept signal)
      rwa [List.append_assoc, Signal.events, Signal.events, ← List.filterMap_append] at later

end Carries

/-- What has been handed on when the logs are closed depends on the events alone. -/
theorem written_record (signals : List Signal) :
    (({} : Log).record signals).memoryUsage.written = memoryText (Signal.events signals) ∧
      (({} : Log).record signals).progress.written = progressText (Signal.events signals) := by
  simpa [record] using (Carries.empty.foldl_accept signals).written_flush

end Log

/-! ## Files -/

section Host

variable {m : Type → Type} [Monad m] [Host m]

/-- Records one piece after the other, each with logs that are opened anew and closed after it. -/
def recordPieces (folder : String) : List (List Signal) → m (Except FileError Unit)
  | [] => return .ok ()
  | signals :: pieces => do
      match ← recordLogs folder signals with
      | .error error => return .error error
      | .ok () => recordPieces folder pieces

end Host

namespace FileTree

variable {tree after : FileTree} {folder path : String} {memory progress held : Option ByteArray}
  {place : AbsolutePath}

/-- The contents of a file.  Where there is none, nothing has been written yet. -/
def contents (tree : FileTree) (path : String) : ByteArray :=
  match tree.read path with
  | .ok contents => contents
  | .error _ => ByteArray.empty

/-- Each log of the folder is a file with these contents, or else it is not there and can be
made. -/
structure AdmitsLogs (tree : FileTree) (folder : String) (memory progress : Option ByteArray) :
    Prop where
  memory : ∃ place, tree.resolve (joinPath folder Log.memoryFile) = .ok (.site place memory)
  progress : ∃ place,
    tree.resolve (joinPath folder Log.progressFile) = .ok (.site place progress)

theorem contents_of_resolve (resolved : tree.resolve path = .ok (.site place held)) :
    tree.contents path = held.getD ByteArray.empty := by
  cases held <;> simp [contents, read, resolved, Destination.site]

theorem exists_append_of_resolve (resolved : tree.resolve path = .ok (.site place held))
    (added : ByteArray) :
    ∃ after, tree.append path added = .ok after ∧
      after.resolve path = .ok (.site place (some (held.getD ByteArray.empty ++ added))) := by
  obtain ⟨proper, there⟩ := find?_of_resolve resolved
  refine ⟨_, append_eq_ok_iff.mpr ⟨place, held, resolved, rfl⟩, ?_⟩
  exact resolve_insert resolved (find?_ne_directory there) (find?_insert_self proper)

namespace AdmitsLogs

/-- Both logs can be appended to, the one without regard to the other. -/
theorem exists_append (admits : tree.AdmitsLogs folder memory progress)
    (memoryAdded progressAdded : ByteArray) :
    ∃ middle after, tree.append (joinPath folder Log.memoryFile) memoryAdded = .ok middle ∧
      middle.append (joinPath folder Log.progressFile) progressAdded = .ok after ∧
      after.AdmitsLogs folder (some (memory.getD ByteArray.empty ++ memoryAdded))
        (some (progress.getD ByteArray.empty ++ progressAdded)) := by
  obtain ⟨⟨memoryPlace, memoryThere⟩, progressPlace, progressThere⟩ := admits
  obtain ⟨middle, appended, memoryAfter⟩ := exists_append_of_resolve memoryThere memoryAdded
  have progressKept := resolve_append_of_ne entryName_memoryFile entryName_progressFile (by decide)
    appended progressThere
  obtain ⟨after, appendedAfter, progressAfter⟩ :=
    exists_append_of_resolve progressKept progressAdded
  have memoryKept := resolve_append_of_ne entryName_progressFile entryName_memoryFile (by decide)
    appendedAfter memoryAfter
  exact ⟨middle, after, appended, appendedAfter, ⟨_, memoryKept⟩, _, progressAfter⟩

/-- The logs of a piece can be opened, and its lines come behind what was there. -/
theorem recordLogs (admits : tree.AdmitsLogs folder memory progress) (signals : List Signal) :
    ∃ after, (Tricolor.recordLogs folder signals : StateM FileTree (Except FileError Unit)).run
        tree = pure (.ok (), after) ∧
      after.AdmitsLogs folder
        (some (memory.getD ByteArray.empty ++
          (Log.memoryText (Signal.events signals)).toUTF8))
        (some (progress.getD ByteArray.empty ++
          (Log.progressText (Signal.events signals)).toUTF8)) := by
  obtain ⟨middle, opened, memoryMade, progressMade, admitsOpened⟩ :=
    admits.exists_append ByteArray.empty ByteArray.empty
  have opens := run_openLogs_iff.mpr ⟨middle, memoryMade, progressMade⟩
  obtain ⟨memoryWritten, progressWritten⟩ := Log.written_record signals
  obtain ⟨between, after, memoryAppended, progressAppended, admitsAfter⟩ :=
    admitsOpened.exists_append (Log.memoryText (Signal.events signals)).toUTF8
      (Log.progressText (Signal.events signals)).toUTF8
  refine ⟨after, ?_, by simpa using admitsAfter⟩
  simp only [Tricolor.recordLogs, StateT.run_bind, opens, pure_bind, appendLogs, memoryWritten,
    progressWritten, run_appendFile_iff.mpr memoryAppended,
    run_appendFile_iff.mpr progressAppended, StateT.run_pure]

/-- All pieces together add what their events come to. -/
theorem recordPieces (admits : tree.AdmitsLogs folder memory progress)
    (pieces : List (List Signal)) :
    ∃ after, (Tricolor.recordPieces folder pieces :
        StateM FileTree (Except FileError Unit)).run tree = pure (.ok (), after) ∧
      after.contents (joinPath folder Log.memoryFile) = memory.getD ByteArray.empty ++
        (Log.memoryText (Signal.events pieces.flatten)).toUTF8 ∧
      after.contents (joinPath folder Log.progressFile) = progress.getD ByteArray.empty ++
        (Log.progressText (Signal.events pieces.flatten)).toUTF8 := by
  induction pieces generalizing tree memory progress with
  | nil =>
      obtain ⟨⟨_, memoryThere⟩, _, progressThere⟩ := admits
      refine ⟨tree, rfl, ?_, ?_⟩
      · rw [contents_of_resolve memoryThere]
        exact ByteArray.append_empty.symm
      · rw [contents_of_resolve progressThere]
        exact ByteArray.append_empty.symm
  | cons signals pieces induction =>
      obtain ⟨middle, recorded, admitsMiddle⟩ := admits.recordLogs signals
      obtain ⟨after, ran, memoryAfter, progressAfter⟩ := induction admitsMiddle
      have split : Signal.events (signals :: pieces).flatten =
          Signal.events signals ++ Signal.events pieces.flatten := by
        simp [Signal.events]
      refine ⟨after, ?_, ?_, ?_⟩
      · simp only [Tricolor.recordPieces, StateT.run_bind, recorded, pure_bind, ran]
      · simp only [memoryAfter, split, Log.memoryText_append, String.toUTF8_eq_toByteArray,
          String.toByteArray_append, Option.getD_some, ByteArray.append_assoc]
      · simp only [progressAfter, split, Log.progressText_append, String.toUTF8_eq_toByteArray,
          String.toByteArray_append, Option.getD_some, ByteArray.append_assoc]

end AdmitsLogs

/-- However the events are cut into pieces and wherever the logs are flushed, the logs end as they
were, followed by a line for each event.  The lines of the one decode to the counts that were
reported, and the other has as many lines as cycles were completed. -/
theorem run_recordPieces (admits : tree.AdmitsLogs folder memory progress)
    (pieces : List (List Signal)) :
    ∃ (after : FileTree) (memoryAdded progressAdded : String),
      (Tricolor.recordPieces folder pieces : StateM FileTree (Except FileError Unit)).run tree =
        pure (.ok (), after) ∧
      after.contents (joinPath folder Log.memoryFile) =
        tree.contents (joinPath folder Log.memoryFile) ++ memoryAdded.toUTF8 ∧
      after.contents (joinPath folder Log.progressFile) =
        tree.contents (joinPath folder Log.progressFile) ++ progressAdded.toUTF8 ∧
      memoryAdded = Log.text ((Event.liveCounts (Signal.events pieces.flatten)).map toString) ∧
      progressAdded =
        Log.text (List.replicate (Event.passes (Signal.events pieces.flatten)) "P") ∧
      Log.numbers? memoryAdded = some (Event.liveCounts (Signal.events pieces.flatten)) ∧
      (Log.lines progressAdded).length = Event.passes (Signal.events pieces.flatten) ∧
      ∀ others : List (List Signal),
        Signal.events others.flatten = Signal.events pieces.flatten →
        ∃ again, (Tricolor.recordPieces folder others :
            StateM FileTree (Except FileError Unit)).run tree = pure (.ok (), again) ∧
          again.contents (joinPath folder Log.memoryFile) =
            after.contents (joinPath folder Log.memoryFile) ∧
          again.contents (joinPath folder Log.progressFile) =
            after.contents (joinPath folder Log.progressFile) := by
  obtain ⟨after, ran, memoryAfter, progressAfter⟩ := admits.recordPieces pieces
  obtain ⟨⟨_, memoryThere⟩, _, progressThere⟩ := id admits
  refine ⟨after, _, _, ran, ?_, ?_, rfl, rfl, Log.numbers?_text _, ?_, fun others same => ?_⟩
  · rw [memoryAfter, contents_of_resolve memoryThere, Log.memoryText]
  · rw [progressAfter, contents_of_resolve progressThere, Log.progressText, Log.passMarker]
  · exact (congrArg List.length (Log.lines_progressText _)).trans List.length_replicate
  · obtain ⟨again, ranAgain, memoryAgain, progressAgain⟩ := admits.recordPieces others
    rw [same] at memoryAgain progressAgain
    exact ⟨again, ranAgain, memoryAgain.trans memoryAfter.symm,
      progressAgain.trans progressAfter.symm⟩

/-- Counts are there already, and the second of three pieces is empty. -/
theorem run_recordPieces_three_pieces :
    let tree : FileTree := { entries := [(["logs"], .directory),
      (["logs", "memory_usage"], .file "5\n".toUTF8)] }
    ∃ after : FileTree,
      (Tricolor.recordPieces "logs" [[.event (.liveNodes 3), .flush, .event (.passComplete 1)], [],
          [.event (.passComplete 2), .event (.liveNodes 12), .flush]] :
        StateM FileTree (Except FileError Unit)).run tree = pure (.ok (), after) ∧
      after.contents (joinPath "logs" Log.memoryFile) = "5\n3\n12\n".toUTF8 ∧
      after.contents (joinPath "logs" Log.progressFile) = "P\nP\n".toUTF8 := by
  intro tree
  have folderNamed : EntryName "logs" := by constructor <;> decide
  have memoryThere : tree.resolve (joinPath "logs" Log.memoryFile) =
      .ok (.site ["logs", Log.memoryFile] (some "5\n".toUTF8)) :=
    resolve_joinPath rfl folderNamed entryName_memoryFile rfl rfl
  have progressThere : tree.resolve (joinPath "logs" Log.progressFile) =
      .ok (.site ["logs", Log.progressFile] none) :=
    resolve_joinPath rfl folderNamed entryName_progressFile rfl rfl
  obtain ⟨after, memoryAdded, progressAdded, ran, memoryAfter, progressAfter, memoryText,
    progressText, -⟩ := run_recordPieces ⟨⟨_, memoryThere⟩, _, progressThere⟩
      [[.event (.liveNodes 3), .flush, .event (.passComplete 1)], [],
        [.event (.passComplete 2), .event (.liveNodes 12), .flush]]
  refine ⟨after, ran, ?_, ?_⟩
  · have added : memoryAdded = "3\n12\n" := memoryText.trans (by decide)
    rw [memoryAfter, added, contents_of_resolve memoryThere]
    rfl
  · have added : progressAdded = "P\nP\n" := progressText.trans (by decide)
    rw [progressAfter, added, contents_of_resolve progressThere]
    rfl

end FileTree

end Tricolor

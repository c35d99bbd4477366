import Tricolor.CommandLine.Program
import Tricolor.Files.Tree

/-!
# Telemetry logs in a file tree

Opening the logs of a directory makes new directories and empty files and nothing else.
Whatever is written to the two logs afterwards is found at their ends: the names of the two
files differ, so that neither can stand in the way of the other, however the directory is
spelt.
-/

namespace Tricolor

namespace Log

/-- The text of some lines. -/
def text : List String → String
  | [] => ""
  | line :: lines => line ++ "\n" ++ text lines

/-- What the events come to in the log of live-node counts. -/
def memoryText (events : List Event) : String :=
  text ((Event.liveCounts events).map toString)

/-- What the events come to in the log of completed cycles. -/
def progressText (events : List Event) : String :=
  text (List.replicate (Event.passes events) passMarker)

/-- Every event adds its line to one of the two logs. -/
theorem foldl_accept_event (log : Log) (events : List Event) :
    (events.map .event).foldl accept log =
      { memoryUsage :=
          { log.memoryUsage with buffered := log.memoryUsage.buffered ++ memoryText events }
        progress :=
          { log.progress with buffered := log.progress.buffered ++ progressText events } } := by
  induction events generalizing log with
  | nil => simp [memoryText, progressText, Event.liveCounts, Event.passes, text]
  | cons event events induction =>
      rw [List.map_cons, List.foldl_cons, induction]
      cases event with
      | liveNodes count =>
          simp [accept, LineWriter.writeLine, memoryText, progressText, Event.liveCounts,
            Event.liveCount?, Event.passes, Event.isPass, text, String.append_assoc]
      | passComplete cycle =>
          have counts : Event.liveCounts (.passComplete cycle :: events) =
              Event.liveCounts events := rfl
          have passes : Event.passes (.passComplete cycle :: events) =
              Event.passes events + 1 := List.countP_cons_of_pos rfl
          simp [accept, LineWriter.writeLine, memoryText, progressText, counts, passes, text,
            List.replicate_succ, String.append_assoc]

end Log

/-- A place for a file, with the contents of the file if there is one. -/
def Destination.site (path : AbsolutePath) : Option ByteArray → Destination
  | some contents => .file path contents
  | none => .vacant path

namespace FileTree

variable {tree after : FileTree} {directory place other : AbsolutePath} {entry : FileEntry}
  {names : List String} {path : String} {held found : Option ByteArray} {contents : ByteArray}

theorem find?_insert_self (proper : place ≠ []) :
    (tree.insert place entry).find? place = some entry := by
  simp [find?, insert, proper]

theorem lookup_filter_of_ne (different : other ≠ place)
    (entries : List (AbsolutePath × FileEntry)) :
    (entries.filter fun entry => entry.1 != place).lookup other = entries.lookup other := by
  induction entries with
  | nil => rfl
  | cons first entries induction =>
      obtain ⟨path, entry⟩ := first
      by_cases removed : path = place
      · have passed : (other == path) = false := by simpa [removed] using different
        rw [List.filter_cons_of_neg (by simpa using removed), induction, List.lookup_cons, passed]
      · rw [List.filter_cons_of_pos (by simpa using removed), List.lookup_cons, List.lookup_cons,
          induction]

theorem find?_insert_of_ne (different : other ≠ place) :
    (tree.insert place entry).find? other = tree.find? other := by
  have passed : (other == place) = false := by simpa using different
  unfold find? insert
  rw [List.lookup_cons, passed, lookup_filter_of_ne different]

/-- A name that an entry of a directory may have. -/
structure EntryName (name : String) : Prop where
  proper : isHere name = false
  down : name ≠ ".."
  plain : '/' ∉ name.toList

theorem entryName_memoryFile : EntryName Log.memoryFile := by
  constructor <;> decide

theorem entryName_progressFile : EntryName Log.progressFile := by
  constructor <;> decide

theorem ok_eq_site_file (same : Except.ok (.file other contents) =
      (.ok (.site place held) : Except FileError Destination)) :
    place = other ∧ held = some contents := by
  cases held with
  | none => cases same
  | some _ => cases same; exact ⟨rfl, rfl⟩

theorem ok_eq_site_vacant (same : Except.ok (.vacant other) =
      (.ok (.site place held) : Except FileError Destination)) :
    place = other ∧ held = none := by
  cases held with
  | none => cases same; exact ⟨rfl, rfl⟩
  | some _ => cases same

theorem ok_ne_site_directory : Except.ok (.directory other) ≠
      (.ok (.site place held) : Except FileError Destination) := by
  cases held <;> exact fun same => by cases same

/-- What is found at the end of a path is there. -/
theorem find?_of_follow (followed : tree.follow directory names = .ok (.site place held)) :
    place ≠ [] ∧ tree.find? place = held.map .file := by
  fun_induction follow tree directory names with
  | case1 => exact absurd followed ok_ne_site_directory
  | case2 directory name names here induction => exact induction followed
  | case3 directory names proper induction => exact induction followed
  | case4 directory name names proper down target there induction => exact induction followed
  | case5 directory name names proper down target contents there last =>
      obtain ⟨rfl, rfl⟩ := ok_eq_site_file followed
      exact ⟨by simp [target], there⟩
  | case6 => cases followed
  | case7 directory name names proper down target missing last =>
      obtain ⟨rfl, rfl⟩ := ok_eq_site_vacant followed
      exact ⟨by simp [target], missing⟩
  | case8 => cases followed

section

variable {name : String}

/-- On the way, a name leads into a directory. -/
theorem follow_through (proper : isHere name = false) (down : name ≠ "..")
    (there : tree.find? (directory ++ [name]) = some .directory) :
    tree.follow directory (name :: names) = tree.follow (directory ++ [name]) names := by
  simp only [follow, proper, down, there, if_false, Bool.false_eq_true]

/-- At the end, a name may lead to a file or to nothing. -/
theorem follow_last (proper : isHere name = false) (down : name ≠ "..")
    (there : tree.find? (directory ++ [name]) = held.map .file) :
    tree.follow directory [name] = .ok (.site (directory ++ [name]) held) := by
  cases held <;>
    simp_all [follow, Destination.site]

/-- A path leads to the same place in every tree that has the same directories and more. -/
theorem follow_of_directories
    (kept : ∀ other, tree.find? other = some .directory → after.find? other = some .directory)
    (followed : tree.follow directory names = .ok (.site place held))
    (there : after.find? place = found.map .file) :
    after.follow directory names = .ok (.site place found) := by
  fun_induction follow tree directory names with
  | case1 => exact absurd followed ok_ne_site_directory
  | case2 directory name names here induction =>
      rw [follow, if_pos here]
      exact induction followed
  | case3 directory names proper induction =>
      rw [follow, if_neg proper, if_pos rfl]
      exact induction followed
  | case4 directory name names proper down target passable induction =>
      rw [follow_through (by simpa using proper) down (kept _ passable)]
      exact induction followed
  | case5 directory name names proper down target contents filed last =>
      obtain ⟨rfl, _⟩ := ok_eq_site_file followed
      obtain rfl := List.isEmpty_iff.mp last
      exact follow_last (by simpa using proper) down there
  | case6 => cases followed
  | case7 directory name names proper down target missing last =>
      obtain ⟨rfl, _⟩ := ok_eq_site_vacant followed
      obtain rfl := List.isEmpty_iff.mp last
      exact follow_last (by simpa using proper) down there
  | case8 => cases followed

/-- A path leads to an entry of the last name of the path. -/
theorem getLast?_of_follow (entryName : EntryName name)
    (last : names.getLast? = some name)
    (followed : tree.follow directory names = .ok (.site place held)) :
    place.getLast? = some name := by
  fun_induction follow tree directory names with
  | case1 => cases last
  | case2 directory first names here induction =>
      cases names with
      | nil =>
          obtain rfl : first = name := Option.some.inj last
          have proper := entryName.proper
          rw [here] at proper
          cases proper
      | cons second names => exact induction last followed
  | case3 directory names _ induction =>
      cases names with
      | nil =>
          cases last
          exact absurd rfl entryName.down
      | cons second names => exact induction last followed
  | case4 directory first names _ _ target passable induction =>
      cases names with
      | nil => exact absurd followed ok_ne_site_directory
      | cons second names => exact induction last followed
  | case5 directory first names _ _ target contents filed ended =>
      obtain ⟨rfl, _⟩ := ok_eq_site_file followed
      obtain rfl := List.isEmpty_iff.mp ended
      cases last
      exact List.getLast?_concat
  | case6 => cases followed
  | case7 directory first names _ _ target missing ended =>
      obtain ⟨rfl, _⟩ := ok_eq_site_vacant followed
      obtain rfl := List.isEmpty_iff.mp ended
      cases last
      exact List.getLast?_concat
  | case8 => cases followed

/-- The names of a path that is a single name. -/
theorem pathNames_of_plain (plain : '/' ∉ name.toList) : pathNames name = [name] := by
  rw [pathNames, List.splitOn_eq_singleton plain, List.map_singleton, String.ofList_toList]

theorem exists_front_of_endsWith {folder : String} (slashed : folder.endsWith "/" = true) :
    ∃ front, folder.toList = front ++ ['/'] := by
  rw [String.endsWith_eq_endsWith_toSlice, String.Slice.endsWith_string_iff] at slashed
  obtain ⟨front, spelt⟩ := slashed
  exact ⟨front, by simpa using spelt.symm⟩

/-- The path of an entry of a directory ends with the name of the entry. -/
theorem getLast?_pathNames_joinPath (folder : String) (plain : '/' ∉ name.toList) :
    (pathNames (joinPath folder name)).getLast? = some name := by
  have ended : ∀ path : String, ∀ front : List Char,
      path.toList = front ++ '/' :: name.toList → (pathNames path).getLast? = some name := by
    intro path front spelt
    rw [pathNames, spelt, List.splitOn_append_cons_self, List.splitOn_eq_singleton plain,
      List.map_append, List.map_singleton, List.getLast?_concat, String.ofList_toList]
  unfold joinPath
  split
  · rename_i joined
    rcases Bool.or_eq_true_iff.mp joined with empty | slashed
    · obtain rfl : folder = "" := by simpa using empty
      rw [String.empty_append, pathNames_of_plain plain, List.getLast?_singleton]
    · obtain ⟨front, spelt⟩ := exists_front_of_endsWith slashed
      refine ended _ front ?_
      rw [String.toList_append, spelt, List.append_assoc, List.singleton_append]
  · exact ended _ folder.toList (by simp [String.toList_append])

theorem pathNames_joinPath {folder : String} (folderNamed : EntryName folder)
    (plain : '/' ∉ name.toList) :
    pathNames (joinPath folder name) = [folder, name] := by
  have separated : (folder.isEmpty || folder.endsWith "/") = false := by
    refine Bool.eq_false_iff.mpr fun joined => ?_
    rcases Bool.or_eq_true_iff.mp joined with empty | slashed
    · have proper := folderNamed.proper
      rw [String.isEmpty_iff.mp empty] at proper
      cases proper
    · obtain ⟨front, spelt⟩ := exists_front_of_endsWith slashed
      exact folderNamed.plain (by simp [spelt])
  have spelt : (joinPath folder name).toList = folder.toList ++ '/' :: name.toList := by
    simp [joinPath, separated, String.toList_append]
  rw [pathNames, spelt, List.splitOn_append_cons_self, List.splitOn_eq_singleton folderNamed.plain,
    List.splitOn_eq_singleton plain]
  simp

end

theorem resolve_eq_ok_iff {destination : Destination} :
    tree.resolve path = .ok destination ↔
      path.isEmpty = false ∧
        tree.follow (tree.startOf path) (pathNames path) = .ok destination := by
  unfold resolve
  cases path.isEmpty <;> simp

/-- Where the path of an entry leads, in a folder of the root. -/
theorem resolve_joinPath {folder name : String} (top : tree.workingDirectory = [])
    (folderNamed : EntryName folder) (named : EntryName name)
    (there : tree.find? [folder] = some .directory)
    (filed : tree.find? [folder, name] = held.map .file) :
    tree.resolve (joinPath folder name) = .ok (.site [folder, name] held) := by
  have names := pathNames_joinPath folderNamed named.plain
  have start : tree.startOf (joinPath folder name) = [] := by
    rw [startOf, top, ite_self]
  refine resolve_eq_ok_iff.mpr ⟨?_, ?_⟩
  · refine Bool.eq_false_iff.mpr fun empty => ?_
    have split : pathNames "" = [folder, name] := (String.isEmpty_iff.mp empty) ▸ names
    rw [pathNames_of_plain (by decide)] at split
    cases split
  · rw [start, names, follow_through folderNamed.proper folderNamed.down there]
    exact follow_last named.proper named.down filed

theorem read_eq_ok_iff :
    tree.read path = .ok contents ↔
      ∃ place, tree.resolve path = .ok (.site place (some contents)) := by
  unfold read
  split <;> simp_all [Destination.site]

theorem append_eq_ok_iff :
    tree.append path contents = .ok after ↔
      ∃ place held, tree.resolve path = .ok (.site place held) ∧
        after = tree.insert place (.file (held.getD ByteArray.empty ++ contents)) := by
  constructor
  · intro appended
    unfold append at appended
    split at appended
    · cases appended
    · cases appended
    · rename_i place existing resolved
      cases appended
      exact ⟨place, some existing, resolved, rfl⟩
    · rename_i place resolved
      cases appended
      exact ⟨place, none, resolved, by simp⟩
  · rintro ⟨place, held, resolved, rfl⟩
    cases held with
    | some existing => simp only [append, resolved, Destination.site, Option.getD_some]
    | none =>
        simp only [append, resolved, Destination.site, Option.getD_none, ByteArray.empty_append]

/-- A path still leads to the same place when something else has been filed elsewhere. -/
theorem resolve_insert {seat : AbsolutePath}
    (resolved : tree.resolve path = .ok (.site seat held))
    (clear : tree.find? place ≠ some .directory)
    (there : (tree.insert place entry).find? seat = found.map .file) :
    (tree.insert place entry).resolve path = .ok (.site seat found) := by
  obtain ⟨proper, followed⟩ := resolve_eq_ok_iff.mp resolved
  refine resolve_eq_ok_iff.mpr
    ⟨proper, follow_of_directories (fun other passable => ?_) followed there⟩
  have different : other ≠ place := by
    rintro rfl
    exact clear passable
  rw [find?_insert_of_ne different, passable]

theorem find?_of_resolve (resolved : tree.resolve path = .ok (.site place held)) :
    place ≠ [] ∧ tree.find? place = held.map .file :=
  find?_of_follow (resolve_eq_ok_iff.mp resolved).2

theorem find?_ne_directory (there : tree.find? place = held.map .file) :
    tree.find? place ≠ some .directory := by
  rw [there]
  cases held <;> exact fun same => by cases same

/-- What is appended is found at the end. -/
theorem read_append (appended : tree.append path contents = .ok after) :
    ∃ place held, tree.resolve path = .ok (.site place held) ∧
      after.read path = .ok (held.getD ByteArray.empty ++ contents) := by
  obtain ⟨place, held, resolved, rfl⟩ := append_eq_ok_iff.mp appended
  obtain ⟨proper, there⟩ := find?_of_resolve resolved
  refine ⟨place, held, resolved, read_eq_ok_iff.mpr ⟨place, ?_⟩⟩
  exact resolve_insert resolved (find?_ne_directory there) (find?_insert_self proper)

theorem append_of_read {existing : ByteArray} (found : tree.read path = .ok existing)
    (contents : ByteArray) :
    ∃ after, tree.append path contents = .ok after ∧
      after.read path = .ok (existing ++ contents) := by
  obtain ⟨place, resolved⟩ := read_eq_ok_iff.mp found
  obtain ⟨after, appended⟩ : ∃ after, tree.append path contents = .ok after :=
    ⟨_, append_eq_ok_iff.mpr ⟨place, some existing, resolved, rfl⟩⟩
  obtain ⟨again, held, resolvedAgain, readAfter⟩ := read_append appended
  rw [resolved] at resolvedAgain
  obtain ⟨rfl, rfl⟩ := ok_eq_site_file resolvedAgain
  exact ⟨after, appended, readAfter⟩

/-- What is appended to one entry of a folder leaves the others where they are. -/
theorem resolve_append_of_ne {folder name sibling : String} {seat : AbsolutePath}
    (named : EntryName name) (siblingNamed : EntryName sibling) (different : sibling ≠ name)
    (appended : tree.append (joinPath folder name) contents = .ok after)
    (seated : tree.resolve (joinPath folder sibling) = .ok (.site seat found)) :
    after.resolve (joinPath folder sibling) = .ok (.site seat found) := by
  obtain ⟨place, held, resolved, rfl⟩ := append_eq_ok_iff.mp appended
  have apart : seat ≠ place := by
    rintro rfl
    have last := getLast?_of_follow named (getLast?_pathNames_joinPath folder named.plain)
      (resolve_eq_ok_iff.mp resolved).2
    rw [getLast?_of_follow siblingNamed (getLast?_pathNames_joinPath folder siblingNamed.plain)
      (resolve_eq_ok_iff.mp seated).2] at last
    exact different (Option.some.inj last)
  refine resolve_insert seated (find?_ne_directory (find?_of_resolve resolved).2) ?_
  rw [find?_insert_of_ne apart, (find?_of_resolve seated).2]

/-- What is appended to one entry of a folder does not show in another. -/
theorem read_append_of_ne {folder name sibling : String} {existing : ByteArray}
    (named : EntryName name) (siblingNamed : EntryName sibling) (different : sibling ≠ name)
    (appended : tree.append (joinPath folder name) contents = .ok after)
    (found : tree.read (joinPath folder sibling) = .ok existing) :
    after.read (joinPath folder sibling) = .ok existing := by
  obtain ⟨seat, seated⟩ := read_eq_ok_iff.mp found
  exact read_eq_ok_iff.mpr
    ⟨seat, resolve_append_of_ne named siblingNamed different appended seated⟩

/-- Nothing but directories and empty files has been added. -/
structure Extends (tree after : FileTree) : Prop where
  workingDirectory : after.workingDirectory = tree.workingDirectory
  kept : ∀ path entry, tree.find? path = some entry → after.find? path = some entry
  blank : ∀ path contents, tree.find? path = none →
    after.find? path = some (.file contents) → contents = ByteArray.empty

namespace Extends

variable {first second third : FileTree}

theorem refl (tree : FileTree) : tree.Extends tree :=
  ⟨rfl, fun _ _ there => there, fun path contents missing there => by
    rw [missing] at there
    cases there⟩

theorem trans (left : first.Extends second) (right : second.Extends third) :
    first.Extends third where
  workingDirectory := right.workingDirectory.trans left.workingDirectory
  kept path entry there := right.kept path entry (left.kept path entry there)
  blank path contents missing there := by
    cases found : second.find? path with
    | none => exact right.blank path contents found there
    | some entry =>
        rw [right.kept path entry found] at there
        cases there
        exact left.blank path contents missing found

end Extends

/-- The two logs of a folder are there, with these contents. -/
structure HoldsLogs (tree : FileTree) (folder : String) (memory progress : ByteArray) : Prop where
  memory : tree.read (joinPath folder Log.memoryFile) = .ok memory
  progress : tree.read (joinPath folder Log.progressFile) = .ok progress

variable {folder : String} {memory progress : ByteArray}

theorem run_appendFile_iff :
    (Host.appendFile path contents : StateM FileTree (Except FileError Unit)).run tree =
        pure (.ok (), after) ↔
      tree.append path contents = .ok after := by
  simp only [Host.appendFile, modifyGet, MonadStateOf.modifyGet, StateT.modifyGet, StateT.run]
  cases tree.append path contents with
  | error error =>
      constructor
      · exact fun impossible => by cases impossible
      · exact fun impossible => by cases impossible
  | ok appended =>
      constructor
      · exact fun same => by cases same; rfl
      · exact fun same => by cases same; rfl

theorem HoldsLogs.appendLogs (holds : tree.HoldsLogs folder memory progress) (log : Log) :
    ∃ after, (Tricolor.appendLogs folder log : StateM FileTree Unit).run tree = ((), after) ∧
      after.HoldsLogs folder (memory ++ log.memoryUsage.written.toUTF8)
        (progress ++ log.progress.written.toUTF8) := by
  obtain ⟨middle, appended, memoryRead⟩ :=
    append_of_read holds.memory log.memoryUsage.written.toUTF8
  have progressKept := read_append_of_ne entryName_memoryFile entryName_progressFile (by decide)
    appended holds.progress
  obtain ⟨after, appendedAfter, progressRead⟩ :=
    append_of_read progressKept log.progress.written.toUTF8
  refine ⟨after, ?_, read_append_of_ne entryName_progressFile entryName_memoryFile (by decide)
    appendedAfter memoryRead, progressRead⟩
  simp only [Tricolor.appendLogs, StateT.run_bind, run_appendFile_iff.mpr appended,
    run_appendFile_iff.mpr appendedAfter, pure_bind, StateT.run_pure]
  rfl

theorem run_openLogs_iff :
    (openLogs folder : StateM FileTree (Except FileError Unit)).run tree =
        pure (.ok (), after) ↔
      ∃ middle, tree.append (joinPath folder Log.memoryFile) ByteArray.empty = .ok middle ∧
        middle.append (joinPath folder Log.progressFile) ByteArray.empty = .ok after := by
  simp only [openLogs, StateT.run_bind]
  constructor
  · intro opened
    generalize ran : (Host.appendFile (joinPath folder Log.memoryFile) ByteArray.empty :
      StateM FileTree (Except FileError Unit)).run tree = outcome at opened
    obtain ⟨error | ⟨⟩, middle⟩ := outcome
    · cases opened
    · exact ⟨middle, run_appendFile_iff.mp ran, run_appendFile_iff.mp opened⟩
  · rintro ⟨middle, appended, appendedAfter⟩
    rw [run_appendFile_iff.mpr appended]
    exact run_appendFile_iff.mpr appendedAfter

end FileTree

end Tricolor

import Tricolor.Heap.FreeList

/-!
# The collector

A cycle shades the roots, scans the heap round and round for grey nodes until
none is left, and then releases every live node that is still white.

Mutators may run between any two visits, so a scan that has met no grey node
for a whole round is not enough to stop: a node may have been shaded behind the
cursor.  Marking comes to rest only if the grey counter is zero as well.
-/

namespace Tricolor

/-- Where the collector stands within the current cycle. -/
inductive Position where
  | idle
  /-- Next to be scanned is `cursor`; `clean` more nodes must turn out not to
  be grey before marking may come to rest. -/
  | sweeping (cursor clean : Nat)
  /-- Next to be released or whitened is `cursor`. -/
  | reclaiming (cursor : Nat)
  deriving DecidableEq, Repr

/-- What one cycle did. -/
structure CycleReport where
  cycle : Nat := 0
  /-- Nodes turned from grey to black. -/
  blackened : Nat := 0
  /-- Nodes put on the free list. -/
  reclaimed : Nat := 0
  /-- How often the scan wrapped around. -/
  passes : Nat := 0
  deriving DecidableEq, Repr

/-- What a collector did over its lifetime, completed cycles only. -/
structure CollectorStats where
  cycles : Nat := 0
  blackened : Nat := 0
  reclaimed : Nat := 0
  passes : Nat := 0
  deriving DecidableEq, Repr

def CollectorStats.add (stats : CollectorStats) (report : CycleReport) : CollectorStats where
  cycles := stats.cycles + 1
  blackened := stats.blackened + report.blackened
  reclaimed := stats.reclaimed + report.reclaimed
  passes := stats.passes + report.passes

structure Collector where
  position : Position := .idle
  /-- The cycle in progress so far. -/
  current : CycleReport := {}
  stats : CollectorStats := {}
  deriving DecidableEq, Repr

/-- Drops the marks of an unfinished cycle.  Garbage that it has not released
waits for the next cycle. -/
def Heap.abandonCycle (heap : Heap) : Heap :=
  if heap.phase.isActive then
    let heap := heap.whitenAll
    { heap with frontier := heap.capacity, phase := .idle }
  else heap

/-- A heap with the collector attached to it. -/
structure Collection where
  heap : Heap
  collector : Collector
  deriving DecidableEq, Repr

namespace Collection

/-- Attaches a new collector, clearing marks that an unfinished cycle left. -/
def attach (heap : Heap) : Collection where
  heap := heap.abandonCycle
  collector := {}

/-- Detaches the collector at any point of a cycle. -/
def detach (collection : Collection) : Heap :=
  if collection.collector.position = .idle then collection.heap
  else collection.heap.abandonCycle

def capacity (collection : Collection) : Nat := collection.heap.capacity

/-- Starts a cycle by shading the roots, unless one is in progress. -/
def markRoots : Collection → Collection
  | ⟨heap, collector⟩ =>
      if collector.position = .idle then
        let heap := heap.shadeAll Ref.roots
        let cycle := heap.cyclesStarted + 1
        { heap := { heap with phase := .marking, cyclesStarted := cycle }
          collector :=
            { collector with
              current := { cycle }
              position := .sweeping 0 heap.capacity } }
      else ⟨heap, collector⟩

/-- Scans one node.  A grey node is blackened once its children are shaded,
and the count of clean nodes starts over. -/
def sweepVisit : Collection → (cursor clean : Nat) → Collection
  | ⟨heap, collector⟩, cursor, clean =>
      let capacity := heap.capacity
      let next := (cursor + 1) % capacity
      let passes := collector.current.passes + if next = 0 then 1 else 0
      let node := heap.node cursor
      if node.color = .grey then
        { heap := ((heap.shade node.left).shade node.right).blacken cursor
          collector :=
            { collector with
              current :=
                { collector.current with
                  blackened := collector.current.blackened + 1
                  passes }
              position := .sweeping next capacity } }
      else
        { heap
          collector :=
            { collector with
              current := { collector.current with passes }
              position := .sweeping next (clean - 1) } }

/-- Ends the marking phase if no node is grey, and otherwise asks for another
clean round. -/
def tryQuiesce : Collection → (cursor : Nat) → Collection
  | ⟨heap, collector⟩, cursor =>
      if 0 < heap.greyCount then
        ⟨heap, { collector with position := .sweeping cursor heap.capacity }⟩
      else
        { heap := { heap with frontier := 1, phase := .reclaiming }
          collector := { collector with position := .reclaiming 1 } }

/-- Releases one node if it is garbage and whitens it otherwise. -/
def reclaimVisit : Collection → (cursor : Nat) → Collection
  | ⟨heap, collector⟩, cursor =>
      let heap := { heap with frontier := cursor + 1 }
      let node := heap.node cursor
      let position := Position.reclaiming (cursor + 1)
      if node.color = .white ∧ node.live = true ∧ ¬ Ref.IsRoot cursor then
        { heap := (heap.pushFree cursor).reportLive
          collector :=
            { collector with
              current :=
                { collector.current with reclaimed := collector.current.reclaimed + 1 }
              position } }
      else
        ⟨heap.whiten cursor, { collector with position }⟩

/-- One unit of work of a cycle in progress: a scan, a test for rest, or a
visit of the reclaim pass. -/
def visit (collection : Collection) : Collection :=
  match collection.collector.position with
  | .idle => collection
  | .sweeping cursor clean =>
      if clean = 0 then collection.tryQuiesce cursor else collection.sweepVisit cursor clean
  | .reclaiming cursor => collection.reclaimVisit cursor

/-- The reclaim pass has visited every node. -/
def isSpent (collection : Collection) : Bool :=
  match collection.collector.position with
  | .reclaiming cursor => collection.capacity ≤ cursor
  | _ => false

/-- Completes the cycle and accounts for it. -/
def finish : Collection → CycleReport × Collection
  | ⟨heap, collector⟩ =>
      let report := collector.current
      let heap := { heap with frontier := heap.capacity, phase := .idle }
      (report,
        { heap := heap.report (.passComplete report.cycle)
          collector :=
            { position := .idle
              current := {}
              stats := collector.stats.add report } })

/-- Advances the cycle by at most `budget` units of work, starting one if none
is in progress.  Shading the roots and completing the cycle are free, but
nothing happens without budget left. -/
def step : (budget : Nat) → Collection → Option CycleReport × Collection
  | 0, collection => (none, collection)
  | budget + 1, collection =>
      let collection := collection.markRoots
      if collection.isSpent then
        let (report, collection) := collection.finish
        (some report, collection)
      else step budget collection.visit

/-- More units of work than a cycle takes when no mutator interferes. -/
def cycleBound (collection : Collection) : Nat :=
  (collection.capacity + 2) * (collection.capacity + 2)

/-- Scans until marking comes to rest, but for at most `limit` units. -/
def sweepFor : (limit : Nat) → Collection → Collection
  | 0, collection => collection
  | limit + 1, collection =>
      match collection.collector.position with
      | .sweeping _ _ => sweepFor limit collection.visit
      | _ => collection

/-- Runs the marking phase to its end, starting a cycle if none is in
progress.  Nothing has been released yet when this returns. -/
def sweep (collection : Collection) : Collection :=
  let collection := collection.markRoots
  collection.sweepFor collection.cycleBound

/-- Completes the cycle in progress, or a whole new one.  There is no report
only if the grey counter was wrong from the start. -/
def reclaim (collection : Collection) : Option CycleReport × Collection :=
  let collection := collection.sweep
  collection.step collection.cycleBound

/-- Runs one cycle to its end, or the rest of the one in progress. -/
def runCycle (collection : Collection) : Option CycleReport × Collection :=
  collection.reclaim

/-- Takes steps of `budget` units until a cycle completes, but at most `calls`
of them. -/
def stepUntilReport (budget : Nat) :
    (calls : Nat) → Collection → Option CycleReport × Collection
  | 0, collection => (none, collection)
  | calls + 1, collection =>
      match collection.step budget with
      | (some report, collection) => (some report, collection)
      | (none, collection) => stepUntilReport budget calls collection

/-- Completes a cycle in steps of `budget` units. -/
def runCycleBy (budget : Nat) (collection : Collection) : Option CycleReport × Collection :=
  collection.stepUntilReport budget collection.cycleBound

/-- Completes the cycle in progress, if any, and then runs a full one: what
is garbage now is on the free list afterwards. -/
def stopTheWorld (collection : Collection) : Collection :=
  let collection :=
    if collection.heap.phase.isActive then collection.runCycle.2 else collection
  collection.runCycle.2

end Collection

end Tricolor

import Tricolor.Color.Slot
import Tricolor.Main
import Tricolor.Session
import Tricolor.Files.Tree
import Tricolor.Proofs.Nodes
import Tricolor.Proofs.Recoloring
import Tricolor.Proofs.FreeChain
import Tricolor.Proofs.SlotWrites
import Tricolor.Proofs.WellFormed
import Tricolor.Proofs.CyclePhases
import Tricolor.Proofs.CollectorWork
import Tricolor.Proofs.SessionRuns
import Tricolor.Proofs.MutatorWork
import Tricolor.Proofs.FreshHeap
import Tricolor.Proofs.Reachability
import Tricolor.Proofs.Usability
import Tricolor.Proofs.CollectorSafety
import Tricolor.Proofs.HeapChecking
import Tricolor.Proofs.StaleReferences
import Tricolor.Proofs.Retention
import Tricolor.Proofs.Tracing
import Tricolor.Proofs.Reclamation
import Tricolor.Proofs.CycleProgress
import Tricolor.Proofs.FullCycle
import Tricolor.Proofs.Moves
import Tricolor.Proofs.ReleaseHistory
import Tricolor.Proofs.MutatorFrame
import Tricolor.Proofs.Visits
import Tricolor.Proofs.SteppedCycles
import Tricolor.Proofs.CycleBound
import Tricolor.Proofs.GarbageRelease
import Tricolor.Proofs.Isomorphism
import Tricolor.Proofs.Transparency
import Tricolor.Proofs.Accounting
import Tricolor.Proofs.Completion
import Tricolor.Proofs.Damage
import Tricolor.Proofs.StopTheWorld
import Tricolor.Proofs.Budgets
import Tricolor.Proofs.Recovery
import Tricolor.Proofs.LateMarks
import Tricolor.Proofs.CycleNumbers
import Tricolor.Proofs.Ledger
import Tricolor.Proofs.IncrementalRuns
import Tricolor.Proofs.LogFiles
import Tricolor.Proofs.LoggedRuns
import Tricolor.Proofs.GuardedMoves
import Tricolor.Proofs.Publication
import Tricolor.Proofs.Faultless
import Tricolor.Proofs.Reporting
import Tricolor.Proofs.FreeStack
import Tricolor.Proofs.FailedCalls
import Tricolor.Proofs.Background
import Tricolor.Proofs.Handles
import Tricolor.Proofs.CheckerExactness
import Tricolor.Proofs.MemoryFallback
import Tricolor.Proofs.WriteOrder
import Tricolor.Proofs.Growth
import Tricolor.Proofs.CollectorFrame
import Tricolor.Proofs.CycleCost
import Tricolor.Proofs.Spelling
import Tricolor.Proofs.Scanning
import Tricolor.Proofs.Unambiguity
import Tricolor.Proofs.Skipping
import Tricolor.Proofs.TakenValues
import Tricolor.Proofs.RecordReading
import Tricolor.Proofs.RecordMeaning
import Tricolor.Proofs.Writing
import Tricolor.Proofs.ConfigText
import Tricolor.Proofs.ConfigRoundTrip
import Tricolor.Proofs.LogDecoding

import Tricolor.Proofs.IncrementalRuns
import Tricolor.Proofs.LogFiles

/-!
# Runs and their logs

A run whose logs can be opened goes through to its report: no file operation after that can
fail, and the logs grow by a line for every event of the simulation.  In incremental mode the
simulation cannot fail either.
-/

namespace Tricolor

variable {tree opened after : FileTree}

section

variable {ε α β : Type}

end

variable {folder : String}

namespace Config

variable {σ : Type} [DrawSource σ] {config : Config} {sourceOf : (seed : Nat) → σ}
  {report : SimulationReport} {events : List Event}

end Config

end Tricolor

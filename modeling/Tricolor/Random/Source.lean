/-!
# Sources of random draws

A simulation takes its decisions from a source of draws and does not care where
they come from.
-/

namespace Tricolor

class DrawSource (σ : Type) where
  /-- Draws a number below a bound. -/
  below : (bound : Nat) → σ → Nat × σ
  /-- Draws a truth value. -/
  coin : σ → Bool × σ

end Tricolor

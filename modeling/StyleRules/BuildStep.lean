/-!
# Building step by step

Something that is built may be looked at between two edits. Looking takes a copy
and changes nothing, so what is built later does not depend on it.
-/

namespace StyleRules

/-- One step of building: an edit, or taking a copy of what is there. -/
inductive BuildStep (ε : Type) where
  | edit (edit : ε)
  | build
deriving DecidableEq, Repr

namespace BuildStep

variable {ρ ε : Type}

def apply (applyEdit : ρ → ε → ρ) (built : ρ) : BuildStep ε → ρ
  | .edit change => applyEdit built change
  | .build => built

def states (applyEdit : ρ → ε → ρ) (built : ρ) : List (BuildStep ε) → List ρ
  | [] => []
  | step :: steps =>
      let next := step.apply applyEdit built
      next :: states applyEdit next steps

end BuildStep

end StyleRules

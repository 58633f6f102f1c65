import StyleRules.Session.Order
import StyleRules.Stylesheet

/-!
# Assembling a stylesheet

Preparations follow one another, and what they come to may be attached to a
stylesheet. One preparator, one factory and one sink serve all of them. A move
can be chosen when the outcomes of the moves before it are known.
-/

namespace StyleRules

/-- Attaches an outcome, unless it is an error, and says whether that added a rule. -/
def Stylesheet.attachOutcome (sheet : Stylesheet) : Outcome → Option Bool × Stylesheet
  | .failed _ => (none, sheet)
  | outcome =>
      let (attached, next) := sheet.attach outcome.rule?
      (some attached, next)

structure Assembly (σ τ : Type) where
  preparator : Preparator
  factory : Factory σ
  sink : Sink τ

namespace Assembly

variable {σ τ : Type}

inductive Move where
  | prepare (production : Production) (attach : Bool)
  | push (rule : Rule)
  | attach (rule : Option Rule)
  | clear
deriving DecidableEq, Repr

structure State (σ τ : Type) where
  factory : σ
  sink : τ
  sheet : Stylesheet
  history : History

/-- The outcome of a move if it prepares something, whether it attached a rule if it tried to, and
the state it leaves. -/
structure Effect (σ τ : Type) where
  outcome : Option Outcome
  attached : Option Bool
  state : State σ τ

def prepare (assembly : Assembly σ τ) (production : Production) (state : State σ τ) :
    Outcome × State σ τ :=
  let preparation := assembly.preparator.prepare production
  let run := preparation.run assembly.factory assembly.sink state.factory state.sink
  (Outcome.ofResult run.result, { state with factory := run.factory, sink := run.sink })

def perform (assembly : Assembly σ τ) (state : State σ τ) : Move → Effect σ τ
  | .prepare production attach =>
      let (outcome, prepared) := assembly.prepare production state
      let (attached, sheet) :=
        if attach then prepared.sheet.attachOutcome outcome else (none, prepared.sheet)
      ⟨some outcome, attached, { prepared with sheet := sheet }⟩
  | .push rule => ⟨none, none, { state with sheet := state.sheet.push rule }⟩
  | .attach rule =>
      let (attached, sheet) := state.sheet.attach rule
      ⟨none, some attached, { state with sheet := sheet }⟩
  | .clear => ⟨none, none, { state with sheet := state.sheet.clear }⟩

/-- The state for the next move, which knows the outcome of this one. -/
def Effect.remember (effect : Effect σ τ) : State σ τ :=
  { effect.state with history := effect.state.history ++ [effect.outcome] }

/-- The effects of moves that are chosen one after another, each from the outcomes so far. -/
def effects (assembly : Assembly σ τ) (state : State σ τ) :
    List (History → Move) → List (Effect σ τ)
  | [] => []
  | choose :: choices =>
      let effect := assembly.perform state (choose state.history)
      effect :: assembly.effects effect.remember choices

end Assembly

end StyleRules

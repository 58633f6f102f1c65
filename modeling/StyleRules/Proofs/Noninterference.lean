import StyleRules.Session.Assembly
import StyleRules.Proofs.Requests

/-!
# Sinks do not interfere

However a sink answers, and whatever it remembers, it changes nothing but
itself. A silenced effect is one of which the sink is forgotten. Whole runs
with any sink are, once silenced, the run with the sink that wants nothing, and
so two runs that differ in their sinks cannot be told apart by their results,
their stylesheets, or their requests.
-/

namespace StyleRules
namespace Assembly

variable {σ τ υ : Type}

def State.silenced (state : State σ τ) : State σ Unit :=
  ⟨state.factory, (), state.sheet, state.history⟩

def Effect.silenced (effect : Effect σ τ) : Effect σ Unit :=
  ⟨effect.outcome, effect.attached, effect.state.silenced⟩

def silenced (assembly : Assembly σ τ) : Assembly σ Unit :=
  ⟨assembly.preparator, assembly.factory, Sink.noop⟩

theorem Effect.silenced_remember (effect : Effect σ τ) :
    effect.silenced.remember = effect.remember.silenced :=
  rfl

/-!
# One move

Only a preparation involves the sink at all.
-/

theorem prepare_silenced (assembly : Assembly σ τ) (production : Production)
    (state : State σ τ) :
    assembly.silenced.prepare production state.silenced =
      ((assembly.prepare production state).1, (assembly.prepare production state).2.silenced) := by
  have silent := Preparation.run_silenced assembly.factory assembly.sink
    (assembly.preparator.prepare production) state.factory state.sink
  simp only [prepare, silenced, State.silenced]
  rw [← silent]
  rfl

theorem perform_silenced (assembly : Assembly σ τ) (state : State σ τ) (move : Move) :
    assembly.silenced.perform state.silenced move = (assembly.perform state move).silenced := by
  cases move with
  | prepare production attach =>
      simp only [perform, prepare_silenced]
      rfl
  | push rule =>
      rfl
  | attach rule =>
      rfl
  | clear =>
      rfl

/-!
# Whole runs
-/

theorem effects_silenced (assembly : Assembly σ τ) (state : State σ τ)
    (choices : List (History → Move)) :
    (assembly.effects state choices).map Effect.silenced =
      assembly.silenced.effects state.silenced choices := by
  induction choices generalizing state with
  | nil =>
      rfl
  | cons choose choices ih =>
      -- The choice is made from the history, which silence leaves alone.
      have step := assembly.perform_silenced state (choose state.history)
      calc
        ((assembly.effects state (choose :: choices)).map Effect.silenced) =
            (assembly.perform state (choose state.history)).silenced ::
              (assembly.effects (assembly.perform state (choose state.history)).remember
                choices).map Effect.silenced := rfl
        _ = assembly.silenced.perform state.silenced (choose state.history) ::
              assembly.silenced.effects
                (assembly.silenced.perform state.silenced (choose state.history)).remember
                choices := by
          rw [ih, step, Effect.silenced_remember]
        _ = assembly.silenced.effects state.silenced (choose :: choices) := rfl

/-- Two runs of the same choices that differ in nothing but the sink and its state have the same
outcomes, attach the same rules, and leave factory and stylesheet in the same states, move by
move. With a logged factory the states of the factory hold all requests, so these are the same in
the same order. -/
theorem sinks_do_not_interfere (preparator : Preparator) (factory : Factory σ)
    (first : Sink τ) (second : Sink υ) (made : σ) (told : τ) (heard : υ) (sheet : Stylesheet)
    (history : History) (choices : List (History → Move)) :
    ((Assembly.mk preparator factory first).effects ⟨made, told, sheet, history⟩
          choices).map Effect.silenced =
        ((Assembly.mk preparator factory second).effects ⟨made, heard, sheet, history⟩
          choices).map Effect.silenced ∧
      ((Assembly.mk preparator factory.logged first).effects
          ⟨([], made), told, sheet, history⟩ choices).map Effect.silenced =
        ((Assembly.mk preparator factory.logged second).effects
          ⟨([], made), heard, sheet, history⟩ choices).map Effect.silenced := by
  constructor
  · rw [effects_silenced, effects_silenced]
    rfl
  · rw [effects_silenced, effects_silenced]
    rfl

end Assembly
end StyleRules

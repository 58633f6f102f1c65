import StyleRules.Session.Assembly

/-!
# Turns of a run

A turn is a move together with the state it was made in and the effect it had.
The turns of a run tell everything about it, and every state that a run can come
to is reached by the moves that were made up to there.
-/

namespace StyleRules
namespace Assembly

variable {σ τ : Type}

structure Turn (σ τ : Type) where
  before : State σ τ
  move : Move
  effect : Effect σ τ

def turn (assembly : Assembly σ τ) (state : State σ τ) (choose : History → Move) : Turn σ τ :=
  ⟨state, choose state.history, assembly.perform state (choose state.history)⟩

def Turn.after (turn : Turn σ τ) : State σ τ :=
  turn.effect.remember

theorem turn_history (assembly : Assembly σ τ) (state : State σ τ) (choose : History → Move) :
    (assembly.turn state choose).after.history =
      state.history ++ [(assembly.turn state choose).effect.outcome] := by
  unfold turn Turn.after Effect.remember
  cases choose state.history <;> rfl

def turns (assembly : Assembly σ τ) (state : State σ τ) :
    List (History → Move) → List (Turn σ τ)
  | [] => []
  | choose :: choices =>
      let turn := assembly.turn state choose
      turn :: assembly.turns turn.after choices

def reach (assembly : Assembly σ τ) (state : State σ τ) : List (History → Move) → State σ τ
  | [] => state
  | choose :: choices => assembly.reach (assembly.turn state choose).after choices

variable (assembly : Assembly σ τ) (state : State σ τ)

theorem turns_map_effect (choices : List (History → Move)) :
    (assembly.turns state choices).map Turn.effect = assembly.effects state choices := by
  induction choices generalizing state with
  | nil =>
      rfl
  | cons choose choices ih =>
      exact congrArg (List.cons _) (ih (assembly.turn state choose).after)

theorem exists_of_mem_turns {choices : List (History → Move)} {turn : Turn σ τ}
    (made : turn ∈ assembly.turns state choices) :
    exists before choose, turn = assembly.turn before choose := by
  induction choices generalizing state with
  | nil =>
      cases made
  | cons choose choices ih =>
      rcases List.mem_cons.mp made with first | later
      · exact ⟨state, choose, first⟩
      · exact ih _ later

/-- What holds at the start and is kept by every turn holds before every turn and in the end. -/
theorem reach_keeps {Good : State σ τ → Prop} {choices : List (History → Move)} (start : Good state)
    (kept : forall turn, turn ∈ assembly.turns state choices → Good turn.before → Good turn.after) :
    Good (assembly.reach state choices) ∧
      forall turn, turn ∈ assembly.turns state choices → Good turn.before := by
  induction choices generalizing state with
  | nil =>
      exact ⟨start, fun _ none => absurd none List.not_mem_nil⟩
  | cons choose choices ih =>
      have next : Good (assembly.turn state choose).after :=
        kept (assembly.turn state choose) List.mem_cons_self start
      rcases ih (assembly.turn state choose).after next
        fun turn later => kept turn (List.mem_cons_of_mem _ later) with ⟨reached, before⟩
      refine ⟨reached, ?_⟩
      intro turn member
      rcases List.mem_cons.mp member with rfl | later
      · exact start
      · exact before turn later

theorem reach_concat (choices : List (History → Move)) (choose : History → Move) :
    assembly.reach state (choices ++ [choose]) =
      (assembly.turn (assembly.reach state choices) choose).after := by
  induction choices generalizing state with
  | nil =>
      rfl
  | cons first choices ih =>
      exact ih (assembly.turn state first).after

theorem turns_concat (choices : List (History → Move)) (choose : History → Move) :
    assembly.turns state (choices ++ [choose]) =
      assembly.turns state choices ++ [assembly.turn (assembly.reach state choices) choose] := by
  induction choices generalizing state with
  | nil =>
      rfl
  | cons first choices ih =>
      exact congrArg (List.cons _) (ih (assembly.turn state first).after)

/-- The moves that prepare productions in order, whatever comes of them. -/
def preparing (productions : List Production) : List (History → Move) :=
  productions.map fun production _ => .prepare production false

theorem preparing_concat (earlier : List Production) (production : Production) :
    preparing (earlier ++ [production]) =
      preparing earlier ++ [fun _ => .prepare production false] := by
  simp [preparing]

theorem factory_reach_preparing_concat (earlier : List Production) (production : Production) :
    (assembly.reach state (preparing (earlier ++ [production]))).factory =
      ((assembly.preparator.prepare production).run assembly.factory assembly.sink
        (assembly.reach state (preparing earlier)).factory
        (assembly.reach state (preparing earlier)).sink).factory := by
  rw [preparing_concat, reach_concat]
  rfl

/-- What a production comes to when others have been prepared before it. -/
def outcomeAfter (earlier : List Production) (production : Production) : Outcome :=
  (assembly.prepare production (assembly.reach state (preparing earlier))).1

end Assembly
end StyleRules

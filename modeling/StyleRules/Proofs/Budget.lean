import Mathlib.Algebra.GroupWithZero.Nat
import Mathlib.Data.List.Induction
import StyleRules.Proofs.Script
import StyleRules.Session.Turns

/-!
# Running under a budget

A factory with a budget answers like the standard one until it has been asked
too often, and from then on it refuses everything. Only the number of requests
that the standard factory gets up to some point decides on which side of the
budget that point is. Once the budget is exceeded the counts of the two runs
differ, but both stay beyond it.
-/

namespace StyleRules

namespace Factory

def budgeted (budget : Nat) (message : String) : Factory (List RequestKind) :=
  limited ⟨some budget, none, message⟩

theorem standard_create {σ : Type} (request : Request) {answer : Except Error request.Product}
    (fresh : request.fresh = answer) (made : σ) :
    standard.create request made = (answer, made) :=
  congrArg (fun answer => (answer, made)) fresh

variable {budget : Nat} {message : String} {asked : List RequestKind}

theorem budgeted_create_within (request : Request) {answer : Except Error request.Product}
    (fresh : request.fresh = answer) (within : asked.length < budget) :
    (budgeted budget message).create request asked = (answer, asked ++ [request.kind]) := by
  have accepted : Limits.refuses ⟨some budget, none, message⟩ (asked ++ [request.kind]) = none := by
    simpa [Limits.refuses, Limits.exceeded] using Nat.succ_le_of_lt within
  exact guarded_create_granted accepted fresh

theorem budgeted_create_beyond (request : Request) (beyond : budget ≤ asked.length) :
    (budgeted budget message).create request asked =
      (.error (.factory message), asked ++ [request.kind]) := by
  have refused : Limits.refuses ⟨some budget, none, message⟩ (asked ++ [request.kind]) =
      some (.factory message) := by
    simpa [Limits.refuses, Limits.exceeded] using Nat.lt_succ_of_le beyond
  exact guarded_create_refused refused

end Factory

namespace Preparation

variable {α σ τ υ : Type}

theorem requests_silenced (factory : Factory σ) (sink : Sink τ) (preparation : Preparation α)
    (made : σ) (told : τ) :
    preparation.requests factory sink made told =
      preparation.requests factory Sink.noop made () := by
  have silent := run_silenced factory.logged sink preparation ([], made) told
  exact congrArg (fun run => run.factory.1) silent

/-- The number of requests that a preparation makes of the standard factory. -/
def cost (preparation : Preparation α) : Nat :=
  (preparation.requests Factory.standard Sink.noop () ()).length

theorem cost_request_granted {asked : Request} {product : asked.Product}
    (next : asked.Product → Preparation α) (fresh : asked.fresh = .ok product) :
    (request asked next).cost = (next product).cost + 1 := by
  rw [cost, requests_request_granted _ _ next () (Factory.standard_create asked fresh ())]
  rfl

theorem cost_request_refused {asked : Request} {error : Error}
    (next : asked.Product → Preparation α) (fresh : asked.fresh = .error error) :
    (request asked next).cost = 1 := by
  rw [cost, requests_request_refused _ _ next () (Factory.standard_create asked fresh ())]
  rfl

/-!
# One preparation under a budget

What counts is whether the requests of the preparation, if it makes any, still
fit in the budget after those that have been made already.
-/

/-- Requests of this number do not fit in the budget once others have been made. -/
def Exceeds (budget made cost : Nat) : Prop :=
  cost ≠ 0 ∧ budget < made + cost

instance (budget made cost : Nat) : Decidable (Exceeds budget made cost) :=
  inferInstanceAs (Decidable (_ ∧ _))

section

variable {budget : Nat} (message : String) (sink : Sink τ) (other : Sink υ)
  {preparation : Preparation α} {asked : List RequestKind} (told : τ) (heard : υ)

theorem run_budgeted_within (fits : ¬ Exceeds budget asked.length preparation.cost) :
    (preparation.run (Factory.budgeted budget message) other asked heard).result =
        (preparation.run Factory.standard sink () told).result ∧
      (preparation.run (Factory.budgeted budget message) other asked heard).factory.length =
        asked.length + preparation.cost := by
  induction preparation generalizing asked told heard with
  | done result =>
      exact ⟨rfl, rfl⟩
  | report record next ih =>
      exact ih _ _ fits
  | request wanted next ih =>
      have longer : (asked ++ [wanted.kind]).length = asked.length + 1 := List.length_append
      cases fresh : wanted.fresh with
      | error error =>
          rw [cost_request_refused next fresh] at fits ⊢
          have within : asked.length < budget := by
            simp only [Exceeds] at fits
            omega
          rw [run_request_refused _ other next heard
              (Factory.budgeted_create_within wanted fresh within),
            run_request_refused _ sink next told (Factory.standard_create wanted fresh ())]
          exact ⟨rfl, longer⟩
      | ok product =>
          rw [cost_request_granted next fresh] at fits ⊢
          -- The rest costs one request less after one request more, so it fits as the whole does.
          have within : asked.length < budget ∧
              ¬ Exceeds budget (asked ++ [wanted.kind]).length (next product).cost := by
            simp only [Exceeds] at fits ⊢
            omega
          rw [run_request_granted _ other next heard
              (Factory.budgeted_create_within wanted fresh within.left),
            run_request_granted _ sink next told (Factory.standard_create wanted fresh ())]
          have later := ih product told heard within.right
          exact ⟨later.left, by omega⟩

theorem run_budgeted_beyond (exceeds : Exceeds budget asked.length preparation.cost) :
    (preparation.run (Factory.budgeted budget message) other asked heard).result =
        .error (.factory message) ∧
      budget <
        (preparation.run (Factory.budgeted budget message) other asked heard).factory.length := by
  induction preparation generalizing asked heard with
  | done result =>
      exact absurd rfl exceeds.left
  | report record next ih =>
      exact ih _ exceeds
  | request wanted next ih =>
      have longer : (asked ++ [wanted.kind]).length = asked.length + 1 := List.length_append
      rcases Nat.lt_or_ge asked.length budget with within | beyond
      · -- The request itself still fits, so the standard factory grants it and more follow.
        cases fresh : wanted.fresh with
        | error error =>
            rw [cost_request_refused next fresh] at exceeds
            exact absurd exceeds.right (Nat.not_lt_of_le within)
        | ok product =>
            rw [cost_request_granted next fresh] at exceeds
            rw [run_request_granted _ other next heard
              (Factory.budgeted_create_within wanted fresh within)]
            apply ih
            simp only [Exceeds] at exceeds ⊢
            omega
      · rw [run_request_refused _ other next heard
          (Factory.budgeted_create_beyond wanted beyond)]
        exact ⟨rfl, longer.symm ▸ Nat.lt_succ_of_le beyond⟩

end

end Preparation

/-!
# What costs nothing
-/

namespace Factory

theorem attempt_asked_ne_nil {σ : Type} (factory : Factory σ) {script : List Request}
    (wanted : script ≠ []) (made : σ) : (factory.attempt script made).asked ≠ [] := by
  cases script with
  | nil =>
      exact absurd rfl wanted
  | cons request script =>
      rcases answered : factory.create request made with ⟨answer, after⟩
      cases answer with
      | error error =>
          rw [attempt_refused factory answered]
          exact List.cons_ne_nil _ _
      | ok product =>
          rw [attempt_granted factory answered]
          exact List.cons_ne_nil _ _

end Factory

namespace Preparator

variable (preparator : Preparator) {production : Production}

theorem script_ne_nil (owned : ¬ preparator.Unowned production) :
    preparator.script production ≠ [] := by
  cases production with
  | ruleSet selectors declarations wrap queries =>
      cases wrap <;> exact List.cons_ne_nil _ _
  | inlineStyle declarations pages =>
      rcases Option.ne_none_iff_exists'.mp owned with ⟨owner, found⟩
      rw [script, found]
      exact List.cons_ne_nil _ _
  | _ =>
      exact List.cons_ne_nil _ _

theorem cost_ne_zero (content : ¬ production.Vacant) (owned : ¬ preparator.Unowned production) :
    (preparator.prepare production).cost ≠ 0 := by
  have asked :=
    (preparator.run_of_script Factory.standard Sink.noop () () content owned).left
  rw [Preparation.cost, asked]
  intro none
  exact Factory.standard.attempt_asked_ne_nil (preparator.script_ne_nil owned) ()
    (List.eq_nil_of_length_eq_zero none)

theorem vacant_or_unowned_of_cost_eq_zero (free : (preparator.prepare production).cost = 0) :
    production.Vacant ∨ preparator.Unowned production := by
  by_cases vacant : production.Vacant
  · exact .inl vacant
  by_cases unowned : preparator.Unowned production
  · exact .inr unowned
  exact absurd free (preparator.cost_ne_zero vacant unowned)

/-- The number of requests that productions make of the standard factory, one after another. -/
def spent (productions : List Production) : Nat :=
  (productions.map fun production => (preparator.prepare production).cost).sum

theorem spent_concat (earlier : List Production) (production : Production) :
    preparator.spent (earlier ++ [production]) =
      preparator.spent earlier + (preparator.prepare production).cost := by
  simp [spent]

end Preparator

/-!
# Whole runs under a budget

The number of requests made is the same under a budget as without one, until
both are beyond the budget.
-/

namespace Assembly

open Preparation

variable {σ τ υ : Type}

/-- A logged run without a budget shows how many requests have been made. -/
theorem length_requests_reach (preparator : Preparator) (sink : Sink τ) (told : τ)
    (sheet : Stylesheet) (history : History) (productions : List Production) :
    ((Assembly.mk preparator Factory.standard.logged sink).reach ⟨([], ()), told, sheet, history⟩
      (preparing productions)).factory.1.length = preparator.spent productions := by
  induction productions using List.reverseRecOn with
  | nil =>
      rfl
  | append_singleton earlier production ih =>
      -- The cost is counted with a silent sink, but the sink has no part in what is requested.
      rw [factory_reach_preparing_concat, preparator.spent_concat, ← ih, run_logged,
        requests_silenced, List.length_append]
      rfl

/-- Both counts are the same, or both are beyond the budget. -/
def SameSide (budget first second : Nat) : Prop :=
  first = second ∨ budget < first ∧ budget < second

theorem SameSide.exceeds_iff {budget first second : Nat} (same : SameSide budget first second)
    (cost : Nat) : Exceeds budget first cost ↔ Exceeds budget second cost := by
  simp only [SameSide, Exceeds] at *
  omega

variable (preparator : Preparator) (budget : Nat) (message : String) (sink : Sink τ)
  (other : Sink υ) (told : τ) (heard : υ) (sheet : Stylesheet) (history : History)

theorem reach_budgeted (productions : List Production) :
    SameSide budget
      ((Assembly.mk preparator (Factory.budgeted budget message) other).reach
        ⟨[], heard, sheet, history⟩ (preparing productions)).factory.length
      (preparator.spent productions) := by
  induction productions using List.reverseRecOn with
  | nil =>
      exact .inl rfl
  | append_singleton earlier production ih =>
      rw [factory_reach_preparing_concat, preparator.spent_concat]
      generalize (Assembly.mk preparator (Factory.budgeted budget message) other).reach
        ⟨[], heard, sheet, history⟩ (preparing earlier) = state at ih ⊢
      by_cases exceeds :
          Exceeds budget state.factory.length (preparator.prepare production).cost
      · -- The refused run stops early, so here the counts may part, but both pass the budget.
        have beyond := (run_budgeted_beyond message other state.sink exceeds).right
        have after := ((ih.exceeds_iff _).mp exceeds).right
        exact .inr ⟨beyond, after⟩
      · have within := (run_budgeted_within message Sink.noop other () state.sink exceeds).right
        rw [within]
        simp only [SameSide] at ih ⊢
        omega

theorem outcomeAfter_budgeted (earlier : List Production) (production : Production) :
    (Assembly.mk preparator (Factory.budgeted budget message) other).outcomeAfter
        ⟨[], heard, sheet, history⟩ earlier production =
      if Exceeds budget (preparator.spent earlier) (preparator.prepare production).cost then
        .failed (.factory message)
      else
        (Assembly.mk preparator Factory.standard sink).outcomeAfter
          ⟨(), told, sheet, history⟩ earlier production := by
  have same := reach_budgeted preparator budget message other heard sheet history earlier
  unfold outcomeAfter
  generalize (Assembly.mk preparator (Factory.budgeted budget message) other).reach
    ⟨[], heard, sheet, history⟩ (preparing earlier) = state at same ⊢
  by_cases exceeds : Exceeds budget state.factory.length (preparator.prepare production).cost
  · have beyond := (run_budgeted_beyond message other state.sink exceeds).left
    rw [if_pos ((same.exceeds_iff _).mp exceeds)]
    exact congrArg Outcome.ofResult beyond
  · rw [if_neg (mt (same.exceeds_iff _).mpr exceeds)]
    exact congrArg Outcome.ofResult
      (run_budgeted_within message sink other _ state.sink exceeds).left

theorem outcomeAfter_of_cost_eq_zero (earlier : List Production) {production : Production}
    (gratis : (preparator.prepare production).cost = 0) :
    (Assembly.mk preparator Factory.standard sink).outcomeAfter ⟨(), told, sheet, history⟩
        earlier production = .elided ∨
      (Assembly.mk preparator Factory.standard sink).outcomeAfter ⟨(), told, sheet, history⟩
        earlier production = .failed .missingElement := by
  generalize reached : (Assembly.mk preparator Factory.standard sink).reach
    ⟨(), told, sheet, history⟩ (preparing earlier) = state
  unfold outcomeAfter
  rw [reached]
  by_cases vacant : production.Vacant
  · have ended := preparator.run_of_vacant Factory.standard sink () state.sink vacant
    exact .inl (congrArg Outcome.ofResult ended.left)
  · have unowned := (preparator.vacant_or_unowned_of_cost_eq_zero gratis).resolve_left vacant
    have ended := preparator.run_of_unowned Factory.standard sink () state.sink vacant unowned
    exact .inr (congrArg Outcome.ofResult ended.left)

/-- Up to the budget every production comes to what it comes to without one, the first production
that goes beyond it fails with the error of the budget, and so does every later one that requests
anything at all. So a budget changes no rule that is still made, and a greater budget changes
nothing that did not fail. -/
theorem budget_decides_outcomes (earlier : List Production) (production : Production) :
    let free := (Assembly.mk preparator Factory.standard sink).outcomeAfter
      ⟨(), told, sheet, history⟩ earlier production
    let bounded (budget : Nat) :=
      (Assembly.mk preparator (Factory.budgeted budget message) other).outcomeAfter
        ⟨[], heard, sheet, history⟩ earlier production
    let requested (productions : List Production) :=
      ((Assembly.mk preparator Factory.standard.logged sink).reach
        ⟨([], ()), told, sheet, history⟩ (preparing productions)).factory.1.length
    let before := requested earlier
    let through := requested (earlier ++ [production])
    (through ≤ budget → bounded budget = free) ∧
      (before ≤ budget → budget < through → bounded budget = .failed (.factory message)) ∧
      (budget < before →
        if before < through then bounded budget = .failed (.factory message)
        else bounded budget = free ∧ (free = .elided ∨ free = .failed .missingElement)) ∧
      (forall rule, bounded budget = .prepared rule → free = .prepared rule) ∧
      forall more, budget ≤ more → (forall error, bounded budget ≠ .failed error) →
        bounded more = bounded budget := by
  intro free bounded requested before through
  have before_eq : before = preparator.spent earlier :=
    length_requests_reach preparator sink told sheet history earlier
  have through_eq : through = before + (preparator.prepare production).cost := by
    rw [before_eq, ← preparator.spent_concat]
    exact length_requests_reach preparator sink told sheet history _
  have decided (budget : Nat) : bounded budget =
      if Exceeds budget before (preparator.prepare production).cost then
        .failed (.factory message) else free := by
    rw [before_eq]
    exact outcomeAfter_budgeted preparator budget message sink other told heard sheet history
      earlier production
  have failed (budget : Nat) (asks : before < through) (beyond : budget < through) :
      bounded budget = .failed (.factory message) := by
    rw [decided, if_pos (by simp only [Exceeds]; omega)]
  have same (budget : Nat) (fits : through = before ∨ through ≤ budget) :
      bounded budget = free := by
    rw [decided, if_neg (by simp only [Exceeds]; omega)]
  -- Whatever the budget is, it changes nothing, or the production fails with its error.
  have same_or_failed (budget : Nat) :
      (through = before ∨ through ≤ budget) ∧ bounded budget = free ∨
        bounded budget = .failed (.factory message) := by
    by_cases fits : through = before ∨ through ≤ budget
    · exact .inl ⟨fits, same budget fits⟩
    · exact .inr (failed budget (by omega) (by omega))
  refine ⟨?_, ?_, ?_, ?_, ?_⟩
  · intro within
    exact same budget (.inr within)
  · intro within beyond
    exact failed budget (by omega) beyond
  · intro exhausted
    by_cases asks : before < through
    · rw [if_pos asks]
      exact failed budget asks (by omega)
    · have gratis : (preparator.prepare production).cost = 0 := by omega
      rw [if_neg asks]
      exact ⟨same budget (by omega),
        outcomeAfter_of_cost_eq_zero preparator sink told sheet history earlier gratis⟩
  · intro rule made
    rcases same_or_failed budget with ⟨_, unchanged⟩ | refused
    · exact unchanged.symm.trans made
    · cases refused.symm.trans made
  · intro more raised succeeded
    rcases same_or_failed budget with ⟨fits, unchanged⟩ | refused
    · rw [unchanged]
      exact same more (by omega)
    · exact absurd refused (succeeded _)

/-- A wrapped rule set that no longer fits, and an unknown margin box after it: both fail with the
error of the budget, though without one the first comes to a rule and the second to another
error. -/
theorem budget_hides_other_outcomes :
    let wrapped := Production.ruleSet [Selector.empty] [Declaration.of "color" "red"] true []
    let unknown := Production.margin "nowhere" [Declaration.of "color" "red"]
    let bounded := Assembly.mk Preparator.forSheet (Factory.budgeted 1 "full") Sink.noop
    let free := Assembly.mk Preparator.forSheet Factory.standard Sink.noop
    bounded.outcomeAfter ⟨[], (), Stylesheet.default, []⟩ [] wrapped = .failed (.factory "full") ∧
      bounded.outcomeAfter ⟨[], (), Stylesheet.default, []⟩ [wrapped] unknown =
        .failed (.factory "full") ∧
      free.outcomeAfter ⟨(), (), Stylesheet.default, []⟩ [wrapped] unknown =
        .failed (.unknownMarginArea "nowhere") := by
  intro wrapped unknown bounded free
  have first := budget_decides_outcomes Preparator.forSheet 1 "full" Sink.noop Sink.noop () ()
    Stylesheet.default [] [] wrapped
  have second := budget_decides_outcomes Preparator.forSheet 1 "full" Sink.noop Sink.noop () ()
    Stylesheet.default [] [wrapped] unknown
  exact ⟨first.right.left (by decide) (by decide), second.right.right.left (by decide), rfl⟩

end Assembly
end StyleRules

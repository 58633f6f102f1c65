import StyleRules.Proofs.Requests

/-!
# The script of a production

What a production requests is fixed by the production and its preparator. A
production without content requests nothing, and neither does the style of an
element that is not there; every other production keeps to a script of one to
four requests, in which no answer changes what is requested next.
-/

namespace StyleRules

/-- A production without content, whatever else it says. -/
def Production.Vacant : Production → Prop
  | .ruleSet selectors declarations _ _ => selectors = [] ∨ declarations = []
  | .media rules _ => rules = []
  | .page declarations margins _ _ => declarations = [] ∧ margins = []
  | .margin _ declarations => declarations = []
  | .viewport declarations => declarations = []
  | .fontFace declarations => declarations = []
  | .inlineStyle declarations _ => declarations = []

instance (production : Production) : Decidable production.Vacant :=
  match production with
  | .ruleSet selectors declarations _ _ =>
      inferInstanceAs (Decidable (selectors = [] ∨ declarations = []))
  | .media rules _ => inferInstanceAs (Decidable (rules = []))
  | .page declarations margins _ _ =>
      inferInstanceAs (Decidable (declarations = [] ∧ margins = []))
  | .margin _ declarations => inferInstanceAs (Decidable (declarations = []))
  | .viewport declarations => inferInstanceAs (Decidable (declarations = []))
  | .fontFace declarations => inferInstanceAs (Decidable (declarations = []))
  | .inlineStyle declarations _ => inferInstanceAs (Decidable (declarations = []))

namespace Preparator

/-- Inline style without an element that it could be the style of. -/
def Unowned (preparator : Preparator) : Production → Prop
  | .inlineStyle _ _ => preparator.owner = none
  | _ => False

instance (preparator : Preparator) (production : Production) :
    Decidable (preparator.Unowned production) :=
  match production with
  | .inlineStyle _ _ => inferInstanceAs (Decidable (preparator.owner = none))
  | .ruleSet _ _ _ _ | .media _ _ | .page _ _ _ _ | .margin _ _ | .viewport _ | .fontFace _ =>
      inferInstanceAs (Decidable False)

/-- What a production requests, in this order, if it requests anything. -/
def script (preparator : Preparator) : Production → List Request
  | .ruleSet _ _ false _ => [.ruleSet]
  | .ruleSet _ _ true _ => [.ruleSet, .media]
  | .media _ _ => [.media]
  | .page _ _ _ _ => [.page]
  | .margin area _ => [.margin area]
  | .viewport _ => [.viewport]
  | .fontFace _ => [.fontFace]
  | .inlineStyle _ _ =>
      match preparator.owner with
      | none => []
      | some owner =>
          [.compound, .elementTerm owner preparator.inlinePriority, .selector, .ruleSet]

end Preparator

namespace Preparation

/-!
# Scripts of the seven preparations
-/

theorem request_announce_follows {α : Type} {asked : Request} {what text : asked.Product → String}
    {complete : asked.Product → α} :
    Follows (fun rule => rule ≠ none) [asked]
      (request asked fun base =>
        announce (what base) (text base) (succeed (some (complete base)))) := by
  apply Follows.request
  intro base
  exact .report (.done (by simp))

variable {declarations : List Declaration}

theorem ruleSet_follows {selectors : List Selector} (wrap : Bool) (queries : List MediaQuery)
    (selected : selectors ≠ []) (declared : declarations ≠ []) :
    Follows (fun rule => rule ≠ none) (if wrap then [.ruleSet, .media] else [.ruleSet])
      (ruleSet selectors declarations wrap queries) := by
  have content : ¬ (selectors.isEmpty || declarations.isEmpty) = true := by
    simp [selected, declared]
  rw [ruleSet, if_neg content]
  cases wrap with
  | false =>
      exact request_announce_follows
  | true =>
      apply Follows.request
      intro base
      apply Follows.report
      apply Follows.report
      apply Follows.request
      intro wrapper
      exact .done (by simp)

theorem mediaRule_follows {rules : List RuleSet} (queries : List MediaQuery)
    (filled : rules ≠ []) :
    Follows (fun rule => rule ≠ none) [.media] (mediaRule rules queries) := by
  rw [mediaRule, if_neg (by simp [filled])]
  exact request_announce_follows

theorem pageRule_follows {margins : List MarginRule} (name : Option String)
    (pseudo : Option PagePseudo) (filled : ¬ (declarations = [] ∧ margins = [])) :
    Follows (fun rule => rule ≠ none) [.page] (pageRule declarations margins name pseudo) := by
  rw [pageRule, if_neg (by simpa using filled)]
  exact request_announce_follows

theorem marginRule_follows (area : String) (declared : declarations ≠ []) :
    Follows (fun rule => rule ≠ none) [.margin area] (marginRule area declarations) := by
  rw [marginRule, if_neg (by simp [declared])]
  exact request_announce_follows

theorem viewportRule_follows (declared : declarations ≠ []) :
    Follows (fun rule => rule ≠ none) [.viewport] (viewportRule declarations) := by
  rw [viewportRule, if_neg (by simp [declared])]
  exact request_announce_follows

theorem fontFaceRule_follows (declared : declarations ≠ []) :
    Follows (fun rule => rule ≠ none) [.fontFace] (fontFaceRule declarations) := by
  rw [fontFaceRule, if_neg (by simp [declared])]
  exact request_announce_follows

theorem inlineRuleSet_follows {preparator : Preparator} {owner : ElementId}
    (pages : List PagePseudo) (declared : declarations ≠ [])
    (owned : preparator.owner = some owner) :
    Follows (fun rule => rule ≠ none)
      [.compound, .elementTerm owner preparator.inlinePriority, .selector, .ruleSet]
      (inlineRuleSet preparator declarations pages) := by
  rw [inlineRuleSet, if_neg (by simp [declared]), owned]
  apply Follows.request
  intro part
  apply Follows.request
  intro term
  apply Follows.request
  intro selector
  exact request_announce_follows

/-!
# How an attempt at a rule ends
-/

section

variable {α σ τ : Type} {run : Run (Option α) σ τ} {attempt : Attempt σ}

theorem Run.EndsLike.result_of_refusal {error : Error}
    (ended : run.EndsLike (fun rule => rule ≠ none) attempt)
    (refused : attempt.refusal = some error) : run.result = .error error := by
  rcases ended with ⟨_, ended⟩
  rw [refused] at ended
  exact ended

theorem Run.EndsLike.result_of_granted
    (ended : run.EndsLike (fun rule => rule ≠ none) attempt)
    (granted : attempt.refusal = none) : exists rule, run.result = .ok (some rule) := by
  rcases ended with ⟨_, ended⟩
  rw [granted] at ended
  rcases ended with ⟨rule, made, result⟩
  rcases Option.ne_none_iff_exists'.mp made with ⟨rule, rfl⟩
  exact ⟨rule, result⟩

theorem Run.EndsLike.result_ne_none (ended : run.EndsLike (fun rule => rule ≠ none) attempt) :
    run.result ≠ .ok none := by
  intro elided
  cases refused : attempt.refusal with
  | some error =>
      cases elided.symm.trans (ended.result_of_refusal refused)
  | none =>
      rcases ended.result_of_granted refused with ⟨rule, result⟩
      cases elided.symm.trans result

end

end Preparation

/-!
# The three ways of a preparation

A preparation elides, fails for want of an element, or keeps to its script.
-/

namespace Preparator

open Preparation

variable {σ τ : Type} (preparator : Preparator) {production : Production}

theorem prepare_of_vacant (vacant : production.Vacant) :
    exists what, preparator.prepare production = elide what := by
  cases production with
  | ruleSet selectors declarations wrap queries =>
      have empty : (selectors.isEmpty || declarations.isEmpty) = true := by
        simpa [Production.Vacant] using vacant
      exact ⟨_, if_pos empty⟩
  | media rules queries =>
      cases vacant
      exact ⟨_, rfl⟩
  | page declarations margins name pseudo =>
      rcases vacant with ⟨rfl, rfl⟩
      exact ⟨_, rfl⟩
  | margin area declarations =>
      cases vacant
      exact ⟨_, rfl⟩
  | viewport declarations =>
      cases vacant
      exact ⟨_, rfl⟩
  | fontFace declarations =>
      cases vacant
      exact ⟨_, rfl⟩
  | inlineStyle declarations pages =>
      cases vacant
      exact ⟨_, rfl⟩

theorem prepare_of_unowned (content : ¬ production.Vacant)
    (unowned : preparator.Unowned production) :
    preparator.prepare production = .fail .missingElement := by
  cases production with
  | inlineStyle declarations pages =>
      have noOwner : preparator.owner = none := unowned
      have declared : ¬ declarations.isEmpty = true := by
        simpa [Production.Vacant] using content
      rw [prepare, inlineRuleSet, if_neg declared, noOwner]
      rfl
  | _ =>
      cases unowned

theorem prepare_follows (content : ¬ production.Vacant)
    (owned : ¬ preparator.Unowned production) :
    Follows (fun rule => rule ≠ none) (preparator.script production)
      (preparator.prepare production) := by
  have kept {α : Type} (kind : α → Rule) (rule : Option α) (made : rule ≠ none) :
      rule.map kind ≠ none := by
    simpa using made
  cases production with
  | ruleSet selectors declarations wrap queries =>
      rw [Production.Vacant, not_or] at content
      have follows := ruleSet_follows wrap queries content.left content.right
      cases wrap <;> exact follows
  | media rules queries =>
      exact (mediaRule_follows queries content).map (kept Rule.media)
  | page declarations margins name pseudo =>
      exact (pageRule_follows name pseudo content).map (kept Rule.page)
  | margin area declarations =>
      exact (marginRule_follows area content).map (kept Rule.margin)
  | viewport declarations =>
      exact (viewportRule_follows content).map (kept Rule.viewport)
  | fontFace declarations =>
      exact (fontFaceRule_follows content).map (kept Rule.fontFace)
  | inlineStyle declarations pages =>
      rcases Option.ne_none_iff_exists'.mp owned with ⟨owner, found⟩
      have follows := inlineRuleSet_follows pages content found
      rw [script, found]
      exact follows.map (kept Rule.set)

section

variable (factory : Factory σ) (sink : Sink τ) (made : σ) (told : τ)

theorem run_of_vacant (vacant : production.Vacant) :
    ((preparator.prepare production).run factory sink made told).result = .ok none ∧
      (preparator.prepare production).requests factory sink made told = [] ∧
      ((preparator.prepare production).run factory sink made told).factory = made := by
  rcases preparator.prepare_of_vacant vacant with ⟨what, elided⟩
  rw [elided]
  exact ⟨rfl, rfl, rfl⟩

theorem run_of_unowned (content : ¬ production.Vacant)
    (unowned : preparator.Unowned production) :
    ((preparator.prepare production).run factory sink made told).result =
        .error .missingElement ∧
      (preparator.prepare production).requests factory sink made told = [] ∧
      ((preparator.prepare production).run factory sink made told).factory = made := by
  rw [preparator.prepare_of_unowned content unowned]
  exact ⟨rfl, rfl, rfl⟩

theorem run_of_script (content : ¬ production.Vacant) (owned : ¬ preparator.Unowned production) :
    (preparator.prepare production).requests factory sink made told =
        (factory.attempt (preparator.script production) made).asked ∧
      ((preparator.prepare production).run factory sink made told).EndsLike
        (fun rule => rule ≠ none) (factory.attempt (preparator.script production) made) := by
  have follows := preparator.prepare_follows content owned
  constructor
  · exact follows.requests_eq factory sink made told
  · exact follows.run_endsLike factory sink made told

end

/-- Only a production without content is elided, and it is elided whatever else it says; next
comes the want of an element; and otherwise the factory gets the requests of the script up to the
first that it refuses, whose error is the result. -/
theorem prepare_keeps_to_script (production : Production) (factory : Factory σ) (sink : Sink τ)
    (made : σ) (told : τ) :
    let run := (preparator.prepare production).run factory sink made told
    let requests := (preparator.prepare production).requests factory sink made told
    let attempt := factory.attempt (preparator.script production) made
    (run.result = .ok none ↔ production.Vacant) ∧
      if production.Vacant then
        requests = [] ∧ run.factory = made
      else if preparator.Unowned production then
        run.result = .error .missingElement ∧ requests = [] ∧ run.factory = made
      else
        requests = attempt.asked ∧ attempt.asked <+: preparator.script production ∧
          run.factory = attempt.state ∧
          match attempt.refusal with
          | some error => run.result = .error error
          | none =>
              requests = preparator.script production ∧
                exists rule, run.result = .ok (some rule) := by
  intro run requests attempt
  by_cases vacant : production.Vacant
  · have ended := preparator.run_of_vacant factory sink made told vacant
    rw [if_pos vacant]
    exact ⟨iff_of_true ended.left vacant, ended.right⟩
  rw [if_neg vacant]
  by_cases unowned : preparator.Unowned production
  · have ended := preparator.run_of_unowned factory sink made told vacant unowned
    rw [if_pos unowned]
    refine ⟨iff_of_false ?_ vacant, ended⟩
    intro elided
    cases elided.symm.trans ended.left
  rw [if_neg unowned]
  rcases preparator.run_of_script factory sink made told vacant unowned with ⟨asked, ended⟩
  refine ⟨iff_of_false ended.result_ne_none vacant, asked,
    factory.attempt_asked_prefix (preparator.script production) made, ended.left, ?_⟩
  cases refused : attempt.refusal with
  | some error =>
      exact ended.result_of_refusal refused
  | none =>
      rcases ended.result_of_granted refused with ⟨rule, result⟩
      exact ⟨asked.trans (factory.attempt_asked_of_granted refused), rule, result⟩

/-- A refused request counts as made. -/
example :
    (forSheet.prepare (.ruleSet [Selector.empty] [Declaration.of "color" "red"] true [])).requests
      (Factory.limited ⟨some 1, none, "full"⟩) Sink.noop [] () = [.ruleSet, .media] :=
  rfl

end Preparator
end StyleRules

import Mathlib.Data.List.Induction
import StyleRules.Proofs.Dialogue
import StyleRules.Proofs.InlineRank
import StyleRules.Proofs.Requests
import StyleRules.Session.Turns

/-!
# What the priority of inline styles changes

Without an element there is no inline style, and then the setting has no effect
at all. With an element it shows in one place, the flag of the term for the
element in the rule set of an inline style. Everything else stays the same, also
with a factory that refuses some requests, as long as it looks at nothing but
their kinds.
-/

namespace StyleRules

/-- A term for an element loses its flag. -/
def SimpleSelector.unflagged : SimpleSelector → SimpleSelector
  | .element owner _ => .element owner false
  | term => term

def CompoundSelector.unflagged (part : CompoundSelector) : CompoundSelector :=
  { part with terms := part.terms.map SimpleSelector.unflagged }

def Selector.unflagged (selector : Selector) : Selector :=
  ⟨selector.parts.map CompoundSelector.unflagged⟩

def RuleSet.unflagged (rule : RuleSet) : RuleSet :=
  { rule with selectors := rule.selectors.map Selector.unflagged }

/-- The rules are rule sets for one selector each. They differ in nothing but a flag, which makes
the first selector count for one inline term more than the second one. -/
inductive Rule.DiffersByPriority : Rule → Rule → Prop
  | sets {strong weak : RuleSet} {s t : Selector} (unflagged : strong.unflagged = weak.unflagged)
      (strongSelectors : strong.selectors = [s]) (weakSelectors : weak.selectors = [t])
      (counts : s.specificity.tally = t.specificity.tally + Specificity.inlineTerm.tally) :
      DiffersByPriority (.set strong) (.set weak)

/-- How the rules are related that a production comes to with and without priority. -/
def Production.AgreeUpToPriority : Production → Rule → Rule → Prop
  | .inlineStyle _ _ => Rule.DiffersByPriority
  | _ => Eq

/-!
# Outcomes and preparations that are alike
-/

/-- Both fail with one error, both are elided, or both are rules that agree. -/
inductive Outcome.Alike (agree : Rule → Rule → Prop) : Outcome → Outcome → Prop
  | prepared {rule other : Rule} (agrees : agree rule other) :
      Alike agree (.prepared rule) (.prepared other)
  | elided : Alike agree .elided .elided
  | failed (error : Error) : Alike agree (.failed error) (.failed error)

namespace Preparation

variable {σ τ υ : Type} {agree : Rule → Rule → Prop}

/-- The same requests are made but for the flags of terms for elements, and when all is granted as
the standard factory would, the rules agree that come of it. What is reported may differ. -/
inductive Alike (agree : Rule → Rule → Prop) :
    Preparation (Option Rule) → Preparation (Option Rule) → Prop
  | prepared {rule other : Rule} (agrees : agree rule other) :
      Alike agree (.succeed (some rule)) (.succeed (some other))
  | elided : Alike agree (.succeed none) (.succeed none)
  | failed (error : Error) : Alike agree (.fail error) (.fail error)
  | request {asked : Request} {next other : asked.Product → Preparation (Option Rule)}
      (later : forall product, asked.fresh = .ok product →
        Alike agree (next product) (other product)) :
      Alike agree (.request asked next) (.request asked other)
  | elementTerm {owner : ElementId} {flag inline : Bool}
      {next : (Request.elementTerm owner flag).Product → Preparation (Option Rule)}
      {other : (Request.elementTerm owner inline).Product → Preparation (Option Rule)}
      (later : Alike agree (next (.element owner flag)) (other (.element owner inline))) :
      Alike agree (.request (.elementTerm owner flag) next)
        (.request (.elementTerm owner inline) other)
  | report {record told : Record} {next other : Preparation (Option Rule)}
      (later : Alike agree next other) :
      Alike agree (.report record next) (.report told other)

theorem Alike.refl (reflexive : forall rule, agree rule rule)
    (preparation : Preparation (Option Rule)) : Alike agree preparation preparation := by
  induction preparation with
  | done result =>
      rcases result with error | (_ | rule)
      · exact .failed error
      · exact .elided
      · exact .prepared (reflexive rule)
  | request asked next ih =>
      exact .request fun product _ => ih product
  | report record next ih =>
      exact .report ih

/-- Preparations that are alike come to outcomes that are alike, with any factory that decides by
the kinds of all requests so far, and it cannot tell them apart afterwards. -/
theorem Alike.run_guarded {first second : Preparation (Option Rule)}
    (alike : Alike agree first second) (refuses : List RequestKind → Option Error)
    (sink : Sink τ) (other : Sink υ) (asked : List RequestKind) (told : τ) (heard : υ) :
    (first.run (Factory.guarded refuses) sink asked told).factory =
        (second.run (Factory.guarded refuses) other asked heard).factory ∧
      Outcome.Alike agree
        (.ofResult (first.run (Factory.guarded refuses) sink asked told).result)
        (.ofResult (second.run (Factory.guarded refuses) other asked heard).result) := by
  induction alike generalizing asked told heard with
  | prepared agrees =>
      exact ⟨rfl, .prepared agrees⟩
  | elided =>
      exact ⟨rfl, .elided⟩
  | failed error =>
      exact ⟨rfl, .failed error⟩
  | report _ ih =>
      exact ih asked _ _
  | @request wanted next following _ ih =>
      cases refused : refuses (asked ++ [wanted.kind]) with
      | some error =>
          have denied := Factory.guarded_create_refused refused
          rw [run_request_refused _ sink next told denied,
            run_request_refused _ other following heard denied]
          exact ⟨rfl, .failed error⟩
      | none =>
          cases fresh : wanted.fresh with
          | error error =>
              have denied := Factory.guarded_create_granted refused fresh
              rw [run_request_refused _ sink next told denied,
                run_request_refused _ other following heard denied]
              exact ⟨rfl, .failed error⟩
          | ok product =>
              have granted := Factory.guarded_create_granted refused fresh
              rw [run_request_granted _ sink next told granted,
                run_request_granted _ other following heard granted]
              exact ih product fresh _ told heard
  | @elementTerm owner flag inline next following _ ih =>
      -- The two requests have one kind, so they are refused together or granted together.
      cases refused : refuses (asked ++ [.elementTerm]) with
      | some error =>
          have denied (flag : Bool) :
              (Factory.guarded refuses).create (.elementTerm owner flag) asked =
                (.error error, asked ++ [.elementTerm]) :=
            Factory.guarded_create_refused refused
          rw [run_request_refused _ sink next told (denied flag),
            run_request_refused _ other following heard (denied inline)]
          exact ⟨rfl, .failed error⟩
      | none =>
          have granted (flag : Bool) :
              (Factory.guarded refuses).create (.elementTerm owner flag) asked =
                (.ok (.element owner flag), asked ++ [.elementTerm]) :=
            Factory.guarded_create_granted refused rfl
          rw [run_request_granted _ sink next told (granted flag),
            run_request_granted _ other following heard (granted inline)]
          exact ih _ told heard

/-!
# Preparations with and without priority
-/

theorem differsByPriority_ofInline (owner : ElementId) (declarations : List Declaration)
    (pages : List PagePseudo) :
    Rule.DiffersByPriority (.set ⟨[Selector.ofInline owner true pages], declarations⟩)
      (.set ⟨[Selector.ofInline owner false pages], declarations⟩) := by
  refine .sets rfl rfl rfl ?_
  rw [Selector.specificity_ofInline, Selector.specificity_ofInline]
  rfl

theorem inlineRuleSet_alike (owner : ElementId) (declarations : List Declaration)
    (pages : List PagePseudo) :
    Alike Rule.DiffersByPriority
      ((inlineRuleSet (.forElement owner true) declarations pages).map (Option.map Rule.set))
      ((inlineRuleSet (.forElement owner false) declarations pages).map (Option.map Rule.set)) := by
  by_cases empty : declarations.isEmpty = true
  · rw [inlineRuleSet, inlineRuleSet, if_pos empty, if_pos empty]
    exact .report .elided
  · rw [inlineRuleSet, inlineRuleSet, if_neg empty, if_neg empty]
    apply Alike.request
    rintro part ⟨⟩
    apply Alike.elementTerm
    apply Alike.request
    rintro selector ⟨⟩
    apply Alike.request
    rintro base ⟨⟩
    exact .report (.prepared (differsByPriority_ofInline owner declarations pages))

end Preparation

namespace Preparator

open Preparation

theorem prepare_alike (owner : ElementId) (production : Production) :
    Alike production.AgreeUpToPriority ((forElement owner true).prepare production)
      ((forElement owner false).prepare production) := by
  cases production with
  | inlineStyle declarations pages =>
      exact inlineRuleSet_alike owner declarations pages
  | _ =>
      exact .refl (fun _ => rfl) _

/-- Without an element, the setting is never looked at. -/
theorem prepare_ofConfig_none (config : Config) :
    (ofConfig none config).prepare = forSheet.prepare := by
  funext production
  cases production <;> rfl

end Preparator

/-!
# Whole runs
-/

namespace Assembly

variable {σ τ : Type}

theorem perform_congr {first second : Preparator} (same : first.prepare = second.prepare)
    (factory : Factory σ) (sink : Sink τ) (state : State σ τ) (move : Move) :
    (Assembly.mk first factory sink).perform state move =
      (Assembly.mk second factory sink).perform state move := by
  cases move with
  | prepare production attach =>
      simp only [perform, prepare, same]
  | _ =>
      rfl

theorem effects_congr {first second : Preparator} (same : first.prepare = second.prepare)
    (factory : Factory σ) (sink : Sink τ) (state : State σ τ)
    (choices : List (History → Move)) :
    (Assembly.mk first factory sink).effects state choices =
      (Assembly.mk second factory sink).effects state choices := by
  induction choices generalizing state with
  | nil =>
      rfl
  | cons choose choices ih =>
      simp only [effects, perform_congr same, ih]

section

variable (owner : ElementId) (refuses : List RequestKind → Option Error) (sink : Sink τ)
  (start : State (List RequestKind) τ)

/-- An assembly for the style of an element, with or without priority. -/
def forPriority (priority : Bool) : Assembly (List RequestKind) τ :=
  ⟨.forElement owner priority, Factory.guarded refuses, sink⟩

theorem factory_reach_forPriority (productions : List Production) :
    ((forPriority owner refuses sink true).reach start (preparing productions)).factory =
      ((forPriority owner refuses sink false).reach start (preparing productions)).factory := by
  induction productions using List.reverseRecOn with
  | nil =>
      rfl
  | append_singleton earlier production ih =>
      rw [factory_reach_preparing_concat, factory_reach_preparing_concat, ih]
      exact ((Preparator.prepare_alike owner production).run_guarded refuses sink sink _ _ _).left

theorem outcomeAfter_forPriority (earlier : List Production) (production : Production) :
    Outcome.Alike production.AgreeUpToPriority
      ((forPriority owner refuses sink true).outcomeAfter start earlier production)
      ((forPriority owner refuses sink false).outcomeAfter start earlier production) := by
  unfold outcomeAfter prepare
  rw [factory_reach_forPriority]
  exact ((Preparator.prepare_alike owner production).run_guarded refuses sink sink _ _ _).right

end

end Assembly

/-- Whatever the settings are, a preparator that has them but no element does the same as one for
the text of a stylesheet, request by request and call by call of the sink, and so do whole runs;
yet it is another preparator if it has priority. Two preparators for one element that differ in
their priority come to the same at every step of a run, also when some kinds of requests are
refused: one error, nothing, or one rule, but that the rule sets for inline styles differ in a flag,
which counts for one inline term. -/
theorem priority_changes_inline_terms_only {σ τ : Type} :
    (forall (config : Config) (factory : Factory σ) (sink : Sink τ)
        (state : Assembly.State (List Request × σ) (List SinkCall × τ))
        (choices : List (History → Assembly.Move)),
      (Assembly.mk (.ofConfig none config) factory.logged sink.watched).effects state choices =
        (Assembly.mk .forSheet factory.logged sink.watched).effects state choices) ∧
      (forall config,
        Preparator.ofConfig none config = Preparator.forSheet ↔ config.inlinePriority = false) ∧
      forall (owner : ElementId) (refuses : List RequestKind → Option Error) (sink : Sink τ)
          (start : Assembly.State (List RequestKind) τ) (earlier : List Production)
          (production : Production),
        let strong := Assembly.forPriority owner refuses sink true
        let weak := Assembly.forPriority owner refuses sink false
        Outcome.Alike production.AgreeUpToPriority (strong.outcomeAfter start earlier production)
            (weak.outcomeAfter start earlier production) ∧
          (strong.reach start (Assembly.preparing earlier)).factory =
            (weak.reach start (Assembly.preparing earlier)).factory := by
  refine ⟨?_, ?_, ?_⟩
  · intro config factory sink state choices
    exact Assembly.effects_congr (Preparator.prepare_ofConfig_none config) _ _ state choices
  · intro config
    simp [Preparator.ofConfig, Preparator.forSheet]
  · intro owner refuses sink start earlier production strong weak
    exact ⟨Assembly.outcomeAfter_forPriority owner refuses sink start earlier production,
      Assembly.factory_reach_forPriority owner refuses sink start earlier⟩

end StyleRules

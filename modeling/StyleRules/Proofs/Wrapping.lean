import StyleRules.Diagnostics.Recording
import StyleRules.Proofs.Requests

/-!
# Wrapping a rule set

A rule set that is wrapped when it is prepared comes to the same as one that is
prepared bare and put into a media rule by a second preparation. The two ways
fill the media rule differently: one adds the rule set and always sets the
queries, the other replaces the rules and sets only queries that there are. So
they agree where the factory hands out empty media rules.
-/

namespace StyleRules

namespace Factory

variable {σ : Type}

def HandsOutEmptyMedia (factory : Factory σ) : Prop :=
  forall (made after : σ) (base : MediaRule),
    factory.create .media made = (.ok base, after) → base = MediaRule.empty

theorem HandsOutEmptyMedia.logged {factory : Factory σ} (fresh : factory.HandsOutEmptyMedia) :
    factory.logged.HandsOutEmptyMedia := by
  rintro ⟨before, made⟩ after base granted
  rcases answered : factory.create .media made with ⟨answer, left⟩
  rw [factory.logged_create answered] at granted
  cases granted
  exact fresh made left base answered

theorem guarded_handsOutEmptyMedia (refuses : List RequestKind → Option Error) :
    (guarded refuses).HandsOutEmptyMedia := by
  intro history after base granted
  exact guarded_handsOutEmpty refuses .media base history after granted

end Factory

/-- Filled either way, an empty media rule holds one rule set and has the queries given. -/
theorem MediaRule.empty_filled (rule : RuleSet) (queries : List MediaQuery) :
    (MediaRule.empty.push rule).setQueries queries =
      if queries.isEmpty then MediaRule.empty.replaceAll [rule]
      else (MediaRule.empty.replaceAll [rule]).setQueries queries := by
  cases queries with
  | nil =>
      rfl
  | cons query queries =>
      rfl

namespace Preparation

variable {σ τ υ : Type}

/-!
# Two ways to a media rule
-/

/-- Prepares a bare rule set, and then the media rule that holds it, if a rule set came of the
first preparation. -/
def wrapAfterwards (factory : Factory σ) (sink : Sink τ) (selectors : List Selector)
    (declarations : List Declaration) (own queries : List MediaQuery) (made : σ) (told : τ) :
    Run (Option Rule) σ τ :=
  let first := (ruleSet selectors declarations false own).run factory sink made told
  match first.result with
  | .ok (some (.set rule)) =>
      ((mediaRule [rule] queries).run factory sink first.factory first.sink).map
        (Option.map Rule.media)
  | _ => first

section

variable {factory : Factory σ} (fresh : factory.HandsOutEmptyMedia) (first : Sink τ)
  (second : Sink υ) (queries : List MediaQuery) (made : σ) (told : τ) (heard : υ)

include fresh

theorem run_wrapRuleSet (rule : RuleSet) :
    ((wrapRuleSet rule queries).run factory first made told).silenced =
      (((mediaRule [rule] queries).run factory second made heard).map
        (Option.map Rule.media)).silenced := by
  rw [mediaRule, if_neg (by simp), wrapRuleSet, run_report]
  rcases answered : factory.create .media made with ⟨answer, after⟩
  cases answer with
  | error error =>
      rw [run_request_refused factory first _ _ answered,
        run_request_refused factory second _ heard answered]
      rfl
  | ok base =>
      rw [run_request_granted factory first _ _ answered,
        run_request_granted factory second _ heard answered]
      rw [fresh made after base answered, MediaRule.empty_filled]
      rfl

theorem run_wrapped (selectors : List Selector) (declarations : List Declaration)
    (own : List MediaQuery) :
    ((ruleSet selectors declarations true queries).run factory first made told).silenced =
      (wrapAfterwards factory second selectors declarations own queries made heard).silenced := by
  unfold wrapAfterwards ruleSet
  by_cases vacant : (selectors.isEmpty || declarations.isEmpty) = true
  · rw [if_pos vacant, if_pos vacant]
    rfl
  rw [if_neg vacant, if_neg vacant]
  rcases answered : factory.create .ruleSet made with ⟨answer, between⟩
  cases answer with
  | error error =>
      rw [run_request_refused factory first _ told answered,
        run_request_refused factory second _ heard answered]
      rfl
  | ok base =>
      rw [run_request_granted factory first _ told answered,
        run_request_granted factory second _ heard answered]
      -- What the factory handed out as a rule set is overwritten in both ways.
      exact run_wrapRuleSet fresh first second queries between _ _ ⟨selectors, declarations⟩

end

/-- Wrapping a rule set and preparing a media rule for it afterwards come to the same result and
leave the factory in the same state, whatever queries the bare rule set was given; with a logged
factory they also make the same requests in the same order. -/
theorem wrapping_agrees_with_two_steps {factory : Factory σ} (fresh : factory.HandsOutEmptyMedia)
    (first : Sink τ) (second : Sink υ) (selectors : List Selector)
    (declarations : List Declaration) (own queries : List MediaQuery) (made : σ) (told : τ)
    (heard : υ) :
    ((ruleSet selectors declarations true queries).run factory first made told).silenced =
        (wrapAfterwards factory second selectors declarations own queries made heard).silenced ∧
      ((ruleSet selectors declarations true queries).run factory.logged first
          ([], made) told).silenced =
        (wrapAfterwards factory.logged second selectors declarations own queries
          ([], made) heard).silenced := by
  constructor
  · exact run_wrapped fresh first second queries made told heard selectors declarations own
  · exact run_wrapped fresh.logged first second queries ([], made) told heard selectors
      declarations own

/-- Without queries, one way sets an empty list of them and the other sets none. -/
theorem wrapping_agrees_without_queries :
    (Factory.limited ⟨some 2, none, "full"⟩).HandsOutEmptyMedia ∧
      ((ruleSet [Selector.empty] [Declaration.of "color" "red"] true []).run
          (Factory.limited ⟨some 2, none, "full"⟩) Sink.noop [] ()).result =
        .ok (some (.media ⟨[], [⟨[Selector.empty], [Declaration.of "color" "red"]⟩]⟩)) ∧
      ((ruleSet [Selector.empty] [Declaration.of "color" "red"] true []).run
          (Factory.limited ⟨some 2, none, "full"⟩) Sink.noop [] ()).silenced =
        (wrapAfterwards (Factory.limited ⟨some 2, none, "full"⟩) Recording.sink [Selector.empty]
          [Declaration.of "color" "red"] [MediaQuery.plain] [] [] Recording.unlimited).silenced ∧
      ((ruleSet [Selector.empty] [Declaration.of "color" "red"] true []).run
          (Factory.limited ⟨some 2, none, "full"⟩).logged Sink.noop ([], []) ()).silenced =
        (wrapAfterwards (Factory.limited ⟨some 2, none, "full"⟩).logged Recording.sink
          [Selector.empty] [Declaration.of "color" "red"] [MediaQuery.plain] []
          ([], []) Recording.unlimited).silenced :=
  ⟨Factory.guarded_handsOutEmptyMedia _, rfl,
    wrapping_agrees_with_two_steps (Factory.guarded_handsOutEmptyMedia _) Sink.noop
      Recording.sink [Selector.empty] [Declaration.of "color" "red"] [MediaQuery.plain] [] [] ()
      Recording.unlimited⟩

end Preparation
end StyleRules

import Mathlib.Data.List.Induction
import StyleRules.Diagnostics.Recording
import StyleRules.Proofs.Dialogue
import StyleRules.Proofs.Script
import StyleRules.Session.Turns

/-!
# What is reported

A production that is elided is reported once, for debugging. A rule is announced
with its text when it is built, and a rule set that is going to be wrapped is
reported once more. So a wrapped rule set has been announced even when the media
rule for it is refused afterwards.
-/

namespace StyleRules

def Production.wraps : Production → Bool
  | .ruleSet _ _ wrap _ => wrap
  | _ => false

/-- What is reported about a production that comes to a result, where `granted` says whether the
factory grants a rule set. -/
inductive Production.Reports (granted : Bool) :
    Production → Except Error (Option Rule) → List Record → Prop where
  | elided {production : Production} {message : String} (vacant : production.Vacant) :
      Reports granted production (.ok none) [⟨.debug, message⟩]
  | built {production : Production} {rule : Rule} {opening : String}
      (content : ¬ production.Vacant) (bare : production.wraps = false) :
      Reports granted production (.ok (some rule)) [⟨.info, opening ++ rule.render⟩]
  | failed {production : Production} {error : Error}
      (content : ¬ production.Vacant) (bare : production.wraps = false) :
      Reports granted production (.error error) []
  | wrapped {selectors : List Selector} {declarations : List Declaration}
      {queries : List MediaQuery} {result : Except Error (Option Rule)}
      {opening before between : String}
      (content : ¬ (Production.ruleSet selectors declarations true queries).Vacant)
      (built : granted = true)
      (ended : result ≠ .ok none) :
      Reports granted (.ruleSet selectors declarations true queries) result
        [⟨.info, opening ++ RuleSet.render ⟨selectors, declarations⟩⟩,
          ⟨.debug, before ++ RuleSet.render ⟨selectors, declarations⟩ ++ between ++
            MediaQuery.renderList queries⟩]
  | refused {selectors : List Selector} {declarations : List Declaration}
      {queries : List MediaQuery} {error : Error}
      (content : ¬ (Production.ruleSet selectors declarations true queries).Vacant)
      (refused : granted = false) :
      Reports granted (.ruleSet selectors declarations true queries) (.error error) []

namespace Preparation

variable {α β σ τ : Type}

theorem records_map (f : α → β) (factory : Factory σ) (preparation : Preparation α) (made : σ) :
    (preparation.map f).records factory made = preparation.records factory made := by
  induction preparation generalizing made with
  | done result =>
      cases result <;> rfl
  | request asked next ih =>
      rcases answered : factory.create asked made with ⟨answer, after⟩
      cases answer with
      | error error =>
          rw [map, records_request_refused factory _ answered,
            records_request_refused factory _ answered]
      | ok product =>
          rw [map, records_request_granted factory _ answered,
            records_request_granted factory _ answered]
          exact ih product after
  | report record next ih =>
      exact congrArg (List.cons record) (ih made)

/-- A rule that comes of the preparation is announced, and nothing else is reported. -/
def AnnouncesResult (kind : α → Rule) (preparation : Preparation (Option α)) : Prop :=
  forall (σ τ : Type) (factory : Factory σ) (sink : Sink τ) (made : σ) (told : τ),
    match (preparation.run factory sink made told).result with
    | .ok (some rule) =>
        exists opening, preparation.records factory made = [⟨.info, opening ++ (kind rule).render⟩]
    | .ok none => False
    | .error _ => preparation.records factory made = []

section

variable {kind : α → Rule}

theorem announces_announce (what : String) (rule : α) :
    AnnouncesResult kind (announce what (kind rule).render (succeed (some rule))) := by
  intro _ _ factory sink made told
  exact ⟨"Created " ++ what ++ " with:\n", rfl⟩

theorem announces_fail (error : Error) : AnnouncesResult kind (fail error) := by
  intro _ _ factory sink made told
  rfl

theorem AnnouncesResult.request {asked : Request} {next : asked.Product → Preparation (Option α)}
    (later : forall product, AnnouncesResult kind (next product)) :
    AnnouncesResult kind (request asked next) := by
  intro _ _ factory sink made told
  rcases answered : factory.create asked made with ⟨answer, after⟩
  cases answer with
  | error error =>
      rw [run_request_refused factory sink next told answered]
      exact records_request_refused factory next answered
  | ok product =>
      rw [run_request_granted factory sink next told answered,
        records_request_granted factory next answered]
      exact later product _ _ factory sink after told

theorem AnnouncesResult.map {preparation : Preparation (Option α)}
    (announces : AnnouncesResult kind preparation) :
    AnnouncesResult id (preparation.map (Option.map kind)) := by
  intro _ _ factory sink made told
  have announced := announces _ _ factory sink made told
  rw [run_map, records_map]
  generalize preparation.run factory sink made told = run at announced ⊢
  rcases run with ⟨_ | (_ | rule), _, _⟩ <;> exact announced

end

end Preparation

namespace Preparator

open Preparation

variable {σ τ : Type} (preparator : Preparator) {production : Production}

theorem prepare_announces (content : ¬ production.Vacant) (bare : production.wraps = false) :
    AnnouncesResult id (preparator.prepare production) := by
  cases production with
  | ruleSet selectors declarations wrap queries =>
      cases wrap with
      | true =>
          cases bare
      | false =>
          have filled : ¬ (selectors.isEmpty || declarations.isEmpty) = true := by
            simpa [Production.Vacant] using content
          rw [prepare, ruleSet, if_neg filled]
          apply AnnouncesResult.request
          intro base
          exact announces_announce "RuleSet" (Rule.set ⟨selectors, declarations⟩)
  | media rules queries =>
      rw [prepare, mediaRule, if_neg (by simpa [Production.Vacant] using content)]
      exact .map (.request fun _ => announces_announce "@media" _)
  | page declarations margins name pseudo =>
      rw [prepare, pageRule, if_neg (by simpa [Production.Vacant] using content)]
      exact .map (.request fun _ => announces_announce "@page" _)
  | margin area declarations =>
      rw [prepare, marginRule, if_neg (by simpa [Production.Vacant] using content)]
      exact .map (.request fun _ => announces_announce _ _)
  | viewport declarations =>
      rw [prepare, viewportRule, if_neg (by simpa [Production.Vacant] using content)]
      exact .map (.request fun _ => announces_announce "@viewport" _)
  | fontFace declarations =>
      rw [prepare, fontFaceRule, if_neg (by simpa [Production.Vacant] using content)]
      exact .map (.request fun _ => announces_announce "@font-face" _)
  | inlineStyle declarations pages =>
      rw [prepare, inlineRuleSet, if_neg (by simpa [Production.Vacant] using content)]
      apply AnnouncesResult.map
      cases preparator.owner with
      | none =>
          exact announces_fail .missingElement
      | some owner =>
          exact .request fun _ => .request fun _ => .request fun _ => .request fun _ =>
            announces_announce "inline RuleSet" _

section

variable (factory : Factory σ) (sink : Sink τ) (made : σ) (told : τ)

theorem wrapRuleSet_records (rule : RuleSet) (queries : List MediaQuery) :
    (wrapRuleSet rule queries).records factory made = [⟨.debug, wrapMessage rule queries⟩] := by
  rcases answered : factory.create .media made with ⟨answer, after⟩
  cases answer with
  | error error =>
      rw [wrapRuleSet, records, records_request_refused factory _ answered]
  | ok wrapper =>
      rw [wrapRuleSet, records, records_request_granted factory _ answered]
      rfl

theorem wrapRuleSet_ne_elided (rule : RuleSet) (queries : List MediaQuery) :
    ((wrapRuleSet rule queries).run factory sink made told).result ≠ .ok none := by
  rw [wrapRuleSet, run_report]
  rcases answered : factory.create .media made with ⟨answer, after⟩
  cases answer with
  | error error =>
      rw [run_request_refused factory sink _ _ answered]
      exact nofun
  | ok wrapper =>
      rw [run_request_granted factory sink _ _ answered]
      exact nofun

theorem wrapping_reports {selectors : List Selector} {declarations : List Declaration}
    {queries : List MediaQuery}
    (content : ¬ (Production.ruleSet selectors declarations true queries).Vacant) :
    (Production.ruleSet selectors declarations true queries).Reports
      (factory.create .ruleSet made).1.isOk
      ((ruleSet selectors declarations true queries).run factory sink made told).result
      ((ruleSet selectors declarations true queries).records factory made) := by
  rw [ruleSet, if_neg (by simpa [Production.Vacant] using content)]
  rcases answered : factory.create .ruleSet made with ⟨answer, between⟩
  cases answer with
  | error error =>
      rw [run_request_refused factory sink _ told answered,
        records_request_refused factory _ answered]
      exact .refused content rfl
  | ok base =>
      rw [run_request_granted factory sink _ told answered,
        records_request_granted factory _ answered]
      -- Nothing that the factory handed out is left in the rule set.
      let rule : RuleSet := ⟨selectors, declarations⟩
      let next := announce "RuleSet" rule.render (wrapRuleSet rule queries)
      have announced : next.records factory between =
          [⟨.info, "Created " ++ "RuleSet" ++ " with:\n" ++ rule.render⟩,
            ⟨.debug, wrapMessage rule queries⟩] :=
        congrArg (List.cons _) (wrapRuleSet_records factory between rule queries)
      change Production.Reports true _ (next.run factory sink between told).result
        (next.records factory between)
      rw [announced]
      exact .wrapped content rfl (wrapRuleSet_ne_elided factory sink between _ rule queries)

theorem prepare_reports (production : Production) :
    production.Reports (factory.create .ruleSet made).1.isOk
      ((preparator.prepare production).run factory sink made told).result
      ((preparator.prepare production).records factory made) := by
  by_cases vacant : production.Vacant
  · rcases preparator.prepare_of_vacant vacant with ⟨what, elided⟩
    rw [elided]
    exact .elided vacant
  -- Only a rule set that is to be wrapped is reported before it is known what it comes to.
  cases wraps : production.wraps with
  | true =>
      cases production with
      | ruleSet selectors declarations wrap queries =>
          cases wraps
          exact wrapping_reports factory sink made told vacant
      | _ =>
          cases wraps
  | false =>
      have announced := preparator.prepare_announces vacant wraps σ τ factory sink made told
      generalize (preparator.prepare production).run factory sink made told = run at announced ⊢
      rcases run with ⟨error | (_ | rule), _, _⟩
      · rw [announced]
        exact .failed vacant wraps
      · exact announced.elim
      · rcases announced with ⟨opening, reported⟩
        rw [reported]
        exact .built vacant wraps

end

end Preparator

/-!
# Counting reports
-/

def Outcome.isPrepared : Outcome → Bool
  | prepared _ => true
  | _ => false

def Outcome.isElided : Outcome → Bool
  | elided => true
  | _ => false

namespace Production

/-- A rule set is built from the production that is to be wrapped. -/
def buildsToWrap (production : Production) (granted : Bool) : Bool :=
  production.wraps && !decide production.Vacant && granted

theorem Reports.count_levels {granted : Bool} {production : Production}
    {result : Except Error (Option Rule)} {records : List Record}
    (reports : production.Reports granted result records) :
    let outcome := Outcome.ofResult result
    let building := production.buildsToWrap granted
    (records.map Record.level).count .info =
        outcome.isPrepared.toNat + (building && !outcome.isPrepared).toNat ∧
      (records.map Record.level).count .debug = outcome.isElided.toNat + building.toNat ∧
      forall record, record ∈ records → record.level = .info ∨ record.level = .debug := by
  intro outcome building
  cases reports with
  | elided vacant =>
      have idle : building = false := by simp [building, buildsToWrap, vacant]
      rw [idle]
      simp [outcome, Outcome.ofResult, Outcome.isPrepared, Outcome.isElided]
  | built content bare =>
      have idle : building = false := by simp [building, buildsToWrap, bare]
      rw [idle]
      simp [outcome, Outcome.ofResult, Outcome.isPrepared, Outcome.isElided]
  | failed content bare =>
      have idle : building = false := by simp [building, buildsToWrap, bare]
      rw [idle]
      simp [outcome, Outcome.ofResult, Outcome.isPrepared, Outcome.isElided]
  | wrapped content built ended =>
      have busy : building = true := by simp [building, buildsToWrap, wraps, content, built]
      rw [busy]
      rcases result with error | (_ | rule)
      · simp [outcome, Outcome.ofResult, Outcome.isPrepared, Outcome.isElided]
      · exact absurd rfl ended
      · simp [outcome, Outcome.ofResult, Outcome.isPrepared, Outcome.isElided]
  | refused content refused =>
      have idle : building = false := by simp [building, buildsToWrap, refused]
      rw [idle]
      simp [outcome, Outcome.ofResult, Outcome.isPrepared, Outcome.isElided]

end Production

/-!
# Whole runs
-/

namespace Assembly

variable {σ τ υ : Type}

def recordsOf (assembly : Assembly σ τ) (turn : Turn σ τ) : List Record :=
  match turn.move with
  | .prepare production _ =>
      (assembly.preparator.prepare production).records assembly.factory turn.before.factory
  | _ => []

def Turn.comesToRule (turn : Turn σ τ) : Bool :=
  turn.effect.outcome.any Outcome.isPrepared

def Turn.isElided (turn : Turn σ τ) : Bool :=
  turn.effect.outcome.any Outcome.isElided

/-- A rule set is built in the turn that is to be wrapped. -/
def buildsToWrap (assembly : Assembly σ τ) (turn : Turn σ τ) : Bool :=
  match turn.move with
  | .prepare production _ =>
      production.buildsToWrap (assembly.factory.create .ruleSet turn.before.factory).1.isOk
  | _ => false

/-- The rule set that is built to be wrapped is lost, because the media rule is refused. -/
def losesWrapped (assembly : Assembly σ τ) (turn : Turn σ τ) : Bool :=
  assembly.buildsToWrap turn && !turn.comesToRule

variable (assembly : Assembly σ τ)

theorem count_levels_turn (state : State σ τ) (choose : History → Move) :
    let turn := assembly.turn state choose
    let levels := (assembly.recordsOf turn).map Record.level
    levels.count .info =
        turn.comesToRule.toNat + (assembly.losesWrapped turn).toNat ∧
      levels.count .debug = turn.isElided.toNat + (assembly.buildsToWrap turn).toNat ∧
      forall record, record ∈ assembly.recordsOf turn →
        record.level = .info ∨ record.level = .debug := by
  unfold turn Turn.comesToRule Turn.isElided losesWrapped buildsToWrap recordsOf
  cases choose state.history with
  | prepare production attach =>
      exact (assembly.preparator.prepare_reports assembly.factory assembly.sink state.factory
        state.sink production).count_levels
  | _ =>
      exact ⟨rfl, rfl, nofun⟩

theorem count_levels_turns (state : State σ τ) (choices : List (History → Move)) :
    let turns := assembly.turns state choices
    let levels := (turns.flatMap assembly.recordsOf).map Record.level
    levels.count .info =
        turns.countP Turn.comesToRule + turns.countP assembly.losesWrapped ∧
      levels.count .debug = turns.countP Turn.isElided + turns.countP assembly.buildsToWrap ∧
      forall record, record ∈ turns.flatMap assembly.recordsOf →
        record.level = .info ∨ record.level = .debug := by
  intro turns levels
  induction choices using List.reverseRecOn with
  | nil =>
      exact ⟨rfl, rfl, nofun⟩
  | append_singleton choices choose ih =>
      rcases ih with ⟨infos, debugs, others⟩
      rcases assembly.count_levels_turn (assembly.reach state choices) choose with
        ⟨info, debug, other⟩
      have single (p : Turn σ τ → Bool) (turn : Turn σ τ) : [turn].countP p = (p turn).toNat := by
        cases holds : p turn <;> simp [holds]
      simp only [levels, turns, turns_concat, List.flatMap_append, List.map_append,
        List.count_append, List.countP_append, List.flatMap_singleton, single] at infos debugs ⊢
      refine ⟨by omega, by omega, ?_⟩
      intro record reported
      rcases List.mem_append.mp reported with earlier | last
      · exact others record earlier
      · exact other record last

def watched (assembly : Assembly σ τ) : Assembly σ (List SinkCall × τ) :=
  ⟨assembly.preparator, assembly.factory, assembly.sink.watched⟩

theorem watched_turn_dialogue (state : State σ (List SinkCall × τ)) (choose : History → Move) :
    exists calls, Dialogue (assembly.watched.recordsOf (assembly.watched.turn state choose)) calls ∧
      (assembly.watched.turn state choose).after.sink.1 = state.sink.1 ++ calls := by
  unfold turn Turn.after recordsOf
  cases choose state.history with
  | prepare production attach =>
      rcases (assembly.preparator.prepare production).run_watched assembly.factory assembly.sink
        state.factory state.sink.1 state.sink.2 with ⟨calls, dialogue, ran⟩
      exact ⟨calls, dialogue, congrArg (fun run => run.sink.1) ran⟩
  | _ =>
      exact ⟨[], .silence, (List.append_nil _).symm⟩

theorem watched_reach_dialogue (state : State σ τ) (choices : List (History → Move)) :
    Dialogue
      ((assembly.watched.turns ⟨state.factory, ([], state.sink), state.sheet, state.history⟩
        choices).flatMap assembly.watched.recordsOf)
      (assembly.watched.reach ⟨state.factory, ([], state.sink), state.sheet, state.history⟩
        choices).sink.1 := by
  induction choices using List.reverseRecOn with
  | nil =>
      exact .silence
  | append_singleton choices choose ih =>
      rcases assembly.watched_turn_dialogue (assembly.watched.reach
        ⟨state.factory, ([], state.sink), state.sheet, state.history⟩ choices) choose with
        ⟨calls, dialogue, added⟩
      rw [turns_concat, reach_concat, List.flatMap_append, List.flatMap_singleton, added]
      exact ih.append dialogue

/-- What a production has to report is settled by what the factory answers to it: one record if it
is elided, none if it fails before its rule is built, and otherwise the announcement of the rule,
which a rule set that is going to be wrapped follows up. The sink is asked about each record once,
in order, and is told the record at once if it wants it. So a sink that never says no has been told
one record for information per rule and per rule set that was lost while it was wrapped, and one
for debugging per elided production and per rule set that was to be wrapped. -/
theorem sink_hears_every_report_in_order (preparator : Preparator) (factory : Factory σ)
    (sink : Sink τ) (made : σ) (told : τ) :
    (forall production,
      let preparation := preparator.prepare production
      production.Reports (factory.create .ruleSet made).1.isOk
          (preparation.run factory sink made told).result (preparation.records factory made) ∧
        (forall (other : Factory υ) (begun : υ),
          preparation.replies factory made = preparation.replies other begun →
            preparation.records factory made = preparation.records other begun) ∧
        Dialogue (preparation.records factory made) (preparation.calls factory sink made told)) ∧
      forall sheet history choices,
        let assembly := (Assembly.mk preparator factory sink).watched
        let turns := assembly.turns ⟨made, ([], told), sheet, history⟩ choices
        let calls := (assembly.reach ⟨made, ([], told), sheet, history⟩ choices).sink.1
        Dialogue (turns.flatMap assembly.recordsOf) calls ∧
          ((forall level, .asked level false ∉ calls) →
            let levels := (calls.filterMap SinkCall.record?).map Record.level
            levels.count .info =
                turns.countP Turn.comesToRule + turns.countP assembly.losesWrapped ∧
              levels.count .debug =
                turns.countP Turn.isElided + turns.countP assembly.buildsToWrap ∧
              forall level, level ∈ levels → level = .info ∨ level = .debug) := by
  constructor
  · intro production preparation
    refine ⟨preparator.prepare_reports factory sink made told production, ?_, ?_⟩
    · intro other begun same
      exact preparation.records_eq_of_replies_eq factory other same
    · exact preparation.calls_dialogue factory sink made told
  · intro sheet history choices assembly turns calls
    have dialogue := (Assembly.mk preparator factory sink).watched_reach_dialogue
      ⟨made, told, sheet, history⟩ choices
    refine ⟨dialogue, ?_⟩
    intro accepting levels
    rcases assembly.count_levels_turns ⟨made, ([], told), sheet, history⟩ choices with
      ⟨infos, debugs, others⟩
    have heard : levels = (turns.flatMap assembly.recordsOf).map Record.level :=
      congrArg (List.map Record.level) (dialogue.told_of_accepting accepting)
    rw [heard]
    refine ⟨infos, debugs, ?_⟩
    intro level found
    rcases List.mem_map.mp found with ⟨record, reported, rfl⟩
    exact others record reported

/-- A recording of everything keeps the announcement of a rule set that is lost. -/
theorem recording_keeps_lost_rule_set :
    let assembly := (Assembly.mk Preparator.forSheet (Factory.limited ⟨some 1, none, "full"⟩)
      Recording.sink).watched
    let choices := preparing
      [.viewport [], .ruleSet [Selector.empty] [Declaration.of "color" "red"] true []]
    let reached := assembly.reach ⟨[], ([], Recording.unlimited), Stylesheet.default, []⟩ choices
    let levels := (reached.sink.1.filterMap SinkCall.record?).map Record.level
    reached.history = [some .elided, some (.failed (.factory "full"))] ∧
      levels.count .info = 1 ∧ levels.count .debug = 2 := by
  have heard := (sink_hears_every_report_in_order (υ := Unit) Preparator.forSheet
    (Factory.limited ⟨some 1, none, "full"⟩) Recording.sink [] Recording.unlimited).right
      Stylesheet.default [] (preparing
        [.viewport [], .ruleSet [Selector.empty] [Declaration.of "color" "red"] true []])
  have counted := heard.right (by intro level; cases level <;> decide)
  exact ⟨rfl, counted.left, counted.right.left⟩

end Assembly
end StyleRules

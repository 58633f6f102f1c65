import StyleRules.Proofs.Running

/-!
# What a preparation builds

A preparation succeeds exactly when its production has content and the factory
grants all that is requested for it. What the factory hands out need not be
empty: some of it is replaced by what the production says, and some of it is
kept in front.
-/

namespace StyleRules

/-!
# Building

For each kind of production, the requests that have to be granted and the rule
that is built from what they were granted.
-/

inductive Preparator.Builds {σ : Type} (preparator : Preparator) (factory : Factory σ) :
    Production → σ → Rule → σ → Prop where
  | set {selectors : List Selector} {declarations : List Declaration}
      {queries : List MediaQuery} {made after : σ} {base : RuleSet}
      (selected : selectors ≠ []) (declared : declarations ≠ [])
      (granted : factory.create .ruleSet made = (.ok base, after)) :
      Builds preparator factory (.ruleSet selectors declarations false queries) made
        (.set ⟨selectors, declarations⟩) after
  | wrappedSet {selectors : List Selector} {declarations : List Declaration}
      {queries : List MediaQuery} {made between after : σ} {base : RuleSet} {wrapper : MediaRule}
      (selected : selectors ≠ []) (declared : declarations ≠ [])
      (granted : factory.create .ruleSet made = (.ok base, between))
      (grantedWrapper : factory.create .media between = (.ok wrapper, after)) :
      Builds preparator factory (.ruleSet selectors declarations true queries) made
        (.media ⟨queries, wrapper.rules ++ [⟨selectors, declarations⟩]⟩) after
  | media {rules : List RuleSet} {queries : List MediaQuery} {made after : σ} {base : MediaRule}
      (filled : rules ≠ [])
      (granted : factory.create .media made = (.ok base, after)) :
      Builds preparator factory (.media rules queries) made
        (.media ⟨if queries = [] then base.queries else queries, rules⟩) after
  | page {declarations : List Declaration} {margins : List MarginRule} {name : Option String}
      {pseudo : Option PagePseudo} {made after : σ} {base : PageRule}
      (filled : ¬ (declarations = [] ∧ margins = []))
      (granted : factory.create .page made = (.ok base, after)) :
      Builds preparator factory (.page declarations margins name pseudo) made
        (.page ⟨name, pseudo,
          base.items ++ declarations.map PageItem.declaration ++ margins.map PageItem.margin⟩)
        after
  | margin {area : String} {declarations : List Declaration} {made after : σ} {base : MarginRule}
      (declared : declarations ≠ [])
      (granted : factory.create (.margin area) made = (.ok base, after)) :
      Builds preparator factory (.margin area declarations) made
        (.margin ⟨base.area, declarations⟩) after
  | viewport {declarations : List Declaration} {made after : σ} {base : ViewportRule}
      (declared : declarations ≠ [])
      (granted : factory.create .viewport made = (.ok base, after)) :
      Builds preparator factory (.viewport declarations) made (.viewport ⟨declarations⟩) after
  | fontFace {declarations : List Declaration} {made after : σ} {base : FontFaceRule}
      (declared : declarations ≠ [])
      (granted : factory.create .fontFace made = (.ok base, after)) :
      Builds preparator factory (.fontFace declarations) made (.fontFace ⟨declarations⟩) after
  | inlineStyle {declarations : List Declaration} {pages : List PagePseudo} {owner : ElementId}
      {made first second third after : σ} {part : CompoundSelector} {term : SimpleSelector}
      {selector : Selector} {base : RuleSet}
      (declared : declarations ≠ []) (owned : preparator.owner = some owner)
      (grantedPart : factory.create .compound made = (.ok part, first))
      (grantedTerm : factory.create (.elementTerm owner preparator.inlinePriority) first =
        (.ok term, second))
      (grantedSelector : factory.create .selector second = (.ok selector, third))
      (granted : factory.create .ruleSet third = (.ok base, after)) :
      Builds preparator factory (.inlineStyle declarations pages) made
        (.set ⟨[⟨selector.parts ++ [⟨part.combinator,
          part.terms ++ term :: pages.map SimpleSelector.pagePseudo⟩]⟩], declarations⟩) after

namespace Preparation

variable {α β σ τ : Type}

/-- The run succeeds with a result and leaves the factory in a state. -/
def Run.Yields (run : Run α σ τ) (result : α) (after : σ) : Prop :=
  run.result = .ok result ∧ run.factory = after

section

variable {factory : Factory σ} {sink : Sink τ} {made after : σ} {told : τ}

theorem succeed_yields {result final : α} :
    ((succeed result).run factory sink made told).Yields final after ↔
      result = final ∧ made = after := by
  simp [Run.Yields, succeed, run]

theorem fail_yields {error : Error} {final : α} :
    ¬ ((fail error).run factory sink made told).Yields final after := by
  simp [Run.Yields, fail, run]

theorem elide_yields {what : String} {final : α} :
    ¬ ((elide what).run factory sink made told).Yields (some final) after := by
  simp [Run.Yields, elide, succeed, run]

theorem announce_yields {what text : String} {next : Preparation α} {final : α} :
    ((announce what text next).run factory sink made told).Yields final after ↔
      (next.run factory sink made
        (sink.report ⟨.info, "Created " ++ what ++ " with:\n" ++ text⟩ told)).Yields final after :=
  Iff.rfl

theorem request_yields {asked : Request} {next : asked.Product → Preparation α} {final : α} :
    ((request asked next).run factory sink made told).Yields final after ↔
      exists product between, factory.create asked made = (.ok product, between) ∧
        ((next product).run factory sink between told).Yields final after := by
  rcases answered : factory.create asked made with ⟨answer, between⟩
  cases answer with
  | error error =>
      rw [run_request_refused factory sink next told answered]
      simp [Run.Yields]
  | ok product =>
      rw [run_request_granted factory sink next told answered]
      constructor
      · intro yields
        exact ⟨product, between, rfl, yields⟩
      · rintro ⟨_, _, granted, yields⟩
        cases granted
        exact yields

theorem map_yields {kind : α → β} {preparation : Preparation (Option α)} {final : β} :
    ((preparation.map (Option.map kind)).run factory sink made told).Yields (some final) after ↔
      exists result, kind result = final ∧
        (preparation.run factory sink made told).Yields (some result) after := by
  rw [run_map]
  rcases preparation.run factory sink made told with ⟨result, _, _⟩
  rcases result with error | (_ | result)
  · simp [Run.Yields, Run.map, Except.map]
  · simp [Run.Yields, Run.map, Except.map]
  · constructor
    · rintro ⟨mapped, left⟩
      cases mapped
      exact ⟨result, rfl, rfl, left⟩
    · rintro ⟨_, rfl, found, left⟩
      cases found
      exact ⟨rfl, left⟩

/-!
# Single requests

Most preparations request one thing, complete it, announce it, and are done.
-/

theorem request_announce_yields {asked : Request} {what text : asked.Product → String}
    {complete : asked.Product → α} {final : α} :
    ((request asked fun base =>
        announce (what base) (text base) (succeed (some (complete base)))).run factory sink
          made told).Yields (some final) after ↔
      exists base, factory.create asked made = (.ok base, after) ∧ complete base = final := by
  rw [request_yields]
  constructor
  · rintro ⟨base, between, granted, yields⟩
    rw [announce_yields, succeed_yields] at yields
    rcases yields with ⟨completed, rfl⟩
    exact ⟨base, granted, Option.some.inj completed⟩
  · rintro ⟨base, granted, rfl⟩
    refine ⟨base, after, granted, ?_⟩
    rw [announce_yields, succeed_yields]
    exact ⟨rfl, rfl⟩

/-!
# The seven preparations
-/

variable {declarations : List Declaration}

theorem ruleSet_yields {selectors : List Selector} {queries : List MediaQuery} {rule : Rule} :
    ((ruleSet selectors declarations false queries).run factory sink made told).Yields
        (some rule) after ↔
      ¬ (selectors = [] ∨ declarations = []) ∧
        exists base : RuleSet, factory.create .ruleSet made = (.ok base, after) ∧
          Rule.set ⟨selectors, declarations⟩ = rule := by
  by_cases empty : selectors = [] ∨ declarations = []
  · rw [ruleSet, if_pos (by simpa using empty)]
    exact iff_of_false elide_yields fun yields => yields.left empty
  · rw [ruleSet, if_neg (by simpa using empty), and_iff_right empty]
    exact request_announce_yields

theorem wrappedRuleSet_yields {selectors : List Selector} {queries : List MediaQuery}
    {rule : Rule} :
    ((ruleSet selectors declarations true queries).run factory sink made told).Yields
        (some rule) after ↔
      ¬ (selectors = [] ∨ declarations = []) ∧
        exists (base : RuleSet) (between : σ) (wrapper : MediaRule),
          factory.create .ruleSet made = (.ok base, between) ∧
          factory.create .media between = (.ok wrapper, after) ∧
          Rule.media ⟨queries, wrapper.rules ++ [⟨selectors, declarations⟩]⟩ = rule := by
  by_cases empty : selectors = [] ∨ declarations = []
  · rw [ruleSet, if_pos (by simpa using empty)]
    exact iff_of_false elide_yields fun yields => yields.left empty
  · rw [ruleSet, if_neg (by simpa using empty), and_iff_right empty]
    refine request_yields.trans ?_
    constructor
    · rintro ⟨base, between, granted, yields⟩
      rcases request_yields.mp yields with ⟨wrapper, _, grantedWrapper, yields⟩
      rcases succeed_yields.mp yields with ⟨completed, rfl⟩
      exact ⟨base, between, wrapper, granted, grantedWrapper, Option.some.inj completed⟩
    · rintro ⟨base, between, wrapper, granted, grantedWrapper, rfl⟩
      refine ⟨base, between, granted, request_yields.mpr ⟨wrapper, after, grantedWrapper, ?_⟩⟩
      exact succeed_yields.mpr ⟨rfl, rfl⟩

theorem mediaRule_yields {rules : List RuleSet} {queries : List MediaQuery} {rule : MediaRule} :
    ((mediaRule rules queries).run factory sink made told).Yields (some rule) after ↔
      rules ≠ [] ∧ exists base : MediaRule, factory.create .media made = (.ok base, after) ∧
        MediaRule.mk (if queries = [] then base.queries else queries) rules = rule := by
  by_cases empty : rules = []
  · simp [mediaRule, empty, elide_yields]
  · rw [mediaRule, if_neg (by simp [empty]), and_iff_right empty]
    refine request_announce_yields.trans ?_
    cases queries with
    | nil =>
        rfl
    | cons query queries =>
        rfl

theorem pageRule_yields {margins : List MarginRule} {name : Option String}
    {pseudo : Option PagePseudo} {rule : PageRule} :
    ((pageRule declarations margins name pseudo).run factory sink made told).Yields
        (some rule) after ↔
      ¬ (declarations = [] ∧ margins = []) ∧
        exists base : PageRule, factory.create .page made = (.ok base, after) ∧
          PageRule.mk name pseudo
            (base.items ++ declarations.map PageItem.declaration ++ margins.map PageItem.margin) =
              rule := by
  by_cases empty : declarations = [] ∧ margins = []
  · simp [pageRule, empty, elide_yields]
  · rw [pageRule, if_neg (by simpa using empty), and_iff_right empty]
    have filled (base : PageRule) :
        (((base.pushAll (declarations.map PageItem.declaration)).pushAll
          (margins.map PageItem.margin)).setName name).setPseudo pseudo =
            ⟨name, pseudo,
              base.items ++ declarations.map PageItem.declaration ++
                margins.map PageItem.margin⟩ := by
      rw [PageRule.pushAll_eq, PageRule.pushAll_eq]
      rfl
    refine request_announce_yields.trans (exists_congr fun base => ?_)
    exact and_congr_right fun _ => by rw [← filled base]

theorem marginRule_yields {area : String} {rule : MarginRule} :
    ((marginRule area declarations).run factory sink made told).Yields (some rule) after ↔
      declarations ≠ [] ∧
        exists base : MarginRule, factory.create (.margin area) made = (.ok base, after) ∧
          MarginRule.mk base.area declarations = rule := by
  by_cases empty : declarations = []
  · simp [marginRule, empty, elide_yields]
  · rw [marginRule, if_neg (by simp [empty]), and_iff_right empty]
    exact request_announce_yields

theorem viewportRule_yields {rule : ViewportRule} :
    ((viewportRule declarations).run factory sink made told).Yields (some rule) after ↔
      declarations ≠ [] ∧
        exists base : ViewportRule, factory.create .viewport made = (.ok base, after) ∧
          ViewportRule.mk declarations = rule := by
  by_cases empty : declarations = []
  · simp [viewportRule, empty, elide_yields]
  · rw [viewportRule, if_neg (by simp [empty]), and_iff_right empty]
    exact request_announce_yields

theorem fontFaceRule_yields {rule : FontFaceRule} :
    ((fontFaceRule declarations).run factory sink made told).Yields (some rule) after ↔
      declarations ≠ [] ∧
        exists base : FontFaceRule, factory.create .fontFace made = (.ok base, after) ∧
          FontFaceRule.mk declarations = rule := by
  by_cases empty : declarations = []
  · simp [fontFaceRule, empty, elide_yields]
  · rw [fontFaceRule, if_neg (by simp [empty]), and_iff_right empty]
    exact request_announce_yields

theorem inlineRuleSet_yields {preparator : Preparator} {pages : List PagePseudo}
    {rule : RuleSet} :
    ((inlineRuleSet preparator declarations pages).run factory sink made told).Yields
        (some rule) after ↔
      declarations ≠ [] ∧
        exists (owner : ElementId) (part : CompoundSelector) (term : SimpleSelector)
            (selector : Selector) (base : RuleSet) (first second third : σ),
          preparator.owner = some owner ∧
          factory.create .compound made = (.ok part, first) ∧
          factory.create (.elementTerm owner preparator.inlinePriority) first =
            (.ok term, second) ∧
          factory.create .selector second = (.ok selector, third) ∧
          factory.create .ruleSet third = (.ok base, after) ∧
          RuleSet.mk [⟨selector.parts ++ [⟨part.combinator,
            part.terms ++ term :: pages.map SimpleSelector.pagePseudo⟩]⟩] declarations = rule := by
  by_cases empty : declarations = []
  · simp [inlineRuleSet, empty, elide_yields]
  rw [inlineRuleSet, if_neg (by simp [empty]), and_iff_right empty]
  cases owned : preparator.owner with
  | none =>
      simp [fail_yields]
  | some owner =>
      have completed (part : CompoundSelector) (term : SimpleSelector) :
          (part.push term).extend (pages.map SimpleSelector.pagePseudo) =
            ⟨part.combinator, part.terms ++ term :: pages.map SimpleSelector.pagePseudo⟩ := by
        simp [CompoundSelector.push, CompoundSelector.extend]
      constructor
      · intro yields
        rcases request_yields.mp yields with ⟨part, first, grantedPart, yields⟩
        rcases request_yields.mp yields with ⟨term, second, grantedTerm, yields⟩
        rcases request_yields.mp yields with ⟨selector, third, grantedSelector, yields⟩
        rcases request_announce_yields.mp yields with ⟨base, granted, rfl⟩
        refine ⟨owner, part, term, selector, base, first, second, third, rfl, grantedPart,
          grantedTerm, grantedSelector, granted, ?_⟩
        rw [← completed part term]
        rfl
      · rintro ⟨_, part, term, selector, base, first, second, third, found, grantedPart,
          grantedTerm, grantedSelector, granted, rfl⟩
        cases found
        refine request_yields.mpr ⟨part, first, grantedPart, ?_⟩
        refine request_yields.mpr ⟨term, second, grantedTerm, ?_⟩
        refine request_yields.mpr ⟨selector, third, grantedSelector, ?_⟩
        refine request_announce_yields.mpr ⟨base, granted, ?_⟩
        rw [← completed part term]
        rfl

end

end Preparation

/-!
# What succeeds
-/

namespace Preparator

open Preparation

variable {σ τ : Type}

section

variable {preparator : Preparator} {production : Production} {factory : Factory σ}
  {sink : Sink τ} {made after : σ} {told : τ} {rule : Rule}

theorem builds_of_yields
    (yields : ((preparator.prepare production).run factory sink made told).Yields (some rule)
      after) :
    preparator.Builds factory production made rule after := by
  cases production with
  | ruleSet selectors declarations wrap queries =>
      cases wrap with
      | false =>
          rcases ruleSet_yields.mp yields with ⟨content, base, granted, rfl⟩
          rcases not_or.mp content with ⟨selected, declared⟩
          exact .set selected declared granted
      | true =>
          rcases wrappedRuleSet_yields.mp yields with
            ⟨content, base, between, wrapper, granted, grantedWrapper, rfl⟩
          rcases not_or.mp content with ⟨selected, declared⟩
          exact .wrappedSet selected declared granted grantedWrapper
  | media rules queries =>
      rcases map_yields.mp yields with ⟨_, rfl, built⟩
      rcases mediaRule_yields.mp built with ⟨filled, base, granted, rfl⟩
      exact .media filled granted
  | page declarations margins name pseudo =>
      rcases map_yields.mp yields with ⟨_, rfl, built⟩
      rcases pageRule_yields.mp built with ⟨filled, base, granted, rfl⟩
      exact .page filled granted
  | margin area declarations =>
      rcases map_yields.mp yields with ⟨_, rfl, built⟩
      rcases marginRule_yields.mp built with ⟨declared, base, granted, rfl⟩
      exact .margin declared granted
  | viewport declarations =>
      rcases map_yields.mp yields with ⟨_, rfl, built⟩
      rcases viewportRule_yields.mp built with ⟨declared, base, granted, rfl⟩
      exact .viewport declared granted
  | fontFace declarations =>
      rcases map_yields.mp yields with ⟨_, rfl, built⟩
      rcases fontFaceRule_yields.mp built with ⟨declared, base, granted, rfl⟩
      exact .fontFace declared granted
  | inlineStyle declarations pages =>
      rcases map_yields.mp yields with ⟨_, rfl, built⟩
      rcases inlineRuleSet_yields.mp built with ⟨declared, owner, part, term, selector, base,
        first, second, third, owned, grantedPart, grantedTerm, grantedSelector, granted, rfl⟩
      exact .inlineStyle declared owned grantedPart grantedTerm grantedSelector granted

theorem Builds.yields (builds : preparator.Builds factory production made rule after) :
    ((preparator.prepare production).run factory sink made told).Yields (some rule) after := by
  cases builds with
  | set selected declared granted =>
      exact ruleSet_yields.mpr ⟨not_or.mpr ⟨selected, declared⟩, _, granted, rfl⟩
  | wrappedSet selected declared granted grantedWrapper =>
      exact wrappedRuleSet_yields.mpr
        ⟨not_or.mpr ⟨selected, declared⟩, _, _, _, granted, grantedWrapper, rfl⟩
  | media filled granted =>
      exact map_yields.mpr ⟨_, rfl, mediaRule_yields.mpr ⟨filled, _, granted, rfl⟩⟩
  | page filled granted =>
      exact map_yields.mpr ⟨_, rfl, pageRule_yields.mpr ⟨filled, _, granted, rfl⟩⟩
  | margin declared granted =>
      exact map_yields.mpr ⟨_, rfl, marginRule_yields.mpr ⟨declared, _, granted, rfl⟩⟩
  | viewport declared granted =>
      exact map_yields.mpr ⟨_, rfl, viewportRule_yields.mpr ⟨declared, _, granted, rfl⟩⟩
  | fontFace declared granted =>
      exact map_yields.mpr ⟨_, rfl, fontFaceRule_yields.mpr ⟨declared, _, granted, rfl⟩⟩
  | inlineStyle declared owned grantedPart grantedTerm grantedSelector granted =>
      exact map_yields.mpr ⟨_, rfl, inlineRuleSet_yields.mpr ⟨declared, _, _, _, _, _, _, _, _,
        owned, grantedPart, grantedTerm, grantedSelector, granted, rfl⟩⟩

end

/-- A preparation succeeds with a rule exactly when that rule is built from what the factory
grants, whatever that holds already. -/
theorem prepare_succeeds_iff_builds (preparator : Preparator) (production : Production)
    (factory : Factory σ) (sink : Sink τ) (made after : σ) (told : τ) (rule : Rule) :
    ((preparator.prepare production).run factory sink made told).result = .ok (some rule) ∧
        ((preparator.prepare production).run factory sink made told).factory = after ↔
      preparator.Builds factory production made rule after := by
  constructor
  · intro yields
    exact builds_of_yields yields
  · intro builds
    exact builds.yields

/-- A page rule keeps the items that the factory put into it, but not the name. -/
example (item : PageItem) (declaration : Declaration) :
    let factory : Factory Unit :=
      ⟨fun request made =>
        match request with
        | .page => (.ok ⟨some "cover", none, [item]⟩, made)
        | request => (request.fresh, made)⟩
    ((Preparation.pageRule [declaration] [] none none).run factory Sink.noop () ()).result =
      .ok (some ⟨none, none, [item, .declaration declaration]⟩) :=
  rfl

end Preparator
end StyleRules

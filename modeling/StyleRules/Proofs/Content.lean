import StyleRules.Proofs.Attaching
import StyleRules.Proofs.Building

/-!
# No rule without content

A preparation looks only at the lists it is given, and not at what is in the
rules that it nests. Still no rule without content ever comes of one at any
depth, as long as the factory hands out empty rules and all that is nested was
prepared before.
-/

namespace StyleRules

def RuleSet.Filled (rule : RuleSet) : Prop :=
  rule.selectors ≠ [] ∧ rule.declarations ≠ []

def MarginRule.Filled (rule : MarginRule) : Prop :=
  rule.declarations ≠ []

def MediaRule.Filled (rule : MediaRule) : Prop :=
  rule.rules ≠ [] ∧ forall set, set ∈ rule.rules → set.Filled

def PageRule.Filled (rule : PageRule) : Prop :=
  rule.items ≠ [] ∧ forall margin, margin ∈ rule.margins → margin.Filled

def Rule.Filled : Rule → Prop
  | .set rule => rule.Filled
  | .media rule => rule.Filled
  | .page rule => rule.Filled
  | .margin rule => rule.Filled
  | .viewport rule => rule.declarations ≠ []
  | .fontFace rule => rule.declarations ≠ []

namespace History

/-- The rule came of an earlier preparation. -/
def Holds (history : History) (rule : Rule) : Prop :=
  some (.prepared rule) ∈ history

/-- The rule set came of an earlier preparation, alone or in a media rule. -/
def HoldsSet (history : History) (rule : RuleSet) : Prop :=
  history.Holds (.set rule) ∨ exists media, history.Holds (.media media) ∧ rule ∈ media.rules

end History

/-- All that the production nests came of earlier preparations. -/
def Production.Sourced (history : History) : Production → Prop
  | .media rules _ => forall rule, rule ∈ rules → history.HoldsSet rule
  | .page _ margins _ _ => forall margin, margin ∈ margins → history.Holds (.margin margin)
  | _ => True

/-- All that the move nests or adds came of earlier preparations. -/
def Assembly.Move.Sourced (history : History) : Move → Prop
  | .prepare production _ => production.Sourced history
  | .push rule => history.Holds rule
  | .attach rule => forall found, rule = some found → history.Holds found
  | .clear => True

theorem History.HoldsSet.filled {history : History} {rule : RuleSet}
    (filled : forall rule, history.Holds rule → rule.Filled) (held : history.HoldsSet rule) :
    rule.Filled := by
  rcases held with alone | ⟨media, held, nested⟩
  · exact filled _ alone
  · exact (filled _ held).right rule nested

theorem PageRule.margins_of_parts (name : Option String) (pseudo : Option PagePseudo)
    (declarations : List Declaration) (margins : List MarginRule) :
    PageRule.margins
      ⟨name, pseudo, declarations.map PageItem.declaration ++ margins.map PageItem.margin⟩ =
        margins := by
  simp [PageRule.margins, List.filterMap_map, Function.comp_def, PageItem.margin?]

theorem Outcome.eq_ok_of_ofResult_eq_prepared {result : Except Error (Option Rule)} {rule : Rule}
    (prepared : Outcome.ofResult result = .prepared rule) : result = .ok (some rule) := by
  rcases result with error | (_ | found)
  · cases prepared
  · cases prepared
  · cases prepared
    rfl

theorem Outcome.eq_prepared_of_rule? {outcome : Outcome} {rule : Rule}
    (found : outcome.rule? = some rule) : outcome = .prepared rule := by
  cases outcome with
  | prepared other =>
      exact congrArg prepared (Option.some.inj found)
  | _ =>
      cases found

namespace Preparator

variable {σ : Type} {preparator : Preparator} {factory : Factory σ} {production : Production}
  {made after : σ} {rule : Rule} {history : History}

theorem Builds.filled (fresh : factory.HandsOutEmpty)
    (filled : forall rule, history.Holds rule → rule.Filled)
    (sourced : production.Sourced history)
    (builds : preparator.Builds factory production made rule after) : rule.Filled := by
  cases builds with
  | set selected declared granted =>
      exact ⟨selected, declared⟩
  | @wrappedSet selectors declarations _ _ _ _ _ wrapper selected declared _ grantedWrapper =>
      have empty : wrapper = MediaRule.empty := fresh .media wrapper _ _ grantedWrapper
      subst empty
      refine ⟨List.cons_ne_nil _ _, ?_⟩
      intro set nested
      cases List.mem_singleton.mp nested
      exact ⟨selected, declared⟩
  | media nonempty granted =>
      exact ⟨nonempty, fun set nested => (sourced set nested).filled filled⟩
  | @page declarations margins name pseudo _ _ base nonempty granted =>
      have empty : base = PageRule.empty := fresh .page base _ _ granted
      subst empty
      constructor
      · intro none
        exact nonempty (by simpa [PageRule.empty] using none)
      · -- Since the page was empty, its margins are the given ones, which were prepared before.
        intro margin nested
        rw [PageRule.empty, List.nil_append, PageRule.margins_of_parts] at nested
        exact filled (.margin margin) (sourced margin nested)
  | margin declared granted =>
      exact declared
  | viewport declared granted =>
      exact declared
  | fontFace declared granted =>
      exact declared
  | inlineStyle declared owned grantedPart grantedTerm grantedSelector granted =>
      exact ⟨List.cons_ne_nil _ _, declared⟩

end Preparator

/-!
# Whole runs

What is kept is that all rules in the outcomes so far and in the stylesheet have
content. A turn adds nothing to the stylesheet but what it prepares itself and
what earlier turns have prepared.
-/

namespace Assembly

variable {σ τ : Type}

structure State.Filled (state : State σ τ) : Prop where
  history : forall rule, state.history.Holds rule → rule.Filled
  sheet : forall rule, rule ∈ state.sheet.rules → rule.Filled

variable {assembly : Assembly σ τ} {state : State σ τ} {choose : History → Move}

theorem prepared_filled (fresh : assembly.factory.HandsOutEmpty) {production : Production}
    (filled : state.Filled) (sourced : production.Sourced state.history) {rule : Rule}
    (prepared : (assembly.prepare production state).1 = .prepared rule) : rule.Filled := by
  have result := Outcome.eq_ok_of_ofResult_eq_prepared prepared
  have builds := Preparator.builds_of_yields ⟨result, rfl⟩
  exact builds.filled fresh filled.history sourced

section

variable (fresh : assembly.factory.HandsOutEmpty) (filled : state.Filled)
  (sourced : (choose state.history).Sourced state.history)

include fresh filled sourced

theorem turn_outcome_filled {rule : Rule}
    (prepared : (assembly.turn state choose).effect.outcome = some (.prepared rule)) :
    rule.Filled := by
  cases chosen : choose state.history with
  | prepare production attach =>
      rw [assembly.prepare_turn_outcome state choose chosen] at prepared
      rw [chosen] at sourced
      exact prepared_filled fresh filled sourced (Option.some.inj prepared)
  | _ =>
      rw [turn, chosen] at prepared
      cases prepared

theorem turn_added_filled {rule : Rule}
    (added : (assembly.turn state choose).added = some rule) : rule.Filled := by
  cases chosen : choose state.history with
  | prepare production attach =>
      rw [assembly.prepare_turn_added state choose chosen] at added
      rw [chosen] at sourced
      cases attach with
      | true =>
          exact prepared_filled fresh filled sourced (Outcome.eq_prepared_of_rule? added)
      | false =>
          cases added
  | push found =>
      rw [turn, chosen] at added
      rw [chosen] at sourced
      cases added
      exact filled.history rule sourced
  | attach found =>
      rw [turn, chosen] at added
      rw [chosen] at sourced
      exact filled.history rule (sourced rule added)
  | clear =>
      rw [turn, chosen] at added
      cases added

theorem turn_filled : (assembly.turn state choose).after.Filled := by
  -- The history grows by the outcome of the turn, and the stylesheet by what the turn adds.
  constructor
  · intro rule held
    rw [History.Holds, turn_history] at held
    rcases List.mem_append.mp held with earlier | last
    · exact filled.history rule earlier
    · exact turn_outcome_filled fresh filled sourced (List.mem_singleton.mp last).symm
  · intro rule member
    rw [turn_sheet] at member
    dsimp only at member
    split at member
    · cases member
    · rcases List.mem_append.mp member with earlier | last
      · exact filled.sheet rule earlier
      · exact turn_added_filled fresh filled sourced (Option.mem_toList.mp last)

end

/-- With a factory that hands out empty rules, and if whatever is nested or attached was prepared
before, no rule without content is ever prepared or held by the stylesheet, at any depth. -/
theorem prepared_rules_have_content (fresh : assembly.factory.HandsOutEmpty) (made : σ) (told : τ)
    (origin : StyleOrigin) (choices : List (History → Move))
    (sourced : forall turn,
      turn ∈ assembly.turns ⟨made, told, Stylesheet.empty origin, []⟩ choices →
        turn.move.Sourced turn.before.history) :
    (forall turn, turn ∈ assembly.turns ⟨made, told, Stylesheet.empty origin, []⟩ choices →
      forall rule, turn.effect.outcome = some (.prepared rule) → rule.Filled) ∧
      forall rule,
        rule ∈ (assembly.reach ⟨made, told, Stylesheet.empty origin, []⟩ choices).sheet.rules →
          rule.Filled := by
  have start : (State.mk made told (Stylesheet.empty origin) []).Filled := by
    constructor <;> exact fun _ none => absurd none List.not_mem_nil
  have kept (turn : Turn σ τ)
      (member : turn ∈ assembly.turns ⟨made, told, Stylesheet.empty origin, []⟩ choices)
      (before : turn.before.Filled) : turn.after.Filled := by
    have source := sourced turn member
    rcases assembly.exists_of_mem_turns _ member with ⟨state, choose, rfl⟩
    exact turn_filled fresh before source
  rcases assembly.reach_keeps _ start kept with ⟨reached, before⟩
  refine ⟨?_, reached.sheet⟩
  intro turn member rule prepared
  have source := sourced turn member
  have filled := before turn member
  rcases assembly.exists_of_mem_turns _ member with ⟨state, choose, rfl⟩
  exact turn_outcome_filled fresh filled source prepared

/-- A rule set is wrapped, taken out of its media rule and put into another one, and then the
factory refuses: what is in the stylesheet has content all the same. -/
theorem nested_rule_set_has_content :
    let assembly := Assembly.mk Preparator.forSheet (Factory.limited ⟨some 3, none, "full"⟩)
      Sink.noop
    let set : RuleSet := ⟨[Selector.empty], [Declaration.of "color" "red"]⟩
    let choices : List (History → Move) :=
      [fun _ => .prepare (.ruleSet set.selectors set.declarations true []) true,
        fun _ => .prepare (.media [set] [MediaQuery.plain]) true,
        fun _ => .prepare (.viewport set.declarations) true]
    let sheet := (assembly.reach ⟨[], (), Stylesheet.default, []⟩ choices).sheet
    assembly.factory.HandsOutEmpty ∧
      (forall turn, turn ∈ assembly.turns ⟨[], (), Stylesheet.default, []⟩ choices →
        turn.move.Sourced turn.before.history) ∧
      sheet.rules = [.media ⟨[], [set]⟩, .media ⟨[MediaQuery.plain], [set]⟩] ∧
      forall rule, rule ∈ sheet.rules → rule.Filled := by
  intro assembly set choices sheet
  have fresh : assembly.factory.HandsOutEmpty := Factory.guarded_handsOutEmpty _
  have sourced (turn : Turn (List RequestKind) Unit)
      (member : turn ∈ assembly.turns ⟨[], (), Stylesheet.default, []⟩ choices) :
      turn.move.Sourced turn.before.history := by
    rcases List.mem_cons.mp member with rfl | member
    · trivial
    rcases List.mem_cons.mp member with rfl | member
    · intro rule nested
      cases List.mem_singleton.mp nested
      exact .inr ⟨⟨[], [set]⟩, List.mem_singleton_self _, List.mem_singleton_self _⟩
    · cases List.mem_singleton.mp member
      trivial
  exact ⟨fresh, sourced, rfl,
    (prepared_rules_have_content fresh [] () .author choices sourced).right⟩

end Assembly
end StyleRules

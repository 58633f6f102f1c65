import Mathlib.Data.List.DropRight
import Mathlib.Data.List.Induction
import StyleRules.Proofs.Running
import StyleRules.Session.Turns

/-!
# What a stylesheet holds

Of all that is done in a run, a stylesheet keeps the rules that were added to it
since it was last cleared, in order and as they were. Nothing is added by a
preparation that fails, that is elided, or whose rule is not attached.
-/

namespace StyleRules

/-!
# Kinds of prepared rules

Each preparation comes to a rule of a type of its own, and is attached as a rule
of that kind. Only a rule set may come in two kinds, because it may be wrapped.
-/

abbrev Production.Node : Production → Type
  | .ruleSet _ _ _ _ => Rule
  | .media _ _ => MediaRule
  | .page _ _ _ _ => PageRule
  | .margin _ _ => MarginRule
  | .viewport _ => ViewportRule
  | .fontFace _ => FontFaceRule
  | .inlineStyle _ _ => RuleSet

def Production.rule : (production : Production) → production.Node → Rule
  | .ruleSet _ _ _ _ => id
  | .media _ _ => Rule.media
  | .page _ _ _ _ => Rule.page
  | .margin _ _ => Rule.margin
  | .viewport _ => Rule.viewport
  | .fontFace _ => Rule.fontFace
  | .inlineStyle _ _ => Rule.set

theorem Preparation.map_id {α : Type} (preparation : Preparation (Option α)) :
    preparation.map (Option.map id) = preparation := by
  induction preparation with
  | done result =>
      cases result with
      | error error =>
          rfl
      | ok result =>
          rw [map, Option.map_id]
          rfl
  | request asked next ih =>
      exact congrArg (request asked) (funext ih)
  | report record next ih =>
      exact congrArg (report record) ih

namespace Preparator

/-- The preparation of a production, which comes to a rule of the production's own type. -/
def node (preparator : Preparator) :
    (production : Production) → Preparation (Option production.Node)
  | .ruleSet selectors declarations wrap queries =>
      Preparation.ruleSet selectors declarations wrap queries
  | .media rules queries => Preparation.mediaRule rules queries
  | .page declarations margins name pseudo =>
      Preparation.pageRule declarations margins name pseudo
  | .margin area declarations => Preparation.marginRule area declarations
  | .viewport declarations => Preparation.viewportRule declarations
  | .fontFace declarations => Preparation.fontFaceRule declarations
  | .inlineStyle declarations pages => Preparation.inlineRuleSet preparator declarations pages

theorem prepare_eq_node_map (preparator : Preparator) (production : Production) :
    preparator.prepare production =
      (preparator.node production).map (Option.map production.rule) := by
  cases production with
  | ruleSet selectors declarations wrap queries =>
      exact (Preparation.map_id _).symm
  | _ =>
      rfl

end Preparator

/-!
# What a turn adds
-/

namespace Assembly

variable {σ τ : Type}

/-- The rule that a turn adds to the stylesheet, if it adds one. -/
def Turn.added (turn : Turn σ τ) : Option Rule :=
  match turn.move with
  | .prepare _ attach => if attach then turn.effect.outcome.bind Outcome.rule? else none
  | .push rule => some rule
  | .attach rule => rule
  | .clear => none

def Turn.clears (turn : Turn σ τ) : Bool :=
  turn.move == .clear

theorem added_of_clears {turn : Turn σ τ} (clears : turn.clears = true) : turn.added = none := by
  have move : turn.move = .clear := eq_of_beq clears
  rw [Turn.added, move]

/-- The rules that were added after the last turn that cleared the stylesheet. -/
def addedSinceClear (turns : List (Turn σ τ)) : List Rule :=
  (turns.rtakeWhile fun turn => !turn.clears).filterMap Turn.added

theorem addedSinceClear_concat (turns : List (Turn σ τ)) (turn : Turn σ τ) :
    addedSinceClear (turns ++ [turn]) =
      if turn.clears then [] else addedSinceClear turns ++ turn.added.toList := by
  unfold addedSinceClear
  rw [List.rtakeWhile_concat]
  cases turn.clears with
  | true =>
      rfl
  | false =>
      cases added : turn.added <;> simp [added]

/-!
# One turn

A turn that adds nothing leaves the stylesheet as it is, unless it clears it.
-/

theorem sheet_append_none (sheet : Stylesheet) :
    sheet = ⟨sheet.origin, sheet.rules ++ Option.toList none⟩ := by
  simp

theorem attach_eq (sheet : Stylesheet) (rule : Option Rule) :
    (sheet.attach rule).2 = ⟨sheet.origin, sheet.rules ++ rule.toList⟩ := by
  cases rule with
  | none =>
      exact sheet_append_none sheet
  | some rule =>
      rfl

theorem attachOutcome_eq (sheet : Stylesheet) (outcome : Outcome) :
    (sheet.attachOutcome outcome).2 = ⟨sheet.origin, sheet.rules ++ outcome.rule?.toList⟩ := by
  cases outcome with
  | prepared rule =>
      rfl
  | _ =>
      exact sheet_append_none sheet

variable (assembly : Assembly σ τ) (state : State σ τ) (choose : History → Move)

theorem turn_sheet :
    (assembly.turn state choose).after.sheet =
      ⟨state.sheet.origin,
        if (assembly.turn state choose).clears then []
        else state.sheet.rules ++ (assembly.turn state choose).added.toList⟩ := by
  unfold turn Turn.after Turn.clears Turn.added
  cases choose state.history with
  | prepare production attach =>
      cases attach with
      | true =>
          exact attachOutcome_eq state.sheet _
      | false =>
          exact sheet_append_none state.sheet
  | push rule =>
      rfl
  | attach rule =>
      exact attach_eq state.sheet rule
  | clear =>
      rfl

/-- Whoever asks to attach something is answered whether there was anything to add. -/
theorem turn_attached_cases :
    (assembly.turn state choose).effect.attached = none ∧
        ((exists rule, (assembly.turn state choose).move = .push rule) ∨
          (assembly.turn state choose).added = none) ∨
      (assembly.turn state choose).effect.attached =
          some (assembly.turn state choose).added.isSome ∧
        (assembly.turn state choose).clears = false ∧
        forall rule, (assembly.turn state choose).move ≠ .push rule := by
  unfold turn Turn.added Turn.clears
  cases choose state.history with
  | prepare production attach =>
      cases attach with
      | true =>
          simp only [perform]
          cases (assembly.prepare production state).1 with
          | failed error =>
              exact .inl ⟨rfl, .inr rfl⟩
          | _ =>
              exact .inr ⟨rfl, rfl, nofun⟩
      | false =>
          exact .inl ⟨rfl, .inr rfl⟩
  | push rule =>
      exact .inl ⟨rfl, .inl ⟨rule, rfl⟩⟩
  | attach rule =>
      cases rule <;> exact .inr ⟨rfl, rfl, nofun⟩
  | clear =>
      exact .inl ⟨rfl, .inr rfl⟩

theorem turn_attached_iff :
    (assembly.turn state choose).effect.attached = some true ↔
      (forall rule, (assembly.turn state choose).move ≠ .push rule) ∧
        exists rule, (assembly.turn state choose).added = some rule := by
  rcases assembly.turn_attached_cases state choose with
    ⟨unasked, idle⟩ | ⟨answered, _, unpushed⟩
  · rw [unasked]
    refine iff_of_false nofun ?_
    rintro ⟨unpushed, rule, added⟩
    rcases idle with ⟨pushed, pushes⟩ | nothing
    · exact unpushed pushed pushes
    · cases nothing.symm.trans added
  · rw [answered, and_iff_right unpushed, Option.some.injEq, Option.isSome_iff_exists]

theorem turn_unattached (unattached : (assembly.turn state choose).effect.attached = some false) :
    (assembly.turn state choose).after.sheet = state.sheet := by
  rcases assembly.turn_attached_cases state choose with ⟨unasked, _⟩ | ⟨answered, kept, _⟩
  · cases unasked.symm.trans unattached
  · have nothing : (assembly.turn state choose).added = none := by
      simpa using answered.symm.trans unattached
    rw [turn_sheet, kept, nothing]
    exact (sheet_append_none state.sheet).symm

/-- A turn makes the stylesheet longer by one rule exactly if it adds that rule. -/
theorem turn_appends_iff (rule : Rule) :
    (assembly.turn state choose).after.sheet.rules = state.sheet.rules ++ [rule] ↔
      (assembly.turn state choose).added = some rule := by
  rw [turn_sheet]
  cases clears : (assembly.turn state choose).clears with
  | true =>
      simp [added_of_clears clears]
  | false =>
      cases (assembly.turn state choose).added <;> simp

theorem reach_sheet (made : σ) (told : τ) (origin : StyleOrigin) (history : History)
    (choices : List (History → Move)) :
    (assembly.reach ⟨made, told, Stylesheet.empty origin, history⟩ choices).sheet =
      ⟨origin,
        addedSinceClear
          (assembly.turns ⟨made, told, Stylesheet.empty origin, history⟩ choices)⟩ := by
  induction choices using List.reverseRecOn with
  | nil =>
      rfl
  | append_singleton choices choose ih =>
      rw [reach_concat, turn_sheet, turns_concat, addedSinceClear_concat, ih]

section

variable {production : Production} {attach : Bool}
  (prepares : choose state.history = .prepare production attach)

include prepares

theorem prepare_turn_added :
    (assembly.turn state choose).added =
      if attach then (assembly.prepare production state).1.rule? else none := by
  simp [turn, Turn.added, prepares, perform]

theorem prepare_turn_sheet :
    (assembly.turn state choose).after.sheet =
      ⟨state.sheet.origin,
        state.sheet.rules ++
          (if attach then (assembly.prepare production state).1.rule? else none).toList⟩ := by
  have kept : (assembly.turn state choose).clears = false := by
    simp [turn, Turn.clears, prepares]
  rw [turn_sheet, kept, assembly.prepare_turn_added state choose prepares]
  rfl

theorem prepare_turn_outcome :
    (assembly.turn state choose).effect.outcome = some (assembly.prepare production state).1 := by
  rw [turn, prepares]
  rfl

theorem prepare_turn_keeps
    (idle : attach = false ∨
      forall rule, (assembly.turn state choose).effect.outcome ≠ some (.prepared rule)) :
    (assembly.turn state choose).after.sheet = state.sheet := by
  rw [assembly.prepare_turn_outcome state choose prepares] at idle
  rw [assembly.prepare_turn_sheet state choose prepares]
  rcases idle with detached | nothing
  · simp [detached]
  · cases outcome : (assembly.prepare production state).1 with
    | prepared rule =>
        exact absurd (congrArg some outcome) (nothing rule)
    | _ =>
        simp [Outcome.rule?]

theorem prepare_turn_appends {rule : Rule} (attaches : attach = true)
    (prepared : (assembly.turn state choose).effect.outcome = some (.prepared rule)) :
    (assembly.turn state choose).after.sheet.rules = state.sheet.rules ++ [rule] := by
  rw [assembly.prepare_turn_outcome state choose prepares] at prepared
  rw [assembly.prepare_turn_sheet state choose prepares, if_pos attaches,
    Option.some.inj prepared]
  rfl

theorem exists_node_of_prepared {rule : Rule}
    (prepared : (assembly.turn state choose).effect.outcome = some (.prepared rule)) :
    exists node,
      ((assembly.preparator.node production).run assembly.factory assembly.sink state.factory
          state.sink).result = .ok (some node) ∧
        production.rule node = rule := by
  rw [assembly.prepare_turn_outcome state choose prepares] at prepared
  have outcome := Option.some.inj prepared
  rw [prepare, assembly.preparator.prepare_eq_node_map, Preparation.run_map] at outcome
  generalize (assembly.preparator.node production).run assembly.factory assembly.sink
    state.factory state.sink = run at outcome ⊢
  rcases run with ⟨error | (_ | node), _, _⟩
  · cases outcome
  · cases outcome
  · exact ⟨node, rfl, Outcome.prepared.inj outcome⟩

end

/-- After any run a stylesheet that began empty holds the rules that were added since it was last
cleared, and comes from where it came from. A turn is answered that it attached a rule exactly if
it added one without pushing it, a preparation adds nothing unless it is attached and comes to a
rule, and the rule is then what the preparation came to. -/
theorem sheet_holds_what_was_added (made : σ) (told : τ) (origin : StyleOrigin)
    (choices : List (History → Move)) :
    let start : State σ τ := ⟨made, told, Stylesheet.empty origin, []⟩
    let turns := assembly.turns start choices
    let sheet := (assembly.reach start choices).sheet
    sheet.rules = addedSinceClear turns ∧ sheet.origin = origin ∧
      sheet.length = (addedSinceClear turns).length ∧
      (sheet.isEmpty = true ↔ addedSinceClear turns = []) ∧
      forall turn, turn ∈ turns →
        (turn.effect.attached = some true ↔
          (forall rule, turn.move ≠ .push rule) ∧
            exists rule, turn.after.sheet.rules = turn.before.sheet.rules ++ [rule]) ∧
        (turn.effect.attached = some false → turn.after.sheet = turn.before.sheet) ∧
        forall production attach, turn.move = .prepare production attach →
          ((attach = false ∨ forall rule, turn.effect.outcome ≠ some (.prepared rule)) →
            turn.after.sheet = turn.before.sheet) ∧
          forall rule, turn.effect.outcome = some (.prepared rule) →
            (attach = true →
              turn.after.sheet.rules = turn.before.sheet.rules ++ [rule]) ∧
            exists node,
              ((assembly.preparator.node production).run assembly.factory assembly.sink
                turn.before.factory turn.before.sink).result = .ok (some node) ∧
              production.rule node = rule := by
  intro start turns sheet
  have held : sheet = ⟨origin, addedSinceClear turns⟩ :=
    assembly.reach_sheet made told origin [] choices
  refine ⟨congrArg Stylesheet.rules held, congrArg Stylesheet.origin held, ?_, ?_, ?_⟩
  · rw [held, Stylesheet.length]
  · rw [held, Stylesheet.isEmpty, List.isEmpty_iff]
  · intro turn member
    rcases assembly.exists_of_mem_turns start member with ⟨before, choose, rfl⟩
    refine ⟨?_, assembly.turn_unattached before choose, ?_⟩
    · rw [turn_attached_iff]
      exact and_congr_right fun _ =>
        exists_congr fun rule => (assembly.turn_appends_iff before choose rule).symm
    · intro production attach prepares
      refine ⟨assembly.prepare_turn_keeps before choose prepares, ?_⟩
      intro rule prepared
      constructor
      · intro attaches
        exact assembly.prepare_turn_appends before choose prepares attaches prepared
      · exact assembly.exists_node_of_prepared before choose prepares prepared

/-- The rule that was attached before the stylesheet was cleared is gone, the margin rule with an
unknown name never came, and the font face rule is there twice. -/
theorem sheet_holds_rule_and_copy :
    let assembly := Assembly.mk Preparator.forSheet Factory.standard Sink.noop
    let declarations := [Declaration.of "color" "red"]
    let choices : List (History → Move) :=
      [fun _ => .prepare (.viewport declarations) true, fun _ => .clear,
        fun _ => .prepare (.fontFace declarations) true,
        fun _ => .prepare (.margin "nowhere" declarations) true,
        fun history => .attach ((history.outcome? 2).bind Outcome.rule?)]
    (assembly.reach ⟨(), (), Stylesheet.empty .user, []⟩ choices).sheet.rules =
      [.fontFace ⟨declarations⟩, .fontFace ⟨declarations⟩] := by
  intro assembly declarations choices
  exact (assembly.sheet_holds_what_was_added () () .user choices).left

end Assembly
end StyleRules

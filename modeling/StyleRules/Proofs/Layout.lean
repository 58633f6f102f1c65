import StyleRules.Proofs.OneLine
import StyleRules.Proofs.Separating

/-!
# Reading the layout of a rule

The text of a legible rule tells its kind and everything in it, up to the inside
of selectors and media queries. It is first taken apart into lines, and then each
line says what it is: a declaration is indented, a margin rule opens with an at
sign, and nothing but the end of a block is a brace.
-/

namespace StyleRules

open Text

theorem Text.lines_separable :
    Separable (fun line : String => line.toList ++ ['\n']) OneLine Eq (fun _ => True) (· = []) where
  split := by
    intro x y rest tail whole other _ _ same
    simp only [List.append_assoc, List.singleton_append] at same
    rcases split_unique whole other same with ⟨line, ends⟩
    exact ⟨String.toList_inj.mp line, ends⟩
  behind _ _ := trivial
  behind_of_ends _ := trivial
  not_ends := by
    intro x rest _ ends
    simp at ends

theorem Text.unlines_injective {first second : List String}
    (left : forall line, line ∈ first → OneLine line)
    (right : forall line, line ∈ second → OneLine line)
    (same : unlines first = unlines second) : first = second := by
  have letters := congrArg String.toList same
  rw [toList_unlines, toList_unlines, ← List.append_nil (List.flatMap _ first),
    ← List.append_nil (List.flatMap _ second)] at letters
  have agree := (lines_separable.flatMap_unique left right rfl rfl letters).left
  rwa [List.forall₂_eq_eq_eq] at agree

namespace Declaration

variable {d e : Declaration}

/-- The value with the mark of an important declaration. -/
def body (declaration : Declaration) : List Char :=
  declaration.value.toList ++ if declaration.important then " !important".toList else []

theorem toList_line (declaration : Declaration) :
    declaration.line.toList =
      "  ".toList ++
        (declaration.property.toList ++ ':' :: ' ' :: (declaration.body ++ [';'])) := by
  cases important : declaration.important <;> simp [line, render, body, important]

theorem body_unique (left : d.Legible) (right : e.Legible) (same : d.body = e.body) :
    d.value = e.value ∧ d.important = e.important := by
  unfold body at same
  cases important : d.important <;> cases other : e.important <;>
    simp only [important, other, if_true, if_false, Bool.false_eq_true, List.append_nil] at same
  · exact ⟨String.toList_inj.mp same, rfl⟩
  · exact absurd ⟨_, same.symm⟩ left.value
  · exact absurd ⟨_, same⟩ right.value
  · exact ⟨String.toList_inj.mp (List.append_cancel_right same), rfl⟩

theorem line_unique (left : d.Legible) (right : e.Legible) (same : d.line = e.line) : d = e := by
  have letters := congrArg String.toList same
  rw [toList_line, toList_line] at letters
  rcases split_unique left.property right.property (List.append_cancel_left letters) with
    ⟨property, rest⟩
  rcases body_unique left right (List.append_cancel_right (List.cons.inj rest).right) with
    ⟨value, important⟩
  cases d
  cases e
  cases String.toList_inj.mp property
  cases value
  cases important
  rfl

end Declaration

/-- The block ends here. -/
def AtClosing (lines : List String) : Prop :=
  lines.head? = some "\x7d"

theorem Declaration.line_ne_closing (declaration : Declaration) : declaration.line ≠ "\x7d" := by
  intro same
  have letters := congrArg String.toList same
  simp [toList_line] at letters

theorem Declaration.lines_separable :
    Separable (fun declaration => [declaration.line]) Legible Eq (fun _ => True) AtClosing where
  split := by
    intro d e rest tail left right _ _ same
    rcases List.cons.inj same with ⟨first, ends⟩
    exact ⟨line_unique left right first, ends⟩
  behind _ _ := trivial
  behind_of_ends _ := trivial
  not_ends := by
    intro declaration rest _ ends
    exact declaration.line_ne_closing (Option.some.inj ends)

/-- What stands between a heading and the closing brace can be read. -/
theorem content_unique {α : Type} {write : α → List String} {Fine : α → Prop}
    {Same : α → α → Prop} {Behind : List String → Prop}
    (separable : Separable write Fine Same Behind AtClosing) {xs ys : List α}
    {rest tail : List String} (left : forall x, x ∈ xs → Fine x) (right : forall y, y ∈ ys → Fine y)
    (same : xs.flatMap write ++ "\x7d" :: rest = ys.flatMap write ++ "\x7d" :: tail) :
    List.Forall₂ Same xs ys ∧ rest = tail := by
  have closing (more : List String) : AtClosing ("\x7d" :: more) := rfl
  rcases separable.flatMap_unique left right (closing rest) (closing tail) same with
    ⟨agree, ends⟩
  exact ⟨agree, (List.cons.inj ends).right⟩

theorem Declaration.linesUnder_unique {heading other : String} {ds es : List Declaration}
    {rest tail : List String} (left : forall d, d ∈ ds → d.Legible)
    (right : forall e, e ∈ es → e.Legible)
    (same : linesUnder heading ds ++ rest = linesUnder other es ++ tail) :
    heading = other ∧ ds = es ∧ rest = tail := by
  simp only [linesUnder, List.cons_append, List.append_assoc] at same
  rcases List.cons.inj same with ⟨opening, content⟩
  rw [List.map_eq_flatMap, List.map_eq_flatMap] at content
  rcases content_unique lines_separable left right content with ⟨declared, ends⟩
  exact ⟨String.append_left_inj _ |>.mp opening, List.forall₂_eq_eq_eq ▸ declared, ends⟩

theorem Declaration.linesUnder_ne_closing (heading : String) (ds : List Declaration)
    (rest : List String) : ¬ AtClosing (linesUnder heading ds ++ rest) := by
  intro ends
  have letters := congrArg String.toList (Option.some.inj ends)
  have lengths := congrArg List.length letters
  simp at lengths

theorem RuleSet.lines_separable :
    Separable lines (fun rule => forall d, d ∈ rule.declarations → d.Legible) Agree
      (fun _ => True) AtClosing where
  split := by
    intro first second rest tail left right _ _ same
    rcases Declaration.linesUnder_unique left right same with ⟨selectors, declarations, ends⟩
    exact ⟨⟨selectors, declarations⟩, ends⟩
  behind _ _ := trivial
  behind_of_ends _ := trivial
  not_ends _ := Declaration.linesUnder_ne_closing _ _ _

/-!
# Pages
-/

theorem MarginRule.lines_unique {first second : MarginRule} {rest tail : List String}
    (left : forall d, d ∈ first.declarations → d.Legible)
    (right : forall d, d ∈ second.declarations → d.Legible)
    (same : first.lines ++ rest = second.lines ++ tail) : first = second ∧ rest = tail := by
  rcases first with ⟨area, ds⟩
  rcases second with ⟨other, es⟩
  rcases Declaration.linesUnder_unique left right same with ⟨heading, rfl, ends⟩
  cases MarginArea.name_injective (String.append_right_inj _ |>.mp heading)
  exact ⟨rfl, ends⟩

theorem Declaration.line_ne_margin (declaration : Declaration) (margin : MarginRule)
    {rest tail : List String} : [declaration.line] ++ rest ≠ margin.lines ++ tail := by
  intro same
  have letters := congrArg String.toList (List.cons.inj same).left
  simp [toList_line] at letters

theorem PageItem.lines_separable :
    Separable lines (fun item => forall d, d ∈ item.declarations → d.Legible) Eq
      (fun _ => True) AtClosing where
  split := by
    intro first second rest tail left right _ _ same
    cases first with
    | declaration d =>
        cases second with
        | declaration e =>
            rcases Declaration.lines_separable.split (left d (List.mem_singleton_self d))
              (right e (List.mem_singleton_self e)) trivial trivial same with ⟨rfl, ends⟩
            exact ⟨rfl, ends⟩
        | margin other =>
            exact absurd same (d.line_ne_margin other)
    | margin margin =>
        cases second with
        | declaration e =>
            exact absurd same.symm (e.line_ne_margin margin)
        | margin other =>
            rcases MarginRule.lines_unique left right same with ⟨rfl, ends⟩
            exact ⟨rfl, ends⟩
  behind _ _ := trivial
  behind_of_ends _ := trivial
  not_ends := by
    intro item rest _ ends
    cases item with
    | declaration d =>
        exact d.line_ne_closing (Option.some.inj ends)
    | margin margin =>
        exact Declaration.linesUnder_ne_closing _ _ _ ends

theorem PagePseudo.toList_render (pseudo : PagePseudo) :
    pseudo.render.toList = ':' :: pseudo.name.toList := by
  simp [render]

theorem PagePseudo.render_injective : Function.Injective PagePseudo.render := by
  intro first second same
  have letters := congrArg String.toList same
  rw [toList_render, toList_render] at letters
  cases first
  cases second
  cases String.toList_inj.mp (List.cons.inj letters).right
  rfl

theorem getD_injective {first second : Option String} (left : "" ∉ first) (right : "" ∉ second)
    (same : first.getD "" = second.getD "") : first = second := by
  cases first <;> cases second <;> simp_all

namespace PageRule

/-- The name and the pseudo-class of the pages. -/
def scope (rule : PageRule) : List Char :=
  (rule.name.getD "").toList ++ ((rule.pseudo.map PagePseudo.render).getD "").toList

variable {rule first second : PageRule}

theorem toList_renderScope
    (named : forall name, name ∈ rule.name → name ≠ "" ∧ ':' ∉ name.toList) :
    rule.renderScope.toList = if rule.scope = [] then [] else ' ' :: rule.scope := by
  rcases rule with ⟨_ | name, _ | pseudo, items⟩
  · rfl
  · simp [renderScope, scope, PagePseudo.toList_render]
  · have nonempty := (named name rfl).left
    simp_all [renderScope, scope]
  · simp [renderScope, scope, PagePseudo.toList_render]

theorem ne_colon_of_mem_name
    (named : forall name, name ∈ rule.name → name ≠ "" ∧ ':' ∉ name.toList) :
    forall letter, letter ∈ (rule.name.getD "").toList → letter ≠ ':' := by
  intro letter member
  cases written : rule.name with
  | none =>
      simp [written] at member
  | some name =>
      rw [written] at member
      exact ne_of_mem_of_not_mem member (named name written).right

theorem pseudo_head (letter : Char)
    (begins : letter ∈ ((rule.pseudo.map PagePseudo.render).getD "").toList.head?) :
    ¬ letter ≠ ':' := by
  cases written : rule.pseudo with
  | none =>
      simp [written] at begins
  | some pseudo =>
      simpa [written, PagePseudo.toList_render, eq_comm] using begins

variable (left : forall name, name ∈ first.name → name ≠ "" ∧ ':' ∉ name.toList)
  (right : forall name, name ∈ second.name → name ≠ "" ∧ ':' ∉ name.toList)
include left right

theorem scope_unique (same : first.scope = second.scope) :
    first.name = second.name ∧ first.pseudo = second.pseudo := by
  rcases span_unique (ne_colon_of_mem_name left) (ne_colon_of_mem_name right) pseudo_head
    pseudo_head same with ⟨name, pseudo⟩
  constructor
  · exact getD_injective (fun empty => (left _ empty).left rfl)
      (fun empty => (right _ empty).left rfl) (String.toList_inj.mp name)
  · have rendered := getD_injective (by simp [PagePseudo.render]) (by simp [PagePseudo.render])
      (String.toList_inj.mp pseudo)
    exact Option.map_injective PagePseudo.render_injective rendered

theorem renderScope_unique (same : first.renderScope = second.renderScope) :
    first.name = second.name ∧ first.pseudo = second.pseudo := by
  apply scope_unique left right
  have letters := congrArg String.toList same
  rw [toList_renderScope left, toList_renderScope right] at letters
  split at letters <;> split at letters <;> simp_all

end PageRule

/-!
# Rules
-/

namespace Rule

variable {a b : Rule}

theorem kindOf_of_head {letters : List Char} (other : letters.head? ≠ some '@') :
    kindOf letters = "RuleSet" := by
  unfold kindOf
  split <;> simp_all

theorem kindOf_render (legible : a.Legible) : kindOf a.render.toList = a.kind := by
  cases a with
  | set rule =>
      refine kindOf_of_head ?_
      have head := legible.selectors rule List.mem_cons_self
      cases letters : (Selector.renderList rule.selectors).toList with
      | nil =>
          simp [render, RuleSet.render, letters]
      | cons letter more =>
          simpa [render, RuleSet.render, letters] using head
  | media rule =>
      simp [render, MediaRule.render, kindOf, kind]
  | page rule =>
      simp [render, PageRule.render, kindOf, kind]
  | margin rule =>
      rcases rule with ⟨area, declarations⟩
      cases area <;> simp [render, MarginRule.render, MarginArea.name, kindOf, kind]
  | viewport rule =>
      simp [render, ViewportRule.render, kindOf, kind]
  | fontFace rule =>
      simp [render, FontFaceRule.render, kindOf, kind]

theorem lines_unique (left : a.Legible) (right : b.Legible) (same : a.render = b.render) :
    a.lines = b.lines := by
  refine unlines_injective (lines_oneLine left.oneLine) (lines_oneLine right.oneLine) ?_
  rw [unlines_lines, unlines_lines, same]

theorem media_agree {first second : MediaRule} (left : (media first).Legible)
    (right : (media second).Legible) (same : (media first).lines = (media second).lines) :
    (media first).Agree (media second) := by
  rcases List.cons.inj same with ⟨heading, content⟩
  have queries := String.append_right_inj _ |>.mp (String.append_left_inj _ |>.mp heading)
  rcases content_unique RuleSet.lines_separable (List.forall_mem_flatMap.mp left.declarations)
    (List.forall_mem_flatMap.mp right.declarations) content with ⟨rules, _⟩
  exact .media queries rules

theorem page_unique {first second : PageRule} (left : (page first).Legible)
    (right : (page second).Legible) (same : (page first).lines = (page second).lines) :
    first = second := by
  rcases List.cons.inj same with ⟨heading, content⟩
  have scope := String.append_right_inj _ |>.mp (String.append_left_inj _ |>.mp heading)
  rcases content_unique PageItem.lines_separable (List.forall_mem_flatMap.mp left.declarations)
    (List.forall_mem_flatMap.mp right.declarations) content with ⟨items, _⟩
  rw [List.forall₂_eq_eq_eq] at items
  rcases PageRule.renderScope_unique left.pageName right.pageName scope with ⟨name, pseudo⟩
  cases first
  cases second
  cases name
  cases pseudo
  cases items
  rfl

/-- The kind is read first, so that only rules of one kind are compared. -/
theorem agree_of_render (left : a.Legible) (right : b.Legible) (same : a.render = b.render) :
    a.Agree b := by
  have kinds : a.kind = b.kind := by
    rw [← kindOf_render left, ← kindOf_render right, same]
  have lines := lines_unique left right same
  have whole : a.lines ++ [] = b.lines ++ [] := by
    rw [lines]
  cases a with
  | set first =>
      cases b with
      | set second =>
          have agree := (RuleSet.lines_separable.split left.declarations right.declarations
            trivial trivial whole).left
          exact .set agree
      | _ =>
          simp [kind] at kinds
  | media first =>
      cases b with
      | media second =>
          exact media_agree left right lines
      | _ =>
          simp [kind] at kinds
  | page first =>
      cases b with
      | page second =>
          cases page_unique left right lines
          exact .page first
      | _ =>
          simp [kind] at kinds
  | margin first =>
      cases b with
      | margin second =>
          cases (MarginRule.lines_unique left.declarations right.declarations whole).left
          exact .margin first
      | _ =>
          simp [kind] at kinds
  | viewport first =>
      cases b with
      | viewport second =>
          cases first
          cases second
          cases (Declaration.linesUnder_unique left.declarations right.declarations
            whole).right.left
          exact .viewport _
      | _ =>
          simp [kind] at kinds
  | fontFace first =>
      cases b with
      | fontFace second =>
          cases first
          cases second
          cases (Declaration.linesUnder_unique left.declarations right.declarations
            whole).right.left
          exact .fontFace _
      | _ =>
          simp [kind] at kinds

end Rule

theorem RuleSet.Agree.render {first second : RuleSet} (agree : first.Agree second) :
    first.render = second.render := by
  rw [RuleSet.render, RuleSet.render, agree.selectors, agree.declarations]

theorem RuleSet.map_render_eq {first second : List RuleSet}
    (agree : List.Forall₂ RuleSet.Agree first second) :
    first.map RuleSet.render = second.map RuleSet.render :=
  map_eq_of_forall₂ (agree.imp fun _ _ => RuleSet.Agree.render)

theorem Rule.Agree.render {a b : Rule} (agree : a.Agree b) : a.render = b.render := by
  cases agree with
  | set agree =>
      exact agree.render
  | @media first second queries rules =>
      have content := RuleSet.map_render_eq rules
      have written (rule : MediaRule) :
          (rule.rules.map fun set => set.render ++ "\n") =
            (rule.rules.map RuleSet.render).map (· ++ "\n") := by
        simp
      rw [Rule.render, Rule.render, MediaRule.render, MediaRule.render, queries, written first,
        content, ← written second]
  | page _ | margin _ | viewport _ | fontFace _ =>
      rfl

/-- Legible rules have the same text exactly if they agree. -/
theorem render_eq_iff_agree {a b : Rule} (left : a.Legible) (right : b.Legible) :
    a.render = b.render ↔ a.Agree b :=
  ⟨Rule.agree_of_render left right, Rule.Agree.render⟩

/-- Pseudo-classes of pages are written as those of elements are, which leaves the layout as it
is. -/
theorem page_pseudo_keeps_layout :
    let nested (term : SimpleSelector) : Rule :=
      .media ⟨[], [⟨[.single ⟨none, [term]⟩], [(Declaration.of "color" "red").markImportant]⟩,
        ⟨[], []⟩]⟩
    let first := nested (.pagePseudo .first)
    let second := nested (.pseudoClass "first")
    first.Legible ∧ second.Legible ∧ first ≠ second ∧ first.render = second.render ∧
      first.Agree second := by
  intro nested first second
  have left : first.Legible := by
    constructor <;> decide +kernel
  have right : second.Legible := by
    constructor <;> decide +kernel
  have same : first.render = second.render := rfl
  exact ⟨left, right, by decide, same, (render_eq_iff_agree left right).mp same⟩

end StyleRules

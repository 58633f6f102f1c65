import Mathlib.Data.List.Forall2
import StyleRules.Rule.Text
import StyleRules.Text.Lines

/-!
# The layout of rules

A rule is written in lines: one that opens it, those of its content, and a brace
that closes it. From the lines everything can be read but the inside of selectors
and media queries, as long as no string in the rule looks like a part of the
layout.
-/

namespace StyleRules

def SimpleSelector.strings : SimpleSelector → List String
  | .universal | .element _ _ => []
  | .type name | .className name | .id name | .pseudoClass name | .pseudoElement name => [name]
  | .attribute test => test.name :: test.value.toList
  | .pagePseudo pseudo => [pseudo.name]

def CompoundSelector.strings (part : CompoundSelector) : List String :=
  part.terms.flatMap SimpleSelector.strings

def Selector.strings (selector : Selector) : List String :=
  selector.parts.flatMap CompoundSelector.strings

def MediaFeature.strings (feature : MediaFeature) : List String :=
  feature.name :: feature.value.toList

def MediaQuery.strings (query : MediaQuery) : List String :=
  query.mediaType.toList ++ query.features.flatMap MediaFeature.strings

def Declaration.strings (declaration : Declaration) : List String :=
  [declaration.property, declaration.value]

def RuleSet.strings (rule : RuleSet) : List String :=
  rule.selectors.flatMap Selector.strings ++ rule.declarations.flatMap Declaration.strings

def MarginRule.strings (rule : MarginRule) : List String :=
  rule.declarations.flatMap Declaration.strings

def PageItem.strings : PageItem → List String
  | .declaration content => content.strings
  | .margin content => content.strings

def Rule.strings : Rule → List String
  | .set rule => rule.strings
  | .media rule =>
      rule.queries.flatMap MediaQuery.strings ++ rule.rules.flatMap RuleSet.strings
  | .page rule =>
      rule.name.toList ++ (rule.pseudo.map PagePseudo.name).toList ++
        rule.items.flatMap PageItem.strings
  | .margin rule => rule.strings
  | .viewport rule => rule.declarations.flatMap Declaration.strings
  | .fontFace rule => rule.declarations.flatMap Declaration.strings

def PageItem.declarations : PageItem → List Declaration
  | .declaration content => [content]
  | .margin content => content.declarations

namespace Rule

def ruleSets : Rule → List RuleSet
  | set rule => [rule]
  | media rule => rule.rules
  | _ => []

/-- The declarations of a rule at any depth. -/
def declarations : Rule → List Declaration
  | set rule => rule.declarations
  | media rule => rule.rules.flatMap RuleSet.declarations
  | page rule => rule.items.flatMap PageItem.declarations
  | margin rule => rule.declarations
  | viewport rule => rule.declarations
  | fontFace rule => rule.declarations

def pageName? : Rule → Option String
  | page rule => rule.name
  | _ => none

end Rule

/-- The end of the property can be found, and whether the declaration is important. -/
structure Declaration.Legible (declaration : Declaration) : Prop where
  property : ':' ∉ declaration.property.toList
  value : ¬ " !important".toList <:+ declaration.value.toList

instance (declaration : Declaration) : Decidable declaration.Legible :=
  decidable_of_iff
    (':' ∉ declaration.property.toList ∧ ¬ " !important".toList <:+ declaration.value.toList)
    ⟨fun ⟨property, value⟩ => ⟨property, value⟩, fun ⟨property, value⟩ => ⟨property, value⟩⟩

/-- No string of the rule can be taken for a part of the layout. -/
structure Rule.Legible (rule : Rule) : Prop where
  oneLine : forall text, text ∈ rule.strings → Text.OneLine text
  selectors : forall set, set ∈ rule.ruleSets →
    (Selector.renderList set.selectors).toList.head? ≠ some '@'
  declarations : forall declaration, declaration ∈ rule.declarations → declaration.Legible
  pageName : forall name, name ∈ rule.pageName? → name ≠ "" ∧ ':' ∉ name.toList

/-- Selectors and media queries are compared by their text, and everything else is the same. -/
structure RuleSet.Agree (first second : RuleSet) : Prop where
  selectors : Selector.renderList first.selectors = Selector.renderList second.selectors
  declarations : first.declarations = second.declarations

inductive Rule.Agree : Rule → Rule → Prop where
  | set {first second : RuleSet} (agree : first.Agree second) : Agree (.set first) (.set second)
  | media {first second : MediaRule}
      (queries : MediaQuery.renderList first.queries = MediaQuery.renderList second.queries)
      (rules : List.Forall₂ RuleSet.Agree first.rules second.rules) :
      Agree (.media first) (.media second)
  | page (rule : PageRule) : Agree (.page rule) (.page rule)
  | margin (rule : MarginRule) : Agree (.margin rule) (.margin rule)
  | viewport (rule : ViewportRule) : Agree (.viewport rule) (.viewport rule)
  | fontFace (rule : FontFaceRule) : Agree (.fontFace rule) (.fontFace rule)

/-- The kind of the rule that a text begins. -/
def Rule.kindOf : List Char → String
  | '@' :: 'm' :: _ => "RuleMedia"
  | '@' :: 'p' :: _ => "RulePage"
  | '@' :: 'v' :: _ => "RuleViewport"
  | '@' :: 'f' :: _ => "RuleFontFace"
  | '@' :: _ => "RuleMargin"
  | _ => "RuleSet"

/-!
# Lines
-/

def Declaration.line (declaration : Declaration) : String :=
  "  " ++ declaration.render

/-- The lines of a rule that opens with a heading and has declarations alone. -/
def Declaration.linesUnder (heading : String) (declarations : List Declaration) : List String :=
  (heading ++ " \x7b") :: (declarations.map line ++ ["\x7d"])

def RuleSet.lines (rule : RuleSet) : List String :=
  Declaration.linesUnder (Selector.renderList rule.selectors) rule.declarations

def MarginRule.lines (rule : MarginRule) : List String :=
  Declaration.linesUnder ("@" ++ rule.area.name) rule.declarations

def PageItem.lines : PageItem → List String
  | .declaration content => [content.line]
  | .margin content => content.lines

def Rule.lines : Rule → List String
  | .set rule => rule.lines
  | .media rule =>
      ("@media " ++ MediaQuery.renderList rule.queries ++ " \x7b") ::
        (rule.rules.flatMap RuleSet.lines ++ ["\x7d"])
  | .page rule =>
      ("@page" ++ rule.renderScope ++ " \x7b") :: (rule.items.flatMap PageItem.lines ++ ["\x7d"])
  | .margin rule => rule.lines
  | .viewport rule => Declaration.linesUnder "@viewport" rule.declarations
  | .fontFace rule => Declaration.linesUnder "@font-face" rule.declarations

/-!
# The lines are the text
-/

section

open Text

theorem Declaration.unlines_linesUnder (heading : String) (declarations : List Declaration) :
    unlines (linesUnder heading declarations) =
      heading ++ " " ++ renderBlock declarations ++ "\n" := by
  rw [linesUnder, unlines_cons, unlines_append, renderBlock]
  apply String.toList_inj.mp
  simp [unlines, line, Function.comp_def]

theorem RuleSet.unlines_lines (rule : RuleSet) : unlines rule.lines = rule.render ++ "\n" := by
  exact Declaration.unlines_linesUnder _ _

theorem PageItem.unlines_lines (item : PageItem) : unlines item.lines = item.renderLine := by
  cases item with
  | declaration content =>
      simp [lines, unlines, renderLine, Declaration.line]
  | margin content =>
      exact Declaration.unlines_linesUnder _ _

theorem unlines_flatMap {α : Type} (write : α → List String) (items : List α) :
    unlines (items.flatMap write) = String.join (items.map fun item => unlines (write item)) := by
  induction items with
  | nil =>
      rfl
  | cons item items ih =>
      rw [List.flatMap_cons, unlines_append, ih]
      exact String.join_cons.symm

theorem Rule.unlines_lines (rule : Rule) : unlines rule.lines = rule.render ++ "\n" := by
  cases rule with
  | set rule =>
      exact rule.unlines_lines
  | media rule =>
      rw [lines, unlines_cons, unlines_append, unlines_flatMap, render, MediaRule.render]
      simp only [RuleSet.unlines_lines]
      apply String.toList_inj.mp
      simp [unlines]
  | page rule =>
      rw [lines, unlines_cons, unlines_append, unlines_flatMap, render, PageRule.render]
      simp only [PageItem.unlines_lines]
      apply String.toList_inj.mp
      simp [unlines]
  | margin rule =>
      exact Declaration.unlines_linesUnder _ _
  | viewport rule =>
      exact Declaration.unlines_linesUnder _ _
  | fontFace rule =>
      exact Declaration.unlines_linesUnder _ _

end
end StyleRules

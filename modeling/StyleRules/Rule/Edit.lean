import StyleRules.BuildStep
import StyleRules.Rule.Basic

/-!
# Building rules

A rule is built by edits, from an empty rule or from one that already has
content. Its list can be replaced or added to at the end, and each of its other
fields can be set. What preparation does to a rule are such edits by name.
-/

namespace StyleRules

inductive ListEdit (α : Type) where
  | replaceAll (items : List α)
  | push (item : α)
deriving DecidableEq, Repr

def ListEdit.apply {α : Type} (items : List α) : ListEdit α → List α
  | .replaceAll items => items
  | .push item => items ++ [item]

namespace RuleSet

def setSelectors (rule : RuleSet) (selectors : List Selector) : RuleSet :=
  { rule with selectors := selectors }

inductive Edit where
  | selectors (selectors : List Selector)
  | declarations (edit : ListEdit Declaration)
deriving DecidableEq, Repr

def apply (rule : RuleSet) : Edit → RuleSet
  | .selectors selectors => rule.setSelectors selectors
  | .declarations edit => { rule with declarations := edit.apply rule.declarations }

def replaceAll (rule : RuleSet) (declarations : List Declaration) : RuleSet :=
  rule.apply (.declarations (.replaceAll declarations))

end RuleSet

namespace MediaRule

def setQueries (rule : MediaRule) (queries : List MediaQuery) : MediaRule :=
  { rule with queries := queries }

inductive Edit where
  | queries (queries : List MediaQuery)
  | rules (edit : ListEdit RuleSet)
deriving DecidableEq, Repr

def apply (rule : MediaRule) : Edit → MediaRule
  | .queries queries => rule.setQueries queries
  | .rules edit => { rule with rules := edit.apply rule.rules }

def replaceAll (rule : MediaRule) (rules : List RuleSet) : MediaRule :=
  rule.apply (.rules (.replaceAll rules))

def push (rule : MediaRule) (set : RuleSet) : MediaRule :=
  rule.apply (.rules (.push set))

end MediaRule

namespace PageRule

def setName (rule : PageRule) (name : Option String) : PageRule :=
  { rule with name := name }

def setPseudo (rule : PageRule) (pseudo : Option PagePseudo) : PageRule :=
  { rule with pseudo := pseudo }

def push (rule : PageRule) (item : PageItem) : PageRule :=
  { rule with items := rule.items ++ [item] }

def pushAll (rule : PageRule) (items : List PageItem) : PageRule :=
  items.foldl push rule

theorem pushAll_eq (rule : PageRule) (items : List PageItem) :
    rule.pushAll items = { rule with items := rule.items ++ items } := by
  induction items generalizing rule with
  | nil =>
      simp [pushAll]
  | cons item items ih =>
      change (rule.push item).pushAll items = _
      rw [ih]
      simp [push]

inductive Edit where
  | name (name : Option String)
  | pseudo (pseudo : Option PagePseudo)
  | push (item : PageItem)
deriving DecidableEq, Repr

def apply (rule : PageRule) : Edit → PageRule
  | .name name => rule.setName name
  | .pseudo pseudo => rule.setPseudo pseudo
  | .push item => rule.push item

end PageRule

namespace MarginRule

def apply (rule : MarginRule) (edit : ListEdit Declaration) : MarginRule :=
  { rule with declarations := edit.apply rule.declarations }

def replaceAll (rule : MarginRule) (declarations : List Declaration) : MarginRule :=
  rule.apply (.replaceAll declarations)

end MarginRule

namespace ViewportRule

def apply (rule : ViewportRule) (edit : ListEdit Declaration) : ViewportRule :=
  ⟨edit.apply rule.declarations⟩

def replaceAll (rule : ViewportRule) (declarations : List Declaration) : ViewportRule :=
  rule.apply (.replaceAll declarations)

end ViewportRule

namespace FontFaceRule

def apply (rule : FontFaceRule) (edit : ListEdit Declaration) : FontFaceRule :=
  ⟨edit.apply rule.declarations⟩

def replaceAll (rule : FontFaceRule) (declarations : List Declaration) : FontFaceRule :=
  rule.apply (.replaceAll declarations)

end FontFaceRule

end StyleRules

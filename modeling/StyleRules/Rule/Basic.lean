import StyleRules.Declaration
import StyleRules.MarginArea
import StyleRules.Media
import StyleRules.Selector.Basic

/-!
# Rules

A stylesheet holds rules of six kinds. Two of them hold other rules: a media
rule holds rule sets, and a page rule holds margin rules among its declarations.
-/

namespace StyleRules

structure RuleSet where
  selectors : List Selector
  declarations : List Declaration
deriving DecidableEq, Repr

structure MediaRule where
  queries : List MediaQuery
  rules : List RuleSet
deriving DecidableEq, Repr

structure MarginRule where
  area : MarginArea
  declarations : List Declaration
deriving DecidableEq, Repr

inductive PageItem where
  | declaration (declaration : Declaration)
  | margin (margin : MarginRule)
deriving DecidableEq, Repr

/-- Declarations and margin rules for pages of a name, of a pseudo-class, or for all pages. -/
structure PageRule where
  name : Option String
  pseudo : Option PagePseudo
  items : List PageItem
deriving DecidableEq, Repr

structure ViewportRule where
  declarations : List Declaration
deriving DecidableEq, Repr

structure FontFaceRule where
  declarations : List Declaration
deriving DecidableEq, Repr

inductive Rule where
  | set (rule : RuleSet)
  | media (rule : MediaRule)
  | page (rule : PageRule)
  | margin (rule : MarginRule)
  | viewport (rule : ViewportRule)
  | fontFace (rule : FontFaceRule)
deriving DecidableEq, Repr

def RuleSet.empty : RuleSet :=
  ⟨[], []⟩

def MediaRule.empty : MediaRule :=
  ⟨[], []⟩

def MarginRule.empty (area : MarginArea) : MarginRule :=
  ⟨area, []⟩

def PageRule.empty : PageRule :=
  ⟨none, none, []⟩

def ViewportRule.empty : ViewportRule :=
  ⟨[]⟩

def FontFaceRule.empty : FontFaceRule :=
  ⟨[]⟩

namespace MediaRule

def isConditional (rule : MediaRule) : Bool :=
  !rule.queries.isEmpty

end MediaRule

namespace PageItem

def declaration? : PageItem → Option Declaration
  | .declaration content => some content
  | .margin _ => none

def margin? : PageItem → Option MarginRule
  | .declaration _ => none
  | .margin content => some content

end PageItem

namespace PageRule

def declarations (rule : PageRule) : List Declaration :=
  rule.items.filterMap PageItem.declaration?

def margins (rule : PageRule) : List MarginRule :=
  rule.items.filterMap PageItem.margin?

end PageRule

namespace Rule

def set? : Rule → Option RuleSet
  | .set rule => some rule
  | _ => none

def margin? : Rule → Option MarginRule
  | .margin rule => some rule
  | _ => none

def kind : Rule → String
  | .set _ => "RuleSet"
  | .media _ => "RuleMedia"
  | .page _ => "RulePage"
  | .margin _ => "RuleMargin"
  | .viewport _ => "RuleViewport"
  | .fontFace _ => "RuleFontFace"

end Rule

end StyleRules

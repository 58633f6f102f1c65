import StyleRules.Rule.Basic
import StyleRules.Selector.Text

/-!
# Rules as text

Every rule opens with what it is about and continues with its content in braces,
one item per line. Declarations are indented; rules inside another rule are not.
-/

namespace StyleRules

def RuleSet.render (rule : RuleSet) : String :=
  Selector.renderList rule.selectors ++ " " ++ Declaration.renderBlock rule.declarations

def MediaRule.render (rule : MediaRule) : String :=
  "@media " ++ MediaQuery.renderList rule.queries ++ " \x7b\n" ++
    String.join (rule.rules.map fun set => set.render ++ "\n") ++ "\x7d"

def MarginRule.render (rule : MarginRule) : String :=
  "@" ++ rule.area.name ++ " " ++ Declaration.renderBlock rule.declarations

/-- The line of an item, or the lines if it is a margin rule. -/
def PageItem.renderLine : PageItem → String
  | .declaration content => "  " ++ content.render ++ "\n"
  | .margin content => content.render ++ "\n"

/-- What a page rule is about: after a space, the name and the pseudo-class that it has. -/
def PageRule.renderScope (rule : PageRule) : String :=
  match rule.name, rule.pseudo with
  | none, none => ""
  | name, pseudo => " " ++ name.getD "" ++ (pseudo.map PagePseudo.render).getD ""

def PageRule.render (rule : PageRule) : String :=
  "@page" ++ rule.renderScope ++ " \x7b\n" ++ String.join (rule.items.map PageItem.renderLine) ++
    "\x7d"

def ViewportRule.render (rule : ViewportRule) : String :=
  "@viewport " ++ Declaration.renderBlock rule.declarations

def FontFaceRule.render (rule : FontFaceRule) : String :=
  "@font-face " ++ Declaration.renderBlock rule.declarations

def Rule.render : Rule → String
  | .set rule => rule.render
  | .media rule => rule.render
  | .page rule => rule.render
  | .margin rule => rule.render
  | .viewport rule => rule.render
  | .fontFace rule => rule.render

end StyleRules

import StyleRules.Selector.Basic

/-!
# Selectors as text

Terms follow one another without a gap, and a combinator stands between two
parts of a chain; a space is the descendant combinator, and also what separates
parts that name none. The combinator of the first part relates it to nothing and
is not written.
-/

namespace StyleRules

def AttributeMatch.render : AttributeMatch → String
  | .present => ""
  | .equals => "="
  | .includes => "~="
  | .dashMatch => "|="
  | .startsWith => "^="
  | .endsWith => "$="
  | .contains => "*="

/-- Without a value to compare, the operator is not written. -/
def AttributeTest.render (test : AttributeTest) : String :=
  match test.value with
  | some value => "[" ++ test.name ++ test.operator.render ++ "\"" ++ value ++ "\"]"
  | none => "[" ++ test.name ++ "]"

def PagePseudo.render (pseudo : PagePseudo) : String :=
  ":" ++ pseudo.name

def SimpleSelector.render : SimpleSelector → String
  | .universal => "*"
  | .type name => name
  | .className name => "." ++ name
  | .id name => "#" ++ name
  | .attribute test => test.render
  | .pseudoClass name => ":" ++ name
  | .pseudoElement name => "::" ++ name
  | .pagePseudo pseudo => pseudo.render
  | .element owner inline =>
      "<element " ++ owner.render ++ (if inline then " inline" else "") ++ ">"

namespace CompoundSelector

def render (part : CompoundSelector) : String :=
  String.join (part.terms.map SimpleSelector.render)

def separator (part : CompoundSelector) : String :=
  match part.combinator with
  | none => " "
  | some .descendant => " "
  | some .child => " > "
  | some .adjacent => " + "
  | some .general => " ~ "

end CompoundSelector

namespace Selector

/-- The parts behind the first one, each with its separator. -/
def renderRest (parts : List CompoundSelector) : String :=
  String.join (parts.map fun part => part.separator ++ part.render)

def render (selector : Selector) : String :=
  match selector.parts with
  | [] => ""
  | part :: parts => part.render ++ renderRest parts

def renderList (selectors : List Selector) : String :=
  String.intercalate ", " (selectors.map render)

end Selector

end StyleRules

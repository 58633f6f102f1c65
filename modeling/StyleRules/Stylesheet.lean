import StyleRules.Rule.Basic

/-!
# Stylesheets

A stylesheet is a list of rules in the order they were attached, and where it
comes from. Nothing that is done to the rules changes where it comes from.
-/

namespace StyleRules

/-- Where a stylesheet comes from. In the cascade, later origins override earlier ones. -/
inductive StyleOrigin where
  | agent
  | user
  | author
deriving DecidableEq, Repr

namespace StyleOrigin

def rank : StyleOrigin → Nat
  | agent => 0
  | user => 1
  | author => 2

def compare (a b : StyleOrigin) : Ordering :=
  Ord.compare a.rank b.rank

end StyleOrigin

structure Stylesheet where
  origin : StyleOrigin
  rules : List Rule
deriving DecidableEq, Repr

namespace Stylesheet

def empty (origin : StyleOrigin) : Stylesheet :=
  ⟨origin, []⟩

def default : Stylesheet :=
  empty .author

def push (sheet : Stylesheet) (rule : Rule) : Stylesheet :=
  { sheet with rules := sheet.rules ++ [rule] }

/-- Attaches what a preparation came to, if it came to a rule, and says whether it did. -/
def attach (sheet : Stylesheet) : Option Rule → Bool × Stylesheet
  | some rule => (true, sheet.push rule)
  | none => (false, sheet)

def clear (sheet : Stylesheet) : Stylesheet :=
  { sheet with rules := [] }

def length (sheet : Stylesheet) : Nat :=
  sheet.rules.length

def isEmpty (sheet : Stylesheet) : Bool :=
  sheet.rules.isEmpty

end Stylesheet

end StyleRules

import StyleRules.Element

/-!
# Selectors

A simple selector tests one thing about an element. A compound selector is a run
of simple selectors that must all hold of one element. A selector is a chain of
compound selectors, each related to the one before it by a combinator; the last
one is about the element that the selector selects.
-/

namespace StyleRules

inductive Combinator where
  | descendant
  | child
  | adjacent
  | general
deriving DecidableEq, Repr

inductive AttributeMatch where
  | present
  | equals
  | includes
  | dashMatch
  | startsWith
  | endsWith
  | contains
deriving DecidableEq, Repr

/-- A test of an attribute. A test of mere presence has no value. -/
structure AttributeTest where
  name : String
  operator : AttributeMatch
  value : Option String
deriving DecidableEq, Repr

namespace AttributeTest

def present (name : String) : AttributeTest :=
  ⟨name, .present, none⟩

def compare (name : String) (operator : AttributeMatch) (value : String) : AttributeTest :=
  ⟨name, operator, some value⟩

end AttributeTest

/-- A pseudo-class of pages, such as the first page. -/
structure PagePseudo where
  name : String
deriving DecidableEq, Repr

namespace PagePseudo

def first : PagePseudo := ⟨"first"⟩

def left : PagePseudo := ⟨"left"⟩

def right : PagePseudo := ⟨"right"⟩

def blank : PagePseudo := ⟨"blank"⟩

end PagePseudo

inductive SimpleSelector where
  | universal
  | type (name : String)
  | className (name : String)
  | id (name : String)
  | attribute (test : AttributeTest)
  | pseudoClass (name : String)
  | pseudoElement (name : String)
  | pagePseudo (pseudo : PagePseudo)
  /-- Holds of the one element named. Flagged inline, it stands for that element's own style. -/
  | element (owner : ElementId) (inline : Bool)
deriving DecidableEq, Repr

structure CompoundSelector where
  combinator : Option Combinator
  terms : List SimpleSelector
deriving DecidableEq, Repr

namespace CompoundSelector

def empty : CompoundSelector :=
  ⟨none, []⟩

/-- No terms yet, behind a combinator. -/
def joined (combinator : Combinator) : CompoundSelector :=
  ⟨some combinator, []⟩

def push (part : CompoundSelector) (term : SimpleSelector) : CompoundSelector :=
  { part with terms := part.terms ++ [term] }

def extend (part : CompoundSelector) (terms : List SimpleSelector) : CompoundSelector :=
  { part with terms := part.terms ++ terms }

def setCombinator (part : CompoundSelector) (combinator : Option Combinator) : CompoundSelector :=
  { part with combinator := combinator }

def single (term : SimpleSelector) : CompoundSelector :=
  empty.push term

def ofType (name : String) : CompoundSelector :=
  single (.type name)

def ofClass (name : String) : CompoundSelector :=
  single (.className name)

def ofId (name : String) : CompoundSelector :=
  single (.id name)

def isEmpty (part : CompoundSelector) : Bool :=
  part.terms.isEmpty

end CompoundSelector

structure Selector where
  parts : List CompoundSelector
deriving DecidableEq, Repr

namespace Selector

def empty : Selector :=
  ⟨[]⟩

def single (part : CompoundSelector) : Selector :=
  ⟨[part]⟩

def push (selector : Selector) (part : CompoundSelector) : Selector :=
  ⟨selector.parts ++ [part]⟩

def length (selector : Selector) : Nat :=
  selector.parts.length

def isEmpty (selector : Selector) : Bool :=
  selector.parts.isEmpty

/-- The compound selector about the element that is selected. -/
def subject (selector : Selector) : Option CompoundSelector :=
  selector.parts.getLast?

end Selector

end StyleRules

import StyleRules.Selector.Basic

/-!
# Specificity

How strongly a selector binds is four counts of its simple selectors: inline
terms, identifiers, the terms on the level of classes, and the terms on the
level of types. Earlier counts outrank later ones. The counts are 32 bit words.
-/

namespace StyleRules

structure Specificity where
  inline : UInt32
  ids : UInt32
  classes : UInt32
  types : UInt32
deriving DecidableEq, Repr

namespace Specificity

def zero : Specificity :=
  ⟨0, 0, 0, 0⟩

def inlineTerm : Specificity :=
  ⟨1, 0, 0, 0⟩

def countTerm (specificity : Specificity) : SimpleSelector → Specificity
  | .universal => specificity
  | .element _ false => specificity
  | .element _ true => { specificity with inline := specificity.inline + 1 }
  | .id _ => { specificity with ids := specificity.ids + 1 }
  | .className _ | .attribute _ | .pseudoClass _ | .pagePseudo _ =>
      { specificity with classes := specificity.classes + 1 }
  | .type _ | .pseudoElement _ => { specificity with types := specificity.types + 1 }

def countPart (specificity : Specificity) (part : CompoundSelector) : Specificity :=
  part.terms.foldl countTerm specificity

def compare (s t : Specificity) : Ordering :=
  (Ord.compare s.inline t.inline).then <|
    (Ord.compare s.ids t.ids).then <|
      (Ord.compare s.classes t.classes).then (Ord.compare s.types t.types)

def atMost (s t : Specificity) : Bool :=
  compare s t != .gt

def render (s : Specificity) : String :=
  "(" ++ toString s.inline.toNat ++ "," ++ toString s.ids.toNat ++ "," ++
    toString s.classes.toNat ++ "," ++ toString s.types.toNat ++ ")"

def sort (specificities : List Specificity) : List Specificity :=
  specificities.mergeSort atMost

end Specificity

def CompoundSelector.specificity (part : CompoundSelector) : Specificity :=
  Specificity.zero.countPart part

namespace Selector

def specificity (selector : Selector) : Specificity :=
  selector.parts.foldl Specificity.countPart Specificity.zero

/-- Selectors from the weakest to the strongest; of two equally strong ones the earlier stays in
front. -/
def cascade (selectors : List Selector) : List Selector :=
  selectors.mergeSort fun s t => s.specificity.atMost t.specificity

end Selector

end StyleRules

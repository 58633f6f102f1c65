import StyleRules.Selector.Specificity
import StyleRules.Selector.Text
import StyleRules.Text.Name

/-!
# Well formed selectors

A selector is well formed if it could be read from a stylesheet, but for the
terms that name an element: its names are names, and what names a type stands in
front. Some differences between selectors are not written, whatever the names
are: a selector is canonical if it has none of them.
-/

namespace StyleRules

/-- A value is there exactly if the operator has a use for it. -/
structure AttributeTest.WellFormed (test : AttributeTest) : Prop where
  name : Text.IsName test.name
  operator : test.value = none ↔ test.operator = .present
  value : forall text, text ∈ test.value → '"' ∉ text.toList

namespace SimpleSelector

def WellFormed : SimpleSelector → Prop
  | .universal | .element _ _ => True
  | .type name | .className name | .id name | .pseudoClass name | .pseudoElement name =>
      Text.IsName name
  | .attribute test => test.WellFormed
  | .pagePseudo pseudo => Text.IsName pseudo.name

/-- Whether the term is about the type of the element, and has no mark in front of it. -/
def isTypeTest : SimpleSelector → Bool
  | .universal | .type _ => true
  | _ => false

end SimpleSelector

structure CompoundSelector.WellFormed (part : CompoundSelector) : Prop where
  nonempty : part.terms ≠ []
  terms : forall term, term ∈ part.terms → term.WellFormed
  typeFirst : forall term, term ∈ part.terms.tail → term.isTypeTest = false

def Selector.WellFormed (selector : Selector) : Prop :=
  forall part, part ∈ selector.parts → part.WellFormed

instance (test : AttributeTest) : Decidable test.WellFormed :=
  decidable_of_iff
    (Text.IsName test.name ∧ (test.value = none ↔ test.operator = .present) ∧
      forall text, text ∈ test.value → '"' ∉ text.toList)
    ⟨fun ⟨name, operator, value⟩ => ⟨name, operator, value⟩,
      fun ⟨name, operator, value⟩ => ⟨name, operator, value⟩⟩

instance (term : SimpleSelector) : Decidable term.WellFormed :=
  match term with
  | .universal | .element _ _ => inferInstanceAs (Decidable True)
  | .type name | .className name | .id name | .pseudoClass name | .pseudoElement name =>
      inferInstanceAs (Decidable (Text.IsName name))
  | .attribute test => inferInstanceAs (Decidable test.WellFormed)
  | .pagePseudo pseudo => inferInstanceAs (Decidable (Text.IsName pseudo.name))

instance (part : CompoundSelector) : Decidable part.WellFormed :=
  decidable_of_iff
    (part.terms ≠ [] ∧ (forall term, term ∈ part.terms → term.WellFormed) ∧
      forall term, term ∈ part.terms.tail → term.isTypeTest = false)
    ⟨fun ⟨nonempty, terms, typeFirst⟩ => ⟨nonempty, terms, typeFirst⟩,
      fun ⟨nonempty, terms, typeFirst⟩ => ⟨nonempty, terms, typeFirst⟩⟩

instance (selector : Selector) : Decidable selector.WellFormed :=
  inferInstanceAs (Decidable (forall part, part ∈ selector.parts → part.WellFormed))

def ElementId.canonical (element : ElementId) : ElementId :=
  if element.isNull then null else element

/-- A pseudo-class of pages is a pseudo-class, and elements are as they are identified. -/
def SimpleSelector.canonical (identify : ElementId → ElementId) : SimpleSelector → SimpleSelector
  | .pagePseudo pseudo => .pseudoClass pseudo.name
  | .element owner inline => .element (identify owner) inline
  | term => term

namespace CompoundSelector

/-- The combinator that separates the part from the one before it. -/
def relation (part : CompoundSelector) : Combinator :=
  part.combinator.getD .descendant

def canonicalTerms (identify : ElementId → ElementId) (part : CompoundSelector) :
    List SimpleSelector :=
  part.terms.map (SimpleSelector.canonical identify)

end CompoundSelector

/-- The first part has no combinator, and every other part has one. -/
def Selector.canonical (identify : ElementId → ElementId) (selector : Selector) : Selector :=
  match selector.parts with
  | [] => ⟨[]⟩
  | part :: parts =>
      ⟨⟨none, part.canonicalTerms identify⟩ ::
        parts.map fun part => ⟨some part.relation, part.canonicalTerms identify⟩⟩

/-!
# What a selector shares with its canonical form
-/

theorem ElementId.render_canonical (element : ElementId) :
    element.canonical.render = element.render := by
  unfold canonical
  split
  next nothing =>
    simp only [render, nothing, if_true]
    rfl
  next =>
    rfl

section

variable {identify : ElementId → ElementId}

theorem SimpleSelector.render_canonical
    (written : forall element, (identify element).render = element.render)
    (term : SimpleSelector) : (term.canonical identify).render = term.render := by
  cases term with
  | element owner inline =>
      simp only [canonical, render, written]
  | _ =>
      rfl

theorem CompoundSelector.render_canonicalTerms
    (written : forall element, (identify element).render = element.render)
    (combinator : Option Combinator) (part : CompoundSelector) :
    (CompoundSelector.mk combinator (part.canonicalTerms identify)).render = part.render := by
  simp only [render, canonicalTerms, List.map_map, Function.comp_def,
    SimpleSelector.render_canonical written]

theorem CompoundSelector.separator_relation (part : CompoundSelector)
    (terms : List SimpleSelector) :
    (CompoundSelector.mk (some part.relation) terms).separator = part.separator := by
  rcases part with ⟨_ | combinator, _⟩ <;> rfl

theorem Selector.render_canonical
    (written : forall element, (identify element).render = element.render)
    (selector : Selector) : (selector.canonical identify).render = selector.render := by
  rcases selector with ⟨_ | ⟨part, parts⟩⟩
  · rfl
  · simp only [canonical, render, renderRest, List.map_map, Function.comp_def,
      CompoundSelector.render_canonicalTerms written, CompoundSelector.separator_relation]

theorem Specificity.countTerm_canonical (specificity : Specificity) (term : SimpleSelector) :
    specificity.countTerm (term.canonical identify) = specificity.countTerm term := by
  cases term with
  | element owner inline =>
      cases inline <;> rfl
  | _ =>
      rfl

theorem Specificity.countPart_canonicalTerms (specificity : Specificity)
    (combinator : Option Combinator) (part : CompoundSelector) :
    specificity.countPart ⟨combinator, part.canonicalTerms identify⟩ =
      specificity.countPart part := by
  simp only [countPart, CompoundSelector.canonicalTerms, List.foldl_map, countTerm_canonical]

theorem Selector.specificity_canonical (selector : Selector) :
    (selector.canonical identify).specificity = selector.specificity := by
  rcases selector with ⟨_ | ⟨part, parts⟩⟩
  · rfl
  · simp only [canonical, specificity, List.foldl_cons, List.foldl_map,
      Specificity.countPart_canonicalTerms]

end
end StyleRules

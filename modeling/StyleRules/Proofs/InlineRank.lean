import StyleRules.Preparation.Rules
import StyleRules.Proofs.Counting

/-!
# The rank of inline styles

The style of an element becomes a rule set with one selector. If it has priority
it outranks every selector without an inline term, whatever else that selector
is made of. Otherwise it gives way to every identifier and every inline term,
and counts for nothing but the pages that it is limited to.
-/

namespace StyleRules

/-- Selects the element, on the pages given or on all of them. -/
def Selector.ofInline (owner : ElementId) (priority : Bool) (pages : List PagePseudo) :
    Selector :=
  single ⟨none, .element owner priority :: pages.map SimpleSelector.pagePseudo⟩

/-- What an inline style on a number of pages counts for. -/
def Tally.ofInline (priority : Bool) (pages : Nat) : Tally :=
  ⟨priority.toNat, 0, pages, 0⟩

theorem Tally.ofInline_fits (priority : Bool) {pages : Nat} (few : pages < 2 ^ 32) :
    (ofInline priority pages).Fits where
  inline := by
    cases priority <;> simp [ofInline]
  ids := by
    simp [ofInline]
  classes := few
  types := by
    simp [ofInline]

theorem Selector.specificity_ofInline (owner : ElementId) (priority : Bool)
    (pages : List PagePseudo) :
    (ofInline owner priority pages).specificity =
      (Tally.ofInline priority pages.length).words := by
  have counts : Tally.of (ofInline owner priority pages).terms =
      Tally.ofInline priority pages.length := by
    cases priority <;>
      simp [Selector.terms, ofInline, single, Tally.of, Tally.ofInline, List.countP_cons,
        List.countP_map, Function.comp_def]
  rw [specificity_eq_words, counts]

theorem Preparation.run_inlineRuleSet {σ τ : Type} (owner : ElementId) (priority : Bool)
    {declarations : List Declaration} (declared : declarations ≠ []) (pages : List PagePseudo)
    (sink : Sink τ) (made : σ) (told : τ) :
    ((inlineRuleSet (.forElement owner priority) declarations pages).run Factory.standard sink made
      told).result = .ok (some ⟨[Selector.ofInline owner priority pages], declarations⟩) := by
  rw [inlineRuleSet, if_neg (by simpa using declared)]
  rfl

/-!
# Outranking
-/

namespace Tally

variable {other : Tally}

theorem ofInline_compare_gt (pages : Nat) (outranked : other.inline = 0) :
    (ofInline true pages).compare other = .gt := by
  have first : Ord.compare 1 other.inline = .gt := Nat.compare_eq_gt.mpr (by omega)
  exact Ordering.then_eq_gt.mpr (.inl first)

theorem ofInline_compare_lt (pages : Nat) (stronger : 0 < other.inline ∨ 0 < other.ids) :
    (ofInline false pages).compare other = .lt := by
  rcases Nat.eq_zero_or_pos other.inline with none | some
  · have second : Ord.compare 0 other.ids = .lt := Nat.compare_eq_lt.mpr (by omega)
    have first : Ord.compare 0 other.inline = .eq := Nat.compare_eq_eq.mpr none.symm
    exact Ordering.then_eq_lt.mpr (.inr ⟨first, Ordering.then_eq_lt.mpr (.inl second)⟩)
  · exact Ordering.then_eq_lt.mpr (.inl (Nat.compare_eq_lt.mpr some))

/-- On all pages and without priority, the style of an element counts for nothing. -/
theorem ofInline_zero_compare (other : Tally) : (ofInline false 0).compare other ≠ .gt := by
  intro greater
  simp [compare, ofInline, Ordering.then_eq_gt, Nat.compare_eq_gt] at greater

theorem ofInline_compare_ofInline (priority : Bool) (m n : Nat) :
    (ofInline priority m).compare (ofInline priority n) = Ord.compare m n := by
  simp [compare, ofInline]

end Tally

/-- The style of an element, prepared with the standard factory, is a rule set with one selector,
which counts for an inline term if it has priority, and for the pages that it is limited to. With
priority it is stronger than every selector that has no inline term. Without, it is weaker than
every selector that has an identifier or an inline term, and no stronger than any if it is limited
to no page. Of two inline styles of one kind, the one limited to more pages is the stronger. -/
theorem inline_priority_decides_rank {σ τ : Type} (owner : ElementId) (priority : Bool)
    {declarations : List Declaration} (declared : declarations ≠ []) (pages : List PagePseudo)
    (few : pages.length < 2 ^ 32) (sink : Sink τ) (made : σ) (told : τ) :
    exists rule selector,
      ((Preparation.inlineRuleSet (.forElement owner priority) declarations pages).run
          Factory.standard sink made told).result = .ok (some rule) ∧
        rule.selectors = [selector] ∧
        selector.specificity = ⟨if priority then 1 else 0, 0, .ofNat pages.length, 0⟩ ∧
        selector.specificity.classes.toNat = pages.length ∧
        (forall other : Selector, other.terms.length < 2 ^ 32 →
          (priority = true → (forall owner, .element owner true ∉ other.terms) →
            selector.specificity.compare other.specificity = .gt) ∧
          (priority = false →
            ((exists name, .id name ∈ other.terms) ∨
              exists owner, .element owner true ∈ other.terms) →
            selector.specificity.compare other.specificity = .lt) ∧
          (priority = false → pages = [] →
            selector.specificity.compare other.specificity ≠ .gt)) ∧
        forall (second : ElementId) (others : List Declaration) (morePages : List PagePseudo),
          others ≠ [] → morePages.length < 2 ^ 32 →
          exists next rival,
            ((Preparation.inlineRuleSet (.forElement second priority) others morePages).run
                Factory.standard sink made told).result = .ok (some next) ∧
              next.selectors = [rival] ∧
              selector.specificity.compare rival.specificity =
                Ord.compare pages.length morePages.length := by
  let selector := Selector.ofInline owner priority pages
  have counted := Selector.specificity_ofInline owner priority pages
  have fits := Tally.ofInline_fits priority few
  refine ⟨⟨[selector], declarations⟩, selector,
    Preparation.run_inlineRuleSet owner priority declared pages sink made told, rfl, ?_, ?_, ?_, ?_⟩
  · rw [counted]
    cases priority <;> rfl
  · rw [counted]
    exact UInt32.toNat_ofNat_of_lt' few
  · intro other fewTerms
    rw [Selector.compare_of_fits counted fits fewTerms]
    refine ⟨?_, ?_, ?_⟩
    · rintro rfl plain
      exact Tally.ofInline_compare_gt pages.length (Tally.of_inline_eq_zero plain)
    · rintro rfl (⟨name, member⟩ | ⟨rival, member⟩)
      · exact Tally.ofInline_compare_lt pages.length (.inr (Tally.of_ids_pos member))
      · exact Tally.ofInline_compare_lt pages.length (.inl (Tally.of_inline_pos member))
    · rintro rfl rfl
      exact Tally.ofInline_zero_compare _
  · intro second others morePages filled fewPages
    refine ⟨_, _, Preparation.run_inlineRuleSet second priority filled morePages sink made told,
      rfl, ?_⟩
    rw [counted, Selector.specificity_ofInline,
      Tally.compare_words fits (Tally.ofInline_fits priority fewPages),
      Tally.ofInline_compare_ofInline]

/-- On two kinds of pages, an inline style with priority is stronger than three identifiers. -/
theorem inline_style_outranks_identifiers :
    let other := Selector.single ⟨none, [.id "main", .id "nav", .id "top"]⟩
    exists rule selector,
      ((Preparation.inlineRuleSet (.forElement .null true) [Declaration.of "color" "blue"]
          [.first, .left]).run Factory.standard Sink.noop () ()).result = .ok (some rule) ∧
        rule.selectors = [selector] ∧ selector.specificity = ⟨1, 0, 2, 0⟩ ∧
        selector.specificity.compare other.specificity = .gt := by
  intro other
  rcases inline_priority_decides_rank .null true (List.cons_ne_nil _ _) [.first, .left]
    (by decide) Sink.noop () () with ⟨rule, selector, ran, selectors, counted, _, rank, _⟩
  have plain (owner : ElementId) : .element owner true ∉ other.terms := by
    simp [other, Selector.terms, Selector.single]
  have outranked := (rank other (by decide)).left rfl plain
  exact ⟨rule, selector, ran, selectors, counted, outranked⟩

end StyleRules

import Mathlib.Data.Fin.Basic
import Mathlib.Data.Fin.Tuple.Basic
import Mathlib.Data.List.Perm.Basic
import Mathlib.Tactic.Tauto
import StyleRules.Proofs.Counting

/-!
# The order of specificities

Specificities are compared count by count, and the first difference decides.
That is a linear order, and it respects what selectors have in common: adding
the same to two selectors, wherever it is put, leaves their order as it was. No
term makes a selector weaker, and every term that counts on some level makes it
stronger.
-/

namespace StyleRules

namespace Specificity

/-- The four counts, each of which outranks those behind it. -/
def count (specificity : Specificity) : Fin 4 → UInt32
  | 0 => specificity.inline
  | 1 => specificity.ids
  | 2 => specificity.classes
  | 3 => specificity.types

/-- Of the counts that are not the same, the first is greater. -/
def Outranks (s t : Specificity) : Prop :=
  exists level, t.count level < s.count level ∧
    forall earlier, earlier < level → s.count earlier = t.count earlier

instance : Std.TransCmp compare :=
  inferInstanceAs <| Std.TransCmp <| compareLex (compareOn inline) <| compareLex (compareOn ids) <|
    compareLex (compareOn classes) (compareOn types)

instance : Std.LawfulEqCmp compare where
  eq_of_compare := by
    intro s t same
    simp only [compare, Ordering.then_eq_eq, Std.LawfulEqOrd.compare_eq_iff_eq] at same
    rcases same with ⟨inline, ids, classes, types⟩
    cases s
    cases t
    cases inline
    cases ids
    cases classes
    cases types
    rfl

theorem compare_self (s : Specificity) : s.compare s = .eq :=
  Std.ReflCmp.compare_self

variable {s t u : Specificity}

theorem atMost_iff : s.atMost t = true ↔ (s.compare t).isLE = true := by
  cases compared : s.compare t <;> simp [atMost, compared]

theorem atMost_trans (first : s.atMost t = true) (second : t.atMost u = true) :
    s.atMost u = true := by
  rw [atMost_iff] at first second ⊢
  exact Std.TransCmp.isLE_trans first second

theorem atMost_antisymm (first : s.atMost t = true) (second : t.atMost s = true) : s = t := by
  rw [atMost_iff] at first second
  exact Std.LawfulEqCmp.eq_of_compare (Std.OrientedCmp.isLE_antisymm first second)

theorem atMost_total (s t : Specificity) : s.atMost t = true ∨ t.atMost s = true := by
  have swapped : t.compare s = (s.compare t).swap := Std.OrientedCmp.eq_swap
  rw [atMost_iff, atMost_iff, swapped]
  cases s.compare t <;> simp

theorem compare_eq_gt_iff_outranks : s.compare t = .gt ↔ s.Outranks t := by
  simp only [compare, Ordering.then_eq_gt, Std.compare_eq_gt, Std.LawfulEqOrd.compare_eq_iff_eq,
    Outranks, Fin.exists_fin_succ, Fin.forall_fin_succ]
  simp [count]
  tauto

end Specificity

/-!
# Tallies in order
-/

namespace Tally

theorem compare_add_right (s t u : Tally) : (s + u).compare (t + u) = s.compare t := by
  have shifted (m n k : Nat) : Ord.compare (m + k) (n + k) = Ord.compare m n := by
    change compareOfLessAndEq (m + k) (n + k) = compareOfLessAndEq m n
    simp only [compareOfLessAndEq, Nat.add_lt_add_iff_right, Nat.add_right_cancel_iff]
  simp only [compare, add_def, shifted]

theorem zero_compare {tally : Tally} (counts : tally ≠ 0) : compare 0 tally = .lt := by
  simp only [compare, zero_def, Ordering.then_eq_lt, Nat.compare_eq_lt, Nat.compare_eq_eq]
  by_contra nothing
  apply counts
  rw [zero_def]
  ext <;> simp only <;> omega

theorem compare_add_left {more : Tally} (tally : Tally) (counts : more ≠ 0) :
    tally.compare (more + tally) = .lt := by
  have shifted := compare_add_right 0 more tally
  rw [zero_add] at shifted
  rw [shifted, zero_compare counts]

/-- The universal selector and a term for an element that is not flagged inline add nothing. -/
theorem of_singleton_eq_zero_iff {term : SimpleSelector} :
    of [term] = 0 ↔ term = .universal ∨ exists owner, term = .element owner false := by
  cases term with
  | element owner inline =>
      cases inline <;> simp [of, zero_def]
  | _ =>
      simp [of, zero_def]

end Tally

/-!
# Additions
-/

/-- What can be added to a selector: a whole part, or a term in a part. -/
inductive Addition where
  | part (part : CompoundSelector)
  | term (term : SimpleSelector)
deriving DecidableEq, Repr

def Addition.terms : Addition → List SimpleSelector
  | .part added => added.terms
  | .term added => [added]

namespace Selector

/-- With the additions, each of them at some place, the first selector becomes the second one. -/
inductive Gains : List Addition → Selector → Selector → Prop
  | nothing (selector : Selector) : Gains [] selector selector
  | part {before after : List CompoundSelector} {part : CompoundSelector}
      {additions : List Addition} {grown : Selector}
      (further : Gains additions ⟨before ++ part :: after⟩ grown) :
      Gains (.part part :: additions) ⟨before ++ after⟩ grown
  | term {before after : List CompoundSelector} {combinator : Option Combinator}
      {front back : List SimpleSelector} {term : SimpleSelector}
      {additions : List Addition} {grown : Selector}
      (further : Gains additions
        ⟨before ++ ⟨combinator, front ++ term :: back⟩ :: after⟩ grown) :
      Gains (.term term :: additions) ⟨before ++ ⟨combinator, front ++ back⟩ :: after⟩ grown

variable {additions : List Addition} {selector grown : Selector}

/-- Wherever the additions are placed, their terms are what the selector gains. -/
theorem Gains.terms_perm (gains : Gains additions selector grown) :
    grown.terms.Perm (additions.flatMap Addition.terms ++ selector.terms) := by
  induction gains with
  | nothing selector =>
      exact .refl _
  | part _ ih =>
      refine ih.trans (List.perm_iff_count.mpr ?_)
      intro term
      simp only [Selector.terms, Addition.terms, List.flatMap_append, List.flatMap_cons,
        List.count_append]
      omega
  | term _ ih =>
      refine ih.trans (List.perm_iff_count.mpr ?_)
      intro term
      simp only [Selector.terms, Addition.terms, List.flatMap_append, List.flatMap_cons,
        List.count_append, List.count_cons, List.count_nil]
      omega

theorem Gains.tally (gains : Gains additions selector grown) :
    Tally.of grown.terms =
      Tally.of (additions.flatMap Addition.terms) + Tally.of selector.terms := by
  rw [Tally.of_perm gains.terms_perm, Tally.of_append]

theorem Gains.few (gains : Gains additions selector grown) (few : grown.terms.length < 2 ^ 32) :
    selector.terms.length < 2 ^ 32 := by
  have length := gains.terms_perm.length_eq
  rw [List.length_append] at length
  omega

theorem compare_of_few {s t : Selector} (left : s.terms.length < 2 ^ 32)
    (right : t.terms.length < 2 ^ 32) :
    s.specificity.compare t.specificity = (Tally.of s.terms).compare (Tally.of t.terms) :=
  compare_of_fits s.specificity_eq_words (Tally.of_fits left) right

theorem Gains.compare {s t more others : Selector} (left : Gains additions s more)
    (right : Gains additions t others) (leftFew : more.terms.length < 2 ^ 32)
    (rightFew : others.terms.length < 2 ^ 32) :
    more.specificity.compare others.specificity = s.specificity.compare t.specificity := by
  rw [compare_of_few leftFew rightFew, compare_of_few (left.few leftFew) (right.few rightFew),
    left.tally, right.tally, add_comm, add_comm _ (Tally.of t.terms), Tally.compare_add_right]

theorem Gains.specificity_eq {term : SimpleSelector} (gains : Gains [.term term] selector grown)
    (idle : Tally.of [term] = 0) : grown.specificity = selector.specificity := by
  have tally := gains.tally
  rw [List.flatMap_singleton, Addition.terms, idle, zero_add] at tally
  rw [specificity_eq_words, specificity_eq_words, tally]

theorem Gains.compare_eq_lt {term : SimpleSelector} (gains : Gains [.term term] selector grown)
    (few : grown.terms.length < 2 ^ 32) (counts : Tally.of [term] ≠ 0) :
    selector.specificity.compare grown.specificity = .lt := by
  have tally := gains.tally
  rw [List.flatMap_singleton, Addition.terms] at tally
  rw [compare_of_few (gains.few few) few, tally]
  exact Tally.compare_add_left _ counts

end Selector

/-- Specificities are in a linear order, in which the first difference decides. Adding the same to
two selectors, wherever it is put in each of them, leaves their order as it was. A term more never
makes a selector weaker, and it makes it stronger unless it is the universal selector or a term for
an element that is not flagged inline, which change nothing. -/
theorem extension_respects_order :
    (forall additions s more t others,
      Selector.Gains additions s more → Selector.Gains additions t others →
      more.terms.length < 2 ^ 32 → others.terms.length < 2 ^ 32 →
        more.specificity.compare others.specificity = s.specificity.compare t.specificity) ∧
      (forall term selector grown, Selector.Gains [.term term] selector grown →
        grown.terms.length < 2 ^ 32 →
          selector.specificity.atMost grown.specificity = true ∧
            ((term = .universal ∨ exists owner, term = .element owner false) →
              grown.specificity = selector.specificity) ∧
            (¬ (term = .universal ∨ exists owner, term = .element owner false) →
              selector.specificity.compare grown.specificity = .lt)) ∧
      (forall part : CompoundSelector, part.specificity = (Selector.single part).specificity) ∧
      forall s t u : Specificity,
        s.compare s = .eq ∧
          (s.atMost t = true → t.atMost s = true → s = t) ∧
          (s.atMost t = true → t.atMost u = true → s.atMost u = true) ∧
          (s.atMost t = true ∨ t.atMost s = true) ∧
          (s.compare t = .gt ↔ s.Outranks t) := by
  refine ⟨?_, ?_, ?_, ?_⟩
  · intro additions s more t others left right
    exact left.compare right
  · intro term selector grown gains few
    rw [← Tally.of_singleton_eq_zero_iff]
    refine ⟨?_, gains.specificity_eq, gains.compare_eq_lt few⟩
    rw [Specificity.atMost_iff]
    by_cases idle : Tally.of [term] = 0
    · rw [gains.specificity_eq idle, Specificity.compare_self]
      rfl
    · rw [gains.compare_eq_lt few idle]
      rfl
  · intro part
    rfl
  · intro s t u
    exact ⟨s.compare_self, Specificity.atMost_antisymm, Specificity.atMost_trans,
      Specificity.atMost_total s t, Specificity.compare_eq_gt_iff_outranks⟩

/-- An identifier outranks two classes, and still does when both sides get the same type and the
same inline term at different places. If the classes alone had them, they would outrank it. -/
theorem extended_identifier_outranks_classes :
    let added : CompoundSelector := ⟨some .child, [.type "p"]⟩
    let inline : SimpleSelector := .element .null true
    let s := Selector.single ⟨none, [.id "main"]⟩
    let t := Selector.single ⟨none, [.className "note", .className "wide"]⟩
    let more : Selector := ⟨[⟨none, [inline, .id "main"]⟩, added]⟩
    let others : Selector :=
      ⟨[⟨some .child, [.type "p", inline]⟩, ⟨none, [.className "note", .className "wide"]⟩]⟩
    Selector.Gains [.part added, .term inline] s more ∧
      Selector.Gains [.part added, .term inline] t others ∧
      more.specificity.compare others.specificity = .gt ∧
      s.specificity.compare others.specificity = .lt := by
  intro added inline s t more others
  have left : Selector.Gains [.part added, .term inline] s more :=
    @Selector.Gains.part [_] [] _ _ _ (@Selector.Gains.term [] _ none [] _ _ _ _ (.nothing _))
  have right : Selector.Gains [.part added, .term inline] t others :=
    @Selector.Gains.part [] _ _ _ _ (@Selector.Gains.term [] _ _ [_] [] _ _ _ (.nothing _))
  have kept := extension_respects_order.left _ s more t others left right (by decide) (by decide)
  have before : s.specificity.compare t.specificity = .gt := by decide
  exact ⟨left, right, kept.trans before, by decide⟩

end StyleRules

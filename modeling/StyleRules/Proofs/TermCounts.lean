import Mathlib.Data.List.Perm.Basic
import StyleRules.Proofs.Counting

/-!
# What specificity counts

The specificity of a selector is the tally of the terms in all its parts, and
no count overflows on the way as long as the tally fits into words. In which
order the terms stand, how they are spread over parts, how the parts are related
and what the terms name makes no difference.
-/

namespace StyleRules

namespace Specificity

def lastCount : UInt32 := 4294967295

/-- The count that a term adds to, if it adds to any. -/
def countFor (specificity : Specificity) : SimpleSelector → Option UInt32
  | .universal | .element _ false => none
  | .element _ true => some specificity.inline
  | .id _ => some specificity.ids
  | .className _ | .attribute _ | .pseudoClass _ | .pagePseudo _ => some specificity.classes
  | .type _ | .pseudoElement _ => some specificity.types

/-- Counts a term, unless that is an overflow. -/
def countTerm? (specificity : Specificity) (term : SimpleSelector) : Option Specificity :=
  if specificity.countFor term = some lastCount then none else some (specificity.countTerm term)

def countPart? (specificity : Specificity) (part : CompoundSelector) : Option Specificity :=
  part.terms.foldlM countTerm? specificity

end Specificity

/-- The specificity of a selector, unless some count of it overflows on the way. -/
def Selector.specificity? (selector : Selector) : Option Specificity :=
  selector.parts.foldlM Specificity.countPart? Specificity.zero

namespace Tally

variable {tally : Tally}

theorem fits_iff : tally.Fits ↔ tally.inline < 2 ^ 32 ∧ tally.ids < 2 ^ 32 ∧
    tally.classes < 2 ^ 32 ∧ tally.types < 2 ^ 32 :=
  ⟨fun ⟨inline, ids, classes, types⟩ => ⟨inline, ids, classes, types⟩,
    fun ⟨inline, ids, classes, types⟩ => ⟨inline, ids, classes, types⟩⟩

instance (tally : Tally) : Decidable tally.Fits :=
  decidable_of_iff _ fits_iff.symm

theorem ofNat_eq_lastCount {n : Nat} (fits : n < 2 ^ 32) :
    UInt32.ofNat n = Specificity.lastCount ↔ 2 ^ 32 ≤ n + 1 := by
  rw [← UInt32.toNat_inj, UInt32.toNat_ofNat_of_lt' fits]
  simp only [Specificity.lastCount, UInt32.reduceToNat]
  omega

theorem countFor_eq_lastCount_iff (fits : tally.Fits) (term : SimpleSelector) :
    tally.words.countFor term = some Specificity.lastCount ↔ ¬ (tally + of [term]).Fits := by
  have inline := fits.inline
  have ids := fits.ids
  have classes := fits.classes
  have types := fits.types
  cases term with
  | element owner flag =>
      cases flag <;>
        simp [Specificity.countFor, words, of, add_def, fits_iff, ofNat_eq_lastCount inline] <;>
        omega
  | _ =>
      simp [Specificity.countFor, words, of, add_def, fits_iff, ofNat_eq_lastCount ids,
        ofNat_eq_lastCount classes, ofNat_eq_lastCount types]
      omega

theorem countTerm?_words (fits : tally.Fits) (term : SimpleSelector) :
    tally.words.countTerm? term =
      if (tally + of [term]).Fits then some (tally + of [term]).words else none := by
  rw [Specificity.countTerm?, countTerm_words]
  by_cases room : (tally + of [term]).Fits
  · rw [if_pos room, if_neg (mt (countFor_eq_lastCount_iff fits term).mp (not_not_intro room))]
  · rw [if_neg room, if_pos ((countFor_eq_lastCount_iff fits term).mpr room)]

theorem Fits.of_add {more : Tally} (fits : (tally + more).Fits) : tally.Fits where
  inline := Nat.lt_of_le_of_lt (Nat.le_add_right _ _) fits.inline
  ids := Nat.lt_of_le_of_lt (Nat.le_add_right _ _) fits.ids
  classes := Nat.lt_of_le_of_lt (Nat.le_add_right _ _) fits.classes
  types := Nat.lt_of_le_of_lt (Nat.le_add_right _ _) fits.types

/-- Counting stops exactly if the tally of all terms does not fit. -/
theorem foldlM_countTerm? (fits : tally.Fits) (terms : List SimpleSelector) :
    terms.foldlM Specificity.countTerm? tally.words =
      if (tally + of terms).Fits then some (tally + of terms).words else none := by
  induction terms generalizing tally with
  | nil =>
      exact (if_pos fits).symm
  | cons term terms ih =>
      have split : tally + of (term :: terms) = tally + of [term] + of terms := by
        rw [add_assoc, ← of_append, List.singleton_append]
      rw [List.foldlM_cons, countTerm?_words fits, split]
      by_cases room : (tally + of [term]).Fits
      · rw [if_pos room]
        exact ih room
      · rw [if_neg room, if_neg (mt Fits.of_add room)]
        rfl

end Tally

theorem Specificity.foldlM_countPart? (specificity : Specificity)
    (parts : List CompoundSelector) :
    parts.foldlM countPart? specificity =
      (parts.flatMap CompoundSelector.terms).foldlM countTerm? specificity := by
  induction parts generalizing specificity with
  | nil =>
      rfl
  | cons part parts ih =>
      rw [List.foldlM_cons, List.flatMap_cons, List.foldlM_append]
      exact bind_congr ih

theorem Selector.specificity?_eq (selector : Selector) :
    selector.specificity? =
      if (Tally.of selector.terms).Fits then some selector.specificity else none := by
  have start : (0 : Tally).Fits := by decide
  have counted := Tally.foldlM_countTerm? start selector.terms
  rw [zero_add] at counted
  rw [specificity_eq_words, specificity?, Specificity.foldlM_countPart?]
  exact counted

/-!
# Part by part
-/

theorem Tally.of_flatMap (parts : List CompoundSelector) :
    of (parts.flatMap CompoundSelector.terms) = (parts.map fun part => of part.terms).sum := by
  induction parts with
  | nil =>
      rfl
  | cons part parts ih =>
      rw [List.flatMap_cons, of_append, ih, List.map_cons, List.sum_cons]

namespace Selector

variable {selector : Selector}

theorem length_terms_le {part : CompoundSelector} (member : part ∈ selector.parts) :
    part.terms.length ≤ selector.terms.length := by
  rw [terms, List.flatMap_def]
  exact (List.sublist_flatten_of_mem (List.mem_map_of_mem member)).length_le

theorem tally_specificity_eq_sum (few : selector.terms.length < 2 ^ 32) :
    selector.specificity.tally =
      (selector.parts.map fun part => part.specificity.tally).sum := by
  have each : selector.parts.map (fun part => part.specificity.tally) =
      selector.parts.map fun part => Tally.of part.terms := by
    refine List.map_congr_left ?_
    intro part member
    exact CompoundSelector.tally_specificity (Nat.lt_of_le_of_lt (length_terms_le member) few)
  rw [each, tally_specificity few, terms, Tally.of_flatMap]

theorem tally_specificity_append (s t : Selector)
    (few : (Selector.mk (s.parts ++ t.parts)).terms.length < 2 ^ 32) :
    (Selector.mk (s.parts ++ t.parts)).specificity.tally =
      s.specificity.tally + t.specificity.tally := by
  have joined : (Selector.mk (s.parts ++ t.parts)).terms = s.terms ++ t.terms :=
    List.flatMap_append
  have length := congrArg List.length joined
  rw [List.length_append] at length
  rw [tally_specificity few, tally_specificity (by omega), tally_specificity (by omega), joined,
    Tally.of_append]

end Selector

/-!
# What makes no difference
-/

/-- The kind of a term, and its flag if it has one, with all names and values left out. -/
def SimpleSelector.form : SimpleSelector → SimpleSelector
  | .universal => .universal
  | .type _ => .type ""
  | .className _ => .className ""
  | .id _ => .id ""
  | .attribute _ => .attribute (.present "")
  | .pseudoClass _ => .pseudoClass ""
  | .pseudoElement _ => .pseudoElement ""
  | .pagePseudo _ => .pagePseudo ⟨""⟩
  | .element _ inline => .element .null inline

/-- The selector becomes the other one by changes of order, of the borders between parts, of
combinators, and of what the terms name. -/
inductive Selector.Recast : Selector → Selector → Prop
  | parts {parts others : List CompoundSelector} (perm : parts.Perm others) :
      Recast ⟨parts⟩ ⟨others⟩
  | terms {before after : List CompoundSelector} {combinator : Option Combinator}
      {terms others : List SimpleSelector} (perm : terms.Perm others) :
      Recast ⟨before ++ ⟨combinator, terms⟩ :: after⟩ ⟨before ++ ⟨combinator, others⟩ :: after⟩
  | split {before pieces after : List CompoundSelector} {part : CompoundSelector}
      (whole : pieces.flatMap CompoundSelector.terms = part.terms) :
      Recast ⟨before ++ part :: after⟩ ⟨before ++ pieces ++ after⟩
  | merge {before pieces after : List CompoundSelector} {part : CompoundSelector}
      (whole : pieces.flatMap CompoundSelector.terms = part.terms) :
      Recast ⟨before ++ pieces ++ after⟩ ⟨before ++ part :: after⟩
  | relate {before after : List CompoundSelector} {terms : List SimpleSelector}
      (combinator other : Option Combinator) :
      Recast ⟨before ++ ⟨combinator, terms⟩ :: after⟩ ⟨before ++ ⟨other, terms⟩ :: after⟩
  | rename {before after : List CompoundSelector} {combinator : Option Combinator}
      {front back : List SimpleSelector} {term other : SimpleSelector}
      (form : term.form = other.form) :
      Recast ⟨before ++ ⟨combinator, front ++ term :: back⟩ :: after⟩
        ⟨before ++ ⟨combinator, front ++ other :: back⟩ :: after⟩
  | trans {first second third : Selector} (begun : Recast first second)
      (continued : Recast second third) : Recast first third

theorem Tally.of_map_form (terms : List SimpleSelector) :
    of (terms.map SimpleSelector.form) = of terms := by
  have kept {p : SimpleSelector → Bool} (same : forall term, p term.form = p term) :
      (terms.map SimpleSelector.form).countP p = terms.countP p := by
    rw [List.countP_map]
    exact List.countP_congr fun term _ => by rw [Function.comp_apply, same]
  refine Tally.ext (kept ?_) (kept ?_) (kept ?_) (kept ?_) <;>
    · intro term
      cases term <;> rfl

namespace Selector

variable {selector other : Selector}

/-- The terms are the same but for their order and what they name. -/
theorem Recast.forms_perm (recast : selector.Recast other) :
    (selector.terms.map SimpleSelector.form).Perm (other.terms.map SimpleSelector.form) := by
  induction recast with
  | parts perm =>
      exact (perm.flatMap_right CompoundSelector.terms).map SimpleSelector.form
  | terms perm =>
      simp only [Selector.terms, List.flatMap_append, List.flatMap_cons]
      exact ((perm.append_right _).append_left _).map SimpleSelector.form
  | split whole | merge whole =>
      simp only [Selector.terms, List.flatMap_append, List.flatMap_cons, whole, List.append_assoc]
      exact .refl _
  | relate combinator other =>
      simp only [Selector.terms, List.flatMap_append, List.flatMap_cons]
      exact .refl _
  | rename form =>
      simp only [Selector.terms, List.flatMap_append, List.flatMap_cons, List.map_append,
        List.map_cons, form]
      exact .refl _
  | trans _ _ begun continued =>
      exact begun.trans continued

theorem Recast.specificity_eq (recast : selector.Recast other) :
    other.specificity = selector.specificity := by
  rw [specificity_eq_words, specificity_eq_words, ← Tally.of_map_form other.terms,
    ← Tally.of_map_form selector.terms, Tally.of_perm recast.forms_perm]

end Selector

/-- While there are fewer terms than words can count, no count of them overflows, and the
specificity of a selector says how many of its terms there are on each level. It is the sum of the
specificities of the parts, and that of a chain is the sum of those of its halves, wherever it is
cut. It stays the same when terms or parts change places, when parts are split or merged, and
whatever the combinators are and the terms name. -/
theorem specificity_counts_terms {selector : Selector}
    (few : selector.terms.length < 2 ^ 32) :
    selector.specificity? = some selector.specificity ∧
      selector.specificity.tally = Tally.of selector.terms ∧
      selector.specificity.tally =
        (selector.parts.map fun part => part.specificity.tally).sum ∧
      (forall s t : Selector, s.parts ++ t.parts = selector.parts →
        selector.specificity.tally = s.specificity.tally + t.specificity.tally) ∧
      forall other, selector.Recast other → other.specificity = selector.specificity := by
  refine ⟨?_, Selector.tally_specificity few, Selector.tally_specificity_eq_sum few, ?_, ?_⟩
  · rw [Selector.specificity?_eq, if_pos (Tally.of_fits few)]
  · rintro s t joined
    have whole : Selector.mk (s.parts ++ t.parts) = selector := congrArg Selector.mk joined
    rw [← whole] at few ⊢
    exact Selector.tally_specificity_append s t few
  · intro other recast
    exact recast.specificity_eq

/-- A chain with terms on all levels counts the same when it is merged into one part. -/
theorem merged_chain_counts_the_same :
    let first : CompoundSelector := ⟨none, [.universal, .id "main", .element .null true]⟩
    let second : CompoundSelector :=
      ⟨some .child, [.type "p", .attribute ⟨"lang", .dashMatch, some "en"⟩, .pagePseudo .first,
        .pseudoElement "after", .element .null false]⟩
    let chain : Selector := ⟨[first, second]⟩
    let merged : Selector := ⟨[⟨none, first.terms ++ second.terms⟩]⟩
    chain.terms.length < 2 ^ 32 ∧ chain.specificity? = some ⟨1, 1, 2, 2⟩ ∧
      chain.specificity.tally = ⟨1, 1, 2, 2⟩ ∧ merged.specificity = chain.specificity := by
  intro first second chain merged
  have few : chain.terms.length < 2 ^ 32 := by
    decide
  rcases specificity_counts_terms few with ⟨counted, tallied, _, _, recast⟩
  have joined : chain.Recast merged := @Selector.Recast.merge [] [first, second] [] _ rfl
  exact ⟨few, counted, tallied, recast merged joined⟩

end StyleRules

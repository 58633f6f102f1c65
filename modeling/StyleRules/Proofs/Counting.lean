import Mathlib.Algebra.Group.Nat.Defs
import StyleRules.Selector.Specificity

/-!
# Specificity as counts

A specificity holds four counts of the terms of a selector, in words of 32 bits.
As numbers without a bound they are the tally of the terms. While a tally fits
into words, nothing is lost: specificities then compare as their tallies do.
-/

namespace StyleRules

/-!
# Levels of terms

Every term counts on one level at most. The universal selector and a term for an
element that is not flagged inline count on none.
-/

namespace SimpleSelector

@[simp] def isInline : SimpleSelector → Bool
  | .element _ inline => inline
  | _ => false

@[simp] def isId : SimpleSelector → Bool
  | .id _ => true
  | _ => false

@[simp] def countsAsClass : SimpleSelector → Bool
  | .className _ | .attribute _ | .pseudoClass _ | .pagePseudo _ => true
  | _ => false

@[simp] def countsAsType : SimpleSelector → Bool
  | .type _ | .pseudoElement _ => true
  | _ => false

theorem isInline_iff {term : SimpleSelector} :
    term.isInline = true ↔ exists owner, term = .element owner true := by
  cases term <;> simp

end SimpleSelector

def Selector.terms (selector : Selector) : List SimpleSelector :=
  selector.parts.flatMap CompoundSelector.terms

/-- The counts of a specificity as numbers. -/
@[ext] structure Tally where
  inline : Nat
  ids : Nat
  classes : Nat
  types : Nat
deriving DecidableEq, Repr

namespace Tally

instance : Zero Tally :=
  ⟨⟨0, 0, 0, 0⟩⟩

instance : Add Tally :=
  ⟨fun s t => ⟨s.inline + t.inline, s.ids + t.ids, s.classes + t.classes, s.types + t.types⟩⟩

def of (terms : List SimpleSelector) : Tally where
  inline := terms.countP SimpleSelector.isInline
  ids := terms.countP SimpleSelector.isId
  classes := terms.countP SimpleSelector.countsAsClass
  types := terms.countP SimpleSelector.countsAsType

/-- The specificity with these counts, as far as words can hold them. -/
def words (tally : Tally) : Specificity :=
  ⟨.ofNat tally.inline, .ofNat tally.ids, .ofNat tally.classes, .ofNat tally.types⟩

def compare (s t : Tally) : Ordering :=
  (Ord.compare s.inline t.inline).then <|
    (Ord.compare s.ids t.ids).then <|
      (Ord.compare s.classes t.classes).then (Ord.compare s.types t.types)

structure Fits (tally : Tally) : Prop where
  inline : tally.inline < 2 ^ 32
  ids : tally.ids < 2 ^ 32
  classes : tally.classes < 2 ^ 32
  types : tally.types < 2 ^ 32

section

variable {terms : List SimpleSelector}

theorem of_inline_eq_zero (plain : forall owner, .element owner true ∉ terms) :
    (of terms).inline = 0 := by
  refine List.countP_eq_zero.mpr ?_
  intro term member inline
  rcases SimpleSelector.isInline_iff.mp inline with ⟨owner, rfl⟩
  exact plain owner member

theorem of_inline_pos {owner : ElementId} (member : .element owner true ∈ terms) :
    0 < (of terms).inline :=
  List.countP_pos_iff.mpr ⟨_, member, rfl⟩

theorem of_ids_pos {name : String} (member : .id name ∈ terms) : 0 < (of terms).ids :=
  List.countP_pos_iff.mpr ⟨_, member, rfl⟩

end

theorem of_fits {terms : List SimpleSelector} (few : terms.length < 2 ^ 32) :
    (of terms).Fits := by
  have bounded (p : SimpleSelector → Bool) : terms.countP p < 2 ^ 32 :=
    Nat.lt_of_le_of_lt List.countP_le_length few
  exact ⟨bounded _, bounded _, bounded _, bounded _⟩

/-!
# Adding tallies

The tally of terms that follow one another is the sum of their tallies, and in
whatever order they come it is the same.
-/

theorem zero_def : (0 : Tally) = ⟨0, 0, 0, 0⟩ :=
  rfl

theorem add_def (s t : Tally) :
    s + t = ⟨s.inline + t.inline, s.ids + t.ids, s.classes + t.classes, s.types + t.types⟩ :=
  rfl

instance : AddCommMonoid Tally where
  zero_add _ := Tally.ext (Nat.zero_add _) (Nat.zero_add _) (Nat.zero_add _) (Nat.zero_add _)
  add_zero _ := Tally.ext (Nat.add_zero _) (Nat.add_zero _) (Nat.add_zero _) (Nat.add_zero _)
  add_assoc _ _ _ := Tally.ext (Nat.add_assoc _ _ _) (Nat.add_assoc _ _ _) (Nat.add_assoc _ _ _)
    (Nat.add_assoc _ _ _)
  add_comm _ _ := Tally.ext (Nat.add_comm _ _) (Nat.add_comm _ _) (Nat.add_comm _ _)
    (Nat.add_comm _ _)
  nsmul := nsmulRec

theorem of_append (earlier later : List SimpleSelector) :
    of (earlier ++ later) = of earlier + of later :=
  Tally.ext List.countP_append List.countP_append List.countP_append List.countP_append

theorem of_perm {terms others : List SimpleSelector} (perm : terms.Perm others) :
    of terms = of others :=
  Tally.ext (perm.countP_eq _) (perm.countP_eq _) (perm.countP_eq _) (perm.countP_eq _)

/-!
# Counting term by term
-/

theorem countTerm_words (tally : Tally) (term : SimpleSelector) :
    tally.words.countTerm term = (tally + of [term]).words := by
  cases term with
  | element owner inline =>
      cases inline <;> simp [Specificity.countTerm, words, of, add_def]
  | _ =>
      simp [Specificity.countTerm, words, of, add_def]

theorem foldl_countTerm (tally : Tally) (terms : List SimpleSelector) :
    terms.foldl Specificity.countTerm tally.words = (tally + of terms).words := by
  induction terms generalizing tally with
  | nil =>
      rfl
  | cons term terms ih =>
      rw [List.foldl_cons, countTerm_words, ih, add_assoc, ← of_append, List.singleton_append]

end Tally

theorem CompoundSelector.specificity_eq_words (part : CompoundSelector) :
    part.specificity = (Tally.of part.terms).words := by
  have counted := Tally.foldl_countTerm 0 part.terms
  rw [zero_add] at counted
  exact counted

/-- The specificity of a selector is the tally of its terms. -/
theorem Selector.specificity_eq_words (selector : Selector) :
    selector.specificity = (Tally.of selector.terms).words := by
  have counted := Tally.foldl_countTerm 0 selector.terms
  rw [zero_add] at counted
  rw [specificity]
  unfold Selector.terms at counted
  rw [List.foldl_flatMap] at counted
  exact counted

def Specificity.tally (specificity : Specificity) : Tally where
  inline := specificity.inline.toNat
  ids := specificity.ids.toNat
  classes := specificity.classes.toNat
  types := specificity.types.toNat

theorem Tally.tally_words {tally : Tally} (fits : tally.Fits) : tally.words.tally = tally :=
  Tally.ext (UInt32.toNat_ofNat_of_lt' fits.inline) (UInt32.toNat_ofNat_of_lt' fits.ids)
    (UInt32.toNat_ofNat_of_lt' fits.classes) (UInt32.toNat_ofNat_of_lt' fits.types)

theorem CompoundSelector.tally_specificity {part : CompoundSelector}
    (few : part.terms.length < 2 ^ 32) : part.specificity.tally = Tally.of part.terms := by
  rw [specificity_eq_words]
  exact Tally.tally_words (Tally.of_fits few)

theorem Selector.tally_specificity {selector : Selector}
    (few : selector.terms.length < 2 ^ 32) :
    selector.specificity.tally = Tally.of selector.terms := by
  rw [specificity_eq_words]
  exact Tally.tally_words (Tally.of_fits few)

/-!
# Comparing
-/

theorem compare_ofNat {m n : Nat} (left : m < 2 ^ 32) (right : n < 2 ^ 32) :
    Ord.compare (UInt32.ofNat m) (UInt32.ofNat n) = Ord.compare m n := by
  have less : UInt32.ofNat m < UInt32.ofNat n ↔ m < n := by
    rw [UInt32.lt_iff_toNat_lt, UInt32.toNat_ofNat_of_lt' left, UInt32.toNat_ofNat_of_lt' right]
  have same : UInt32.ofNat m = UInt32.ofNat n ↔ m = n := by
    rw [← UInt32.toNat_inj, UInt32.toNat_ofNat_of_lt' left, UInt32.toNat_ofNat_of_lt' right]
  change compareOfLessAndEq (UInt32.ofNat m) (UInt32.ofNat n) = compareOfLessAndEq m n
  simp only [compareOfLessAndEq, less, same]

namespace Tally

theorem compare_words {s t : Tally} (left : s.Fits) (right : t.Fits) :
    s.words.compare t.words = s.compare t := by
  rw [Specificity.compare, Tally.compare]
  simp only [words, compare_ofNat left.inline right.inline, compare_ofNat left.ids right.ids,
    compare_ofNat left.classes right.classes, compare_ofNat left.types right.types]

end Tally

theorem Selector.compare_of_fits {s t : Selector} {tally : Tally}
    (counted : s.specificity = tally.words) (fits : tally.Fits) (few : t.terms.length < 2 ^ 32) :
    s.specificity.compare t.specificity = tally.compare (Tally.of t.terms) := by
  rw [counted, specificity_eq_words]
  exact Tally.compare_words fits (Tally.of_fits few)

end StyleRules

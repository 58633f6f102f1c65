import StyleRules.Proofs.Replaying
import StyleRules.Proofs.TermCounts
import StyleRules.Selector.Draft
import StyleRules.Selector.Text

/-!
# Ways to put a selector together

A part is known from the terms that were added to it since it was last begun,
however they were grouped, and from the combinator set last. A chain is known from
the parts that were added to it since it was last begun. A part that is added at
the end adds its separator and its text, is the subject, and binds as strongly as
it does alone.
-/

namespace StyleRules

theorem ListEdit.foldl_apply_map_push {α : Type} (items pushed : List α) :
    (pushed.map ListEdit.push).foldl apply items = items ++ pushed := by
  rw [List.foldl_map]
  exact foldl_concat items pushed

namespace CompoundSelector

/-- What the edit does to the terms, one at a time. -/
def Edit.termEdits : Edit → List (ListEdit SimpleSelector)
  | .restart part => [.replaceAll part.terms]
  | .push term => [.push term]
  | .extend terms => terms.map .push
  | .setCombinator _ => []

/-- The combinator that the edit sets, as beginning again does too. -/
def Edit.combinator? : Edit → Option (Option Combinator)
  | .restart part => some part.combinator
  | .setCombinator combinator => some combinator
  | .push _ | .extend _ => none

/-- The terms that were added since the part was last begun. -/
def termsAdded (edits : List Edit) : List SimpleSelector :=
  ListEdit.replay (edits.flatMap Edit.termEdits)

def combinatorSet (edits : List Edit) : Option Combinator :=
  (lastSetting Edit.combinator? edits).getD none

def ofEdits (edits : List Edit) : CompoundSelector :=
  ⟨combinatorSet edits, termsAdded edits⟩

theorem terms_apply (part : CompoundSelector) (edit : Edit) :
    (part.apply edit).terms = edit.termEdits.foldl ListEdit.apply part.terms := by
  cases edit with
  | restart _ | push _ | setCombinator _ =>
      rfl
  | extend terms =>
      exact (ListEdit.foldl_apply_map_push part.terms terms).symm

theorem foldl_apply (edits : List Edit) : edits.foldl apply empty = ofEdits edits := by
  have combinator : (edits.foldl apply empty).combinator = combinatorSet edits := by
    refine foldl_field_setting ?_ empty edits
    intro part edit
    cases edit <;> rfl
  have terms : (edits.foldl apply empty).terms = termsAdded edits := by
    rw [termsAdded, ← ListEdit.foldl_apply, List.foldl_flatMap]
    exact (List.foldl_hom CompoundSelector.terms fun part edit =>
      (terms_apply part edit).symm).symm
  calc
    edits.foldl apply empty = ⟨combinatorSet edits, termsAdded edits⟩ := by
      rw [← combinator, ← terms]
    _ = ofEdits edits := rfl

theorem ofEdits_concat (edits : List Edit) (edit : Edit) :
    ofEdits (edits ++ [edit]) = (ofEdits edits).apply edit := by
  rw [← foldl_apply, ← foldl_apply, List.foldl_append]
  rfl

end CompoundSelector

namespace SelectorDraft

/-- All that was done to the part at hand and to the chain, with nothing carried out. -/
structure Trail where
  part : List CompoundSelector.Edit
  chain : List (ListEdit CompoundSelector)
deriving DecidableEq, Repr

namespace Trail

/-- The parts that were added since the chain was last begun. -/
def partsAdded (trail : Trail) : List CompoundSelector :=
  ListEdit.replay trail.chain

/-- Beginning the part again as a copy of the subject is an edit of the part like others. -/
def extend (trail : Trail) : Edit → Trail
  | .editPart edit => { trail with part := trail.part ++ [edit] }
  | .takeSubject =>
      match trail.partsAdded.getLast? with
      | some subject => { trail with part := trail.part ++ [.restart subject] }
      | none => trail
  | .restartChain => { trail with chain := trail.chain ++ [.replaceAll []] }
  | .restartFromPart =>
      { trail with chain := trail.chain ++ [.replaceAll [.ofEdits trail.part]] }
  | .pushPart => { trail with chain := trail.chain ++ [.push (.ofEdits trail.part)] }

def ofEdits (edits : List Edit) : Trail :=
  edits.foldl extend ⟨[], []⟩

/-- The draft that the trail leads to. -/
def draft (trail : Trail) : SelectorDraft :=
  ⟨.ofEdits trail.part, ⟨trail.partsAdded⟩⟩

theorem draft_extend (trail : Trail) (edit : Edit) :
    (trail.extend edit).draft = trail.draft.apply edit := by
  cases edit with
  | editPart edit =>
      simp only [draft, extend, partsAdded, apply, CompoundSelector.ofEdits_concat]
  | takeSubject =>
      simp only [draft, extend, partsAdded, apply, Selector.subject]
      cases (ListEdit.replay trail.chain).getLast? with
      | none =>
          rfl
      | some subject =>
          simp only [CompoundSelector.ofEdits_concat]
          rfl
  | restartChain | restartFromPart | pushPart =>
      simp only [draft, extend, partsAdded, apply, ListEdit.replay_concat]
      rfl

theorem draft_ofEdits (edits : List Edit) : (ofEdits edits).draft = applyAll empty edits :=
  (List.foldl_hom draft fun trail edit => (draft_extend trail edit).symm).symm

end Trail

/-!
# Edits of the part alone
-/

/-- The edit of the part at hand, unless it is begun again as a copy. -/
def Edit.partEdit? : Edit → Option CompoundSelector.Edit
  | .editPart edit => some edit
  | .takeSubject | .restartChain | .restartFromPart | .pushPart => none

def Edit.isOfPart : Edit → Bool
  | .editPart _ | .takeSubject => true
  | .restartChain | .restartFromPart | .pushPart => false

/-- Without copies of the subject, the trail of the part is what was done to it. -/
theorem Trail.part_ofEdits {edits : List Edit} (own : .takeSubject ∉ edits) :
    (ofEdits edits).part = edits.filterMap Edit.partEdit? := by
  induction edits using List.reverseRecOn with
  | nil =>
      rfl
  | append_singleton edits edit ih =>
      rw [List.mem_append, not_or] at own
      rcases own with ⟨before, last⟩
      have extended : ofEdits (edits ++ [edit]) = (ofEdits edits).extend edit :=
        List.foldl_append
      rw [extended, List.filterMap_append, ← ih before]
      cases edit with
      | takeSubject =>
          exact absurd List.mem_cons_self last
      | editPart edit =>
          rfl
      | restartChain | restartFromPart | pushPart =>
          exact (List.append_nil _).symm

theorem selector_applyAll_of_part (draft : SelectorDraft) {edits : List Edit}
    (ofPart : forall edit, edit ∈ edits → edit.isOfPart = true) :
    (draft.applyAll edits).selector = draft.selector := by
  induction edits generalizing draft with
  | nil =>
      rfl
  | cons edit edits ih =>
      rcases List.forall_mem_cons.mp ofPart with ⟨first, others⟩
      have kept : (draft.apply edit).selector = draft.selector := by
        cases edit with
        | editPart _ | takeSubject =>
            rfl
        | restartChain | restartFromPart | pushPart =>
            cases first
      change ((draft.apply edit).applyAll edits).selector = draft.selector
      rw [ih (draft.apply edit) others, kept]

end SelectorDraft

/-!
# Adding a part at the end
-/

instance : Add Specificity :=
  ⟨fun s t => ⟨s.inline + t.inline, s.ids + t.ids, s.classes + t.classes, s.types + t.types⟩⟩

theorem Tally.words_add (s t : Tally) : (s + t).words = s.words + t.words := by
  simp only [words, add_def, UInt32.ofNat_add]
  rfl

namespace Selector

variable (selector : Selector) (part : CompoundSelector)

theorem render_push :
    (selector.push part).render =
      selector.render ++ (if selector.isEmpty then "" else part.separator) ++ part.render := by
  rcases selector with ⟨_ | ⟨first, parts⟩⟩
  · simp [push, render, renderRest, isEmpty]
  · simp [push, render, renderRest, isEmpty, String.append_assoc]

theorem subject_push : (selector.push part).subject = some part :=
  List.getLast?_concat

theorem terms_push : (selector.push part).terms = selector.terms ++ part.terms := by
  rw [terms, push, List.flatMap_append, List.flatMap_singleton]
  rfl

theorem specificity_push :
    (selector.push part).specificity = selector.specificity + part.specificity := by
  rw [specificity_eq_words, terms_push, Tally.of_append, Tally.words_add, specificity_eq_words,
    CompoundSelector.specificity_eq_words]

end Selector

/-- A draft holds the terms that were added since the part was begun and the combinator set last,
and the parts that were added since the chain was begun, as they were then. So it does not matter
how additions are grouped and where between them the combinator is set, and what is done to the
part at hand afterwards leaves the chain as it is. A part that is added at the end adds to the text
its separator, unless it is the first one, and its terms; it is the subject, and its own counts are
added to the specificity, which is without regard to combinators. -/
theorem drafts_hold_what_was_added :
    (forall edits others : List SelectorDraft.Edit,
        let trail := SelectorDraft.Trail.ofEdits edits
        let other := SelectorDraft.Trail.ofEdits others
        let draft := SelectorDraft.applyAll .empty edits
        let same := SelectorDraft.applyAll .empty others
        (draft.part.terms = CompoundSelector.termsAdded trail.part ∧
            draft.part.combinator = CompoundSelector.combinatorSet trail.part ∧
            draft.selector.parts = trail.partsAdded) ∧
          (.takeSubject ∉ edits → trail.part = edits.filterMap SelectorDraft.Edit.partEdit?) ∧
          (CompoundSelector.termsAdded trail.part = CompoundSelector.termsAdded other.part →
            CompoundSelector.combinatorSet trail.part =
              CompoundSelector.combinatorSet other.part →
            draft.part = same.part) ∧
          (trail.partsAdded = other.partsAdded → draft.selector = same.selector)) ∧
      (forall (draft : SelectorDraft) (edits : List SelectorDraft.Edit),
        (forall edit, edit ∈ edits → edit.isOfPart = true) →
          ((draft.apply .pushPart).applyAll edits).selector = draft.selector.push draft.part) ∧
      (forall (part : CompoundSelector) (combinator : Option Combinator),
        (part.setCombinator combinator).terms = part.terms ∧
          (part.setCombinator combinator).specificity = part.specificity) ∧
      forall (selector : Selector) (part : CompoundSelector),
        (selector.push part).render =
            selector.render ++ (if selector.isEmpty then "" else part.separator) ++
              String.join (part.terms.map SimpleSelector.render) ∧
          (selector.push part).subject = some part ∧
          (selector.push part).specificity = selector.specificity + part.specificity ∧
          ((selector.push part).terms.length < 2 ^ 32 →
            (selector.push part).specificity? = some (selector.push part).specificity ∧
              (selector.push part).specificity.tally =
                selector.specificity.tally + part.specificity.tally) := by
  refine ⟨?_, ?_, fun _ _ => ⟨rfl, rfl⟩, ?_⟩
  · intro edits others trail other draft same
    have held : trail.draft = draft := SelectorDraft.Trail.draft_ofEdits edits
    have alike : other.draft = same := SelectorDraft.Trail.draft_ofEdits others
    rw [← held, ← alike]
    refine ⟨⟨rfl, rfl, rfl⟩, SelectorDraft.Trail.part_ofEdits, ?_, ?_⟩
    · intro terms combinator
      exact congrArg₂ CompoundSelector.mk combinator terms
    · intro parts
      exact congrArg Selector.mk parts
  · intro draft edits ofPart
    exact SelectorDraft.selector_applyAll_of_part _ ofPart
  · intro selector part
    refine ⟨selector.render_push part, selector.subject_push part, selector.specificity_push part,
      ?_⟩
    intro few
    rw [Selector.specificity?_eq, if_pos (Tally.of_fits few)]
    exact ⟨rfl, Selector.tally_specificity_append selector (.single part) few⟩

/-- Two ways to one draft. -/
example :
    SelectorDraft.applyAll .empty
        [.editPart (.push (.id "a")), .pushPart, .editPart (.restart (.joined .child)),
          .editPart (.extend [.type "p", .className "b"]), .restartFromPart] =
      SelectorDraft.applyAll .empty
        [.editPart (.push (.type "p")), .editPart (.setCombinator (some .child)),
          .editPart (.push (.className "b")), .pushPart] := by
  decide

end StyleRules

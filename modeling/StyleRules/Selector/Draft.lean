import StyleRules.BuildStep
import StyleRules.Selector.Basic

/-!
# Drafts of selectors

A selector is put together from one compound selector at a time: terms are added
to the part at hand, and copies of the part at hand are added to the chain. An
edit changes one of the two and leaves the other alone.
-/

namespace StyleRules

namespace CompoundSelector

inductive Edit where
  | restart (part : CompoundSelector)
  | push (term : SimpleSelector)
  | extend (terms : List SimpleSelector)
  | setCombinator (combinator : Option Combinator)
deriving DecidableEq, Repr

def apply (part : CompoundSelector) : Edit → CompoundSelector
  | .restart part => part
  | .push term => part.push term
  | .extend terms => part.extend terms
  | .setCombinator combinator => part.setCombinator combinator

end CompoundSelector

structure SelectorDraft where
  part : CompoundSelector
  selector : Selector
deriving DecidableEq, Repr

namespace SelectorDraft

def empty : SelectorDraft :=
  ⟨CompoundSelector.empty, Selector.empty⟩

inductive Edit where
  | editPart (edit : CompoundSelector.Edit)
  /-- The part at hand becomes a copy of the subject of the chain, if it has one. -/
  | takeSubject
  | restartChain
  | restartFromPart
  | pushPart
deriving DecidableEq, Repr

def apply (draft : SelectorDraft) : Edit → SelectorDraft
  | .editPart edit => { draft with part := draft.part.apply edit }
  | .takeSubject => { draft with part := draft.selector.subject.getD draft.part }
  | .restartChain => { draft with selector := Selector.empty }
  | .restartFromPart => { draft with selector := Selector.single draft.part }
  | .pushPart => { draft with selector := draft.selector.push draft.part }

def applyAll (draft : SelectorDraft) (edits : List Edit) : SelectorDraft :=
  edits.foldl apply draft

def subjectIsPart (draft : SelectorDraft) : Bool :=
  draft.selector.subject = some draft.part

def isSinglePart (draft : SelectorDraft) : Bool :=
  draft.selector = Selector.single draft.part

end SelectorDraft

end StyleRules

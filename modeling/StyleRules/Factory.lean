import StyleRules.Error
import StyleRules.Rule.Basic

/-!
# Factories

Preparation asks a factory for everything that it fills in: rules, selectors and
the term for an element. A factory may refuse, it may remember what it was asked
before, and what it hands out need not be empty.
-/

namespace StyleRules

inductive Request where
  | ruleSet
  | media
  | page
  | margin (area : String)
  | viewport
  | fontFace
  | selector
  | compound
  | elementTerm (owner : ElementId) (inline : Bool)
deriving DecidableEq, Repr

abbrev Request.Product : Request → Type
  | .ruleSet => RuleSet
  | .media => MediaRule
  | .page => PageRule
  | .margin _ => MarginRule
  | .viewport => ViewportRule
  | .fontFace => FontFaceRule
  | .selector => Selector
  | .compound => CompoundSelector
  | .elementTerm _ _ => SimpleSelector

inductive RequestKind where
  | ruleSet
  | media
  | page
  | margin
  | viewport
  | fontFace
  | selector
  | compound
  | elementTerm
deriving DecidableEq, Repr

def Request.kind : Request → RequestKind
  | .ruleSet => .ruleSet
  | .media => .media
  | .page => .page
  | .margin _ => .margin
  | .viewport => .viewport
  | .fontFace => .fontFace
  | .selector => .selector
  | .compound => .compound
  | .elementTerm _ _ => .elementTerm

structure Factory (σ : Type) where
  create : (request : Request) → σ → Except Error request.Product × σ

/-- Everything new is empty. Only a margin box with an unknown name cannot be made. -/
def Request.fresh : (request : Request) → Except Error request.Product
  | .ruleSet => .ok RuleSet.empty
  | .media => .ok MediaRule.empty
  | .page => .ok PageRule.empty
  | .margin area =>
      match MarginArea.ofName? area with
      | some area => .ok (MarginRule.empty area)
      | none => .error (.unknownMarginArea area)
  | .viewport => .ok ViewportRule.empty
  | .fontFace => .ok FontFaceRule.empty
  | .selector => .ok Selector.empty
  | .compound => .ok CompoundSelector.empty
  | .elementTerm owner inline => .ok (.element owner inline)

namespace Factory

variable {σ : Type}

def standard : Factory σ where
  create request state := (request.fresh, state)

/-!
# Factories that refuse

A guarded factory keeps the kinds of all requests, the refused ones included,
and a rule on that history decides whether the latest is refused. A request that
is not refused is answered as the standard factory would.
-/

def guarded (refuses : List RequestKind → Option Error) : Factory (List RequestKind) where
  create request history :=
    let asked := history ++ [request.kind]
    match refuses asked with
    | some error => (.error error, asked)
    | none => (request.fresh, asked)

section

variable {refuses : List RequestKind → Option Error} {asked : List RequestKind}
  {request : Request}

theorem guarded_create_refused {error : Error}
    (refused : refuses (asked ++ [request.kind]) = some error) :
    (guarded refuses).create request asked = (.error error, asked ++ [request.kind]) := by
  simp [guarded, refused]

theorem guarded_create_granted {answer : Except Error request.Product}
    (granted : refuses (asked ++ [request.kind]) = none) (fresh : request.fresh = answer) :
    (guarded refuses).create request asked = (answer, asked ++ [request.kind]) := by
  simp [guarded, granted, fresh]

end

end Factory

/-- A rule has nothing in it yet. What is requested for a selector is no rule. -/
def Request.Blank : (request : Request) → request.Product → Prop
  | .ruleSet, rule => rule = RuleSet.empty
  | .media, rule => rule = MediaRule.empty
  | .page, rule => rule = PageRule.empty
  | .margin _, rule => exists area, rule = MarginRule.empty area
  | .viewport, rule => rule = ViewportRule.empty
  | .fontFace, rule => rule = FontFaceRule.empty
  | .selector, _ => True
  | .compound, _ => True
  | .elementTerm _ _, _ => True

theorem Request.blank_of_fresh {request : Request} {product : request.Product}
    (fresh : request.fresh = .ok product) : request.Blank product := by
  cases request with
  | margin area =>
      cases found : MarginArea.ofName? area with
      | none =>
          simp [Request.fresh, found] at fresh
      | some area =>
          simp only [Request.fresh, found] at fresh
          exact ⟨area, (Except.ok.inj fresh).symm⟩
  | selector =>
      trivial
  | compound =>
      trivial
  | elementTerm owner inline =>
      trivial
  | _ =>
      exact (Except.ok.inj fresh).symm

namespace Factory

def HandsOutEmpty {σ : Type} (factory : Factory σ) : Prop :=
  forall (request : Request) (product : request.Product) (made after : σ),
    factory.create request made = (.ok product, after) → request.Blank product

theorem guarded_handsOutEmpty (refuses : List RequestKind → Option Error) :
    (guarded refuses).HandsOutEmpty := by
  intro request product made after granted
  cases refused : refuses (made ++ [request.kind]) with
  | none =>
      rw [guarded_create_granted refused rfl] at granted
      exact Request.blank_of_fresh (Prod.mk.inj granted).left
  | some error =>
      rw [guarded_create_refused refused] at granted
      cases granted

end Factory

/-- A limit on the number of requests, a kind of request that always fails, or both. -/
structure Limits where
  budget : Option Nat
  failing : Option RequestKind
  message : String
deriving DecidableEq, Repr

namespace Limits

def exceeded (limits : Limits) (asked : List RequestKind) : Bool :=
  limits.budget.any (· < asked.length) ||
    (limits.failing.isSome && asked.getLast? == limits.failing)

def refuses (limits : Limits) (asked : List RequestKind) : Option Error :=
  if limits.exceeded asked then some (.factory limits.message) else none

end Limits

namespace Factory

def limited (limits : Limits) : Factory (List RequestKind) :=
  guarded limits.refuses

end Factory

end StyleRules

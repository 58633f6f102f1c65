import StyleRules.Preparation.Rules

/-!
# Orders

The steps of a session leave outcomes behind, and later steps can use them. An
order is a production whose nested rules may come from earlier steps. It becomes
a production once the outcomes so far are known.
-/

namespace StyleRules

inductive Outcome where
  | prepared (rule : Rule)
  | elided
  | failed (error : Error)
deriving DecidableEq, Repr

namespace Outcome

def ofResult : Except Error (Option Rule) → Outcome
  | .ok (some rule) => prepared rule
  | .ok none => elided
  | .error error => failed error

def rule? : Outcome → Option Rule
  | prepared rule => some rule
  | _ => none

end Outcome

/-- What each step so far came to; a step that prepares nothing comes to nothing. -/
abbrev History := List (Option Outcome)

namespace History

def outcome? (history : History) (index : Nat) : Option Outcome :=
  (history[index]?).join

end History

inductive Source (α : Type) where
  | given (item : α)
  | earlier (index : Nat)
deriving DecidableEq, Repr

/-- A step that did not come to a rule of the right kind contributes nothing. -/
def Source.items {α : Type} (view : Rule → Option α) (history : History)
    (sources : List (Source α)) : List α :=
  sources.filterMap fun source =>
    match source with
    | .given item => some item
    | .earlier index => (history.outcome? index).bind fun outcome => outcome.rule?.bind view

inductive Order where
  | plain (production : Production)
  | media (rules : List (Source RuleSet)) (queries : List MediaQuery)
  | page (declarations : List Declaration) (margins : List (Source MarginRule))
      (name : Option String) (pseudo : Option PagePseudo)
deriving DecidableEq, Repr

def Order.production (history : History) : Order → Production
  | .plain production => production
  | .media rules queries => .media (Source.items Rule.set? history rules) queries
  | .page declarations margins name pseudo =>
      .page declarations (Source.items Rule.margin? history margins) name pseudo

end StyleRules

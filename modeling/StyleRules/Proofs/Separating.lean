import Mathlib.Data.List.Forall2
import StyleRules.Text.Name

/-!
# Taking texts apart

What is written piece after piece can be read again if it is always clear where
a piece ends: because a letter comes that it cannot contain, or because of what
the piece itself says. Texts are lists here, of letters or of whole lines.
-/

namespace StyleRules
namespace Text

variable {α γ : Type}

/-- Of a kind of letters and what does not begin with one, a text has only one beginning. -/
theorem span_unique {p : γ → Prop} {xs ys rest tail : List γ}
    (left : forall x, x ∈ xs → p x) (right : forall y, y ∈ ys → p y)
    (leftEnds : forall x, x ∈ rest.head? → ¬ p x) (rightEnds : forall y, y ∈ tail.head? → ¬ p y)
    (same : xs ++ rest = ys ++ tail) : xs = ys ∧ rest = tail := by
  induction xs generalizing ys with
  | nil =>
      cases ys with
      | nil =>
          exact ⟨rfl, same⟩
      | cons y ys =>
          have rest : rest = y :: (ys ++ tail) := same
          exact absurd (right y List.mem_cons_self) (leftEnds y (by simp [rest]))
  | cons x xs ih =>
      cases ys with
      | nil =>
          have tail : tail = x :: (xs ++ rest) := same.symm
          exact absurd (left x List.mem_cons_self) (rightEnds x (by simp [tail]))
      | cons y ys =>
          rcases List.cons.inj same with ⟨rfl, more⟩
          rcases ih (List.forall_mem_cons.mp left).right (List.forall_mem_cons.mp right).right
            more with ⟨rfl, ends⟩
          exact ⟨rfl, ends⟩

theorem split_unique {mark : γ} {xs ys rest tail : List γ} (left : mark ∉ xs) (right : mark ∉ ys)
    (same : xs ++ mark :: rest = ys ++ mark :: tail) : xs = ys ∧ rest = tail := by
  have ends (more : List γ) (x : γ) (first : x ∈ (mark :: more).head?) : ¬ x ≠ mark := by
    simpa using Eq.symm (Option.some.inj first)
  rcases span_unique (p := (· ≠ mark)) (fun x member => ne_of_mem_of_not_mem member left)
    (fun y member => ne_of_mem_of_not_mem member right) (ends rest) (ends tail) same with
    ⟨begins, marked⟩
  exact ⟨begins, (List.cons.inj marked).right⟩

/-- A name ends where no letter of a name follows. -/
theorem name_unique {first second : String} {rest tail : List Char} (left : IsName first)
    (right : IsName second) (leftEnds : EndsName rest) (rightEnds : EndsName tail)
    (same : first.toList ++ rest = second.toList ++ tail) : first = second ∧ rest = tail := by
  have stops {more : List Char} (ends : EndsName more) (letter : Char)
      (next : letter ∈ more.head?) : ¬ isNameLetter letter = true := by
    rw [ends letter next]
    exact Bool.false_ne_true
  rcases span_unique left.letters right.letters (stops leftEnds) (stops rightEnds) same with
    ⟨name, others⟩
  exact ⟨String.toList_inj.mp name, others⟩

/-!
# Sequences of pieces
-/

/-- Pieces that can be told apart when one follows the other. What stands behind a piece is either
such that the last piece ends with it, or another piece. -/
structure Separable (write : α → List γ) (Fine : α → Prop) (Same : α → α → Prop)
    (Behind Ends : List γ → Prop) : Prop where
  split : forall {x y : α} {rest tail : List γ}, Fine x → Fine y → Behind rest → Behind tail →
    write x ++ rest = write y ++ tail → Same x y ∧ rest = tail
  behind : forall {x : α} {rest : List γ}, Fine x → Behind rest → Behind (write x ++ rest)
  behind_of_ends : forall {rest : List γ}, Ends rest → Behind rest
  not_ends : forall {x : α} {rest : List γ}, Fine x → ¬ Ends (write x ++ rest)

namespace Separable

variable {write : α → List γ} {Fine : α → Prop} {Same : α → α → Prop}
  {Behind Ends : List γ → Prop} {xs ys : List α} {rest tail : List γ}

theorem behind_flatMap (separable : Separable write Fine Same Behind Ends)
    (fine : forall x, x ∈ xs → Fine x) (ends : Ends rest) : Behind (xs.flatMap write ++ rest) := by
  induction xs with
  | nil =>
      exact separable.behind_of_ends ends
  | cons x xs ih =>
      rcases List.forall_mem_cons.mp fine with ⟨first, others⟩
      rw [List.flatMap_cons, List.append_assoc]
      exact separable.behind first (ih others)

theorem flatMap_unique (separable : Separable write Fine Same Behind Ends)
    (left : forall x, x ∈ xs → Fine x) (right : forall y, y ∈ ys → Fine y)
    (leftEnds : Ends rest) (rightEnds : Ends tail)
    (same : xs.flatMap write ++ rest = ys.flatMap write ++ tail) :
    List.Forall₂ Same xs ys ∧ rest = tail := by
  induction xs generalizing ys with
  | nil =>
      cases ys with
      | nil =>
          exact ⟨.nil, same⟩
      | cons y ys =>
          rw [List.flatMap_cons, List.append_assoc] at same
          have rest : rest = write y ++ (ys.flatMap write ++ tail) := same
          exact absurd (rest ▸ leftEnds) (separable.not_ends (right y List.mem_cons_self))
  | cons x xs ih =>
      rw [List.flatMap_cons, List.append_assoc] at same
      rcases List.forall_mem_cons.mp left with ⟨fine, leftFine⟩
      cases ys with
      | nil =>
          have tail : tail = write x ++ (xs.flatMap write ++ rest) := same.symm
          exact absurd (tail ▸ rightEnds) (separable.not_ends fine)
      | cons y ys =>
          rw [List.flatMap_cons, List.append_assoc] at same
          rcases List.forall_mem_cons.mp right with ⟨rightFirst, rightFine⟩
          rcases separable.split fine rightFirst (separable.behind_flatMap leftFine leftEnds)
            (separable.behind_flatMap rightFine rightEnds) same with ⟨first, others⟩
          rcases ih leftFine rightFine others with ⟨more, ends⟩
          exact ⟨.cons first more, ends⟩

end Separable

/-- The texts behind the first one are pieces that begin with the separator. -/
theorem toList_intercalate_cons (separator text : String) (texts : List String) :
    (separator.intercalate (text :: texts)).toList =
      text.toList ++ texts.flatMap fun next => separator.toList ++ next.toList := by
  induction texts generalizing text with
  | nil =>
      rw [String.intercalate_singleton, List.flatMap_nil, List.append_nil]
  | cons next texts ih =>
      rw [String.intercalate_cons_cons, String.toList_append, String.toList_append, ih,
        List.flatMap_cons, List.append_assoc, List.append_assoc]

theorem map_eq_of_forall₂ {δ : Type} {f : α → δ} {xs ys : List α}
    (agree : List.Forall₂ (fun x y => f x = f y) xs ys) : xs.map f = ys.map f := by
  rw [← List.forall₂_eq_eq_eq, List.forall₂_map_left_iff, List.forall₂_map_right_iff]
  exact agree

end Text
end StyleRules

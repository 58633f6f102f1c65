import StyleRules.Proofs.Separating
import StyleRules.Selector.Canonical

/-!
# Elements as text

The text of an identifier is its two numbers in digits, or the word null. The
identifier can be read from it, up to the version of a null one.
-/

namespace StyleRules

open Text

theorem not_mem_toDigits {letter : Char} (other : letter.isDigit = false) (n : Nat) :
    letter ∉ Nat.toDigits 10 n := by
  intro member
  have digit := Nat.isDigit_of_mem_toDigits (by decide) (by decide) member
  rw [other] at digit
  cases digit

theorem toDigits_injective {m n : Nat} (same : Nat.toDigits 10 m = Nat.toDigits 10 n) : m = n := by
  calc
    m = Nat.ofDigitChars 10 (Nat.toDigits 10 m) 0 := Nat.ofDigitChars_ten_toDigits.symm
    _ = Nat.ofDigitChars 10 (Nat.toDigits 10 n) 0 := by rw [same]
    _ = n := Nat.ofDigitChars_ten_toDigits

namespace ElementId

variable {a b : ElementId}

/-- What stands between the parentheses. -/
def detail (element : ElementId) : List Char :=
  if element.isNull then "null".toList
  else Nat.toDigits 10 element.index.toNat ++ 'v' :: Nat.toDigits 10 element.version.toNat

theorem toList_render (element : ElementId) :
    element.render.toList = "ElementId(".toList ++ (element.detail ++ [')']) := by
  unfold render detail
  split <;> simp

theorem paren_not_mem_detail (element : ElementId) : ')' ∉ element.detail := by
  unfold detail
  split
  · decide
  · simp [not_mem_toDigits]

theorem numbers_ne_null (m : Nat) (letters : List Char) :
    Nat.toDigits 10 m ++ 'v' :: letters ≠ "null".toList := by
  intro same
  cases digits : Nat.toDigits 10 m with
  | nil =>
      rw [digits] at same
      cases same
  | cons digit more =>
      rw [digits] at same
      have first : digit = 'n' := (List.cons.inj same).left
      exact not_mem_toDigits (by decide) m (first ▸ digits ▸ List.mem_cons_self)

theorem detail_unique (same : a.detail = b.detail) : a.canonical = b.canonical := by
  unfold detail at same
  unfold canonical
  cases left : a.isNull <;> cases right : b.isNull <;>
    simp only [left, right, if_true, Bool.false_eq_true, if_false] at same ⊢
  · have unmarked (n : Nat) : 'v' ∉ Nat.toDigits 10 n := not_mem_toDigits (by decide) n
    rcases split_unique (unmarked _) (unmarked _) same with ⟨index, version⟩
    cases a
    cases b
    cases UInt32.toNat_inj.mp (toDigits_injective index)
    cases UInt32.toNat_inj.mp (toDigits_injective version)
    rfl
  · exact absurd same (numbers_ne_null _ _)
  · exact absurd same.symm (numbers_ne_null _ _)

theorem render_unique {rest tail : List Char}
    (same : a.render.toList ++ rest = b.render.toList ++ tail) :
    a.canonical = b.canonical ∧ rest = tail := by
  rw [toList_render, toList_render] at same
  simp only [List.append_assoc, List.singleton_append] at same
  rcases split_unique a.paren_not_mem_detail b.paren_not_mem_detail
    (List.append_cancel_left same) with ⟨detail, ends⟩
  exact ⟨detail_unique detail, ends⟩

end ElementId
end StyleRules

/-!
# Letter case within ASCII

Property names, media types and margin box names are compared without regard to
the case of the letters A to Z. Every other character, accented letters and
look-alikes included, stands for itself, and so it does for `String.toLower`: a
name is folded when it is stored, and two names are compared when one of them is
looked up. They are the same exactly if folding makes them equal.
-/

namespace Char

theorem toNat_of_isUpper {c : Char} (upper : c.isUpper = true) : 65 ≤ c.toNat ∧ c.toNat ≤ 90 :=
  of_decide_eq_true upper

theorem toNat_toLower {c : Char} (upper : c.isUpper = true) : c.toLower.toNat = c.toNat + 32 := by
  have capital : 'A' ≤ c ∧ c ≤ 'Z' := of_decide_eq_true upper
  have bounds := toNat_of_isUpper upper
  have bounded : c.toNat + 32 < UInt32.size := by
    unfold UInt32.size
    omega
  exact (congrArg Char.toNat (dif_pos capital)).trans (Nat.mod_eq_of_lt bounded)

end Char

namespace String

theorem toList_toLower (s : String) : s.toLower.toList = s.toList.map Char.toLower :=
  toList_map

theorem toLower_toLower (s : String) : s.toLower.toLower = s.toLower := by
  -- The laws of single letters come only with all of Mathlib, which no definition needs.
  have other {c : Char} (small : c.isUpper = false) : c.toLower = c :=
    dif_neg (of_decide_eq_false small)
  have lowered (c : Char) : c.toLower.isUpper = false := by
    cases upper : c.isUpper with
    | false =>
        rw [other upper, upper]
    | true =>
        have bounds := Char.toNat_of_isUpper upper
        have value := Char.toNat_toLower upper
        rw [Bool.eq_false_iff]
        intro again
        have within := Char.toNat_of_isUpper again
        omega
  apply toList_injective
  rw [toList_toLower, toList_toLower, List.map_map]
  exact List.map_congr_left fun c _ => other (lowered c)

end String

namespace StyleRules
namespace Text

def agree : List Char → List Char → Bool
  | [], [] => true
  | c :: cs, d :: ds => c.toLower == d.toLower && agree cs ds
  | _, _ => false

/-- Whether two names are the same up to letter case. -/
def sameName (s t : String) : Bool :=
  agree s.toList t.toList

theorem agree_eq_true_iff {cs ds : List Char} :
    agree cs ds = true ↔ cs.map Char.toLower = ds.map Char.toLower := by
  induction cs generalizing ds with
  | nil =>
      cases ds <;> simp [agree]
  | cons c cs ih =>
      cases ds with
      | nil =>
          simp [agree]
      | cons d ds =>
          simp [agree, ih]

theorem sameName_eq_true_iff {s t : String} : sameName s t = true ↔ s.toLower = t.toLower := by
  rw [sameName, agree_eq_true_iff, ← String.toList_inj, String.toList_toLower,
    String.toList_toLower]

end Text
end StyleRules

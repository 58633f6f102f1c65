import Mathlib.Algebra.Group.Nat.Defs
import StyleRules.Proofs.SelectorText

/-!
# Elements as numbers

The number of an identifier can be read again. In every number one bit has no
say, the lowest one of the version: reading sets it. Two numbers stand for one
identifier exactly if they differ in that bit alone. The text of an identifier
tells as much as its number does, unless the identifier is null.
-/

namespace StyleRules
namespace ElementId

variable {a b : ElementId} {r q : UInt64}

/-- The bit that the number of every identifier has, since versions are odd. -/
def oddBit : UInt64 :=
  4294967296

theorem toNat_toRaw (element : ElementId) :
    element.toRaw.toNat = 2 ^ 32 * element.version.toNat + element.index.toNat := by
  have index := element.index.toNat_lt
  have version := element.version.toNat_lt
  have fits : element.version.toNat <<< 32 < 2 ^ 64 := by
    rw [Nat.shiftLeft_eq]
    omega
  rw [toRaw, UInt64.toNat_or, UInt64.toNat_shiftLeft, UInt32.toNat_toUInt64,
    UInt32.toNat_toUInt64]
  change element.version.toNat <<< 32 % 2 ^ 64 ||| element.index.toNat = _
  rw [Nat.mod_eq_of_lt fits, ← Nat.shiftLeft_add_eq_or_of_lt index, Nat.shiftLeft_eq, Nat.mul_comm]

theorem toNat_index_ofRaw (raw : UInt64) : (ofRaw raw).index.toNat = raw.toNat % 2 ^ 32 :=
  UInt64.toNat_toUInt32 raw

theorem toNat_version_ofRaw (raw : UInt64) :
    (ofRaw raw).version.toNat = raw.toNat / 2 ^ 32 ||| 1 := by
  have upper : raw.toNat / 2 ^ 32 < 2 ^ 32 := by
    have bound := raw.toNat_lt
    omega
  change ((raw >>> 32).toUInt32 ||| 1).toNat = _
  rw [UInt32.toNat_or, UInt64.toNat_toUInt32, UInt64.toNat_shiftRight]
  change raw.toNat >>> 32 % 2 ^ 32 ||| 1 = _
  rw [Nat.shiftRight_eq_div_pow, Nat.mod_eq_of_lt upper]

theorem eq_of_toNat (index : a.index.toNat = b.index.toNat)
    (version : a.version.toNat = b.version.toNat) : a = b := by
  cases a
  cases b
  cases UInt32.toNat_inj.mp index
  cases UInt32.toNat_inj.mp version
  rfl

theorem version_or_one (element : ElementId) :
    element.version.toNat ||| 1 = element.version.toNat := by
  have odd := congrArg UInt32.toNat element.version_odd
  rw [UInt32.toNat_and] at odd
  apply Nat.eq_of_testBit_eq
  intro bit
  have lowest := congrArg (fun n => n.testBit bit) odd
  simp only [UInt32.reduceToNat, Nat.testBit_and, Nat.testBit_or] at lowest ⊢
  cases version : element.version.toNat.testBit bit <;> simp_all

theorem ofRaw_toRaw (element : ElementId) : ofRaw element.toRaw = element := by
  have index := element.index.toNat_lt
  apply eq_of_toNat
  · rw [toNat_index_ofRaw, toNat_toRaw, Nat.mul_add_mod, Nat.mod_eq_of_lt index]
  · rw [toNat_version_ofRaw, toNat_toRaw, Nat.mul_add_div (by decide), Nat.div_eq_of_lt index,
      Nat.add_zero, version_or_one]

theorem toRaw_injective (same : a.toRaw = b.toRaw) : a = b := by
  have read := congrArg ofRaw same
  rwa [ofRaw_toRaw, ofRaw_toRaw] at read

/-!
# The bit that has no say
-/

theorem testBit_toRaw (element : ElementId) (bit : Nat) :
    element.toRaw.toNat.testBit bit =
      if bit < 32 then element.index.toNat.testBit bit
      else element.version.toNat.testBit (bit - 32) := by
  rw [toNat_toRaw, Nat.testBit_two_pow_mul_add _ element.index.toNat_lt]

theorem testBit_oddBit (bit : Nat) : oddBit.toNat.testBit bit = decide (32 = bit) := by
  have power : oddBit.toNat = 2 ^ 32 := rfl
  rw [power, Nat.testBit_two_pow]

theorem toRaw_ofRaw (raw : UInt64) : (ofRaw raw).toRaw = raw ||| oddBit := by
  apply UInt64.toNat_inj.mp
  apply Nat.eq_of_testBit_eq
  intro bit
  rw [testBit_toRaw, UInt64.toNat_or, Nat.testBit_or, testBit_oddBit]
  -- The lower bits are those of the index, and bit 32 is the lowest one of the version.
  by_cases lower : bit < 32
  · have other : 32 ≠ bit := by omega
    rw [if_pos lower, toNat_index_ofRaw, Nat.testBit_mod_two_pow]
    simp [lower, other]
  · have upper : bit - 32 + 32 = bit := by omega
    have lowest : Nat.testBit 1 (bit - 32) = decide (32 = bit) := by
      rw [Bool.eq_iff_iff, Nat.testBit_one_eq_true_iff_self_eq_zero, decide_eq_true_iff]
      omega
    rw [if_neg lower, toNat_version_ofRaw, Nat.testBit_or, Nat.testBit_div_two_pow, upper, lowest]

theorem or_oddBit_eq_iff :
    r ||| oddBit = q ||| oddBit ↔
      forall bit, bit ≠ 32 → r.toNat.testBit bit = q.toNat.testBit bit := by
  rw [← UInt64.toNat_inj, UInt64.toNat_or, UInt64.toNat_or]
  constructor
  · intro same bit other
    have agree := congrArg (fun n => n.testBit bit) same
    simpa [Nat.testBit_or, testBit_oddBit, other.symm] using agree
  · intro agree
    apply Nat.eq_of_testBit_eq
    intro bit
    rw [Nat.testBit_or, Nat.testBit_or, testBit_oddBit]
    by_cases odd : bit = 32
    · simp [odd]
    · rw [agree bit odd]

theorem ofRaw_eq_iff :
    ofRaw r = ofRaw q ↔ forall bit, bit ≠ 32 → r.toNat.testBit bit = q.toNat.testBit bit := by
  rw [← or_oddBit_eq_iff, ← toRaw_ofRaw, ← toRaw_ofRaw]
  exact ⟨congrArg toRaw, toRaw_injective⟩

/-!
# Text and number
-/

theorem isNull_ofRaw_iff :
    (ofRaw r).isNull = true ↔ forall bit, bit < 32 → r.toNat.testBit bit = true := by
  have last : nullIndex.toNat = 2 ^ 32 - 1 := rfl
  rw [isNull, beq_iff_eq, ← UInt32.toNat_inj, toNat_index_ofRaw, last]
  constructor
  · intro ones bit lower
    have set : (r.toNat % 2 ^ 32).testBit bit = (2 ^ 32 - 1).testBit bit :=
      congrArg (fun n => n.testBit bit) ones
    rw [Nat.testBit_mod_two_pow, Nat.testBit_two_pow_sub_one] at set
    simpa [lower] using set
  · intro ones
    apply Nat.eq_of_testBit_eq
    intro bit
    rw [Nat.testBit_mod_two_pow, Nat.testBit_two_pow_sub_one]
    by_cases lower : bit < 32
    · simp [lower, ones bit lower]
    · simp [lower]

theorem canonical_eq_iff :
    a.canonical = b.canonical ↔ a = b ∨ a.isNull = true ∧ b.isNull = true := by
  have nothing : null.isNull = true := rfl
  unfold canonical
  constructor
  · intro same
    cases left : a.isNull <;> cases right : b.isNull <;>
      simp only [left, right, if_true, Bool.false_eq_true, if_false] at same
    · exact .inl same
    · rw [same, nothing] at left
      cases left
    · rw [← same, nothing] at right
      cases right
    · exact .inr ⟨rfl, rfl⟩
  · rintro (rfl | ⟨left, right⟩)
    · rfl
    · rw [if_pos left, if_pos right]

theorem render_element_eq_iff {inline : Bool} :
    (SimpleSelector.element a inline).render = (SimpleSelector.element b inline).render ↔
      a.canonical = b.canonical := by
  constructor
  · intro same
    have letters := congrArg (fun text => text.toList ++ []) same
    exact (SimpleSelector.element_unique letters).left
  · intro same
    rw [← SimpleSelector.render_canonical render_canonical,
      ← SimpleSelector.render_canonical render_canonical (.element b inline)]
    exact congrArg (fun owner => (SimpleSelector.element owner inline).render) same

/-- The number of an identifier has the version in its upper half and the index in its lower half,
and the same identifier is read from it again. Reading a number and writing it down sets one bit,
which numbers of identifiers have, and doing it twice changes nothing more. So numbers stand for
one identifier exactly if they agree in all other bits. Then the terms for it have one text, and
otherwise they have two, unless both numbers have a lower half of ones and so are null. -/
theorem numbers_and_texts_tell_elements_apart (element : ElementId) (r q : UInt64) :
    element.toRaw.toNat = 2 ^ 32 * element.version.toNat + element.index.toNat ∧
      (ofRaw r).index.toNat = r.toNat % 2 ^ 32 ∧
      (ofRaw r).version.toNat = r.toNat / 2 ^ 32 ||| 1 ∧
      ofRaw element.toRaw = element ∧
      (ofRaw r).toRaw = r ||| oddBit ∧
      ((ofRaw r).toRaw = r ↔ exists owner : ElementId, owner.toRaw = r) ∧
      (ofRaw (ofRaw r).toRaw).toRaw = (ofRaw r).toRaw ∧
      (ofRaw r = ofRaw q ↔
        forall bit, bit ≠ 32 → r.toNat.testBit bit = q.toNat.testBit bit) ∧
      forall inline : Bool,
        (SimpleSelector.element (ofRaw r) inline).render =
            (SimpleSelector.element (ofRaw q) inline).render ↔
          (forall bit, bit ≠ 32 → r.toNat.testBit bit = q.toNat.testBit bit) ∨
            forall bit, bit < 32 →
              r.toNat.testBit bit = true ∧ q.toNat.testBit bit = true := by
  refine ⟨toNat_toRaw element, toNat_index_ofRaw r, toNat_version_ofRaw r, ofRaw_toRaw element,
    toRaw_ofRaw r, ?_, ?_, ofRaw_eq_iff, ?_⟩
  · constructor
    · intro kept
      exact ⟨ofRaw r, kept⟩
    · rintro ⟨owner, rfl⟩
      rw [ofRaw_toRaw]
  · rw [ofRaw_toRaw]
  · intro inline
    rw [render_element_eq_iff, canonical_eq_iff, ofRaw_eq_iff, isNull_ofRaw_iff, isNull_ofRaw_iff]
    exact or_congr_right (forall₂_and).symm

/-- The null identifier and one of the same slot with version 3 have one text, but their numbers
differ in a bit that has a say. -/
theorem null_numbers_share_text :
    ¬ (ofRaw 8589934591 = ofRaw 17179869183 ↔
      (SimpleSelector.element (ofRaw 8589934591) false).render =
        (SimpleSelector.element (ofRaw 17179869183) false).render) := by
  intro texts
  have same : ofRaw 8589934591 = ofRaw 17179869183 := texts.mpr rfl
  revert same
  decide

end ElementId
end StyleRules

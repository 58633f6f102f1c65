import Mathlib
import StyleRules.Declaration
import StyleRules.Media
import StyleRules.Proofs.MarginNames

/-!
# One letter case for all names

Property names and media types are folded when they are stored, names of margin
boxes are compared when they are looked up. Both leave the same out of account:
whether one of the letters A to Z is a capital. All else counts, and nothing else
is changed, so that a text has as many letters and bytes as before.
-/

namespace StyleRules
namespace Text

/-- The letters are the same, or they are a capital among A to Z and its small form. -/
def SameLetter (first second : Char) : Prop :=
  first = second ∨ first.isUpper = true ∧ second = first.toLower ∨
    second.isUpper = true ∧ first = second.toLower

instance (first second : Char) : Decidable (SameLetter first second) :=
  inferInstanceAs (Decidable (_ ∨ _))

variable {letter first second : Char}

/-- Different capitals have different small forms. -/
theorem eq_of_toLower_of_isUpper (left : first.isUpper = true) (right : second.isUpper = true)
    (same : first.toLower = second.toLower) : first = second := by
  have value := congrArg Char.toNat same
  rw [Char.toNat_toLower left, Char.toNat_toLower right] at value
  exact Char.toNat_inj.mp (Nat.add_right_cancel value)

theorem toLower_eq_iff : first.toLower = second.toLower ↔ SameLetter first second := by
  constructor
  · intro same
    by_cases left : first.isUpper <;> by_cases right : second.isUpper
    · exact .inl (eq_of_toLower_of_isUpper left right same)
    · rw [Char.toLower_eq_of_not_isUpper right] at same
      exact .inr (.inl ⟨left, same.symm⟩)
    · rw [Char.toLower_eq_of_not_isUpper left] at same
      exact .inr (.inr ⟨right, same⟩)
    · rw [Char.toLower_eq_of_not_isUpper left, Char.toLower_eq_of_not_isUpper right] at same
      exact .inl same
  · rintro (rfl | ⟨_, rfl⟩ | ⟨_, rfl⟩)
    · rfl
    · exact (Char.toLower_toLower_eq_toLower first).symm
    · exact Char.toLower_toLower_eq_toLower second

/-- A letter that is folded takes a single byte, before and after. -/
theorem utf8Size_toLower (letter : Char) : letter.toLower.utf8Size = letter.utf8Size := by
  have single {c : Char} (low : c.toNat ≤ 127) : c.utf8Size = 1 :=
    Char.utf8Size_eq_one_iff.mpr (UInt32.le_iff_toNat_le.mpr low)
  by_cases upper : letter.isUpper
  · have bounds := Char.toNat_of_isUpper upper
    have value := Char.toNat_toLower upper
    rw [single (c := letter) (by omega), single (by omega)]
  · rw [Char.toLower_eq_of_not_isUpper upper]

theorem getElem?_toLower {s : String} {place : Nat} (found : s.toList[place]? = some letter) :
    s.toLower.toList[place]? = some letter.toLower := by
  rw [String.toList_toLower, List.getElem?_map, found, Option.map_some]

theorem utf8Len_map_toLower (letters : List Char) :
    String.utf8Len (letters.map Char.toLower) = String.utf8Len letters := by
  induction letters with
  | nil =>
      rfl
  | cons letter letters ih =>
      rw [List.map_cons, String.utf8Len_cons, String.utf8Len_cons, ih, utf8Size_toLower]

theorem utf8ByteSize_toLower (s : String) : s.toLower.utf8ByteSize = s.utf8ByteSize := by
  have bytes (text : String) : text.utf8ByteSize = String.utf8Len text.toList := by
    rw [← String.utf8ByteSize_ofList, String.ofList_toList]
  rw [bytes, bytes, String.toList_toLower, utf8Len_map_toLower]

/-- Names are the same exactly if their letters are, one by one. -/
theorem sameName_iff_forall₂ {s t : String} :
    sameName s t = true ↔ List.Forall₂ SameLetter s.toList t.toList := by
  rw [sameName, agree_eq_true_iff, ← List.forall₂_eq_eq_eq, List.forall₂_map_left_iff,
    List.forall₂_map_right_iff]
  simp only [toLower_eq_iff]

end Text

/-!
# Names that are stored and names that are looked up
-/

variable {s t value other : String}

namespace Declaration

theorem of_eq_of_iff : of s value = of t other ↔ Text.sameName s t = true ∧ value = other := by
  rw [Text.sameName_eq_true_iff]
  constructor
  · intro same
    exact ⟨congrArg property same, congrArg Declaration.value same⟩
  · rintro ⟨name, rfl⟩
    simp only [of, name]

theorem of_property_value {declaration : Declaration} (plain : declaration.important = false) :
    of declaration.property declaration.value = declaration := by
  rcases declaration with ⟨property, value, important, lower⟩
  cases plain
  simp only [of, lower]

end Declaration

theorem MediaQuery.ofType_eq_ofType_iff : ofType s = ofType t ↔ Text.sameName s t = true := by
  rw [Text.sameName_eq_true_iff]
  constructor
  · intro same
    exact Option.some.inj (congrArg mediaType same)
  · intro name
    rw [ofType, ofType, name]

theorem MarginArea.ofName?_of_sameName (same : Text.sameName s t = true) :
    ofName? s = ofName? t := by
  rw [Text.sameName_eq_true_iff] at same
  apply Option.ext
  intro area
  rw [ofName?_eq_some_iff, ofName?_eq_some_iff, same]

/-- Declarations of one value are equal exactly if their properties are the same up to the case of
the letters A to Z, and queries for a type of media are under the same condition, under which also
the same margin box is found. What is stored for a name is folded again to itself, finds the same
box, and is as long, with every capital A to Z in its small form and every other letter in its
place. Values are compared as they are. -/
theorem names_ignore_the_same_case (s t value : String) :
    (Declaration.of s value = Declaration.of t value ↔ Text.sameName s t = true) ∧
      (MediaQuery.ofType s = MediaQuery.ofType t ↔ Text.sameName s t = true) ∧
      (Text.sameName s t = true ↔ List.Forall₂ Text.SameLetter s.toList t.toList) ∧
      (Text.sameName s t = true → MarginArea.ofName? s = MarginArea.ofName? t) ∧
      (forall declaration : Declaration, declaration.important = false →
        Declaration.of declaration.property declaration.value = declaration) ∧
      (forall other, value ≠ other → Declaration.of s value ≠ Declaration.of t other) ∧
      let stored := (Declaration.of s value).property
      (MediaQuery.ofType s).mediaType = some stored ∧
        Declaration.of stored (Declaration.of s value).value = Declaration.of s value ∧
        MediaQuery.ofType stored = MediaQuery.ofType s ∧
        MarginArea.ofName? stored = MarginArea.ofName? s ∧
        stored.length = s.length ∧
        stored.utf8ByteSize = s.utf8ByteSize ∧
        forall (place : Nat) (letter : Char), s.toList[place]? = some letter →
          (letter.isUpper = true → stored.toList[place]? = some letter.toLower) ∧
            (letter.isUpper = false → stored.toList[place]? = some letter) := by
  have folded : Text.sameName s.toLower s = true :=
    Text.sameName_eq_true_iff.mpr s.toLower_toLower
  refine ⟨?_, MediaQuery.ofType_eq_ofType_iff, Text.sameName_iff_forall₂,
    MarginArea.ofName?_of_sameName, fun _ => Declaration.of_property_value, ?_, ?_⟩
  · rw [Declaration.of_eq_of_iff]
    exact and_iff_left rfl
  · intro other differ same
    exact differ (Declaration.of_eq_of_iff.mp same).right
  · intro stored
    refine ⟨rfl, Declaration.of_property_value rfl, MediaQuery.ofType_eq_ofType_iff.mpr folded,
      MarginArea.ofName?_of_sameName folded, String.length_map, Text.utf8ByteSize_toLower s, ?_⟩
    intro place letter found
    have lowered := Text.getElem?_toLower found
    refine ⟨fun _ => lowered, ?_⟩
    intro other
    rwa [Char.toLower_eq_of_not_isUpper (ne_true_of_eq_false other)] at lowered

/-- The Kelvin sign is no capital of the letter k, and a small sharp s is not two letters. -/
example :
    ["LINK", "lin\u212A", "link "].map (Text.sameName "link") = [true, false, false] ∧
      Text.sameName "stra\u00DFe" "STRASSE" = false := by
  decide

end StyleRules

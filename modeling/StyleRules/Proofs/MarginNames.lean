import Mathlib
import StyleRules.Proofs.Running

/-!
# Reading the names of margin boxes

A text names a margin box exactly if folding makes it the name of that box. The
names differ, so no text names two boxes, and the order in which they are tried
decides nothing. A margin rule is made for a text that names a box, with the
name in lower case, and refused for any other.
-/

namespace StyleRules

namespace MarginArea

/-- The letters of names, but for their case. -/
def isNameLetter (letter : Char) : Bool :=
  letter.isAlpha || letter == '-'

theorem isNameLetter_of_mem_name (area : MarginArea) :
    area.name.toList.all isNameLetter = true := by
  cases area <;> decide

theorem isNameLetter_of_toLower {letter : Char} (lowered : isNameLetter letter.toLower = true) :
    isNameLetter letter = true := by
  by_cases upper : letter.isUpper
  · have alpha : letter.isAlpha = true := Bool.or_eq_true_iff.mpr (.inl upper)
    rw [isNameLetter, alpha, Bool.true_or]
  · rwa [Char.toLower_eq_of_not_isUpper upper] at lowered

variable {areas : List MarginArea} {text : String} {area : MarginArea}

/-- In whatever order the boxes are tried, one is found exactly if the text is its name up to
letter case. -/
theorem find?_sameName_eq_some_iff (complete : forall area, area ∈ areas) :
    (areas.find? fun area => Text.sameName area.name text) = some area ↔
      text.toLower = area.name := by
  constructor
  · intro found
    have same := List.find?_some found
    rw [Text.sameName_eq_true_iff, toLower_name] at same
    exact same.symm
  · intro spelled
    have matching : Text.sameName area.name text = true := by
      rw [Text.sameName_eq_true_iff, toLower_name, spelled]
    cases found : areas.find? fun area => Text.sameName area.name text with
    | none =>
        exact absurd matching (List.find?_eq_none.mp found area (complete area))
    | some other =>
        have same := List.find?_some found
        rw [Text.sameName_eq_true_iff, toLower_name, spelled] at same
        rw [name_injective same]

theorem ofName?_eq_some_iff : ofName? text = some area ↔ text.toLower = area.name :=
  find?_sameName_eq_some_iff mem_all

theorem ofName?_eq_none_iff :
    ofName? text = none ↔ forall area : MarginArea, text.toLower ≠ area.name := by
  rw [Option.eq_none_iff_forall_ne_some]
  exact forall_congr' fun area => not_congr ofName?_eq_some_iff

/-- A text that names a box is as long as the name and has no other letters. -/
theorem letters_of_ofName? (named : ofName? text = some area) :
    text.length = area.name.length ∧
      forall letter, letter ∈ text.toList → letter.isAlpha = true ∨ letter = '-' := by
  have letters := congrArg String.toList (ofName?_eq_some_iff.mp named)
  rw [String.toList_toLower] at letters
  constructor
  · have lengths := congrArg List.length letters
    rwa [List.length_map, String.length_toList, String.length_toList] at lengths
  · intro letter member
    have lowered : letter.toLower ∈ area.name.toList :=
      letters ▸ List.mem_map_of_mem member
    have fine := List.all_eq_true.mp area.isNameLetter_of_mem_name _ lowered
    simpa [isNameLetter] using isNameLetter_of_toLower fine

end MarginArea

/-!
# Making margin rules
-/

namespace Preparation

variable {σ τ : Type} {text : String} {declarations : List Declaration}

theorem run_marginRule_vacant (factory : Factory σ) (sink : Sink τ) (made : σ) (told : τ) :
    ((marginRule text []).run factory sink made told).result = .ok none :=
  rfl

theorem run_marginRule_named {area : MarginArea} (declared : declarations ≠ [])
    (named : MarginArea.ofName? text = some area) (sink : Sink τ) (made : σ) (told : τ) :
    ((marginRule text declarations).run Factory.standard sink made told).result =
      .ok (some ⟨area, declarations⟩) := by
  have granted : Factory.standard.create (.margin text) made =
      (.ok (MarginRule.empty area), made) := by
    simp [Factory.standard, Request.fresh, named]
  rw [marginRule, if_neg (by simpa using declared), run_request_granted _ _ _ _ granted]
  rfl

theorem run_marginRule_unnamed (declared : declarations ≠ [])
    (unnamed : MarginArea.ofName? text = none) (sink : Sink τ) (made : σ) (told : τ) :
    ((marginRule text declarations).run Factory.standard sink made told).result =
      .error (.unknownMarginArea text) := by
  have refused : Factory.standard.create (.margin text) made =
      (.error (.unknownMarginArea text), made) := by
    simp [Factory.standard, Request.fresh, unnamed]
  rw [marginRule, if_neg (by simpa using declared), run_request_refused _ _ _ _ refused]

end Preparation

/-- A text names a box exactly if it is the name of that box once its letters A to Z are lowered,
and it makes no difference in which order the boxes are listed. So every letter of such a text is
an ASCII letter or a hyphen. With the standard factory, a margin rule for a text that names a box
shows the name in lower case, and the error for another text repeats that text; without
declarations nothing is made, and the text is not looked at. -/
theorem margin_names_parsed_exactly (text : String) :
    (forall area, MarginArea.ofName? text = some area ↔ text.toLower = area.name) ∧
      (forall areas : List MarginArea, areas.Perm MarginArea.all →
        (areas.find? fun area => Text.sameName area.name text) = MarginArea.ofName? text) ∧
      (forall area, MarginArea.ofName? text = some area →
        text.length = area.name.length ∧
          forall letter, letter ∈ text.toList → letter.isAlpha = true ∨ letter = '-') ∧
      forall {σ τ : Type} (declarations : List Declaration) (sink : Sink τ) (made : σ) (told : τ),
        let result :=
          ((Preparation.marginRule text declarations).run Factory.standard sink made told).result
        (declarations = [] → result = .ok none) ∧
          (declarations ≠ [] → forall area, text.toLower = area.name →
            exists rule, result = .ok (some rule) ∧ rule.area = area ∧
              rule.declarations = declarations ∧
              rule.render = "@" ++ text.toLower ++ " " ++
                Declaration.renderBlock declarations) ∧
          (declarations ≠ [] → (forall area : MarginArea, text.toLower ≠ area.name) →
            result = .error (.unknownMarginArea text)) := by
  refine ⟨fun area => MarginArea.ofName?_eq_some_iff, ?_,
    fun area => MarginArea.letters_of_ofName?, ?_⟩
  · intro areas perm
    have complete (area : MarginArea) : area ∈ areas := perm.mem_iff.mpr area.mem_all
    apply Option.ext
    intro area
    rw [MarginArea.find?_sameName_eq_some_iff complete, MarginArea.ofName?_eq_some_iff]
  · intro σ τ declarations sink made told result
    refine ⟨?_, ?_, ?_⟩
    · rintro rfl
      exact Preparation.run_marginRule_vacant Factory.standard sink made told
    · intro declared area spelled
      have named := MarginArea.ofName?_eq_some_iff.mpr spelled
      refine ⟨⟨area, declarations⟩,
        Preparation.run_marginRule_named declared named sink made told, rfl, rfl, ?_⟩
      rw [spelled, MarginRule.render]
    · intro declared other
      have unnamed := MarginArea.ofName?_eq_none_iff.mpr other
      exact Preparation.run_marginRule_unnamed declared unnamed sink made told

/-- A name with a dotless i, with a space behind it or with an at sign is none, but
letter case is free. -/
example :
    ["rIGHT-Top", "rıght-top", "right-top ", "@right-top"].map MarginArea.ofName? =
      [some .rightTop, none, none, none] := by
  decide

end StyleRules

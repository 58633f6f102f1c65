/-!
# Names

A name is made of letters, digits, hyphens and underscores, of ASCII alone. It
has one letter at least.
-/

namespace StyleRules
namespace Text

def isNameLetter (letter : Char) : Bool :=
  letter.isAlphanum || letter == '-' || letter == '_'

structure IsName (text : String) : Prop where
  nonempty : text ≠ ""
  letters : forall letter, letter ∈ text.toList → isNameLetter letter = true

instance (text : String) : Decidable (IsName text) :=
  decidable_of_iff (text ≠ "" ∧ text.toList.all isNameLetter = true)
    ⟨fun ⟨nonempty, letters⟩ => ⟨nonempty, List.all_eq_true.mp letters⟩,
      fun ⟨nonempty, letters⟩ => ⟨nonempty, List.all_eq_true.mpr letters⟩⟩

/-- A name that stands here would not go on. -/
def EndsName (letters : List Char) : Prop :=
  forall letter, letter ∈ letters.head? → isNameLetter letter = false

theorem IsName.not_mem {text : String} (name : IsName text) {letter : Char}
    (other : isNameLetter letter = false) : letter ∉ text.toList := by
  intro member
  rw [name.letters letter member] at other
  cases other

theorem IsName.exists_cons {text : String} (name : IsName text) :
    exists letter letters, text.toList = letter :: letters ∧ isNameLetter letter = true := by
  cases written : text.toList with
  | nil =>
      exact absurd (String.toList_eq_nil_iff.mp written) name.nonempty
  | cons letter letters =>
      exact ⟨letter, letters, rfl, name.letters letter (written ▸ List.mem_cons_self)⟩

end Text
end StyleRules

import StyleRules.Toml.Line

/-!
# Spelling keys

A key may be bare or quoted in two ways, and between double quotes each of its
letters may be escaped. However it is spelled, the same key is read, and so a
line that gives it a boolean says the same.
-/

namespace StyleRules
namespace Toml

/-- What may be written for a letter between double quotes. -/
inductive SpellsLetter : Char → List Char → Prop where
  | plain {c : Char} (printable : isPrintable c = true) (unquoted : c ≠ '"')
      (unescaped : c ≠ '\\') : SpellsLetter c [c]
  | short {c mark : Char} (stands : shortEscape mark = some c) : SpellsLetter c ['\\', mark]
  | fourDigits {c : Char} {digits : List Char} (four : digits.length = 4)
      (hexadecimal : digits.all isHexDigit = true) (code : numeral 16 digits = c.toNat) :
      SpellsLetter c ('\\' :: 'u' :: digits)
  | eightDigits {c : Char} {digits : List Char} (eight : digits.length = 8)
      (hexadecimal : digits.all isHexDigit = true) (code : numeral 16 digits = c.toNat) :
      SpellsLetter c ('\\' :: 'U' :: digits)

inductive SpellsText : List Char → List Char → Prop where
  | nil : SpellsText [] []
  | cons {c : Char} {letters spelling others : List Char} (first : SpellsLetter c spelling)
      (rest : SpellsText letters others) : SpellsText (c :: letters) (spelling ++ others)

inductive SpellsKey : String → List Char → Prop where
  | bare {name : String} (nonempty : name.toList ≠ [])
      (letters : forall c, c ∈ name.toList → isBare c = true) : SpellsKey name name.toList
  | literal {name : String}
      (letters : forall c, c ∈ name.toList → isPrintable c = true ∧ c ≠ '\'') :
      SpellsKey name ('\'' :: (name.toList ++ ['\'']))
  | basic {name : String} {spelling : List Char} (letters : SpellsText name.toList spelling) :
      SpellsKey name ('"' :: (spelling ++ ['"']))

/-!
# Reading quoted keys
-/

theorem codePoint_append {c : Char} {digits : List Char}
    (hexadecimal : digits.all isHexDigit = true) (code : numeral 16 digits = c.toNat)
    (rest : List Char) : codePoint digits.length (digits ++ rest) = some (c, rest) := by
  have valid : c.toNat.isValidChar := c.valid
  simp only [codePoint, List.take_left, List.drop_left, hexadecimal, code, valid, Char.ofNat_toNat,
    and_self, if_true]

theorem basicText_escape {c : Char} {text rest : List Char}
    (escaped : escape text = some (c, rest)) :
    basicText ('\\' :: text) =
      (basicText rest).map fun (letters, left) => (c :: letters, left) := by
  rw [basicText]
  split
  · next other left found =>
      rw [escaped] at found
      cases found
      rfl
  · next found =>
      rw [escaped] at found
      cases found

theorem escape_short {c mark : Char} (stands : shortEscape mark = some c) (rest : List Char) :
    escape (mark :: rest) = some (c, rest) := by
  unfold escape
  split
  · next same =>
      cases same
      cases stands
  · next same =>
      cases same
      cases stands
  · next same =>
      cases same
      rw [stands]
      rfl
  · next same =>
      cases same

theorem SpellsLetter.basicText_append {c : Char} {spelling : List Char}
    (spelled : SpellsLetter c spelling) (rest : List Char) :
    basicText (spelling ++ rest) =
      (basicText rest).map fun (letters, left) => (c :: letters, left) := by
  cases spelled with
  | plain printable unquoted unescaped =>
      rw [List.singleton_append, basicText, if_pos printable]
      · exact unquoted
      · exact unescaped
  | short stands =>
      exact basicText_escape (escape_short stands rest)
  | fourDigits four hexadecimal code =>
      have escaped := codePoint_append hexadecimal code rest
      rw [four] at escaped
      exact basicText_escape escaped
  | eightDigits eight hexadecimal code =>
      have escaped := codePoint_append hexadecimal code rest
      rw [eight] at escaped
      exact basicText_escape escaped

theorem SpellsText.basicText_append {letters spelling : List Char}
    (spelled : SpellsText letters spelling) (rest : List Char) :
    basicText (spelling ++ '"' :: rest) = some (letters, rest) := by
  induction spelled with
  | nil =>
      simp [basicText]
  | cons first others ih =>
      rw [List.append_assoc, first.basicText_append, ih]
      rfl

theorem literalText_append {letters : List Char}
    (printable : forall c, c ∈ letters → isPrintable c = true ∧ c ≠ '\'') (rest : List Char) :
    literalText (letters ++ '\'' :: rest) = some (letters, rest) := by
  induction letters with
  | nil =>
      simp [literalText]
  | cons c letters ih =>
      rcases List.forall_mem_cons.mp printable with ⟨⟨first, unquoted⟩, others⟩
      simp [literalText, first, ih others]

/-!
# Reading keys of any spelling
-/

/-- What a key that is written without quotes does not go on with. -/
def EndsBare (text : List Char) : Prop :=
  forall c, c ∈ text.head? → isBare c = false

theorem bareKey_append {name : String} {rest : List Char} (nonempty : name.toList ≠ [])
    (letters : forall c, c ∈ name.toList → isBare c = true) (ends : EndsBare rest) :
    bareKey (name.toList ++ rest) = some (name, rest) := by
  have stops : rest.takeWhile isBare = [] ∧ rest.dropWhile isBare = rest := by
    cases rest with
    | nil =>
        exact ⟨rfl, rfl⟩
    | cons c rest =>
        have other := ends c rfl
        simp [other]
  rw [bareKey, List.takeWhile_append_of_pos letters, List.dropWhile_append_of_pos letters,
    stops.left, stops.right, List.append_nil, String.ofList_toList]
  simp [nonempty]

/-- What a key of any spelling begins with. -/
def StartsKey (c : Char) : Prop :=
  isBare c = true ∨ c = '\'' ∨ c = '"'

theorem SpellsKey.exists_cons {name : String} {spelling : List Char}
    (spelled : SpellsKey name spelling) :
    exists c rest, spelling = c :: rest ∧ StartsKey c := by
  cases spelled with
  | bare nonempty letters =>
      rcases List.exists_cons_of_ne_nil nonempty with ⟨c, rest, written⟩
      exact ⟨c, rest, written, .inl (letters c (by simp [written]))⟩
  | literal letters =>
      exact ⟨'\'', _, rfl, .inr (.inl rfl)⟩
  | basic letters =>
      exact ⟨'"', _, rfl, .inr (.inr rfl)⟩

theorem StartsKey.ne {c : Char} (starts : StartsKey c) (other : Char)
    (otherwise : isBare other = false ∧ other ≠ '\'' ∧ other ≠ '"') : c ≠ other := by
  rintro rfl
  rcases starts with bare | literal | basic
  · rw [otherwise.left] at bare
    cases bare
  · exact otherwise.right.left literal
  · exact otherwise.right.right basic

theorem SpellsKey.key_append {name : String} {spelling rest : List Char}
    (spelled : SpellsKey name spelling) (ends : EndsBare rest) :
    key (spelling ++ rest) = some (name, rest) := by
  cases spelled with
  | bare nonempty letters =>
      rw [← bareKey_append nonempty letters ends]
      rcases List.exists_cons_of_ne_nil nonempty with ⟨c, others, written⟩
      have first : isBare c = true := letters c (by simp [written])
      rw [written]
      unfold key
      split
      · next same =>
          cases same
          cases first
      · next same =>
          cases same
          cases first
      · rfl
  | literal letters =>
      simp [key, literalText_append letters]
  | basic letters =>
      simp [key, letters.basicText_append]

/-!
# No other spellings
-/

theorem exists_digits_of_codePoint {count : Nat} {text rest : List Char} {c : Char}
    (read : codePoint count text = some (c, rest)) :
    exists digits, digits.length = count ∧ digits.all isHexDigit = true ∧
      numeral 16 digits = c.toNat ∧ text = digits ++ rest := by
  unfold codePoint at read
  simp only at read
  split at read
  · next accepted =>
      cases read
      rcases accepted with ⟨length, hexadecimal, valid⟩
      refine ⟨text.take count, length, hexadecimal, ?_, (List.take_append_drop ..).symm⟩
      rw [Char.ofNat, dif_pos valid]
      rfl
  · cases read

theorem exists_spelling_of_escape {text rest : List Char} {c : Char}
    (read : escape text = some (c, rest)) :
    exists marks, SpellsLetter c ('\\' :: marks) ∧ text = marks ++ rest := by
  unfold escape at read
  split at read
  · rcases exists_digits_of_codePoint read with ⟨digits, four, hexadecimal, code, rfl⟩
    exact ⟨'u' :: digits, .fourDigits four hexadecimal code, rfl⟩
  · rcases exists_digits_of_codePoint read with ⟨digits, eight, hexadecimal, code, rfl⟩
    exact ⟨'U' :: digits, .eightDigits eight hexadecimal code, rfl⟩
  · next mark left _ _ =>
      rcases Option.map_eq_some_iff.mp read with ⟨escaped, stands, same⟩
      cases same
      exact ⟨[mark], .short stands, rfl⟩
  · cases read

theorem exists_spelling_of_basicText {text letters rest : List Char}
    (read : basicText text = some (letters, rest)) :
    exists spelling, SpellsText letters spelling ∧ text = spelling ++ '"' :: rest := by
  fun_induction basicText text generalizing letters rest with
  | case1 text =>
      cases read
      exact ⟨[], .nil, rfl⟩
  | case2 text c behind escaped ih =>
      rcases Option.map_eq_some_iff.mp read with ⟨⟨others, left⟩, inner, same⟩
      cases same
      rcases ih inner with ⟨spelling, spelled, rfl⟩
      rcases exists_spelling_of_escape escaped with ⟨marks, first, rfl⟩
      exact ⟨_, .cons first spelled, by simp⟩
  | case3 text escaped =>
      cases read
  | case4 c text unquoted unescaped printable ih =>
      rcases Option.map_eq_some_iff.mp read with ⟨⟨others, left⟩, inner, same⟩
      cases same
      rcases ih inner with ⟨spelling, spelled, rfl⟩
      exact ⟨_, .cons (.plain printable unquoted unescaped) spelled, rfl⟩
  | case5 c text unquoted unescaped unprintable =>
      cases read
  | case6 =>
      cases read

theorem eq_append_of_literalText {text letters rest : List Char}
    (read : literalText text = some (letters, rest)) :
    (forall c, c ∈ letters → isPrintable c = true ∧ c ≠ '\'') ∧
      text = letters ++ '\'' :: rest := by
  fun_induction literalText text generalizing letters rest with
  | case1 text =>
      cases read
      exact ⟨by simp, rfl⟩
  | case2 c text unquoted printable ih =>
      rcases Option.map_eq_some_iff.mp read with ⟨⟨others, left⟩, inner, same⟩
      cases same
      rcases ih inner with ⟨letters, rfl⟩
      exact ⟨List.forall_mem_cons.mpr ⟨⟨printable, unquoted⟩, letters⟩, rfl⟩
  | case3 c text unquoted unprintable =>
      cases read
  | case4 =>
      cases read

theorem spelling_of_bareKey {text rest : List Char} {name : String}
    (read : bareKey text = some (name, rest)) :
    SpellsKey name name.toList ∧ text = name.toList ++ rest := by
  unfold bareKey at read
  simp only at read
  split at read
  · cases read
  · next nonempty =>
      cases read
      constructor
      · apply SpellsKey.bare
        · simpa using nonempty
        · intro c inside
          rw [String.toList_ofList] at inside
          exact List.all_eq_true.mp List.all_takeWhile c inside
      · rw [String.toList_ofList, List.takeWhile_append_dropWhile]

theorem exists_spelling_of_key {text rest : List Char} {name : String}
    (read : key text = some (name, rest)) :
    exists spelling, SpellsKey name spelling ∧ text = spelling ++ rest := by
  unfold key at read
  split at read
  · rcases Option.map_eq_some_iff.mp read with ⟨⟨letters, left⟩, inner, same⟩
    cases same
    rcases exists_spelling_of_basicText inner with ⟨spelling, spelled, rfl⟩
    exact ⟨_, .basic (by rwa [String.toList_ofList]), by simp⟩
  · rcases Option.map_eq_some_iff.mp read with ⟨⟨letters, left⟩, inner, same⟩
    cases same
    rcases eq_append_of_literalText inner with ⟨printable, rfl⟩
    exact ⟨_, .literal (by rwa [String.toList_ofList]), by simp⟩
  · exact ⟨_, spelling_of_bareKey read⟩

/-- Up to a place where a bare key ends, a key is read exactly if it is spelled there. -/
theorem key_eq_some_iff {text rest : List Char} {name : String} (ends : EndsBare rest) :
    key text = some (name, rest) ↔
      exists spelling, SpellsKey name spelling ∧ text = spelling ++ rest := by
  constructor
  · exact exists_spelling_of_key
  · rintro ⟨spelling, spelled, rfl⟩
    exact spelled.key_append ends

theorem SpellsKey.skipBlanks_append {name : String} {spelling : List Char}
    (spelled : SpellsKey name spelling) (rest : List Char) :
    skipBlanks (spelling ++ rest) = spelling ++ rest := by
  rcases spelled.exists_cons with ⟨c, others, written, starts⟩
  have visible : isBlank c = false := by
    simp [isBlank, starts.ne ' ' (by decide), starts.ne '\t' (by decide)]
  rw [written, skipBlanks, List.cons_append, List.dropWhile_cons_of_neg (by simp [visible])]

/-- A key without a dot behind it is a path of its own. -/
theorem SpellsKey.path_append {name : String} {spelling rest left : List Char}
    (spelled : SpellsKey name spelling) (ends : EndsBare rest) (blanks : skipBlanks rest = left)
    (undotted : '.' ∉ left.head?) :
    path (spelling ++ rest) = some (Path.single name, left) := by
  have keys : dottedKeys (spelling ++ rest) = some (Path.single name, left) := by
    rw [dottedKeys]
    split
    · next found =>
        rw [spelled.skipBlanks_append, spelled.key_append ends] at found
        cases found
    · next found =>
        rw [spelled.skipBlanks_append, spelled.key_append ends] at found
        cases found
        split
        · next dotted =>
            rw [blanks] at dotted
            simp [dotted] at undotted
        · rw [← blanks]
  rw [path, keys]
  rfl

/-!
# Lines with a boolean
-/

def booleanText : Bool → List Char
  | true => ['t', 'r', 'u', 'e']
  | false => ['f', 'a', 'l', 's', 'e']

/-- A line that gives a key a boolean. -/
def switchLine (spelling : List Char) (value : Bool) : List Char :=
  spelling ++ [' ', '=', ' '] ++ booleanText value ++ ['\n']

theorem anyValue_booleanText (value : Bool) (rest : List Char) :
    anyValue.read (booleanText value ++ rest) = some (.boolean value, rest) := by
  cases value <;> rfl

theorem SpellsKey.binding_append {name : String} {spelling : List Char}
    (spelled : SpellsKey name spelling) (value : Bool) (rest : List Char) :
    binding anyValue (switchLine spelling value ++ rest) =
      some ((Path.single name, .boolean value), '\n' :: rest) := by
  have keys : path (switchLine spelling value ++ rest) =
      some (Path.single name, '=' :: ' ' :: (booleanText value ++ '\n' :: rest)) := by
    simp only [switchLine, List.append_assoc]
    refine spelled.path_append ?_ rfl (by simp)
    rintro c ⟨⟩
    rfl
  have blanks : skipBlanks (' ' :: (booleanText value ++ '\n' :: rest)) =
      booleanText value ++ '\n' :: rest := by
    cases value <;> rfl
  rw [binding, keys]
  simp only [blanks, anyValue_booleanText]

/-- A line that starts with a key is neither blank nor a header. -/
theorem line_of_startsKey {c : Char} (starts : StartsKey c) (text : List Char) :
    line (c :: text) =
      match binding anyValue (c :: text) with
      | some ((path, value), left) => (closeLine left).map fun left => (.sets path value, left)
      | none => none := by
  have bracket := starts.ne '[' (by decide)
  have comment := starts.ne '#' (by decide)
  have unbroken : newline (c :: text) = none := by
    have feed := starts.ne '\n' (by decide)
    have carriage := starts.ne '\r' (by decide)
    unfold newline
    split <;> simp_all
  unfold line
  split
  · next same =>
      exact absurd (List.cons.inj same).left bracket
  · next same =>
      exact absurd (List.cons.inj same).left bracket
  · next same =>
      exact absurd (List.cons.inj same).left comment
  · cases found : newline (c :: text) with
    | some left =>
        rw [unbroken] at found
        cases found
    | none =>
        rfl

theorem SpellsKey.line_append {name : String} {spelling : List Char}
    (spelled : SpellsKey name spelling) (value : Bool) (rest : List Char) :
    line (switchLine spelling value ++ rest) =
      some (.sets (Path.single name) (.boolean value), rest) := by
  have bound := spelled.binding_append value rest
  rcases spelled.exists_cons with ⟨c, others, written, starts⟩
  have starting : switchLine spelling value ++ rest =
      c :: (others ++ [' ', '=', ' '] ++ booleanText value ++ ['\n'] ++ rest) := by
    rw [switchLine, written]
    rfl
  rw [starting] at bound ⊢
  rw [line_of_startsKey starts, bound]
  rfl

/-- A line with a boolean says the same however its key is spelled, whatever follows it. -/
theorem SpellsKey.lines_append {name : String} {spelling : List Char}
    (spelled : SpellsKey name spelling) (value : Bool) (rest : List Char) :
    lines (switchLine spelling value ++ rest) =
      (lines rest).map (.sets (Path.single name) (.boolean value) :: ·) := by
  have unblank : skipBlanks (switchLine spelling value ++ rest) =
      switchLine spelling value ++ rest := by
    simp only [switchLine, List.append_assoc]
    exact spelled.skipBlanks_append _
  have read := spelled.line_append value rest
  rw [lines]
  split
  · next empty =>
      rw [unblank] at empty
      simp [switchLine] at empty
  · next c start begins =>
      rw [← begins, unblank, read]

end Toml
end StyleRules

import StyleRules.Toml.Alphabet

/-!
# Quoted text in TOML documents

Two quotes are in use. Between double quotes a backslash starts an escape;
between single quotes every character stands for itself. Either kind also comes
in a long form with three quotes on each side, which may run over several lines.
Only the short forms can be keys, so only they give back what they hold; of a
long text the reader keeps no more than where it ends.
-/

namespace StyleRules
namespace Toml

/-- The characters with an escape of one letter. -/
def shortEscape (c : Char) : Option Char :=
  match c with
  | 'b' => some '\x08'
  | 't' => some '\t'
  | 'n' => some '\n'
  | 'f' => some '\x0c'
  | 'r' => some '\r'
  | '"' => some '"'
  | '\\' => some '\\'
  | _ => none

/-- The character whose code point is written with exactly `count` hexadecimal digits. -/
def codePoint (count : Nat) (text : List Char) : Option (Char × List Char) :=
  let digits := text.take count
  let code := numeral 16 digits
  if digits.length = count ∧ digits.all isHexDigit ∧ code.isValidChar then
    some (Char.ofNat code, text.drop count)
  else
    none

/-- The character that an escape stands for; the backslash has been read. -/
def escape : List Char → Option (Char × List Char)
  | 'u' :: rest => codePoint 4 rest
  | 'U' :: rest => codePoint 8 rest
  | c :: rest => (shortEscape c).map fun escaped => (escaped, rest)
  | [] => none

theorem length_codePoint_le {count : Nat} {text rest : List Char} {c : Char}
    (h : codePoint count text = some (c, rest)) : rest.length ≤ text.length := by
  unfold codePoint at h
  simp only at h
  split at h
  · simp at h
    rw [← h.2, List.length_drop]
    omega
  · simp at h

theorem length_escape_lt {text rest : List Char} {c : Char}
    (h : escape text = some (c, rest)) : rest.length < text.length := by
  unfold escape at h
  split at h
  · exact Nat.lt_succ_of_le (length_codePoint_le h)
  · exact Nat.lt_succ_of_le (length_codePoint_le h)
  · obtain ⟨_, _, same⟩ := Option.map_eq_some_iff.1 h
    cases same
    exact Nat.lt_succ_self _
  · cases h

/-!
# Short forms

Both readers start behind the opening quote.
-/

def basicText : List Char → Option (List Char × List Char)
  | '"' :: rest => some ([], rest)
  | '\\' :: rest =>
      match _h : escape rest with
      | some (c, left) => (basicText left).map fun (cs, left) => (c :: cs, left)
      | none => none
  | c :: rest =>
      if isPrintable c then (basicText rest).map fun (cs, left) => (c :: cs, left) else none
  | [] => none
termination_by text => text.length
decreasing_by
  · exact Nat.lt_succ_of_lt (length_escape_lt _h)
  · exact Nat.lt_succ_self _

def literalText : List Char → Option (List Char × List Char)
  | '\'' :: rest => some ([], rest)
  | c :: rest =>
      if isPrintable c then (literalText rest).map fun (cs, left) => (c :: cs, left) else none
  | [] => none

theorem length_basicText_le {text cs rest : List Char}
    (h : basicText text = some (cs, rest)) : rest.length ≤ text.length := by
  fun_induction basicText text generalizing cs rest with
  | case1 => simp_all
  | case2 text c left escaped ih =>
      have := length_escape_lt escaped
      simp at h
      obtain ⟨tail, same, _⟩ := h
      have := ih same
      simp
      omega
  | case3 => simp at h
  | case4 c text _ _ _ ih =>
      simp at h
      obtain ⟨tail, same, _⟩ := h
      have := ih same
      simp
      omega
  | case5 => simp at h
  | case6 => simp at h

theorem length_literalText_le {text cs rest : List Char}
    (h : literalText text = some (cs, rest)) : rest.length ≤ text.length := by
  fun_induction literalText text generalizing cs rest with
  | case1 => simp_all
  | case2 c text _ _ ih =>
      simp at h
      obtain ⟨tail, same, _⟩ := h
      have := ih same
      simp
      omega
  | case3 => simp at h
  | case4 => simp at h

/-!
# Long forms

A long text ends at three quotes in a row. One or two quotes inside are part of
it, and so are up to two more just before its end. A backslash at the end of a
line is allowed between double quotes.
-/

/-- Passes over at most two quotes that belong to the text they close. -/
def skipTwo (quote : Char) : List Char → List Char
  | c :: d :: rest =>
      if c = quote then (if d = quote then rest else d :: rest) else c :: d :: rest
  | [c] => if c = quote then [] else [c]
  | [] => []

/-- Whether only blanks are left on the line, and a line end follows them. -/
def endsLine (text : List Char) : Bool :=
  (newline (skipBlanks text)).isSome

def longBasic : List Char → Option (List Char)
  | '"' :: '"' :: '"' :: rest => some (skipTwo '"' rest)
  | '\\' :: rest =>
      if endsLine rest then
        longBasic rest
      else
        match _h : escape rest with
        | some (_, left) => longBasic left
        | none => none
  | '\n' :: rest => longBasic rest
  | '\r' :: '\n' :: rest => longBasic rest
  | c :: rest => if isPrintable c then longBasic rest else none
  | [] => none
termination_by text => text.length
decreasing_by
  · exact Nat.lt_succ_self _
  · exact Nat.lt_succ_of_lt (length_escape_lt _h)
  · exact Nat.lt_succ_self _
  · exact Nat.lt_succ_of_lt (Nat.lt_succ_self _)
  · exact Nat.lt_succ_self _

def longLiteral : List Char → Option (List Char)
  | '\'' :: '\'' :: '\'' :: rest => some (skipTwo '\'' rest)
  | '\n' :: rest => longLiteral rest
  | '\r' :: '\n' :: rest => longLiteral rest
  | c :: rest => if isPrintable c then longLiteral rest else none
  | [] => none

theorem length_skipTwo_le (quote : Char) (text : List Char) :
    (skipTwo quote text).length ≤ text.length := by
  unfold skipTwo
  split <;> repeat' split
  all_goals simp
  all_goals omega

theorem length_longBasic_le {text rest : List Char} (h : longBasic text = some rest) :
    rest.length ≤ text.length := by
  fun_induction longBasic text generalizing rest with
  | case1 text =>
      simp at h
      have := length_skipTwo_le '"' text
      simp [← h]
      omega
  | case2 text _ ih =>
      have := ih h
      simp
      omega
  | case3 text _ c left escaped ih =>
      have := length_escape_lt escaped
      have := ih h
      simp
      omega
  | case4 => simp at h
  | case5 text ih =>
      have := ih h
      simp
      omega
  | case6 text ih =>
      have := ih h
      simp
      omega
  | case7 c text _ _ _ _ _ ih =>
      have := ih h
      simp
      omega
  | case8 => simp at h
  | case9 => simp at h

theorem length_longLiteral_le {text rest : List Char} (h : longLiteral text = some rest) :
    rest.length ≤ text.length := by
  fun_induction longLiteral text generalizing rest with
  | case1 text =>
      simp at h
      have := length_skipTwo_le '\'' text
      simp [← h]
      omega
  | case2 text ih =>
      have := ih h
      simp
      omega
  | case3 text ih =>
      have := ih h
      simp
      omega
  | case4 c text _ _ _ _ ih =>
      have := ih h
      simp
      omega
  | case5 => simp at h
  | case6 => simp at h

/-!
# Any quoted text
-/

/-- The text after a quoted text of any of the four forms. -/
def quoted : List Char → Option (List Char)
  | '"' :: '"' :: '"' :: rest => longBasic rest
  | '"' :: rest => (basicText rest).map Prod.snd
  | '\'' :: '\'' :: '\'' :: rest => longLiteral rest
  | '\'' :: rest => (literalText rest).map Prod.snd
  | _ => none

theorem length_quoted_le {text rest : List Char} (h : quoted text = some rest) :
    rest.length ≤ text.length := by
  unfold quoted at h
  split at h
  · have := length_longBasic_le h
    simp
    omega
  · simp at h
    obtain ⟨cs, same⟩ := h
    have := length_basicText_le same
    simp
    omega
  · have := length_longLiteral_le h
    simp
    omega
  · simp at h
    obtain ⟨cs, same⟩ := h
    have := length_literalText_le same
    simp
    omega
  · simp at h

end Toml
end StyleRules

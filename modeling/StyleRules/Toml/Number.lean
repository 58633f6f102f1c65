import StyleRules.Toml.Alphabet

/-!
# Numbers in TOML documents

Integers are decimal, or hexadecimal, octal or binary behind a base mark, and
have to fit into 64 bits with a sign. Floats have a fraction, an exponent or
both, or are one of the words for infinity and for an undefined number. A single
underscore may stand between two digits.

What number is written is decided exactly, on natural numbers. It matters only
for the limits: an integer may be too large, and a float may be so large that
the nearest double is infinite.
-/

namespace StyleRules
namespace Toml

/-- The digits that go on after a first one, and the text after them. -/
def moreDigits (isDigit : Char → Bool) : List Char → List Char × List Char
  | '_' :: c :: rest =>
      if isDigit c then
        let (digits, left) := moreDigits isDigit rest
        (c :: digits, left)
      else
        ([], '_' :: c :: rest)
  | c :: rest =>
      if isDigit c then
        let (digits, left) := moreDigits isDigit rest
        (c :: digits, left)
      else
        ([], c :: rest)
  | [] => ([], [])

def digitRun (isDigit : Char → Bool) : List Char → Option (List Char × List Char)
  | c :: rest =>
      if isDigit c then
        let (digits, left) := moreDigits isDigit rest
        some (c :: digits, left)
      else
        none
  | [] => none

/-- Whether a minus sign stands here, and the text after the sign, if there is one. -/
def sign : List Char → Bool × List Char
  | '+' :: rest => (false, rest)
  | '-' :: rest => (true, rest)
  | text => (false, text)

/-- The digits of a whole number: a zero stands alone, any other number does not start with it. -/
def wholeDigits : List Char → Option (List Char × List Char)
  | '0' :: rest => some (['0'], rest)
  | text => digitRun Char.isDigit text

theorem length_moreDigits_le (isDigit : Char → Bool) (text : List Char) :
    (moreDigits isDigit text).2.length ≤ text.length := by
  fun_induction moreDigits isDigit text with
  | case1 c rest _ digits left same ih =>
      simp [same] at ih
      simp
      omega
  | case2 => simp
  | case3 c rest _ _ digits left same ih =>
      simp [same] at ih
      simp
      omega
  | case4 => simp
  | case5 => simp

theorem length_digitRun_lt {isDigit : Char → Bool} {text digits rest : List Char}
    (h : digitRun isDigit text = some (digits, rest)) : rest.length < text.length := by
  unfold digitRun at h
  split at h
  · next c text =>
      have := length_moreDigits_le isDigit text
      simp at h
      simp [← h.2.2]
      omega
  · simp at h

theorem length_sign_le (text : List Char) : (sign text).2.length ≤ text.length := by
  unfold sign
  split <;> simp

theorem length_wholeDigits_lt {text digits rest : List Char}
    (h : wholeDigits text = some (digits, rest)) : rest.length < text.length := by
  unfold wholeDigits at h
  split at h
  · simp at h
    simp [← h.2]
  · exact length_digitRun_lt h

/-!
# Integers
-/

/-- An unsigned integer in a base other than ten; the base mark has been read. -/
def basedInteger (base : Nat) (isDigit : Char → Bool) (text : List Char) : Option (List Char) :=
  match digitRun isDigit text with
  | some (digits, rest) => if numeral base digits < Nat.pow 2 63 then some rest else none
  | none => none

def decimalInteger (text : List Char) : Option (List Char) :=
  let (negative, unsigned) := sign text
  match wholeDigits unsigned with
  | some (digits, rest) =>
      let limit := if negative then Nat.pow 2 63 + 1 else Nat.pow 2 63
      if numeral 10 digits < limit then some rest else none
  | none => none

def integer : List Char → Option (List Char)
  | '0' :: 'x' :: rest => basedInteger 16 isHexDigit rest
  | '0' :: 'o' :: rest => basedInteger 8 isOctalDigit rest
  | '0' :: 'b' :: rest => basedInteger 2 isBinaryDigit rest
  | text => decimalInteger text

theorem length_basedInteger_le {base : Nat} {isDigit : Char → Bool} {text rest : List Char}
    (h : basedInteger base isDigit text = some rest) : rest.length ≤ text.length := by
  unfold basedInteger at h
  split at h
  · next digits left run =>
      have := length_digitRun_lt run
      simp at h
      simp [← h.2]
      omega
  · simp at h

theorem length_decimalInteger_le {text rest : List Char} (h : decimalInteger text = some rest) :
    rest.length ≤ text.length := by
  unfold decimalInteger at h
  simp only at h
  split at h
  · next digits left run =>
      have := length_wholeDigits_lt run
      have := length_sign_le text
      simp at h
      simp [← h.2]
      omega
  · simp at h

theorem length_integer_le {text rest : List Char} (h : integer text = some rest) :
    rest.length ≤ text.length := by
  unfold integer at h
  split at h
  · have := length_basedInteger_le h
    simp
    omega
  · have := length_basedInteger_le h
    simp
    omega
  · have := length_basedInteger_le h
    simp
    omega
  · exact length_decimalInteger_le h

/-!
# Floats

A decimal is its digits, read as a whole number, times a power of ten. The
largest double is `2 ^ 1024 - 2 ^ 971`; a number from half a step above it on
rounds to infinity. Between `10 ^ 308` and `10 ^ 309` this is decided by the
exact comparison, and outside by the place of the leading digit, so that a huge
exponent costs nothing.
-/

/-- The least number whose nearest double is infinite. -/
def infiniteFrom : Nat :=
  Nat.pow 2 1024 - Nat.pow 2 970

/-- Whether `digits * 10 ^ scale` rounds to infinity. -/
def overflows (digits : Nat) (scale : Int) : Bool :=
  let size : Int := (Nat.toDigits 10 digits).length + scale
  if digits = 0 ∨ size < 309 then false
  else if 309 < size then true
  else infiniteFrom * Nat.pow 10 (-scale).toNat ≤ digits * Nat.pow 10 scale.toNat

def fraction : List Char → Option (List Char × List Char)
  | '.' :: rest => digitRun Char.isDigit rest
  | _ => none

/-- The power of ten behind the letter E. -/
def exponent : List Char → Option (Int × List Char)
  | [] => none
  | c :: rest =>
      if c = 'e' ∨ c = 'E' then
        let (negative, unsigned) := sign rest
        (digitRun Char.isDigit unsigned).map fun (digits, left) =>
          (if negative then -(numeral 10 digits : Int) else numeral 10 digits, left)
      else
        none

/-- The words that may stand in place of a float's digits. -/
def floatWord : List Char → Option (List Char)
  | 'i' :: 'n' :: 'f' :: rest => some rest
  | 'n' :: 'a' :: 'n' :: rest => some rest
  | _ => none

/-- A float with digits; only a positive one is refused for its size. -/
def floatDigits (negative : Bool) (text : List Char) : Option (List Char) :=
  match wholeDigits text with
  | none => none
  | some (whole, afterWhole) =>
      match fraction afterWhole with
      | some (part, afterPart) =>
          let (power, rest) := (exponent afterPart).getD (0, afterPart)
          if !negative && overflows (numeral 10 (whole ++ part)) (power - part.length) then none
          else some rest
      | none =>
          match exponent afterWhole with
          | some (power, rest) =>
              if !negative && overflows (numeral 10 whole) power then none else some rest
          | none => none

def float (text : List Char) : Option (List Char) :=
  let (negative, unsigned) := sign text
  match floatWord unsigned with
  | some rest => some rest
  | none => floatDigits negative unsigned

theorem length_fraction_le {text digits rest : List Char}
    (h : fraction text = some (digits, rest)) : rest.length ≤ text.length := by
  unfold fraction at h
  split at h
  · have := length_digitRun_lt h
    simp
    omega
  · simp at h

theorem length_exponent_le {text rest : List Char} {power : Int}
    (h : exponent text = some (power, rest)) : rest.length ≤ text.length := by
  unfold exponent at h
  split at h
  · simp at h
  · next c text =>
      split at h
      · simp at h
        obtain ⟨digits, run, _⟩ := h
        have := length_digitRun_lt run
        have := length_sign_le text
        simp
        omega
      · simp at h

theorem length_floatWord_le {text rest : List Char} (h : floatWord text = some rest) :
    rest.length ≤ text.length := by
  unfold floatWord at h
  split at h <;> simp at h <;> simp [h] <;> omega

theorem length_floatDigits_le {negative : Bool} {text rest : List Char}
    (h : floatDigits negative text = some rest) : rest.length ≤ text.length := by
  unfold floatDigits at h
  split at h
  · simp at h
  · next whole afterWhole wholeRead =>
      have := length_wholeDigits_lt wholeRead
      split at h
      · next part afterPart partRead =>
          have := length_fraction_le partRead
          simp only at h
          split at h
          · simp at h
          · simp at h
            cases powerRead : exponent afterPart with
            | none =>
                simp [powerRead] at h
                subst h
                omega
            | some found =>
                have := length_exponent_le powerRead
                simp [powerRead] at h
                subst h
                omega
      · split at h
        · next power left powerRead =>
            have := length_exponent_le powerRead
            split at h
            · simp at h
            · simp at h
              subst h
              omega
        · simp at h

theorem length_float_le {text rest : List Char} (h : float text = some rest) :
    rest.length ≤ text.length := by
  have unsigned := length_sign_le text
  unfold float at h
  simp only at h
  split at h
  · next left word =>
      simp at h
      subst h
      exact Nat.le_trans (length_floatWord_le word) unsigned
  · exact Nat.le_trans (length_floatDigits_le h) unsigned

end Toml
end StyleRules

import StyleRules.Toml.Alphabet

/-!
# Dates and times in TOML documents

A moment is a date, a date with a time of day, such a pair with an offset from
universal time, or a time of day alone. Dates have to exist in the calendar.
Seconds may be sixty, for a leap second, and may have a fraction.
-/

namespace StyleRules
namespace Toml

/-- A number of exactly `width` digits that does not exceed `most`. -/
def field (width most : Nat) (text : List Char) : Option (Nat × List Char) :=
  let digits := text.take width
  if digits.length = width ∧ digits.all Char.isDigit ∧ numeral 10 digits ≤ most then
    some (numeral 10 digits, text.drop width)
  else
    none

def mark (c : Char) : List Char → Option (List Char)
  | d :: rest => if c = d then some rest else none
  | [] => none

theorem length_field_le {width most n : Nat} {text rest : List Char}
    (h : field width most text = some (n, rest)) : rest.length ≤ text.length := by
  unfold field at h
  simp only at h
  split at h
  · simp at h
    rw [← h.2, List.length_drop]
    omega
  · simp at h

theorem length_mark_le {c : Char} {text rest : List Char} (h : mark c text = some rest) :
    rest.length ≤ text.length := by
  unfold mark at h
  split at h
  · simp at h
    simp [h.2]
  · simp at h

def isLeapYear (year : Nat) : Bool :=
  year % 4 = 0 && (year % 100 ≠ 0 || year % 400 = 0)

def daysIn (year month : Nat) : Nat :=
  match month with
  | 2 => if isLeapYear year then 29 else 28
  | 4 | 6 | 9 | 11 => 30
  | _ => 31

def date (text : List Char) : Option (List Char) := do
  let (year, text) ← field 4 9999 text
  let text ← mark '-' text
  let (month, text) ← field 2 12 text
  let text ← mark '-' text
  let (day, text) ← field 2 31 text
  if 1 ≤ month ∧ 1 ≤ day ∧ day ≤ daysIn year month then some text else none

/-- Passes over the fraction of a second; a point without digits is not one. -/
def skipFraction : List Char → List Char
  | '.' :: c :: rest => if c.isDigit then rest.dropWhile Char.isDigit else '.' :: c :: rest
  | text => text

def timeOfDay (text : List Char) : Option (List Char) := do
  let (_, text) ← field 2 23 text
  let text ← mark ':' text
  let (_, text) ← field 2 59 text
  let text ← mark ':' text
  let (_, text) ← field 2 60 text
  some (skipFraction text)

/-- Hours and minutes of an offset; its sign has been read. -/
def offsetAmount (text : List Char) : Option (List Char) := do
  let (_, text) ← field 2 23 text
  let text ← mark ':' text
  let (_, text) ← field 2 59 text
  some text

def offset : List Char → Option (List Char)
  | 'Z' :: rest => some rest
  | 'z' :: rest => some rest
  | '+' :: rest => offsetAmount rest
  | '-' :: rest => offsetAmount rest
  | _ => none

theorem length_skipFraction_le (text : List Char) : (skipFraction text).length ≤ text.length := by
  unfold skipFraction
  split
  · next c rest =>
      have : (rest.dropWhile Char.isDigit).length ≤ rest.length :=
        (List.dropWhile_suffix Char.isDigit).length_le
      split <;> simp
      omega
  · exact Nat.le_refl _

theorem length_date_le {text rest : List Char} (h : date text = some rest) :
    rest.length ≤ text.length := by
  simp [date, Option.bind_eq_some_iff] at h
  obtain ⟨year, a, h₁, b, h₂, month, c, h₃, d, h₄, day, h₅, _⟩ := h
  have := length_field_le h₁
  have := length_mark_le h₂
  have := length_field_le h₃
  have := length_mark_le h₄
  have := length_field_le h₅
  omega

theorem length_timeOfDay_le {text rest : List Char} (h : timeOfDay text = some rest) :
    rest.length ≤ text.length := by
  simp [timeOfDay, Option.bind_eq_some_iff] at h
  obtain ⟨hour, a, h₁, b, h₂, ⟨minute, c, h₃, d, h₄, second, e, h₅, same⟩⟩ := h
  have := length_field_le h₁
  have := length_mark_le h₂
  have := length_field_le h₃
  have := length_mark_le h₄
  have := length_field_le h₅
  have := length_skipFraction_le e
  subst same
  omega

theorem length_offsetAmount_le {text rest : List Char} (h : offsetAmount text = some rest) :
    rest.length ≤ text.length := by
  simp [offsetAmount, Option.bind_eq_some_iff] at h
  obtain ⟨hour, a, h₁, b, h₂, minute, h₃⟩ := h
  have := length_field_le h₁
  have := length_mark_le h₂
  have := length_field_le h₃
  omega

theorem length_offset_le {text rest : List Char} (h : offset text = some rest) :
    rest.length ≤ text.length := by
  unfold offset at h
  split at h
  · simp at h
    simp [h]
  · simp at h
    simp [h]
  · have := length_offsetAmount_le h
    simp
    omega
  · have := length_offsetAmount_le h
    simp
    omega
  · simp at h

/-!
# Moments

A time of day belongs to the date before it when the letter T or a single space
joins them; a space that no time follows ends the date.
-/

/-- Passes over the time of day that completes a date, and over its offset. -/
def skipTime : List Char → List Char
  | c :: rest =>
      if c = 'T' ∨ c = 't' ∨ c = ' ' then
        match timeOfDay rest with
        | some left => (offset left).getD left
        | none => c :: rest
      else
        c :: rest
  | [] => []

def moment (text : List Char) : Option (List Char) :=
  match date text with
  | some rest => some (skipTime rest)
  | none => timeOfDay text

theorem length_skipTime_le (text : List Char) : (skipTime text).length ≤ text.length := by
  unfold skipTime
  split
  · next c rest =>
      split
      · split
        · next left time =>
            have := length_timeOfDay_le time
            cases read : offset left with
            | none =>
                simp
                omega
            | some after =>
                have := length_offset_le read
                simp
                omega
        · exact Nat.le_refl _
      · exact Nat.le_refl _
  · exact Nat.le_refl _

theorem length_moment_le {text rest : List Char} (h : moment text = some rest) :
    rest.length ≤ text.length := by
  unfold moment at h
  split at h
  · next left read =>
      have := length_date_le read
      have := length_skipTime_le left
      simp at h
      subst h
      omega
  · exact length_timeOfDay_le h

end Toml
end StyleRules

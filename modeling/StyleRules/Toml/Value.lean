import StyleRules.Toml.Number
import StyleRules.Toml.Moment
import StyleRules.Toml.Table

/-!
# Reading values

Values nest, through arrays and inline tables, but only so deep. The reader for
one depth is built from the reader for the depth below it, so that nesting needs
no recursion on the text; the items at one depth are read one after the other,
and each comma makes the text shorter.
-/

namespace StyleRules
namespace Toml

/-- A reader takes something off the front of a text and leaves a text that is no longer. -/
structure Reader (α : Type) where
  read : List Char → Option (α × List Char)
  length_le : ∀ {text rest : List Char} {a : α},
    read text = some (a, rest) → rest.length ≤ text.length

def boolean : List Char → Option (Bool × List Char)
  | 't' :: 'r' :: 'u' :: 'e' :: rest => some (true, rest)
  | 'f' :: 'a' :: 'l' :: 's' :: 'e' :: rest => some (false, rest)
  | _ => none

/-- The kinds of value are told apart by trying each. A date also starts like an integer, and so
does a float, so these come first. -/
def scalar (text : List Char) : Option (Value × List Char) :=
  match boolean text with
  | some (b, rest) => some (.boolean b, rest)
  | none =>
      match quoted text with
      | some rest => some (.string, rest)
      | none =>
          match moment text with
          | some rest => some (.moment, rest)
          | none =>
              match float text with
              | some rest => some (.float, rest)
              | none =>
                  match integer text with
                  | some rest => some (.integer, rest)
                  | none => none

theorem length_boolean_le {text rest : List Char} {b : Bool}
    (h : boolean text = some (b, rest)) : rest.length ≤ text.length := by
  unfold boolean at h
  split at h <;> simp at h <;> simp [h.2] <;> omega

theorem length_scalar_le {text rest : List Char} {value : Value}
    (h : scalar text = some (value, rest)) : rest.length ≤ text.length := by
  unfold scalar at h
  split at h
  · next read =>
      simp at h
      exact h.2 ▸ length_boolean_le read
  · split at h
    · next read =>
        simp at h
        exact h.2 ▸ length_quoted_le read
    · split at h
      · next read =>
          simp at h
          exact h.2 ▸ length_moment_le read
      · split at h
        · next read =>
            simp at h
            exact h.2 ▸ length_float_le read
        · split at h
          · next read =>
              simp at h
              exact h.2 ▸ length_integer_le read
          · simp at h

/-!
# Arrays

Commas part the items, and one more may follow the last.
-/

/-- The items that are still to come, and the closing bracket. -/
def arrayItems (item : Reader Value) (text : List Char) : Option (List Char) :=
  match _start : skipFiller text with
  | ']' :: rest => some rest
  | start =>
      match _read : item.read start with
      | none => none
      | some (_, left) =>
          match _next : skipFiller left with
          | ',' :: rest => arrayItems item rest
          | ']' :: rest => some rest
          | _ => none
termination_by text.length
decreasing_by
  have := length_skipFiller_le text
  have := item.length_le _read
  have shorter := length_skipFiller_le left
  rw [_next] at shorter
  rw [← _start] at this
  simp at shorter
  omega

theorem length_arrayItems_le {item : Reader Value} {text rest : List Char}
    (h : arrayItems item text = some rest) : rest.length ≤ text.length := by
  fun_induction arrayItems item text generalizing rest with
  | case1 text left start =>
      have shorter := length_skipFiller_le text
      rw [start] at shorter
      simp at h shorter
      subst h
      omega
  | case2 => simp at h
  | case3 text value left after next _ read ih =>
      have := length_skipFiller_le text
      have := item.length_le read
      have shorter := length_skipFiller_le left
      rw [next] at shorter
      simp at shorter
      have := ih h
      omega
  | case4 text value left after next _ read =>
      have := length_skipFiller_le text
      have := item.length_le read
      have shorter := length_skipFiller_le left
      rw [next] at shorter
      simp at h shorter
      subst h
      omega
  | case5 => simp at h

/-!
# Inline tables

An inline table is written on one line, and no comma follows its last binding.
Its dotted keys make tables inside it by the same rules as in the document.
-/

def binding (item : Reader Value) (text : List Char) : Option ((Path × Value) × List Char) :=
  match path text with
  | some (path, '=' :: rest) =>
      match item.read (skipBlanks rest) with
      | some (value, left) => some ((path, value), left)
      | none => none
  | _ => none

theorem length_binding_lt {item : Reader Value} {text rest : List Char} {found : Path × Value}
    (h : binding item text = some (found, rest)) : rest.length < text.length := by
  unfold binding at h
  split at h
  · next found after read =>
      have keys := length_path_le read
      have := length_skipBlanks_le after
      simp at keys
      split at h
      · next value left valueRead =>
          have := item.length_le valueRead
          simp at h
          obtain ⟨_, same⟩ := h
          subst same
          omega
      · simp at h
  · simp at h

/-- The bindings that are still to come, of which there is at least one, and the closing brace. -/
def inlineBindings (item : Reader Value) (table : Table) (text : List Char) : Option (List Char) :=
  match _read : binding item text with
  | none => none
  | some ((path, value), left) =>
      match table.set path value with
      | none => none
      | some grown =>
          match _next : skipBlanks left with
          | ',' :: rest => inlineBindings item grown rest
          | '}' :: rest => some rest
          | _ => none
termination_by text.length
decreasing_by
  have := length_binding_lt _read
  have shorter := length_skipBlanks_le left
  rw [_next] at shorter
  simp at shorter
  omega

theorem length_inlineBindings_le {item : Reader Value} {table : Table} {text rest : List Char}
    (h : inlineBindings item table text = some rest) : rest.length ≤ text.length := by
  fun_induction inlineBindings item table text generalizing rest with
  | case1 => simp at h
  | case2 => simp at h
  | case3 table text path value left read grown _ after next ih =>
      have := length_binding_lt read
      have shorter := length_skipBlanks_le left
      rw [next] at shorter
      simp at shorter
      have := ih h
      omega
  | case4 table text path value left read grown _ after next =>
      have := length_binding_lt read
      have shorter := length_skipBlanks_le left
      rw [next] at shorter
      simp at h shorter
      subst h
      omega
  | case5 => simp at h

/-!
# Values of every kind
-/

/-- An array or an inline table with the given values inside, or a value without parts. -/
def valueOf (item : Reader Value) : List Char → Option (Value × List Char)
  | '[' :: rest => (arrayItems item rest).map fun left => (.array, left)
  | '{' :: rest =>
      match skipBlanks rest with
      | '}' :: left => some (.inlineTable, left)
      | start => (inlineBindings item [] start).map fun left => (.inlineTable, left)
  | text => scalar text

theorem length_valueOf_le {item : Reader Value} {text rest : List Char} {value : Value}
    (h : valueOf item text = some (value, rest)) : rest.length ≤ text.length := by
  unfold valueOf at h
  split at h
  · simp at h
    have := length_arrayItems_le h.1
    simp
    omega
  · next start =>
      have blanks := length_skipBlanks_le start
      split at h
      · next next =>
          rw [next] at blanks
          simp at h blanks
          simp [← h.2]
          omega
      · simp at h
        have := length_inlineBindings_le h.1
        simp
        omega
  · exact length_scalar_le h

/-- Values with at most `depth` levels of arrays and inline tables. -/
def valueReader : Nat → Reader Value
  | 0 => ⟨scalar, length_scalar_le⟩
  | depth + 1 => ⟨valueOf (valueReader depth), length_valueOf_le⟩

def anyValue : Reader Value :=
  valueReader (depthLimit - 1)

end Toml
end StyleRules

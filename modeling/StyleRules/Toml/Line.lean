import StyleRules.Toml.Value

/-!
# Lines of TOML documents

A document says one thing per line: it opens a table, opens the next table of an
array, or gives a path its value. Reading a text as lines settles everything
about its spelling; what the lines mean together is left to the document.
-/

namespace StyleRules
namespace Toml

inductive Line where
  | blank
  | opensTable (path : Path)
  | opensNext (path : Path)
  | sets (path : Path) (value : Value)
deriving DecidableEq, Repr

/-!
# Reading one line

A line is read together with its end. Blanks before it have been passed over, and
it is not at the end of the document.
-/

/-- The path of a header and the text after it; the opening bracket has been read. -/
def tableHeader (text : List Char) : Option (Path × List Char) :=
  match path text with
  | some (path, ']' :: rest) => (closeLine rest).map fun left => (path, left)
  | _ => none

/-- Likewise for a header in double brackets, which stand close together. -/
def arrayHeader (text : List Char) : Option (Path × List Char) :=
  match path text with
  | some (path, ']' :: ']' :: rest) => (closeLine rest).map fun left => (path, left)
  | _ => none

def line : List Char → Option (Line × List Char)
  | '[' :: '[' :: rest => (arrayHeader rest).map fun (path, left) => (.opensNext path, left)
  | '[' :: rest => (tableHeader rest).map fun (path, left) => (.opensTable path, left)
  | '#' :: rest => (lineEnd (rest.dropWhile isPrintable)).map fun left => (.blank, left)
  | text =>
      match newline text with
      | some left => some (.blank, left)
      | none =>
          match binding anyValue text with
          | some ((path, value), left) =>
              (closeLine left).map fun left => (.sets path value, left)
          | none => none

theorem length_tableHeader_le {text rest : List Char} {found : Path}
    (h : tableHeader text = some (found, rest)) : rest.length ≤ text.length := by
  unfold tableHeader at h
  split at h
  · next keys after read =>
      have keys := length_path_le read
      simp at h keys
      have := length_closeLine_le h.1
      omega
  · simp at h

theorem length_arrayHeader_le {text rest : List Char} {found : Path}
    (h : arrayHeader text = some (found, rest)) : rest.length ≤ text.length := by
  unfold arrayHeader at h
  split at h
  · next keys after read =>
      have keys := length_path_le read
      simp at h keys
      have := length_closeLine_le h.1
      omega
  · simp at h

theorem length_line_lt {text rest : List Char} {said : Line}
    (h : line text = some (said, rest)) : rest.length < text.length := by
  unfold line at h
  split at h
  · simp at h
    obtain ⟨_, read, _⟩ := h
    have := length_arrayHeader_le read
    simp
    omega
  · simp at h
    obtain ⟨_, read, _⟩ := h
    have := length_tableHeader_le read
    simp
    omega
  · next comment =>
      simp at h
      have := length_lineEnd_le h.1
      have : (comment.dropWhile isPrintable).length ≤ comment.length :=
        (List.dropWhile_suffix isPrintable).length_le
      simp
      omega
  · split at h
    · next left read =>
        simp at h
        obtain ⟨_, same⟩ := h
        subst same
        exact length_newline_lt read
    · split at h
      · next keys value left read =>
          have := length_binding_lt read
          simp at h
          have := length_closeLine_le h.1
          omega
      · simp at h

/-- The lines of a text. A blank line at the very end is not counted. -/
def lines (text : List Char) : Option (List Line) :=
  match _start : skipBlanks text with
  | [] => some []
  | c :: start =>
      match _read : line (c :: start) with
      | some (said, rest) => (lines rest).map (said :: ·)
      | none => none
termination_by text.length
decreasing_by
  have shorter := length_skipBlanks_le text
  rw [_start] at shorter
  have := length_line_lt _read
  omega

end Toml
end StyleRules

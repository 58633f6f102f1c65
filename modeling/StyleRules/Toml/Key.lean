import StyleRules.Toml.Quoted

/-!
# Keys of TOML documents

A key is bare or stands between short quotes, and how it is spelled makes no
difference to which key it is. Dots join keys to a path, with blanks allowed
around each key.
-/

namespace StyleRules
namespace Toml

/-- A path of keys: the tables to go through, and the name bound in the last of them. -/
structure Path where
  parents : List String
  name : String
deriving DecidableEq, Repr

namespace Path

def single (name : String) : Path :=
  ⟨[], name⟩

def under (parent : String) (path : Path) : Path :=
  ⟨parent :: path.parents, path.name⟩

def toList (path : Path) : List String :=
  path.parents ++ [path.name]

def length (path : Path) : Nat :=
  path.parents.length + 1

end Path

/-- Paths of this many keys, and values nested this many levels deep, are refused. -/
def depthLimit : Nat := 80

def bareKey (text : List Char) : Option (String × List Char) :=
  let name := text.takeWhile isBare
  if name.isEmpty then none else some (String.ofList name, text.dropWhile isBare)

def key : List Char → Option (String × List Char)
  | '"' :: rest => (basicText rest).map fun (name, left) => (String.ofList name, left)
  | '\'' :: rest => (literalText rest).map fun (name, left) => (String.ofList name, left)
  | text => bareKey text

theorem length_key_le {text rest : List Char} {name : String}
    (h : key text = some (name, rest)) : rest.length ≤ text.length := by
  unfold key at h
  split at h
  · simp at h
    obtain ⟨cs, read, _⟩ := h
    have := length_basicText_le read
    simp
    omega
  · simp at h
    obtain ⟨cs, read, _⟩ := h
    have := length_literalText_le read
    simp
    omega
  · unfold bareKey at h
    simp at h
    rw [← h.2.2]
    exact (List.dropWhile_suffix isBare).length_le

/-- A path of any length, with the blanks around it. -/
def dottedKeys (text : List Char) : Option (Path × List Char) :=
  match _read : key (skipBlanks text) with
  | none => none
  | some (name, left) =>
      match _blanks : skipBlanks left with
      | '.' :: rest => (dottedKeys rest).map fun (path, left) => (path.under name, left)
      | rest => some (Path.single name, rest)
termination_by text.length
decreasing_by
  have := length_skipBlanks_le text
  have := length_key_le _read
  have shorter := length_skipBlanks_le left
  rw [_blanks] at shorter
  simp at shorter
  omega

def path (text : List Char) : Option (Path × List Char) :=
  match dottedKeys text with
  | some (path, rest) => if path.length < depthLimit then some (path, rest) else none
  | none => none

theorem length_dottedKeys_le {text rest : List Char} {path : Path}
    (h : dottedKeys text = some (path, rest)) : rest.length ≤ text.length := by
  fun_induction dottedKeys text generalizing path rest with
  | case1 => simp at h
  | case2 text name left read inner blanks ih =>
      simp at h
      obtain ⟨tail, same, _⟩ := h
      have := ih same
      have := length_skipBlanks_le text
      have := length_key_le read
      have shorter := length_skipBlanks_le left
      rw [blanks] at shorter
      simp at shorter
      omega
  | case3 text name left read =>
      simp at h
      have := length_skipBlanks_le text
      have := length_key_le read
      have := length_skipBlanks_le left
      rw [← h.2]
      omega

theorem length_path_le {text rest : List Char} {found : Path}
    (h : path text = some (found, rest)) : rest.length ≤ text.length := by
  unfold path at h
  split at h
  · next read =>
      simp at h
      obtain ⟨_, _, same⟩ := h
      subst same
      exact length_dottedKeys_le read
  · simp at h

end Toml
end StyleRules

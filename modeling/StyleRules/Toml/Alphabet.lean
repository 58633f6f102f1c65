/-!
# The alphabet of TOML documents

A document is a list of characters. This module says which characters may stand
where, and how blanks, comments and line ends are passed over. Line ends are LF
and CRLF; a CR on its own belongs nowhere. Every reader of a document returns
the text that it leaves, and that text is never longer than the one it was
given: the `length` lemmas record this, and the loops of the later modules end
because of it.
-/

namespace StyleRules
namespace Toml

def isBlank (c : Char) : Bool :=
  c == ' ' || c == '\t'

/-- Everything but control characters; the tab is allowed. -/
def isPrintable (c : Char) : Bool :=
  c == '\t' || (' ' ≤ c && c != '\x7f')

/-- The characters of a key that is written without quotes. -/
def isBare (c : Char) : Bool :=
  c.isAlphanum || c == '-' || c == '_'

def isHexDigit (c : Char) : Bool :=
  c.isDigit || ('a' ≤ c && c ≤ 'f') || ('A' ≤ c && c ≤ 'F')

def isOctalDigit (c : Char) : Bool :=
  '0' ≤ c && c ≤ '7'

def isBinaryDigit (c : Char) : Bool :=
  c == '0' || c == '1'

def digitValue (c : Char) : Nat :=
  if c.isDigit then c.toNat - '0'.toNat
  else if 'a' ≤ c then c.toNat - 'a'.toNat + 10
  else c.toNat - 'A'.toNat + 10

/-- The number that a list of digits denotes, most significant digit first. -/
def numeral (base : Nat) (digits : List Char) : Nat :=
  digits.foldl (fun n c => n * base + digitValue c) 0

def skipBlanks (text : List Char) : List Char :=
  text.dropWhile isBlank

def newline : List Char → Option (List Char)
  | '\n' :: rest => some rest
  | '\r' :: '\n' :: rest => some rest
  | _ => none

/-- A line end; the end of the document counts as one. -/
def lineEnd : List Char → Option (List Char)
  | [] => some []
  | text => newline text

def skipComment : List Char → List Char
  | '#' :: rest => rest.dropWhile isPrintable
  | text => text

/-- What may follow a finished line: blanks, a comment and a line end. -/
def closeLine (text : List Char) : Option (List Char) :=
  lineEnd (skipComment (skipBlanks text))

theorem length_skipBlanks_le (text : List Char) : (skipBlanks text).length ≤ text.length :=
  (List.dropWhile_suffix isBlank).length_le

theorem length_newline_lt {text rest : List Char} (h : newline text = some rest) :
    rest.length < text.length := by
  unfold newline at h
  split at h
  · cases h
    exact Nat.lt_succ_self _
  · cases h
    exact Nat.lt_succ_of_lt (Nat.lt_succ_self _)
  · cases h

theorem length_lineEnd_le {text rest : List Char} (h : lineEnd text = some rest) :
    rest.length ≤ text.length := by
  unfold lineEnd at h
  split at h
  · simp at h
    simp [h]
  · exact Nat.le_of_lt (length_newline_lt h)

theorem length_skipComment_le (text : List Char) : (skipComment text).length ≤ text.length := by
  unfold skipComment
  split
  · exact Nat.le_succ_of_le (List.dropWhile_suffix isPrintable).length_le
  · exact Nat.le_refl _

theorem length_closeLine_le {text rest : List Char} (h : closeLine text = some rest) :
    rest.length ≤ text.length :=
  Nat.le_trans (length_lineEnd_le h)
    (Nat.le_trans (length_skipComment_le _) (length_skipBlanks_le text))

/-- Around the items of an array, blanks, comments and line ends may stand in any number. -/
def skipFiller : List Char → List Char
  | '\n' :: rest => skipFiller rest
  | '\r' :: '\n' :: rest => skipFiller rest
  | '#' :: rest => skipFiller (rest.dropWhile isPrintable)
  | c :: rest => if isBlank c then skipFiller rest else c :: rest
  | [] => []
termination_by text => text.length
decreasing_by
  · exact Nat.lt_succ_self _
  · exact Nat.lt_succ_of_lt (Nat.lt_succ_self _)
  · exact Nat.lt_succ_of_le (List.dropWhile_suffix isPrintable).length_le
  · exact Nat.lt_succ_self _

theorem length_skipFiller_le (text : List Char) : (skipFiller text).length ≤ text.length := by
  fun_induction skipFiller text with
  | case1 rest ih => simp; omega
  | case2 rest ih => simp; omega
  | case3 rest ih =>
      have : (rest.dropWhile isPrintable).length ≤ rest.length :=
        (List.dropWhile_suffix isPrintable).length_le
      simp
      omega
  | case4 c rest _ _ _ _ ih => simp; omega
  | case5 => simp
  | case6 => simp

end Toml
end StyleRules

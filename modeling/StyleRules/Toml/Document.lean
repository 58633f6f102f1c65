import StyleRules.Toml.Line

/-!
# TOML documents

The lines of a document are taken in order, each into the table opened by the
last header. The result is the root table; a document that defines anything
twice has none.
-/

namespace StyleRules
namespace Toml

/-- A document as far as it has been read: its root table, and the path to the table that lines
without a header go into. -/
structure Document where
  root : Table
  current : List String

namespace Document

def empty : Document :=
  ⟨[], []⟩

/-- Opens a table or the next table of an array, and makes it the current one. -/
def openBelow (change : String → Origin → Table → Option Table) (path : Path)
    (document : Document) : Option Document := do
  let root ← Table.changeBelow (fun _ => true) .implied (change path.name) path.parents .header
    document.root
  some ⟨root, path.toList⟩

def add (document : Document) : Line → Option Document
  | .blank => some document
  | .opensTable path => document.openBelow Table.openTable path
  | .opensNext path => document.openBelow Table.openNext path
  | .sets path value => do
      let root ← Table.changeCurrent (fun _ table => table.set path value) document.current
        document.root
      some ⟨root, document.current⟩

def addAll (document : Document) (lines : List Line) : Option Document :=
  lines.foldlM add document

end Document

def skipOrderMark : List Char → List Char
  | '\ufeff' :: rest => rest
  | text => text

def read (text : String) : Option Table := do
  let lines ← lines (skipOrderMark text.toList)
  let document ← Document.empty.addAll lines
  some document.root

end Toml
end StyleRules

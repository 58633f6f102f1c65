import StyleRules.Toml.Key

/-!
# Tables

A table binds names to items, each name once. What may still be added to a table
depends on how it came about, so a table below another one remembers that.
-/

namespace StyleRules
namespace Toml

/-- Nothing but booleans is ever looked at, so any other value is kept as its kind alone. -/
inductive Value where
  | boolean (value : Bool)
  | string
  | integer
  | float
  | moment
  | array
  | inlineTable
deriving DecidableEq, Repr

/-- How a table came about: by a header of its own, as a step on the way to the table of a
header, or as a step of a dotted key. -/
inductive Origin where
  | header
  | implied
  | dotted
deriving DecidableEq, Repr

/-- What a name is bound to. Of an array of tables only the last one can still grow, so it stands
for the array. -/
inductive Item where
  | value (value : Value)
  | table (origin : Origin) (entries : List (String × Item))
  | tables (latest : List (String × Item))

abbrev Table := List (String × Item)

namespace Table

/-- Binds a name anew, in the place it had if it was bound. -/
def bind (name : String) (item : Item) : Table → Table
  | [] => [(name, item)]
  | (other, old) :: rest =>
      if other = name then (name, item) :: rest else (other, old) :: bind name item rest

/-!
# Growing a table deep inside another

A change below goes down a path and may fail. Tables missing on the way are
made, and `passes` says through which kind of table the path may lead. The last
table of an array is always passed through.
-/

def changeBelow (passes : Origin → Bool) (made : Origin)
    (change : Origin → Table → Option Table) : List String → Origin → Table → Option Table
  | [], origin, table => change origin table
  | name :: names, _, table =>
      match table.lookup name with
      | none => do
          let below ← changeBelow passes made change names made []
          some (table.bind name (.table made below))
      | some (.value _) => none
      | some (.table origin entries) =>
          if passes origin then do
            let below ← changeBelow passes made change names origin entries
            some (table.bind name (.table origin below))
          else
            none
      | some (.tables latest) => do
          let below ← changeBelow passes made change names .header latest
          some (table.bind name (.tables below))

/-- Gives a name that is still free its value. A dotted key must end in a table that dotted keys
made, and a plain one must not. -/
def setLast (dotted : Bool) (name : String) (value : Value) (origin : Origin) (table : Table) :
    Option Table :=
  if (origin == .dotted) = dotted then
    match table.lookup name with
    | none => some (table.bind name (.value value))
    | some _ => none
  else
    none

/-- Gives a path its value. Tables with a header of their own are closed to dotted keys. -/
def set (path : Path) (value : Value) (table : Table) : Option Table :=
  changeBelow (fun origin => origin != .header) .dotted
    (setLast (!path.parents.isEmpty) path.name value) path.parents .header table

/-- Opens the table of a header. It must be new, unless it was only implied so far. -/
def openTable (name : String) (_ : Origin) (table : Table) : Option Table :=
  match table.lookup name with
  | none => some (table.bind name (.table .header []))
  | some (.table .implied entries) => some (table.bind name (.table .header entries))
  | some _ => none

def openNext (name : String) (_ : Origin) (table : Table) : Option Table :=
  match table.lookup name with
  | none => some (table.bind name (.tables []))
  | some (.tables _) => some (table.bind name (.tables []))
  | some _ => none

/-- Changes the table that the last header opened, or the root before any header. -/
def changeCurrent (change : Origin → Table → Option Table) (path : List String)
    (table : Table) : Option Table :=
  changeBelow (fun _ => true) .implied change path .header table

end Table

end Toml
end StyleRules

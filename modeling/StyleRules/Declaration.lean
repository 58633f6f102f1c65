import StyleRules.Text.AsciiCase

/-!
# Declarations

A declaration gives a property a value. Property names are kept in lower case,
values exactly as they came.
-/

namespace StyleRules

structure Declaration where
  property : String
  value : String
  important : Bool
  property_lower : property.toLower = property
deriving DecidableEq, Repr

namespace Declaration

def of (property value : String) : Declaration :=
  ⟨property.toLower, value, false, String.toLower_toLower property⟩

def markImportant (declaration : Declaration) : Declaration :=
  { declaration with important := true }

def render (declaration : Declaration) : String :=
  declaration.property ++ ": " ++ declaration.value ++
    (if declaration.important then " !important" else "") ++ ";"

/-- Declarations in braces, one on each line. -/
def renderBlock (declarations : List Declaration) : String :=
  "\x7b\n" ++ String.join (declarations.map fun d => "  " ++ d.render ++ "\n") ++ "\x7d"

end Declaration

end StyleRules

import StyleRules.Text.AsciiCase

/-!
# Media queries

A query asks for a type of media, for features, or for both, and may be negated.
A list of queries holds where one of them does; the empty list holds everywhere.
-/

namespace StyleRules

/-- A feature, alone or with the value it must have. -/
structure MediaFeature where
  name : String
  value : Option String
deriving DecidableEq, Repr

structure MediaQuery where
  negated : Bool
  mediaType : Option String
  features : List MediaFeature
deriving DecidableEq, Repr

namespace MediaQuery

def plain : MediaQuery :=
  ⟨false, none, []⟩

def ofType (mediaType : String) : MediaQuery :=
  ⟨false, some mediaType.toLower, []⟩

end MediaQuery

def MediaFeature.render (feature : MediaFeature) : String :=
  match feature.value with
  | some value => "(" ++ feature.name ++ ": " ++ value ++ ")"
  | none => "(" ++ feature.name ++ ")"

namespace MediaQuery

def conditions (query : MediaQuery) : List String :=
  query.mediaType.toList ++ query.features.map MediaFeature.render

def render (query : MediaQuery) : String :=
  (if query.negated then "not " else "") ++ String.intercalate " and " query.conditions

def renderList (queries : List MediaQuery) : String :=
  match queries with
  | [] => "all"
  | queries => String.intercalate ", " (queries.map render)

end MediaQuery

end StyleRules

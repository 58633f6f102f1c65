/-!
# Errors

The ways in which making a rule, or reading the settings for it, can fail, and
the sentence that reports each of them.
-/

namespace StyleRules

inductive Error where
  | unknownMarginArea (area : String)
  | missingElement
  | factory (message : String)
  | config (message : String)
deriving DecidableEq, Repr

namespace Error

def message : Error → String
  | unknownMarginArea area => "Unknown page margin area '@" ++ area ++ "'"
  | missingElement => "Inline rule set requires an owning element"
  | factory message => "Rule factory failed: " ++ message
  | config message => "Invalid configuration: " ++ message

end Error

end StyleRules

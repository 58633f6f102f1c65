import StyleRules.Error
import StyleRules.Toml.Document

/-!
# Settings

Two switches, written as a TOML document and read from one. A setting that the
document does not mention is on; anything else that the document says is
ignored, as long as it is well formed.
-/

namespace StyleRules

/-- Whether preparation reports what it does, and whether inline declarations outrank every rule
that has a selector. -/
structure Config where
  loggingEnabled : Bool
  inlinePriority : Bool
deriving DecidableEq, Repr

namespace Config

def default : Config :=
  ⟨true, true⟩

def loggingKey : String := "logging_enabled"

def priorityKey : String := "inline_priority"

def writeSwitch (key : String) (value : Bool) : String :=
  key ++ " = " ++ (if value then "true" else "false") ++ "\n"

def write (config : Config) : String :=
  writeSwitch loggingKey config.loggingEnabled ++ writeSwitch priorityKey config.inlinePriority

/-- A switch in the root table; one that is missing is on. -/
def readSwitch (key : String) (root : Toml.Table) : Except Error Bool :=
  match root.lookup key with
  | none => .ok true
  | some (.value (.boolean value)) => .ok value
  | some _ => .error (.config (key ++ " is not a boolean"))

/-- Whatever is wrong with a text is an error of one kind. The words in which it is described, here
and in `readSwitch`, are this library's own: another reader of TOML finds others, and nothing but
the kind of the error is to be relied on. -/
def read (text : String) : Except Error Config :=
  match Toml.read text with
  | none => .error (.config "the text is not a TOML document")
  | some root => do
      let loggingEnabled ← readSwitch loggingKey root
      let inlinePriority ← readSwitch priorityKey root
      .ok ⟨loggingEnabled, inlinePriority⟩

end Config

end StyleRules

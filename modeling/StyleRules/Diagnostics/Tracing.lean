import StyleRules.Config
import StyleRules.Diagnostics.Sink

/-!
# Tracing

A tracing sink hands its records on as events under a fixed target. Whoever
subscribed decides by target and level which of them arrive; without a
subscriber none does. A switch turns the whole sink off.
-/

namespace StyleRules

namespace Target

def package : String := "csskit_parser"

def preparation : String := "csskit_parser::preparator"

end Target

structure Event where
  target : String
  record : Record
deriving DecidableEq, Repr

/-- What a call site sends has its target and its level. -/
structure Callsite where
  target : String
  level : Level
deriving DecidableEq, Repr

/-- The switch, the call sites that the subscriber takes events from, and the events it was
given. -/
structure Tracing where
  enabled : Bool
  subscriber : Option (Callsite → Bool)
  events : List Event

namespace Tracing

def enabledByDefault : Bool :=
  true

def switched (enabled : Bool) : Tracing :=
  ⟨enabled, none, []⟩

def ofConfig (config : Config) : Tracing :=
  switched config.loggingEnabled

def subscribe (tracing : Tracing) (takes : Level → Bool) : Tracing :=
  { tracing with subscriber := some fun site => takes site.level }

def taken (tracing : Tracing) (site : Callsite) : Bool :=
  tracing.subscriber.any (· site)

def send (tracing : Tracing) (site : Callsite) (message : String) : Tracing :=
  if tracing.taken site then
    { tracing with events := tracing.events ++ [⟨site.target, ⟨site.level, message⟩⟩] }
  else
    tracing

/-- The level of a call site is fixed, so there are five to ask at, and five more for `log`. -/
def accepts (tracing : Tracing) (level : Level) : Bool :=
  if tracing.enabled then
    match level with
    | .error => tracing.taken ⟨Target.preparation, .error⟩
    | .warn => tracing.taken ⟨Target.preparation, .warn⟩
    | .info => tracing.taken ⟨Target.preparation, .info⟩
    | .debug => tracing.taken ⟨Target.preparation, .debug⟩
    | .trace => tracing.taken ⟨Target.preparation, .trace⟩
  else
    false

def log (tracing : Tracing) (record : Record) : Tracing :=
  if tracing.enabled then
    match record.level with
    | .error => tracing.send ⟨Target.preparation, .error⟩ record.message
    | .warn => tracing.send ⟨Target.preparation, .warn⟩ record.message
    | .info => tracing.send ⟨Target.preparation, .info⟩ record.message
    | .debug => tracing.send ⟨Target.preparation, .debug⟩ record.message
    | .trace => tracing.send ⟨Target.preparation, .trace⟩ record.message
  else
    tracing

def sink : Sink Tracing where
  accepts level tracing := (tracing.accepts level, tracing)
  log record tracing := tracing.log record

end Tracing

end StyleRules

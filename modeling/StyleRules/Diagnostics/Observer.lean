import StyleRules.Diagnostics.Probe
import StyleRules.Diagnostics.Recording
import StyleRules.Diagnostics.Tracing

/-!
# Observers

An observer is any one of the sinks of this library together with what it has
seen, so that a program can choose its sink while it runs.
-/

namespace StyleRules

inductive Observer where
  | noop
  | recording (recording : Recording)
  | tracing (tracing : Tracing)
  | probe (probe : Probe)

inductive Note where
  | record (record : Record)
  | event (event : Event)
  | exchange (exchange : Exchange)
deriving DecidableEq, Repr

namespace Observer

def accepts (level : Level) : Observer → Bool × Observer
  | noop => (false, noop)
  | recording state =>
      let (wanted, asked) := Recording.sink.accepts level state
      (wanted, recording asked)
  | tracing state =>
      let (wanted, asked) := Tracing.sink.accepts level state
      (wanted, tracing asked)
  | probe state =>
      let (wanted, asked) := Probe.sink.accepts level state
      (wanted, probe asked)

def log (record : Record) : Observer → Observer
  | noop => noop
  | recording state => recording (Recording.sink.log record state)
  | tracing state => tracing (Tracing.sink.log record state)
  | probe state => probe (Probe.sink.log record state)

def sink : Sink Observer where
  accepts := accepts
  log := log

def notes : Observer → List Note
  | noop => []
  | recording state => state.records.map Note.record
  | tracing state => state.events.map Note.event
  | probe state => state.exchanges.map Note.exchange

def notesSince (before after : Observer) : List Note :=
  after.notes.drop before.notes.length

/-- The number of records kept, if records are kept. -/
def kept? : Observer → Option Nat
  | recording state => some state.length
  | _ => none

def enabled? : Observer → Option Bool
  | tracing state => some state.enabled
  | _ => none

def take : Observer → List Record × Observer
  | recording state =>
      let (records, left) := state.take
      (records, recording left)
  | other => ([], other)

def messagesAt (level : Level) : Observer → List String
  | recording state => state.messagesAt level
  | _ => []

def acceptsEach (observer : Observer) : List Level → List Bool × Observer
  | [] => ([], observer)
  | level :: levels =>
      let (wanted, asked) := observer.accepts level
      let (others, last) := asked.acceptsEach levels
      (wanted :: others, last)

end Observer

end StyleRules

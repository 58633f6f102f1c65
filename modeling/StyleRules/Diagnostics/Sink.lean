/-!
# Diagnostics

Preparation reports what it does to a sink. A sink is first asked whether it
wants anything of a level, and is told only if it does.
-/

namespace StyleRules

/-- How severe a report is, from the most to the least severe. -/
inductive Level where
  | error
  | warn
  | info
  | debug
  | trace
deriving DecidableEq, Repr

namespace Level

def all : List Level :=
  [error, warn, info, debug, trace]

/-- How far down a level stands; more severe levels have lower numbers. -/
def verbosity : Level → Nat
  | error => 1
  | warn => 2
  | info => 3
  | debug => 4
  | trace => 5

/-- Whether a level is at least as severe as another one. -/
def within (level limit : Level) : Bool :=
  level.verbosity ≤ limit.verbosity

end Level

structure Record where
  level : Level
  message : String
deriving DecidableEq, Repr

/-- Asking may change what a sink remembers, and so may telling. -/
structure Sink (τ : Type) where
  accepts : Level → τ → Bool × τ
  log : Record → τ → τ

namespace Sink

variable {τ : Type}

def report (sink : Sink τ) (record : Record) (state : τ) : τ :=
  let (wanted, asked) := sink.accepts record.level state
  if wanted then sink.log record asked else asked

def noop : Sink τ where
  accepts _ state := (false, state)
  log _ state := state

end Sink

end StyleRules

import StyleRules.Diagnostics.Sink

/-!
# Probes

A probe notes all that passes between preparation and a sink: every question,
which it answers from a fixed list of levels, and everything it is told.
-/

namespace StyleRules

inductive Exchange where
  | asked (level : Level)
  | told (record : Record)
deriving DecidableEq, Repr

structure Probe where
  wanted : List Level
  exchanges : List Exchange
deriving DecidableEq, Repr

namespace Probe

def wanting (wanted : List Level) : Probe :=
  ⟨wanted, []⟩

def note (probe : Probe) (exchange : Exchange) : Probe :=
  { probe with exchanges := probe.exchanges ++ [exchange] }

def sink : Sink Probe where
  accepts level probe := (probe.wanted.contains level, probe.note (.asked level))
  log record probe := probe.note (.told record)

end Probe

end StyleRules

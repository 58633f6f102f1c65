import StyleRules.Diagnostics.Sink

/-!
# Recording

A recording sink keeps everything up to a level, in order. It applies its limit
also to what it is told without having been asked.
-/

namespace StyleRules

structure Recording where
  limit : Level
  records : List Record
deriving DecidableEq, Repr

namespace Recording

def upTo (limit : Level) : Recording :=
  ⟨limit, []⟩

def unlimited : Recording :=
  upTo .trace

def accepts (recording : Recording) (level : Level) : Bool :=
  level.within recording.limit

def log (recording : Recording) (record : Record) : Recording :=
  if recording.accepts record.level then
    { recording with records := recording.records ++ [record] }
  else
    recording

def sink : Sink Recording where
  accepts level recording := (recording.accepts level, recording)
  log record recording := recording.log record

def take (recording : Recording) : List Record × Recording :=
  (recording.records, { recording with records := [] })

def messagesAt (recording : Recording) (level : Level) : List String :=
  (recording.records.filter fun record => record.level == level).map Record.message

def length (recording : Recording) : Nat :=
  recording.records.length

def isEmpty (recording : Recording) : Bool :=
  recording.records.isEmpty

end Recording

end StyleRules

import StyleRules.Diagnostics.Recording
import StyleRules.Session.Order

/-!
# Sharing a recording

Preparators that have nothing else in common may report to one recording. Others
may log to it without asking first, and from time to time somebody looks at it
or takes out everything that it holds.
-/

namespace StyleRules
namespace Recording

/-- The factories of all preparators have one state, of which each may use a part. -/
inductive Use (σ : Type) where
  | prepare (preparator : Preparator) (factory : Factory σ) (production : Production)
  | log (record : Record)
  | take
  | look

inductive Reply where
  | outcome (outcome : Outcome)
  | logged
  | batch (records : List Record)
  /-- The recording as it is, from which everything can be read that it tells. -/
  | seen (recording : Recording)
deriving DecidableEq, Repr

def Reply.batch? : Reply → Option (List Record)
  | batch records => some records
  | _ => none

structure Shared (σ : Type) where
  factory : σ
  recording : Recording

namespace Shared

variable {σ : Type}

def perform (shared : Shared σ) : Use σ → Reply × Shared σ
  | .prepare preparator factory production =>
      let preparation := preparator.prepare production
      let run := preparation.run factory Recording.sink shared.factory shared.recording
      (.outcome (Outcome.ofResult run.result), ⟨run.factory, run.sink⟩)
  | .log record =>
      (.logged, { shared with recording := Recording.sink.log record shared.recording })
  | .take =>
      let (records, left) := shared.recording.take
      (.batch records, { shared with recording := left })
  | .look => (.seen shared.recording, shared)

def run (shared : Shared σ) : List (Use σ) → List Reply × Shared σ
  | [] => ([], shared)
  | use :: uses =>
      let (reply, next) := shared.perform use
      let (replies, last) := next.run uses
      (reply :: replies, last)

/-- What was taken during the uses, one batch behind the other. -/
def taken (shared : Shared σ) (uses : List (Use σ)) : List Record :=
  ((shared.run uses).1.filterMap Reply.batch?).flatten

def left (shared : Shared σ) (uses : List (Use σ)) : Recording :=
  (shared.run uses).2.recording

end Shared

namespace Use

variable {σ : Type}

def takes : Use σ → Bool
  | take => true
  | _ => false

def withoutTaking (uses : List (Use σ)) : List (Use σ) :=
  uses.filter fun use => !use.takes

end Use

end Recording
end StyleRules

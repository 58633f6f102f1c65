import StyleRules.Diagnostics.Sink
import StyleRules.Factory

/-!
# Preparations

A preparation is a little program: it makes requests, reports what it does, and
comes to a result or to an error. A request that is refused ends it with the
factory's error. Running a preparation takes any factory and any sink, so what
it does is settled before either is known.
-/

namespace StyleRules

inductive Preparation (α : Type) where
  | done (result : Except Error α)
  | request (request : Request) (next : request.Product → Preparation α)
  | report (record : Record) (next : Preparation α)

namespace Preparation

variable {α β σ τ : Type}

def succeed (result : α) : Preparation α :=
  done (.ok result)

def fail (error : Error) : Preparation α :=
  done (.error error)

def map (f : α → β) : Preparation α → Preparation β
  | done (.ok result) => done (.ok (f result))
  | done (.error error) => done (.error error)
  | request asked next => request asked fun product => map f (next product)
  | report record next => report record (map f next)

/-- What a run comes to, and how it leaves the factory and the sink. -/
structure Run (α σ τ : Type) where
  result : Except Error α
  factory : σ
  sink : τ

def run (factory : Factory σ) (sink : Sink τ) : Preparation α → σ → τ → Run α σ τ
  | done result, made, told => ⟨result, made, told⟩
  | request asked next, made, told =>
      match factory.create asked made with
      | (.ok product, made) => run factory sink (next product) made told
      | (.error error, made) => ⟨.error error, made, told⟩
  | report record next, made, told => run factory sink next made (sink.report record told)

end Preparation

end StyleRules

import StyleRules.Preparation.Rules

/-!
# Laws of running

A run follows a preparation node by node. Changing the result of a preparation
changes the result of its runs and nothing else, and the sink has no part in
what a run comes to or in how it leaves the factory.
-/

namespace StyleRules
namespace Preparation

variable {α β σ τ : Type} (factory : Factory σ) (sink : Sink τ)

/-!
# Nodes

A report changes the sink and nothing else, and what follows a request depends
on the answer of the factory.
-/

theorem run_report (record : Record) (next : Preparation α) (made : σ) (told : τ) :
    (report record next).run factory sink made told =
      next.run factory sink made (sink.report record told) :=
  rfl

theorem run_request_granted {asked : Request} {product : asked.Product}
    (next : asked.Product → Preparation α) {made after : σ} (told : τ)
    (granted : factory.create asked made = (.ok product, after)) :
    (request asked next).run factory sink made told =
      (next product).run factory sink after told := by
  simp [run, granted]

theorem run_request_refused {asked : Request} {error : Error}
    (next : asked.Product → Preparation α) {made after : σ} (told : τ)
    (refused : factory.create asked made = (.error error, after)) :
    (request asked next).run factory sink made told = ⟨.error error, after, told⟩ := by
  simp [run, refused]

def Run.map (f : α → β) (run : Run α σ τ) : Run β σ τ :=
  ⟨run.result.map f, run.factory, run.sink⟩

theorem run_map (f : α → β) (preparation : Preparation α) (made : σ) (told : τ) :
    (preparation.map f).run factory sink made told =
      (preparation.run factory sink made told).map f := by
  induction preparation generalizing made told with
  | done result =>
      cases result <;> rfl
  | request asked next ih =>
      rcases answered : factory.create asked made with ⟨answer, after⟩
      cases answer with
      | error error =>
          rw [map, run_request_refused factory sink _ told answered,
            run_request_refused factory sink _ told answered]
          rfl
      | ok product =>
          rw [map, run_request_granted factory sink _ told answered,
            run_request_granted factory sink _ told answered]
          exact ih product after told
  | report record next ih =>
      exact ih made (sink.report record told)

/-!
# Silence

A silenced run is one of which the sink is forgotten. It is the run with the
sink that wants nothing, whichever sink it was made with.
-/

def Run.silenced (run : Run α σ τ) : Run α σ Unit :=
  ⟨run.result, run.factory, ()⟩

theorem run_silenced (preparation : Preparation α) (made : σ) (told : τ) :
    (preparation.run factory sink made told).silenced =
      preparation.run factory Sink.noop made () := by
  induction preparation generalizing made told with
  | done result =>
      rfl
  | request asked next ih =>
      rcases answered : factory.create asked made with ⟨answer, after⟩
      cases answer with
      | error error =>
          rw [run_request_refused factory sink next told answered,
            run_request_refused factory Sink.noop next () answered]
          rfl
      | ok product =>
          rw [run_request_granted factory sink next told answered,
            run_request_granted factory Sink.noop next () answered]
          exact ih product after told
  | report record next ih =>
      exact ih made (sink.report record told)

end Preparation
end StyleRules

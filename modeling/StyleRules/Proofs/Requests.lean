import StyleRules.Proofs.Running

/-!
# Requests of a run

A logged factory shows what a run requests. Of a preparation that keeps to a
script, the requests of every run are known in advance: those of the script, up
to the first that the factory refuses.
-/

namespace StyleRules

/-!
# Logged factories

A logged factory answers like the factory it is made from, and keeps all
requests beside the state, the refused ones included.
-/

def Factory.logged {σ : Type} (factory : Factory σ) : Factory (List Request × σ) where
  create request state :=
    let (answer, after) := factory.create request state.2
    (answer, (state.1 ++ [request], after))

namespace Factory

variable {σ : Type} (factory : Factory σ)

theorem logged_create {request : Request} {answer : Except Error request.Product}
    {made after : σ} (answered : factory.create request made = (answer, after))
    (before : List Request) :
    factory.logged.create request (before, made) = (answer, (before ++ [request], after)) := by
  simp [logged, answered]

end Factory

namespace Preparation

variable {α σ τ : Type} (factory : Factory σ) (sink : Sink τ)

def requests (preparation : Preparation α) (made : σ) (told : τ) : List Request :=
  (preparation.run factory.logged sink ([], made) told).factory.1

/-- Logging leaves the run as it is, and adds to the log what the run requests. -/
theorem run_logged (preparation : Preparation α) (before : List Request) (made : σ) (told : τ) :
    preparation.run factory.logged sink (before, made) told =
      ⟨(preparation.run factory sink made told).result,
        (before ++ preparation.requests factory sink made told,
          (preparation.run factory sink made told).factory),
        (preparation.run factory sink made told).sink⟩ := by
  induction preparation generalizing before made told with
  | done result =>
      simp [requests, run]
  | request asked next ih =>
      rcases answered : factory.create asked made with ⟨answer, after⟩
      have logged (before : List Request) := factory.logged_create answered before
      unfold requests
      cases answer with
      | error error =>
          rw [run_request_refused factory.logged sink next told (logged before),
            run_request_refused factory.logged sink next told (logged []),
            run_request_refused factory sink next told answered]
          rfl
      | ok product =>
          rw [run_request_granted factory.logged sink next told (logged before),
            run_request_granted factory.logged sink next told (logged []),
            run_request_granted factory sink next told answered]
          -- Once for the log at hand, and once for the log that begins with this request.
          rw [ih product (before ++ [asked]) after told, ih product ([] ++ [asked]) after told,
            List.append_assoc]
          rfl
  | report record next ih =>
      exact ih before made (sink.report record told)

theorem requests_request_refused {asked : Request} {error : Error}
    (next : asked.Product → Preparation α) {made after : σ} (told : τ)
    (refused : factory.create asked made = (.error error, after)) :
    (request asked next).requests factory sink made told = [asked] := by
  rw [requests,
    run_request_refused factory.logged sink next told (factory.logged_create refused [])]
  rfl

theorem requests_request_granted {asked : Request} {product : asked.Product}
    (next : asked.Product → Preparation α) {made after : σ} (told : τ)
    (granted : factory.create asked made = (.ok product, after)) :
    (request asked next).requests factory sink made told =
      asked :: (next product).requests factory sink after told := by
  rw [requests,
    run_request_granted factory.logged sink next told (factory.logged_create granted []),
    run_logged]
  rfl

end Preparation

/-!
# Attempts
-/

/-- What comes of a list of requests: those that were made, the error of the last one if it was
refused, and the state that the factory is left in. -/
structure Attempt (σ : Type) where
  asked : List Request
  refusal : Option Error
  state : σ

namespace Factory

variable {σ : Type} (factory : Factory σ)

/-- Makes requests in order, until one is refused. -/
def attempt : List Request → σ → Attempt σ
  | [], made => ⟨[], none, made⟩
  | request :: script, made =>
      match factory.create request made with
      | (.error error, after) => ⟨[request], some error, after⟩
      | (.ok _, after) =>
          let later := attempt script after
          ⟨request :: later.asked, later.refusal, later.state⟩

theorem attempt_refused {request : Request} {error : Error} {made after : σ}
    (refused : factory.create request made = (.error error, after)) (script : List Request) :
    factory.attempt (request :: script) made = ⟨[request], some error, after⟩ := by
  simp [attempt, refused]

theorem attempt_granted {request : Request} {product : request.Product} {made after : σ}
    (granted : factory.create request made = (.ok product, after)) (script : List Request) :
    factory.attempt (request :: script) made =
      ⟨request :: (factory.attempt script after).asked, (factory.attempt script after).refusal,
        (factory.attempt script after).state⟩ := by
  simp [attempt, granted]

theorem attempt_asked_prefix (script : List Request) (made : σ) :
    (factory.attempt script made).asked <+: script := by
  induction script generalizing made with
  | nil =>
      exact List.prefix_refl []
  | cons request script ih =>
      rcases answered : factory.create request made with ⟨answer, after⟩
      cases answer with
      | error error =>
          rw [attempt_refused factory answered]
          exact List.prefix_append [request] script
      | ok product =>
          rw [attempt_granted factory answered]
          exact (List.prefix_cons_inj request).mpr (ih after)

/-- An attempt stops early only when something is refused. -/
theorem attempt_asked_of_granted {script : List Request} {made : σ}
    (granted : (factory.attempt script made).refusal = none) :
    (factory.attempt script made).asked = script := by
  induction script generalizing made with
  | nil =>
      rfl
  | cons request script ih =>
      rcases answered : factory.create request made with ⟨answer, after⟩
      cases answer with
      | error error =>
          rw [attempt_refused factory answered] at granted
          cases granted
      | ok product =>
          rw [attempt_granted factory answered] at granted ⊢
          rw [ih granted]

end Factory

/-!
# Preparations that keep to a script

However the factory answers, such a preparation makes the requests of the script
in order, and is done with a good result when the script is.
-/

namespace Preparation

variable {α β σ τ : Type} {good : α → Prop} {script : List Request}

inductive Follows (good : α → Prop) : List Request → Preparation α → Prop where
  | done {result : α} (fine : good result) : Follows good [] (.done (.ok result))
  | request {script : List Request} {asked : Request} {next : asked.Product → Preparation α}
      (later : forall product, Follows good script (next product)) :
      Follows good (asked :: script) (.request asked next)
  | report {script : List Request} {record : Record} {next : Preparation α}
      (later : Follows good script next) : Follows good script (.report record next)

theorem Follows.map {better : β → Prop} {f : α → β} {preparation : Preparation α}
    (follows : Follows good script preparation)
    (improves : forall result, good result → better (f result)) :
    Follows better script (preparation.map f) := by
  induction follows with
  | done fine =>
      exact .done (improves _ fine)
  | request _ ih =>
      exact .request ih
  | report _ ih =>
      exact .report ih

/-- The run ends as the attempt does: with its refusal, or else with a good result. -/
def Run.EndsLike (run : Run α σ τ) (good : α → Prop) (attempt : Attempt σ) : Prop :=
  run.factory = attempt.state ∧
    match attempt.refusal with
    | some error => run.result = .error error
    | none => exists result, good result ∧ run.result = .ok result

theorem Follows.run_endsLike {preparation : Preparation α}
    (follows : Follows good script preparation) (factory : Factory σ) (sink : Sink τ)
    (made : σ) (told : τ) :
    (preparation.run factory sink made told).EndsLike good (factory.attempt script made) := by
  induction follows generalizing made told with
  | done fine =>
      exact ⟨rfl, _, fine, rfl⟩
  | @request script asked next _ ih =>
      rcases answered : factory.create asked made with ⟨answer, after⟩
      cases answer with
      | error error =>
          rw [run_request_refused factory sink next told answered,
            factory.attempt_refused answered]
          exact ⟨rfl, rfl⟩
      | ok product =>
          rw [run_request_granted factory sink next told answered,
            factory.attempt_granted answered]
          exact ih product after told
  | report _ ih =>
      exact ih made (sink.report _ told)

theorem Follows.requests_eq {preparation : Preparation α}
    (follows : Follows good script preparation) (factory : Factory σ) (sink : Sink τ)
    (made : σ) (told : τ) :
    preparation.requests factory sink made told = (factory.attempt script made).asked := by
  induction follows generalizing made told with
  | done _ =>
      rfl
  | @request script asked next _ ih =>
      rcases answered : factory.create asked made with ⟨answer, after⟩
      cases answer with
      | error error =>
          rw [requests_request_refused factory sink next told answered,
            factory.attempt_refused answered]
      | ok product =>
          rw [requests_request_granted factory sink next told answered,
            factory.attempt_granted answered, ih product after told]
  | report _ ih =>
      exact ih made (sink.report _ told)

end Preparation
end StyleRules

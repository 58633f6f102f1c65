import StyleRules.Proofs.Running

/-!
# Dialogues with a sink

What a preparation has to report is settled by the answers of the factory, and
the sink has no part in it. Of each record in turn the sink is asked whether it
wants its level, and it is told the record at once if it does. A watched sink
shows that nothing else passes between the two.
-/

namespace StyleRules

/-- A question that a sink was asked, with its answer, or a record that it was told. -/
inductive SinkCall where
  | asked (level : Level) (wanted : Bool)
  | told (record : Record)
deriving DecidableEq, Repr

def SinkCall.record? : SinkCall → Option Record
  | asked _ _ => none
  | told record => some record

namespace Sink

variable {τ : Type}

/-- A watched sink answers like the sink it is made from, and keeps all calls beside the state. -/
def watched (sink : Sink τ) : Sink (List SinkCall × τ) where
  accepts level state :=
    let (wanted, asked) := sink.accepts level state.2
    (wanted, (state.1 ++ [.asked level wanted], asked))
  log record state := (state.1 ++ [.told record], sink.log record state.2)

theorem watched_report_wanted {sink : Sink τ} {record : Record} {state asked : τ}
    (wanted : sink.accepts record.level state = (true, asked)) (before : List SinkCall) :
    sink.watched.report record (before, state) =
      (before ++ [.asked record.level true, .told record], sink.report record state) := by
  simp [report, watched, wanted]

theorem watched_report_unwanted {sink : Sink τ} {record : Record} {state asked : τ}
    (unwanted : sink.accepts record.level state = (false, asked)) (before : List SinkCall) :
    sink.watched.report record (before, state) =
      (before ++ [.asked record.level false], sink.report record state) := by
  simp [report, watched, unwanted]

end Sink

/-- The calls are about the records and in their order: of each record the sink is asked once
whether it wants the level, and it is told the record directly after a yes, and only then. -/
inductive Dialogue : List Record → List SinkCall → Prop where
  | silence : Dialogue [] []
  | wanted {record : Record} {records : List Record} {calls : List SinkCall}
      (later : Dialogue records calls) :
      Dialogue (record :: records) (.asked record.level true :: .told record :: calls)
  | unwanted {record : Record} {records : List Record} {calls : List SinkCall}
      (later : Dialogue records calls) :
      Dialogue (record :: records) (.asked record.level false :: calls)

namespace Dialogue

variable {records later : List Record} {calls further : List SinkCall}

theorem append (first : Dialogue records calls) (second : Dialogue later further) :
    Dialogue (records ++ later) (calls ++ further) := by
  induction first with
  | silence =>
      exact second
  | wanted _ ih =>
      exact .wanted ih
  | unwanted _ ih =>
      exact .unwanted ih

/-- A sink that never says no is told everything. -/
theorem told_of_accepting (dialogue : Dialogue records calls)
    (accepting : forall level, .asked level false ∉ calls) :
    calls.filterMap SinkCall.record? = records := by
  induction dialogue with
  | silence =>
      rfl
  | @wanted record records calls later ih =>
      have accepting (level : Level) : .asked level false ∉ calls := by
        intro refused
        exact accepting level (List.mem_cons_of_mem _ (List.mem_cons_of_mem _ refused))
      exact congrArg (List.cons record) (ih accepting)
  | @unwanted record _ _ _ _ =>
      exact absurd List.mem_cons_self (accepting record.level)

end Dialogue

/-!
# Records of a preparation
-/

abbrev Reply := Σ request : Request, Except Error request.Product

namespace Preparation

variable {α σ τ υ : Type}

def records (factory : Factory σ) : Preparation α → σ → List Record
  | done _, _ => []
  | request asked next, made =>
      match factory.create asked made with
      | (.ok product, made) => records factory (next product) made
      | (.error _, _) => []
  | report record next, made => record :: records factory next made

def replies (factory : Factory σ) : Preparation α → σ → List Reply
  | done _, _ => []
  | request asked next, made =>
      match factory.create asked made with
      | (.ok product, made) => ⟨asked, .ok product⟩ :: replies factory (next product) made
      | (.error error, _) => [⟨asked, .error error⟩]
  | report _ next, made => replies factory next made

section

variable (factory : Factory σ) {asked : Request} (next : asked.Product → Preparation α)
  {made after : σ}

theorem records_request_granted {product : asked.Product}
    (granted : factory.create asked made = (.ok product, after)) :
    (request asked next).records factory made = (next product).records factory after := by
  simp [records, granted]

theorem records_request_refused {error : Error}
    (refused : factory.create asked made = (.error error, after)) :
    (request asked next).records factory made = [] := by
  simp [records, refused]

theorem replies_request_granted {product : asked.Product}
    (granted : factory.create asked made = (.ok product, after)) :
    (request asked next).replies factory made =
      ⟨asked, .ok product⟩ :: (next product).replies factory after := by
  simp [replies, granted]

theorem replies_request_refused {error : Error}
    (refused : factory.create asked made = (.error error, after)) :
    (request asked next).replies factory made = [⟨asked, .error error⟩] := by
  simp [replies, refused]

end

/-- What is reported depends on nothing but the preparation and the answers of the factory. -/
theorem records_eq_of_replies_eq (first : Factory σ) (second : Factory υ)
    (preparation : Preparation α) {made : σ} {other : υ}
    (same : preparation.replies first made = preparation.replies second other) :
    preparation.records first made = preparation.records second other := by
  induction preparation generalizing made other with
  | done result =>
      rfl
  | report record next ih =>
      exact congrArg (List.cons record) (ih same)
  | request asked next ih =>
      -- Answers of two kinds make the replies differ, and equal products lead to the same rest.
      rcases answered : first.create asked made with ⟨_ | product, after⟩
      · rcases replied : second.create asked other with ⟨_ | product, left⟩
        · rw [records_request_refused first next answered,
            records_request_refused second next replied]
        · rw [replies_request_refused first next answered,
            replies_request_granted second next replied] at same
          cases same
      · rcases replied : second.create asked other with ⟨_ | product, left⟩
        · rw [replies_request_granted first next answered,
            replies_request_refused second next replied] at same
          cases same
        · rw [replies_request_granted first next answered,
            replies_request_granted second next replied] at same
          rw [records_request_granted first next answered,
            records_request_granted second next replied]
          cases (List.cons.inj same).left
          exact ih _ (List.cons.inj same).right

/-!
# The dialogue of a run
-/

def calls (preparation : Preparation α) (factory : Factory σ) (sink : Sink τ) (made : σ)
    (told : τ) : List SinkCall :=
  (preparation.run factory sink.watched made ([], told)).sink.1

/-- Watching leaves the run as it is, and adds a dialogue about its records to the calls. -/
theorem run_watched (preparation : Preparation α) (factory : Factory σ) (sink : Sink τ)
    (made : σ) (before : List SinkCall) (told : τ) :
    exists calls, Dialogue (preparation.records factory made) calls ∧
      preparation.run factory sink.watched made (before, told) =
        ⟨(preparation.run factory sink made told).result,
          (preparation.run factory sink made told).factory,
          (before ++ calls, (preparation.run factory sink made told).sink)⟩ := by
  induction preparation generalizing made before told with
  | done result =>
      exact ⟨[], .silence, by simp [run]⟩
  | request asked next ih =>
      rcases answered : factory.create asked made with ⟨answer, after⟩
      cases answer with
      | error error =>
          rw [records_request_refused factory next answered,
            run_request_refused factory sink.watched next _ answered,
            run_request_refused factory sink next told answered]
          exact ⟨[], .silence, by simp⟩
      | ok product =>
          rw [records_request_granted factory next answered,
            run_request_granted factory sink.watched next _ answered,
            run_request_granted factory sink next told answered]
          exact ih product after before told
  | report record next ih =>
      rw [run_report, run_report]
      rcases answered : sink.accepts record.level told with ⟨wanted, asked⟩
      cases wanted with
      | true =>
          rw [Sink.watched_report_wanted answered]
          -- The two calls about this record go before those of the rest.
          rcases ih made (before ++ [.asked record.level true, .told record])
            (sink.report record told) with ⟨calls, dialogue, ran⟩
          rw [List.append_assoc] at ran
          exact ⟨_, .wanted dialogue, ran⟩
      | false =>
          rw [Sink.watched_report_unwanted answered]
          rcases ih made (before ++ [.asked record.level false])
            (sink.report record told) with ⟨calls, dialogue, ran⟩
          rw [List.append_assoc] at ran
          exact ⟨_, .unwanted dialogue, ran⟩

theorem calls_dialogue (preparation : Preparation α) (factory : Factory σ) (sink : Sink τ)
    (made : σ) (told : τ) :
    Dialogue (preparation.records factory made) (preparation.calls factory sink made told) := by
  rcases preparation.run_watched factory sink made [] told with ⟨calls, dialogue, ran⟩
  rw [Preparation.calls, ran]
  exact dialogue

end Preparation
end StyleRules

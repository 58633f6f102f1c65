import StyleRules.Diagnostics.Recording
import StyleRules.Diagnostics.Tracing

/-!
# Asking before telling

A sink that keeps or hands on what it is told looks at the level once more, and
takes exactly what it would have said yes to. So nothing depends on whether it
is asked before it is told.
-/

namespace StyleRules
namespace Sink

variable {τ ν : Type}

/-- Asks about every record in turn, and tells those that are wanted. -/
def reportAll (sink : Sink τ) (records : List Record) (state : τ) : τ :=
  records.foldl (fun state record => sink.report record state) state

/-- Tells every record in turn without asking. -/
def logAll (sink : Sink τ) (records : List Record) (state : τ) : τ :=
  records.foldl (fun state record => sink.log record state) state

/-- The records about which the sink would say yes when their turn has come. -/
def wanted (sink : Sink τ) : List Record → τ → List Record
  | [], _ => []
  | record :: records, state =>
      (if (sink.accepts record.level state).1 then [record] else []) ++
        sink.wanted records (sink.log record state)

/-!
# Sinks that select

A step lemma for one record is all that such a sink has to satisfy.
-/

/-- A sink that is not changed by questions and takes what it would say yes to. What it has taken
can be read off its state, where every record has become a note. -/
structure Selective (sink : Sink τ) (taken : τ → List ν) (note : Record → ν) : Prop where
  asking : forall level state, (sink.accepts level state).2 = state
  unwanted : forall record state, (sink.accepts record.level state).1 = false →
    sink.log record state = state
  wanted : forall record state, (sink.accepts record.level state).1 = true →
    taken (sink.log record state) = taken state ++ [note record]
  steady : forall level record state,
    (sink.accepts level (sink.log record state)).1 = (sink.accepts level state).1

namespace Selective

variable {sink : Sink τ} {taken : τ → List ν} {note : Record → ν}

theorem report_eq_log (selective : sink.Selective taken note) (record : Record) (state : τ) :
    sink.report record state = sink.log record state := by
  have unchanged := selective.asking record.level state
  rcases answered : sink.accepts record.level state with ⟨answer, asked⟩
  rw [answered] at unchanged
  cases unchanged
  cases answer with
  | false =>
      have kept := selective.unwanted record asked (congrArg Prod.fst answered)
      simp [report, answered, kept]
  | true =>
      simp [report, answered]

theorem reportAll_eq_logAll (selective : sink.Selective taken note) (records : List Record)
    (state : τ) : sink.reportAll records state = sink.logAll records state := by
  rw [reportAll, logAll]
  congr
  funext state record
  exact selective.report_eq_log record state

theorem taken_log (selective : sink.Selective taken note) (record : Record) (state : τ) :
    taken (sink.log record state) =
      taken state ++
        (if (sink.accepts record.level state).1 then [record] else []).map note := by
  cases answer : (sink.accepts record.level state).1 with
  | false =>
      simp [selective.unwanted record state answer]
  | true =>
      exact selective.wanted record state answer

theorem taken_logAll (selective : sink.Selective taken note) (records : List Record)
    (state : τ) :
    taken (sink.logAll records state) = taken state ++ (sink.wanted records state).map note := by
  induction records generalizing state with
  | nil =>
      exact (List.append_nil (taken state)).symm
  | cons record records ih =>
      calc taken (sink.logAll records (sink.log record state))
          = taken (sink.log record state) ++
              (sink.wanted records (sink.log record state)).map note := ih _
        _ = taken state ++ (sink.wanted (record :: records) state).map note := by
              rw [selective.taken_log, List.append_assoc, ← List.map_append, Sink.wanted]

/-- The answers of such a sink do not depend on when it is asked. -/
theorem wanted_eq_filter (selective : sink.Selective taken note) (records : List Record)
    (state : τ) :
    sink.wanted records state =
      records.filter fun record => (sink.accepts record.level state).1 := by
  induction records generalizing state with
  | nil =>
      rfl
  | cons record records ih =>
      rw [Sink.wanted, ih, List.filter_cons]
      simp only [selective.steady]
      cases (sink.accepts record.level state).1 <;> rfl

end Selective

/-!
# The sinks of this library
-/

theorem noop_selective : (noop : Sink τ).Selective (fun _ => ([] : List Record)) id where
  asking _ _ := rfl
  unwanted _ _ _ := rfl
  wanted _ _ accepted := by
    cases accepted
  steady _ _ _ := rfl

theorem noop_logAll (records : List Record) (state : τ) : noop.logAll records state = state := by
  induction records with
  | nil =>
      rfl
  | cons record records ih =>
      exact ih

end Sink

theorem Recording.sink_selective : Recording.sink.Selective Recording.records id where
  asking _ _ := rfl
  unwanted record recording refused := by
    have refused : recording.accepts record.level = false := refused
    simp [sink, log, refused]
  wanted record recording accepted := by
    have accepted : recording.accepts record.level = true := accepted
    simp [sink, log, accepted]
  steady level record recording := by
    change (recording.log record).accepts level = recording.accepts level
    unfold log
    split <;> rfl

namespace Tracing

theorem accepts_eq (tracing : Tracing) (level : Level) :
    tracing.accepts level =
      (tracing.enabled && tracing.taken ⟨Target.preparation, level⟩) := by
  cases switch : tracing.enabled <;> cases level <;> simp [accepts, switch]

/-- The ten call sites agree: a record is sent from the one for its level, and it arrives exactly
if the sink accepts the level. -/
theorem log_eq (tracing : Tracing) (record : Record) :
    tracing.log record =
      if tracing.accepts record.level then
        { tracing with events := tracing.events ++ [⟨Target.preparation, record⟩] }
      else
        tracing := by
  rw [accepts_eq]
  rcases record with ⟨level, message⟩
  cases switch : tracing.enabled <;> cases level <;> simp [log, send, switch]

theorem sink_selective : Tracing.sink.Selective Tracing.events (Event.mk Target.preparation) where
  asking _ _ := rfl
  unwanted record tracing refused := by
    have refused : tracing.accepts record.level = false := refused
    simp [sink, log_eq, refused]
  wanted record tracing accepted := by
    have accepted : tracing.accepts record.level = true := accepted
    simp [sink, log_eq, accepted]
  steady level record tracing := by
    change (tracing.log record).accepts level = tracing.accepts level
    rw [log_eq]
    split
    · simp only [accepts_eq, taken]
    · rfl

/-- A sink that accepts nothing at all is left as it is. -/
theorem logAll_of_deaf {tracing : Tracing}
    (deaf : tracing.enabled = false ∨ tracing.subscriber = none) (records : List Record) :
    Tracing.sink.logAll records tracing = tracing := by
  have refused (level : Level) : tracing.accepts level = false := by
    rcases deaf with off | alone <;> simp [accepts_eq, taken, *]
  have unchanged (record : Record) : tracing.log record = tracing := by
    simp [log_eq, refused]
  induction records with
  | nil =>
      rfl
  | cons record records ih =>
      exact (congrArg (Tracing.sink.logAll records) (unchanged record)).trans ih

end Tracing

/-- It makes no difference whether the records of a sequence are reported or told without asking.
A recording then keeps the records that it accepts when their turn comes, which are those up to
its limit, and a tracing sink sends on those that it accepts, which are those whose call sites the
subscriber takes events from, if the sink is on. Each comes once, in order and unchanged, and every
event has the target of preparation. A tracing sink that is off or has no subscriber does
nothing, and so does the sink that wants nothing. -/
theorem asking_first_changes_nothing (records : List Record) :
    (forall recording : Recording,
        let told := Recording.sink.logAll records recording
        Recording.sink.reportAll records recording = told ∧
          told.records = recording.records ++ Recording.sink.wanted records recording ∧
          Recording.sink.wanted records recording =
            records.filter fun record => record.level.within recording.limit) ∧
      (forall tracing : Tracing,
        let told := Tracing.sink.logAll records tracing
        Tracing.sink.reportAll records tracing = told ∧
          told.events =
            tracing.events ++
              (Tracing.sink.wanted records tracing).map (Event.mk Target.preparation) ∧
          Tracing.sink.wanted records tracing =
            records.filter (fun record =>
              tracing.enabled && tracing.taken ⟨Target.preparation, record.level⟩) ∧
          (tracing.enabled = false ∨ tracing.subscriber = none → told = tracing)) ∧
      forall {τ : Type} (state : τ),
        Sink.noop.reportAll records state = state ∧ Sink.noop.logAll records state = state ∧
          Sink.noop.wanted records state = [] := by
  refine ⟨?_, ?_, ?_⟩
  · intro recording told
    have selective := Recording.sink_selective
    refine ⟨selective.reportAll_eq_logAll records recording, ?_,
      selective.wanted_eq_filter records recording⟩
    rw [← List.map_id (Recording.sink.wanted records recording)]
    exact selective.taken_logAll records recording
  · intro tracing told
    have selective := Tracing.sink_selective
    refine ⟨selective.reportAll_eq_logAll records tracing,
      selective.taken_logAll records tracing, ?_, ?_⟩
    · rw [selective.wanted_eq_filter]
      exact List.filter_congr fun record _ => tracing.accepts_eq record.level
    · intro deaf
      exact Tracing.logAll_of_deaf deaf records
  · intro τ state
    have selective := Sink.noop_selective (τ := τ)
    have told := Sink.noop_logAll records state
    refine ⟨(selective.reportAll_eq_logAll records state).trans told, told, ?_⟩
    rw [selective.wanted_eq_filter]
    exact List.filter_eq_nil_iff.mpr fun _ _ => Bool.false_ne_true

end StyleRules

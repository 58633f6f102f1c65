import StyleRules.Proofs.Dialogue
import StyleRules.Session.Shared

/-!
# What a recording keeps

A recording keeps what it is told up to its limit, whether it was asked before or
not, and gives it back once and in order: first what was taken, batch by batch,
and then what is left. So a limit and the places where something is taken decide
nothing but which records are there and where they are cut apart.
-/

namespace StyleRules
namespace Recording

/-- The recording with those of the records behind its own that it accepts. -/
def add (recording : Recording) (records : List Record) : Recording :=
  { recording with
    records := recording.records ++ records.filter fun record => recording.accepts record.level }

theorem add_nil (recording : Recording) : recording.add [] = recording := by
  simp [add]

theorem add_add (recording : Recording) (earlier later : List Record) :
    (recording.add earlier).add later = recording.add (earlier ++ later) := by
  simp [add, accepts]

theorem log_eq_add (recording : Recording) (record : Record) :
    recording.log record = recording.add [record] := by
  cases accepted : recording.accepts record.level <;> simp [log, add, accepted]

/-- It makes no difference that a recording is asked before it is told. -/
theorem report_eq_add (recording : Recording) (record : Record) :
    Recording.sink.report record recording = recording.add [record] := by
  change (if recording.accepts record.level then recording.log record else recording) = _
  rw [log_eq_add]
  cases accepted : recording.accepts record.level <;> simp [add, accepted]

end Recording

namespace Preparation

variable {α σ : Type}

theorem run_recording (preparation : Preparation α) (factory : Factory σ) (made : σ)
    (recording : Recording) :
    (preparation.run factory Recording.sink made recording).sink =
      recording.add (preparation.records factory made) := by
  induction preparation generalizing made recording with
  | done result =>
      exact (recording.add_nil).symm
  | request asked next ih =>
      rcases answered : factory.create asked made with ⟨answer, after⟩
      cases answer with
      | error error =>
          rw [run_request_refused factory Recording.sink next recording answered,
            records_request_refused factory next answered]
          exact (recording.add_nil).symm
      | ok product =>
          rw [run_request_granted factory Recording.sink next recording answered,
            records_request_granted factory next answered]
          exact ih product after recording
  | report record next ih =>
      rw [run_report, ih, Recording.report_eq_add, Recording.add_add]
      rfl

end Preparation

namespace Recording

/-!
# What is reported by a use

The recording has no part in it.
-/

namespace Use

variable {σ : Type}

def records (made : σ) : Use σ → List Record
  | prepare preparator factory production => (preparator.prepare production).records factory made
  | log record => [record]
  | take | look => []

def leaves (made : σ) : Use σ → σ
  | prepare preparator factory production =>
      ((preparator.prepare production).run factory Sink.noop made ()).factory
  | log _ | take | look => made

/-- What is reported by all uses, in order. -/
def recordsOf (made : σ) : List (Use σ) → List Record
  | [] => []
  | use :: uses => use.records made ++ recordsOf (use.leaves made) uses

theorem recordsOf_withoutTaking (made : σ) (uses : List (Use σ)) :
    recordsOf made (withoutTaking uses) = recordsOf made uses := by
  induction uses generalizing made with
  | nil =>
      rfl
  | cons use uses ih =>
      cases use with
      | take =>
          exact ih made
      | _ =>
          exact congrArg (_ ++ ·) (ih _)

end Use

/-!
# Whole runs
-/

namespace Shared

variable {σ : Type}

/-- A use adds what it reports, unless it takes everything out. -/
theorem perform_cases (shared : Shared σ) (use : Use σ) :
    use = .take ∨
      use.takes = false ∧ (shared.perform use).1.batch? = none ∧
        (shared.perform use).2 =
          ⟨use.leaves shared.factory, shared.recording.add (use.records shared.factory)⟩ := by
  cases use with
  | prepare preparator factory production =>
      have quiet := congrArg Preparation.Run.factory <|
        (preparator.prepare production).run_silenced factory Recording.sink shared.factory
          shared.recording
      refine .inr ⟨rfl, rfl, ?_⟩
      rw [perform, Preparation.run_recording]
      exact congrArg (Shared.mk · _) quiet
  | log record =>
      have added := log_eq_add shared.recording record
      exact .inr ⟨rfl, rfl, congrArg (Shared.mk shared.factory) added⟩
  | take =>
      exact .inl rfl
  | look =>
      have unchanged := add_nil shared.recording
      exact .inr ⟨rfl, rfl, congrArg (Shared.mk shared.factory) unchanged.symm⟩

theorem taken_cons (shared : Shared σ) (use : Use σ) (uses : List (Use σ)) :
    shared.taken (use :: uses) =
      (shared.perform use).1.batch?.getD [] ++ (shared.perform use).2.taken uses := by
  rw [taken, run]
  cases batch : (shared.perform use).1.batch? <;> simp [batch, taken]

theorem left_cons (shared : Shared σ) (use : Use σ) (uses : List (Use σ)) :
    shared.left (use :: uses) = (shared.perform use).2.left uses :=
  rfl

/-- What was taken and what is left is, in this order, what was there before and all that the
recording accepts of what is reported. -/
theorem taken_append_left (shared : Shared σ) (uses : List (Use σ)) :
    shared.taken uses ++ (shared.left uses).records =
      (shared.recording.add (Use.recordsOf shared.factory uses)).records := by
  induction uses generalizing shared with
  | nil =>
      exact congrArg Recording.records (add_nil shared.recording).symm
  | cons use uses ih =>
      rw [taken_cons, left_cons, List.append_assoc, ih]
      rcases shared.perform_cases use with rfl | ⟨_, unbatched, next⟩
      · -- The batch is what was there, and the recording goes on empty but with its limit.
        simp [perform, take, Reply.batch?, add, accepts, Use.recordsOf, Use.records, Use.leaves]
      · rw [unbatched, next, add_add]
        rfl

theorem taken_withoutTaking (shared : Shared σ) (uses : List (Use σ)) :
    shared.taken (Use.withoutTaking uses) = [] := by
  induction uses generalizing shared with
  | nil =>
      rfl
  | cons use uses ih =>
      rcases shared.perform_cases use with rfl | ⟨untaken, unbatched, _⟩
      · exact ih shared
      · rw [Use.withoutTaking, List.filter_cons_of_pos (by simp [untaken]), taken_cons, unbatched]
        exact ih _

/-- With an unlimited recording from which nothing is taken, everything that is reported is there
in the end. -/
theorem left_of_unlimited (made : σ) (uses : List (Use σ)) :
    ((Shared.mk made unlimited).left (Use.withoutTaking uses)).records =
      Use.recordsOf made uses := by
  have whole := (Shared.mk made unlimited).taken_append_left (Use.withoutTaking uses)
  have accepted (record : Record) : unlimited.accepts record.level = true := by
    cases record.level <;> rfl
  rw [taken_withoutTaking, Use.recordsOf_withoutTaking, add,
    List.filter_eq_self.mpr fun record _ => accepted record] at whole
  exact whole

theorem left_concat_take (shared : Shared σ) (uses : List (Use σ)) :
    (shared.left (uses ++ [.take])).records = [] := by
  induction uses generalizing shared with
  | nil =>
      rfl
  | cons use uses ih =>
      exact ih (shared.perform use).2

end Shared

/-- The messages of a level are those of the records at exactly that level, in order. -/
theorem messagesAt_map_mk (recording : Recording) (level : Level) :
    (recording.messagesAt level).map (Record.mk level) =
      recording.records.filter fun record => record.level == level := by
  rw [messagesAt, List.map_map]
  refine (List.map_congr_left ?_).trans (List.map_id _)
  intro record kept
  rw [← eq_of_beq (List.mem_filter.mp kept).right]
  rfl

theorem count_filter_level (records : List Record) (record : Record) (level : Level) :
    (records.filter fun other => other.level == level).count record =
      if record.level = level then records.count record else 0 := by
  by_cases same : record.level = level
  · rw [if_pos same]
    exact List.count_filter (beq_iff_eq.mpr same)
  · rw [if_neg same, List.count_eq_zero]
    intro kept
    exact same (eq_of_beq (List.mem_filter.mp kept).right)

/-- Reading level by level gives every record once. -/
theorem messagesAt_perm (recording : Recording) :
    (Level.all.flatMap fun level => (recording.messagesAt level).map (Record.mk level)).Perm
      recording.records := by
  refine List.perm_iff_count.mpr ?_
  intro record
  simp only [messagesAt_map_mk, List.count_flatMap, Function.comp_def, count_filter_level]
  cases record.level <;> simp [Level.all]

/-!
# Runs that differ in limit and in what is taken
-/

/-- An unlimited recording from which nothing is taken holds in the end all that was reported.
Whatever its limit, what was taken from a recording and what is left in it is, in this order, what
it would accept of that one. Taking leaves nothing. What is left after any uses can be read level by
level, and nothing is missing or double then. -/
theorem recording_loses_nothing {σ : Type} (limit : Level) (made : σ) (uses : List (Use σ)) :
    let limited : Shared σ := ⟨made, upTo limit⟩
    let whole : Shared σ := ⟨made, unlimited⟩
    let kept := limited.left uses
    (whole.left (Use.withoutTaking uses)).records = Use.recordsOf made uses ∧
      limited.taken uses ++ kept.records =
        (whole.left (Use.withoutTaking uses)).records.filter
          (fun record => record.level.within limit) ∧
      (limited.left (uses ++ [.take])).isEmpty = true ∧
      kept.length = kept.records.length ∧
      (forall level, (kept.messagesAt level).map (Record.mk level) =
        kept.records.filter fun record => record.level == level) ∧
      (Level.all.flatMap fun level => (kept.messagesAt level).map (Record.mk level)).Perm
        kept.records := by
  intro limited whole kept
  have unfiltered := Shared.left_of_unlimited made uses
  refine ⟨unfiltered, ?_, ?_, rfl, kept.messagesAt_map_mk, kept.messagesAt_perm⟩
  · rw [unfiltered]
    exact limited.taken_append_left uses
  · exact List.isEmpty_iff.mpr (limited.left_concat_take uses)

end Recording
end StyleRules

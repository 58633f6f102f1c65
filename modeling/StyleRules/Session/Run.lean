import StyleRules.Diagnostics.Observer
import StyleRules.Session.Assembly

/-!
# Sessions

In a session one preparator, one factory, one observer and one stylesheet serve
a list of steps. A step may use what an earlier step came to, may attach what it
comes to, and leaves a report.
-/

namespace StyleRules

inductive Step where
  | prepare (order : Order) (attach : Bool)
  | push (rule : Rule)
  | attachEarlier (index : Nat)
  | clear
  | showSheet
  | showPreparator
  | compare (first second : Nat)
  | askLevels
  | log (record : Record)
  | request (request : Request)
  | takeRecords
  | messagesAt (level : Level)
deriving DecidableEq, Repr

inductive Answer where
  | nothing
  | outcome (outcome : Outcome)
  | sheet (sheet : Stylesheet)
  | preparator (preparator : Preparator) (enabled : Option Bool)
  | same (same : Bool)
  | accepted (levels : List Bool)
  | product (request : Request) (result : Except Error request.Product)
  | records (records : List Record)
  | messages (messages : List String)

structure Session (σ : Type) where
  factory : Factory σ
  preparator : Preparator

namespace Session

variable {σ : Type}

def assembly (session : Session σ) : Assembly σ Observer :=
  ⟨session.preparator, session.factory, Observer.sink⟩

abbrev State (σ : Type) := Assembly.State σ Observer

def State.start (factory : σ) (observer : Observer) (sheet : Stylesheet) : State σ :=
  ⟨factory, observer, sheet, []⟩

/-- What a step answers, beside its effect on the stylesheet and on all that serves it. -/
structure Effect (σ : Type) extends Assembly.Effect σ Observer where
  answer : Answer

namespace Effect

def answering (answer : Answer) (state : State σ) : Effect σ :=
  ⟨⟨none, none, state⟩, answer⟩

/-- A step that prepares answers with its outcome, and one that only assembles has no answer. -/
def ofMove (effect : Assembly.Effect σ Observer) : Effect σ :=
  ⟨effect, (effect.outcome.map Answer.outcome).getD .nothing⟩

end Effect

def perform (session : Session σ) (state : State σ) : Step → Effect σ
  | .prepare order attach =>
      let move := .prepare (order.production state.history) attach
      .ofMove (session.assembly.perform state move)
  | .push rule => .ofMove (session.assembly.perform state (.push rule))
  | .attachEarlier index =>
      match state.history.outcome? index with
      | none | some (.failed _) => .answering .nothing state
      | some outcome => .ofMove (session.assembly.perform state (.attach outcome.rule?))
  | .clear => .ofMove (session.assembly.perform state .clear)
  | .showSheet => .answering (.sheet state.sheet) state
  | .showPreparator =>
      .answering (.preparator session.preparator state.sink.enabled?) state
  | .compare first second =>
      let same := state.history.outcome? first = state.history.outcome? second
      .answering (.same same) state
  | .askLevels =>
      let (levels, observer) := state.sink.acceptsEach Level.all
      .answering (.accepted levels) { state with sink := observer }
  | .log record => .answering .nothing { state with sink := state.sink.log record }
  | .request request =>
      let (result, factory) := session.factory.create request state.factory
      .answering (.product request result) { state with factory := factory }
  | .takeRecords =>
      let (records, observer) := state.sink.take
      .answering (.records records) { state with sink := observer }
  | .messagesAt level => .answering (.messages (state.sink.messagesAt level)) state

/-- What a step answers, what it added to the notes of the observer and to the requests that the
factory keeps, and how it leaves records and stylesheet. -/
structure Report where
  answer : Answer
  attached : Option Bool
  notes : List Note
  kept : Option Nat
  asked : List RequestKind
  sheet : Stylesheet

def reportOf (before : State (List RequestKind)) (effect : Effect (List RequestKind)) :
    Report where
  answer := effect.answer
  attached := effect.attached
  notes := before.sink.notesSince effect.state.sink
  kept := effect.state.sink.kept?
  asked := effect.state.factory.drop before.factory.length
  sheet := effect.state.sheet

def reports (session : Session (List RequestKind)) (state : State (List RequestKind)) :
    List Step → List Report
  | [] => []
  | step :: steps =>
      let effect := session.perform state step
      reportOf state effect :: session.reports effect.remember steps

end Session

end StyleRules

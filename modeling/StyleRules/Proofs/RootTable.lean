import StyleRules.Toml.Document

/-!
# What a document says about its root table

Every line but a blank one is a statement about a path from the root. Each
statement binds the first name of its path in the root table and leaves all
other names alone. So a name has a value there exactly if some line gives it to
that name alone, wherever the line stands, and entries that no line is about may
as well have been there from the start.
-/

namespace StyleRules
namespace Toml

/-- A path from the root that a line is about, and the value that it is given; a line that opens a
table gives none. -/
structure Statement where
  path : List String
  value : Option Value
deriving DecidableEq, Repr

namespace Line

/-- What a line says when the last header has opened the table at a path. -/
def statement? (current : List String) : Line → Option Statement
  | blank => none
  | opensTable path => some ⟨path.toList, none⟩
  | opensNext path => some ⟨path.toList, none⟩
  | sets path value => some ⟨current ++ path.toList, some value⟩

/-- The path of the table that the lines behind a line go into. -/
def after (current : List String) : Line → List String
  | opensTable path => path.toList
  | opensNext path => path.toList
  | blank => current
  | sets _ _ => current

def statements (current : List String) : List Line → List Statement
  | [] => []
  | line :: lines => (line.statement? current).toList ++ statements (line.after current) lines

/-- What a line does to the root table. -/
def change (current : List String) : Line → Table → Option Table
  | blank => some
  | opensTable path =>
      Table.changeBelow (fun _ => true) .implied (Table.openTable path.name) path.parents .header
  | opensNext path =>
      Table.changeBelow (fun _ => true) .implied (Table.openNext path.name) path.parents .header
  | sets path value => Table.changeCurrent (fun _ table => table.set path value) current

end Line

theorem Document.add_eq (document : Document) (line : Line) :
    document.add line =
      (line.change document.current document.root).map fun root =>
        ⟨root, line.after document.current⟩ := by
  cases line with
  | blank =>
      rfl
  | opensTable path =>
      exact (Option.map_eq_bind ..).symm
  | opensNext path =>
      exact (Option.map_eq_bind ..).symm
  | sets path value =>
      exact (Option.map_eq_bind ..).symm

namespace Table

theorem lookup_cons_eq (name other : String) (item : Item) (table : Table) :
    List.lookup other ((name, item) :: table) =
      if other = name then some item else table.lookup other := by
  by_cases same : other = name
  · simp [same]
  · simp [List.lookup_cons, same, beq_false_of_ne same]

theorem lookup_bind (name other : String) (item : Item) (table : Table) :
    (table.bind name item).lookup other =
      if other = name then some item else table.lookup other := by
  induction table with
  | nil =>
      exact lookup_cons_eq name other item []
  | cons entry table ih =>
      rcases entry with ⟨first, old⟩
      by_cases found : first = name
      · rw [bind, if_pos found, lookup_cons_eq, lookup_cons_eq, found]
        by_cases same : other = name <;> simp [same]
      · rw [bind, if_neg found, lookup_cons_eq, lookup_cons_eq, ih]
        by_cases same : other = first
        · simp [same, found]
        · simp [same]

/-- A name that is not bound in front is bound behind. -/
theorem bind_append {name : String} {before : Table} (free : before.lookup name = none)
    (item : Item) (table : Table) :
    bind name item (before ++ table) = before ++ table.bind name item := by
  induction before with
  | nil =>
      rfl
  | cons entry before ih =>
      rcases entry with ⟨first, old⟩
      rw [lookup_cons_eq] at free
      by_cases found : name = first
      · rw [if_pos found] at free
        cases free
      · rw [if_neg found] at free
        rw [List.cons_append, bind, if_neg (Ne.symm found), ih free, List.cons_append]

theorem lookup_append_of_free {name : String} {before : Table} (free : before.lookup name = none)
    (table : Table) : (before ++ table).lookup name = table.lookup name := by
  rw [List.lookup_append, free, Option.none_or]

end Table

/-!
# Changes that bind one name

All that a line can do to the root table is of this kind, and so are the changes
at the ends of its path.
-/

def Item.value? : Item → Option Value
  | value content => some content
  | table _ _ => none
  | tables _ => none

theorem Item.value?_eq_some_iff {item : Item} {content : Value} :
    item.value? = some content ↔ item = .value content := by
  cases item <;> simp [value?]

namespace Table

/-- The change binds a name at which no value stands, to a value if one is given. Of the other
entries it takes no notice. -/
structure Binds (name : String) (value : Option Value) (change : Table → Option Table) : Prop where
  grows : forall {table grown : Table}, change table = some grown →
    (forall old, table.lookup name ≠ some (.value old)) ∧
      exists item : Item, item.value? = value ∧ grown = table.bind name item
  frames : forall {before table grown : Table}, before.lookup name = none →
    change table = some grown → change (before ++ table) = some (before ++ grown)

/-- A change is of this kind if it looks the name up and, by what it finds, chooses an item for it
or fails, as long as it fails when it finds a value. -/
theorem binds_of_choice {name : String} {value : Option Value} {change : Table → Option Table}
    (decided : forall found : Option Item, exists choice : Option Item,
      (forall table, table.lookup name = found → change table = choice.map (bind name · table)) ∧
      forall item, item ∈ choice →
        (forall old, found ≠ some (.value old)) ∧ item.value? = value) :
    Binds name value change where
  grows := by
    intro table grown changed
    rcases decided (table.lookup name) with ⟨choice, chosen, fitting⟩
    rw [chosen table rfl] at changed
    rcases Option.map_eq_some_iff.mp changed with ⟨item, member, rfl⟩
    rcases fitting item member with ⟨untaken, content⟩
    exact ⟨untaken, item, content, rfl⟩
  frames := by
    intro before table grown free changed
    rcases decided (table.lookup name) with ⟨choice, chosen, fitting⟩
    rw [chosen table rfl] at changed
    rcases Option.map_eq_some_iff.mp changed with ⟨item, rfl, rfl⟩
    rw [chosen (before ++ table) (lookup_append_of_free free table), Option.map_some,
      bind_append free]

theorem openTable_binds (name : String) (origin : Origin) :
    Binds name none (openTable name origin) := by
  apply binds_of_choice
  rintro (_ | _ | ⟨_ | _ | _, entries⟩ | latest)
  case none =>
    refine ⟨some (.table .header []), fun _ found => ?_, by simp [Item.value?]⟩
    rw [openTable, found]
    rfl
  case some.table.implied =>
    refine ⟨some (.table .header entries), fun _ found => ?_, by simp [Item.value?]⟩
    rw [openTable, found]
    rfl
  -- The header is refused in all other cases.
  all_goals
    refine ⟨none, fun _ found => ?_, by simp⟩
    rw [openTable, found]
    rfl

theorem openNext_binds (name : String) (origin : Origin) :
    Binds name none (openNext name origin) := by
  apply binds_of_choice
  rintro (_ | _ | _ | latest)
  case none =>
    refine ⟨some (.tables []), fun _ found => ?_, by simp [Item.value?]⟩
    rw [openNext, found]
    rfl
  case some.tables =>
    refine ⟨some (.tables []), fun _ found => ?_, by simp [Item.value?]⟩
    rw [openNext, found]
    rfl
  -- So is this one, an implied table included.
  all_goals
    refine ⟨none, fun _ found => ?_, by simp⟩
    rw [openNext, found]
    rfl

theorem setLast_binds (dotted : Bool) (name : String) (value : Value) (origin : Origin) :
    Binds name (some value) (setLast dotted name value origin) := by
  apply binds_of_choice
  by_cases fitting : (origin == .dotted) = dotted
  · rintro (_ | item)
    case none =>
      refine ⟨some (.value value), fun _ found => ?_, by simp [Item.value?]⟩
      rw [setLast, if_pos fitting, found]
      rfl
    case some =>
      refine ⟨none, fun _ found => ?_, by simp⟩
      rw [setLast, if_pos fitting, found]
      rfl
  · intro found
    refine ⟨none, fun _ _ => ?_, by simp⟩
    rw [setLast, if_neg fitting]
    rfl

/-- Whatever happens at its end, on the way down a path only tables are bound. -/
theorem changeBelow_binds (passes : Origin → Bool) (made : Origin)
    (change : Origin → Table → Option Table) (name : String) (names : List String)
    (origin : Origin) :
    Binds name none (changeBelow passes made change (name :: names) origin) := by
  apply binds_of_choice
  rintro (_ | content | ⟨passed, entries⟩ | latest)
  case none =>
    refine ⟨(changeBelow passes made change names made []).map (.table made), ?_,
      by simp [Item.value?]⟩
    intro table found
    rw [changeBelow, found, Option.map_map, Option.map_eq_bind]
    rfl
  case some.value =>
    refine ⟨none, fun _ found => ?_, by simp⟩
    rw [changeBelow, found]
    rfl
  case some.table =>
    by_cases passable : passes passed = true
    · refine ⟨(changeBelow passes made change names passed entries).map (.table passed), ?_,
        by simp [Item.value?]⟩
      intro table found
      rw [changeBelow, found, Option.map_map, Option.map_eq_bind]
      exact if_pos passable
    · refine ⟨none, fun _ found => ?_, by simp⟩
      rw [changeBelow, found]
      exact if_neg passable
  case some.tables =>
    refine ⟨(changeBelow passes made change names .header latest).map .tables, ?_,
      by simp [Item.value?]⟩
    intro table found
    rw [changeBelow, found, Option.map_map, Option.map_eq_bind]
    rfl

/-- Following a path and then binding its last name binds the first name of the whole. -/
theorem changeBelow_path_binds {change : Origin → Table → Option Table} {name : String}
    {value : Option Value} (last : forall origin, Binds name value (change origin))
    (passes : Origin → Bool) (made : Origin) (parents : List String) (origin : Origin)
    {top : String} {rest : List String} (path : parents ++ [name] = top :: rest) :
    Binds top (if rest = [] then value else none)
      (changeBelow passes made change parents origin) := by
  cases parents with
  | nil =>
      cases path
      exact last origin
  | cons parent parents =>
      have longer : rest ≠ [] := by
        rintro rfl
        simp at path
      rcases List.cons.inj path with ⟨rfl, _⟩
      rw [if_neg longer]
      exact changeBelow_binds passes made change parent parents origin

end Table

/-- A statement binds the first name of its path, to its value if the path has no more names. -/
theorem Line.change_binds {current : List String} {line : Line} {top : String}
    {rest : List String} {value : Option Value}
    (about : line.statement? current = some ⟨top :: rest, value⟩) :
    Table.Binds top (if rest = [] then value else none) (line.change current) := by
  cases line with
  | blank =>
      cases about
  | opensTable path =>
      injection about with same
      injection same with keys given
      cases given
      exact Table.changeBelow_path_binds (Table.openTable_binds path.name) _ _ path.parents _ keys
  | opensNext path =>
      injection about with same
      injection same with keys given
      cases given
      exact Table.changeBelow_path_binds (Table.openNext_binds path.name) _ _ path.parents _ keys
  | sets path content =>
      injection about with same
      injection same with keys given
      cases given
      cases current with
      | nil =>
          exact Table.changeBelow_path_binds
            (Table.setLast_binds (!path.parents.isEmpty) path.name content) _ _ path.parents _ keys
      | cons name names =>
          have longer : rest ≠ [] := by
            rintro rfl
            simp [Path.toList] at keys
          rcases List.cons.inj keys with ⟨rfl, _⟩
          rw [if_neg longer]
          exact Table.changeBelow_binds _ _ _ name names .header

theorem Line.exists_cons_of_statement {current : List String} {line : Line}
    {statement : Statement} (about : line.statement? current = some statement) :
    exists top rest, statement.path = top :: rest := by
  have nonempty : statement.path ≠ [] := by
    cases line <;> cases about <;> simp [Path.toList]
  exact List.exists_cons_of_ne_nil nonempty

/-!
# One line more
-/

namespace Document

variable {document next last : Document} {line : Line} {lines : List Line} {before : Table}

theorem change_of_add (added : document.add line = some next) :
    line.change document.current document.root = some next.root ∧
      next.current = line.after document.current := by
  rw [add_eq] at added
  rcases Option.map_eq_some_iff.mp added with ⟨root, changed, rfl⟩
  exact ⟨changed, rfl⟩

/-- A line is blank and changes nothing, or it binds the first name of the path it is about. -/
theorem add_cases (added : document.add line = some next) :
    line.statement? document.current = none ∧ next.root = document.root ∨
      exists (top : String) (rest : List String) (value : Option Value) (item : Item),
        line.statement? document.current = some ⟨top :: rest, value⟩ ∧
          (forall old, document.root.lookup top ≠ some (.value old)) ∧
          item.value? = (if rest = [] then value else none) ∧
          next.root = document.root.bind top item := by
  cases about : line.statement? document.current with
  | none =>
      cases line <;> cases about
      cases added
      exact .inl ⟨rfl, rfl⟩
  | some statement =>
      rcases statement with ⟨path, value⟩
      rcases Line.exists_cons_of_statement about with ⟨top, rest, rfl⟩
      rcases (Line.change_binds about).grows (change_of_add added).left with
        ⟨untaken, item, content, grown⟩
      exact .inr ⟨top, rest, value, item, rfl, untaken, content, grown⟩

theorem lookup_add_value (added : document.add line = some next) (name : String) (value : Value) :
    next.root.lookup name = some (.value value) ↔
      document.root.lookup name = some (.value value) ∨
        line.statement? document.current = some ⟨[name], some value⟩ := by
  rcases add_cases added with
    ⟨about, same⟩ | ⟨top, rest, given, item, about, untaken, content, same⟩
  · simp [about, same]
  rw [same, about, Table.lookup_bind]
  by_cases here : name = top
  · subst here
    have bound : item = .value value ↔ rest = [] ∧ given = some value := by
      rw [← Item.value?_eq_some_iff, content]
      cases rest <;> simp
    simpa [untaken] using bound
  · simp [here, Ne.symm here]

theorem lookup_add_none (added : document.add line = some next) (name : String) :
    next.root.lookup name = none ↔
      document.root.lookup name = none ∧
        forall statement, statement ∈ line.statement? document.current →
          statement.path.head? ≠ some name := by
  rcases add_cases added with ⟨about, same⟩ | ⟨top, rest, given, item, about, _, _, same⟩
  · simp [about, same]
  rw [same, about, Table.lookup_bind]
  by_cases here : name = top
  · simp [here]
  · simp [here, Ne.symm here]

/-- Entries whose names a line is not about stay in front of what it changes. -/
theorem add_append (added : document.add line = some next)
    (apart : forall name, next.root.lookup name ≠ none → before.lookup name = none) :
    add ⟨before ++ document.root, document.current⟩ line =
      some ⟨before ++ next.root, next.current⟩ := by
  rcases change_of_add added with ⟨changed, current⟩
  have framed : line.change document.current (before ++ document.root) =
      some (before ++ next.root) := by
    rcases add_cases added with ⟨about, same⟩ | ⟨top, rest, given, item, about, _, _, same⟩
    · cases line <;> cases about
      rw [same, Line.change]
    · have free : before.lookup top = none := by
        apply apart
        simp [same, Table.lookup_bind]
      exact (Line.change_binds about).frames free changed
  rw [add_eq, framed, current]
  rfl

/-!
# All lines
-/

theorem addAll_cons_eq_some_iff :
    document.addAll (line :: lines) = some last ↔
      exists next, document.add line = some next ∧ next.addAll lines = some last :=
  Option.bind_eq_some_iff

/-- A name has a value in the root table exactly if it had it before or some line gives it the
value, and it is free exactly if it was and no line is about a path that starts with it. -/
theorem lookup_addAll (added : document.addAll lines = some last) (name : String) :
    (forall value, last.root.lookup name = some (.value value) ↔
      document.root.lookup name = some (.value value) ∨
        ⟨[name], some value⟩ ∈ Line.statements document.current lines) ∧
      (last.root.lookup name = none ↔
        document.root.lookup name = none ∧
          forall statement, statement ∈ Line.statements document.current lines →
            statement.path.head? ≠ some name) := by
  induction lines generalizing document with
  | nil =>
      cases added
      simp [Line.statements]
  | cons line lines ih =>
      rcases addAll_cons_eq_some_iff.mp added with ⟨next, first, others⟩
      rcases ih others with ⟨values, free⟩
      rw [(change_of_add first).right] at values free
      constructor
      · intro value
        rw [values, lookup_add_value first, Line.statements, List.mem_append, Option.mem_toList,
          or_assoc]
      · rw [free, lookup_add_none first, Line.statements, List.forall_mem_append, and_assoc]
        simp only [Option.mem_toList, Option.mem_def]

/-- A document can be read behind entries for names that it does not use itself. -/
theorem addAll_append (added : document.addAll lines = some last)
    (apart : forall name, last.root.lookup name ≠ none → before.lookup name = none) :
    addAll ⟨before ++ document.root, document.current⟩ lines =
      some ⟨before ++ last.root, last.current⟩ := by
  induction lines generalizing document with
  | nil =>
      cases added
      rfl
  | cons line lines ih =>
      rcases addAll_cons_eq_some_iff.mp added with ⟨next, first, others⟩
      have kept (name : String) (bound : next.root.lookup name ≠ none) :
          before.lookup name = none := by
        apply apart
        intro free
        exact bound ((lookup_addAll others name).right.mp free).left
      exact addAll_cons_eq_some_iff.mpr ⟨_, add_append first kept, ih others⟩

end Document

end Toml
end StyleRules

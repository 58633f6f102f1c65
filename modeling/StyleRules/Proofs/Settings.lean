import StyleRules.Config
import StyleRules.Proofs.KeySpelling
import StyleRules.Proofs.RootTable

/-!
# Reading settings

The settings of a document are what its root table says about two keys, and
nothing else that the document says has a part in them. So settings can be
written in front of any document that does not mention them, and are read back
from there.
-/

namespace StyleRules

namespace Toml

theorem read_eq_some_iff {text : String} {root : Table} :
    Toml.read text = some root ↔
      exists said last, lines (skipOrderMark text.toList) = some said ∧
        Document.empty.addAll said = some last ∧ last.root = root := by
  simp [Toml.read, Option.bind_eq_some_iff]

theorem read_empty : Toml.read "" = some [] := by
  rw [read_eq_some_iff]
  refine ⟨[], Document.empty, ?_, rfl, rfl⟩
  rw [lines]
  rfl

theorem skipOrderMark_of_head {letters : List Char} (unmarked : letters.head? ≠ some '\ufeff') :
    skipOrderMark letters = letters := by
  unfold skipOrderMark
  split
  · exact absurd rfl unmarked
  · rfl

theorem SpellsKey.switchLine_unmarked {name : String} {spelling : List Char}
    (spelled : SpellsKey name spelling) (value : Bool) (text : String) :
    (String.ofList (switchLine spelling value) ++ text).toList.head? ≠ some '\ufeff' := by
  rcases spelled.exists_cons with ⟨c, rest, written, starts⟩
  simpa [switchLine, written] using starts.ne '\ufeff' (by decide)

/-- A line with a boolean goes in front of a document that says nothing about its key. -/
theorem read_switchLine_append {name : String} {spelling : List Char} {text : String} {root : Table}
    (spelled : SpellsKey name spelling) (valid : Toml.read text = some root)
    (unmarked : text.toList.head? ≠ some '\ufeff') (free : root.lookup name = none) (value : Bool) :
    Toml.read (String.ofList (switchLine spelling value) ++ text) =
      some ((name, .value (.boolean value)) :: root) := by
  rcases read_eq_some_iff.mp valid with ⟨said, last, saidRead, added, rfl⟩
  rw [skipOrderMark_of_head unmarked] at saidRead
  have first : Document.empty.add (.sets (Path.single name) (.boolean value)) =
      some ⟨[(name, .value (.boolean value))], []⟩ :=
    rfl
  have apart (other : String) (bound : last.root.lookup other ≠ none) :
      List.lookup other [(name, Item.value (.boolean value))] = none := by
    have distinct : other ≠ name := by
      rintro rfl
      exact bound free
    rw [Table.lookup_cons_eq, if_neg distinct]
    rfl
  rw [read_eq_some_iff, skipOrderMark_of_head (spelled.switchLine_unmarked value text),
    String.toList_append, String.toList_ofList, spelled.lines_append, saidRead]
  exact ⟨_, _, rfl,
    Document.addAll_cons_eq_some_iff.mpr ⟨_, first, Document.addAll_append added apart⟩, rfl⟩

/-- The root table is what the lines say about paths of one name, in whatever order they stand and
whatever they say about longer ones. -/
theorem lookup_read {text : String} {root : Table} (valid : Toml.read text = some root) :
    exists said, lines (skipOrderMark text.toList) = some said ∧
      forall name,
        (forall value, root.lookup name = some (.value value) ↔
          ⟨[name], some value⟩ ∈ Line.statements [] said) ∧
        (root.lookup name = none ↔
          forall statement, statement ∈ Line.statements [] said →
            statement.path.head? ≠ some name) := by
  rcases read_eq_some_iff.mp valid with ⟨said, last, saidRead, added, rfl⟩
  refine ⟨said, saidRead, fun name => ?_⟩
  simpa [Document.empty] using Document.lookup_addAll added name

end Toml

/-!
# Switches
-/

namespace Config

/-- What a root table makes of a switch: the boolean that it binds to the key, or on without one. -/
def Gives (root : Toml.Table) (key : String) (value : Bool) : Prop :=
  root.lookup key = some (.value (.boolean value)) ∨ root.lookup key = none ∧ value = true

/-- The root table binds the key to another kind of value or to a table. -/
def Misuses (root : Toml.Table) (key : String) : Prop :=
  exists item, root.lookup key = some item ∧ forall value, item ≠ .value (.boolean value)

theorem readSwitch_eq_ok_iff {key : String} {root : Toml.Table} {value : Bool} :
    readSwitch key root = .ok value ↔ Gives root key value := by
  unfold readSwitch Gives
  split
  · next free =>
      simp [free, eq_comm]
  · next given bound =>
      simp [bound]
  · next item other bound =>
      have unequal : item ≠ .value (.boolean value) := by
        rintro rfl
        exact other value rfl
      simp [bound, unequal]

theorem exists_readSwitch_eq_error_iff {key : String} {root : Toml.Table} :
    (exists error, readSwitch key root = .error error) ↔ Misuses root key := by
  unfold readSwitch Misuses
  split
  · next free =>
      simp [free]
  · next given bound =>
      simp [bound]
  · next item other bound =>
      simpa [bound] using other

theorem config_of_readSwitch_error {key : String} {root : Toml.Table} {error : Error}
    (failed : readSwitch key root = .error error) : exists message, error = .config message := by
  unfold readSwitch at failed
  split at failed <;> cases failed
  exact ⟨_, rfl⟩

theorem read_of_root {text : String} {root : Toml.Table} (valid : Toml.read text = some root) :
    read text =
      (readSwitch loggingKey root).bind fun loggingEnabled =>
        (readSwitch priorityKey root).bind fun inlinePriority =>
          .ok ⟨loggingEnabled, inlinePriority⟩ := by
  rw [read, valid]
  rfl

theorem read_eq_ok_iff {text : String} {config : Config} :
    read text = .ok config ↔
      exists root, Toml.read text = some root ∧ Gives root loggingKey config.loggingEnabled ∧
        Gives root priorityKey config.inlinePriority := by
  rcases config with ⟨loggingEnabled, inlinePriority⟩
  cases parsed : Toml.read text with
  | none =>
      simp [read, parsed]
  | some root =>
      rw [read_of_root parsed]
      simp only [← readSwitch_eq_ok_iff, Option.some.injEq, exists_eq_left']
      cases readSwitch loggingKey root <;> cases readSwitch priorityKey root <;>
        simp [Except.bind]

theorem exists_read_eq_error_iff {text : String} :
    (exists error, read text = .error error) ↔
      Toml.read text = none ∨
        exists root, Toml.read text = some root ∧
          (Misuses root loggingKey ∨ Misuses root priorityKey) := by
  cases parsed : Toml.read text with
  | none =>
      simp [read, parsed]
  | some root =>
      rw [read_of_root parsed]
      simp only [← exists_readSwitch_eq_error_iff, Option.some.injEq, exists_eq_left', reduceCtorEq,
        false_or]
      cases readSwitch loggingKey root <;> cases readSwitch priorityKey root <;>
        simp [Except.bind]

theorem config_of_read_error {text : String} {error : Error} (failed : read text = .error error) :
    exists message, error = .config message := by
  cases parsed : Toml.read text with
  | none =>
      rw [read, parsed] at failed
      cases failed
      exact ⟨_, rfl⟩
  | some root =>
      rw [read_of_root parsed] at failed
      cases logging : readSwitch loggingKey root with
      | error cause =>
          rw [logging] at failed
          cases failed
          exact config_of_readSwitch_error logging
      | ok loggingEnabled =>
          cases priority : readSwitch priorityKey root with
          | error cause =>
              rw [logging, priority] at failed
              cases failed
              exact config_of_readSwitch_error priority
          | ok inlinePriority =>
              rw [logging, priority] at failed
              cases failed

/-!
# Settings in front of a document
-/

theorem writeSwitch_eq (key : String) (value : Bool) :
    writeSwitch key value = String.ofList (Toml.switchLine key.toList value) := by
  cases value <;> simp [writeSwitch, Toml.switchLine, Toml.booleanText, String.ext_iff]

theorem loggingKey_bare : Toml.SpellsKey loggingKey loggingKey.toList :=
  .bare (by decide) (List.all_eq_true.mp (by decide))

theorem priorityKey_bare : Toml.SpellsKey priorityKey priorityKey.toList :=
  .bare (by decide) (List.all_eq_true.mp (by decide))

theorem keys_distinct : loggingKey ≠ priorityKey := by
  decide

/-- Lines for both switches, with keys of any spelling and in either order, in front of a document
that mentions neither. -/
theorem read_switchLines_append {loggingSpelling prioritySpelling : List Char} {text : String}
    {root : Toml.Table} (logging : Toml.SpellsKey loggingKey loggingSpelling)
    (priority : Toml.SpellsKey priorityKey prioritySpelling) (valid : Toml.read text = some root)
    (unmarked : text.toList.head? ≠ some '\ufeff') (loggingFree : root.lookup loggingKey = none)
    (priorityFree : root.lookup priorityKey = none) (config : Config) :
    let loggingLine := String.ofList (Toml.switchLine loggingSpelling config.loggingEnabled)
    let priorityLine := String.ofList (Toml.switchLine prioritySpelling config.inlinePriority)
    read (loggingLine ++ (priorityLine ++ text)) = .ok config ∧
      read (priorityLine ++ (loggingLine ++ text)) = .ok config := by
  intro loggingLine priorityLine
  have loggingSecond := Toml.read_switchLine_append logging valid unmarked loggingFree
    config.loggingEnabled
  have prioritySecond := Toml.read_switchLine_append priority valid unmarked priorityFree
    config.inlinePriority
  constructor
  · have loggingFirst := Toml.read_switchLine_append logging prioritySecond
      (priority.switchLine_unmarked config.inlinePriority text)
      (by rw [Toml.Table.lookup_cons_eq, if_neg keys_distinct, loggingFree]) config.loggingEnabled
    exact read_eq_ok_iff.mpr ⟨_, loggingFirst, .inl rfl, .inl rfl⟩
  · have priorityFirst := Toml.read_switchLine_append priority loggingSecond
      (logging.switchLine_unmarked config.loggingEnabled text)
      (by rw [Toml.Table.lookup_cons_eq, if_neg keys_distinct.symm, priorityFree])
      config.inlinePriority
    exact read_eq_ok_iff.mpr ⟨_, priorityFirst, .inl rfl, .inl rfl⟩

theorem read_write_append {text : String} {root : Toml.Table} (valid : Toml.read text = some root)
    (unmarked : text.toList.head? ≠ some '\ufeff') (loggingFree : root.lookup loggingKey = none)
    (priorityFree : root.lookup priorityKey = none) (config : Config) :
    read (config.write ++ text) = .ok config := by
  rw [write, writeSwitch_eq, writeSwitch_eq, String.append_assoc]
  exact (read_switchLines_append loggingKey_bare priorityKey_bare valid unmarked loggingFree
    priorityFree config).left

theorem read_write (config : Config) : read config.write = .ok config := by
  rw [← String.append_empty (s := config.write)]
  exact read_write_append Toml.read_empty (by simp) rfl rfl config

/-- Reading fails exactly for a text that is not a document and for a root table that binds one of
the two keys to something else than a boolean, and otherwise gives what the root table gives. The
root table, in turn, is what the lines say about paths of one name, in any order and with keys of
any spelling. So settings that stand in front of a document that mentions neither key are read. -/
theorem settings_read_exactly :
    (forall text : String,
      (forall error, read text = .error error → exists message, error = .config message) ∧
      ((exists error, read text = .error error) ↔
        Toml.read text = none ∨
          exists root, Toml.read text = some root ∧
            (Misuses root loggingKey ∨ Misuses root priorityKey)) ∧
      forall config : Config,
        read text = .ok config ↔
          exists root, Toml.read text = some root ∧ Gives root loggingKey config.loggingEnabled ∧
            Gives root priorityKey config.inlinePriority) ∧
    (forall (text : String) (root : Toml.Table), Toml.read text = some root →
      exists said, Toml.lines (Toml.skipOrderMark text.toList) = some said ∧
        forall key,
          (forall value, root.lookup key = some (.value value) ↔
            ⟨[key], some value⟩ ∈ Toml.Line.statements [] said) ∧
          (root.lookup key = none ↔
            forall statement, statement ∈ Toml.Line.statements [] said →
              statement.path.head? ≠ some key)) ∧
    (forall (text rest : List Char) (key : String), Toml.EndsBare rest →
      (Toml.key text = some (key, rest) ↔
        exists spelling, Toml.SpellsKey key spelling ∧ text = spelling ++ rest)) ∧
    (forall (text : String) (root : Toml.Table) (config : Config), Toml.read text = some root →
      text.toList.head? ≠ some '\ufeff' → root.lookup loggingKey = none →
      root.lookup priorityKey = none →
        read (config.write ++ text) = .ok config ∧
        forall loggingSpelling prioritySpelling : List Char,
          Toml.SpellsKey loggingKey loggingSpelling →
          Toml.SpellsKey priorityKey prioritySpelling →
            let loggingLine :=
              String.ofList (Toml.switchLine loggingSpelling config.loggingEnabled)
            let priorityLine :=
              String.ofList (Toml.switchLine prioritySpelling config.inlinePriority)
            read (loggingLine ++ (priorityLine ++ text)) = .ok config ∧
              read (priorityLine ++ (loggingLine ++ text)) = .ok config) ∧
    forall config : Config, read config.write = .ok config := by
  refine ⟨?exact, ?table, ?spelling, ?front, read_write⟩
  case exact =>
    intro text
    exact ⟨fun _ => config_of_read_error, exists_read_eq_error_iff, fun _ => read_eq_ok_iff⟩
  case table =>
    intro text root valid
    exact Toml.lookup_read valid
  case spelling =>
    intro text rest key ends
    exact Toml.key_eq_some_iff ends
  case front =>
    intro text root config valid unmarked loggingFree priorityFree
    constructor
    · exact read_write_append valid unmarked loggingFree priorityFree config
    · intro loggingSpelling prioritySpelling logging priority
      exact read_switchLines_append logging priority valid unmarked loggingFree priorityFree config

/-- An escaped key counts, and a key of a deeper table does not. -/
example :
    (read "\"logging\\u005fenabled\" = false # quoted\n[deeper]\ninline_priority = 3\n").toOption =
      some ⟨false, true⟩ := by
  decide +kernel

end Config

end StyleRules

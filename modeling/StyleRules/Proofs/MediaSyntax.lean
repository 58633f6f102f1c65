import StyleRules.Media
import StyleRules.Proofs.Separating

/-!
# The syntax of media lists

A media list is one query or more, with commas between them. A query may be
negated; it goes on with a type, with features in parentheses, or with both,
joined by a conjunction. What is written for a list of queries has this syntax,
with one query for each, exactly if every query has a type or a feature: of a
query that has neither, nothing is written but its negation.
-/

namespace StyleRules

open Text

namespace MediaSyntax

/-- What may be the name of a type or of a feature: none of its letters has a meaning of its own in
a media list. -/
structure IsIdentifier (text : String) : Prop where
  nonempty : text ≠ ""
  unmarked : forall letter, letter ∈ text.toList → letter ∉ [' ', ',', ':', '(', ')']

/-- What may be the value of a feature. -/
def IsValue (text : String) : Prop :=
  forall letter, letter ∈ text.toList → letter ∉ [',', '(', ')']

inductive IsFeature : String → Prop where
  | alone {name : String} (identifier : IsIdentifier name) : IsFeature ("(" ++ name ++ ")")
  | valued {name value : String} (identifier : IsIdentifier name) (fine : IsValue value) :
      IsFeature ("(" ++ name ++ ": " ++ value ++ ")")

/-- One feature or more. -/
inductive IsConjunction : String → Prop where
  | last {text : String} (feature : IsFeature text) : IsConjunction text
  | more {text rest : String} (feature : IsFeature text) (others : IsConjunction rest) :
      IsConjunction (text ++ " and " ++ rest)

/-- A type and any number of features, or one feature or more. -/
inductive IsCondition : String → Prop where
  | type {name : String} (identifier : IsIdentifier name) : IsCondition name
  | typeAnd {name rest : String} (identifier : IsIdentifier name) (features : IsConjunction rest) :
      IsCondition (name ++ " and " ++ rest)
  | features {text : String} (features : IsConjunction text) : IsCondition text

inductive IsQuery : String → Prop where
  | plain {text : String} (condition : IsCondition text) : IsQuery text
  | negated {text : String} (condition : IsCondition text) : IsQuery ("not " ++ text)

/-- A list of so many queries. -/
inductive IsQueryList : Nat → String → Prop where
  | last {text : String} (query : IsQuery text) : IsQueryList 1 text
  | more {count : Nat} {text rest : String} (query : IsQuery text)
      (others : IsQueryList count rest) : IsQueryList (count + 1) (text ++ ", " ++ rest)

/-!
# Commas

No query contains a comma, so the commas of a list tell its queries apart.
-/

theorem IsIdentifier.comma_not_mem {text : String} (identifier : IsIdentifier text) :
    ',' ∉ text.toList := by
  intro member
  exact identifier.unmarked ',' member (by decide)

theorem IsFeature.comma_not_mem {text : String} (feature : IsFeature text) :
    ',' ∉ text.toList := by
  cases feature with
  | alone identifier =>
      simp [String.toList_append, identifier.comma_not_mem]
  | @valued name value identifier fine =>
      have unmarked : ',' ∉ value.toList := fun member => fine ',' member (by decide)
      simp [String.toList_append, identifier.comma_not_mem, unmarked]

theorem IsConjunction.comma_not_mem {text : String} (conjunction : IsConjunction text) :
    ',' ∉ text.toList := by
  induction conjunction with
  | last feature =>
      exact feature.comma_not_mem
  | more feature others ih =>
      simp [String.toList_append, feature.comma_not_mem, ih]

theorem IsCondition.comma_not_mem {text : String} (condition : IsCondition text) :
    ',' ∉ text.toList := by
  cases condition with
  | type identifier =>
      exact identifier.comma_not_mem
  | typeAnd identifier features =>
      simp [String.toList_append, identifier.comma_not_mem, features.comma_not_mem]
  | features features =>
      exact features.comma_not_mem

theorem IsQuery.comma_not_mem {text : String} (query : IsQuery text) : ',' ∉ text.toList := by
  cases query with
  | plain condition =>
      exact condition.comma_not_mem
  | negated condition =>
      simp [String.toList_append, condition.comma_not_mem]

theorem isQueryList_singleton_iff {count : Nat} {text : String} (unmarked : ',' ∉ text.toList) :
    IsQueryList count text ↔ count = 1 ∧ IsQuery text := by
  constructor
  · intro list
    cases list with
    | last query =>
        exact ⟨rfl, query⟩
    | more query others =>
        exact absurd (by simp [String.toList_append]) unmarked
  · rintro ⟨rfl, query⟩
    exact .last query

theorem isQueryList_append_iff {count : Nat} {text rest : String} (unmarked : ',' ∉ text.toList) :
    IsQueryList count (text ++ ", " ++ rest) ↔
      exists others, count = others + 1 ∧ IsQuery text ∧ IsQueryList others rest := by
  constructor
  · intro list
    generalize written : text ++ ", " ++ rest = whole at list
    cases list with
    | last query =>
        refine absurd ?_ query.comma_not_mem
        simp [← written, String.toList_append]
    | @more others first behind query list =>
        have letters := congrArg String.toList written
        simp only [String.toList_append, List.append_assoc] at letters
        rcases split_unique unmarked query.comma_not_mem letters with ⟨texts, tails⟩
        rw [String.toList_inj.mp texts, String.toList_inj.mp (List.cons.inj tails).right]
        exact ⟨others, rfl, query, list⟩
  · rintro ⟨others, rfl, query, list⟩
    exact .more query list

/-- Texts without commas are a list with commas between them exactly if each of them is a query. -/
theorem isQueryList_intercalate_iff {count : Nat} {text : String} {texts : List String}
    (unmarked : forall each, each ∈ text :: texts → ',' ∉ each.toList) :
    IsQueryList count (", ".intercalate (text :: texts)) ↔
      count = texts.length + 1 ∧ forall each, each ∈ text :: texts → IsQuery each := by
  induction texts generalizing count text with
  | nil =>
      have alone := unmarked text List.mem_cons_self
      rw [String.intercalate_singleton, isQueryList_singleton_iff alone]
      simp
  | cons next texts ih =>
      rcases List.forall_mem_cons.mp unmarked with ⟨first, others⟩
      rw [String.intercalate_cons_cons, isQueryList_append_iff first, List.forall_mem_cons]
      constructor
      · rintro ⟨rest, rfl, query, list⟩
        rcases (ih others).mp list with ⟨rfl, queries⟩
        exact ⟨rfl, query, queries⟩
      · rintro ⟨rfl, query, queries⟩
        exact ⟨texts.length + 1, rfl, query, (ih others).mpr ⟨rfl, queries⟩⟩

/-!
# Last letters

No query ends with a space, so neither a negation alone nor an empty text is one.
-/

def EndsVisibly (text : String) : Prop :=
  exists letter, letter ∈ text.toList.getLast? ∧ letter ≠ ' '

theorem EndsVisibly.append {text : String} (visible : EndsVisibly text) (before : String) :
    EndsVisibly (before ++ text) := by
  rcases visible with ⟨letter, last, other⟩
  refine ⟨letter, ?_, other⟩
  rw [String.toList_append]
  exact List.mem_getLast?_append_of_mem_getLast? last

theorem IsIdentifier.endsVisibly {text : String} (identifier : IsIdentifier text) :
    EndsVisibly text := by
  cases last : text.toList.getLast? with
  | none =>
      have empty := List.getLast?_eq_none_iff.mp last
      exact absurd (String.toList_eq_nil_iff.mp empty) identifier.nonempty
  | some letter =>
      refine ⟨letter, last, ?_⟩
      rintro rfl
      exact identifier.unmarked ' ' (List.mem_of_getLast? last) (by decide)

theorem IsFeature.endsVisibly {text : String} (feature : IsFeature text) : EndsVisibly text := by
  have closing : EndsVisibly ")" := ⟨')', rfl, by decide⟩
  cases feature with
  | alone identifier =>
      exact closing.append _
  | valued identifier fine =>
      exact closing.append _

theorem IsConjunction.endsVisibly {text : String} (conjunction : IsConjunction text) :
    EndsVisibly text := by
  induction conjunction with
  | last feature =>
      exact feature.endsVisibly
  | more feature others ih =>
      exact ih.append _

theorem IsCondition.endsVisibly {text : String} (condition : IsCondition text) :
    EndsVisibly text := by
  cases condition with
  | type identifier =>
      exact identifier.endsVisibly
  | typeAnd identifier features =>
      exact features.endsVisibly.append _
  | features features =>
      exact features.endsVisibly

theorem IsQuery.endsVisibly {text : String} (query : IsQuery text) : EndsVisibly text := by
  cases query with
  | plain condition =>
      exact condition.endsVisibly
  | negated condition =>
      exact condition.endsVisibly.append _

end MediaSyntax

/-!
# Writing queries
-/

open MediaSyntax

/-- Made of an identifier and of a value that no letter ends before its time. -/
structure MediaFeature.Sound (feature : MediaFeature) : Prop where
  name : IsIdentifier feature.name
  value : forall text, text ∈ feature.value → IsValue text

structure MediaQuery.Sound (query : MediaQuery) : Prop where
  mediaType : forall name, name ∈ query.mediaType → IsIdentifier name
  features : forall feature, feature ∈ query.features → feature.Sound

theorem MediaSyntax.all_unmarked_iff {marks letters : List Char} :
    (letters.all fun letter => letter ∉ marks) = true ↔
      forall letter, letter ∈ letters → letter ∉ marks := by
  simp only [List.all_eq_true, decide_eq_true_eq]

instance MediaSyntax.decidableIsIdentifier (text : String) : Decidable (IsIdentifier text) :=
  decidable_of_iff
    (text ≠ "" ∧ (text.toList.all fun letter => letter ∉ [' ', ',', ':', '(', ')']) = true)
    ⟨fun ⟨nonempty, unmarked⟩ => ⟨nonempty, all_unmarked_iff.mp unmarked⟩,
      fun ⟨nonempty, unmarked⟩ => ⟨nonempty, all_unmarked_iff.mpr unmarked⟩⟩

instance MediaSyntax.decidableIsValue (text : String) : Decidable (IsValue text) :=
  decidable_of_iff ((text.toList.all fun letter => letter ∉ [',', '(', ')']) = true)
    all_unmarked_iff

instance MediaFeature.decidableSound (feature : MediaFeature) : Decidable feature.Sound :=
  decidable_of_iff
    (IsIdentifier feature.name ∧ forall text, text ∈ feature.value → IsValue text)
    ⟨fun ⟨name, value⟩ => ⟨name, value⟩, fun ⟨name, value⟩ => ⟨name, value⟩⟩

instance MediaQuery.decidableSound (query : MediaQuery) : Decidable query.Sound :=
  decidable_of_iff
    ((forall name, name ∈ query.mediaType → IsIdentifier name) ∧
      forall feature, feature ∈ query.features → feature.Sound)
    ⟨fun ⟨mediaType, features⟩ => ⟨mediaType, features⟩,
      fun ⟨mediaType, features⟩ => ⟨mediaType, features⟩⟩

theorem MediaFeature.Sound.isFeature {feature : MediaFeature} (sound : feature.Sound) :
    IsFeature feature.render := by
  rw [render]
  cases written : feature.value with
  | none =>
      exact .alone sound.name
  | some value =>
      exact .valued sound.name (sound.value value written)

/-- Features that are joined make a conjunction. -/
theorem MediaFeature.isConjunction {feature : MediaFeature} {features : List MediaFeature}
    (sound : forall each, each ∈ feature :: features → each.Sound) :
    IsConjunction (" and ".intercalate ((feature :: features).map render)) := by
  induction features generalizing feature with
  | nil =>
      exact .last (sound feature List.mem_cons_self).isFeature
  | cons next features ih =>
      rcases List.forall_mem_cons.mp sound with ⟨first, others⟩
      rw [List.map_cons, List.map_cons, String.intercalate_cons_cons]
      exact .more first.isFeature (ih others)

namespace MediaQuery

variable {query : MediaQuery}

theorem isCondition (sound : query.Sound) (conditional : query.conditions ≠ []) :
    IsCondition (" and ".intercalate query.conditions) := by
  rcases query with ⟨negated, mediaType, features⟩
  cases mediaType with
  | none =>
      cases features with
      | nil =>
          exact absurd rfl conditional
      | cons feature features =>
          exact .features (MediaFeature.isConjunction sound.features)
  | some name =>
      have identifier := sound.mediaType name rfl
      cases features with
      | nil =>
          exact .type identifier
      | cons feature features =>
          change IsCondition
            (" and ".intercalate (name :: (feature :: features).map MediaFeature.render))
          rw [List.map_cons, String.intercalate_cons_cons]
          exact .typeAnd identifier (MediaFeature.isConjunction sound.features)

theorem render_of_conditions_eq_nil (unconditional : query.conditions = []) :
    query.render = if query.negated then "not " else "" := by
  rw [render, unconditional]
  exact String.append_empty

/-- What is written for a query is one exactly if the query has a type or a feature. -/
theorem isQuery_render_iff (sound : query.Sound) :
    IsQuery query.render ↔ query.conditions ≠ [] := by
  constructor
  · intro written unconditional
    rcases written.endsVisibly with ⟨letter, last, other⟩
    rw [render_of_conditions_eq_nil unconditional] at last
    cases negation : query.negated with
    | false =>
        rw [negation] at last
        cases last
    | true =>
        rw [negation] at last
        exact other (Option.some.inj last).symm
  · intro conditional
    have condition := isCondition sound conditional
    rw [render]
    cases query.negated with
    | false =>
        exact .plain (String.empty_append.symm ▸ condition)
    | true =>
        exact .negated condition

theorem Sound.comma_not_mem_render (sound : query.Sound) : ',' ∉ query.render.toList := by
  by_cases unconditional : query.conditions = []
  · rw [render_of_conditions_eq_nil unconditional]
    cases query.negated <;> decide
  · exact ((isQuery_render_iff sound).mpr unconditional).comma_not_mem

end MediaQuery

/-- The text of a list of queries is a media list exactly if every query has a type or a feature,
and then it holds one query for each of them, or a single one for the empty list. Of a query that
has neither, nothing is written but the negation. -/
theorem media_list_written_iff_conditional {queries : List MediaQuery}
    (sound : forall query, query ∈ queries → query.Sound) :
    (forall count, IsQueryList count (MediaQuery.renderList queries) ↔
      count = max 1 queries.length ∧ forall query, query ∈ queries → query.conditions ≠ []) ∧
      forall query, query ∈ queries → query.conditions = [] →
        query.render = if query.negated then "not " else "" := by
  refine ⟨?_, fun query _ => MediaQuery.render_of_conditions_eq_nil⟩
  intro count
  cases queries with
  | nil =>
      have everywhere : IsIdentifier "all" := by
        decide
      have written : IsQuery "all" := .plain (.type everywhere)
      change IsQueryList count "all" ↔ _
      rw [isQueryList_singleton_iff everywhere.comma_not_mem]
      simp [written]
  | cons query queries =>
      have unmarked : forall text, text ∈ (query :: queries).map MediaQuery.render →
          ',' ∉ text.toList := by
        intro text member
        rcases List.mem_map.mp member with ⟨other, listed, rfl⟩
        exact (sound other listed).comma_not_mem_render
      change IsQueryList count (", ".intercalate (query.render :: queries.map _)) ↔ _
      rw [isQueryList_intercalate_iff unmarked, ← List.map_cons, List.forall_mem_map,
        List.length_map, List.length_cons, Nat.max_eq_right (Nat.succ_le_succ (Nat.zero_le _))]
      exact and_congr_right fun _ => forall₂_congr fun other listed =>
        MediaQuery.isQuery_render_iff (sound other listed)

/-- A negated type with a feature, and two features without a type. -/
theorem conditional_media_list_is_written :
    let feature : MediaFeature := ⟨"min-width", some "10 px: wide"⟩
    let queries : List MediaQuery :=
      [⟨true, some "screen", [feature]⟩, ⟨false, none, [feature, ⟨"color", none⟩]⟩]
    (forall query, query ∈ queries → query.Sound) ∧
      IsQueryList 2 (MediaQuery.renderList queries) := by
  intro feature queries
  have sound : forall query, query ∈ queries → query.Sound := by
    decide +kernel
  exact ⟨sound, ((media_list_written_iff_conditional sound).left 2).mpr (by decide)⟩

/-- The query without any condition stands for all media, but it leaves no text behind, and so a
list of it is not a media list. -/
theorem plain_media_list_is_empty_text :
    (forall query, query ∈ [MediaQuery.plain] → query.Sound) ∧
      MediaQuery.renderList [.plain] = "" ∧
      forall count, ¬ IsQueryList count (MediaQuery.renderList [.plain]) := by
  have unwritten : ¬ IsQuery MediaQuery.plain.render := by
    rw [MediaQuery.isQuery_render_iff (by decide)]
    exact fun conditional => conditional rfl
  refine ⟨by decide, rfl, ?_⟩
  intro count list
  have single := (isQueryList_singleton_iff (by decide)).mp list
  exact unwritten single.right

end StyleRules

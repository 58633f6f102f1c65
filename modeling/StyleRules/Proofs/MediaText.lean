import StyleRules.Media
import StyleRules.Proofs.Separating

/-!
# Reading media lists

The text of a list of media queries tells the queries: a comma ends each of
them, the word in front says whether it is negated, and its conditions are told
apart by their parentheses. Only the empty list shares its text with another
one, the list of the single query for all types of media.
-/

namespace StyleRules

open Text

structure MediaFeature.WellFormed (feature : MediaFeature) : Prop where
  name : IsName feature.name
  value : forall text, text ∈ feature.value → ')' ∉ text.toList ∧ ',' ∉ text.toList

/-- No type of media has the name that negates a query. -/
structure MediaQuery.WellFormed (query : MediaQuery) : Prop where
  mediaType : forall name, name ∈ query.mediaType → IsName name ∧ name ≠ "not"
  features : forall feature, feature ∈ query.features → feature.WellFormed

instance MediaFeature.decidableWellFormed (feature : MediaFeature) :
    Decidable feature.WellFormed :=
  decidable_of_iff
    (IsName feature.name ∧
      forall text, text ∈ feature.value → ')' ∉ text.toList ∧ ',' ∉ text.toList)
    ⟨fun ⟨name, value⟩ => ⟨name, value⟩, fun ⟨name, value⟩ => ⟨name, value⟩⟩

instance MediaQuery.decidableWellFormed (query : MediaQuery) :
    Decidable query.WellFormed :=
  decidable_of_iff
    ((forall name, name ∈ query.mediaType → IsName name ∧ name ≠ "not") ∧
      forall feature, feature ∈ query.features → feature.WellFormed)
    ⟨fun ⟨mediaType, features⟩ => ⟨mediaType, features⟩,
      fun ⟨mediaType, features⟩ => ⟨mediaType, features⟩⟩

namespace MediaFeature

/-- What stands behind the name. -/
def detail (feature : MediaFeature) : List Char :=
  match feature.value with
  | some value => ':' :: ' ' :: (value.toList ++ [')'])
  | none => [')']

theorem toList_render (feature : MediaFeature) :
    feature.render.toList = '(' :: (feature.name.toList ++ feature.detail) := by
  cases written : feature.value <;> simp [render, detail, written]

theorem detail_endsName (feature : MediaFeature) (rest : List Char) :
    EndsName (feature.detail ++ rest) := by
  rcases feature with ⟨name, _ | value⟩ <;> simp [EndsName, detail, isNameLetter]

variable {first second : MediaFeature} {rest tail : List Char}

theorem detail_unique (left : first.WellFormed) (right : second.WellFormed)
    (same : first.detail ++ rest = second.detail ++ tail) :
    first.value = second.value ∧ rest = tail := by
  cases written : first.value with
  | none =>
      cases other : second.value with
      | none =>
          simp only [detail, written, other] at same
          exact ⟨rfl, (List.cons.inj same).right⟩
      | some text =>
          simp [detail, written, other] at same
  | some value =>
      cases other : second.value with
      | none =>
          simp [detail, written, other] at same
      | some text =>
          simp only [detail, written, other, List.cons_append, List.append_assoc] at same
          have closed := (List.cons.inj (List.cons.inj same).right).right
          rcases split_unique (left.value value written).left (right.value text other).left closed
            with ⟨values, ends⟩
          exact ⟨congrArg some (String.toList_inj.mp values), ends⟩

theorem render_unique (left : first.WellFormed) (right : second.WellFormed)
    (same : first.render.toList ++ rest = second.render.toList ++ tail) :
    first = second ∧ rest = tail := by
  simp only [toList_render, List.cons_append, List.append_assoc] at same
  rcases name_unique left.name right.name (first.detail_endsName rest)
    (second.detail_endsName tail) (List.cons.inj same).right with ⟨name, more⟩
  rcases detail_unique left right more with ⟨value, ends⟩
  cases first
  cases second
  cases name
  cases value
  exact ⟨rfl, ends⟩

/-- A feature behind another condition. -/
def renderBehind (feature : MediaFeature) : List Char :=
  [' ', 'a', 'n', 'd', ' '] ++ feature.render.toList

theorem separable : Separable renderBehind WellFormed (· = ·) (fun _ => True) (· = []) where
  split := by
    intro first second rest tail left right _ _ same
    rw [renderBehind, renderBehind, List.append_assoc, List.append_assoc] at same
    exact render_unique left right (List.append_cancel_left same)
  behind _ _ := trivial
  behind_of_ends _ := trivial
  not_ends := by
    intro feature rest _ ends
    cases ends

theorem flatMap_renderBehind_unique {features others : List MediaFeature}
    (left : forall feature, feature ∈ features → feature.WellFormed)
    (right : forall feature, feature ∈ others → feature.WellFormed)
    (same : features.flatMap renderBehind = others.flatMap renderBehind) : features = others := by
  rw [← List.append_nil (features.flatMap _), ← List.append_nil (others.flatMap _)] at same
  rcases separable.flatMap_unique left right rfl rfl same with ⟨agree, _⟩
  exact List.forall₂_eq_eq_eq ▸ agree

end MediaFeature

/-!
# Queries
-/

namespace MediaQuery

/-- The conditions of a query with a type, if it has one, and with features, one behind the
other. -/
def bodyOf : Option String → List MediaFeature → List Char
  | some name, features => name.toList ++ features.flatMap MediaFeature.renderBehind
  | none, [] => []
  | none, feature :: features =>
      feature.render.toList ++ features.flatMap MediaFeature.renderBehind

theorem toList_conditions (query : MediaQuery) :
    (" and ".intercalate query.conditions).toList = bodyOf query.mediaType query.features := by
  rcases query with ⟨negated, _ | name, features⟩
  · cases features with
    | nil =>
        rfl
    | cons feature features =>
        change (" and ".intercalate (feature.render :: features.map MediaFeature.render)).toList = _
        rw [toList_intercalate_cons, List.flatMap_map]
        rfl
  · change (" and ".intercalate (name :: features.map MediaFeature.render)).toList = _
    rw [toList_intercalate_cons, List.flatMap_map]
    rfl

theorem toList_render (query : MediaQuery) :
    query.render.toList =
      (if query.negated then "not ".toList else []) ++ bodyOf query.mediaType query.features := by
  rw [render, String.toList_append, toList_conditions]
  cases query.negated <;> rfl

theorem flatMap_renderBehind_endsName (features : List MediaFeature) :
    EndsName (features.flatMap MediaFeature.renderBehind) := by
  cases features <;> simp [EndsName, MediaFeature.renderBehind, isNameLetter]

section

variable {features others : List MediaFeature}

/-- Without a type, a query opens a parenthesis if it goes on at all. -/
theorem head_bodyOf_none {body : List Char} (written : body = bodyOf none features) :
    forall letter, letter ∈ body.head? → letter = '(' := by
  rw [written]
  cases features with
  | nil =>
      exact nofun
  | cons feature features =>
      intro letter first
      rw [bodyOf, MediaFeature.toList_render] at first
      exact (Option.some.inj first).symm

/-- The letter that a query begins with shows whether it has a type. -/
theorem bodyOf_some_ne_none {name : String} (isName : IsName name) :
    bodyOf (some name) features ≠ bodyOf none others := by
  intro same
  rcases isName.exists_cons with ⟨letter, letters, written, allowed⟩
  rw [bodyOf, written] at same
  have paren := head_bodyOf_none same letter rfl
  rw [paren] at allowed
  cases allowed

theorem bodyOf_none_unique
    (left : forall feature, feature ∈ features → feature.WellFormed)
    (right : forall feature, feature ∈ others → feature.WellFormed)
    (same : bodyOf none features = bodyOf none others) : features = others := by
  cases features with
  | nil =>
      cases others with
      | nil =>
          rfl
      | cons other others =>
          rw [bodyOf, bodyOf, MediaFeature.toList_render] at same
          cases same
  | cons feature features =>
      cases others with
      | nil =>
          rw [bodyOf, bodyOf, MediaFeature.toList_render] at same
          cases same
      | cons other others =>
          rcases List.forall_mem_cons.mp left with ⟨leftFirst, leftOthers⟩
          rcases List.forall_mem_cons.mp right with ⟨rightFirst, rightOthers⟩
          rcases MediaFeature.render_unique leftFirst rightFirst same with ⟨rfl, more⟩
          rw [MediaFeature.flatMap_renderBehind_unique leftOthers rightOthers more]

end

variable {first second : MediaQuery}

theorem bodyOf_unique (left : first.WellFormed) (right : second.WellFormed)
    (same : bodyOf first.mediaType first.features = bodyOf second.mediaType second.features) :
    first.mediaType = second.mediaType ∧ first.features = second.features := by
  rcases first with ⟨negated, _ | name, features⟩
  · rcases second with ⟨flag, _ | other, others⟩
    · exact ⟨rfl, bodyOf_none_unique left.features right.features same⟩
    · exact absurd same.symm (bodyOf_some_ne_none (right.mediaType other rfl).left)
  · rcases second with ⟨flag, _ | other, others⟩
    · exact absurd same (bodyOf_some_ne_none (left.mediaType name rfl).left)
    · rcases name_unique (left.mediaType name rfl).left (right.mediaType other rfl).left
        (flatMap_renderBehind_endsName features) (flatMap_renderBehind_endsName others) same with
        ⟨rfl, more⟩
      exact ⟨rfl, MediaFeature.flatMap_renderBehind_unique left.features right.features more⟩

/-- What negates a query is not how one that is not negated begins. -/
theorem negation_ne_bodyOf (wellFormed : first.WellFormed) (letters : List Char) :
    "not ".toList ++ letters ≠ bodyOf first.mediaType first.features := by
  intro same
  rcases first with ⟨negated, _ | name, features⟩
  · have paren := head_bodyOf_none same 'n' rfl
    revert paren
    decide
  · rcases wellFormed.mediaType name rfl with ⟨isName, other⟩
    have word : "not".toList ++ ' ' :: letters =
        name.toList ++ features.flatMap MediaFeature.renderBehind := same
    rcases name_unique (by decide) isName (by simp [EndsName, isNameLetter])
      (flatMap_renderBehind_endsName features) word with ⟨negation, _⟩
    exact other negation.symm

theorem render_injective (left : first.WellFormed) (right : second.WellFormed)
    (same : first.render.toList = second.render.toList) : first = second := by
  rw [toList_render, toList_render] at same
  have negated : first.negated = second.negated := by
    cases leftFlag : first.negated <;> cases rightFlag : second.negated <;>
      simp only [leftFlag, rightFlag, if_true, Bool.false_eq_true, if_false,
        List.nil_append] at same
    · rfl
    · exact absurd same.symm (negation_ne_bodyOf left _)
    · exact absurd same (negation_ne_bodyOf right _)
    · rfl
  rw [negated] at same
  rcases bodyOf_unique left right (List.append_cancel_left same) with ⟨mediaType, features⟩
  cases first
  cases second
  cases negated
  cases mediaType
  cases features
  rfl

/-!
# Lists of queries
-/

theorem comma_not_mem_feature {feature : MediaFeature} (wellFormed : feature.WellFormed) :
    ',' ∉ feature.render.toList := by
  have name : ',' ∉ feature.name.toList := wellFormed.name.not_mem rfl
  cases written : feature.value with
  | none =>
      simp [MediaFeature.toList_render, MediaFeature.detail, written, name]
  | some value =>
      have unmarked := (wellFormed.value value written).right
      simp [MediaFeature.toList_render, MediaFeature.detail, written, name, unmarked]

theorem comma_not_mem_behind {features : List MediaFeature}
    (wellFormed : forall feature, feature ∈ features → feature.WellFormed) :
    ',' ∉ features.flatMap MediaFeature.renderBehind := by
  intro member
  rcases List.mem_flatMap.mp member with ⟨feature, listed, comma⟩
  rcases List.mem_append.mp comma with gap | text
  · revert gap
    decide
  · exact comma_not_mem_feature (wellFormed feature listed) text

theorem comma_not_mem_render (wellFormed : first.WellFormed) : ',' ∉ first.render.toList := by
  have body : ',' ∉ bodyOf first.mediaType first.features := by
    rcases first with ⟨negated, _ | name, features⟩
    · cases features with
      | nil =>
          exact List.not_mem_nil
      | cons feature features =>
          rcases List.forall_mem_cons.mp wellFormed.features with ⟨begins, others⟩
          rw [bodyOf, List.mem_append, not_or]
          exact ⟨comma_not_mem_feature begins, comma_not_mem_behind others⟩
    · rw [bodyOf, List.mem_append, not_or]
      exact ⟨(wellFormed.mediaType name rfl).left.not_mem rfl,
        comma_not_mem_behind wellFormed.features⟩
  rw [toList_render, List.mem_append, not_or]
  refine ⟨?_, body⟩
  cases first.negated <;> decide

/-- A query behind another one. -/
def renderBehind (query : MediaQuery) : List Char :=
  [',', ' '] ++ query.render.toList

/-- Here a query ends: nothing follows, or a comma. -/
def EndsQuery (letters : List Char) : Prop :=
  forall letter, letter ∈ letters.head? → letter = ','

theorem render_unique (left : first.WellFormed) (right : second.WellFormed)
    {rest tail : List Char} (leftEnds : EndsQuery rest) (rightEnds : EndsQuery tail)
    (same : first.render.toList ++ rest = second.render.toList ++ tail) :
    first = second ∧ rest = tail := by
  rcases span_unique
    (fun letter member => ne_of_mem_of_not_mem member (comma_not_mem_render left))
    (fun letter member => ne_of_mem_of_not_mem member (comma_not_mem_render right))
    (fun letter next => not_not_intro (leftEnds letter next))
    (fun letter next => not_not_intro (rightEnds letter next)) same with ⟨texts, ends⟩
  exact ⟨render_injective left right texts, ends⟩

theorem separable : Separable renderBehind WellFormed (· = ·) EndsQuery (· = []) where
  split := by
    intro first second rest tail left right leftEnds rightEnds same
    rw [renderBehind, renderBehind, List.append_assoc, List.append_assoc] at same
    exact render_unique left right leftEnds rightEnds (List.append_cancel_left same)
  behind := by
    intro query rest _ _ letter first
    exact (Option.some.inj first).symm
  behind_of_ends := by
    rintro rest rfl letter first
    cases first
  not_ends := by
    intro query rest _ ends
    cases ends

theorem toList_renderList_cons (query : MediaQuery) (queries : List MediaQuery) :
    (renderList (query :: queries)).toList =
      query.render.toList ++ (queries.flatMap renderBehind ++ []) := by
  change (", ".intercalate (query.render :: queries.map render)).toList = _
  rw [toList_intercalate_cons, List.flatMap_map, List.append_nil]
  rfl

theorem renderList_injective {query other : MediaQuery} {queries others : List MediaQuery}
    (left : forall each, each ∈ query :: queries → each.WellFormed)
    (right : forall each, each ∈ other :: others → each.WellFormed)
    (same : renderList (query :: queries) = renderList (other :: others)) :
    query :: queries = other :: others := by
  rcases List.forall_mem_cons.mp left with ⟨leftFirst, leftOthers⟩
  rcases List.forall_mem_cons.mp right with ⟨rightFirst, rightOthers⟩
  have letters := congrArg String.toList same
  rw [toList_renderList_cons, toList_renderList_cons] at letters
  rcases render_unique leftFirst rightFirst (separable.behind_flatMap leftOthers rfl)
    (separable.behind_flatMap rightOthers rfl) letters with ⟨rfl, more⟩
  rcases separable.flatMap_unique leftOthers rightOthers rfl rfl more with ⟨agree, _⟩
  have behind : queries = others := List.forall₂_eq_eq_eq ▸ agree
  rw [behind]

/-- The query for all types of media, spelled out. -/
def everywhere : MediaQuery :=
  ⟨false, some "all", []⟩

theorem everywhere_wellFormed : forall query, query ∈ [everywhere] → query.WellFormed := by
  decide

/-- The empty list is written as if it held one query. -/
theorem eq_everywhere_of_renderList_nil {query : MediaQuery} {queries : List MediaQuery}
    (wellFormed : forall each, each ∈ query :: queries → each.WellFormed)
    (same : renderList [] = renderList (query :: queries)) :
    query :: queries = [everywhere] :=
  renderList_injective wellFormed everywhere_wellFormed same.symm

end MediaQuery

/-- Two lists of well formed queries have one text exactly if they are one list, but that the empty
list is written like the list of the single query for all types of media. -/
theorem media_text_iff_equal {first second : List MediaQuery}
    (left : forall query, query ∈ first → query.WellFormed)
    (right : forall query, query ∈ second → query.WellFormed) :
    MediaQuery.renderList first = MediaQuery.renderList second ↔
      first = second ∨
        first = [] ∧ second = [⟨false, some "all", []⟩] ∨
        first = [⟨false, some "all", []⟩] ∧ second = [] := by
  constructor
  · intro same
    cases first with
    | nil =>
        cases second with
        | nil =>
            exact .inl rfl
        | cons other others =>
            exact .inr (.inl ⟨rfl, MediaQuery.eq_everywhere_of_renderList_nil right same⟩)
    | cons query queries =>
        cases second with
        | nil =>
            exact .inr (.inr ⟨MediaQuery.eq_everywhere_of_renderList_nil left same.symm, rfl⟩)
        | cons other others =>
            exact .inl (MediaQuery.renderList_injective left right same)
  · rintro (rfl | ⟨rfl, rfl⟩ | ⟨rfl, rfl⟩) <;> rfl

/-- A type with the name of a conjunction, a value that looks like a feature, and queries without
any condition: the lists differ in nothing but where the conditions belong, and so do their
texts. -/
theorem misleading_media_texts_differ :
    let feature : MediaFeature := ⟨"width", some "(1px and (color"⟩
    let first : List MediaQuery := [.plain, ⟨true, some "and", [feature]⟩, ⟨true, none, []⟩]
    let second : List MediaQuery := [.plain, ⟨true, none, []⟩, ⟨true, some "and", [feature]⟩]
    (forall query, query ∈ first → query.WellFormed) ∧
      (forall query, query ∈ second → query.WellFormed) ∧
      MediaQuery.renderList first ≠ MediaQuery.renderList second := by
  intro feature first second
  have left : forall query, query ∈ first → query.WellFormed := by
    decide +kernel
  have right : forall query, query ∈ second → query.WellFormed := by
    decide +kernel
  refine ⟨left, right, ?_⟩
  rw [Ne, media_text_iff_equal left right]
  decide

end StyleRules

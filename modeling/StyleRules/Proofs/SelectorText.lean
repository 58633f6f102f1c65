import StyleRules.Proofs.ElementText

/-!
# Reading selectors

The text of a well formed selector tells everything about it that its canonical
form tells. A term says with its first letters what kind of term it is, and a
name goes on until the next term begins; parts are told apart by the space in
front of each of them.
-/

namespace StyleRules

open Text

theorem AttributeMatch.render_injective {first second : AttributeMatch}
    (same : first.render = second.render) : first = second := by
  cases first <;> cases second <;> first | rfl | simp [render] at same

theorem AttributeMatch.quote_not_mem (operator : AttributeMatch) :
    '"' ∉ operator.render.toList := by
  cases operator <;> decide

namespace AttributeTest

/-- What stands behind the name. -/
def condition (test : AttributeTest) : List Char :=
  match test.value with
  | some value => test.operator.render.toList ++ '"' :: (value.toList ++ ['"', ']'])
  | none => [']']

theorem toList_render (test : AttributeTest) :
    test.render.toList = '[' :: (test.name.toList ++ test.condition) := by
  cases written : test.value <;> simp [render, condition, written]

theorem condition_endsName (test : AttributeTest) (rest : List Char) :
    EndsName (test.condition ++ rest) := by
  rcases test with ⟨name, operator, _ | value⟩
  · simp [EndsName, condition, isNameLetter]
  · cases operator <;> simp [EndsName, condition, AttributeMatch.render, isNameLetter]

variable {first second : AttributeTest} {rest tail : List Char}

theorem condition_ne_closing (wellFormed : first.WellFormed) {value : String}
    (compared : first.value = some value) : first.condition ++ rest ≠ ']' :: tail := by
  have compares : first.operator ≠ .present := by
    intro present
    rw [wellFormed.operator.mpr present] at compared
    cases compared
  cases operator : first.operator <;>
    simp_all [condition, AttributeMatch.render]

theorem condition_unique (left : first.WellFormed) (right : second.WellFormed)
    (same : first.condition ++ rest = second.condition ++ tail) :
    first.operator = second.operator ∧ first.value = second.value ∧ rest = tail := by
  cases compared : first.value with
  | none =>
      have closed : first.condition = [']'] := by
        simp only [condition, compared]
      rw [closed] at same
      cases other : second.value with
      | none =>
          simp only [condition, other] at same
          rw [left.operator.mp compared, right.operator.mp other]
          exact ⟨rfl, rfl, (List.cons.inj same).right⟩
      | some text =>
          exact absurd same.symm (condition_ne_closing right other)
  | some value =>
      cases other : second.value with
      | none =>
          have closed : second.condition = [']'] := by
            simp only [condition, other]
          rw [closed] at same
          exact absurd same (condition_ne_closing left compared)
      | some text =>
          simp only [condition, compared, other, List.append_assoc, List.cons_append] at same
          rcases split_unique first.operator.quote_not_mem second.operator.quote_not_mem same
            with ⟨operator, more⟩
          rcases split_unique (left.value value compared) (right.value text other) more with
            ⟨value, ends⟩
          cases String.toList_inj.mp value
          exact ⟨AttributeMatch.render_injective (String.toList_inj.mp operator), rfl,
            (List.cons.inj ends).right⟩

theorem render_unique (left : first.WellFormed) (right : second.WellFormed)
    (same : first.render.toList ++ rest = second.render.toList ++ tail) :
    first = second ∧ rest = tail := by
  simp only [toList_render, List.cons_append, List.append_assoc] at same
  rcases name_unique left.name right.name (condition_endsName first rest)
    (condition_endsName second tail) (List.cons.inj same).right with ⟨name, more⟩
  rcases condition_unique left right more with ⟨operator, value, ends⟩
  cases first
  cases second
  cases name
  cases operator
  cases value
  exact ⟨rfl, ends⟩

end AttributeTest

/-!
# Terms
-/

namespace SimpleSelector

/-- The letters that say what kind of term this is. -/
def mark : SimpleSelector → String
  | .universal => "*"
  | .type _ => ""
  | .className _ => "."
  | .id _ => "#"
  | .attribute _ => "["
  | .pseudoClass _ | .pagePseudo _ => ":"
  | .pseudoElement _ => "::"
  | .element _ _ => "<"

/-- The mark of the term that a text begins with. -/
def markOf : List Char → String
  | '*' :: _ => "*"
  | '.' :: _ => "."
  | '#' :: _ => "#"
  | '[' :: _ => "["
  | ':' :: ':' :: _ => "::"
  | ':' :: _ => ":"
  | '<' :: _ => "<"
  | _ => ""

theorem markOf_name {text : String} (name : IsName text) (rest : List Char) :
    markOf (text.toList ++ rest) = "" := by
  rcases name.exists_cons with ⟨letter, letters, written, allowed⟩
  rw [written, List.cons_append]
  unfold markOf
  split <;> simp_all [isNameLetter]

theorem markOf_colon {text : String} (name : IsName text) (rest : List Char) :
    markOf (':' :: (text.toList ++ rest)) = ":" := by
  rcases name.exists_cons with ⟨letter, letters, written, allowed⟩
  rw [written, List.cons_append]
  unfold markOf
  split <;> simp_all [isNameLetter]

theorem markOf_render {term : SimpleSelector} (wellFormed : term.WellFormed) (rest : List Char) :
    markOf (term.render.toList ++ rest) = term.mark := by
  cases term with
  | type name =>
      exact markOf_name wellFormed rest
  | pseudoClass name | pagePseudo pseudo =>
      simpa [render, PagePseudo.render, mark] using markOf_colon wellFormed rest
  | «attribute» test =>
      simp [render, AttributeTest.toList_render, markOf, mark]
  | universal | className _ | id _ | pseudoElement _ | element _ _ =>
      simp [render, markOf, mark]

variable {x y : SimpleSelector} {rest tail : List Char}

theorem marked_unique {mark name other : String} (left : IsName name) (right : IsName other)
    (leftEnds : EndsName rest) (rightEnds : EndsName tail)
    (same : (mark ++ name).toList ++ rest = (mark ++ other).toList ++ tail) :
    name = other ∧ rest = tail := by
  simp only [String.toList_append, List.append_assoc] at same
  exact name_unique left right leftEnds rightEnds (List.append_cancel_left same)

theorem element_unique {owner other : ElementId} {inline flag : Bool}
    (same : (element owner inline).render.toList ++ rest =
      (element other flag).render.toList ++ tail) :
    owner.canonical = other.canonical ∧ inline = flag ∧ rest = tail := by
  simp only [render, String.toList_append, List.append_assoc] at same
  rcases ElementId.render_unique (List.append_cancel_left same) with ⟨owner, more⟩
  cases inline <;> cases flag <;> simp at more <;> exact ⟨owner, rfl, more⟩

/-- Terms that begin alike have the same mark, and behind it each kind of term says in its own way
where it ends. -/
theorem render_unique (left : x.WellFormed) (right : y.WellFormed) (leftEnds : EndsName rest)
    (rightEnds : EndsName tail) (same : x.render.toList ++ rest = y.render.toList ++ tail) :
    x.canonical ElementId.canonical = y.canonical ElementId.canonical ∧ rest = tail := by
  have marks : x.mark = y.mark := by
    rw [← markOf_render left rest, ← markOf_render right tail, same]
  cases x with
  | universal =>
      cases y with
      | universal =>
          exact ⟨rfl, List.append_cancel_left same⟩
      | _ =>
          simp [mark] at marks
  | type name =>
      cases y with
      | type other =>
          rcases name_unique left right leftEnds rightEnds same with ⟨rfl, ends⟩
          exact ⟨rfl, ends⟩
      | _ =>
          simp [mark] at marks
  | className name =>
      cases y with
      | className other =>
          rcases marked_unique left right leftEnds rightEnds same with ⟨rfl, ends⟩
          exact ⟨rfl, ends⟩
      | _ =>
          simp [mark] at marks
  | id name =>
      cases y with
      | id other =>
          rcases marked_unique left right leftEnds rightEnds same with ⟨rfl, ends⟩
          exact ⟨rfl, ends⟩
      | _ =>
          simp [mark] at marks
  | «attribute» test =>
      cases y with
      | «attribute» other =>
          rcases AttributeTest.render_unique left right same with ⟨rfl, ends⟩
          exact ⟨rfl, ends⟩
      | _ =>
          simp [mark] at marks
  | pseudoClass name | pagePseudo pseudo =>
      cases y with
      | pseudoClass other | pagePseudo other =>
          rcases marked_unique left right leftEnds rightEnds same with ⟨name, ends⟩
          exact ⟨congrArg pseudoClass name, ends⟩
      | _ =>
          simp [mark] at marks
  | pseudoElement name =>
      cases y with
      | pseudoElement other =>
          rcases marked_unique left right leftEnds rightEnds same with ⟨rfl, ends⟩
          exact ⟨rfl, ends⟩
      | _ =>
          simp [mark] at marks
  | element owner inline =>
      cases y with
      | element other flag =>
          rcases element_unique same with ⟨owners, rfl, ends⟩
          exact ⟨congrArg (element · inline) owners, ends⟩
      | _ =>
          simp [mark] at marks

/-- The letters that only a mark begins with, so that they end a name. -/
def markLetters : List Char :=
  ['.', '#', '[', ':', '<']

theorem isNameLetter_of_mem_markLetters :
    forall letter, letter ∈ markLetters → isNameLetter letter = false := by
  simp [markLetters, isNameLetter]

/-- A term that can stand behind another one begins with a mark. -/
theorem exists_mark (marked : x.isTypeTest = false) :
    exists letter letters, x.render.toList = letter :: letters ∧ letter ∈ markLetters := by
  cases x with
  | universal | type _ =>
      cases marked
  | «attribute» test =>
      exact ⟨'[', _, test.toList_render, by decide⟩
  | className _ | id _ | pseudoClass _ | pagePseudo _ | pseudoElement _ | element _ _ =>
      simp [render, PagePseudo.render, markLetters]

/-- The letters that separators are made of. -/
def gapLetters : List Char :=
  [' ', '>', '+', '~']

theorem isNameLetter_of_mem_gapLetters :
    forall letter, letter ∈ gapLetters → isNameLetter letter = false := by
  simp [gapLetters, isNameLetter]

theorem not_mem_gapLetters_of_mem_markLetters :
    forall letter, letter ∈ markLetters → letter ∉ gapLetters := by
  simp [markLetters, gapLetters]

theorem exists_letter (wellFormed : x.WellFormed) :
    exists letter letters, x.render.toList = letter :: letters ∧ letter ∉ gapLetters := by
  cases typed : x.isTypeTest with
  | false =>
      rcases exists_mark typed with ⟨letter, letters, written, marked⟩
      exact ⟨letter, letters, written, not_mem_gapLetters_of_mem_markLetters letter marked⟩
  | true =>
      cases x with
      | universal =>
          exact ⟨'*', [], rfl, by decide⟩
      | type name =>
          rcases wellFormed.exists_cons with ⟨letter, letters, written, allowed⟩
          refine ⟨letter, letters, written, ?_⟩
          intro gap
          rw [isNameLetter_of_mem_gapLetters letter gap] at allowed
          cases allowed
      | _ =>
          cases typed

end SimpleSelector

/-!
# Parts
-/

/-- Here a part ends: nothing follows, or the separator of the next part. -/
def EndsPart (letters : List Char) : Prop :=
  forall letter, letter ∈ letters.head? → letter = ' '

theorem EndsPart.endsName {letters : List Char} (ends : EndsPart letters) : EndsName letters := by
  intro letter first
  rw [ends letter first]
  decide

theorem SimpleSelector.separable :
    Separable (fun term : SimpleSelector => term.render.toList)
      (fun term => term.WellFormed ∧ term.isTypeTest = false)
      (fun x y => x.canonical ElementId.canonical = y.canonical ElementId.canonical)
      EndsName EndsPart where
  split left right leftEnds rightEnds same :=
    render_unique left.left right.left leftEnds rightEnds same
  behind := by
    intro term rest fine _ letter first
    rcases exists_mark fine.right with ⟨letter, letters, written, marked⟩
    rw [written] at first
    cases first
    exact isNameLetter_of_mem_markLetters letter marked
  behind_of_ends ends := ends.endsName
  not_ends := by
    intro term rest fine ends
    rcases exists_mark fine.right with ⟨letter, letters, written, marked⟩
    rw [ends letter (written ▸ rfl)] at marked
    exact not_mem_gapLetters_of_mem_markLetters ' ' marked (by decide)

namespace CompoundSelector

variable {first second : CompoundSelector} {rest tail : List Char}

theorem toList_render (part : CompoundSelector) :
    part.render.toList = part.terms.flatMap fun term => term.render.toList := by
  simp [render, String.toList_join, List.flatMap_map]

theorem WellFormed.exists_cons {part : CompoundSelector} (wellFormed : part.WellFormed) :
    exists term terms, part.terms = term :: terms ∧ term.WellFormed ∧
      forall other, other ∈ terms → other.WellFormed ∧ other.isTypeTest = false := by
  rcases part with ⟨combinator, _ | ⟨term, terms⟩⟩
  · exact absurd rfl wellFormed.nonempty
  · rcases List.forall_mem_cons.mp wellFormed.terms with ⟨first, others⟩
    exact ⟨term, terms, rfl, first, fun other member =>
      ⟨others other member, wellFormed.typeFirst other member⟩⟩

theorem render_unique (left : first.WellFormed) (right : second.WellFormed)
    (leftEnds : EndsPart rest) (rightEnds : EndsPart tail)
    (same : first.render.toList ++ rest = second.render.toList ++ tail) :
    first.canonicalTerms ElementId.canonical = second.canonicalTerms ElementId.canonical ∧
      rest = tail := by
  rcases left.exists_cons with ⟨x, xs, firstTerms, leftTerm, leftTerms⟩
  rcases right.exists_cons with ⟨y, ys, secondTerms, rightTerm, rightTerms⟩
  rw [toList_render, toList_render, firstTerms, secondTerms] at same
  simp only [List.flatMap_cons, List.append_assoc] at same
  -- the first term stands apart from the others, of which none may begin with a bare name
  rcases SimpleSelector.render_unique leftTerm rightTerm
    (SimpleSelector.separable.behind_flatMap leftTerms leftEnds)
    (SimpleSelector.separable.behind_flatMap rightTerms rightEnds) same with ⟨term, more⟩
  rcases SimpleSelector.separable.flatMap_unique leftTerms rightTerms leftEnds rightEnds more with
    ⟨terms, ends⟩
  rw [canonicalTerms, canonicalTerms, firstTerms, secondTerms, List.map_cons, List.map_cons, term,
    map_eq_of_forall₂ terms]
  exact ⟨rfl, ends⟩

/-- What the part with its separator begins with says how it is related. -/
def relationOf : List Char → Combinator
  | ' ' :: '>' :: _ => .child
  | ' ' :: '+' :: _ => .adjacent
  | ' ' :: '~' :: _ => .general
  | _ => .descendant

theorem relationOf_descendant {letter : Char} (other : letter ∉ SimpleSelector.gapLetters)
    (letters : List Char) : relationOf (' ' :: letter :: letters) = .descendant := by
  unfold relationOf
  split <;> simp_all [SimpleSelector.gapLetters]

def between : Combinator → List Char
  | .descendant => [' ']
  | .child => [' ', '>', ' ']
  | .adjacent => [' ', '+', ' ']
  | .general => [' ', '~', ' ']

theorem toList_separator (part : CompoundSelector) :
    part.separator.toList = between part.relation := by
  rcases part with ⟨_ | combinator, _⟩
  · simp [separator, relation, between]
  · cases combinator <;> simp [separator, relation, between]

theorem exists_between (combinator : Combinator) :
    exists letters, between combinator = ' ' :: letters := by
  cases combinator <;> exact ⟨_, rfl⟩

theorem WellFormed.exists_letter {part : CompoundSelector} (wellFormed : part.WellFormed) :
    exists letter letters, part.render.toList = letter :: letters ∧
      letter ∉ SimpleSelector.gapLetters := by
  rcases wellFormed.exists_cons with ⟨term, terms, held, begins, _⟩
  rcases SimpleSelector.exists_letter begins with ⟨letter, letters, written, other⟩
  rw [toList_render, held, List.flatMap_cons, written]
  exact ⟨letter, _, rfl, other⟩

theorem relationOf_between (wellFormed : first.WellFormed) (combinator : Combinator)
    (rest : List Char) :
    relationOf (between combinator ++ (first.render.toList ++ rest)) = combinator := by
  cases combinator with
  | descendant =>
      rcases wellFormed.exists_letter with ⟨letter, letters, written, other⟩
      rw [written]
      exact relationOf_descendant other _
  | child | adjacent | general =>
      rfl

def renderBehind (part : CompoundSelector) : List Char :=
  between part.relation ++ part.render.toList

theorem separable :
    Separable renderBehind WellFormed
      (fun first second => first.relation = second.relation ∧
        first.canonicalTerms ElementId.canonical = second.canonicalTerms ElementId.canonical)
      EndsPart (· = []) where
  split := by
    intro first second rest tail left right leftEnds rightEnds same
    rw [renderBehind, renderBehind, List.append_assoc, List.append_assoc] at same
    have related : first.relation = second.relation := by
      rw [← relationOf_between left first.relation rest, same, relationOf_between right]
    rw [related] at same
    rcases render_unique left right leftEnds rightEnds (List.append_cancel_left same) with
      ⟨terms, ends⟩
    exact ⟨⟨related, terms⟩, ends⟩
  behind := by
    intro part rest _ _ letter first
    rcases exists_between part.relation with ⟨letters, gap⟩
    rw [renderBehind, gap] at first
    exact (Option.some.inj first).symm
  behind_of_ends := by
    rintro rest rfl letter first
    cases first
  not_ends := by
    intro part rest _ ends
    rcases exists_between part.relation with ⟨letters, gap⟩
    rw [renderBehind, gap] at ends
    cases ends

end CompoundSelector

/-!
# Selectors
-/

namespace Selector

variable {s t : Selector}

theorem toList_render_cons (part : CompoundSelector) (parts : List CompoundSelector) :
    (Selector.mk (part :: parts)).render.toList =
      part.render.toList ++ (parts.flatMap CompoundSelector.renderBehind ++ []) := by
  simp [render, renderRest, String.toList_join, List.flatMap_map,
    CompoundSelector.toList_separator]
  rfl

theorem render_cons_ne (part : CompoundSelector) (parts : List CompoundSelector)
    (wellFormed : part.WellFormed) : (Selector.mk (part :: parts)).render ≠ "" := by
  intro same
  rcases wellFormed.exists_letter with ⟨letter, letters, written, _⟩
  have letters := congrArg String.toList same
  rw [toList_render_cons, written] at letters
  cases letters

theorem canonical_of_render (left : s.WellFormed) (right : t.WellFormed)
    (same : s.render = t.render) :
    s.canonical ElementId.canonical = t.canonical ElementId.canonical := by
  rcases s with ⟨_ | ⟨part, parts⟩⟩
  · rcases t with ⟨_ | ⟨other, others⟩⟩
    · rfl
    · exact absurd same.symm (render_cons_ne other others (right other List.mem_cons_self))
  · rcases t with ⟨_ | ⟨other, others⟩⟩
    · exact absurd same (render_cons_ne part parts (left part List.mem_cons_self))
    · rcases List.forall_mem_cons.mp left with ⟨leftFirst, leftOthers⟩
      rcases List.forall_mem_cons.mp right with ⟨rightFirst, rightOthers⟩
      have letters := congrArg String.toList same
      rw [toList_render_cons, toList_render_cons] at letters
      rcases CompoundSelector.render_unique leftFirst rightFirst
        (CompoundSelector.separable.behind_flatMap leftOthers rfl)
        (CompoundSelector.separable.behind_flatMap rightOthers rfl) letters with ⟨terms, more⟩
      rcases CompoundSelector.separable.flatMap_unique leftOthers rightOthers rfl rfl more with
        ⟨agree, _⟩
      have behind := map_eq_of_forall₂ (f := fun part : CompoundSelector =>
        CompoundSelector.mk (some part.relation) (part.canonicalTerms ElementId.canonical))
        (agree.imp fun first second ⟨related, terms⟩ => by rw [related, terms])
      simp only [canonical]
      rw [terms, behind]

end Selector

/-- Two well formed selectors have one text exactly if they are one but for what is not written:
the combinator in front, that a space is the descendant combinator, what tells pseudo-classes of
pages from others, and the version of a null element. They are then equally specific. -/
theorem selector_text_iff_canonical {s t : Selector} (left : s.WellFormed)
    (right : t.WellFormed) :
    (s.render = t.render ↔
        s.canonical ElementId.canonical = t.canonical ElementId.canonical) ∧
      (s.render = t.render → s.specificity = t.specificity) := by
  have only := Selector.canonical_of_render left right
  refine ⟨⟨only, ?_⟩, ?_⟩
  · intro same
    calc
      s.render = (s.canonical ElementId.canonical).render :=
        (s.render_canonical ElementId.render_canonical).symm
      _ = (t.canonical ElementId.canonical).render := by rw [same]
      _ = t.render := t.render_canonical ElementId.render_canonical
  · intro same
    calc
      s.specificity = (s.canonical ElementId.canonical).specificity :=
        s.specificity_canonical.symm
      _ = (t.canonical ElementId.canonical).specificity := by rw [only same]
      _ = t.specificity := t.specificity_canonical

/-- A value in quotes may look like terms, and a separator like the gap within an element. -/
theorem quoted_terms_share_text :
    let behind : CompoundSelector :=
      ⟨some .child, [.universal, .attribute ⟨"title", .startsWith, some "] > .a, \x7b :b"⟩]⟩
    let first : Selector :=
      ⟨[⟨some .general, [.pagePseudo .first]⟩, ⟨none, [.type "p", .element .null true]⟩, behind]⟩
    let second : Selector :=
      ⟨[⟨none, [.pseudoClass "first"]⟩,
        ⟨some .descendant, [.type "p", .element (.ofRaw 17179869183) true]⟩, behind]⟩
    first.WellFormed ∧ second.WellFormed ∧ first ≠ second ∧ first.render = second.render ∧
      first.canonical ElementId.canonical = second.canonical ElementId.canonical ∧
      first.specificity = second.specificity := by
  intro behind first second
  have left : first.WellFormed := by
    decide +kernel
  have right : second.WellFormed := by
    decide +kernel
  have same : first.render = second.render := by
    rfl
  rcases selector_text_iff_canonical left right with ⟨texts, strength⟩
  exact ⟨left, right, by decide, same, texts.mp same, strength same⟩

/-- If null elements are told apart by their versions, then a text is not enough. -/
theorem null_versions_share_text :
    let first := Selector.single ⟨none, [.element .null false]⟩
    let second := Selector.single ⟨none, [.element (.ofRaw 17179869183) false]⟩
    first.WellFormed ∧ second.WellFormed ∧
      ¬ (first.render = second.render ↔ first.canonical id = second.canonical id) := by
  intro first second
  refine ⟨by decide, by decide, ?_⟩
  intro texts
  have same : first.canonical id = second.canonical id := texts.mp rfl
  revert same
  decide

end StyleRules

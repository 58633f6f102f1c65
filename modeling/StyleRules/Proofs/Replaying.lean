import Mathlib.Data.List.DropRight
import Mathlib.Data.List.Infix
import StyleRules.Rule.Edit

/-!
# What edits amount to

Of all that was done to a rule while it was built, little decides what it is: the
last setting of each field, the last replacement of its list, and what was pushed
behind that. The rule that is built is put together from these. Edits of different
fields may be exchanged, and looking at the rule in between makes no difference.
-/

namespace StyleRules

variable {α δ ε ρ φ : Type}

/-- What the last of the edits that set something has set. -/
def lastSetting (setting? : ε → Option δ) (edits : List ε) : Option δ :=
  (edits.filterMap setting?).getLast?

theorem foldl_replace (old : φ) (settings : List φ) :
    settings.foldl (fun _ new => new) old = settings.getLast?.getD old := by
  induction settings generalizing old with
  | nil =>
      rfl
  | cons new settings ih =>
      rw [List.foldl_cons, ih, List.getLast?_cons, Option.getD_some]

theorem foldl_concat (items added : List α) :
    added.foldl (fun items item => items ++ [item]) items = items ++ added := by
  rw [List.foldl_append_eq_append, ← List.flatMap_def, List.flatMap_singleton']

/-- A field of what is built only depends on the edits that concern it. -/
theorem foldl_field {apply : ρ → ε → ρ} {field : ρ → φ} {view? : ε → Option δ}
    {change : φ → δ → φ}
    (step : forall built edit, field (apply built edit) =
      (view? edit).elim (field built) (change (field built)))
    (built : ρ) (edits : List ε) :
    field (edits.foldl apply built) = (edits.filterMap view?).foldl change (field built) := by
  induction edits generalizing built with
  | nil =>
      rfl
  | cons edit edits ih =>
      rw [List.foldl_cons, ih, step]
      cases seen : view? edit with
      | none =>
          rw [List.filterMap_cons_none seen, Option.elim_none]
      | some part =>
          rw [List.filterMap_cons_some seen, Option.elim_some, List.foldl_cons]

theorem foldl_field_setting {apply : ρ → ε → ρ} {field : ρ → φ} {setting? : ε → Option φ}
    (step : forall built edit, field (apply built edit) = (setting? edit).getD (field built))
    (built : ρ) (edits : List ε) :
    field (edits.foldl apply built) = (lastSetting setting? edits).getD (field built) := by
  have seen : forall built edit, field (apply built edit) =
      (setting? edit).elim (field built) fun new => new := by
    intro built edit
    rw [step]
    cases setting? edit <;> rfl
  exact (foldl_field seen built edits).trans (foldl_replace _ _)

namespace ListEdit

def replacement? : ListEdit α → Option (List α)
  | .replaceAll items => some items
  | .push _ => none

def pushed? : ListEdit α → Option α
  | .replaceAll _ => none
  | .push item => some item

def isPush (edit : ListEdit α) : Bool :=
  edit.pushed?.isSome

/-- What is pushed behind the last replacement, or altogether if there is none. -/
def pushedSince (edits : List (ListEdit α)) : List α :=
  (edits.rtakeWhile isPush).filterMap pushed?

/-- The list that edits make of an empty one. -/
def replay (edits : List (ListEdit α)) : List α :=
  (lastSetting replacement? edits).getD [] ++ pushedSince edits

/-- The same replacement is the last one, and the same items are pushed behind it. -/
structure SameEffect (edits others : List (ListEdit α)) : Prop where
  replacement : lastSetting replacement? edits = lastSetting replacement? others
  pushed : pushedSince edits = pushedSince others

theorem SameEffect.replay_eq {edits others : List (ListEdit α)}
    (same : SameEffect edits others) : replay edits = replay others := by
  rw [replay, replay, same.replacement, same.pushed]

theorem lastSetting_concat_push (edits : List (ListEdit α)) (item : α) :
    lastSetting replacement? (edits ++ [.push item]) = lastSetting replacement? edits := by
  rw [lastSetting, List.filterMap_append]
  exact congrArg List.getLast? (List.append_nil _)

theorem lastSetting_concat_replaceAll (edits : List (ListEdit α)) (items : List α) :
    lastSetting replacement? (edits ++ [.replaceAll items]) = some items := by
  rw [lastSetting, List.filterMap_append]
  exact List.getLast?_concat

theorem pushedSince_concat_push (edits : List (ListEdit α)) (item : α) :
    pushedSince (edits ++ [.push item]) = pushedSince edits ++ [item] := by
  rw [pushedSince, List.rtakeWhile_concat_pos _ _ _ rfl, List.filterMap_append]
  rfl

theorem pushedSince_concat_replaceAll (edits : List (ListEdit α)) (items : List α) :
    pushedSince (edits ++ [.replaceAll items]) = [] := by
  rw [pushedSince, List.rtakeWhile_concat_neg _ _ _ Bool.false_ne_true]
  rfl

theorem replay_concat (edits : List (ListEdit α)) (edit : ListEdit α) :
    replay (edits ++ [edit]) = edit.apply (replay edits) := by
  cases edit with
  | replaceAll items =>
      rw [replay, lastSetting_concat_replaceAll, pushedSince_concat_replaceAll, Option.getD_some,
        List.append_nil]
      rfl
  | push item =>
      rw [replay, lastSetting_concat_push, pushedSince_concat_push, ← List.append_assoc]
      rfl

theorem foldl_apply (edits : List (ListEdit α)) : edits.foldl apply [] = replay edits := by
  induction edits using List.reverseRecOn with
  | nil =>
      rfl
  | append_singleton edits edit ih =>
      rw [List.foldl_append, ih, replay_concat]
      rfl

end ListEdit

/-!
# Rules from edits
-/

namespace RuleSet

def Edit.selectors? : Edit → Option (List Selector)
  | .selectors list => some list
  | .declarations _ => none

def Edit.declarations? : Edit → Option (ListEdit Declaration)
  | .selectors _ => none
  | .declarations edit => some edit

def ofEdits (edits : List Edit) : RuleSet where
  selectors := (lastSetting Edit.selectors? edits).getD []
  declarations := ListEdit.replay (edits.filterMap Edit.declarations?)

theorem foldl_apply (edits : List Edit) : edits.foldl apply empty = ofEdits edits := by
  have selectors : (edits.foldl apply empty).selectors = (ofEdits edits).selectors := by
    refine foldl_field_setting ?_ empty edits
    intro rule edit
    cases edit <;> rfl
  have declarations : (edits.foldl apply empty).declarations = (ofEdits edits).declarations := by
    refine (foldl_field ?_ empty edits).trans (ListEdit.foldl_apply _)
    intro rule edit
    cases edit <;> rfl
  calc
    edits.foldl apply empty = ⟨(ofEdits edits).selectors, (ofEdits edits).declarations⟩ := by
      rw [← selectors, ← declarations]
    _ = ofEdits edits := rfl

end RuleSet

namespace MediaRule

def Edit.queries? : Edit → Option (List MediaQuery)
  | .queries list => some list
  | .rules _ => none

def Edit.rules? : Edit → Option (ListEdit RuleSet)
  | .queries _ => none
  | .rules edit => some edit

def ofEdits (edits : List Edit) : MediaRule where
  queries := (lastSetting Edit.queries? edits).getD []
  rules := ListEdit.replay (edits.filterMap Edit.rules?)

theorem foldl_apply (edits : List Edit) : edits.foldl apply empty = ofEdits edits := by
  have queries : (edits.foldl apply empty).queries = (ofEdits edits).queries := by
    refine foldl_field_setting ?_ empty edits
    intro rule edit
    cases edit <;> rfl
  have rules : (edits.foldl apply empty).rules = (ofEdits edits).rules := by
    refine (foldl_field ?_ empty edits).trans (ListEdit.foldl_apply _)
    intro rule edit
    cases edit <;> rfl
  calc
    edits.foldl apply empty = ⟨(ofEdits edits).queries, (ofEdits edits).rules⟩ := by
      rw [← queries, ← rules]
    _ = ofEdits edits := rfl

end MediaRule

namespace PageRule

def Edit.name? : Edit → Option (Option String)
  | .name text => some text
  | .pseudo _ | .push _ => none

def Edit.pseudo? : Edit → Option (Option PagePseudo)
  | .pseudo tag => some tag
  | .name _ | .push _ => none

def Edit.pushed? : Edit → Option PageItem
  | .push item => some item
  | .name _ | .pseudo _ => none

def Edit.pushedDeclaration? : Edit → Option Declaration
  | .push (.declaration content) => some content
  | .push (.margin _) | .name _ | .pseudo _ => none

def Edit.pushedMargin? : Edit → Option MarginRule
  | .push (.margin content) => some content
  | .push (.declaration _) | .name _ | .pseudo _ => none

def ofEdits (edits : List Edit) : PageRule where
  name := (lastSetting Edit.name? edits).getD none
  pseudo := (lastSetting Edit.pseudo? edits).getD none
  items := edits.filterMap Edit.pushed?

theorem foldl_apply (edits : List Edit) : edits.foldl apply empty = ofEdits edits := by
  have name : (edits.foldl apply empty).name = (ofEdits edits).name := by
    refine foldl_field_setting ?_ empty edits
    intro rule edit
    cases edit <;> rfl
  have pseudo : (edits.foldl apply empty).pseudo = (ofEdits edits).pseudo := by
    refine foldl_field_setting ?_ empty edits
    intro rule edit
    cases edit <;> rfl
  have items : (edits.foldl apply empty).items = (ofEdits edits).items := by
    refine (foldl_field ?_ empty edits).trans (foldl_concat [] _)
    intro rule edit
    cases edit <;> rfl
  calc
    edits.foldl apply empty =
        ⟨(ofEdits edits).name, (ofEdits edits).pseudo, (ofEdits edits).items⟩ := by
      rw [← name, ← pseudo, ← items]
    _ = ofEdits edits := rfl

end PageRule

namespace MarginRule

def ofEdits (area : MarginArea) (edits : List (ListEdit Declaration)) : MarginRule :=
  ⟨area, ListEdit.replay edits⟩

theorem foldl_apply (area : MarginArea) (edits : List (ListEdit Declaration)) :
    edits.foldl apply (empty area) = ofEdits area edits := by
  rw [ofEdits, ← ListEdit.foldl_apply]
  exact List.foldl_hom (MarginRule.mk area) fun _ _ => rfl

end MarginRule

namespace ViewportRule

def ofEdits (edits : List (ListEdit Declaration)) : ViewportRule :=
  ⟨ListEdit.replay edits⟩

theorem foldl_apply (edits : List (ListEdit Declaration)) :
    edits.foldl apply empty = ofEdits edits := by
  rw [ofEdits, ← ListEdit.foldl_apply]
  exact List.foldl_hom ViewportRule.mk fun _ _ => rfl

end ViewportRule

namespace FontFaceRule

def ofEdits (edits : List (ListEdit Declaration)) : FontFaceRule :=
  ⟨ListEdit.replay edits⟩

theorem foldl_apply (edits : List (ListEdit Declaration)) :
    edits.foldl apply empty = ofEdits edits := by
  rw [ofEdits, ← ListEdit.foldl_apply]
  exact List.foldl_hom FontFaceRule.mk fun _ _ => rfl

end FontFaceRule

/-!
# Looking in between
-/

namespace BuildStep

def edit? : BuildStep ε → Option ε
  | .edit change => some change
  | .build => none

/-- After every step there is what the edits up to that step amount to, however often it was looked
at before. -/
def Replays (applyEdit : ρ → ε → ρ) (fresh : ρ) (ofEdits : List ε → ρ) : Prop :=
  forall steps, states applyEdit fresh steps =
    steps.inits.tail.map fun earlier => ofEdits (earlier.filterMap edit?)

theorem states_eq (applyEdit : ρ → ε → ρ) (built : ρ) (steps : List (BuildStep ε)) :
    states applyEdit built steps =
      steps.inits.tail.map fun earlier => (earlier.filterMap edit?).foldl applyEdit built := by
  induction steps generalizing built with
  | nil =>
      rfl
  | cons step steps ih =>
      have started (earlier : List (BuildStep ε)) :
          ((step :: earlier).filterMap edit?).foldl applyEdit built =
            (earlier.filterMap edit?).foldl applyEdit (step.apply applyEdit built) := by
        cases step <;> rfl
      -- Behind the first step nothing else was done yet, which is the empty beginning of the rest.
      have first : steps.inits = [] :: steps.inits.tail := by
        cases steps <;> simp
      calc
        states applyEdit built (step :: steps) =
            step.apply applyEdit built :: states applyEdit (step.apply applyEdit built) steps := rfl
        _ = steps.inits.map fun earlier =>
            (earlier.filterMap edit?).foldl applyEdit (step.apply applyEdit built) := by
          rw [ih, first, List.map_cons]
          rfl
        _ = (step :: steps).inits.tail.map fun earlier =>
            (earlier.filterMap edit?).foldl applyEdit built := by
          rw [List.inits_cons, List.tail_cons, List.map_map]
          exact List.map_congr_left fun earlier _ => (started earlier).symm

theorem replays_of_foldl {applyEdit : ρ → ε → ρ} {fresh : ρ} {ofEdits : List ε → ρ}
    (amounts : forall edits, edits.foldl applyEdit fresh = ofEdits edits) :
    Replays applyEdit fresh ofEdits := by
  intro steps
  rw [states_eq]
  exact List.map_congr_left fun earlier _ => amounts _

end BuildStep

/-!
# Items of pages
-/

namespace PageRule

theorem declarations_ofEdits (edits : List Edit) :
    (ofEdits edits).declarations = edits.filterMap Edit.pushedDeclaration? := by
  rw [declarations, ofEdits, List.filterMap_filterMap]
  refine List.filterMap_congr ?_
  intro edit _
  rcases edit with _ | _ | (_ | _) <;> rfl

theorem margins_ofEdits (edits : List Edit) :
    (ofEdits edits).margins = edits.filterMap Edit.pushedMargin? := by
  rw [margins, ofEdits, List.filterMap_filterMap]
  refine List.filterMap_congr ?_
  intro edit _
  rcases edit with _ | _ | (_ | _) <;> rfl

theorem length_declarations_add_length_margins (rule : PageRule) :
    rule.declarations.length + rule.margins.length = rule.items.length := by
  rw [declarations, margins]
  induction rule.items with
  | nil =>
      rfl
  | cons item items ih =>
      cases item <;>
        simp only [List.filterMap_cons, PageItem.declaration?, PageItem.margin?,
          List.length_cons] <;>
        omega

end PageRule

/-- After any steps, a rule is put together from the last setting of each field, the last
replacement of its list and what was pushed behind it, and looking at it before changed nothing.
So edits of different fields may be exchanged, and sequences of edits whose last settings and
replacements and later pushes are the same build the same rule. The items of a page rule are all
that was pushed, and its declarations and margin rules are those among them, in that order. -/
theorem edits_amount_to_last_settings :
    (BuildStep.Replays RuleSet.apply .empty RuleSet.ofEdits ∧
        BuildStep.Replays MediaRule.apply .empty MediaRule.ofEdits ∧
        BuildStep.Replays PageRule.apply .empty PageRule.ofEdits ∧
        (forall area,
          BuildStep.Replays MarginRule.apply (.empty area) (MarginRule.ofEdits area)) ∧
        BuildStep.Replays ViewportRule.apply .empty ViewportRule.ofEdits ∧
        BuildStep.Replays FontFaceRule.apply .empty FontFaceRule.ofEdits) ∧
      ((forall (rule : RuleSet) selectors edit,
          (rule.apply (.selectors selectors)).apply (.declarations edit) =
            (rule.apply (.declarations edit)).apply (.selectors selectors)) ∧
        (forall (rule : MediaRule) queries edit,
          (rule.apply (.queries queries)).apply (.rules edit) =
            (rule.apply (.rules edit)).apply (.queries queries)) ∧
        forall (rule : PageRule) name pseudo item,
          (rule.apply (.name name)).apply (.pseudo pseudo) =
              (rule.apply (.pseudo pseudo)).apply (.name name) ∧
            (rule.apply (.name name)).apply (.push item) =
              (rule.apply (.push item)).apply (.name name) ∧
            (rule.apply (.pseudo pseudo)).apply (.push item) =
              (rule.apply (.push item)).apply (.pseudo pseudo)) ∧
      ((forall edits others : List RuleSet.Edit,
          lastSetting RuleSet.Edit.selectors? edits = lastSetting RuleSet.Edit.selectors? others →
          ListEdit.SameEffect (edits.filterMap RuleSet.Edit.declarations?)
            (others.filterMap RuleSet.Edit.declarations?) →
          edits.foldl RuleSet.apply .empty = others.foldl RuleSet.apply .empty) ∧
        (forall edits others : List MediaRule.Edit,
          lastSetting MediaRule.Edit.queries? edits = lastSetting MediaRule.Edit.queries? others →
          ListEdit.SameEffect (edits.filterMap MediaRule.Edit.rules?)
            (others.filterMap MediaRule.Edit.rules?) →
          edits.foldl MediaRule.apply .empty = others.foldl MediaRule.apply .empty) ∧
        (forall edits others : List PageRule.Edit,
          lastSetting PageRule.Edit.name? edits = lastSetting PageRule.Edit.name? others →
          lastSetting PageRule.Edit.pseudo? edits = lastSetting PageRule.Edit.pseudo? others →
          edits.filterMap PageRule.Edit.pushed? = others.filterMap PageRule.Edit.pushed? →
          edits.foldl PageRule.apply .empty = others.foldl PageRule.apply .empty) ∧
        forall edits others : List (ListEdit Declaration), ListEdit.SameEffect edits others →
          (forall area, edits.foldl MarginRule.apply (.empty area) =
              others.foldl MarginRule.apply (.empty area)) ∧
            edits.foldl ViewportRule.apply .empty = others.foldl ViewportRule.apply .empty ∧
            edits.foldl FontFaceRule.apply .empty = others.foldl FontFaceRule.apply .empty) ∧
      forall edits : List PageRule.Edit,
        let page := edits.foldl PageRule.apply .empty
        page.items = edits.filterMap PageRule.Edit.pushed? ∧
          page.declarations = edits.filterMap PageRule.Edit.pushedDeclaration? ∧
          page.margins = edits.filterMap PageRule.Edit.pushedMargin? ∧
          page.declarations.length + page.margins.length = page.items.length := by
  refine ⟨⟨?_, ?_, ?_, ?_, ?_, ?_⟩, ⟨fun _ _ _ => rfl, fun _ _ _ => rfl, ?_⟩,
    ⟨?_, ?_, ?_, ?_⟩, ?_⟩
  · exact BuildStep.replays_of_foldl RuleSet.foldl_apply
  · exact BuildStep.replays_of_foldl MediaRule.foldl_apply
  · exact BuildStep.replays_of_foldl PageRule.foldl_apply
  · intro area
    exact BuildStep.replays_of_foldl (MarginRule.foldl_apply area)
  · exact BuildStep.replays_of_foldl ViewportRule.foldl_apply
  · exact BuildStep.replays_of_foldl FontFaceRule.foldl_apply
  · intro rule name pseudo item
    exact ⟨rfl, rfl, rfl⟩
  · intro edits others selectors declarations
    rw [RuleSet.foldl_apply, RuleSet.foldl_apply, RuleSet.ofEdits, RuleSet.ofEdits, selectors,
      declarations.replay_eq]
  · intro edits others queries rules
    rw [MediaRule.foldl_apply, MediaRule.foldl_apply, MediaRule.ofEdits, MediaRule.ofEdits,
      queries, rules.replay_eq]
  · intro edits others name pseudo items
    rw [PageRule.foldl_apply, PageRule.foldl_apply, PageRule.ofEdits, PageRule.ofEdits, name,
      pseudo, items]
  · intro edits others declarations
    simp only [MarginRule.foldl_apply, ViewportRule.foldl_apply, FontFaceRule.foldl_apply,
      MarginRule.ofEdits, ViewportRule.ofEdits, FontFaceRule.ofEdits, declarations.replay_eq,
      implies_true, and_self]
  · intro edits page
    have amounts : page = PageRule.ofEdits edits := PageRule.foldl_apply edits
    rw [PageRule.length_declarations_add_length_margins, amounts]
    exact ⟨rfl, PageRule.declarations_ofEdits edits, PageRule.margins_ofEdits edits, rfl⟩

/-- What was pushed before the replacement is gone, though it was there to be seen. -/
example :
    BuildStep.states FontFaceRule.apply .empty
        [.edit (.push (.of "src" "a")), .build, .edit (.replaceAll [.of "src" "b"]),
          .edit (.push (.of "src" "c"))] =
      [⟨[.of "src" "a"]⟩, ⟨[.of "src" "a"]⟩, ⟨[.of "src" "b"]⟩,
        ⟨[.of "src" "b", .of "src" "c"]⟩] :=
  rfl

end StyleRules

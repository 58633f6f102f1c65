import StyleRules.Proofs.ElementText
import StyleRules.Rule.Layout

/-!
# Texts in one line

Whatever is written within a line, selectors, media queries and declarations, has
no line break unless one of its strings has.
-/

namespace StyleRules

open Text

namespace Text

variable {α : Type} {strings : α → List String} {items : List α}

/-- If every item is written in single lines, then so is a list of them. -/
theorem oneLine_flatMap {write : α → List String}
    (single : forall item, (forall text, text ∈ strings item → OneLine text) →
      forall line, line ∈ write item → OneLine line)
    (whole : forall text, text ∈ items.flatMap strings → OneLine text) :
    forall line, line ∈ items.flatMap write → OneLine line := by
  intro line written
  rcases List.mem_flatMap.mp written with ⟨item, member, inItem⟩
  refine single item ?_ line inItem
  intro text found
  exact whole text (List.mem_flatMap.mpr ⟨item, member, found⟩)

theorem oneLine_map {write : α → String}
    (single : forall item, (forall text, text ∈ strings item → OneLine text) →
      OneLine (write item))
    (whole : forall text, text ∈ items.flatMap strings → OneLine text) :
    forall text, text ∈ items.map write → OneLine text := by
  rw [List.map_eq_flatMap]
  exact oneLine_flatMap
    (fun item inItem => List.forall_mem_singleton.mpr (single item inItem)) whole

end Text

theorem ElementId.render_oneLine (element : ElementId) : OneLine element.render := by
  unfold render
  split
  · decide
  · simp [OneLine, not_mem_toDigits]

theorem AttributeTest.render_oneLine {test : AttributeTest} (name : OneLine test.name)
    (value : forall text, text ∈ test.value → OneLine text) : OneLine test.render := by
  unfold render
  split
  next text found =>
    have operator : OneLine test.operator.render := by
      cases test.operator <;> decide
    have text := value text found
    simp_all [OneLine]
  next =>
    simp_all [OneLine]

theorem SimpleSelector.render_oneLine {term : SimpleSelector}
    (whole : forall text, text ∈ term.strings → OneLine text) : OneLine term.render := by
  match term with
  | .attribute test =>
      rcases List.forall_mem_cons.mp whole with ⟨name, value⟩
      exact AttributeTest.render_oneLine name fun text found => value text (by simpa using found)
  | .element owner inline =>
      have owner := owner.render_oneLine
      cases inline <;> simp_all [OneLine, render]
  | .universal =>
      decide
  | .type name | .className name | .id name | .pseudoClass name | .pseudoElement name
  | .pagePseudo ⟨name⟩ =>
      simp_all [OneLine, render, strings, PagePseudo.render]

theorem CompoundSelector.render_oneLine {part : CompoundSelector}
    (whole : forall text, text ∈ part.strings → OneLine text) : OneLine part.render :=
  oneLine_join.mpr (oneLine_map (fun _ => SimpleSelector.render_oneLine) whole)

theorem CompoundSelector.separator_oneLine (part : CompoundSelector) : OneLine part.separator := by
  unfold separator
  split <;> decide

theorem Selector.render_oneLine {selector : Selector}
    (whole : forall text, text ∈ selector.strings → OneLine text) : OneLine selector.render := by
  rcases selector with ⟨_ | ⟨part, parts⟩⟩
  · decide
  · rcases List.forall_mem_append.mp whole with ⟨first, others⟩
    refine oneLine_append.mpr ⟨part.render_oneLine first, oneLine_join.mpr ?_⟩
    refine oneLine_map (fun part inPart => ?_) others
    exact oneLine_append.mpr ⟨part.separator_oneLine, part.render_oneLine inPart⟩

theorem Selector.renderList_oneLine {selectors : List Selector}
    (whole : forall text, text ∈ selectors.flatMap strings → OneLine text) :
    OneLine (renderList selectors) :=
  oneLine_intercalate (by decide) (oneLine_map (fun _ => render_oneLine) whole)

theorem MediaFeature.render_oneLine {feature : MediaFeature}
    (whole : forall text, text ∈ feature.strings → OneLine text) : OneLine feature.render := by
  rcases feature with ⟨name, _ | value⟩ <;> simp_all [OneLine, render, strings]

theorem MediaQuery.render_oneLine {query : MediaQuery}
    (whole : forall text, text ∈ query.strings → OneLine text) : OneLine query.render := by
  rcases List.forall_mem_append.mp whole with ⟨named, featured⟩
  refine oneLine_append.mpr ⟨by split <;> decide, oneLine_intercalate (by decide) ?_⟩
  exact List.forall_mem_append.mpr
    ⟨named, oneLine_map (fun _ => MediaFeature.render_oneLine) featured⟩

theorem MediaQuery.renderList_oneLine {queries : List MediaQuery}
    (whole : forall text, text ∈ queries.flatMap strings → OneLine text) :
    OneLine (renderList queries) := by
  unfold renderList
  split
  · decide
  · exact oneLine_intercalate (by decide) (oneLine_map (fun _ => render_oneLine) whole)

theorem Declaration.line_oneLine {declaration : Declaration}
    (whole : forall text, text ∈ declaration.strings → OneLine text) :
    OneLine declaration.line := by
  have property := whole declaration.property (by simp [strings])
  have value := whole declaration.value (by simp [strings])
  simp only [line, render, oneLine_append]
  exact ⟨by decide, ⟨⟨⟨property, by decide⟩, value⟩, by split <;> decide⟩, by decide⟩

theorem Declaration.linesUnder_oneLine {heading : String} (headed : OneLine heading)
    {declarations : List Declaration}
    (whole : forall text, text ∈ declarations.flatMap strings → OneLine text) :
    forall line, line ∈ linesUnder heading declarations → OneLine line := by
  refine List.forall_mem_cons.mpr ⟨oneLine_append.mpr ⟨headed, by decide⟩, ?_⟩
  refine List.forall_mem_append.mpr ⟨oneLine_map (fun _ => line_oneLine) whole, ?_⟩
  exact List.forall_mem_singleton.mpr (by decide)

theorem RuleSet.lines_oneLine {rule : RuleSet}
    (whole : forall text, text ∈ rule.strings → OneLine text) :
    forall line, line ∈ rule.lines → OneLine line := by
  rcases List.forall_mem_append.mp whole with ⟨selected, declared⟩
  exact Declaration.linesUnder_oneLine (Selector.renderList_oneLine selected) declared

theorem MarginRule.lines_oneLine {rule : MarginRule}
    (whole : forall text, text ∈ rule.strings → OneLine text) :
    forall line, line ∈ rule.lines → OneLine line := by
  refine Declaration.linesUnder_oneLine (oneLine_append.mpr ⟨by decide, ?_⟩) whole
  cases rule.area <;> decide

theorem PageItem.lines_oneLine {item : PageItem}
    (whole : forall text, text ∈ item.strings → OneLine text) :
    forall line, line ∈ item.lines → OneLine line := by
  cases item with
  | declaration content =>
      exact List.forall_mem_singleton.mpr (Declaration.line_oneLine whole)
  | margin content =>
      exact MarginRule.lines_oneLine whole

theorem PageRule.renderScope_oneLine {rule : PageRule}
    (whole : forall text, text ∈ rule.name.toList ++ (rule.pseudo.map PagePseudo.name).toList →
      OneLine text) : OneLine rule.renderScope := by
  rcases rule with ⟨_ | name, _ | pseudo, items⟩ <;>
    simp_all [OneLine, renderScope, PagePseudo.render]

theorem Rule.lines_oneLine {rule : Rule}
    (whole : forall text, text ∈ rule.strings → OneLine text) :
    forall line, line ∈ rule.lines → OneLine line := by
  have closing : forall line, line ∈ ["\x7d"] → OneLine line :=
    List.forall_mem_singleton.mpr (by decide)
  cases rule with
  | set rule =>
      exact RuleSet.lines_oneLine whole
  | media rule =>
      rcases List.forall_mem_append.mp whole with ⟨asked, held⟩
      have heading := MediaQuery.renderList_oneLine asked
      refine List.forall_mem_cons.mpr ⟨by simp_all [OneLine], ?_⟩
      exact List.forall_mem_append.mpr
        ⟨oneLine_flatMap (fun _ => RuleSet.lines_oneLine) held, closing⟩
  | page rule =>
      rcases List.forall_mem_append.mp whole with ⟨named, held⟩
      have heading := PageRule.renderScope_oneLine named
      refine List.forall_mem_cons.mpr ⟨by simp_all [OneLine], ?_⟩
      exact List.forall_mem_append.mpr
        ⟨oneLine_flatMap (fun _ => PageItem.lines_oneLine) held, closing⟩
  | margin rule =>
      exact MarginRule.lines_oneLine whole
  | viewport rule =>
      exact Declaration.linesUnder_oneLine (by decide) whole
  | fontFace rule =>
      exact Declaration.linesUnder_oneLine (by decide) whole

end StyleRules

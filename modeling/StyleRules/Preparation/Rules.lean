import StyleRules.Config
import StyleRules.Preparation.Basic
import StyleRules.Rule.Edit
import StyleRules.Rule.Text

/-!
# Preparing rules

A preparator turns what a grammar has read into rules. A production without
content is elided: no rule comes of it, and nothing is requested. Every rule
that is made is reported with its text.
-/

namespace StyleRules

/-- Whose inline style is prepared, if anyone's, and whether it outranks every selector. -/
structure Preparator where
  owner : Option ElementId
  inlinePriority : Bool
deriving DecidableEq, Repr

namespace Preparator

/-- For the text of a stylesheet, which no element owns. -/
def forSheet : Preparator :=
  ⟨none, false⟩

def forElement (owner : ElementId) (inlinePriority : Bool) : Preparator :=
  ⟨some owner, inlinePriority⟩

def ofConfig (owner : Option ElementId) (config : Config) : Preparator :=
  ⟨owner, config.inlinePriority⟩

end Preparator

namespace Preparation

def elide {α : Type} (what : String) : Preparation (Option α) :=
  .report ⟨.debug, "Empty " ++ what ++ " was omitted"⟩ (.succeed none)

def announce {α : Type} (what text : String) (next : Preparation α) : Preparation α :=
  .report ⟨.info, "Created " ++ what ++ " with:\n" ++ text⟩ next

def wrapMessage (rule : RuleSet) (queries : List MediaQuery) : String :=
  "Wrapping RuleSet " ++ rule.render ++ " into RuleMedia: " ++ MediaQuery.renderList queries

/-- A rule set that belongs to some media is put into a media rule of its own. -/
def wrapRuleSet (rule : RuleSet) (queries : List MediaQuery) : Preparation (Option Rule) :=
  .report ⟨.debug, wrapMessage rule queries⟩ <|
    .request .media fun (base : MediaRule) =>
      .succeed (some (.media ((base.push rule).setQueries queries)))

def ruleSet (selectors : List Selector) (declarations : List Declaration) (wrap : Bool)
    (queries : List MediaQuery) : Preparation (Option Rule) :=
  if selectors.isEmpty || declarations.isEmpty then
    elide "RuleSet"
  else
    .request .ruleSet fun (base : RuleSet) =>
      let rule := (base.setSelectors selectors).replaceAll declarations
      announce "RuleSet" rule.render <|
        if wrap then wrapRuleSet rule queries else .succeed (some (.set rule))

/-- Without queries, the media of the new rule are left as the factory chose them. -/
def mediaRule (rules : List RuleSet) (queries : List MediaQuery) : Preparation (Option MediaRule) :=
  if rules.isEmpty then
    elide "RuleMedia"
  else
    .request .media fun (base : MediaRule) =>
      let filled := base.replaceAll rules
      let rule := if queries.isEmpty then filled else filled.setQueries queries
      announce "@media" rule.render (.succeed (some rule))

/-- Declarations come before margin rules. -/
def pageRule (declarations : List Declaration) (margins : List MarginRule) (name : Option String)
    (pseudo : Option PagePseudo) : Preparation (Option PageRule) :=
  if declarations.isEmpty && margins.isEmpty then
    elide "RulePage"
  else
    .request .page fun (base : PageRule) =>
      let withDeclarations := base.pushAll (declarations.map PageItem.declaration)
      let filled := withDeclarations.pushAll (margins.map PageItem.margin)
      let rule := (filled.setName name).setPseudo pseudo
      announce "@page" rule.render (.succeed (some rule))

/-- Whether a margin box has the name given is for the factory to say, and only if there are
declarations for it. -/
def marginRule (area : String) (declarations : List Declaration) :
    Preparation (Option MarginRule) :=
  if declarations.isEmpty then
    elide ("RuleMargin @" ++ area)
  else
    .request (.margin area) fun (base : MarginRule) =>
      let rule := base.replaceAll declarations
      announce ("@" ++ rule.area.name) rule.render (.succeed (some rule))

def viewportRule (declarations : List Declaration) : Preparation (Option ViewportRule) :=
  if declarations.isEmpty then
    elide "RuleViewport"
  else
    .request .viewport fun (base : ViewportRule) =>
      let rule := base.replaceAll declarations
      announce "@viewport" rule.render (.succeed (some rule))

def fontFaceRule (declarations : List Declaration) : Preparation (Option FontFaceRule) :=
  if declarations.isEmpty then
    elide "RuleFontFace"
  else
    .request .fontFace fun (base : FontFaceRule) =>
      let rule := base.replaceAll declarations
      announce "@font-face" rule.render (.succeed (some rule))

/-- The style of an element is a rule set with one selector, which selects that element and may be
limited to some pages. -/
def inlineRuleSet (preparator : Preparator) (declarations : List Declaration)
    (pages : List PagePseudo) : Preparation (Option RuleSet) :=
  if declarations.isEmpty then
    elide "inline RuleSet"
  else
    match preparator.owner with
    | none => .fail .missingElement
    | some owner =>
        .request .compound fun (part : CompoundSelector) =>
        .request (.elementTerm owner preparator.inlinePriority) fun (term : SimpleSelector) =>
        .request .selector fun (selector : Selector) =>
        .request .ruleSet fun (base : RuleSet) =>
          let subject := (part.push term).extend (pages.map SimpleSelector.pagePseudo)
          let filled := base.replaceAll declarations
          let rule := filled.setSelectors [selector.push subject]
          announce "inline RuleSet" rule.render (.succeed (some rule))

end Preparation

/-- What a grammar hands over when it has read one rule. -/
inductive Production where
  | ruleSet (selectors : List Selector) (declarations : List Declaration) (wrap : Bool)
      (queries : List MediaQuery)
  | media (rules : List RuleSet) (queries : List MediaQuery)
  | page (declarations : List Declaration) (margins : List MarginRule) (name : Option String)
      (pseudo : Option PagePseudo)
  | margin (area : String) (declarations : List Declaration)
  | viewport (declarations : List Declaration)
  | fontFace (declarations : List Declaration)
  | inlineStyle (declarations : List Declaration) (pages : List PagePseudo)
deriving DecidableEq, Repr

def Preparator.prepare (preparator : Preparator) : Production → Preparation (Option Rule)
  | .ruleSet selectors declarations wrap queries =>
      Preparation.ruleSet selectors declarations wrap queries
  | .media rules queries => (Preparation.mediaRule rules queries).map (Option.map Rule.media)
  | .page declarations margins name pseudo =>
      (Preparation.pageRule declarations margins name pseudo).map (Option.map Rule.page)
  | .margin area declarations =>
      (Preparation.marginRule area declarations).map (Option.map Rule.margin)
  | .viewport declarations =>
      (Preparation.viewportRule declarations).map (Option.map Rule.viewport)
  | .fontFace declarations =>
      (Preparation.fontFaceRule declarations).map (Option.map Rule.fontFace)
  | .inlineStyle declarations pages =>
      (Preparation.inlineRuleSet preparator declarations pages).map (Option.map Rule.set)

end StyleRules

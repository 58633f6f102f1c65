import StyleRules.Selector.Draft
import StyleRules.Selector.Specificity
import StyleRules.Session.Run
import StyleRules.Proofs.Running
import StyleRules.Proofs.Requests
import StyleRules.Proofs.Script
import StyleRules.Proofs.Building
import StyleRules.Proofs.Noninterference
import StyleRules.Proofs.Wrapping
import StyleRules.Session.Turns
import StyleRules.Proofs.Budget
import StyleRules.Proofs.Dialogue
import StyleRules.Proofs.Attaching
import StyleRules.Proofs.Reporting
import StyleRules.Proofs.Content
import StyleRules.Proofs.Keeping
import StyleRules.Proofs.Counting
import StyleRules.Proofs.InlineRank
import StyleRules.Proofs.Separating
import StyleRules.Rule.Layout
import StyleRules.Proofs.Layout
import StyleRules.Proofs.OneLine
import StyleRules.Selector.Canonical
import StyleRules.Proofs.SelectorText
import StyleRules.Proofs.SpecificityOrder
import StyleRules.Proofs.TermCounts
import StyleRules.Proofs.MediaText
import StyleRules.Proofs.Priority
import StyleRules.Proofs.Asking
import StyleRules.Proofs.MarginNames
import StyleRules.Proofs.KeySpelling
import StyleRules.Proofs.MediaSyntax
import StyleRules.Proofs.RootTable
import StyleRules.Proofs.Settings
import StyleRules.Proofs.ElementNumbers
import StyleRules.Proofs.Replaying
import StyleRules.Proofs.Drafting
import StyleRules.Proofs.LetterCase

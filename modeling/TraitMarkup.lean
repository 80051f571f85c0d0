import TraitMarkup.Machine.Record
import TraitMarkup.Main
import TraitMarkup.Proofs.Descent
import TraitMarkup.Proofs.Closing
import TraitMarkup.Proofs.Acceptance
import TraitMarkup.Proofs.WellFormed
import TraitMarkup.Proofs.Markup
import TraitMarkup.Proofs.Dispatch
import TraitMarkup.Proofs.Bracketing
import TraitMarkup.Proofs.Refusal
import TraitMarkup.Proofs.Redefinition
import TraitMarkup.Proofs.Truncation
import TraitMarkup.Proofs.Matching
import TraitMarkup.Proofs.Lexemes
import TraitMarkup.Proofs.Relaying
import TraitMarkup.Proofs.Respacing
import TraitMarkup.Proofs.Partition
import TraitMarkup.Proofs.Relabeling
import TraitMarkup.Proofs.Carrying
import TraitMarkup.Proofs.Spacing
import TraitMarkup.Proofs.Likeness
import TraitMarkup.Proofs.Completion
import TraitMarkup.Proofs.Rearrangement
import TraitMarkup.Proofs.TreePrinting
import TraitMarkup.Proofs.Safety
import TraitMarkup.Proofs.Omission
import TraitMarkup.Proofs.Diagnosis
import TraitMarkup.Proofs.Ordering
import TraitMarkup.Proofs.Sessions
import TraitMarkup.Proofs.Composition
import TraitMarkup.Proofs.Balance
import TraitMarkup.Proofs.Comments
import TraitMarkup.Proofs.Recovery
import TraitMarkup.Proofs.Insertion
import TraitMarkup.Proofs.Termination
import TraitMarkup.Proofs.Visibility
import TraitMarkup.Proofs.Reporting
import TraitMarkup.Proofs.Indentation

import PromptForms.Main
import PromptForms.Web.Dispatch
import PromptForms.Store.Column
import PromptForms.Proofs.Attempts
import PromptForms.Proofs.Audit
import PromptForms.Proofs.Refusals
import PromptForms.Proofs.Stopping
import PromptForms.Proofs.Undisturbed
import PromptForms.Proofs.Namespace
import PromptForms.Proofs.Dates
import PromptForms.Proofs.Changes
import PromptForms.Proofs.Requests
import PromptForms.Proofs.Configured
import PromptForms.Proofs.Overlooking
import PromptForms.Proofs.Rounding
import PromptForms.Proofs.ShortestDigits
import PromptForms.Proofs.Stored
import PromptForms.Proofs.NumberTexts
import PromptForms.Proofs.JsonTexts
import PromptForms.Proofs.Exactness
import PromptForms.Proofs.Rejections
import PromptForms.Proofs.Readable
import PromptForms.Proofs.Deletions
import PromptForms.Proofs.OneStep
import PromptForms.Proofs.Acceptance
import PromptForms.Proofs.Triggers
import PromptForms.Proofs.Independence
import PromptForms.Proofs.Twins
import PromptForms.Proofs.Referable
import PromptForms.Proofs.Vetting
import PromptForms.Proofs.Bounds
import PromptForms.Proofs.DateForms
import PromptForms.Proofs.Mailboxes
import PromptForms.Proofs.StorageOrder
import PromptForms.Proofs.Slots
import PromptForms.Proofs.Patches
import PromptForms.Proofs.Saves
import PromptForms.Proofs.StepNames
import PromptForms.Proofs.Connections
import PromptForms.Proofs.Lookups
import PromptForms.Proofs.Counts

import FormRules.Bootstrap
import FormRules.Json.Schema
import FormRules.Proofs.Frame
import FormRules.Proofs.Opposites
import FormRules.Proofs.Rounds
import FormRules.Proofs.Defaults
import FormRules.Proofs.Freshness
import FormRules.Proofs.Convergence
import FormRules.Proofs.Grammar
import FormRules.Proofs.Notices
import FormRules.Proofs.Pairings
import FormRules.Proofs.Deliveries
import FormRules.Proofs.Writing
import FormRules.Proofs.Answers
import FormRules.Proofs.Latecomers
import FormRules.Proofs.Brackets
import FormRules.Proofs.Coverage
import FormRules.Proofs.Hiding
import FormRules.Proofs.Readback
import FormRules.Proofs.Startup
import FormRules.Proofs.Wrapping
import FormRules.Proofs.Conditions
import FormRules.Proofs.Hearings
import FormRules.Proofs.Repetition
import FormRules.Proofs.Availability
import FormRules.Proofs.Attachments
import FormRules.Proofs.Dispatches
import FormRules.Proofs.Resolution
import FormRules.Proofs.Inference
import FormRules.Proofs.Reversals
import FormRules.Proofs.Registrations
import FormRules.Proofs.Drafts
import FormRules.Proofs.Failures
import FormRules.Proofs.Extensions
import FormRules.Proofs.Indicators
import FormRules.Proofs.Storage

import Intake.Json.Record
import Intake.Session
import Intake.Proofs.Calendar.Ages
import Intake.Proofs.Cleaning.Agreement
import Intake.Proofs.Cleaning.Repetition
import Intake.Proofs.Email.Grammar
import Intake.Proofs.Examiner.Absence
import Intake.Proofs.Examiner.Lengths
import Intake.Proofs.Examiner.Rewording
import Intake.Proofs.Form.Reload
import Intake.Proofs.Form.Reports
import Intake.Proofs.Message.Escaping
import Intake.Proofs.Message.Shown
import Intake.Proofs.Number.Pattern
import Intake.Proofs.Pipeline.Addresses
import Intake.Proofs.Pipeline.Emptiness
import Intake.Proofs.Pipeline.Independence
import Intake.Proofs.Pipeline.Nulls
import Intake.Proofs.Pipeline.Numbers
import Intake.Proofs.Pipeline.Passwords
import Intake.Proofs.Rule.History
import Intake.Proofs.Rule.Joining
import Intake.Proofs.Rule.Writing
import Intake.Proofs.Text.Tagless
import Intake.Proofs.Text.Tags

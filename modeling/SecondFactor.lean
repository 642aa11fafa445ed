import SecondFactor.Http.Server
import SecondFactor.Settings
import SecondFactor.Proofs.Otp.StoredForm
import SecondFactor.Proofs.Service.Parts
import SecondFactor.Proofs.Service.Outcomes
import SecondFactor.Proofs.Http.Calls
import SecondFactor.Proofs.History
import SecondFactor.Proofs.Ledger
import SecondFactor.Proofs.Provenance
import SecondFactor.Proofs.Completeness
import SecondFactor.Proofs.Rotation
import SecondFactor.Proofs.Otp.Bookkeeping
import SecondFactor.Proofs.Subjects
import SecondFactor.Proofs.Enrollments
import SecondFactor.Proofs.RecoveryKey
import SecondFactor.Proofs.Coherence
import SecondFactor.Proofs.Acceptance
import SecondFactor.Proofs.Replay
import SecondFactor.Proofs.Shape
import SecondFactor.Proofs.Stores
import SecondFactor.Proofs.Agreement
import SecondFactor.Proofs.Refusals
import SecondFactor.Proofs.Records
import SecondFactor.Proofs.Marks
import SecondFactor.Proofs.Service.Staleness
import SecondFactor.Proofs.Races
import SecondFactor.Proofs.Revival
import SecondFactor.Proofs.BackupCode
import SecondFactor.Proofs.Service.Calm
import SecondFactor.Proofs.SingleUse
import SecondFactor.Proofs.Recovery
import SecondFactor.Proofs.PasswordHashes
import SecondFactor.Proofs.Locality
import SecondFactor.Proofs.Service.Steady
import SecondFactor.Proofs.Veil
import SecondFactor.Proofs.Http.Answers
import SecondFactor.Proofs.Expiry
import SecondFactor.Proofs.Purging
import SecondFactor.Proofs.Isolation
import SecondFactor.Proofs.Discretion
import SecondFactor.Proofs.Images
import SecondFactor.Proofs.Otp.Verdict
import SecondFactor.Proofs.Otp.Attempts
import SecondFactor.Proofs.Limit
import SecondFactor.Proofs.Service.Guises
import SecondFactor.Proofs.Http.Guises
import SecondFactor.Proofs.Lapse
import SecondFactor.Proofs.Otp.Resubmission
import SecondFactor.Proofs.Otp.Retirement
import SecondFactor.Proofs.Sealing
import SecondFactor.Proofs.Accounts
import SecondFactor.Proofs.Addresses
import SecondFactor.Proofs.Base32
import SecondFactor.Proofs.Otp.Usability
import SecondFactor.Proofs.Http.Codes
import SecondFactor.Proofs.ImageNames
import SecondFactor.Proofs.Serving
import SecondFactor.Proofs.Counters
import SecondFactor.Proofs.CodeHashes
import SecondFactor.Proofs.Spellings
import SecondFactor.Proofs.Otp.UsedSteps
import SecondFactor.Proofs.Drawing

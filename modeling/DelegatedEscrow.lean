import DelegatedEscrow.Account.Soundness
import DelegatedEscrow.Json.Form.Event
import DelegatedEscrow.Json.Form.Instruction
import DelegatedEscrow.Json.Form.Limits
import DelegatedEscrow.Ledger.Note
import DelegatedEscrow.Ledger.Step
import DelegatedEscrow.Main
import DelegatedEscrow.Proofs.Soundness
import DelegatedEscrow.Proofs.Refusal
import DelegatedEscrow.Proofs.Backing
import DelegatedEscrow.Proofs.Nonces
import DelegatedEscrow.Proofs.Control
import DelegatedEscrow.Proofs.History
import DelegatedEscrow.Proofs.Timers
import DelegatedEscrow.Proofs.Delegation
import DelegatedEscrow.Proofs.Pause
import DelegatedEscrow.Proofs.Announcements
import DelegatedEscrow.Proofs.Audit
import DelegatedEscrow.Proofs.Exit
import DelegatedEscrow.Proofs.Closure
import DelegatedEscrow.Proofs.Supply
import DelegatedEscrow.Proofs.Absence
import DelegatedEscrow.Proofs.Exactness
import DelegatedEscrow.Proofs.Headroom
import DelegatedEscrow.Proofs.Retention
import DelegatedEscrow.Proofs.Polling
import DelegatedEscrow.Proofs.Independence
import DelegatedEscrow.Proofs.Allowance
import DelegatedEscrow.Proofs.Slots
import DelegatedEscrow.Proofs.Json.Lexeme
import DelegatedEscrow.Proofs.Json.Scanning
import DelegatedEscrow.Proofs.Routing
import DelegatedEscrow.Proofs.Json.Document
import DelegatedEscrow.Proofs.Json.Fields
import DelegatedEscrow.Proofs.Json.Forms
import DelegatedEscrow.Proofs.Json.Plain
import DelegatedEscrow.Proofs.Json.RoundTrip
import DelegatedEscrow.Proofs.Batches
import DelegatedEscrow.Proofs.Strangers
import DelegatedEscrow.Proofs.Payments
import DelegatedEscrow.Proofs.Splitting
import DelegatedEscrow.Proofs.Display
import DelegatedEscrow.Proofs.Json.Layout
import DelegatedEscrow.Proofs.Unlocking
import DelegatedEscrow.Proofs.Json.Tolerance
import DelegatedEscrow.Proofs.Json.Arrangement

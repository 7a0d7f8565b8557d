import Isolation.Dump
import Isolation.Json.Coding
import Isolation.Main
import Isolation.Proofs.Roster
import Isolation.Shell.Completion
import Isolation.Call
import Isolation.Proofs.Engine
import Isolation.Proofs.History
import Isolation.Proofs.Lock.Table
import Isolation.Proofs.Locking
import Isolation.Proofs.Ordering
import Isolation.Proofs.Ledger
import Isolation.Proofs.Validation
import Isolation.Proofs.Deferred
import Isolation.Proofs.Optimistic
import Isolation.Proofs.Standing
import Isolation.Proofs.Marks
import Isolation.Proofs.Lock.Representation
import Isolation.Proofs.Lock.Holdings
import Isolation.Proofs.WoundWait
import Isolation.Proofs.Refusals
import Isolation.Proofs.Controller
import Isolation.Proofs.Unopposed
import Isolation.Proofs.Permanence
import Isolation.Proofs.Numbering
import Isolation.Proofs.Traceless
import Isolation.Proofs.Restart
import Isolation.Proofs.Lifecycle
import Isolation.Proofs.Stamps
import Isolation.Proofs.Victims
import Isolation.Proofs.Counting
import Isolation.Proofs.Ways
import Isolation.Proofs.Deeds
import Isolation.Proofs.Admission
import Isolation.Proofs.Lost
import Isolation.Proofs.Inert
import Isolation.Proofs.Lock.Rule
import Isolation.Proofs.Endings
import Isolation.Proofs.Logging
import Isolation.Proofs.Shell.Session
import Isolation.Proofs.Batch
import Isolation.Proofs.Timestamp
import Isolation.Proofs.Clearing
import Isolation.Proofs.Lock.Waiting
import Isolation.Proofs.Watermarks
import Isolation.Proofs.Shell.Completion

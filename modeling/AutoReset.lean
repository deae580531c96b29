import AutoReset.Dynamic.Session
import AutoReset.Latch.Registers
import AutoReset.Memory.NamedBlocks
import AutoReset.Number.Decimal
import AutoReset.Proofs.Event.Errand
import AutoReset.Proofs.Event.Stay
import AutoReset.Proofs.Event.Tenancy
import AutoReset.Proofs.Script.Act
import AutoReset.Proofs.Script.Contract
import AutoReset.Proofs.Script.Effect
import AutoReset.Proofs.Script.Ownership
import AutoReset.Proofs.Threads.Account
import AutoReset.Proofs.Threads.Book
import AutoReset.Proofs.Threads.BoundedWait
import AutoReset.Proofs.Threads.Conservation
import AutoReset.Proofs.Threads.Course
import AutoReset.Proofs.Threads.Gated
import AutoReset.Proofs.Threads.History
import AutoReset.Proofs.Threads.Linearization
import AutoReset.Proofs.Threads.Quiescence
import AutoReset.Proofs.Threads.Recovery
import AutoReset.Proofs.Threads.Ring
import AutoReset.Proofs.Threads.Rounds
import AutoReset.Proofs.Threads.Script
import AutoReset.Proofs.Threads.Step
import AutoReset.Proofs.Threads.Tally
import AutoReset.Proofs.Threads.Wakeup
import AutoReset.Script.Run
import AutoReset.Threads.Race
import AutoReset.Time.Clock
import AutoReset.Proofs.Script.Routes
import AutoReset.Proofs.Script.Refusal
import AutoReset.Proofs.Script.Frame
import AutoReset.Proofs.Script.Interference
import AutoReset.Proofs.Latch.Endurance
import AutoReset.Proofs.Latch.History
import AutoReset.Proofs.Threads.Parks
import AutoReset.Proofs.Script.Levels
import AutoReset.Proofs.Event.Timeouts
import AutoReset.Proofs.Script.Records
import AutoReset.Proofs.Script.Chronicle
import AutoReset.Proofs.Time.Deadline
import AutoReset.Proofs.Time.Seconds
import AutoReset.Proofs.Dynamic.Conversation
import AutoReset.Proofs.Event.Trial
import AutoReset.Proofs.Threads.Trial
import AutoReset.Proofs.Latch.Repetition
import AutoReset.Proofs.Memory.Store
import AutoReset.Proofs.Event.Order
import AutoReset.Proofs.Script.Identity
import AutoReset.Proofs.Threads.Burst
import AutoReset.Proofs.Text.Code
import AutoReset.Proofs.Text.Layout
import AutoReset.Proofs.Latch.Legibility

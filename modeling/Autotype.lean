import Autotype.Bench.Basic
import Autotype.Bench.Chip
import Autotype.Board.Basic
import Autotype.Board.Event
import Autotype.Board.Life
import Autotype.Board.Lives
import Autotype.Board.Reset
import Autotype.Board.Usb
import Autotype.Boot.Mode
import Autotype.Boot.ResetCause
import Autotype.Checksum
import Autotype.Clock
import Autotype.Engine.Action
import Autotype.Engine.Basic
import Autotype.Engine.Station
import Autotype.Engine.Typing
import Autotype.Hex
import Autotype.Keyboard.Descriptor
import Autotype.Keyboard.KeySet
import Autotype.Keyboard.Layout
import Autotype.Keyboard.Report
import Autotype.Keyboard.Usage
import Autotype.Programming.Programmer
import Autotype.Programming.Reply
import Autotype.Programming.Request
import Autotype.Programming.Session
import Autotype.Programming.Status
import Autotype.Programming.Watch
import Autotype.Proofs.Acceptance
import Autotype.Proofs.Assertions
import Autotype.Proofs.Attention
import Autotype.Proofs.Backup
import Autotype.Proofs.Blocks
import Autotype.Proofs.Boots
import Autotype.Proofs.Bounds
import Autotype.Proofs.Bus
import Autotype.Proofs.Calls
import Autotype.Proofs.Capacity
import Autotype.Proofs.Checked
import Autotype.Proofs.Chip
import Autotype.Proofs.Coherence
import Autotype.Proofs.Committed
import Autotype.Proofs.Contact
import Autotype.Proofs.Control
import Autotype.Proofs.Delays
import Autotype.Proofs.Draft
import Autotype.Proofs.Effect
import Autotype.Proofs.Ending
import Autotype.Proofs.Fetching
import Autotype.Proofs.Held
import Autotype.Proofs.History
import Autotype.Proofs.Journal
import Autotype.Proofs.Lasting
import Autotype.Proofs.Ledger
import Autotype.Proofs.Mailbox
import Autotype.Proofs.Offsets
import Autotype.Proofs.Overlay
import Autotype.Proofs.Performance
import Autotype.Proofs.Persistence
import Autotype.Proofs.Pieces
import Autotype.Proofs.Polls
import Autotype.Proofs.Pressed
import Autotype.Proofs.Program
import Autotype.Proofs.Readiness
import Autotype.Proofs.Reading
import Autotype.Proofs.Recorded
import Autotype.Proofs.Refusal
import Autotype.Proofs.Remainder
import Autotype.Proofs.Repeats
import Autotype.Proofs.Replay
import Autotype.Proofs.Replies
import Autotype.Proofs.Resending
import Autotype.Proofs.Restart
import Autotype.Proofs.Resync
import Autotype.Proofs.Run
import Autotype.Proofs.Shown
import Autotype.Proofs.Slots
import Autotype.Proofs.Snapshot
import Autotype.Proofs.Spelling
import Autotype.Proofs.Strokes
import Autotype.Proofs.Tampering
import Autotype.Proofs.Timing
import Autotype.Proofs.Trial
import Autotype.Proofs.Underway
import Autotype.Proofs.Unread
import Autotype.Proofs.Upload
import Autotype.Proofs.Verdict
import Autotype.Proofs.Vigil
import Autotype.Proofs.Vouching
import Autotype.Routine.Basic
import Autotype.Routine.Wait
import Autotype.Script.Basic
import Autotype.Script.Fault
import Autotype.Script.Instr
import Autotype.Store.Basic
import Autotype.Store.Cells
import Autotype.Store.Flash
import Autotype.Store.Geometry
import Autotype.Store.Header
import Autotype.Store.Medium
import Autotype.Store.Memory
import Autotype.Word

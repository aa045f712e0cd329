import SerialBus.Block
import SerialBus.Board.File
import SerialBus.Controller.Binding
import SerialBus.Controller.Service
import SerialBus.WordBus
import SerialBus.Proofs.Fields
import SerialBus.Proofs.Simulator.Condition
import SerialBus.Proofs.Simulator.Driver
import SerialBus.Proofs.Simulator.Interrupts
import SerialBus.Proofs.Run.Action
import SerialBus.Proofs.Run.Projection
import SerialBus.Proofs.Answers
import SerialBus.Proofs.Transfer.Losses
import SerialBus.Proofs.Transfer.Totals
import SerialBus.Proofs.Engine.Flow
import SerialBus.Proofs.Simulator.Switches
import SerialBus.Proofs.Engine.Wiring
import SerialBus.Proofs.Engine.Launching
import SerialBus.Proofs.Engine.Course
import SerialBus.Proofs.Delivery
import SerialBus.Proofs.Engine.Faultless
import SerialBus.Proofs.Engine.Progress
import SerialBus.Proofs.Progress
import SerialBus.Proofs.Racing
import SerialBus.Proofs.Host.Requests
import SerialBus.Proofs.Engine.Record
import SerialBus.Proofs.Engine.Request
import SerialBus.Proofs.Run.Recorded
import SerialBus.Proofs.Engine.Switching
import SerialBus.Proofs.Faults
import SerialBus.Proofs.Records
import SerialBus.Proofs.Refusals
import SerialBus.Proofs.Watermarks
import SerialBus.Proofs.Host.Steady
import SerialBus.Proofs.Host.Noted
import SerialBus.Proofs.Engine.Steady
import SerialBus.Proofs.Engine.Issuing
import SerialBus.Proofs.Commands
import SerialBus.Proofs.Host.Image
import SerialBus.Proofs.Engine.Image
import SerialBus.Proofs.Simulator.Unlogged
import SerialBus.Proofs.Engine.Guard
import SerialBus.Proofs.Isolation
import SerialBus.Proofs.Engine.Ledger
import SerialBus.Proofs.Engine.Resetting
import SerialBus.Proofs.Resets
import SerialBus.Proofs.Blocking
import SerialBus.Proofs.Aborts
import SerialBus.Proofs.Engine.Lending
import SerialBus.Proofs.Loans
import SerialBus.Proofs.Engine.Selecting
import SerialBus.Proofs.Selection
import SerialBus.Proofs.ChipOptions
import SerialBus.Proofs.Simulator.Selection
import SerialBus.Proofs.Host.Operations
import SerialBus.Proofs.Guards
import SerialBus.Proofs.Effects
import SerialBus.Proofs.Simulator.Passage
import SerialBus.Proofs.Segments
import SerialBus.Proofs.Quiet
import SerialBus.Proofs.Bus.Chunks
import SerialBus.Proofs.Bus.Calls
import SerialBus.Proofs.Scratch
import SerialBus.Proofs.Bus.Holding
import SerialBus.Proofs.Simulator.FarEnd
import SerialBus.Proofs.Bus.Success
import SerialBus.Proofs.Transparency
import SerialBus.Proofs.Clock
import SerialBus.Proofs.Rebinding
import SerialBus.Proofs.SegmentLists
import SerialBus.Proofs.Separation
import SerialBus.Proofs.Construction
import SerialBus.Proofs.Simulator.Levels
import SerialBus.Proofs.Conservation
import SerialBus.Proofs.Snapshot
import SerialBus.Proofs.StatusWord
import SerialBus.Proofs.Spelling
import SerialBus.Proofs.Packing
import SerialBus.Proofs.Switchboard
import SerialBus.Proofs.Configuration
import SerialBus.Proofs.Engine.Feeding
import SerialBus.Proofs.Standstill

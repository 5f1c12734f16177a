import RiscvRs.Lib.Program
import RiscvRs.Lib.Frame
import RiscvRs.Lib.Total
import RiscvRs.Lib.Blind
import RiscvRs.Lib.Order
import RiscvRs.Lib.Trace
import RiscvRs.Lib.Table
import RiscvRs.Lib.Bytes
import RiscvRs.Lib.Pieces
import RiscvRs.Lib.Ieee
import RiscvRs.Lib.Text
import RiscvRs.Lib.Nesting
import RiscvRs.Lib.Image
import RiscvRs.Lib.Search
import RiscvRs.Lib.Simulation
import RiscvRs.Isa.Rv32i
import RiscvRs.Isa.Words
import RiscvRs.Isa.Rv32c
import RiscvRs.Isa.Encoding
import RiscvRs.Isa.Process
import RiscvRs.Machine.Host
import RiscvRs.Machine.Memory
import RiscvRs.Machine.Inst
import RiscvRs.Machine.Cpu
import RiscvRs.Machine.Fields
import RiscvRs.Machine.Encoded
import RiscvRs.Machine.Encoders
import RiscvRs.Memory.Paged
import RiscvRs.Memory.Flat
import RiscvRs.Memory.Effects
import RiscvRs.Memory.Total
import RiscvRs.Memory.Devices
import RiscvRs.Memory.Bulk
import RiscvRs.Memory.Layout
import RiscvRs.Exec.Syscall
import RiscvRs.Exec.Integer
import RiscvRs.Exec.Float
import RiscvRs.Exec.Compressed
import RiscvRs.Exec.Values
import RiscvRs.Exec.Effects
import RiscvRs.Exec.Spill
import RiscvRs.Exec.Conformance
import RiscvRs.Exec.Slices
import RiscvRs.Exec.Expansion
import RiscvRs.Exec.Equivalence
import RiscvRs.Exec.Operations
import RiscvRs.Exec.Decoding
import RiscvRs.Exec.Results
import RiscvRs.Exec.Panics
import RiscvRs.Exec.Devices
import RiscvRs.Exec.Blind
import RiscvRs.Exec.Atomics
import RiscvRs.Exec.MulDiv
import RiscvRs.Exec.Streams
import RiscvRs.Exec.FpValues
import RiscvRs.Exec.FpOrder
import RiscvRs.Exec.Boxing
import RiscvRs.Exec.Calls
import RiscvRs.Run.Loop
import RiscvRs.Run.Path
import RiscvRs.Run.Trap
import RiscvRs.Run.Breakpoints
import RiscvRs.Run.Slicing
import RiscvRs.Run.Schedule
import RiscvRs.Exec.Stops
import RiscvRs.Exec.Offline
import RiscvRs.Session.Endings
import RiscvRs.Run.Moves
import RiscvRs.Run.Interrupts
import RiscvRs.Run.Panics
import RiscvRs.Run.Observing
import RiscvRs.Run.Watching
import RiscvRs.Run.Replay
import RiscvRs.Run.Fetch
import RiscvRs.Run.Accounting
import RiscvRs.Run.Undisturbed
import RiscvRs.Session.Cli
import RiscvRs.Session.Arguments
import RiscvRs.Session.Simulator
import RiscvRs.Session.Debugger
import RiscvRs.Session.Invariant
import RiscvRs.Session.Frames
import RiscvRs.Session.Snapshot
import RiscvRs.Session.Halting
import RiscvRs.Session.Counting
import RiscvRs.Session.Settings
import RiscvRs.Session.Stepping
import RiscvRs.Session.StepOver
import RiscvRs.Session.CallDepth
import RiscvRs.Session.Loading
import RiscvRs.Session.CommandLine
import RiscvRs.Session.Segments
import RiscvRs.Session.Sections
import RiscvRs.Session.Malformed
import RiscvRs.Session.Entry
import RiscvRs.Disasm.Decode
import RiscvRs.Disasm.Reading
import RiscvRs.Disasm.Meaning
import RiscvRs.Disasm.Accesses
import RiscvRs.Disasm.Ambiguity
import RiscvRs.Disasm.Reserved
import RiscvRs.Disasm.Targets
import RiscvRs.Disasm.Listing
import RiscvRs.Exec.Footprint
import RiscvRs.Session.Interface
import RiscvRs.Disasm.Executed
import RiscvRs.Session.Transparency
import RiscvRs.Reference.Accepted
import RiscvRs.Reference.Instructions
import RiscvRs.Reference.Steps
import RiscvRs.Reference.Runs
import RiscvRs.Reference.Start
import RiscvRs.Reference.Programs

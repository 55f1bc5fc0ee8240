import V5gdb.ByteMemory
import V5gdb.LittleEndian
import V5gdb.MemoryWords
import V5gdb.Bitfields
import V5gdb.ArmState
import V5gdb.SlotLoops
import V5gdb.SlotTables
import V5gdb.Transitions
import V5gdb.Outcomes
import V5gdb.Instructions
import V5gdb.SoftwareBreakpoints
import V5gdb.BreakpointTable
import V5gdb.PatchedMemory
import V5gdb.BreakpointRuns
import V5gdb.BreakpointSets
import V5gdb.DebugRegisters
import V5gdb.HardwareBreakpoints
import V5gdb.HardwareKeys
import V5gdb.HardwareSets
import V5gdb.RecordLayouts
import V5gdb.Context
import V5gdb.RegisterPaths
import V5gdb.TranslationTables
import V5gdb.MemoryAccess
import V5gdb.TableWalk
import V5gdb.Target
import V5gdb.Session
import V5gdb.System
import V5gdb.Startup
import V5gdb.AccessibleRanges
import V5gdb.TargetHardware
import V5gdb.StepAndHalt
import V5gdb.ReservedSlot
import V5gdb.SchedulerBalance
import V5gdb.TargetSoftware
import V5gdb.ExitBreakpoint
import V5gdb.UnattendedResume
import V5gdb.MemoryWrites
import V5gdb.TableHistory
import V5gdb.TruthfulRemoval
import V5gdb.PlacedBreakpoints
import V5gdb.CodeCoherence
import V5gdb.RefusedAddresses
import V5gdb.BreakpointAccesses
import V5gdb.WrittenCode
import V5gdb.ResumeActions
import V5gdb.AbortStack
import V5gdb.DebugFrame
import V5gdb.Overlay
import V5gdb.FrameRestore
import V5gdb.StackRefinement
import V5gdb.ContextSwitch
import V5gdb.SavedTasks
import V5gdb.TaskRegisters
import V5gdb.ThreadRegisters
import V5gdb.TaskRecords
import V5gdb.OwedReplies
import V5gdb.StopReplies
import V5gdb.SchedulerResume
import V5gdb.ArmCode
import V5gdb.Trampolines
import V5gdb.Framing
import V5gdb.Cobs
import V5gdb.Demultiplexing
import V5gdb.Multiplexing
import V5gdb.SharedWire
import V5gdb.FixedBuffers
import V5gdb.PanicScreen
import V5gdb.SerialInput
import V5gdb.SerialLink
import V5gdb.InterruptReports
import V5gdb.RateLimits
import V5gdb.PollTimes
import V5gdb.IrqHandler
import V5gdb.VectorTable
import V5gdb.BreakpointHits
import V5gdb.Competition
import V5gdb.MonitorCommands
import V5gdb.RobotRuns
import V5gdb.Redirections
import V5gdb.TaskStacks
import V5gdb.ThreadFiles
import V5gdb.ThreadRequests
import V5gdb.ThreadViews
import V5gdb.ThreadQueries
import V5gdb.Transparency
import V5gdb.Installation
import V5gdb.HostBridge
import V5gdb.ConnectionRuns
import V5gdb.ProgramText
import V5gdb.NativeSteps
import V5gdb.NativeRuns
import V5gdb.SteppedRuns

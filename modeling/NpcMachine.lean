import NpcMachine.Emulator.RtlIss
import NpcMachine.Machine.Run
import NpcMachine.Rtl.PipelineStep
import NpcMachine.Rtl.Invariant
import NpcMachine.Rtl.StoreCommit
import NpcMachine.Rtl.Tags
import NpcMachine.Rtl.Environment
import NpcMachine.Rtl.RedirectCommit
import NpcMachine.Rtl.CoreRun
import NpcMachine.Rtl.Operands
import NpcMachine.Rtl.Halt
import NpcMachine.Rtl.FetchFault
import NpcMachine.Rtl.FillTiming
import NpcMachine.Emulator.Responder
import NpcMachine.Rtl.CsrRead
import NpcMachine.Emulator.CsrCommit
import NpcMachine.Machine.Bits
import NpcMachine.Rtl.IcacheContents
import NpcMachine.Rtl.FillPath
import NpcMachine.Rtl.FillSide
import NpcMachine.Rtl.FlushRace
import NpcMachine.Emulator.Lockstep
import NpcMachine.Emulator.StoreOrder
import NpcMachine.Emulator.FenceI
import NpcMachine.Emulator.Follow
import NpcMachine.Emulator.FollowFetch
import NpcMachine.Emulator.CommitFollow
import NpcMachine.Emulator.Decoder
import NpcMachine.Emulator.Difftest
import NpcMachine.Emulator.DecodeAgree
import NpcMachine.Emulator.ValueAgree
import NpcMachine.Emulator.StepAgree
import NpcMachine.Emulator.Contract
import NpcMachine.Rtl.StraightLine
import NpcMachine.Emulator.StepEvent
import NpcMachine.Machine.EventStream
import NpcMachine.Emulator.DifftestRun
import NpcMachine.Emulator.Accept
import NpcMachine.Emulator.DatapathAgree
import NpcMachine.Emulator.ClintAccess
import NpcMachine.Rtl.RequestAlign
import NpcMachine.Rtl.ClintWrite
import NpcMachine.Machine.ByteLanes
import NpcMachine.Rtl.LaneMemory
import NpcMachine.Rtl.LaneAccess
import NpcMachine.Rtl.LaneLoads
import NpcMachine.Machine.Handshake
import NpcMachine.Rtl.BridgeHandshake
import NpcMachine.Emulator.PreciseTrap
import NpcMachine.Emulator.HartWf
import NpcMachine.Emulator.LoadAgree
import NpcMachine.Machine.ByteStream
import NpcMachine.Emulator.Loaders
import NpcMachine.Emulator.Checkpoint
import NpcMachine.Emulator.Outcome
import NpcMachine.Emulator.Alike
import NpcMachine.Emulator.Restore
import NpcMachine.Emulator.TimeAgree
import NpcMachine.Emulator.Queries
import NpcMachine.Emulator.RamAccess
import NpcMachine.Emulator.ElfLoad
import NpcMachine.Emulator.Inspect
import NpcMachine.Emulator.UartTrigger
import NpcMachine.Rtl.SingleCycle
import NpcMachine.Rtl.SingleCycleStore
import NpcMachine.Emulator.ClintAgree
import NpcMachine.Emulator.Encode
import NpcMachine.Emulator.RoundTrip
import NpcMachine.Emulator.RunLoop
import NpcMachine.Emulator.StopConditions
import NpcMachine.Emulator.Words
import NpcMachine.Emulator.Asm
import NpcMachine.Am.Trap
import NpcMachine.Machine.ByteCopy
import NpcMachine.Klib.Memmove
import NpcMachine.Klib.Alloc
import NpcMachine.Klib.Printf
import NpcMachine.Klib.PrintInt
import NpcMachine.Klib.Vsnprintf
import NpcMachine.Klib.Strtol
import NpcMachine.Search.Chunking
import NpcMachine.Search.Index
import NpcMachine.Emulator.BusAgree
import NpcMachine.Rtl.FetchAlign
import NpcMachine.Machine.RingBuffer
import NpcMachine.Emulator.LastEvents
import NpcMachine.Machine.Reach
import NpcMachine.Machine.ShiftArith
import NpcMachine.Machine.DoubleWord
import NpcMachine.Emulator.Program
import NpcMachine.Emulator.ProgramLogic
import NpcMachine.Am.Libgcc
import NpcMachine.Am.DoubleWord
import NpcMachine.Emulator.MemoryDpi
import NpcMachine.Emulator.ExView
import NpcMachine.Emulator.SameHart
import NpcMachine.Emulator.ServedAccess
import NpcMachine.Emulator.SingleCycleAgree
import NpcMachine.Emulator.SingleCycleFollow
import NpcMachine.Machine.Within
import NpcMachine.Emulator.Progress
import NpcMachine.Emulator.CoresAgree
import NpcMachine.Machine.CountZeros
import NpcMachine.Machine.LongDivision
import NpcMachine.Klib.Int64
import NpcMachine.Klib.Int64Division
import NpcMachine.Machine.Threads
import NpcMachine.Am.Cte
import NpcMachine.RtThread.Context
import NpcMachine.RtThread.Switching
import NpcMachine.Machine.Buckets
import NpcMachine.RtThread.ReadyTable
import NpcMachine.RtThread.Scheduler
import NpcMachine.RtThread.ThreadCalls
import NpcMachine.RtThread.KernelRuns
import NpcMachine.RtThread.Dispatch

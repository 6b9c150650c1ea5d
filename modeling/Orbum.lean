import Orbum.Common.ByteBusMap
import Orbum.Common.CacheEviction
import Orbum.Common.ClockCache
import Orbum.Common.OrderedLruCache
import Orbum.Division
import Orbum.Ee.Core.AddressSpaces
import Orbum.Ee.Core.BranchTrace
import Orbum.Ee.Core.CanonicalWords
import Orbum.Ee.Core.FunnelShift
import Orbum.Ee.Core.HostIndices
import Orbum.Ee.Core.InterruptTransparency
import Orbum.Ee.Core.MemoryBounds
import Orbum.Ee.Core.ParallelAbsolute
import Orbum.Ee.Core.ParallelCompare
import Orbum.Ee.Core.ParallelMultiply
import Orbum.Ee.Core.ParallelSaturation
import Orbum.Ee.Core.Pipelines
import Orbum.Ee.Core.PixelFormat
import Orbum.Ee.Core.ReorderingInverse
import Orbum.Ee.Core.StatusCaches
import Orbum.Ee.Core.TlbRoundTrip
import Orbum.Ee.Core.Saturation
import Orbum.Ee.Core.SaveRestore
import Orbum.Ee.Core.UnalignedAccess
import Orbum.Ee.Dmac.CallReturn
import Orbum.Ee.Dmac.ChainRun
import Orbum.Ee.Dmac.NormalRun
import Orbum.Ee.Dmac.Scratchpad
import Orbum.Ee.Dmac.StallScope
import Orbum.Ee.Interrupts
import Orbum.GuestPointers
import Orbum.Iop.Core.ExceptionEntry
import Orbum.Iop.Core.IsolateCache
import Orbum.Iop.Dmac.NormalRun
import Orbum.AccessWidth
import Orbum.Overflow
import Orbum.Sif.Sif0
import Orbum.Sif.Sif1
import Orbum.Tasks.CoreRun
import Orbum.Tasks.QueueArchive
import Orbum.Lib.Prescaler
import Orbum.Common.TimersCount
import Orbum.Ee.TimersMode
import Orbum.Ee.TimersInterrupt
import Orbum.Spu2.AutoDma
import Orbum.Cdvd.NvramBlocks
import Orbum.Sif.SbusF240
import Orbum.Cdvd.Rtc
import Orbum.Cdvd.Handshake
import Orbum.Ee.Vu.SignedBranches
import Orbum.Ee.Vu.IntegerAlu
import Orbum.Ee.Vu.Moves
import Orbum.Ee.Vu.LoadStore
import Orbum.ConstantRegisters
import Orbum.Lib.Machine
import Orbum.Ee.Vu.FloatUnit
import Orbum.Ee.Vu.Random
import Orbum.Ee.Vu.Broadcast
import Orbum.Vsnprintf
import Orbum.Lib.SwitchTree
import Orbum.Common.InstructionTable
import Orbum.Iop.Core.Lookup
import Orbum.Iop.Core.Alu
import Orbum.Iop.Core.Dispatch
import Orbum.Ee.Core.Interpreter.Lookup
import Orbum.Ee.Core.Interpreter.Dispatch
import Orbum.Ee.Core.Interpreter.Logical
import Orbum.CommonInstructions
import Orbum.CommonPrograms
import Orbum.Lib.Cycle
import Orbum.Iop.Timers
import Orbum.Gs.Crtc
import Orbum.VideoTimers
import Orbum.Iop.InterruptDelivery
import Orbum.Ee.VifTransfer

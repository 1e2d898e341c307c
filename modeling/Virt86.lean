import Virt86.LayeredMaps
import Virt86.PhysicalMemory
import Virt86.Paging
import Virt86.MemoryMapRefinement
import Virt86.PagingWalks
import Virt86.HostInterface
import Virt86.KvmRegisters
import Virt86.WriteBackCaches
import Virt86.KvmProcessor
import Virt86.KvmCacheRefinement
import Virt86.KvmHostWrites
import Virt86.HaxmProcessor
import Virt86.HaxmCacheRefinement
import Virt86.FailedRuns
import Virt86.RunEngines
import Virt86.RegionBounds
import Virt86.InterruptQueue
import Virt86.InterruptWindows
import Virt86.DeviceAccesses
import Virt86.KvmMSRs
import Virt86.BatchedWrites
import Virt86.WhpxRegisters
import Virt86.WhpxBulkWrites
import Virt86.InstructionState
import Virt86.LinearMemory
import Virt86.WalkReads
import Virt86.LinearTransfers
import Virt86.GeneralRegisters
import Virt86.KvmRegisterBank
import Virt86.HaxmRegisterViews
import Virt86.WhpxRegisterViews
import Virt86.RegisterAccessors
import Virt86.BulkAccesses
import Virt86.RegisterCopies
import Virt86.Descriptors
import Virt86.DescriptorTables
import Virt86.PageAlignment
import Virt86.SegmentReads
import Virt86.DescriptorLimits
import Virt86.DescriptorWrites
import Virt86.SelectorPrivilege
import Virt86.TableTranslation
import Virt86.HaxmMSRs
import Virt86.MSRReports
import Virt86.DescriptorCodecs
import Virt86.DebugConfigurations
import Virt86.DebugOperations
import Virt86.BreakpointProgramming
import Virt86.DebugFailures
import Virt86.BreakpointReports
import Virt86.KvmMemorySlots
import Virt86.HaxmUnmapping
import Virt86.HaxmFailures
import Virt86.InterruptedFlushes
import Virt86.WriteLedgers
import Virt86.CallbackCaches
import Virt86.CallbackWrites
import Virt86.DigitOrders
import Virt86.Versions
import Virt86.DirtyBitmaps
import Virt86.MMIOTransfers
import Virt86.PortBuffers
import Virt86.KvmCpuids
import Virt86.WhpxFloatingControl
import Virt86.WhpxInterrupts
import Virt86.WhpxMachines
import Virt86.WhpxResources
import Virt86.Bitmasks
import Virt86.FloatingPointExtensions
import Virt86.RegionLookups
import Virt86.CStrings
import Virt86.ModuleInfo
import Virt86.ElfFiles
import Virt86.ElfByteOrders
import Virt86.GuestMemory
import Virt86.BackendMemory
import Virt86.FileTables
import Virt86.HaxmDeviceNames
import Virt86.HaxmLifetimes
import Virt86.KvmLifetimes
import Virt86.BackendDevices
import Virt86.CellLoops
import Virt86.LinearBytes

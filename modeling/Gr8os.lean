import Gr8os.Lib.Run
import Gr8os.Lib.Ring
import Gr8os.Lib.Bits
import Gr8os.Lib.Chain
import Gr8os.Status
import Gr8os.Ke.ListEntry
import Gr8os.Ps.Scheduler
import Gr8os.Ps.SchedulerLists
import Gr8os.Ps.SchedulerRuns
import Gr8os.Mm.Ppd
import Gr8os.Mm.PageLists
import Gr8os.Mm.PageRuns
import Gr8os.Mm.PageAllocation
import Gr8os.Mm.Mapping
import Gr8os.Mm.MappingSteps
import Gr8os.Mm.MappingWrites
import Gr8os.Lib.Fibre
import Gr8os.Lib.Partial
import Gr8os.Mm.ShareCount
import Gr8os.Mm.WorkingSet
import Gr8os.Mm.Memory
import Gr8os.Mm.Views
import Gr8os.Mm.ViewPages
import Gr8os.Mm.ViewRuns
import Gr8os.Se.Token
import Gr8os.Se.Inheritance
import Gr8os.Ex.Mutex
import Gr8os.Kd.Packet
import Gr8os.Kd.Transport
import Gr8os.Kd.ExactlyOnce
import Gr8os.Lib.PathWalk
import Gr8os.Ob.Name
import Gr8os.Ob.NameWalk
import Gr8os.Lib.RefCount
import Gr8os.Ob.References
import Gr8os.Ob.Release
import Gr8os.Ob.Accounts
import Gr8os.Ob.ReferenceRuns
import Gr8os.Ob.Links
import Gr8os.Ob.Edits
import Gr8os.Ob.Resolution
import Gr8os.Ob.ResolutionRuns
import Gr8os.Ob.DereferenceRace
import Gr8os.Ob.Handles
import Gr8os.Lib.Bytes
import Gr8os.Lib.Slots
import Gr8os.Cc.Cache
import Gr8os.Cc.Contents
import Gr8os.Cc.Transfers
import Gr8os.Lib.Follow
import Gr8os.FsFat.Fat
import Gr8os.FsFat.Layout
import Gr8os.Cc.Reads
import Gr8os.Cc.Writes
import Gr8os.Cc.Purge
import Gr8os.Cc.CacheRuns
import Gr8os.Cc.Durability
import Gr8os.Io.DeviceStack
import Gr8os.Ke.Dpc
import Gr8os.Mm.TrimRoundTrip
import Gr8os.Mm.ViewFaults
import Gr8os.Se.Sharing
import Gr8os.Ps.Termination
import Gr8os.Ob.NameTypes
import Gr8os.Ob.Deletion
import Gr8os.Ob.Lifecycle
import Gr8os.Ob.HandleCounts
import Gr8os.Ex.Heap
import Gr8os.Lib.Tiling
import Gr8os.Ex.HeapBlocks
import Gr8os.Ex.HeapLayout
import Gr8os.Ex.HeapAllocation
import Gr8os.Ex.HeapFree
import Gr8os.Ex.HeapIntegrity
import Gr8os.Ex.HeapCalls
import Gr8os.Ex.HeapGuard
import Gr8os.Ex.HeapFrame
import Gr8os.Ex.HeapGuardRuns
import Gr8os.Keyboard.Driver
import Gr8os.Keyboard.Fifo
import Gr8os.Ob.DirectoryCreation
import Gr8os.Ob.Publication
import Gr8os.Cc.MapCounts
import Gr8os.Cc.MapRuns
import Gr8os.Ex.Callback
import Gr8os.Ex.CallbackLists
import Gr8os.Cc.ReadLengths
import Gr8os.FsFat.Read
import Gr8os.FsFat.ReadExact
import Gr8os.Mm.MappingRange
import Gr8os.Ex.LiveBlocks
import Gr8os.Mm.MemoryFailure
import Gr8os.Mm.MemoryDescriptors
import Gr8os.Mm.WorkingSetGrowth
import Gr8os.Mm.ViewFailures
import Gr8os.Ob.FileMappings
import Gr8os.Mm.PageDatabase
import Gr8os.Mm.Reservation
import Gr8os.Mm.ZeroPages
import Gr8os.Lib.LittleEndian
import Gr8os.Lib.ZeroTerminated
import Gr8os.Lib.Visits
import Gr8os.Lib.Ownership
import Gr8os.Ldr.Image
import Gr8os.Ldr.Relocation
import Gr8os.Ldr.RelocationTermination
import Gr8os.Ldr.Strings
import Gr8os.Ldr.Exports
import Gr8os.Ldr.Forwarders
import Gr8os.Ldr.Sections
import Gr8os.Ldr.SectionLayout
import Gr8os.Ob.TableMemory
import Gr8os.Ob.HandleChecks
import Gr8os.Ob.HandleAccess
import Gr8os.Ob.LinkSubstitution
import Gr8os.Ob.ReparseBuffers
import Gr8os.Ob.ReparseOwnership
import Gr8os.Ob.ReparseLookups
import Gr8os.FsFat.Packing
import Gr8os.FsFat.PartialFat
import Gr8os.FsFat.RootDirectory
import Gr8os.Cc.PageFill
import Gr8os.Cc.Events
import Gr8os.Cc.ErrorReports
import Gr8os.Cc.TransferCounts
import Gr8os.Cc.FreeCacheMap
import Gr8os.Ob.NameInversion
import Gr8os.Ob.Enumeration
import Gr8os.Io.FailedCreation
import Gr8os.FsFat.RootLookup
import Gr8os.FsFat.MountUndo
import Gr8os.FsFat.MountNames
import Gr8os.Io.RequestBuffers
import Gr8os.Ps.Delays
import Gr8os.Ps.RoundRobin
import Gr8os.Ke.SynchronizationEvents
import Gr8os.Ke.SpinLockRuns
import Gr8os.Hal.DmaRequests
import Gr8os.Hal.ComPort
import Gr8os.Ke.ExceptionRuns
import Gr8os.Kd.ReceiveBounds
import Gr8os.Lib.BlockMoves
import Gr8os.Ke.BlockOperations
import Gr8os.Ke.MemoryMove
import Gr8os.Rtl.StringCopies
import Gr8os.Kd.Console
import Gr8os.Lib.FirstRun
import Gr8os.Kd.FrameSync
import Gr8os.Kd.ReadMemory
import Gr8os.Loader.Paging
import Gr8os.Loader.DoRead
import Gr8os.Loader.ClusterChain
import Gr8os.Cc.ClusterEvents
import Gr8os.Ide.Partition
import Gr8os.Ps.ContextSwitch
import Gr8os.Ps.ThreadRuns
import Gr8os.Ps.TimerSafety
import Gr8os.Ps.Refinement
import Gr8os.Lib.Sink
import Gr8os.Rtl.Printf
import Gr8os.Rtl.PrintfBuffer
import Gr8os.Rtl.PrintfNumber
import Gr8os.Rtl.PrintfDirectives
import Gr8os.Ldr.Imports
import Gr8os.Ldr.ImportBinding
import Gr8os.Lib.FileCursor
import Gr8os.Cc.WholeReads
import Gr8os.Io.FileTransfers
import Gr8os.Io.SectorReads
import Gr8os.FsFat.FileReads
import Gr8os.Ide.PartitionReads
import Gr8os.Floppy.PerformRead
import Gr8os.Floppy.FileReads
import Gr8os.Io.ThreadIrps

import CapnpEs.Util
import CapnpEs.Library.LittleEndian
import CapnpEs.Serialization.Packing
import CapnpEs.Serialization.PackedFormat
import CapnpEs.Serialization.UnpackSafety
import CapnpEs.Serialization.PackingRoundTrip
import CapnpEs.Serialization.PackedSizes
import CapnpEs.Serialization.Message
import CapnpEs.Serialization.Framing
import CapnpEs.Library.Outcome
import CapnpEs.Serialization.FramingRoundTrip
import CapnpEs.Serialization.StreamRoundTrip
import CapnpEs.Serialization.FramingGrammar
import CapnpEs.Serialization.Mask
import CapnpEs.Serialization.Pointers.Pointer
import CapnpEs.Serialization.Pointers.PointerUtils
import CapnpEs.Serialization.Pointers.StructUtils
import CapnpEs.Serialization.Pointers.Copying
import CapnpEs.Serialization.Pointers.Initializing
import CapnpEs.Serialization.Pointers.PointerFields
import CapnpEs.Serialization.Pointers.Accessors
import CapnpEs.Serialization.Pointers.Memory
import CapnpEs.Serialization.AllocationGuard
import CapnpEs.Serialization.Pointers.Resolution
import CapnpEs.Serialization.Pointers.PointerEncoding
import CapnpEs.Serialization.Pointers.PointerRoundTrip
import CapnpEs.Serialization.Pointers.CopyFrames
import CapnpEs.Serialization.Pointers.CompletedRuns
import CapnpEs.Serialization.Pointers.CompositeElements
import CapnpEs.Serialization.Pointers.Trees
import CapnpEs.Serialization.Pointers.ErasedTrees
import CapnpEs.Serialization.Pointers.InitialisedStructs
import CapnpEs.Serialization.Pointers.InitialisedLists
import CapnpEs.Serialization.Pointers.SharedDefaults
import CapnpEs.Serialization.Pointers.TextFields
import CapnpEs.Serialization.Pointers.ReadableStructs
import CapnpEs.Serialization.Pointers.PointerGetters
import CapnpEs.Serialization.Pointers.ShownObjects
import CapnpEs.Serialization.Pointers.FieldAccess
import CapnpEs.Serialization.Pointers.FieldRoundTrip
import CapnpEs.Serialization.Pointers.Orphans
import CapnpEs.Serialization.Pointers.DisposedOrphans
import CapnpEs.Library.SideState
import CapnpEs.Library.SlotTable
import CapnpEs.Rpc.Conn
import CapnpEs.Rpc.Tables
import CapnpEs.Rpc.Calls
import CapnpEs.Rpc.Handlers
import CapnpEs.Rpc.System
import CapnpEs.Rpc.Effects
import CapnpEs.Rpc.Refinement
import CapnpEs.Rpc.RefinementTables
import CapnpEs.Rpc.RefinementCloses
import CapnpEs.Rpc.RefinementCalls
import CapnpEs.Rpc.RefinementAnswers
import CapnpEs.Library.ChunkedStream
import CapnpEs.Node.StreamFrames
import CapnpEs.Node.FrameDecoding
import CapnpEs.Node.EncoderAgreement
import CapnpEs.Rpc.RefinementPromises
import CapnpEs.Rpc.RefinementReads
import CapnpEs.Rpc.RefinementHandlers
import CapnpEs.Library.Transition
import CapnpEs.Library.History
import CapnpEs.Library.CyclicWindow
import CapnpEs.Rpc.RefinementActions
import CapnpEs.Rpc.ReferenceLedger
import CapnpEs.Rpc.RefinedSystem
import CapnpEs.Rpc.TableInvariants
import CapnpEs.Rpc.QuestionLedger
import CapnpEs.Rpc.Embargoes
import CapnpEs.Rpc.PipelinedCalls
import CapnpEs.Rpc.PromiseCycles
import CapnpEs.Rpc.PromiseExports
import CapnpEs.Rpc.Closing
import CapnpEs.Rpc.AfterShutdown
import CapnpEs.Library.CallTree
import CapnpEs.Delivery.QueueingClients
import CapnpEs.Delivery.Fulfiller
import CapnpEs.Delivery.FlushOrder
import CapnpEs.Delivery.QueuedAnswers
import CapnpEs.Delivery.PromiseSettlement
import CapnpEs.Delivery.LocalAnswers
import CapnpEs.Delivery.PipelineHandles
import CapnpEs.Delivery.CallQueue
import CapnpEs.Rpc.Turns
import CapnpEs.Rpc.CallTurns
import CapnpEs.Rpc.HandlerTurns
import CapnpEs.Rpc.QuestionSlots
import CapnpEs.Rpc.ReceiveLoop
import CapnpEs.Rpc.RedirectedQuestions
import CapnpEs.Rpc.SettledAnswers
import CapnpEs.Rpc.SettledOnce
import CapnpEs.Rpc.CapReferences
import CapnpEs.Rpc.FailedCalls
import CapnpEs.Node.NodeRpcTransport
import CapnpEs.Node.WriteQueue
import CapnpEs.Serialization.SegmentAllocation
import CapnpEs.Serialization.SharedBuffers
import CapnpEs.Serialization.Pointers.PaddedStructs
import CapnpEs.Serialization.Pointers.SimpleLists
import CapnpEs.Serialization.Pointers.PrimitiveLists
import CapnpEs.Serialization.Pointers.InPlaceLists
import CapnpEs.Serialization.Pointers.ListMethods
import CapnpEs.Serialization.Pointers.ReadLists
import CapnpEs.Serialization.Pointers.DataBuffers
import CapnpEs.Serialization.MessageCopies
import CapnpEs.Serialization.IdenticalCopies
import CapnpEs.Serialization.Pointers.Operations
import CapnpEs.Serialization.Pointers.ReadOnlyMessages
import CapnpEs.Serialization.Pointers.ImmutableMessages
import CapnpEs.Serialization.Pointers.GrowingMessages
import CapnpEs.Node.Link
import CapnpEs.Library.Assignments
import CapnpEs.Serialization.Pointers.FieldVariables
import CapnpEs.Serialization.Pointers.WrittenTexts
import CapnpEs.Serialization.Pointers.TextVariables
import CapnpEs.Serialization.Pointers.TextRoundTrip
import CapnpEs.Serialization.Pointers.KeptTrees
import CapnpEs.Serialization.Pointers.RelocatedPointers

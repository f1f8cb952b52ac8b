import TestRpc.LittleEndian
import TestRpc.BlockCopies
import TestRpc.TransitionRuns
import TestRpc.StreamReceive
import TestRpc.FileCursor
import TestRpc.ByteMemory
import TestRpc.RepeatedSearch
import TestRpc.Linearizability
import TestRpc.HeapBlocks
import TestRpc.Programs
import TestRpc.LibcCalls
import TestRpc.ServerAddress
import TestRpc.StubRequest
import TestRpc.ClientHandler
import TestRpc.RequestRoundTrip
import TestRpc.HandlerSafety
import TestRpc.RequestFraming
import TestRpc.StubCalls
import TestRpc.ResponseDelivery
import TestRpc.ClientDescriptors
import TestRpc.RemoteTransparency
import TestRpc.CreationMode
import TestRpc.RenameRouting
import TestRpc.ResponseContents
import TestRpc.ClientPrograms
import TestRpc.AcceptLoop
import TestRpc.RequestDispatch
import TestRpc.ThreadBatches
import TestRpc.LoopProgress
import TestRpc.ServerHeap
import TestRpc.DescriptorTable
import TestRpc.ConnectionEnds
import TestRpc.LiveHandles
import TestRpc.ServedHandles
import TestRpc.ServerProcess
import TestRpc.LoopExits
import TestRpc.StubThreads
import TestRpc.SequentialReads
import TestRpc.RemoteService
import TestRpc.ServiceOrder
import TestRpc.GoFileTable
import TestRpc.GoTableBalance
import TestRpc.GoPrograms
import TestRpc.GoService
import TestRpc.GoNumberClaims
import TestRpc.GoCallOrder
import TestRpc.JavaHandles
import TestRpc.JavaConfinement
import TestRpc.ImportHooks
import TestRpc.DllInjection

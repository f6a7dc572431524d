import AsyncGrpc.Proofs.AsyncClients
import AsyncGrpc.Proofs.BlockingCalls
import AsyncGrpc.Proofs.BlockingQueues
import AsyncGrpc.Proofs.Callbacks
import AsyncGrpc.Proofs.Completion
import AsyncGrpc.Proofs.Deadlines
import AsyncGrpc.Proofs.Exchanges
import AsyncGrpc.Proofs.FreedMemory
import AsyncGrpc.Proofs.Listeners
import AsyncGrpc.Proofs.MethodNames
import AsyncGrpc.Proofs.PoolShutdown
import AsyncGrpc.Proofs.QueuePool
import AsyncGrpc.Proofs.QueueRefinement
import AsyncGrpc.Proofs.QueueShutdown
import AsyncGrpc.Proofs.Refusal
import AsyncGrpc.Proofs.Registration
import AsyncGrpc.Proofs.Removal
import AsyncGrpc.Proofs.Rest
import AsyncGrpc.Proofs.RoundRobin
import AsyncGrpc.Proofs.ShutdownComplete
import AsyncGrpc.Proofs.ShutdownReturns
import AsyncGrpc.Proofs.StreamedReply
import AsyncGrpc.Proofs.Writer

import Reactor.Library.TransitionSystem
import Reactor.Buffer
import Reactor.Channel
import Reactor.Connection
import Reactor.MessageFraming
import Reactor.EdgeTriggering
import Reactor.Eviction
import Reactor.Publication
import Reactor.Wakeup
import Reactor.WorkerPool
import Reactor.DrainLoop
import Reactor.WriteInterest
import Reactor.OwedOutput
import Reactor.ShortBuffer
import Reactor.ReplyFraming
import Reactor.ReadErrors
import Reactor.IdleEviction
import Reactor.ReplyProgress
import Reactor.ReplyOrder
import Reactor.ClientSession
import Reactor.WorkerReplies
import Reactor.LoopThreads
import Reactor.MainLoop
import Reactor.SingleReactor.DirectReplies

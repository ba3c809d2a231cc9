import InterprocessComm.Lib.Transition
import InterprocessComm.Lib.Ranking
import InterprocessComm.Lib.Threads
import InterprocessComm.Lib.Monitor
import InterprocessComm.Lib.ByteMemory
import InterprocessComm.Lib.CString
import InterprocessComm.Lib.Chain
import InterprocessComm.Lib.StableQueue
import InterprocessComm.Lib.TypedQueue
import InterprocessComm.Lib.NotifiedReader
import InterprocessComm.Lib.BytePipe
import InterprocessComm.Lib.Lock
import InterprocessComm.Lib.Ledger
import InterprocessComm.Lib.Ring
import InterprocessComm.Lib.SignalledWorker
import InterprocessComm.Lib.Cuts
import InterprocessComm.Lib.Outcomes
import InterprocessComm.Lib.Simulation
import InterprocessComm.Lib.Pool
import InterprocessComm.Lib.RecordLock
import InterprocessComm.Lib.Crew
import InterprocessComm.Posix
import InterprocessComm.MessageQueue.Layout
import InterprocessComm.MessageQueue.Operations
import InterprocessComm.MessageQueue.Chains
import InterprocessComm.MessageQueue.Creation
import InterprocessComm.MessageQueue.System
import InterprocessComm.MessageQueue.Stretches
import InterprocessComm.MessageQueue.Invariant
import InterprocessComm.MessageQueue.PriorityQueue
import InterprocessComm.MessageQueue.Wakeups
import InterprocessComm.MessageQueue.Notification
import InterprocessComm.MessageQueue.FileSizes
import InterprocessComm.MessageQueue.Failures
import InterprocessComm.MessageQueue.Frames
import InterprocessComm.MessageQueue.Waiters
import InterprocessComm.MessageQueue.Registrations
import InterprocessComm.RwLock.Operations
import InterprocessComm.RwLock.System
import InterprocessComm.RwLock.Exclusion
import InterprocessComm.RwLock.Wakeups
import InterprocessComm.RwLock.Preference
import InterprocessComm.RwLock.FailedWriters
import InterprocessComm.RwLock.Destruction
import InterprocessComm.RwLock.Failures
import InterprocessComm.Opening.FileSystem
import InterprocessComm.Opening.Protocol
import InterprocessComm.Opening.Safety
import InterprocessComm.Opening.MqOpen
import InterprocessComm.Opening.SemOpen
import InterprocessComm.Opening.Initialization
import InterprocessComm.Opening.Accounts
import InterprocessComm.Opening.MqAccounts
import InterprocessComm.Opening.SemAccounts
import InterprocessComm.Opening.Retries
import InterprocessComm.Opening.MqRetries
import InterprocessComm.Opening.SemRetries
import InterprocessComm.SharedRing.Operations
import InterprocessComm.SharedRing.History
import InterprocessComm.SharedRing.Rounds
import InterprocessComm.SharedRing.Invariant
import InterprocessComm.SharedRing.Messages
import InterprocessComm.SharedRing.Accesses
import InterprocessComm.SharedRing.Accounting
import InterprocessComm.Prodcons2.Operations
import InterprocessComm.Prodcons2.Steps
import InterprocessComm.Prodcons2.Checks
import InterprocessComm.Prodcons2.Counts
import InterprocessComm.Prodcons3.Operations
import InterprocessComm.Prodcons3.Items
import InterprocessComm.Prodcons3.Program
import InterprocessComm.Prodcons3.Delivery
import InterprocessComm.Prodcons4.Operations
import InterprocessComm.Prodcons4.Invariant
import InterprocessComm.Prodcons4.Items
import InterprocessComm.Prodcons4.Program
import InterprocessComm.Prodcons4.Delivery
import InterprocessComm.Prodcons6.Operations
import InterprocessComm.Prodcons6.Announcements
import InterprocessComm.Prodcons6.Items
import InterprocessComm.MmapSem.Operations
import InterprocessComm.MmapSem.Counting
import InterprocessComm.MmapSem.Wakeups
import InterprocessComm.FifoSem.Operations
import InterprocessComm.FifoSem.Counting
import InterprocessComm.FifoSem.Creation
import InterprocessComm.FifoSem.Accounts
import InterprocessComm.SvSem.Operations
import InterprocessComm.SvSem.System
import InterprocessComm.SvSem.Syscalls
import InterprocessComm.SvSem.Invariant
import InterprocessComm.SvSem.Initialization
import InterprocessComm.SvSem.Failures
import InterprocessComm.SvSem.Keys
import InterprocessComm.SvSem.Unlinking
import InterprocessComm.MqNotify.Operations
import InterprocessComm.MqNotify.Draining
import InterprocessComm.MqNotify.Sig2
import InterprocessComm.MqNotify.Thread1
import InterprocessComm.MqNotify.Sigl
import InterprocessComm.Mycat2.Operations
import InterprocessComm.Mycat2.Copying
import InterprocessComm.Svmsg.Messages
import InterprocessComm.Svmsg.Requests
import InterprocessComm.Svmsg.Replies
import InterprocessComm.Svmsg.FileTransfer
import InterprocessComm.Svmsg.Cliserv
import InterprocessComm.Svmsg.Routing
import InterprocessComm.Svmsg.Backlog
import InterprocessComm.Svmsg.Deadlock
import InterprocessComm.Svmsg.AnyRequests
import InterprocessComm.Svmsg.AnyResults
import InterprocessComm.Svmsg.Encoding
import InterprocessComm.Svmsg.Mpxnq
import InterprocessComm.Svmsg.MpxnqReplies
import InterprocessComm.Svmsg.MpxnqProgress
import InterprocessComm.Svmsg.Children
import InterprocessComm.Svmsg.Reaping
import InterprocessComm.Svmsg.Interrupts
import InterprocessComm.Svmsg.Limits
import InterprocessComm.Svmsg.LimitsQueues
import InterprocessComm.PipeMesg.Operations
import InterprocessComm.PipeMesg.Chunks
import InterprocessComm.PipeMesg.Transfer
import InterprocessComm.PipeMesg.Framing
import InterprocessComm.PipeMesg.AnyStream
import InterprocessComm.Fifoclieser.Operations
import InterprocessComm.Fifoclieser.Readline
import InterprocessComm.Fifoclieser.Requests
import InterprocessComm.Fifoclieser.Service
import InterprocessComm.Fifoclieser.Answers
import InterprocessComm.Fifoclieser.Delivery
import InterprocessComm.Fifoclieser.Progress
import InterprocessComm.Mainpipe.Operations
import InterprocessComm.Mainpipe.Transfer
import InterprocessComm.Mainpipe.Service
import InterprocessComm.LockReg.Operations
import InterprocessComm.LockReg.Onedaemon
import InterprocessComm.LockReg.Announcements
import InterprocessComm.LockReg.Tests
import InterprocessComm.Shm.Incr
import InterprocessComm.RtSignals.Operations
import InterprocessComm.RtSignals.Delivery
import InterprocessComm.Lockmain.Locks
import InterprocessComm.Lockmain.Operations
import InterprocessComm.Lockmain.Numbers
import InterprocessComm.Locksvsem.Operations
import InterprocessComm.Locksvsem.Exclusion

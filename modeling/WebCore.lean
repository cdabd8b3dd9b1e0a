import WebCore.Backlog
import WebCore.BufferQueue
import WebCore.BufferReads
import WebCore.BufferStorage
import WebCore.Callbacks
import WebCore.Close
import WebCore.ConnProgress
import WebCore.DeferredClose
import WebCore.Descriptors
import WebCore.Drain
import WebCore.EchoServer
import WebCore.HalfClose
import WebCore.InetAddress
import WebCore.Leftover
import WebCore.NoInterest
import WebCore.Notices
import WebCore.OutputStream
import WebCore.Pointers
import WebCore.PollEvents
import WebCore.PollerFailure
import WebCore.Progress
import WebCore.QueuedSend
import WebCore.Reports
import WebCore.ServerProgress
import WebCore.ServerTable
import WebCore.ServerTeardown
import WebCore.StartReturn

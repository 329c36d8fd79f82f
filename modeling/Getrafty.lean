import Getrafty.Lib.Transition
import Getrafty.Lib.Words
import Getrafty.Lib.Framing
import Getrafty.Lib.Assoc
import Getrafty.Lib.FileHistory
import Getrafty.Lib.Ledger
import Getrafty.Lib.NameTree
import Getrafty.Lib.Cursor
import Getrafty.Errno
import Getrafty.ByteBuffer
import Getrafty.ByteBufferQueue
import Getrafty.ByteBufferReserve
import Getrafty.ByteBufferFamily
import Getrafty.ByteBufferFifo
import Getrafty.ByteBufferMoves
import Getrafty.ByteBufferGrowth
import Getrafty.Chunker
import Getrafty.ChunkerRefinement
import Getrafty.ChunkerRoundTrip
import Getrafty.ChunkerSegmentation
import Getrafty.ChunkerAllocation
import Getrafty.ChunkerConservation
import Getrafty.EventWatcher
import Getrafty.EventWatcherTable
import Getrafty.EventLoop
import Getrafty.EventLoopSteps
import Getrafty.EventLoopDispatch
import Getrafty.EventLoopQueue
import Getrafty.EventLoopUnwatchAll
import Getrafty.EventLoopNesting
import Getrafty.Conveyor
import Getrafty.ConveyorDispatch
import Getrafty.TcpDialer
import Getrafty.EventLoopUnwatch
import Getrafty.Transport
import Getrafty.TransportOutbound
import Getrafty.TransportFlush
import Getrafty.TransportLifecycle
import Getrafty.TransportInbound
import Getrafty.TransportWrite
import Getrafty.TcpListener
import Getrafty.TcpListenerAccept
import Getrafty.TcpListenerShutdown
import Getrafty.Socket
import Getrafty.SocketSteps
import Getrafty.SocketLedger
import Getrafty.SocketReads
import Getrafty.SocketStates
import Getrafty.SocketWrites
import Getrafty.SocketClosed
import Getrafty.SocketCallables
import Getrafty.SocketTransport
import Getrafty.SocketTransportSteps
import Getrafty.SocketTransportPeers
import Getrafty.SocketTransportFds
import Getrafty.Myfs
import Getrafty.MyfsSteps
import Getrafty.MyfsNumbers
import Getrafty.MyfsTree
import Getrafty.MyfsContents
import Getrafty.MyfsReaddir
import Getrafty.MyfsStatfs
import Getrafty.MyfsAttributes
import Getrafty.MyfsUnlink
import Getrafty.MyfsReplies
import Getrafty.MapEventWatcher
import Getrafty.FdWatchMapRefinement
import Getrafty.MyfsEnumeration
import Getrafty.TcpSocket
import Getrafty.TcpSocketSteps
import Getrafty.TcpSocketPhases
import Getrafty.TcpSocketAttempts
import Getrafty.TcpSocketReads
import Getrafty.TcpSocketWrites
import Getrafty.TcpSocketConnections
import Getrafty.TcpSocketInterest
import Getrafty.TcpSocketPending
import Getrafty.TcpSocketWaking
import Getrafty.Lib.Relay
import Getrafty.Link
import Getrafty.LinkEndpoints
import Getrafty.LinkDelivery
import Getrafty.Lib.NamePaths
import Getrafty.MyfsFiles
import Getrafty.MyfsPaths
import Getrafty.MyfsServes
import Getrafty.Lib.Custody
import Getrafty.Process
import Getrafty.ProcessCalls
import Getrafty.ProcessCustody
import Getrafty.ProcessSteps
import Getrafty.ProcessRuns
import Getrafty.TcpSocketWatches
import Getrafty.WatchersAgree

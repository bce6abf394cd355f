import ProxySocket.Lts
import ProxySocket.TransConnect
import ProxySocket.Relay
import ProxySocket.ProxyConnect
import ProxySocket.Pair
import ProxySocket.Session
import ProxySocket.PairRel
import ProxySocket.PairServer
import ProxySocket.PairClient
import ProxySocket.PairRefine
import ProxySocket.Recycle
import ProxySocket.Announce
import ProxySocket.ReuseRace
import ProxySocket.CloseRace
import ProxySocket.FreeRace
import ProxySocket.CloseFree
import ProxySocket.Tunnel
import ProxySocket.Dispatch
import ProxySocket.Ownership
import ProxySocket.Ring
import ProxySocket.Buffer
import ProxySocket.SocketWrite
import ProxySocket.WriteErrors
import ProxySocket.BufferGrowth
import ProxySocket.Bytes
import ProxySocket.Frame
import ProxySocket.CtlConnect
import ProxySocket.SessionCount
import ProxySocket.PeerClose
import ProxySocket.ThreadClient
import ProxySocket.RecvFraming
import ProxySocket.DispatchLoop
import ProxySocket.SendBuffer
import ProxySocket.ClientPool
import ProxySocket.ObjectPool
import ProxySocket.UseCount
import ProxySocket.ReadyBatch
import ProxySocket.BatchAlive
import ProxySocket.ThreadStop
import ProxySocket.Semaphore
import ProxySocket.ControlRun
import ProxySocket.OrderedMap
import ProxySocket.ServerPass
import ProxySocket.LeastClients
import ProxySocket.FdCache
import ProxySocket.ServerTime
import ProxySocket.ServerClose
import ProxySocket.Poller
import ProxySocket.CtlClose
import ProxySocket.CString
import ProxySocket.HostPort
import ProxySocket.ClientTunnel
import ProxySocket.TunnelMsg
import ProxySocket.NewTunnel
import ProxySocket.Layout
import ProxySocket.Content
import ProxySocket.TunnelExchange
import ProxySocket.Arming
import ProxySocket.Conveyor
import ProxySocket.RelayPath
import ProxySocket.TaskQueue
import ProxySocket.Routing
import ProxySocket.Conversation
import ProxySocket.LoopStart
import ProxySocket.Accepting
import ProxySocket.Unclaimed
import ProxySocket.RefCount
import ProxySocket.Lifetime
import ProxySocket.UseAfterFree

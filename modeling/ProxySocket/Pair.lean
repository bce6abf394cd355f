/-
**One proxy connection: both halves, both tunnels and everything in flight.**

The two ends of a proxy connection talk over two TCP connections with no order between them: the
proxy stream (`up` towards the server, `down` towards the client) and the control connection
(`toSrv`, `toCli`).  A step is one handler of one of the two programs, run to its end, with two
exceptions on the client: the announcement of a session (`SendMsgDirct` of `ProxyMetaSet` or of
`ProxyConnectRsp`) and the `Run` that follows it are separate steps.  A run in which every `Run`
follows its announcement at once (`HandlerAtomic`) is a run of whole handlers.

The model follows one connection.  The messages it exchanges name its tunnel and its proxy id, which
are left out; a container of the source that is keyed by the proxy id is represented by what it says
about this connection.

Main definitions:

* `CtlMsg`, `Event` — the control messages, and what a run lets an observer see;
* `Pair` — the state of both ends, of the four channels, and the history;
* `Pair.freeProxyConn`, `Pair.shutdownPublicConn`, `Pair.shutdownFromPublic`,
  `Pair.newPublicConnHandler`, `Pair.claimProxyConn`, `Pair.handleStartProxyConnRsp`,
  `Pair.handleShutdownPublicConn`, `Pair.handleFreeProxyConnReq` — the server's handlers;
* `Pair.handleProxyNotify`, `Pair.handleShutdownLocalConn`, `Pair.shutdonwLocalConn`,
  `Pair.shutdownFromClient`, `Pair.handleProxyConnectReq` — the client's handlers;
* `Act`, `Pair.step`, `pairLts` — the transition system;
* `HandlerAtomic`, `RunsInTime`, `NoEarlyReuse`, `Bounded` — conditions on a step: whole handlers,
  a `Run` that is not too late, no reuse under a running client half, no session that wraps a
  counter.
-/

import ProxySocket.Lts
import ProxySocket.ProxyConnect

set_option relaxedAutoImplicit false
set_option autoImplicit false

namespace ProxySocket

/-- The messages of the control connection that concern a proxy connection. -/
inductive CtlMsg
  | notifyClient
  | shutdownPeerConn (tranCount : Counter)
  | freeConnReq
deriving DecidableEq, Repr

/-- The two ends of a proxy connection. -/
inductive Side
  | server
  | client
deriving DecidableEq, Repr

/-- The client threads that announce a session: the main thread announces a new connection, the
worker thread a recycled one. -/
inductive ClientThread
  | main
  | worker
deriving DecidableEq, Repr

/-- What the run of the program lets an observer see. -/
inductive Event
  /-- the client half, with this `start_` and this `conn2fd_`, reads a cell of the stream -/
  | cliRead (start : Bool) (conn2fd : ℕ) (c : Cell)
  /-- a half splices a cell to the connection of its session `sid` -/
  | spliced (side : Side) (sid : ℕ) (c : Cell)
  /-- `shutdownFromRemote` runs on a half, in its session `sid` -/
  | remoteShut (side : Side) (conn2fd sid : ℕ)
  /-- `resetConn` runs on a half with this pipe and this `recv_count_`; the other half has written
  `wrote` raw bytes to the stream in this session -/
  | reset (side : Side) (pipe : List Cell) (recv : Counter) (wrote : ℕ)
deriving DecidableEq, Repr

/-- The state of both ends of a proxy connection. -/
structure Pair where
  /-- the server's half -/
  srv : ProxyConnect
  /-- the connection is in the server tunnel's `proxy_connect_map_` -/
  proxyConnectMap : Bool
  /-- the connection is in the server tunnel's `wait_proxy_connect_map_` -/
  waitProxyConnectMap : Bool
  /-- how often the connection is in the server tunnel's `free_proxy_connects_` -/
  freeProxyConnects : ℕ
  /-- the server tunnel's `unhandle_fds_` -/
  unhandleFds : List ℕ
  /-- the client's half -/
  cli : ProxyConnect
  /-- the connection is in the client tunnel's `proxy_connect_map` -/
  cliProxyConnectMap : Bool
  /-- an announcement whose `Run` is still to come -/
  pending : Option (ClientThread × ClientConnect)
  /-- control messages on their way to the server, oldest first -/
  toSrv : List CtlMsg
  /-- control messages on their way to the client, oldest first -/
  toCli : List CtlMsg
  /-- the proxy stream towards the server -/
  up : List Cell
  /-- the proxy stream towards the client -/
  down : List Cell
  /-- history: the number of sessions the server half has started -/
  srvSid : ℕ
  /-- history: the local descriptors of the sessions the client has announced -/
  localFds : List ℕ
  /-- history: the raw bytes the client wrote in the session it announced last -/
  wroteUp : ℕ
  /-- history: the raw bytes the server wrote in the session it started last -/
  wroteDown : ℕ
  /-- history: what an observer has seen -/
  log : List Event

/-! ### Ghost events of the shutdown functions -/

/-- What `shutdownFromLocal` lets an observer see on the half `p`. -/
def localEvents (side : Side) (p : ProxyConnect) (wrote : ℕ) : List Event :=
  if p.halfClose then [.reset side p.pipe p.recvCount wrote] else []

/-- What `shutdownFromRemote` lets an observer see on the half `p` in its session `sid`. -/
def remoteEvents (side : Side) (p : ProxyConnect) (sid wrote : ℕ) : List Event :=
  .remoteShut side p.conn2fd sid :: localEvents side p wrote

namespace Pair

/-- The number of sessions the client has announced. -/
def cliSid (s : Pair) : ℕ := s.localFds.length

/-! ### The server -/

/-- `Tunnel::freeProxyConn`. -/
def freeProxyConn (s : Pair) : Pair :=
  if s.proxyConnectMap = false then s
  else if s.srv.start then s
  else { s with proxyConnectMap := false, freeProxyConnects := s.freeProxyConnects + 1 }

/-- `Tunnel::shutdownPublicConn`. -/
def shutdownPublicConn (s : Pair) : Pair :=
  if s.srv.recvCount ≠ s.srv.totalCount then s
  else
    let r := s.srv.shutdownFromRemote
    let s' := { s with
      srv := r.1
      log := s.log ++ remoteEvents .server s.srv s.srvSid s.wroteUp }
    if r.2 then s'.freeProxyConn else s'

/-- `Tunnel::shutdownFromPublic`.  What `shutdownFromLocal` answers is not looked at. -/
def shutdownFromPublic (s : Pair) (tranCount : Counter) : Pair :=
  if s.proxyConnectMap = false then s
  else
    { s with
      srv := s.srv.shutdownFromLocal.1
      toCli := s.toCli ++ [.shutdownPeerConn tranCount]
      log := s.log ++ localEvents .server s.srv s.wroteUp }

/-- `Tunnel::bindPublicFdToProxyConn`. -/
def bindPublicFdToProxyConn (s : Pair) (publicFd : ℕ) : Pair :=
  { s with
    srv := s.srv.run { fd := publicFd }
    proxyConnectMap := true
    srvSid := s.srvSid + 1
    wroteDown := 0 }

/-- `Tunnel::claimProxyConn`, which takes the public descriptor that was accepted last. -/
def claimProxyConn (s : Pair) : Option Pair :=
  match s.unhandleFds.getLast? with
  | none => none
  | some fd => some ({ s with unhandleFds := s.unhandleFds.dropLast }.bindPublicFdToProxyConn fd)

/-- `Tunnel::handleStartProxyConnRsp`. -/
def handleStartProxyConnRsp (s : Pair) (publicFd : ℕ) : Pair :=
  if s.waitProxyConnectMap = false then s
  else { s.bindPublicFdToProxyConn publicFd with waitProxyConnectMap := false }

/-- `Tunnel::newPublicConnHandler` for an accepted descriptor that meets this connection at the
back of `free_proxy_connects_`: pop, `reqStartProxy`, and the entry in the waiting map. -/
def newPublicConnHandler (s : Pair) (fd : ℕ) : Option Pair :=
  if s.freeProxyConnects = 0 then none
  else
    some { s with
      freeProxyConnects := s.freeProxyConnects - 1
      srv := s.srv.sendMsg (.proxyConnectReq fd)
      waitProxyConnectMap := true }

/-- `ProxyConnect::handleWrite` of the server's half: the output buffer goes to the stream. -/
def srvHandleWrite (s : Pair) : Option Pair :=
  if s.srv.buf = [] then none
  else some { s with srv := { s.srv with buf := [] }, down := s.down ++ s.srv.buf }

/-- `ProxyConnect::handleRead` of the server's half.  A raw byte that meets the frame reader is
taken for part of a header, and the cells read with it are lost. -/
def srvHandleRead (s : Pair) (n : ℕ) (o : SpliceOut) : Option Pair :=
  if s.srv.start then
    if s.srv.RawAdmissible s.up n o then
      let r := s.srv.spliceRaw s.up n o
      let s' := { s with
        srv := r.half
        up := r.rest
        log := s.log ++ r.out.map (Event.spliced .server s.srvSid) }
      some (if r.reached then s'.shutdownPublicConn else s')
    else none
  else
    match s.up with
    | [] => none
    | .frame .proxyMetaSet :: rest => { s with up := rest }.claimProxyConn
    | .frame (.proxyConnectRsp fd) :: rest => some ({ s with up := rest }.handleStartProxyConnRsp fd)
    | .frame (.proxyConnectReq _) :: rest => some { s with up := rest }
    | .raw _ _ :: _ => if 0 < n then some { s with up := s.up.drop n } else none

/-- `PublicConnect::handleRead`. -/
def publicRead (s : Pair) (i : SpliceIn) (o : SpliceOut) : Option Pair :=
  match s.srv.conn with
  | none => none
  | some c =>
      if i.Admissible c.closed ∧ o.Admissible i.bytes.length then
        let f := PublicConnect.handleRead c i o
        let s' := { s with
          srv := { s.srv with conn := some f.conn }
          down := s.down ++ raws s.srvSid f.written
          wroteDown := s.wroteDown + f.written.length }
        match f.shutdown with
        | none => some s'
        | some tranCount => some (s'.shutdownFromPublic tranCount)
      else none

/-- `Control::handleShutdownPublicConn`. -/
def handleShutdownPublicConn (s : Pair) (tranCount : Counter) : Pair :=
  if s.proxyConnectMap = false then s
  else
    { s with srv := { s.srv with totalCount := addTotalCount s.srv.totalCount tranCount } }
      |>.shutdownPublicConn

/-- `Control::handleFreeProxyConnReq`. -/
def handleFreeProxyConnReq (s : Pair) : Pair := s.freeProxyConn

/-- The server's control thread handles the next control message. -/
def srvCtlRead (s : Pair) : Option Pair :=
  match s.toSrv with
  | [] => none
  | .shutdownPeerConn tranCount :: rest =>
      some ({ s with toSrv := rest }.handleShutdownPublicConn tranCount)
  | .freeConnReq :: rest => some { s with toSrv := rest }.handleFreeProxyConnReq
  | .notifyClient :: rest => some { s with toSrv := rest }

/-! ### The client -/

/-- The announcement of a session: the connection to the local server is open, and the frame `m` is
written to the stream directly. -/
def announce (s : Pair) (thread : ClientThread) (localFd : ℕ) (m : ProxyMsg) : Pair :=
  { s with
    up := s.up ++ [.frame m]
    pending := some (thread, { fd := localFd })
    localFds := s.localFds ++ [localFd]
    wroteUp := 0 }

/-- `Client::handleProxyNotify` up to `SendMsgDirct`: the proxy connection is created. -/
def handleProxyNotify (s : Pair) (localFd : ℕ) : Pair :=
  { s with cli := { fd := s.cli.fd }, cliProxyConnectMap := true }.announce .main localFd
    .proxyMetaSet

/-- `Tunnel::HandleProxyConnectReq` up to `SendMsgDirct`. -/
def handleProxyConnectReq (s : Pair) (publicFd localFd : ℕ) : Pair :=
  if s.cli.start then s else s.announce .worker localFd (.proxyConnectRsp publicFd)

/-- `ProxyConnect::Run` after an announcement. -/
def cliRun (s : Pair) : Option Pair :=
  match s.pending with
  | none => none
  | some (_, c) => some { s with cli := s.cli.run c, pending := none }

/-- `Tunnel::shutdonwLocalConn`. -/
def shutdonwLocalConn (s : Pair) : Pair :=
  if s.cli.totalCount ≠ s.cli.recvCount then s
  else
    let r := s.cli.shutdownFromRemote
    { s with
      cli := r.1
      toSrv := if r.2 then s.toSrv ++ [.freeConnReq] else s.toSrv
      log := s.log ++ remoteEvents .client s.cli s.cliSid s.wroteDown }

/-- `Tunnel::shutdownFromClient`. -/
def shutdownFromClient (s : Pair) (tranCount : Counter) : Pair :=
  if s.cliProxyConnectMap = false then s
  else
    { s with
      cli := s.cli.shutdownFromLocal.1
      toSrv := s.toSrv ++ [.shutdownPeerConn tranCount]
      log := s.log ++ localEvents .client s.cli s.wroteDown }

/-- `Client::handleShutdownLocalConn`. -/
def handleShutdownLocalConn (s : Pair) (tranCount : Counter) : Pair :=
  if s.cliProxyConnectMap = false then s
  else
    { s with cli := { s.cli with totalCount := addTotalCount s.cli.totalCount tranCount } }
      |>.shutdonwLocalConn

/-- A `Run` of the given client thread is still to come. -/
def Owes (s : Pair) (thread : ClientThread) : Prop := ∃ c, s.pending = some (thread, c)

instance (s : Pair) (thread : ClientThread) : Decidable (s.Owes thread) :=
  decidable_of_iff (s.pending.map Prod.fst = some thread) (by simp [Owes])

/-- The client's main thread handles the next control message. -/
def cliCtlRead (s : Pair) (localFd : ℕ) : Option Pair :=
  if s.Owes .main then none
  else
    match s.toCli with
    | [] => none
    | .notifyClient :: rest =>
        if 0 < localFd then some ({ s with toCli := rest }.handleProxyNotify localFd) else none
    | .shutdownPeerConn tranCount :: rest =>
        some ({ s with toCli := rest }.handleShutdownLocalConn tranCount)
    | .freeConnReq :: rest => some { s with toCli := rest }

/-- What the client half lets an observer see when it reads the cells `cs`. -/
def readEvents (s : Pair) (cs : List Cell) : List Event :=
  cs.map (Event.cliRead s.cli.start s.cli.conn2fd)

/-- `ProxyConnect::handleRead` of the client's half, on the worker thread.  A raw byte that meets
the frame reader is taken for part of a header, and the cells read with it are lost. -/
def cliHandleRead (s : Pair) (n : ℕ) (o : SpliceOut) (localFd : ℕ) : Option Pair :=
  if s.Owes .worker then none
  else if s.cli.start then
    if s.cli.RawAdmissible s.down n o then
      let r := s.cli.spliceRaw s.down n o
      let s' := { s with
        cli := r.half
        down := r.rest
        log := s.log ++ (s.readEvents (s.down.take n) ++
          r.out.map (Event.spliced .client s.cliSid)) }
      some (if r.reached then s'.shutdonwLocalConn else s')
    else none
  else
    match s.down with
    | [] => none
    | .frame (.proxyConnectReq fd) :: rest =>
        if 0 < localFd then
          some ({ s with
            down := rest
            log := s.log ++ s.readEvents [.frame (.proxyConnectReq fd)] }.handleProxyConnectReq fd
              localFd)
        else none
    | .frame m :: rest => some { s with down := rest, log := s.log ++ s.readEvents [.frame m] }
    | .raw _ _ :: _ =>
        if 0 < n then
          some { s with down := s.down.drop n, log := s.log ++ s.readEvents (s.down.take n) }
        else none

/-- `ClientConnect::handleRead`, on the worker thread. -/
def localRead (s : Pair) (i : SpliceIn) (o : SpliceOut) : Option Pair :=
  if s.Owes .worker then none
  else
    match s.cli.conn with
    | none => none
    | some c =>
        if i.Admissible c.closed ∧ o.Admissible i.bytes.length then
          let f := ClientConnect.handleRead c i o
          let s' := { s with
            cli := { s.cli with conn := some f.conn }
            up := s.up ++ raws s.cliSid f.written
            wroteUp := s.wroteUp + f.written.length }
          match f.shutdown with
          | none => some s'
          | some tranCount => some (s'.shutdownFromClient tranCount)
        else none

end Pair

/-! ### The transition system -/

/-- The steps of the two programs, with the answers of the kernel. -/
inductive Act
  /-- the listener thread accepts a public client -/
  | newPublicConn (fd : ℕ)
  /-- the server half writes its output buffer -/
  | srvWrite
  /-- the server half reads the proxy stream -/
  | srvRead (n : ℕ) (o : SpliceOut)
  /-- the connection to the public client is readable -/
  | publicRead (i : SpliceIn) (o : SpliceOut)
  /-- the server's control thread handles a message -/
  | srvCtl
  /-- the client's main thread handles a message; a new local connection gets `localFd` -/
  | cliCtl (localFd : ℕ)
  /-- the client half reads the proxy stream; a new local connection gets `localFd` -/
  | cliRead (n : ℕ) (o : SpliceOut) (localFd : ℕ)
  /-- the connection to the local server is readable -/
  | localRead (i : SpliceIn) (o : SpliceOut)
  /-- the `Run` that follows an announcement -/
  | cliRun
deriving DecidableEq, Repr

/-- One step of one of the two programs. -/
def Pair.step (s : Pair) : Act → Option Pair
  | .newPublicConn fd => s.newPublicConnHandler fd
  | .srvWrite => s.srvHandleWrite
  | .srvRead n o => s.srvHandleRead n o
  | .publicRead i o => s.publicRead i o
  | .srvCtl => s.srvCtlRead
  | .cliCtl localFd => s.cliCtlRead localFd
  | .cliRead n o localFd => s.cliHandleRead n o localFd
  | .localRead i o => s.localRead i o
  | .cliRun => s.cliRun

/-- The state after the first public client was accepted, with the descriptor `fd`: it waits in
`unhandle_fds_`, and the client was asked for a connection. -/
def Pair.init (fd : ℕ) : Pair where
  srv := { fd := 1 }
  proxyConnectMap := false
  waitProxyConnectMap := false
  freeProxyConnects := 0
  unhandleFds := [fd]
  cli := { fd := 1 }
  cliProxyConnectMap := false
  pending := none
  toSrv := []
  toCli := [.notifyClient]
  up := []
  down := []
  srvSid := 0
  localFds := []
  wroteUp := 0
  wroteDown := 0
  log := []

/-- The life of one proxy connection, from the first public client on. -/
def pairLts (fd : ℕ) : Lts Pair Act where
  init := Pair.init fd
  step := Pair.step

/-- Every handler is one step: an announcement is followed by its `Run` at once. -/
def HandlerAtomic (s : Pair) (a : Act) : Prop := s.pending.isSome → a = .cliRun

/-- The `Run` of a new connection comes before the worker thread reads from it, and the `Run` of a
recycled one before the main thread handles a `ShutdownPeerConn` of no bytes. -/
def RunsInTime (s : Pair) : Act → Prop
  | .cliRead _ _ _ => ¬ s.Owes .main
  | .cliCtl _ => ¬ (s.Owes .worker ∧ s.toCli.head? = some (.shutdownPeerConn 0))
  | _ => True

/-- The listener does not hand the connection to a new public client while the client's half still
serves the old one. -/
def NoEarlyReuse (s : Pair) : Act → Prop
  | .newPublicConn _ => s.cli.start = false
  | _ => True

/-- No session carries `bound` raw bytes or more in one direction. -/
def Bounded (bound : ℕ) (s : Pair) (a : Act) : Prop :=
  ∀ s', s.step a = some s' → s'.wroteUp < bound ∧ s'.wroteDown < bound

instance (s : Pair) (a : Act) : Decidable (HandlerAtomic s a) := inferInstanceAs (Decidable (_ → _))

instance (s : Pair) : (a : Act) → Decidable (RunsInTime s a)
  | .cliRead _ _ _ => inferInstanceAs (Decidable (¬ _))
  | .cliCtl _ => inferInstanceAs (Decidable (¬ (_ ∧ _)))
  | .newPublicConn _ | .srvWrite | .srvRead _ _ | .publicRead _ _ | .srvCtl | .localRead _ _
  | .cliRun => .isTrue trivial

instance (bound : ℕ) (s : Pair) (a : Act) : Decidable (Bounded bound s a) :=
  inferInstanceAs (Decidable (∀ s', _ = some s' → _))

instance (s : Pair) : (a : Act) → Decidable (NoEarlyReuse s a)
  | .newPublicConn _ => inferInstanceAs (Decidable (_ = _))
  | .cliRead _ _ _ | .cliCtl _ | .srvWrite | .srvRead _ _ | .publicRead _ _ | .srvCtl
  | .localRead _ _ | .cliRun => .isTrue trivial

end ProxySocket

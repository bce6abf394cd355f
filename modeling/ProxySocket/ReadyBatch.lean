/-
**The connections of a batch of ready channels.**

A worker loop gets a batch of ready channels and runs their handlers one after the other.  The batch
keeps the channels alive, but the handlers of a channel are bound to the connection that owns it, and
a handler that runs earlier in the batch may drop the last reference to that connection: the close of
a proxy connection drops it with its `conn_`, and a proxy connection that gets a new `conn_` drops the
last one.

This module follows all worker loops of the server and the threads that change the same containers.
A handler is one step; between two handlers of a batch any other thread may run.  `~Connect` takes the
channel out of the poller, so a batch begins with channels of live connections.

Main definitions:

* `LoopServer`, `LoopAct`, `LoopServer.step` — the connections, their owners and what is left of each
  batch;
* `LoopServer.Alive` — a connection has an owner;
* `LoopServer.readLost`, `LoopServer.readGained`, `LoopServer.closeLost` — the references that a
  handler drops and makes;
* `LoopServer.Released` — **the condition on a step** under which a connection loses its last owner.

Main results:

* `LoopServer.useCount_proxyHandleRead`, `LoopServer.useCount_proxyEveryHandle` — what the two handlers
  do to the references to a connection;
* `LoopServer.conn_proxyHandleRead` — what the read handler does to `conn_`.
-/

import ProxySocket.ProxyConnect
import ProxySocket.UseCount

set_option relaxedAutoImplicit false
set_option autoImplicit false

namespace ProxySocket

open Function (update)

/-! ### The connections and what is left of the batches -/

/-- A connection with handlers on a worker loop. -/
inductive LoopConn (κ π : Type)
  /-- a `ProxyConnect` -/
  | proxy (p : κ)
  /-- a `PublicConnect` -/
  | pub (c : π)
deriving DecidableEq, Repr

/-- The handlers of a channel that are bound to its connection. -/
inductive LoopHandler
  | read
  | write
  | every
deriving DecidableEq, Repr

/-- The events of a ready channel: `EPOLLERR`, `EPOLLHUP`, `EPOLLRDHUP`, `EPOLLIN | EPOLLPRI` and
`EPOLLOUT`. -/
structure Revents where
  err : Bool := false
  hup : Bool := false
  rdhup : Bool := false
  input : Bool := false
  output : Bool := false
deriving DecidableEq, Repr

/-- What a loop has still to do. -/
inductive LoopTodo (κ π : Type)
  /-- to call `HandleEvents` of the channel of this connection -/
  | channel (x : LoopConn κ π) (r : Revents)
  /-- to call this handler from `HandleEvents` -/
  | handler (x : LoopConn κ π) (h : LoopHandler)
deriving DecidableEq, Repr

/-- The connection whose handler is called. -/
def LoopTodo.conn {κ π : Type} : LoopTodo κ π → LoopConn κ π
  | .channel x _ => x
  | .handler x _ => x

/-- A `ProxyConnect` of the server. -/
structure LoopProxy (ι π ρ : Type) where
  half : ProxyConnect
  proxyId : ι
  /-- the tunnel whose functions are its handlers -/
  tunnel : Option ℕ := none
  /-- the object that `conn_` refers to -/
  conn : Option π := none
  inBufferEmpty : Bool
  /-- `closed_` of its channel -/
  closed : Bool
  /-- its worker loop, when it was constructed -/
  loop : Option ρ

/-- A `PublicConnect`. -/
structure LoopPublic (ι ρ : Type) where
  tunnel : ℕ
  proxyId : ι
  closed : Bool := false
  loop : Option ρ

/-- The connections of the server, their owners, and what its worker loops have still to do. -/
structure LoopServer (ι κ π ρ : Type) where
  owners : Owners ι κ
  proxy : κ → LoopProxy ι π ρ
  pub : π → LoopPublic ι ρ
  batch : ρ → List (LoopTodo κ π)

/-- What a read handler finds. -/
inductive LoopAnswer (ι π : Type)
  /-- a splice fails, or no message can be read -/
  | fail
  /-- the first splice, or `readn`, finds nothing more -/
  | eof
  /-- the two splices move this many bytes -/
  | moved (n : ℕ)
  /-- a `ProxyMetaSet` with the tunnel it names, if that exists, the proxy id, and the `PublicConnect`
  that is made with its descriptor -/
  | proxyMetaSet (tun : Option ℕ) (proxyId : ι) (c : π) (fd : ℕ)
  | proxyConnectReq
  /-- a `ProxyConnectRsp`, and the `PublicConnect` that is made with its descriptor -/
  | proxyConnectRsp (c : π) (fd : ℕ)
deriving DecidableEq, Repr

/-- A step of a worker loop, or of one of the threads that change the containers. -/
inductive LoopAct (ι κ π ρ : Type)
  /-- `WaitChannels` returns a batch -/
  | wait (l : ρ) (ready : List (LoopConn κ π × Revents))
  /-- the loop goes on with its batch -/
  | invoke (l : ρ) (ans : LoopAnswer ι π)
  /-- `Server::newProxyConnHandler`, with the flags no constructor sets -/
  | newProxyConn (p : κ) (l : ρ) (fd : ℕ) (inBufferEmpty closed : Bool)
  /-- `Control::handleNewTunnelReq` -/
  | newTunnel
  /-- `Tunnel::newPublicConnHandler` -/
  | newPublicConn (t : ℕ)
  /-- `Control::handleShutdownPublicConn` -/
  | handleShutdownPublicConn (t : ℕ) (proxyId : ι) (tranCount : ℕ)
  /-- `Control::handleFreeProxyConnReq` -/
  | handleFreeProxyConnReq (t : ℕ) (proxyId : ι)
deriving DecidableEq, Repr

variable {ι κ π ρ : Type} [DecidableEq ι] [DecidableEq κ] [DecidableEq π] [DecidableEq ρ]
variable [Inhabited ι]

namespace LoopServer

/-! ### Live connections -/

/-- The connection has an owner: a container of the server, or the `conn_` of a connection that has
one. -/
def Alive (s : LoopServer ι κ π ρ) : LoopConn κ π → Prop
  | .proxy p => p ∈ s.owners.refs
  | .pub c => ∃ p ∈ s.owners.refs, (s.proxy p).conn = some c

instance (s : LoopServer ι κ π ρ) : DecidablePred s.Alive
  | .proxy p => inferInstanceAs (Decidable (p ∈ s.owners.refs))
  | .pub c => inferInstanceAs (Decidable (∃ p ∈ s.owners.refs, (s.proxy p).conn = some c))

/-- The worker loop of a connection. -/
def loopOf (s : LoopServer ι κ π ρ) : LoopConn κ π → Option ρ
  | .proxy p => (s.proxy p).loop
  | .pub c => (s.pub c).loop

/-! ### The tunnel -/

/-- A change of one `ProxyConnect`. -/
def setProxy (s : LoopServer ι κ π ρ) (p : κ) (x : LoopProxy ι π ρ) : LoopServer ι κ π ρ :=
  { s with proxy := update s.proxy p x }

/-- `Tunnel::bindPublicFdToProxyConn`, which makes the `PublicConnect` `c`. -/
def bindPublicFdToProxyConn (s : LoopServer ι κ π ρ) (t : ℕ) (p : κ) (c : π) (fd : ℕ) :
    LoopServer ι κ π ρ :=
  let x := s.proxy p
  { s with
    pub := update s.pub c { tunnel := t, proxyId := x.proxyId, loop := x.loop }
    proxy := update s.proxy p { x with half := x.half.run { fd := fd }, conn := some c }
    owners := s.owners.addProxy t x.proxyId p }

/-- `Server::claimProxyConn` with `Tunnel::claimProxyConn`, when the control and the tunnel exist. -/
def claimProxyConn (s : LoopServer ι κ π ρ) (t : ℕ) (p : κ) (c : π) (fd : ℕ) :
    LoopServer ι κ π ρ :=
  let s := (s.setProxy p { s.proxy p with tunnel := some t }).bindPublicFdToProxyConn t p c fd
  { s with owners := s.owners.claimed p }

/-- `Tunnel::handleStartProxyConnRsp`. -/
def handleStartProxyConnRsp (s : LoopServer ι κ π ρ) (t : ℕ) (p : κ) (c : π) (fd : ℕ) :
    LoopServer ι κ π ρ :=
  if s.owners.waitConn t (s.proxy p).proxyId = none then s
  else
    let s := s.bindPublicFdToProxyConn t p c fd
    { s with owners := s.owners.eraseWait t (s.proxy p).proxyId }

/-- `Tunnel::freeProxyConn`. -/
def freeProxyConn (s : LoopServer ι κ π ρ) (t : ℕ) (proxyId : ι) : LoopServer ι κ π ρ :=
  match s.owners.proxyConn t proxyId with
  | none => s
  | some q =>
      if (s.proxy q).half.start then s
      else { s with owners := (s.owners.eraseProxy t proxyId).pushFree t q }

/-- `Tunnel::shutdownPublicConn`. -/
def shutdownPublicConn (s : LoopServer ι κ π ρ) (t : ℕ) (p : κ) : LoopServer ι κ π ρ :=
  let x := s.proxy p
  if x.half.recvCount ≠ x.half.totalCount then s
  else
    let r := x.half.shutdownFromRemote
    let s := s.setProxy p { x with half := r.1 }
    if r.2 then s.freeProxyConn t x.proxyId else s

/-- `Tunnel::shutdownFromPublic`, without the message to the client. -/
def shutdownFromPublic (s : LoopServer ι κ π ρ) (t : ℕ) (proxyId : ι) : LoopServer ι κ π ρ :=
  match s.owners.proxyConn t proxyId with
  | none => s
  | some q => s.setProxy q { s.proxy q with half := (s.proxy q).half.shutdownFromLocal.1 }

/-- `Tunnel::handlePeerProxyConnClose`. -/
def handlePeerProxyConnClose (s : LoopServer ι κ π ρ) (t : ℕ) (p : κ) : LoopServer ι κ π ρ :=
  { s with owners := (s.owners.eraseProxy t (s.proxy p).proxyId).removeFree t p }

/-- `Tunnel::newPublicConnHandler` for one accepted descriptor.  When no connection is free the
descriptor waits in `unhandle_fds_`; a request to an empty pointer ends the process. -/
def newPublicConnHandler (s : LoopServer ι κ π ρ) (t : ℕ) : Option (LoopServer ι κ π ρ) :=
  match s.owners.lastFree t with
  | none => some s
  | some none => none
  | some (some q) =>
      some { s with owners := (s.owners.popFree t).addWait t (s.proxy q).proxyId q }

/-! ### The handlers of the channels -/

/-- `ProxyConnect::handleRead`. -/
def proxyHandleRead (s : LoopServer ι κ π ρ) (p : κ) :
    LoopAnswer ι π → Option (LoopServer ι κ π ρ)
  | .fail => some s
  | .eof => some (s.setProxy p { s.proxy p with inBufferEmpty := true })
  | .moved n =>
      let x := s.proxy p
      if x.half.start then
        let recv := x.half.recvCount + Counter.ofNat n
        let s := s.setProxy p { x with half := { x.half with recvCount := recv } }
        -- `closeLocalPeerConnHandler_`
        match x.tunnel with
        | some t => if recv = x.half.totalCount then some (s.shutdownPublicConn t p) else some s
        | none => some s
      else none
  | .proxyMetaSet tun proxyId c fd =>
      if (s.proxy p).half.start ∨ s.Alive (.pub c) then none
      else
        let s := s.setProxy p { s.proxy p with proxyId := proxyId }
        match tun with
        | none => some s
        | some t => if t < s.owners.tunnels.length then some (s.claimProxyConn t p c fd) else none
  | .proxyConnectReq => if (s.proxy p).half.start then none else some s
  | .proxyConnectRsp c fd =>
      if (s.proxy p).half.start ∨ s.Alive (.pub c) then none
      else
        match (s.proxy p).tunnel with
        | none => some s
        | some t => some (s.handleStartProxyConnRsp t p c fd)

/-- `ProxyConnect::everyHandle`. -/
def proxyEveryHandle (s : LoopServer ι κ π ρ) (p : κ) : LoopServer ι κ π ρ :=
  if (s.proxy p).inBufferEmpty ∧ (s.proxy p).closed then
    match (s.proxy p).tunnel with
    | some t => s.handlePeerProxyConnClose t p
    | none => s
  else s

/-- `PublicConnect::handleRead`. -/
def publicHandleRead (s : LoopServer ι κ π ρ) (c : π) :
    LoopAnswer ι π → Option (LoopServer ι κ π ρ)
  | .fail | .moved _ => some s
  | .eof =>
      if (s.pub c).closed then some s
      else
        let s := s.shutdownFromPublic (s.pub c).tunnel (s.pub c).proxyId
        some { s with pub := update s.pub c { s.pub c with closed := true } }
  | .proxyMetaSet _ _ _ _ | .proxyConnectReq | .proxyConnectRsp _ _ => none

/-- The handlers that `HandleEvents` calls.  A `PublicConnect` sets no write handler, and neither sets
an error handler. -/
def handlers (x : LoopConn κ π) (closed : Bool) (r : Revents) : List (LoopTodo κ π) :=
  (if r.input then [.handler x .read] else []) ++
    (match x with
    | .proxy _ => if r.output ∧ ¬ closed then [.handler x .write] else []
    | .pub _ => []) ++
    [.handler x .every]

/-- The begin of `Channel::HandleEvents`. -/
def handleEvents (s : LoopServer ι κ π ρ) (l : ρ) (x : LoopConn κ π) (r : Revents) :
    LoopServer ι κ π ρ :=
  match x with
  | .proxy p =>
      let closed := (s.proxy p).closed || r.hup || r.rdhup
      let s := s.setProxy p { s.proxy p with closed := closed }
      { s with batch := update s.batch l (handlers x closed r ++ s.batch l) }
  | .pub _ => { s with batch := update s.batch l (handlers x false r ++ s.batch l) }

/-- A handler of a channel. -/
def handler (s : LoopServer ι κ π ρ) (ans : LoopAnswer ι π) :
    LoopConn κ π → LoopHandler → Option (LoopServer ι κ π ρ)
  | .proxy p, .read => s.proxyHandleRead p ans
  -- `ProxyConnect::handleWrite` sends what is in the output buffer
  | .proxy _, .write => some s
  | .proxy p, .every => some (s.proxyEveryHandle p)
  | .pub c, .read => s.publicHandleRead c ans
  | .pub _, .write | .pub _, .every => some s

/-- A step.  `epoll_wait` reports each channel once, with an event, and `new` returns an object that
is not in use. -/
def step (s : LoopServer ι κ π ρ) : LoopAct ι κ π ρ → Option (LoopServer ι κ π ρ)
  | .wait l ready =>
      if s.batch l = [] ∧ (ready.map Prod.fst).Nodup ∧
          ∀ e ∈ ready, s.Alive e.1 ∧ s.loopOf e.1 = some l ∧ e.2 ≠ {} then
        some { s with batch := update s.batch l (ready.map fun e => .channel e.1 e.2) }
      else none
  | .invoke l ans =>
      match s.batch l with
      | [] => none
      | .channel x r :: rest =>
          some ({ s with batch := update s.batch l rest }.handleEvents l x r)
      | .handler x h :: rest => { s with batch := update s.batch l rest }.handler ans x h
  | .newProxyConn p l fd inBufferEmpty closed =>
      if p ∈ s.owners.refs then none
      else
        some { s with
          owners := s.owners.newProxy p
          proxy := update s.proxy p
            { half := { fd := fd }, proxyId := default, inBufferEmpty := inBufferEmpty,
              closed := closed, loop := some l } }
  | .newTunnel => some { s with owners := s.owners.newTunnel }
  | .newPublicConn t => s.newPublicConnHandler t
  | .handleShutdownPublicConn t proxyId tranCount =>
      match s.owners.proxyConn t proxyId with
      | none => some s
      | some q =>
          let x := s.proxy q
          let total := addTotalCount x.half.totalCount (Counter.ofNat tranCount)
          some ((s.setProxy q { x with half := { x.half with totalCount := total }
            }).shutdownPublicConn t q)
  | .handleFreeProxyConnReq t proxyId => some (s.freeProxyConn t proxyId)

/-- A server nobody has connected to. -/
def init : LoopServer ι κ π ρ where
  owners := {}
  proxy _ :=
    { half := { fd := 0 }, proxyId := default, inBufferEmpty := false, closed := false,
      loop := none }
  pub _ := { tunnel := 0, proxyId := default, loop := none }
  batch _ := []

/-! ### Which references a step drops -/

/-- The references to `q` that the read handler of `p` drops. -/
def readLost (s : LoopServer ι κ π ρ) (p : κ) (q : κ) : LoopAnswer ι π → ℕ
  | .proxyMetaSet (some _) _ _ _ => if q = p ∧ p ∈ s.owners.unclaimed then 1 else 0
  | .proxyConnectRsp _ _ =>
      match (s.proxy p).tunnel with
      | some t => if s.owners.waitConn t (s.proxy p).proxyId = some q then 1 else 0
      | none => 0
  | _ => 0

/-- The references to `q` that the read handler of `p` makes. -/
def readGained (s : LoopServer ι κ π ρ) (p : κ) (q : κ) : LoopAnswer ι π → ℕ
  | .proxyMetaSet (some t) proxyId _ _ =>
      if s.owners.proxyRoom t proxyId = true ∧ q = p then 1 else 0
  | .proxyConnectRsp _ _ =>
      match (s.proxy p).tunnel with
      | some t =>
          if s.owners.waitConn t (s.proxy p).proxyId ≠ none ∧
            s.owners.proxyRoom t (s.proxy p).proxyId = true ∧ q = p then 1 else 0
      | none => 0
  | _ => 0

/-- The `PublicConnect` that the read handler of `p` puts into `conn_`. -/
def readConn (s : LoopServer ι κ π ρ) (p : κ) : LoopAnswer ι π → Option π
  | .proxyMetaSet (some _) _ c _ => some c
  | .proxyConnectRsp c _ =>
      match (s.proxy p).tunnel with
      | some t => if s.owners.waitConn t (s.proxy p).proxyId = none then none else some c
      | none => none
  | _ => none

/-- The references to `q` that `everyHandle` of `p` drops: a connection that closes leaves the places
of the vector that others are moved onto, and whatever has its proxy id leaves the map. -/
def closeLost (s : LoopServer ι κ π ρ) (p : κ) (q : κ) : ℕ :=
  if (s.proxy p).inBufferEmpty ∧ (s.proxy p).closed then
    match (s.proxy p).tunnel with
    | some t =>
        (if s.owners.proxyConn t (s.proxy p).proxyId = some q then 1 else 0) +
          if q = p then s.owners.removed t p else 0
    | none => 0
  else 0

/-- The references to `q` that a step drops. -/
def lost (s : LoopServer ι κ π ρ) (q : κ) : LoopAct ι κ π ρ → ℕ
  | .invoke l ans =>
      match (s.batch l).head? with
      | some (.handler (.proxy p) .read) => s.readLost p q ans
      | some (.handler (.proxy p) .every) => s.closeLost p q
      | _ => 0
  | .newPublicConn t => if s.owners.lastFree t = some (some q) then 1 else 0
  | _ => 0

/-- The references to `q` that a step makes. -/
def gained (s : LoopServer ι κ π ρ) (q : κ) : LoopAct ι κ π ρ → ℕ
  | .invoke l ans =>
      match (s.batch l).head? with
      | some (.handler (.proxy p) .read) => s.readGained p q ans
      | _ => 0
  | .newPublicConn t =>
      if s.owners.lastFree t = some (some q) ∧ s.owners.waitRoom t (s.proxy q).proxyId = true
        then 1 else 0
  | .newProxyConn p _ _ _ _ => if q = p then 1 else 0
  | _ => 0

/-- The connection that gets a new `conn_`. -/
def rebound (s : LoopServer ι κ π ρ) : LoopAct ι κ π ρ → Option (κ × π)
  | .invoke l ans =>
      match (s.batch l).head? with
      | some (.handler (.proxy p) .read) => (s.readConn p ans).map fun c => (p, c)
      | _ => none
  | _ => none

/-- **A step takes the last owner of a connection away.**  A `ProxyConnect` loses all its references
and gets none; the proxy connection that a `PublicConnect` is the `conn_` of gets another one, or loses
all its references. -/
def Released (s : LoopServer ι κ π ρ) (a : LoopAct ι κ π ρ) : LoopConn κ π → Prop
  | .proxy q => s.owners.useCount q + s.gained q a ≤ s.lost q a
  | .pub c => ∀ q ∈ s.owners.refs, (s.proxy q).conn = some c →
      (s.rebound a).map Prod.fst = some q ∨ s.owners.useCount q + s.gained q a ≤ s.lost q a

instance (s : LoopServer ι κ π ρ) (a : LoopAct ι κ π ρ) : DecidablePred (s.Released a)
  | .proxy q => inferInstanceAs (Decidable (s.owners.useCount q + s.gained q a ≤ s.lost q a))
  | .pub c => inferInstanceAs (Decidable (∀ q ∈ s.owners.refs, (s.proxy q).conn = some c →
      (s.rebound a).map Prod.fst = some q ∨ s.owners.useCount q + s.gained q a ≤ s.lost q a))

/-! ### What the functions of the tunnel do to the references -/

section Functions

variable {s s' : LoopServer ι κ π ρ} {a : LoopAct ι κ π ρ}

omit [Inhabited ι] [DecidableEq π] [DecidableEq ρ] in
theorem useCount_freeProxyConn (s : LoopServer ι κ π ρ) (t : ℕ) (i : ι) (q : κ) :
    (s.freeProxyConn t i).owners.useCount q = s.owners.useCount q := by
  unfold freeProxyConn
  cases hq : s.owners.proxyConn t i with
  | none => rfl
  | some p =>
      simp only []
      split
      · rfl
      · exact s.owners.useCount_eraseProxy_pushFree t i p q hq

omit [Inhabited ι] [DecidableEq π] [DecidableEq ρ] in
theorem useCount_shutdownPublicConn (s : LoopServer ι κ π ρ) (t : ℕ) (p q : κ) :
    (s.shutdownPublicConn t p).owners.useCount q = s.owners.useCount q := by
  unfold shutdownPublicConn
  simp only []
  split
  · rfl
  · split
    · exact useCount_freeProxyConn _ t _ q
    · rfl

omit [Inhabited ι] [DecidableEq ρ] in
/-- **What the read handler of a proxy connection drops and makes.** -/
theorem useCount_proxyHandleRead {p : κ} {ans : LoopAnswer ι π}
    (h : s.proxyHandleRead p ans = some s') (q : κ) :
    s'.owners.useCount q + s.readLost p q ans = s.owners.useCount q + s.readGained p q ans := by
  cases ans with
  | fail =>
      obtain rfl := Option.some.inj h
      rfl
  | eof =>
      obtain rfl := Option.some.inj h
      rfl
  | moved n =>
      simp only [proxyHandleRead] at h
      split at h
      · split at h
        · split at h
          · obtain rfl := Option.some.inj h
            exact useCount_shutdownPublicConn _ _ p q
          · obtain rfl := Option.some.inj h
            rfl
        · obtain rfl := Option.some.inj h
          rfl
      · exact absurd h (by simp)
  | proxyMetaSet tun i c fd =>
      simp only [proxyHandleRead] at h
      split at h
      · exact absurd h (by simp)
      · cases tun with
        | none =>
            obtain rfl := Option.some.inj h
            rfl
        | some t =>
            simp only [] at h
            split at h
            · obtain rfl := Option.some.inj h
              have hcount := s.owners.useCount_addProxy_claimed t i p q
              simpa [claimProxyConn, bindPublicFdToProxyConn, setProxy, readLost, readGained]
                using hcount
            · exact absurd h (by simp)
  | proxyConnectReq =>
      simp only [proxyHandleRead] at h
      split at h
      · exact absurd h (by simp)
      · obtain rfl := Option.some.inj h
        rfl
  | proxyConnectRsp c fd =>
      simp only [proxyHandleRead] at h
      split at h
      · exact absurd h (by simp)
      · cases ht : (s.proxy p).tunnel with
        | none =>
            rw [ht] at h
            obtain rfl := Option.some.inj h
            simp only [readLost, readGained, ht]
        | some t =>
            rw [ht] at h
            obtain rfl := Option.some.inj h
            simp only [readLost, readGained, ht, handleStartProxyConnRsp]
            by_cases hw : s.owners.waitConn t (s.proxy p).proxyId = none
            · simp [hw]
            · have hcount := s.owners.useCount_addProxy_eraseWait t (s.proxy p).proxyId p q
              simpa [hw, bindPublicFdToProxyConn] using hcount

omit [Inhabited ι] [DecidableEq ρ] [DecidableEq π] in
/-- **What `everyHandle` of a proxy connection drops.** -/
theorem useCount_proxyEveryHandle (s : LoopServer ι κ π ρ) (p q : κ) :
    (s.proxyEveryHandle p).owners.useCount q + s.closeLost p q = s.owners.useCount q := by
  unfold proxyEveryHandle closeLost
  split
  · cases ht : (s.proxy p).tunnel with
    | none => rfl
    | some t => exact s.owners.useCount_eraseProxy_removeFree t (s.proxy p).proxyId p q
  · rfl

/-! ### What they leave as it is -/

omit [Inhabited ι] [DecidableEq κ] [DecidableEq π] [DecidableEq ρ] in
theorem freeProxyConn_proxy (s : LoopServer ι κ π ρ) (t : ℕ) (i : ι) :
    (s.freeProxyConn t i).proxy = s.proxy ∧ (s.freeProxyConn t i).batch = s.batch := by
  unfold freeProxyConn
  split
  · exact ⟨rfl, rfl⟩
  · split
    · exact ⟨rfl, rfl⟩
    · exact ⟨rfl, rfl⟩

omit [Inhabited ι] [DecidableEq ι] [DecidableEq π] [DecidableEq ρ] in
/-- A change of one connection that keeps its `conn_`. -/
theorem conn_setProxy {p : κ} {x : LoopProxy ι π ρ} (h : x.conn = (s.proxy p).conn) (q : κ) :
    ((s.setProxy p x).proxy q).conn = (s.proxy q).conn := by
  simp only [setProxy]
  by_cases hq : q = p
  · subst hq
    rw [Function.update_self, h]
  · rw [Function.update_of_ne hq]

omit [Inhabited ι] [DecidableEq π] [DecidableEq ρ] in
theorem shutdownPublicConn_frame (s : LoopServer ι κ π ρ) (t : ℕ) (p : κ) :
    (∀ q, ((s.shutdownPublicConn t p).proxy q).conn = (s.proxy q).conn) ∧
      (s.shutdownPublicConn t p).batch = s.batch := by
  unfold shutdownPublicConn
  simp only []
  split
  · exact ⟨fun _ => rfl, rfl⟩
  · split
    · obtain ⟨h₁, h₂⟩ := freeProxyConn_proxy (s.setProxy p { s.proxy p with
        half := (s.proxy p).half.shutdownFromRemote.1 }) t (s.proxy p).proxyId
      exact ⟨fun q => by rw [h₁]; exact conn_setProxy (by rfl) q, h₂⟩
    · exact ⟨fun q => conn_setProxy (by rfl) q, rfl⟩

omit [Inhabited ι] [DecidableEq π] [DecidableEq ρ] in
theorem shutdownFromPublic_frame (s : LoopServer ι κ π ρ) (t : ℕ) (i : ι) :
    (∀ q, ((s.shutdownFromPublic t i).proxy q).conn = (s.proxy q).conn) ∧
      (s.shutdownFromPublic t i).batch = s.batch ∧
      (s.shutdownFromPublic t i).owners = s.owners := by
  unfold shutdownFromPublic
  split
  · exact ⟨fun _ => rfl, rfl, rfl⟩
  · exact ⟨fun q => conn_setProxy (by rfl) q, rfl, rfl⟩

omit [Inhabited ι] [DecidableEq ρ] in
/-- **What the read handler of a proxy connection does to `conn_`**: it puts in a `PublicConnect` that
is new. -/
theorem conn_proxyHandleRead {p : κ} {ans : LoopAnswer ι π}
    (h : s.proxyHandleRead p ans = some s') :
    s'.batch = s.batch ∧
    (∀ q, q ≠ p ∨ s.readConn p ans = none → (s'.proxy q).conn = (s.proxy q).conn) ∧
    ∀ c, s.readConn p ans = some c → (s'.proxy p).conn = some c ∧ ¬ s.Alive (.pub c) := by
  cases ans with
  | fail =>
      obtain rfl := Option.some.inj h
      exact ⟨rfl, fun _ _ => rfl, fun _ hc => by cases hc⟩
  | eof =>
      obtain rfl := Option.some.inj h
      exact ⟨rfl, fun q _ => conn_setProxy (by rfl) q, fun _ hc => by cases hc⟩
  | moved n =>
      simp only [proxyHandleRead] at h
      split at h
      · split at h
        · split at h
          · obtain rfl := Option.some.inj h
            obtain ⟨h₁, h₂⟩ := shutdownPublicConn_frame (s.setProxy p { s.proxy p with
              half := { (s.proxy p).half with
                recvCount := (s.proxy p).half.recvCount + Counter.ofNat n } }) _ p
            exact ⟨h₂, fun q _ => (h₁ q).trans (conn_setProxy (by rfl) q), fun _ hc => by cases hc⟩
          · obtain rfl := Option.some.inj h
            exact ⟨rfl, fun q _ => conn_setProxy (by rfl) q, fun _ hc => by cases hc⟩
        · obtain rfl := Option.some.inj h
          exact ⟨rfl, fun q _ => conn_setProxy (by rfl) q, fun _ hc => by cases hc⟩
      · exact absurd h (by simp)
  | proxyMetaSet tun i c fd =>
      simp only [proxyHandleRead] at h
      split at h
      · exact absurd h (by simp)
      · rename_i hnew
        cases tun with
        | none =>
            obtain rfl := Option.some.inj h
            exact ⟨rfl, fun q _ => conn_setProxy (by rfl) q, fun _ hc => by cases hc⟩
        | some t =>
            simp only [] at h
            split at h
            · obtain rfl := Option.some.inj h
              refine ⟨rfl, ?_, ?_⟩
              · rintro q (hq | hq)
                · simp [claimProxyConn, bindPublicFdToProxyConn, setProxy,
                    Function.update_of_ne hq]
                · cases hq
              · intro c' hc'
                obtain rfl : c = c' := Option.some.inj hc'
                exact ⟨by simp [claimProxyConn, bindPublicFdToProxyConn],
                  fun hc => hnew (.inr hc)⟩
            · exact absurd h (by simp)
  | proxyConnectReq =>
      simp only [proxyHandleRead] at h
      split at h
      · exact absurd h (by simp)
      · obtain rfl := Option.some.inj h
        exact ⟨rfl, fun _ _ => rfl, fun _ hc => by cases hc⟩
  | proxyConnectRsp c fd =>
      simp only [proxyHandleRead] at h
      split at h
      · exact absurd h (by simp)
      · rename_i hnew
        cases ht : (s.proxy p).tunnel with
        | none =>
            rw [ht] at h
            obtain rfl := Option.some.inj h
            exact ⟨rfl, fun _ _ => rfl, fun _ hc => by simp [readConn, ht] at hc⟩
        | some t =>
            rw [ht] at h
            obtain rfl := Option.some.inj h
            simp only [handleStartProxyConnRsp, readConn, ht]
            by_cases hw : s.owners.waitConn t (s.proxy p).proxyId = none
            · simp [hw]
            · refine ⟨by simp [hw, bindPublicFdToProxyConn], ?_, ?_⟩
              · rintro q (hq | hq)
                · simp [hw, bindPublicFdToProxyConn, Function.update_of_ne hq]
                · simp [hw] at hq
              · intro c' hc'
                obtain rfl : c = c' := by simpa [hw] using hc'
                exact ⟨by simp [hw, bindPublicFdToProxyConn], fun hc => hnew (.inr hc)⟩

omit [Inhabited ι] [DecidableEq π] [DecidableEq ρ] in
theorem proxyEveryHandle_frame (s : LoopServer ι κ π ρ) (p : κ) :
    (s.proxyEveryHandle p).proxy = s.proxy ∧ (s.proxyEveryHandle p).batch = s.batch := by
  unfold proxyEveryHandle
  split
  · split
    · exact ⟨rfl, rfl⟩
    · exact ⟨rfl, rfl⟩
  · exact ⟨rfl, rfl⟩

omit [Inhabited ι] [DecidableEq ρ] in
theorem publicHandleRead_frame {c : π} {ans : LoopAnswer ι π}
    (h : s.publicHandleRead c ans = some s') :
    (∀ q, (s'.proxy q).conn = (s.proxy q).conn) ∧ s'.batch = s.batch ∧ s'.owners = s.owners := by
  cases ans with
  | fail =>
      obtain rfl := Option.some.inj h
      exact ⟨fun _ => rfl, rfl, rfl⟩
  | moved n =>
      obtain rfl := Option.some.inj h
      exact ⟨fun _ => rfl, rfl, rfl⟩
  | eof =>
      simp only [publicHandleRead] at h
      split at h
      · obtain rfl := Option.some.inj h
        exact ⟨fun _ => rfl, rfl, rfl⟩
      · obtain rfl := Option.some.inj h
        exact shutdownFromPublic_frame s _ _
  | proxyMetaSet tun i c fd => exact absurd h (by simp [publicHandleRead])
  | proxyConnectReq => exact absurd h (by simp [publicHandleRead])
  | proxyConnectRsp c fd => exact absurd h (by simp [publicHandleRead])

end Functions

end LoopServer

end ProxySocket

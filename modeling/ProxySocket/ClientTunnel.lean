/-
**The tunnels of a client, and the connections that they open.**

For a public client that waits, `handleProxyNotify` opens a proxy connection and a connection to the local
server, enters the proxy connection into the map of the tunnel, announces it to the server and starts it.
For a proxy connection that is used again, `HandleProxyConnectReq` opens the local connection, answers and
starts it.  The calls may fail: `createProxyConn` and `createLocalConn` then return an empty pointer, and
`SendMsgDirct` returns `-1`.

The handlers run in `EStateM`: a fault ends a handler and keeps the state it had reached.

Main definitions:

* `ClientTunnel`, `TunnelClient` — a tunnel, and the client with its connections;
* `handleProxyNotify`, `handleProxyConnectReq` — the two handlers;
* `HandlesWell` — a handler completes, and leaves nothing behind when a step fails.

Main results:

* `run_handleProxyNotify`, `run_handleProxyConnectReq` — **what the handlers do**, for all answers of the
  calls they make;
* `handles_well_iff` — **when a message is handled well**.
-/

import ProxySocket.Buffer
import ProxySocket.CString
import ProxySocket.Frame
import ProxySocket.UseCount

set_option relaxedAutoImplicit false
set_option autoImplicit false

namespace ProxySocket

open Function (update)

/-! ### The client -/

/-- The messages that are sent with `SendMsgDirct`. -/
inductive DirectMsg
  | proxyMetaSet (ctlId tunId proxyId : Str)
  | proxyConnectRsp (fd : UInt32) (proxyId : Str)
deriving DecidableEq, Repr

def DirectMsg.type : DirectMsg → ProxyMsgType
  | proxyMetaSet _ _ _ => .proxyMetaSet
  | proxyConnectRsp _ _ => .proxyConnectRsp

/-- The field `len` that `makeProxyMsg` sets. -/
def DirectMsg.len (m : DirectMsg) : ℕ := 4 + 4 + m.type.structSize

/-- A `ClientConnect`. -/
structure LocalConn where
  fd : ℤ
  thread : ℕ
  proxyId : Str
  /-- `conn2fd_`, once it is set -/
  conn2fd : Option ℤ := none
deriving DecidableEq, Repr

/-- A `ProxyConnect` of the client. -/
structure ProxyConn (τ : Type) where
  fd : ℤ
  thread : ℕ
  /-- the tunnel that `startProxyConnReqHandler_` is bound to -/
  tunnel : τ
  proxyId : Str := []
  start : Bool := false
  conn : Option LocalConn := none
  /-- `conn2fd_`, once it is set -/
  conn2fd : Option ℤ := none
  /-- the messages that `SendMsgDirct` wrote, with the answers of `write(2)` -/
  written : List (DirectMsg × ℤ) := []
deriving DecidableEq, Repr

/-- A `Tunnel` of the client. -/
structure ClientTunnel (π : Type) where
  tunnelId : Str
  serverHost : Str
  serverPort : UInt32
  proxyServerHost : Str
  proxyServerPort : UInt32
  proxyConnectMap : ConnMap Str π := ∅

/-- The `Client`.  A shared pointer that is not empty refers to an object: `τ` and `π` are the pointers
to tunnels and proxy connections. -/
structure TunnelClient (τ π : Type) where
  proxyServerHost : Str
  clientId : Str
  tunnelMap : ConnMap Str τ
  tunnel : τ → ClientTunnel π
  conn : π → ProxyConn τ
  /-- the channels that were added to the poller of a thread -/
  polled : List (ℕ × ℤ) := []

/-- Why a handler does not complete. -/
inductive Fault
  /-- an empty shared pointer is used -/
  | emptyPointer
  /-- `getValidProxyID` still draws ids -/
  | drawing
deriving DecidableEq, Repr

abbrev Handler (τ π : Type) := EStateM Fault (TunnelClient τ π)

/-- What the calls of a handler answer. -/
structure ClientAnswers (π : Type) where
  /-- `tcp_connect` in `createProxyConn` -/
  connectProxy : Str → UInt32 → ℤ
  /-- `tcp_connect` in `createLocalConn` -/
  connectLocal : Str → UInt32 → ℤ
  /-- `PickRandThread` -/
  thread : ℕ
  /-- the new object of `createProxyConn` -/
  new : π
  /-- the answers of `random_str`, one after the other -/
  random : List Str
  /-- `write(2)` in `SendMsgDirct` -/
  written : ℤ

/-- `NotifyClientNeedProxyMsg`. -/
structure NotifyMsg where
  tunnelId : Str
  proxyServerPort : UInt32

/-- `ProxyConnectReqMsg`, with `fd` as `ntohl` gives it. -/
structure ConnectReqMsg where
  fd : UInt32
  proxyId : Str

variable {τ π : Type} [DecidableEq τ] [DecidableEq π]

namespace TunnelClient

/-- A change of one proxy connection. -/
def modifyConn (p : π) (f : ProxyConn τ → ProxyConn τ) (c : TunnelClient τ π) : TunnelClient τ π :=
  { c with conn := update c.conn p (f (c.conn p)) }

/-- A change of one tunnel. -/
def modifyTunnel (t : τ) (f : ClientTunnel π → ClientTunnel π) (c : TunnelClient τ π) :
    TunnelClient τ π :=
  { c with tunnel := update c.tunnel t (f (c.tunnel t)) }

/-- `proxy_connect_map.add`, under the id of the connection. -/
def addProxyConn (t : τ) (p : π) (c : TunnelClient τ π) : TunnelClient τ π :=
  c.modifyTunnel t fun x => { x with proxyConnectMap := x.proxyConnectMap.add (c.conn p).proxyId p }

/-- `AddConnect` of a thread. -/
def addConnect (thread : ℕ) (fd : ℤ) (c : TunnelClient τ π) : TunnelClient τ π :=
  { c with polled := c.polled ++ [(thread, fd)] }

end TunnelClient

/-! ### The handlers -/

/-- A member of the object is used. -/
def deref {α : Type} : Option α → Handler τ π α
  | some p => pure p
  | none => throw .emptyPointer

/-- `Tunnel::getValidProxyID`: the first id that is not in the map. -/
def getValidProxyID (t : τ) (a : ClientAnswers π) : Handler τ π Str := do
  let c ← get
  match a.random.find? fun id => AList.lookup id (c.tunnel t).proxyConnectMap = none with
  | some id => pure id
  | none => throw .drawing

/-- `Tunnel::createProxyConn`. -/
def createProxyConn (t : τ) (proxyPort : UInt32) (a : ClientAnswers π) :
    Handler τ π (Option π) := do
  let c ← get
  let fd := a.connectProxy c.proxyServerHost proxyPort
  if fd ≤ 0 then pure none
  else
    modify fun c => { c with conn := update c.conn a.new { fd, thread := a.thread, tunnel := t } }
    modify (TunnelClient.addConnect a.thread fd)
    let id ← getValidProxyID t a
    modify (TunnelClient.modifyConn a.new fun p => { p with proxyId := id })
    pure (some a.new)

/-- `Tunnel::createLocalConn`. -/
def createLocalConn (t : τ) (proxyConnect : Option π) (a : ClientAnswers π) :
    Handler τ π (Option LocalConn) := do
  let c ← get
  let fd := a.connectLocal (c.tunnel t).serverHost (c.tunnel t).serverPort
  if fd ≤ 0 then pure none
  else
    let p ← deref proxyConnect
    pure (some { fd, thread := (c.conn p).thread, proxyId := (c.conn p).proxyId })

/-- `ProxyConnect::SendMsgDirct`. -/
def sendMsgDirct (p : π) (m : DirectMsg) (a : ClientAnswers π) : Handler τ π ℤ := do
  modify (TunnelClient.modifyConn p fun c => { c with written := c.written ++ [(m, a.written)] })
  if sizeT a.written ≠ m.len then pure (-1) else pure 0

/-- `ProxyConnect::Run`. -/
def runConn (p : π) (connect : Option LocalConn) : Handler τ π Unit := do
  modify (TunnelClient.modifyConn p fun c => { c with start := true, conn := connect })
  let l ← deref connect
  modify (TunnelClient.modifyConn p fun c =>
    { c with conn2fd := some l.fd, conn := some { l with conn2fd := some c.fd } })
  modify (TunnelClient.addConnect l.thread l.fd)

/-- `Client::handleProxyNotify`. -/
def handleProxyNotify (m : NotifyMsg) (a : ClientAnswers π) : Handler τ π Unit := do
  match AList.lookup m.tunnelId (← get).tunnelMap with
  | none => pure ()
  | some tunnel =>
      let proxyconnect ← createProxyConn tunnel m.proxyServerPort a
      let p ← deref proxyconnect
      modify (TunnelClient.addProxyConn tunnel p)
      let clientconnect ← createLocalConn tunnel proxyconnect a
      let c ← get
      if (← sendMsgDirct p (.proxyMetaSet c.clientId m.tunnelId (c.conn p).proxyId) a) = -1 then
        pure ()
      else
        runConn p clientconnect

/-- `Tunnel::HandleProxyConnectReq`.  The connection that is tested is the one the message came over. -/
def handleProxyConnectReq (t : τ) (m : ConnectReqMsg) (proxyConnect : Option π)
    (a : ClientAnswers π) : Handler τ π Unit := do
  let c ← get
  let proxyconnect := AList.lookup m.proxyId (c.tunnel t).proxyConnectMap
  match proxyConnect with
  | none => pure ()
  | some via =>
      if (c.conn via).start then pure ()
      else
        let clientConnect ← createLocalConn t proxyconnect a
        let p ← deref proxyconnect
        if (← sendMsgDirct p (.proxyConnectRsp m.fd m.proxyId) a) = -1 then
          pure ()
        else
          runConn p clientConnect

/-! ### What the parts do -/

section Parts

variable {c : TunnelClient τ π} {t : τ} {a : ClientAnswers π} {port : UInt32}

namespace TunnelClient

/-- The client with the new connection. -/
def dialed (c : TunnelClient τ π) (t : τ) (fd : ℤ) (a : ClientAnswers π) (id : Str) :
    TunnelClient τ π :=
  ({ c with conn := update c.conn a.new { fd, thread := a.thread, tunnel := t, proxyId := id } }
    ).addConnect a.thread fd

/-- The local connection, when `tcp_connect` gives a descriptor. -/
def localConn (c : TunnelClient τ π) (t : τ) (p : π) (a : ClientAnswers π) : Option LocalConn :=
  let fd := a.connectLocal (c.tunnel t).serverHost (c.tunnel t).serverPort
  if fd ≤ 0 then none
  else some { fd, thread := (c.conn p).thread, proxyId := (c.conn p).proxyId }

/-- The client once a message was written. -/
def sent (c : TunnelClient τ π) (p : π) (m : DirectMsg) (a : ClientAnswers π) : TunnelClient τ π :=
  c.modifyConn p fun x => { x with written := x.written ++ [(m, a.written)] }

end TunnelClient

omit [DecidableEq π] in
@[simp] theorem TunnelClient.modifyTunnel_tunnel (f : ClientTunnel π → ClientTunnel π) :
    (c.modifyTunnel t f).tunnel t = f (c.tunnel t) := Function.update_self _ _ _

omit [DecidableEq τ] in
@[simp] theorem TunnelClient.dialed_conn (fd : ℤ) (id : Str) :
    (c.dialed t fd a id).conn a.new = { fd, thread := a.thread, tunnel := t, proxyId := id } :=
  Function.update_self _ _ _

omit [DecidableEq τ] [DecidableEq π] in
@[simp] theorem TunnelClient.addConnect_tunnel (thread : ℕ) (fd : ℤ) :
    (c.addConnect thread fd).tunnel = c.tunnel := rfl

/-- The first id of `random_str` that is not in the map. -/
def freshId (m : ConnMap Str π) (a : ClientAnswers π) : Option Str :=
  a.random.find? fun id => AList.lookup id m = none

omit [DecidableEq τ] [DecidableEq π] in
theorem run_deref {α : Type} (p : α) :
    EStateM.run (deref (some p) : Handler τ π α) c = .ok p c := rfl

omit [DecidableEq τ] [DecidableEq π] in
theorem run_getValidProxyID (t : τ) (a : ClientAnswers π) :
    (getValidProxyID t a).run c =
      match freshId (c.tunnel t).proxyConnectMap a with
      | some id => .ok id c
      | none => .error .drawing c := by
  unfold getValidProxyID freshId
  rw [EStateM.run_bind, EStateM.run_get]
  dsimp only
  split <;> rfl

omit [DecidableEq τ] in
theorem run_createProxyConn_failed (h : a.connectProxy c.proxyServerHost port ≤ 0) :
    (createProxyConn t port a).run c = .ok none c := by
  simp only [createProxyConn, EStateM.run_bind, EStateM.run_get, if_pos h, EStateM.run_pure]

omit [DecidableEq τ] in
/-- `createProxyConn` returns a connection with an id that is not in the map. -/
theorem run_createProxyConn (h : ¬ a.connectProxy c.proxyServerHost port ≤ 0) :
    match freshId (c.tunnel t).proxyConnectMap a with
    | some id => (createProxyConn t port a).run c =
        .ok (some a.new) (c.dialed t (a.connectProxy c.proxyServerHost port) a id)
    | none => ∃ c', (createProxyConn t port a).run c = .error .drawing c' := by
  simp only [createProxyConn, EStateM.run_bind, EStateM.run_get, if_neg h, EStateM.run_modify,
    run_getValidProxyID, TunnelClient.addConnect_tunnel]
  cases freshId (c.tunnel t).proxyConnectMap a with
  | some id =>
      simp only [EStateM.run_pure, TunnelClient.dialed, TunnelClient.modifyConn,
        TunnelClient.addConnect, Function.update_self, Function.update_idem]
  | none => exact ⟨_, rfl⟩

omit [DecidableEq τ] [DecidableEq π] in
theorem run_createLocalConn (p : π) :
    (createLocalConn t (some p) a).run c = .ok (c.localConn t p a) c := by
  simp only [createLocalConn, EStateM.run_bind, EStateM.run_get, TunnelClient.localConn]
  split <;> rfl

omit [DecidableEq τ] [DecidableEq π] in
/-- Without a proxy connection, `createLocalConn` uses an empty pointer or returns one. -/
theorem run_createLocalConn_none :
    (createLocalConn t none a).run c = .ok none c ∨
      (createLocalConn t none a).run c = .error .emptyPointer c := by
  simp only [createLocalConn, EStateM.run_bind, EStateM.run_get]
  split
  · exact .inl rfl
  · exact .inr rfl

omit [DecidableEq τ] in
theorem run_sendMsgDirct (p : π) (m : DirectMsg) :
    (sendMsgDirct p m a).run c =
      .ok (if sizeT a.written ≠ m.len then -1 else 0) (c.sent p m a) := by
  simp only [sendMsgDirct, EStateM.run_bind, EStateM.run_modify]
  split <;> rfl

/-- The connection once it was started. -/
def TunnelClient.ran (c : TunnelClient τ π) (p : π) (l : LocalConn) : TunnelClient τ π :=
  (c.modifyConn p fun x =>
    { x with start := true, conn2fd := some l.fd, conn := some { l with conn2fd := some x.fd } }
    ).addConnect l.thread l.fd

omit [DecidableEq τ] in
theorem run_runConn (p : π) (l : LocalConn) :
    (runConn p (some l)).run c = .ok () (c.ran p l) := by
  simp only [runConn, EStateM.run_bind, EStateM.run_modify, run_deref, TunnelClient.ran,
    TunnelClient.modifyConn, TunnelClient.addConnect, Function.update_self, Function.update_idem]

omit [DecidableEq τ] in
/-- **`Run` sets `start_` before it uses the connection that it is given.** -/
theorem run_runConn_none (p : π) :
    (runConn p none).run c =
      .error .emptyPointer (c.modifyConn p fun x => { x with start := true, conn := none }) := rfl

/-- The client once the new connection was entered into the map of the tunnel. -/
def TunnelClient.entered (c : TunnelClient τ π) (t : τ) (port : UInt32) (a : ClientAnswers π)
    (id : Str) : TunnelClient τ π :=
  (c.dialed t (a.connectProxy c.proxyServerHost port) a id).addProxyConn t a.new

end Parts

/-! ### What the handlers do -/

/-- `tcp_connect` in `createProxyConn` gives a descriptor. -/
def ClientAnswers.proxyOk (a : ClientAnswers π) (c : TunnelClient τ π) (port : UInt32) : Prop :=
  0 < a.connectProxy c.proxyServerHost port

/-- `tcp_connect` in `createLocalConn` gives a descriptor. -/
def ClientAnswers.localOk (a : ClientAnswers π) (c : TunnelClient τ π) (t : τ) : Prop :=
  0 < a.connectLocal (c.tunnel t).serverHost (c.tunnel t).serverPort

/-- `write(2)` takes the whole message. -/
def ClientAnswers.writeOk (a : ClientAnswers π) (type : ProxyMsgType) : Prop :=
  sizeT a.written = 4 + 4 + type.structSize

section Handlers

variable {c : TunnelClient τ π} {t : τ} {a : ClientAnswers π}

instance ClientAnswers.decidableProxyOk (port : UInt32) : Decidable (a.proxyOk c port) :=
  inferInstanceAs (Decidable (_ < _))

instance ClientAnswers.decidableLocalOk : Decidable (a.localOk c t) :=
  inferInstanceAs (Decidable (_ < _))

instance ClientAnswers.decidableWriteOk (type : ProxyMsgType) : Decidable (a.writeOk type) :=
  inferInstanceAs (Decidable (_ = _))

omit [DecidableEq τ] [DecidableEq π] in
theorem isSome_localConn (p : π) : (c.localConn t p a).isSome ↔ a.localOk c t := by
  simp only [TunnelClient.localConn, ClientAnswers.localOk]
  split
  · rename_i h
    exact iff_of_false (by simp) (Int.not_lt.2 h)
  · rename_i h
    exact iff_of_true rfl (Int.not_le.1 h)

omit [DecidableEq τ] in
/-- The end of both handlers: the message is sent, and the connection is started. -/
theorem run_sendThenRun (p : π) (m : DirectMsg) (l : Option LocalConn) :
    EStateM.run (do if (← sendMsgDirct p m a) = -1 then pure () else runConn p l) c =
      if a.writeOk m.type then (runConn p l).run (c.sent p m a) else .ok () (c.sent p m a) := by
  simp only [EStateM.run_bind, run_sendMsgDirct]
  by_cases hw : sizeT a.written = m.len
  · rw [if_neg (not_not.2 hw), if_neg (by decide)]
    exact (if_pos hw).symm
  · rw [if_pos hw, if_pos rfl, EStateM.run_pure]
    exact (if_neg hw).symm

/-- **What `handleProxyNotify` does for a tunnel it knows**, once it has a proxy connection. -/
theorem run_handleProxyNotify {m : NotifyMsg} {id : Str}
    (ht : AList.lookup m.tunnelId c.tunnelMap = some t) (hp : a.proxyOk c m.proxyServerPort)
    (hid : freshId (c.tunnel t).proxyConnectMap a = some id) :
    (handleProxyNotify m a).run c =
      let c' := c.entered t m.proxyServerPort a id
      let msg := .proxyMetaSet c'.clientId m.tunnelId (c'.conn a.new).proxyId
      if a.writeOk .proxyMetaSet then
        (runConn a.new (c'.localConn t a.new a)).run (c'.sent a.new msg a)
      else .ok () (c'.sent a.new msg a) := by
  have hproxy := run_createProxyConn (t := t) (Int.not_le.2 hp)
  rw [hid] at hproxy
  simp only [handleProxyNotify, EStateM.run_bind, EStateM.run_get, ht, hproxy, run_deref,
    EStateM.run_modify, run_createLocalConn]
  exact run_sendThenRun a.new _ _

omit [DecidableEq τ] in
/-- **What `HandleProxyConnectReq` does for a proxy id it knows**, on a connection that is not started. -/
theorem run_handleProxyConnectReq {m : ConnectReqMsg} {via p : π}
    (hs : (c.conn via).start = false)
    (hp : AList.lookup m.proxyId (c.tunnel t).proxyConnectMap = some p) :
    (handleProxyConnectReq t m (some via) a).run c =
      let msg := .proxyConnectRsp m.fd m.proxyId
      if a.writeOk .proxyConnectRsp then
        (runConn p (c.localConn t p a)).run (c.sent p msg a)
      else .ok () (c.sent p msg a) := by
  simp only [handleProxyConnectReq, EStateM.run_bind, EStateM.run_get, hs, hp, run_deref,
    Bool.false_eq_true, if_false, run_createLocalConn]
  exact run_sendThenRun p _ _

/-- Without a proxy connection, `handleProxyNotify` does not complete. -/
theorem handleProxyNotify_faults {m : NotifyMsg}
    (ht : AList.lookup m.tunnelId c.tunnelMap = some t)
    (h : ¬ a.proxyOk c m.proxyServerPort ∨ freshId (c.tunnel t).proxyConnectMap a = none) :
    ∃ e c', (handleProxyNotify m a).run c = .error e c' := by
  simp only [handleProxyNotify, EStateM.run_bind, EStateM.run_get, ht]
  by_cases hp : a.proxyOk c m.proxyServerPort
  · have hproxy := run_createProxyConn (t := t) (Int.not_le.2 hp)
    rw [h.resolve_left (not_not.2 hp)] at hproxy
    obtain ⟨c', hc'⟩ := hproxy
    rw [hc']
    exact ⟨_, _, rfl⟩
  · rw [run_createProxyConn_failed (Int.not_lt.1 hp)]
    exact ⟨_, _, rfl⟩

omit [DecidableEq τ] in
/-- For a proxy id it does not know, `HandleProxyConnectReq` uses an empty pointer. -/
theorem handleProxyConnectReq_faults {m : ConnectReqMsg} {via : π}
    (hs : (c.conn via).start = false)
    (hp : AList.lookup m.proxyId (c.tunnel t).proxyConnectMap = none) :
    (handleProxyConnectReq t m (some via) a).run c = .error .emptyPointer c := by
  simp only [handleProxyConnectReq, EStateM.run_bind, EStateM.run_get, hs, hp, Bool.false_eq_true,
    if_false]
  rcases run_createLocalConn_none (c := c) (t := t) (a := a) with h | h
  · rw [h]
    rfl
  · rw [h]

end Handlers

/-! ### Messages -/

/-- The messages that open connections. -/
inductive ClientMsg (π : Type)
  /-- `NotifyClient`, on the control connection -/
  | notifyClient (m : NotifyMsg)
  /-- `ProxyConnectReq`, on this proxy connection -/
  | proxyConnectReq (via : π) (m : ConnectReqMsg)

namespace ClientMsg

/-- The handler of the message. -/
def handle (c : TunnelClient τ π) (a : ClientAnswers π) :
    ClientMsg π → EStateM.Result Fault (TunnelClient τ π) Unit
  | notifyClient m => (handleProxyNotify m a).run c
  | proxyConnectReq via m => (handleProxyConnectReq (c.conn via).tunnel m (some via) a).run c

/-- All steps of the handler succeed. -/
def Succeeds (c : TunnelClient τ π) (a : ClientAnswers π) : ClientMsg π → Prop
  | notifyClient m => ∃ t, AList.lookup m.tunnelId c.tunnelMap = some t ∧
      a.proxyOk c m.proxyServerPort ∧ a.localOk c t ∧ a.writeOk .proxyMetaSet
  | proxyConnectReq via m => (c.conn via).start = false ∧
      (∃ p, AList.lookup m.proxyId (c.tunnel (c.conn via).tunnel).proxyConnectMap = some p) ∧
      a.localOk c (c.conn via).tunnel ∧ a.writeOk .proxyConnectRsp

/-- The tunnel of a `NotifyClient` is not known, or both connections are opened, an id is found and the
message is written whole.  For a `ProxyConnectReq`, the connection it came over is started, or its proxy
id is known and the local connection is opened or the answer is not written whole. -/
def Handleable (c : TunnelClient τ π) (a : ClientAnswers π) : ClientMsg π → Prop
  | notifyClient m => AList.lookup m.tunnelId c.tunnelMap = none ∨
      ∃ t, AList.lookup m.tunnelId c.tunnelMap = some t ∧ a.proxyOk c m.proxyServerPort ∧
        (∃ id ∈ a.random, AList.lookup id (c.tunnel t).proxyConnectMap = none) ∧
        a.localOk c t ∧ a.writeOk .proxyMetaSet
  | proxyConnectReq via m => (c.conn via).start = true ∨
      (∃ p, AList.lookup m.proxyId (c.tunnel (c.conn via).tunnel).proxyConnectMap = some p) ∧
        (a.localOk c (c.conn via).tunnel ∨ ¬ a.writeOk .proxyConnectRsp)

end ClientMsg

/-- No connection was started, and the maps are as they were. -/
structure Untouched (c c' : TunnelClient τ π) : Prop where
  unstarted : ∀ q, (c'.conn q).start = true → (c.conn q).start = true
  maps : ∀ t, (c'.tunnel t).proxyConnectMap = (c.tunnel t).proxyConnectMap

/-- The handler completes, and when a step fails it has started no connection and leaves the maps as they
were. -/
def HandlesWell (c : TunnelClient τ π) (m : ClientMsg π) (a : ClientAnswers π) : Prop :=
  ∃ c', m.handle c a = .ok () c' ∧ (¬ m.Succeeds c a → Untouched c c')

section Messages

variable {c : TunnelClient τ π} {t : τ} {a : ClientAnswers π}

omit [DecidableEq τ] [DecidableEq π] in
theorem Untouched.refl : Untouched c c := ⟨fun _ h => h, fun _ => rfl⟩

omit [DecidableEq τ] in
/-- A message that is sent starts no connection and changes no map. -/
theorem Untouched.sent (p : π) (m : DirectMsg) : Untouched c (c.sent p m a) := by
  refine ⟨fun q => ?_, fun _ => rfl⟩
  by_cases hq : q = p
  · subst hq
    simp only [TunnelClient.sent, TunnelClient.modifyConn, Function.update_self, imp_self]
  · simp only [TunnelClient.sent, TunnelClient.modifyConn, Function.update_of_ne hq, imp_self]

omit [DecidableEq π] in
theorem freshId_eq_some {m : ConnMap Str π} {id : Str} (h : freshId m a = some id) :
    AList.lookup id m = none := by
  simpa using List.find?_some h

omit [DecidableEq π] in
theorem isSome_freshId {m : ConnMap Str π} :
    (freshId m a).isSome ↔ ∃ id ∈ a.random, AList.lookup id m = none := by
  simp [freshId, List.find?_isSome]

/-- The new connection is in the map, and the tunnel keeps the rest. -/
theorem tunnel_entered {port : UInt32} {id : Str} :
    (c.entered t port a id).tunnel t =
      { c.tunnel t with
        proxyConnectMap := (c.tunnel t).proxyConnectMap.add id a.new } := by
  rw [TunnelClient.entered, TunnelClient.addProxyConn, TunnelClient.modifyTunnel_tunnel,
    TunnelClient.dialed_conn]
  rfl

theorem localOk_entered {port : UInt32} {id : Str} :
    a.localOk (c.entered t port a id) t ↔ a.localOk c t := by
  rw [ClientAnswers.localOk, tunnel_entered]
  rfl

/-- **The map of the tunnel is not what it was** once the new connection is in it. -/
theorem not_untouched_entered {port : UInt32} {id : Str} {m : DirectMsg}
    (hid : freshId (c.tunnel t).proxyConnectMap a = some id) :
    ¬ Untouched c ((c.entered t port a id).sent a.new m a) := by
  intro h
  have hmap : (c.tunnel t).proxyConnectMap.add id a.new = (c.tunnel t).proxyConnectMap :=
    (congrArg ClientTunnel.proxyConnectMap tunnel_entered).symm.trans (h.maps t)
  have hfresh := freshId_eq_some hid
  have hnew := ConnMap.lookup_add (c.tunnel t).proxyConnectMap id id a.new
  rw [hmap, if_pos ⟨rfl, hfresh⟩, hfresh] at hnew
  cases hnew

omit [DecidableEq τ] in
/-- A started connection with a local connection completes the handler. -/
theorem run_runConn_isSome {p : π} {l : Option LocalConn} (h : l.isSome) :
    ∃ c', (runConn p l).run c = .ok () c' := by
  obtain ⟨l, rfl⟩ := Option.isSome_iff_exists.1 h
  exact ⟨_, run_runConn p l⟩

/-- **When a `NotifyClient` is handled well.** -/
theorem notifyClient_handlesWell_iff (m : NotifyMsg) :
    HandlesWell c (.notifyClient m) a ↔ (ClientMsg.notifyClient m).Handleable c a := by
  cases ht : AList.lookup m.tunnelId c.tunnelMap with
  | none =>
      refine iff_of_true ⟨c, ?_, fun _ => .refl⟩ (.inl ht)
      simp only [ClientMsg.handle, handleProxyNotify, EStateM.run_bind, EStateM.run_get, ht,
        EStateM.run_pure]
  | some t =>
      constructor
      · rintro ⟨c', hrun, hun⟩
        rw [ClientMsg.handle] at hrun
        have hproxy : a.proxyOk c m.proxyServerPort ∧
            ∃ id, freshId (c.tunnel t).proxyConnectMap a = some id := by
          by_contra hno
          obtain ⟨e, c'', hfault⟩ := handleProxyNotify_faults (a := a) ht (by
            by_cases hp : a.proxyOk c m.proxyServerPort
            · exact .inr (Option.eq_none_iff_forall_ne_some.2 fun id hid => hno ⟨hp, id, hid⟩)
            · exact .inl hp)
          rw [hfault] at hrun
          cases hrun
        obtain ⟨hp, id, hid⟩ := hproxy
        rw [run_handleProxyNotify ht hp hid] at hrun
        dsimp only at hrun
        by_cases hw : a.writeOk .proxyMetaSet
        · rw [if_pos hw] at hrun
          have hlocal : a.localOk c t := by
            by_contra hlocal
            rw [← localOk_entered, ← isSome_localConn a.new, Option.not_isSome_iff_eq_none] at hlocal
            rw [hlocal, run_runConn_none] at hrun
            cases hrun
          exact .inr ⟨t, ht, hp, isSome_freshId.1 (by rw [hid]; rfl), hlocal, hw⟩
        · rw [if_neg hw] at hrun
          cases hrun
          refine absurd (hun ?_) (not_untouched_entered hid)
          rintro ⟨-, -, -, -, hw'⟩
          exact hw hw'
      · rintro (hnone | ⟨t', ht', hp, hids, hlocal, hw⟩)
        · rw [ht] at hnone
          cases hnone
        · obtain rfl := Option.some.inj (ht'.symm.trans ht)
          obtain ⟨id, hid⟩ := Option.isSome_iff_exists.1 (isSome_freshId.2 hids)
          obtain ⟨c', hrun⟩ := run_runConn_isSome (p := a.new)
            (c := (c.entered t' m.proxyServerPort a id).sent a.new _ a)
            ((isSome_localConn a.new).2 (localOk_entered.2 hlocal))
          refine ⟨c', ?_, fun hno => absurd ⟨t', ht, hp, hlocal, hw⟩ hno⟩
          rw [ClientMsg.handle, run_handleProxyNotify ht hp hid]
          dsimp only
          rw [if_pos hw, hrun]

/-- **When a `ProxyConnectReq` is handled well.** -/
theorem proxyConnectReq_handlesWell_iff (via : π) (m : ConnectReqMsg) :
    HandlesWell c (.proxyConnectReq via m) a ↔
      (ClientMsg.proxyConnectReq via m).Handleable c a := by
  by_cases hs : (c.conn via).start = true
  · refine iff_of_true ⟨c, ?_, fun _ => .refl⟩ (.inl hs)
    simp only [ClientMsg.handle, handleProxyConnectReq, EStateM.run_bind, EStateM.run_get, hs,
      if_true, EStateM.run_pure]
  · have hstart : (c.conn via).start = false := by simpa using hs
    cases hp : AList.lookup m.proxyId (c.tunnel (c.conn via).tunnel).proxyConnectMap with
    | none =>
        refine iff_of_false ?_ ?_
        · rintro ⟨c', hrun, -⟩
          rw [ClientMsg.handle, handleProxyConnectReq_faults hstart hp] at hrun
          cases hrun
        · rintro (h | ⟨⟨p, h⟩, -⟩)
          · exact hs h
          · rw [hp] at h
            cases h
    | some p =>
        have hrun := run_handleProxyConnectReq (a := a) (t := (c.conn via).tunnel) (m := m) hstart hp
        dsimp only at hrun
        by_cases hw : a.writeOk .proxyConnectRsp
        · rw [if_pos hw] at hrun
          by_cases hlocal : a.localOk c (c.conn via).tunnel
          · refine iff_of_true ?_ (.inr ⟨⟨p, hp⟩, .inl hlocal⟩)
            obtain ⟨c', hok⟩ := run_runConn_isSome (p := p) (c := c.sent p _ a)
              ((isSome_localConn p).2 hlocal)
            exact ⟨c', hrun.trans hok, fun hno => absurd ⟨hstart, ⟨p, hp⟩, hlocal, hw⟩ hno⟩
          · refine iff_of_false ?_ ?_
            · rintro ⟨c', hok, -⟩
              have hnone := (isSome_localConn p).not.2 hlocal
              rw [Option.not_isSome_iff_eq_none] at hnone
              rw [hnone, run_runConn_none] at hrun
              rw [ClientMsg.handle, hrun] at hok
              cases hok
            · rintro (h | ⟨-, h | h⟩)
              · exact hs h
              · exact hlocal h
              · exact h hw
        · rw [if_neg hw] at hrun
          exact iff_of_true ⟨_, hrun, fun _ => .sent p _⟩ (.inr ⟨⟨p, hp⟩, .inr hw⟩)

end Messages

/-- **When a message is handled well.** -/
theorem handles_well_iff (c : TunnelClient τ π) (m : ClientMsg π) (a : ClientAnswers π) :
    HandlesWell c m a ↔ m.Handleable c a := by
  cases m with
  | notifyClient m => exact notifyClient_handlesWell_iff m
  | proxyConnectReq via m => exact proxyConnectReq_handlesWell_iff via m

/-- A client with one tunnel. -/
def clientOne : TunnelClient ℕ ℕ where
  proxyServerHost := [49, 46, 50, 46, 51, 46, 52]
  clientId := [67]
  tunnelMap := AList.singleton [84] 0
  tunnel _ := ⟨[84], [49, 46, 50, 46, 51, 46, 53], 80, [48, 46, 48, 46, 48, 46, 48], 7777, ∅⟩
  conn _ := { fd := 0, thread := 0, tunnel := 0 }

/-- The connection to the proxy port is refused. -/
def proxyRefused : ClientAnswers ℕ where
  connectProxy _ _ := -1
  connectLocal _ _ := 5
  thread := 0
  new := 0
  random := [[80]]
  written := 38

/-- When the connection to the proxy port is refused, `handleProxyNotify` uses the empty pointer that
`createProxyConn` returns. -/
theorem not_handles_well : ¬ ∀ (c : TunnelClient ℕ ℕ) (m : ClientMsg ℕ) (a : ClientAnswers ℕ),
    HandlesWell c m a := by
  intro h
  obtain ⟨c', hrun, -⟩ := h clientOne (.notifyClient ⟨[84], 8888⟩) proxyRefused
  obtain ⟨e, c'', hfault⟩ := handleProxyNotify_faults (c := clientOne) (t := 0) (m := ⟨[84], 8888⟩)
    (a := proxyRefused) (by decide) (.inl (by decide))
  rw [ClientMsg.handle, hfault] at hrun
  cases hrun

end ProxySocket

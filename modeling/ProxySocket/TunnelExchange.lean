/-
**The exchange that sets up a tunnel.**

A client asks for a tunnel to its local server, and makes a `Tunnel` from the response.  The host of the
local server crosses four fixed-size fields: it is copied into the request and from there into the response,
beside the ports that are there already, and `strcpy` does not look at the size of a field.

Main definitions:

* `LocalServer` — the host and port of a local server, as an argument of the program gives them;
* `deliver` — a message from the sender's struct to the receiver's handler;
* `exchange` — request, handler of the server, response, handler of the client.

Main results:

* `deliver_of_msgBody` — what is delivered;
* `exchange_fits` — **an exchange for a host that fits**;
* `tunnel_of_arg` — from the argument of the program to the tunnel;
* `exchanged_iff` — the exchange keeps host and port, within the fields, exactly for hosts of up to 19 bytes.
-/

import ProxySocket.ClientTunnel
import ProxySocket.Content
import ProxySocket.CtlConnect
import ProxySocket.HostPort
import ProxySocket.NewTunnel
import Mathlib.Data.List.GetD
import Mathlib.Data.Nat.Digits.Defs

set_option relaxedAutoImplicit false
set_option autoImplicit false

namespace ProxySocket

open Function (update)

/-! ### Messages between the two ends -/

/-- The decimal digits of a number. -/
def decimalDigits (n : ℕ) : Str := (Nat.digits 10 n).reverse.map fun d => UInt8.ofNat (48 + d)

/-- The host and the port of a local server, which fit `addr_arr` of `parse_host_port` together. -/
structure LocalServer where
  host : Str
  port : ℕ
  host_nonempty : host ≠ []
  host_noColon : 58 ∉ host
  host_noNul : 0 ∉ host
  port_pos : 0 < port
  port_le : port ≤ 65535
  fits : (host ++ [58] ++ decimalDigits port).length + 1 ≤ 100

theorem toNat_digit {d : ℕ} (h : d < 10) : (UInt8.ofNat (48 + d)).toNat = 48 + d :=
  UInt8.toNat_ofNat_of_lt' (show 48 + d < 256 by omega)

/-- Digits that are written out, the least one last, are read as the number. -/
theorem decimalValue_map {l : List ℕ} (h : ∀ d ∈ l, d < 10) :
    decimalValue (l.reverse.map fun d => UInt8.ofNat (48 + d)) = Nat.ofDigits 10 l := by
  induction l with
  | nil => rfl
  | cons d l ih =>
      rw [Nat.ofDigits_cons, ← ih fun d hd => h d (List.mem_cons_of_mem _ hd)]
      simp only [decimalValue, List.reverse_cons, List.map_append, List.map_cons, List.map_nil,
        List.foldl_append, List.foldl_cons, List.foldl_nil, toNat_digit (h d List.mem_cons_self)]
      omega

namespace LocalServer

/-- The argument of the program that names the local server. -/
def arg (a : LocalServer) : Str := a.host ++ colon :: decimalDigits a.port

theorem isDigit_of_mem {a : LocalServer} {b : UInt8} (hb : b ∈ decimalDigits a.port) :
    isDigit b := by
  obtain ⟨d, hd, rfl⟩ := List.mem_map.1 hb
  have hlt : d < 10 := Nat.digits_lt_base (by decide) (List.mem_reverse.1 hd)
  simp only [isDigit, Bool.and_eq_true, decide_eq_true_eq, UInt8.le_iff_toNat_le, toNat_digit hlt,
    UInt8.reduceToNat]
  omega

/-- It is an address. -/
theorem hostPort_arg (a : LocalServer) : HostPort a.arg a.host a.port := by
  refine ⟨_, rfl, a.host_nonempty, a.host_noColon, ?_, fun b => isDigit_of_mem, ?_, a.port_pos,
    a.port_le⟩
  · rw [decimalDigits, ne_eq, List.map_eq_nil_iff, List.reverse_eq_nil_iff]
    exact Nat.digits_ne_nil_iff_ne_zero.2 a.port_pos.ne'
  · rw [decimalDigits, decimalValue_map fun d hd => Nat.digits_lt_base (by decide) hd,
      Nat.ofDigits_digits]

/-- **It is parsed to the host and the port.** -/
theorem parseHostPort_arg (a : LocalServer) (stack : ℕ → UInt8) :
    parseHostPort stack a.arg = .ok (a.host, a.port) := by
  refine a.hostPort_arg.parsed ?_ ?_
  · simp only [arg, List.mem_append, List.mem_cons, not_or]
    refine ⟨a.host_noNul, by decide, fun h0 => ?_⟩
    exact absurd (isDigit_of_mem h0) (by decide)
  · have hfits := a.fits
    simp only [arg, List.length_append, List.length_cons, List.length_nil] at hfits ⊢
    omega

end LocalServer

/-- `SendMsg` of a message that `MakeMsg` built, and the handler that `HandlerRead` of the other end calls
for it: the body that it gets. -/
def deliver (e : Endian) (stack : ℕ → UInt8) (type : MsgType) (body : List UInt8) :
    Option (List UInt8) :=
  match CtlConnect.dispatch e (.ok (frameMsg stack (encodeMsg e (type, body)))) with
  | [.handler type' body'] => if type' = type then some body' else none
  | _ => none

/-- **What is delivered** of a body of the size of its struct. -/
theorem deliver_of_msgBody {e : Endian} {stack : ℕ → UInt8} {type : MsgType} {body : List UInt8}
    (h : MsgBody (type, body)) : deliver e stack type body = some body := by
  have hdispatch := CtlReader.dispatch_encodeMsg (e := e) h [] stack
  rw [List.append_nil] at hdispatch
  rw [deliver, hdispatch]
  exact if_pos rfl

/-- The struct with a body copied over it. -/
def copyBody {n : ℕ} (mem : Vector UInt8 n) (body : List UInt8) : Vector UInt8 n :=
  .ofFn fun i => body.getD i mem[i]

theorem toList_copyBody {n : ℕ} (mem : Vector UInt8 n) {body : List UInt8} (h : body.length = n) :
    (copyBody mem body).toList = body := by
  refine List.ext_getElem (by rw [Vector.length_toList, h]) fun i h₁ h₂ => ?_
  simp only [copyBody, Vector.getElem_toList, Vector.getElem_ofFn]
  exact List.getD_eq_getElem _ _ h₂

/-! ### The exchange -/

variable {κ τ π : Type} [DecidableEq κ] [DecidableEq τ]

/-- What an exchange finds: the server, the calls of its handler, the client with the new object, and the
memory of the messages on both sides. -/
structure Exchange (κ τ π : Type) where
  server : TunnelServer κ
  control : κ
  random : Fin 5 → ℕ
  listen : ListenAnswers
  held : SockAddr
  client : TunnelClient τ π
  /-- the new `Tunnel` of the client -/
  new : τ
  /-- the memory of `req_msg` of the client -/
  reqMem : Vector UInt8 NewTunnelReqMsg.size
  /-- the memory of the structs that the server receives to and sends from -/
  srvReq : Vector UInt8 NewTunnelReqMsg.size
  srvRsp : Vector UInt8 NewTunnelRspMsg.size
  /-- the memory of the struct that the client receives to -/
  cliRsp : Vector UInt8 NewTunnelRspMsg.size
  /-- the stacks of the two read handlers -/
  srvStack : ℕ → UInt8
  cliStack : ℕ → UInt8

/-- The client with a new tunnel, which `emplace` puts under its id when this is new. -/
def TunnelClient.addTunnel (c : TunnelClient τ π) (new : τ) (tunnel : ClientTunnel π) :
    TunnelClient τ π :=
  { c with
    tunnel := update c.tunnel new tunnel
    tunnelMap := c.tunnelMap.add tunnel.tunnelId new }

/-- `Client::handleNewTunnelRsp`: nothing when a string does not end in the message. -/
def TunnelClient.handleNewTunnelRsp (e : Endian) (c : TunnelClient τ π) (new : τ) (rsp : List UInt8) :
    Option (TunnelClient τ π) := do
  let tunId ← cstr rsp NewTunnelRspMsg.tunnelId.off
  let localServerHost ← cstr rsp NewTunnelRspMsg.serverHost.off
  let proxyServerHost ← cstr rsp NewTunnelRspMsg.proxyServerHost.off
  return c.addTunnel new
    { tunnelId := tunId
      serverHost := localServerHost
      serverPort := UInt32.ofNat (NewTunnelRspMsg.serverPort.u32 e rsp)
      proxyServerHost := proxyServerHost
      proxyServerPort := UInt32.ofNat (NewTunnelRspMsg.proxyServerPort.u32 e rsp) }

namespace Exchange

variable (e : Endian) (x : Exchange κ τ π) (a : LocalServer)

/-- `Client::NewTunnelReq`. -/
def newTunnelReq : Option (List UInt8) := NewTunnelReqMsg.build e x.reqMem.toList a.host a.port

/-- The call of the server's handler for a request with this body. -/
def call (body : List UInt8) : NewTunnelCall κ where
  control := x.control
  req := copyBody x.srvReq body
  random := x.random
  listen := x.listen
  held := x.held
  rspMem := x.srvRsp
  taken := true

/-- The `Tunnel` that the server makes. -/
def srvTunnel : ServerTunnel κ :=
  (ServerTunnel.new x.server.sockets (randomStr x.random) x.control x.listen x.held).1

/-- Request and response: the client afterwards. -/
def exchange : Option (TunnelClient τ π) := do
  let req ← newTunnelReq e x a
  let body ← deliver e x.srvStack .newTunnelReq req
  let (_, sent) ← x.server.handleNewTunnelReq e (x.call body)
  let rsp ← sent
  let body ← deliver e x.cliStack .newTunnelRsp rsp
  x.client.handleNewTunnelRsp e x.new (copyBody x.cliRsp body).toList

/-- The strings that both messages copy, with their fields. -/
def copies : List (Field × Str) :=
  NewTunnelReqMsg.copies a.host ++
    ((newTunnelReq e x a).bind (deliver e x.srvStack .newTunnelReq)).toList.flatMap fun body =>
      NewTunnelRspMsg.copies (copyBody x.srvReq body).toList (randomStr x.random) x.srvTunnel.listenAddr

/-- The client has a tunnel with the host and the port of the local server, under its id when this is new,
and every string that was copied fits its field. -/
structure Exchanged : Prop where
  made : ∃ c', exchange e x a = some c' ∧ (c'.tunnel x.new).serverHost = a.host ∧
    (c'.tunnel x.new).serverPort.toNat = a.port ∧
    (AList.lookup (randomStr x.random) x.client.tunnelMap = none →
      AList.lookup (randomStr x.random) c'.tunnelMap = some x.new)
  fit : ∀ copy ∈ copies e x a, copy.1.Takes copy.2

end Exchange

/-! ### Hosts that fit -/

section Fits

variable {e : Endian} {x : Exchange κ τ π} {a : LocalServer}

omit [DecidableEq κ] [DecidableEq τ] in
/-- **The request** of a client whose host fits. -/
theorem newTunnelReq_fits (h : a.host.length ≤ 19) :
    ∃ req, x.newTunnelReq e a = some req ∧ deliver e x.srvStack .newTunnelReq req = some req ∧
      req.length = NewTunnelReqMsg.size ∧ cstr req 0 = some a.host ∧
      NewTunnelReqMsg.serverPort.u32 e req = a.port := by
  have hport := a.port_le
  have hok : (CtlContent.newTunnelReq a.host a.port).Ok := ⟨⟨h, a.host_noNul⟩, by omega⟩
  obtain ⟨req, hreq, hbody, hdecode⟩ := CtlContent.decode_build (e := e) hok
    (show x.reqMem.toList.length = _ from Vector.length_toList)
  rw [CtlContent.build_newTunnelReq] at hreq
  obtain ⟨host, hhost, heq⟩ := Option.bind_eq_some_iff.1 hdecode
  obtain ⟨hhost', hport'⟩ := CtlContent.newTunnelReq.inj (Option.some.inj heq)
  exact ⟨req, hreq, deliver_of_msgBody hbody, hbody.1, hhost' ▸ hhost, hport'⟩

omit [DecidableEq τ] in
/-- **The response** to a request whose host fits. -/
theorem handleNewTunnelReq_fits {req : List UInt8} (hlen : req.length = NewTunnelReqMsg.size)
    (hhost : cstr req 0 = some a.host) (hport : NewTunnelReqMsg.serverPort.u32 e req = a.port)
    (h : a.host.length ≤ 19) :
    ∃ s' rsp, x.server.handleNewTunnelReq e (x.call req) = some (s', some rsp) ∧
      MsgBody (.newTunnelRsp, rsp) ∧
      cstr rsp NewTunnelRspMsg.tunnelId.off = some (randomStr x.random) ∧
      cstr rsp NewTunnelRspMsg.serverHost.off = some a.host ∧
      cstr rsp NewTunnelRspMsg.proxyServerHost.off = some x.srvTunnel.listenAddr ∧
      NewTunnelRspMsg.serverPort.u32 e rsp = a.port := by
  have hreq : (x.call req).req.toList = req := toList_copyBody x.srvReq hlen
  obtain ⟨s', sent, hs⟩ := TunnelServer.exists_handle (e := e) (s := x.server) (c := x.call req) (by
    rw [hreq]
    exact isSome_cstr.1 (by rw [hhost]; rfl))
  obtain ⟨rsp, rfl, -, tunnel, hnew, -, hbuild⟩ := TunnelServer.handle_eq_some hs
  obtain rfl : x.srvTunnel = tunnel := congrArg Prod.fst hnew
  have haddr : HostStr x.srvTunnel.listenAddr :=
    ⟨Nat.le_of_succ_le_succ (takes_inetNtoa _), zero_notMem_inetNtoa _⟩
  have hlisten := x.srvTunnel.listenPort.toNat_lt
  have hle := a.port_le
  have hok : (CtlContent.newTunnelRsp (randomStr x.random) a.host x.srvTunnel.listenAddr
      (NewTunnelReqMsg.serverPort.u32 e req) x.srvTunnel.listenPort.toNat).Ok :=
    ⟨idStr_randomStr x.random, ⟨h, a.host_noNul⟩, haddr, by omega, by omega⟩
  obtain ⟨rsp', hrsp', hbody, hdecode⟩ := CtlContent.decode_build (e := e) hok
    (show (x.call req).rspMem.toList.length = _ from Vector.length_toList)
  -- what the handler builds is the struct with this content
  rw [CtlContent.build_newTunnelRsp hlen hhost] at hrsp'
  rw [hreq] at hbuild
  obtain rfl := Option.some.inj (hbuild.symm.trans hrsp')
  obtain ⟨id, hid, hdecode⟩ := Option.bind_eq_some_iff.1 hdecode
  obtain ⟨host, hhost', hdecode⟩ := Option.bind_eq_some_iff.1 hdecode
  obtain ⟨addr, haddr', heq⟩ := Option.bind_eq_some_iff.1 hdecode
  obtain ⟨rfl, rfl, rfl, hport', -⟩ := CtlContent.newTunnelRsp.inj (Option.some.inj heq)
  exact ⟨s', rsp, hs, hbody, hid, hhost', haddr', hport'.trans hport⟩

/-- **An exchange for a host that fits.** -/
theorem exchange_fits (h : a.host.length ≤ 19) : x.Exchanged e a := by
  obtain ⟨req, hreq, hdeliver, hlen, hhost, hport⟩ := newTunnelReq_fits (e := e) (x := x) h
  obtain ⟨s', rsp, hs, hbody, hid, hhost', haddr, hport'⟩ :=
    handleNewTunnelReq_fits (e := e) (x := x) hlen hhost hport h
  have hdeliver' : deliver e x.cliStack .newTunnelRsp rsp = some rsp := deliver_of_msgBody hbody
  constructor
  · have hmade : x.exchange e a = x.client.handleNewTunnelRsp e x.new rsp := by
      simp only [Exchange.exchange, hreq, hdeliver, hs, hdeliver', toList_copyBody x.cliRsp hbody.1,
        Option.bind_eq_bind, Option.bind_some]
    rw [TunnelClient.handleNewTunnelRsp, hid, hhost', haddr, hport'] at hmade
    have hle := a.port_le
    refine ⟨_, hmade, ?_, ?_, fun hnew => ?_⟩
    · simp only [TunnelClient.addTunnel, Function.update_self]
    · simp only [TunnelClient.addTunnel, Function.update_self]
      exact UInt32.toNat_ofNat_of_lt' (show a.port < 2 ^ 32 by omega)
    · rw [TunnelClient.addTunnel, ConnMap.lookup_add]
      exact if_pos ⟨rfl, hnew⟩
  · intro copy hcopy
    have hhost₀ : cstr req NewTunnelReqMsg.serverHost.off = some a.host := hhost
    rw [Exchange.copies, hreq, Option.bind_some, hdeliver] at hcopy
    simp only [NewTunnelReqMsg.copies, NewTunnelRspMsg.copies, toList_copyBody x.srvReq hlen, hhost₀,
      Option.toList_some, List.flatMap_singleton, Option.map_some, List.mem_append, List.mem_cons,
      List.not_mem_nil, or_false] at hcopy
    have hfit : a.host.length + 1 ≤ 20 := by omega
    rcases hcopy with rfl | (rfl | rfl) | rfl
    · exact hfit
    · exact takes_randomStr x.random
    · exact takes_inetNtoa _
    · exact hfit

/-- **From the argument to the tunnel.**  Whatever the stack of `parse_host_port` held, the argument that
names a local server is parsed to its host and its port, and these are what the client's tunnel has after
the exchange, if the host has at most 19 bytes. -/
theorem tunnel_of_arg (stack : ℕ → UInt8) (h : a.host.length ≤ 19) :
    ∃ host port c', parseHostPort stack a.arg = .ok (host, port) ∧ x.exchange e a = some c' ∧
      (c'.tunnel x.new).serverHost = host ∧ (c'.tunnel x.new).serverPort.toNat = port := by
  obtain ⟨c', hmade, hhost, hport, -⟩ := (exchange_fits (e := e) (x := x) h).made
  exact ⟨a.host, a.port, c', a.parseHostPort_arg stack, hmade, hhost, hport⟩

end Fits

/-- **When the exchange keeps host and port.**  For every local server, the client gets a tunnel with the
host and the port of its local server, and every string fits the field it is copied to, exactly when the
host has at most 19 bytes. -/
theorem exchanged_iff (e : Endian) (x : Exchange κ τ π) (a : LocalServer) :
    x.Exchanged e a ↔ a.host.length ≤ 19 := by
  constructor
  · intro h
    have hfit := h.fit (NewTunnelReqMsg.serverHost, a.host)
      (List.mem_append_left _ List.mem_cons_self)
    exact Nat.le_of_succ_le_succ hfit
  · exact exchange_fits

/-- A host of twenty bytes, with the port 8080. -/
def hostTwenty : LocalServer where
  host := .replicate 20 97
  port := 8080
  host_nonempty := by decide
  host_noColon := by decide
  host_noNul := by decide
  port_pos := by decide
  port_le := by decide
  fits := by decide +kernel

/-- The first exchange of a new client with a new server. -/
def firstExchange : Exchange ℕ ℕ ℕ where
  server := {}
  control := 0
  random _ := 0
  listen := ⟨some 5, true, true⟩
  held := ⟨0, fun _ => 0⟩
  client := ⟨[49], [67], ∅, fun _ => ⟨[], [], 0, [], 0, ∅⟩,
    fun _ => { fd := 0, thread := 0, tunnel := 0 }, []⟩
  new := 0
  reqMem := .replicate _ 0
  srvReq := .replicate _ 0
  srvRsp := .replicate _ 0
  cliRsp := .replicate _ 0
  srvStack _ := 0
  cliStack _ := 0

/-- The terminator of a host of twenty bytes falls on the port, and the client gets a tunnel to port 7936
in place of 8080. -/
theorem not_exchanged : ¬ ∀ (e : Endian) (x : Exchange ℕ ℕ ℕ) (a : LocalServer), x.Exchanged e a := by
  intro h
  obtain ⟨c', hc', -, hport, -⟩ := (h .little firstExchange hostTwenty).made
  have hwrong : (firstExchange.exchange .little hostTwenty).map
      (fun c => (c.tunnel 0).serverPort.toNat) = some 7936 := by decide +kernel
  rw [hc', Option.map_some] at hwrong
  exact absurd ((Option.some.inj hwrong).symm.trans hport) (by decide)

end ProxySocket

/-
**What the messages say.**

Every message of a control connection and of a proxy connection is a struct that the sender fills in field
by field, over whatever its memory holds, and that the handler of the receiver reads field by field.  Ids
and hosts are strings in fields of fixed size, the ports are numbers in the order of the host, and counts and
descriptors are in network order.

Main definitions:

* `CtlContent`, `ProxyContent` — what a message says, with `assigns`, the assignments of its sender;
* `CtlContent.build`, `CtlContent.decode` — the struct, and what a handler reads from it;
* `SayAct` — the calls on the sending end, with the contents of messages.

Main results:

* `CtlContent.decode_build`, `ProxyContent.decode_build` — **one message**, whatever the memory held;
* `proxy_round_trip` — a message of a proxy connection, from one end to the other;
* `contents_round_trip` — **the contents of all messages of a control connection arrive**.
-/

import ProxySocket.CtlConnect
import ProxySocket.Layout
import ProxySocket.NewTunnel

set_option relaxedAutoImplicit false
set_option autoImplicit false

namespace ProxySocket

/-! ### The structs -/

namespace NotifyClientNeedProxyMsg

def tunnelId : Field := ⟨0, 10⟩

/-- Behind the two bytes that align it. -/
def proxyServerPort : Field := ⟨12, 4⟩

end NotifyClientNeedProxyMsg

namespace ShutdownPeerConnMsg

def tunnelId : Field := ⟨0, 10⟩
def proxyId : Field := ⟨10, 10⟩
def tranCount : Field := ⟨20, 4⟩

end ShutdownPeerConnMsg

namespace FreeProxyConnReqMsg

def tunId : Field := ⟨0, 10⟩
def proxyId : Field := ⟨10, 10⟩

end FreeProxyConnReqMsg

namespace ProxyMetaSetMsg

def ctlId : Field := ⟨0, 10⟩
def tunId : Field := ⟨10, 10⟩
def proxyId : Field := ⟨20, 10⟩

end ProxyMetaSetMsg

-- `ProxyConnectReqMsg` and `ProxyConnectRspMsg` have the same fields
namespace ProxyConnectMsg

def fd : Field := ⟨0, 4⟩
def proxyId : Field := ⟨4, 10⟩

end ProxyConnectMsg

/-- An id, which fits a field of ten bytes. -/
def IdStr (s : Str) : Prop := s.length ≤ 9 ∧ 0 ∉ s

/-- A host, which fits a field of twenty bytes. -/
def HostStr (s : Str) : Prop := s.length ≤ 19 ∧ 0 ∉ s

instance (s : Str) : Decidable (IdStr s) := inferInstanceAs (Decidable (_ ∧ _))

instance (s : Str) : Decidable (HostStr s) := inferInstanceAs (Decidable (_ ∧ _))

theorem IdStr.takes {s : Str} (h : IdStr s) {f : Field} (hf : f.size = 10) : f.Takes s := by
  have hle := h.1
  rw [Field.Takes, hf]
  omega

theorem HostStr.takes {s : Str} (h : HostStr s) {f : Field} (hf : f.size = 20) : f.Takes s := by
  have hle := h.1
  rw [Field.Takes, hf]
  omega

/-- The ids that the program draws. -/
theorem idStr_randomStr (random : Fin 5 → ℕ) : IdStr (randomStr random) :=
  ⟨by rw [length_randomStr]; decide, zero_notMem_randomStr random⟩

/-- A number that was read is written with the same bytes. -/
theorem encode_decode (e : Endian) {bs : List UInt8} {w : ℕ} (h : bs.length = w) :
    e.encode w (e.decode bs) = bs := by
  have hlow : ∀ (bs : List UInt8), Bytes.lowBytes bs.length (Bytes.value bs) = bs := by
    intro bs
    induction bs with
    | nil => rfl
    | cons b bs ih =>
        have hb := b.toNat_lt
        have hdiv : (b.toNat + 256 * Bytes.value bs) / 256 = Bytes.value bs := by omega
        have hmod : UInt8.ofNat (b.toNat + 256 * Bytes.value bs) = b := by
          apply UInt8.toNat_inj.1
          rw [UInt8.toNat_ofNat']
          omega
        rw [List.length_cons, Bytes.value, Bytes.lowBytes, hdiv, hmod, ih]
  subst h
  cases e with
  | little => exact hlow bs
  | big =>
      have hrev := hlow bs.reverse
      rw [List.length_reverse] at hrev
      rw [Endian.encode, Endian.decode, hrev, List.reverse_reverse]

/-! ### Messages of a control connection -/

/-- What a message of a control connection says. -/
inductive CtlContent
  | newRequest
  | newResponse (ctlId : Str)
  | newTunnelReq (serverHost : Str) (serverPort : ℕ)
  | newTunnelRsp (tunnelId serverHost proxyServerHost : Str) (serverPort proxyServerPort : ℕ)
  | notifyClient (tunnelId : Str) (proxyServerPort : ℕ)
  | shutdownPeerConn (tunnelId proxyId : Str) (tranCount : ℕ)
  | freeConnReq (tunId proxyId : Str)
deriving DecidableEq, Repr

namespace CtlContent

def type : CtlContent → MsgType
  | newRequest => .newRequest
  | newResponse _ => .newResponse
  | newTunnelReq _ _ => .newTunnelReq
  | newTunnelRsp _ _ _ _ _ => .newTunnelRsp
  | notifyClient _ _ => .notifyClient
  | shutdownPeerConn _ _ _ => .shutdownPeerConn
  | freeConnReq _ _ => .freeConnReq

/-- The size of the struct.  That of a `NewResponseMsg` is allocated for the id. -/
def size (c : CtlContent) : ℕ :=
  match c with
  | newResponse ctlId => ctlId.length + 1
  | _ => c.type.structSize 0

/-- The assignments of the sender, one after the other. -/
def assigns (e : Endian) : CtlContent → List Assign
  | newRequest => []
  | newResponse ctlId => [.copy ⟨0, ctlId.length + 1⟩ ctlId]
  | newTunnelReq host port =>
      [.store NewTunnelReqMsg.serverPort e port, .copy NewTunnelReqMsg.serverHost host]
  | newTunnelRsp id host proxyHost port proxyPort =>
      [.store NewTunnelRspMsg.serverPort e port, .store NewTunnelRspMsg.proxyServerPort e proxyPort,
        .copy NewTunnelRspMsg.tunnelId id, .copy NewTunnelRspMsg.proxyServerHost proxyHost,
        .copy NewTunnelRspMsg.serverHost host]
  | notifyClient id port =>
      [.copy NotifyClientNeedProxyMsg.tunnelId id, .store NotifyClientNeedProxyMsg.proxyServerPort e port]
  | shutdownPeerConn tunId proxyId count =>
      [.store ShutdownPeerConnMsg.tranCount .big count, .copy ShutdownPeerConnMsg.tunnelId tunId,
        .copy ShutdownPeerConnMsg.proxyId proxyId]
  | freeConnReq tunId proxyId =>
      [.copy FreeProxyConnReqMsg.tunId tunId, .copy FreeProxyConnReqMsg.proxyId proxyId]

/-- The struct, whose memory holds `mem` before. -/
def build (e : Endian) (c : CtlContent) (mem : List UInt8) : Option (List UInt8) :=
  assignAll (c.assigns e) mem

/-- The fields that a handler finds in a body of this type. -/
def decode (e : Endian) (type : MsgType) (body : List UInt8) : Option CtlContent :=
  match type with
  | .newRequest => some newRequest
  | .newResponse => (cstr body 0).map newResponse
  | .newTunnelReq => do
      let host ← cstr body NewTunnelReqMsg.serverHost.off
      return newTunnelReq host (NewTunnelReqMsg.serverPort.u32 e body)
  | .newTunnelRsp => do
      let id ← cstr body NewTunnelRspMsg.tunnelId.off
      let host ← cstr body NewTunnelRspMsg.serverHost.off
      let proxyHost ← cstr body NewTunnelRspMsg.proxyServerHost.off
      return newTunnelRsp id host proxyHost (NewTunnelRspMsg.serverPort.u32 e body)
        (NewTunnelRspMsg.proxyServerPort.u32 e body)
  | .notifyClient => do
      let id ← cstr body NotifyClientNeedProxyMsg.tunnelId.off
      return notifyClient id (NotifyClientNeedProxyMsg.proxyServerPort.u32 e body)
  | .shutdownPeerConn => do
      let tunId ← cstr body ShutdownPeerConnMsg.tunnelId.off
      let proxyId ← cstr body ShutdownPeerConnMsg.proxyId.off
      return shutdownPeerConn tunId proxyId (ShutdownPeerConnMsg.tranCount.u32 .big body)
  | .freeConnReq => do
      let tunId ← cstr body FreeProxyConnReqMsg.tunId.off
      let proxyId ← cstr body FreeProxyConnReqMsg.proxyId.off
      return freeConnReq tunId proxyId

/-- Strings fit their fields, and numbers are of type `u_int32_t`. -/
def Ok : CtlContent → Prop
  | newRequest => True
  | newResponse ctlId => IdStr ctlId
  | newTunnelReq host port => HostStr host ∧ port < 2 ^ 32
  | newTunnelRsp id host proxyHost port proxyPort =>
      IdStr id ∧ HostStr host ∧ HostStr proxyHost ∧ port < 2 ^ 32 ∧ proxyPort < 2 ^ 32
  | notifyClient id port => IdStr id ∧ port < 2 ^ 32
  | shutdownPeerConn tunId proxyId count => IdStr tunId ∧ IdStr proxyId ∧ count < 2 ^ 32
  | freeConnReq tunId proxyId => IdStr tunId ∧ IdStr proxyId

instance : DecidablePred Ok
  | newRequest => .isTrue trivial
  | newResponse _ => inferInstanceAs (Decidable (IdStr _))
  | newTunnelReq _ _ | notifyClient _ _ | freeConnReq _ _ => inferInstanceAs (Decidable (_ ∧ _))
  | newTunnelRsp _ _ _ _ _ => inferInstanceAs (Decidable (_ ∧ _ ∧ _ ∧ _ ∧ _))
  | shutdownPeerConn _ _ _ => inferInstanceAs (Decidable (_ ∧ _ ∧ _))

variable {e : Endian} {c : CtlContent}

/-- The values fit their fields. -/
theorem fits_assigns (h : c.Ok) : ∀ a ∈ c.assigns e, a.Fits c.size := by
  cases c with
  | newRequest => exact fun _ ha => absurd ha List.not_mem_nil
  | newResponse id =>
      simp only [assigns, List.forall_mem_singleton]
      exact ⟨Nat.le_of_eq (Nat.zero_add _), Nat.le_refl _, h.2⟩
  | newTunnelReq host port =>
      simp only [assigns, List.forall_mem_cons, List.not_mem_nil, false_imp_iff, implies_true, and_true]
      exact ⟨⟨Nat.le_of_ble_eq_true rfl, h.2⟩, ⟨Nat.le_of_ble_eq_true rfl, h.1.takes rfl, h.1.2⟩⟩
  | newTunnelRsp id host proxyHost port proxyPort =>
      obtain ⟨hid, hhost, hproxy, hport, hproxyPort⟩ := h
      simp only [assigns, List.forall_mem_cons, List.not_mem_nil, false_imp_iff, implies_true, and_true]
      exact ⟨⟨Nat.le_of_ble_eq_true rfl, hport⟩, ⟨Nat.le_of_ble_eq_true rfl, hproxyPort⟩,
        ⟨Nat.le_of_ble_eq_true rfl, hid.takes rfl, hid.2⟩,
        ⟨Nat.le_of_ble_eq_true rfl, hproxy.takes rfl, hproxy.2⟩,
        ⟨Nat.le_of_ble_eq_true rfl, hhost.takes rfl, hhost.2⟩⟩
  | notifyClient id port =>
      simp only [assigns, List.forall_mem_cons, List.not_mem_nil, false_imp_iff, implies_true, and_true]
      exact ⟨⟨Nat.le_of_ble_eq_true rfl, h.1.takes rfl, h.1.2⟩, ⟨Nat.le_of_ble_eq_true rfl, h.2⟩⟩
  | shutdownPeerConn tunId proxyId count =>
      obtain ⟨htun, hproxy, hcount⟩ := h
      simp only [assigns, List.forall_mem_cons, List.not_mem_nil, false_imp_iff, implies_true, and_true]
      exact ⟨⟨Nat.le_of_ble_eq_true rfl, hcount⟩, ⟨Nat.le_of_ble_eq_true rfl, htun.takes rfl, htun.2⟩,
        ⟨Nat.le_of_ble_eq_true rfl, hproxy.takes rfl, hproxy.2⟩⟩
  | freeConnReq tunId proxyId =>
      simp only [assigns, List.forall_mem_cons, List.not_mem_nil, false_imp_iff, implies_true, and_true]
      exact ⟨⟨Nat.le_of_ble_eq_true rfl, h.1.takes rfl, h.1.2⟩,
        ⟨Nat.le_of_ble_eq_true rfl, h.2.takes rfl, h.2.2⟩⟩

/-- The fields of a message do not overlap. -/
theorem apart_assigns (e : Endian) (c : CtlContent) :
    (c.assigns e).Pairwise fun a b => a.field.Apart b.field := by
  have hfields : ((c.assigns e).map Assign.field).Pairwise Field.Apart := by
    cases c with
    | newRequest => exact .nil
    | newResponse id => exact List.pairwise_singleton _ _
    | newTunnelReq host port => simp only [assigns, List.map, Assign.field]; decide
    | newTunnelRsp id host proxyHost port proxyPort =>
        simp only [assigns, List.map, Assign.field]; decide
    | notifyClient id port => simp only [assigns, List.map, Assign.field]; decide
    | shutdownPeerConn tunId proxyId count => simp only [assigns, List.map, Assign.field]; decide
    | freeConnReq tunId proxyId => simp only [assigns, List.map, Assign.field]; decide
  exact List.pairwise_map.1 hfields

/-- **One message**: whatever the memory of the struct held, the handler reads what was assigned. -/
theorem decode_build (h : c.Ok) {mem : List UInt8} (hmem : mem.length = c.size) :
    ∃ body, c.build e mem = some body ∧ MsgBody (c.type, body) ∧ decode e c.type body = some c := by
  obtain ⟨body, hbuild, hlen, hkept, -⟩ := assignAll_kept (fits_assigns h) (apart_assigns e c) hmem
  have hfits := fits_assigns (e := e) h
  refine ⟨body, hbuild, ?_, ?_⟩
  · have hsize : c.type.structSize c.size = c.size ∧ c.size ≤ maxMsgLen := by
      cases c with
      | newResponse id =>
          have hle : id.length ≤ 9 := h.1
          have hmax : maxMsgLen = 1024 := rfl
          have hsize : (newResponse id).size = id.length + 1 := rfl
          exact ⟨rfl, by omega⟩
      | newRequest => exact ⟨rfl, Nat.le_of_ble_eq_true rfl⟩
      | newTunnelReq host port => exact ⟨rfl, Nat.le_of_ble_eq_true rfl⟩
      | newTunnelRsp id host proxyHost port proxyPort => exact ⟨rfl, Nat.le_of_ble_eq_true rfl⟩
      | notifyClient id port => exact ⟨rfl, Nat.le_of_ble_eq_true rfl⟩
      | shutdownPeerConn tunId proxyId count => exact ⟨rfl, Nat.le_of_ble_eq_true rfl⟩
      | freeConnReq tunId proxyId => exact ⟨rfl, Nat.le_of_ble_eq_true rfl⟩
    refine ⟨?_, ?_⟩
    · rw [hlen, hsize.1]
    · rw [hlen]
      exact hsize.2
  · cases c with
    | newRequest => rfl
    | newResponse id =>
        simp only [assigns, List.forall_mem_singleton] at hkept hfits
        have hid := hkept.cstr hfits
        exact Option.map_eq_some_iff.2 ⟨id, hid, rfl⟩
    | newTunnelReq host port =>
        simp only [assigns, List.forall_mem_cons, List.not_mem_nil, false_imp_iff, implies_true,
          and_true] at hkept hfits
        simp only [decode, hkept.2.cstr hfits.2, Option.bind_eq_bind, Option.bind_some]
        exact congrArg (fun n => some (newTunnelReq host n)) hkept.1
    | newTunnelRsp id host proxyHost port proxyPort =>
        simp only [assigns, List.forall_mem_cons, List.not_mem_nil, false_imp_iff, implies_true,
          and_true] at hkept hfits
        obtain ⟨hport, hproxyPort, hid, hproxy, hhost⟩ := hkept
        obtain ⟨-, -, fid, fproxy, fhost⟩ := hfits
        simp only [decode, hid.cstr fid, hproxy.cstr fproxy, hhost.cstr fhost, Option.bind_eq_bind,
          Option.bind_some]
        exact congrArg₂ (fun n k => some (newTunnelRsp id host proxyHost n k)) hport hproxyPort
    | notifyClient id port =>
        simp only [assigns, List.forall_mem_cons, List.not_mem_nil, false_imp_iff, implies_true,
          and_true] at hkept hfits
        simp only [decode, hkept.1.cstr hfits.1, Option.bind_eq_bind, Option.bind_some]
        exact congrArg (fun n => some (notifyClient id n)) hkept.2
    | shutdownPeerConn tunId proxyId count =>
        simp only [assigns, List.forall_mem_cons, List.not_mem_nil, false_imp_iff, implies_true,
          and_true] at hkept hfits
        obtain ⟨hcount, htun, hproxy⟩ := hkept
        obtain ⟨-, ftun, fproxy⟩ := hfits
        simp only [decode, htun.cstr ftun, hproxy.cstr fproxy, Option.bind_eq_bind, Option.bind_some]
        exact congrArg (fun n => some (shutdownPeerConn tunId proxyId n)) hcount
    | freeConnReq tunId proxyId =>
        simp only [assigns, List.forall_mem_cons, List.not_mem_nil, false_imp_iff, implies_true,
          and_true] at hkept hfits
        simp only [decode, hkept.1.cstr hfits.1, hkept.2.cstr hfits.2, Option.bind_eq_bind,
          Option.bind_some]
        rfl

/-- The request of a client is built as in the exchange that sets up a tunnel. -/
theorem build_newTunnelReq (e : Endian) (host : Str) (port : ℕ) (mem : List UInt8) :
    (newTunnelReq host port).build e mem = NewTunnelReqMsg.build e mem host port := by
  simp only [build, assigns, assignAll, List.foldlM_cons, List.foldlM_nil, Assign.run,
    Option.bind_eq_bind, Option.bind_some, NewTunnelReqMsg.build]
  exact Option.bind_fun_some _

/-- The response of a server repeats the host and the port of the request. -/
theorem build_newTunnelRsp {req : List UInt8} {host : Str} (hreq : req.length = NewTunnelReqMsg.size)
    (hhost : cstr req 0 = some host) (mem : List UInt8) (id addr : Str) (listenPort : ℕ) :
    (newTunnelRsp id host addr (NewTunnelReqMsg.serverPort.u32 e req) listenPort).build e mem =
      NewTunnelRspMsg.build e mem req listenPort id addr := by
  have hlen : (readAt req NewTunnelReqMsg.serverPort.off NewTunnelReqMsg.serverPort.size).length = 4 :=
    length_readAt (by rw [hreq]; decide)
  have hport : e.encode 4 (NewTunnelReqMsg.serverPort.u32 e req) =
      readAt req NewTunnelReqMsg.serverPort.off NewTunnelReqMsg.serverPort.size :=
    encode_decode e hlen
  have hhost' : cstr req NewTunnelReqMsg.serverHost.off = some host := hhost
  simp only [build, assigns, assignAll, List.foldlM_cons, List.foldlM_nil, Assign.run,
    Option.bind_eq_bind, Option.bind_some, NewTunnelRspMsg.build, hhost']
  rw [show NewTunnelRspMsg.serverPort.size = 4 from rfl, hport]
  refine Option.bind_congr fun mem₁ _ => Option.bind_congr fun mem₂ _ => ?_
  exact Option.bind_fun_some _

end CtlContent

/-! ### Messages of a proxy connection -/

/-- The value of the enumerator. -/
def ProxyMsgType.code : ProxyMsgType → ℕ
  | proxyMetaSet => 0
  | proxyConnectReq => 1
  | proxyConnectRsp => 2

@[simp] theorem ProxyMsgType.ofCode_code (t : ProxyMsgType) : ProxyMsgType.ofCode t.code = some t := by
  cases t <;> rfl

/-- What a message of a proxy connection says. -/
inductive ProxyContent
  | proxyMetaSet (ctlId tunId proxyId : Str)
  | proxyConnectReq (fd : ℕ) (proxyId : Str)
  | proxyConnectRsp (fd : ℕ) (proxyId : Str)
deriving DecidableEq, Repr

namespace ProxyContent

def type : ProxyContent → ProxyMsgType
  | proxyMetaSet _ _ _ => .proxyMetaSet
  | proxyConnectReq _ _ => .proxyConnectReq
  | proxyConnectRsp _ _ => .proxyConnectRsp

/-- The assignments of the sender, one after the other. -/
def assigns : ProxyContent → List Assign
  | proxyMetaSet ctlId tunId proxyId =>
      [.copy ProxyMetaSetMsg.ctlId ctlId, .copy ProxyMetaSetMsg.tunId tunId,
        .copy ProxyMetaSetMsg.proxyId proxyId]
  | proxyConnectReq fd proxyId | proxyConnectRsp fd proxyId =>
      [.copy ProxyConnectMsg.proxyId proxyId, .store ProxyConnectMsg.fd .big fd]

/-- The struct, whose memory holds `mem` before. -/
def build (c : ProxyContent) (mem : List UInt8) : Option (List UInt8) := assignAll c.assigns mem

/-- The fields that a handler finds in a body of this type. -/
def decode (type : ProxyMsgType) (body : List UInt8) : Option ProxyContent :=
  match type with
  | .proxyMetaSet => do
      let ctlId ← cstr body ProxyMetaSetMsg.ctlId.off
      let tunId ← cstr body ProxyMetaSetMsg.tunId.off
      let proxyId ← cstr body ProxyMetaSetMsg.proxyId.off
      return proxyMetaSet ctlId tunId proxyId
  | .proxyConnectReq => do
      let proxyId ← cstr body ProxyConnectMsg.proxyId.off
      return proxyConnectReq (ProxyConnectMsg.fd.u32 .big body) proxyId
  | .proxyConnectRsp => do
      let proxyId ← cstr body ProxyConnectMsg.proxyId.off
      return proxyConnectRsp (ProxyConnectMsg.fd.u32 .big body) proxyId

/-- Ids fit their fields, and descriptors are of type `u_int32_t`. -/
def Ok : ProxyContent → Prop
  | proxyMetaSet ctlId tunId proxyId => IdStr ctlId ∧ IdStr tunId ∧ IdStr proxyId
  | proxyConnectReq fd proxyId | proxyConnectRsp fd proxyId => fd < 2 ^ 32 ∧ IdStr proxyId

instance : DecidablePred Ok
  | proxyMetaSet _ _ _ => inferInstanceAs (Decidable (_ ∧ _ ∧ _))
  | proxyConnectReq _ _ | proxyConnectRsp _ _ => inferInstanceAs (Decidable (_ ∧ _))

variable {c : ProxyContent}

theorem fits_assigns (h : c.Ok) : ∀ a ∈ c.assigns, a.Fits c.type.structSize := by
  cases c with
  | proxyMetaSet ctlId tunId proxyId =>
      obtain ⟨hctl, htun, hproxy⟩ := h
      simp only [assigns, List.forall_mem_cons, List.not_mem_nil, false_imp_iff, implies_true, and_true]
      exact ⟨⟨Nat.le_of_ble_eq_true rfl, hctl.takes rfl, hctl.2⟩,
        ⟨Nat.le_of_ble_eq_true rfl, htun.takes rfl, htun.2⟩,
        ⟨Nat.le_of_ble_eq_true rfl, hproxy.takes rfl, hproxy.2⟩⟩
  | proxyConnectReq fd proxyId | proxyConnectRsp fd proxyId =>
      simp only [assigns, List.forall_mem_cons, List.not_mem_nil, false_imp_iff, implies_true, and_true]
      exact ⟨⟨Nat.le_of_ble_eq_true rfl, h.2.takes rfl, h.2.2⟩, ⟨Nat.le_of_ble_eq_true rfl, h.1⟩⟩

theorem apart_assigns (c : ProxyContent) : c.assigns.Pairwise fun a b => a.field.Apart b.field := by
  have hfields : (c.assigns.map Assign.field).Pairwise Field.Apart := by
    cases c with
    | proxyMetaSet ctlId tunId proxyId => simp only [assigns, List.map, Assign.field]; decide
    | proxyConnectReq fd proxyId | proxyConnectRsp fd proxyId =>
        simp only [assigns, List.map, Assign.field]; decide
  exact List.pairwise_map.1 hfields

/-- **One message**: whatever the memory of the struct held, the handler reads what was assigned. -/
theorem decode_build (h : c.Ok) {mem : List UInt8} (hmem : mem.length = c.type.structSize) :
    ∃ body, c.build mem = some body ∧ body.length = c.type.structSize ∧
      decode c.type body = some c := by
  obtain ⟨body, hbuild, hlen, hkept, -⟩ := assignAll_kept (fits_assigns h) (apart_assigns c) hmem
  have hfits := fits_assigns h
  refine ⟨body, hbuild, hlen, ?_⟩
  cases c with
  | proxyMetaSet ctlId tunId proxyId =>
      simp only [assigns, List.forall_mem_cons, List.not_mem_nil, false_imp_iff, implies_true,
        and_true] at hkept hfits
      obtain ⟨hctl, htun, hproxy⟩ := hkept
      obtain ⟨fctl, ftun, fproxy⟩ := hfits
      simp only [decode, hctl.cstr fctl, htun.cstr ftun, hproxy.cstr fproxy, Option.bind_eq_bind,
        Option.bind_some]
      rfl
  | proxyConnectReq fd proxyId =>
      simp only [assigns, List.forall_mem_cons, List.not_mem_nil, false_imp_iff, implies_true,
        and_true] at hkept hfits
      simp only [decode, hkept.1.cstr hfits.1, Option.bind_eq_bind, Option.bind_some]
      exact congrArg (fun n => some (proxyConnectReq n proxyId)) hkept.2
  | proxyConnectRsp fd proxyId =>
      simp only [assigns, List.forall_mem_cons, List.not_mem_nil, false_imp_iff, implies_true,
        and_true] at hkept hfits
      simp only [decode, hkept.1.cstr hfits.1, Option.bind_eq_bind, Option.bind_some]
      exact congrArg (fun n => some (proxyConnectRsp n proxyId)) hkept.2

end ProxyContent

/-- The bytes that `SendMsg` and `SendMsgDirct` of a proxy connection send. -/
def encodeProxyMsg (e : Endian) (p : ProxyMsgType × List UInt8) : List UInt8 :=
  Endian.big.encode 4 (8 + p.2.length) ++ e.encode 4 p.1.code ++ p.2

/-- The type of control messages with the same code. -/
def ProxyMsgType.twin : ProxyMsgType → MsgType
  | proxyMetaSet => .newRequest
  | proxyConnectReq => .newResponse
  | proxyConnectRsp => .newTunnelReq

/-- The frames of both kinds of connections are made alike. -/
theorem encodeProxyMsg_eq (e : Endian) (t : ProxyMsgType) (body : List UInt8) :
    encodeProxyMsg e (t, body) = encodeMsg e (t.twin, body) := by
  cases t <;> rfl

/-- The `switch` of `ProxyConnect::handleRead`: the handler with the body copied into its struct, or
nothing for a type without a case and for a body that is too long. -/
def ProxyConnect.dispatch (e : Endian) (m : RecvMsg) : Option (ProxyMsgType × List UInt8) :=
  match ProxyMsgType.ofCode (m.type e) with
  | none => none
  | some t => if m.bodySize ≤ t.structSize then some (t, m.body) else none

/-- **A message of a proxy connection arrives.**  Whatever the memory of the struct held, a handler that
waits for the bytes of the frame calls the handler of the message with what was assigned, and leaves the
bytes behind the frame; it returns when enough arrives. -/
theorem proxy_round_trip (e : Endian) {c : ProxyContent} (h : c.Ok) {mem : List UInt8}
    (hmem : mem.length = c.type.structSize) :
    ∃ body, c.build mem = some body ∧
      ∀ (rest : List UInt8) (stack : ℕ → UInt8) (flag : Bool) (reads : List ReadResult),
        (∀ a ∈ reads, a.Patient) →
        (∀ r, ProxyConnect.handleRead stack flag (encodeProxyMsg e (c.type, body) ++ rest) reads = some r →
          r.stream = rest ∧ r.bufferEmpty = flag ∧ ∃ m, r.result = .ok m ∧
            (ProxyConnect.dispatch e m).bind (fun p => ProxyContent.decode p.1 p.2) = some c) ∧
        (proxyFormat.maxLen ≤ arrivals reads →
          ∃ r, ProxyConnect.handleRead stack flag (encodeProxyMsg e (c.type, body) ++ rest) reads =
            some r) := by
  obtain ⟨body, hbuild, hlen, hdecode⟩ := ProxyContent.decode_build h hmem
  refine ⟨body, hbuild, fun rest stack flag reads hp => ?_⟩
  rw [encodeProxyMsg_eq]
  have hle : body.length ≤ maxMsgLen := by
    rw [hlen]
    cases c.type <;> exact Nat.le_of_ble_eq_true rfl
  have hwhole : FrameWhole proxyFormat (encodeMsg e (c.type.twin, body) ++ rest) :=
    frameWhole_encodeMsg e rest hle
  have hframe := frameLen_encodeMsg e (p := (c.type.twin, body)) rest hle
  refine ⟨fun r hr => ?_, readFrame_enough (by decide) hwhole hp⟩
  obtain rfl := readFrame_patient (by decide) hwhole (by rw [hframe]; exact Nat.le_add_right 8 _) hp hr
  obtain ⟨htype, hbody⟩ := frameMsg_encodeMsg e (p := (c.type.twin, body)) rest stack hle
  refine ⟨drop_encodeMsg e rest hle, rfl, _, rfl, ?_⟩
  have hcode : c.type.twin.code = c.type.code := by cases c.type <;> rfl
  have hsize : (frameMsg stack (encodeMsg e (c.type.twin, body) ++ rest)).bodySize = body.length := by
    have hmax : maxMsgLen = 1024 := rfl
    have hl : (frameMsg stack (encodeMsg e (c.type.twin, body) ++ rest)).len = 8 + body.length := hframe
    rw [RecvMsg.bodySize_of_le _ (by omega) (by omega), hl, Nat.add_sub_cancel_left]
  rw [ProxyConnect.dispatch, htype, hcode, ProxyMsgType.ofCode_code, hsize, hbody]
  dsimp only
  rw [if_pos (Nat.le_of_eq hlen)]
  exact hdecode

/-! ### All messages of a control connection -/

/-- A call on the sending end, with the content of a message and the memory of its struct. -/
inductive SayAct
  | say (heap : ℕ → UInt8) (c : CtlContent) (mem : List UInt8)
  | handlerWrite (errno : ℕ) (o : ℕ → WriteResult) (k : ℕ)

namespace SayAct

/-- What the call says. -/
def content? : SayAct → Option CtlContent
  | say _ c _ => some c
  | handlerWrite _ _ _ => none

/-- The call of `SendMsg`, with the struct that was built, or of `HandlerWrite`. -/
def call (e : Endian) : SayAct → Option CtlSendAct
  | say heap c mem => (c.build e mem).map fun body => .sendMsg heap c.type body
  | handlerWrite errno o k => some (.handlerWrite errno o k)

/-- The values fit their fields, and every `write(2)` takes bytes. -/
def Ok : SayAct → Prop
  | say _ c mem => c.Ok ∧ mem.length = c.size
  | handlerWrite _ o k => ∀ i < k, 0 < (o i).count

instance : DecidablePred Ok
  | say _ _ _ => inferInstanceAs (Decidable (_ ∧ _))
  | handlerWrite _ _ _ => inferInstanceAs (Decidable (∀ _ < _, _))

end SayAct

/-- The message that a call of `SendMsg` is for. -/
def CtlSendAct.msg? : CtlSendAct → Option (MsgType × List UInt8)
  | sendMsg _ type body => some (type, body)
  | handlerWrite _ _ _ => none

/-- What the receiving end gets to know from a call. -/
def CtlCall.content? (e : Endian) : CtlCall → Option CtlContent
  | handler type body => CtlContent.decode e type body
  | overrun _ | close => none

section Say

variable {e : Endian}

/-- Every call on the sending end is one of the program's, and says what it should. -/
theorem SayAct.call_ok {a : SayAct} (h : a.Ok) : ∃ b, a.call e = some b ∧ b.Ok ∧
    b.msg?.bind (fun p => CtlContent.decode e p.1 p.2) = a.content? := by
  cases a with
  | say heap c mem =>
      obtain ⟨body, hbuild, hbody, hdecode⟩ := CtlContent.decode_build (e := e) h.1 h.2
      exact ⟨.sendMsg heap c.type body, Option.map_eq_some_iff.2 ⟨body, hbuild, rfl⟩, hbody, hdecode⟩
  | handlerWrite errno o k => exact ⟨.handlerWrite errno o k, rfl, h, rfl⟩

/-- What the calls say, one after the other. -/
theorem decode_calls {told : List SayAct} (h : ∀ a ∈ told, a.Ok) : ∀ {as : List CtlSendAct},
    told.mapM (SayAct.call e) = some as →
      (∀ b ∈ as, b.Ok) ∧
      (as.filterMap CtlSendAct.msg?).map (fun p => CtlContent.decode e p.1 p.2) =
        (told.filterMap SayAct.content?).map some := by
  induction told with
  | nil =>
      intro as has
      obtain rfl := Option.some.inj has
      exact ⟨fun _ hb => absurd hb List.not_mem_nil, rfl⟩
  | cons a told ih =>
      intro as has
      obtain ⟨b, hcall, hok, hmsg⟩ := SayAct.call_ok (e := e) (h a List.mem_cons_self)
      simp only [List.mapM_cons, hcall, Option.bind_eq_bind, Option.bind_some] at has
      obtain ⟨bs, hbs, heq⟩ := Option.bind_eq_some_iff.1 has
      obtain rfl := Option.some.inj heq
      obtain ⟨hoks, hcontents⟩ := ih (fun x hx => h x (List.mem_cons_of_mem a hx)) hbs
      refine ⟨List.forall_mem_cons.2 ⟨hok, hoks⟩, ?_⟩
      cases a with
      | say heap c mem =>
          obtain ⟨p, hp, hdecode⟩ := Option.bind_eq_some_iff.1 hmsg
          rw [List.filterMap_cons_some hp, List.map_cons, hdecode, hcontents]
          rfl
      | handlerWrite errno o k =>
          obtain rfl := Option.some.inj hcall
          exact hcontents

/-- The messages in the buffer or sent are some of those for which `SendMsg` was called. -/
theorem sublist_accepted {as : List CtlSendAct} : ∀ {s s' : CtlSender} {heap : ℕ → UInt8},
    (ctlSenderLts e heap).exec s as = some s' →
      ∃ l, s'.accepted = s.accepted ++ l ∧ l.Sublist (as.filterMap CtlSendAct.msg?) := by
  induction as with
  | nil =>
      intro s s' heap he
      obtain rfl := Option.some.inj he
      exact ⟨[], (List.append_nil _).symm, .slnil⟩
  | cons a as ih =>
      intro s s' heap he
      obtain ⟨s₁, hstep, he⟩ := (Lts.exec_cons_eq_some _).1 he
      obtain ⟨l, hl, hsub⟩ := ih he
      cases a with
      | sendMsg heap' type body =>
          obtain ⟨r, -, rfl⟩ := Option.map_eq_some_iff.1 hstep
          have hmsg : (CtlSendAct.sendMsg heap' type body).msg? = some (type, body) := rfl
          rw [List.filterMap_cons_some hmsg]
          split at hl
          · exact ⟨l, hl, hsub.cons _⟩
          · exact ⟨(type, body) :: l, by rw [hl, List.append_assoc]; rfl, hsub.cons_cons _⟩
      | handlerWrite errno o k =>
          have hkeep : s₁.accepted = s.accepted := by
            have hs : s.handlerWrite errno o k = some s₁ := hstep
            unfold CtlSender.handlerWrite at hs
            split at hs
            · rw [Option.some.inj hs]
            · obtain ⟨-, hs⟩ := Option.ite_none_right_eq_some.1 hs
              rw [← Option.some.inj hs]
          exact ⟨l, by rw [hl, hkeep], hsub⟩

end Say

/-- A request to free a connection, whose struct held sevens. -/
def freeOne : List SayAct :=
  [.say (fun _ => 0) (.freeConnReq [65] [66]) (.replicate 20 7), .handlerWrite 0 (fun _ => .accepted 28) 1]

/-- Its frame arrives in two pieces. -/
def freeOneEvents : List CtlEvent := [⟨false, true, [.arrived 4, .arrived 9, .arrived 15], fun _ => 0⟩]

theorem proxy_round_trip_meta :
    ∃ body, (ProxyContent.proxyMetaSet [65] [66] [67]).build (.replicate 30 7) = some body ∧
      ∃ r, ProxyConnect.handleRead (fun _ => 0) false
          (encodeProxyMsg .little (.proxyMetaSet, body) ++ [1, 2]) (.replicate 1032 (.arrived 1)) =
            some r ∧ r.stream = [1, 2] := by
  have hmem : (List.replicate 30 (7 : UInt8)).length = ProxyMsgType.structSize .proxyMetaSet := rfl
  obtain ⟨body, hbuild, h⟩ := proxy_round_trip .little (c := .proxyMetaSet [65] [66] [67]) (by decide) hmem
  obtain ⟨hread, henough⟩ := h [1, 2] (fun _ => 0) false (.replicate 1032 (.arrived 1))
    (by intro a ha; rw [List.eq_of_mem_replicate ha]; decide)
  obtain ⟨r, hr⟩ := henough (by decide +kernel)
  exact ⟨body, hbuild, r, hr, (hread r hr).1⟩

end ProxySocket

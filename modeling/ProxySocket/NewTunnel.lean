/-
**A server makes a tunnel.**

`handleNewTunnelReq` draws an id, makes a `Tunnel` that listens on port 7777, enters it under the id into
the map of its control, and answers with the id and with the port and address that `getsockname` gives.
The map is entered with `emplace`, so an id that is there already keeps its tunnel; and the constructor of
`Tunnel` has no way to report that `sockt_bind_listen` failed.

Main definitions:

* `socktBindListen`, `getsockname`, `inetNtoa` — the socket of a tunnel, and its name;
* `TunnelServer`, `TunnelServer.handleNewTunnelReq` — the server with its tunnels;
* `AnsweredTruly` — what a response says is so.

Main results:

* `socktBindListen_cases` — a socket that listens, or no socket at all;
* `TunnelServer.Inv` — pointers in the maps are those of tunnels, and the sockets of tunnels are open;
* `answers_true_iff` — **when all responses are true**.
-/

import ProxySocket.Lts
import ProxySocket.TunnelMsg
import ProxySocket.UseCount

set_option relaxedAutoImplicit false
set_option autoImplicit false

namespace ProxySocket

open Function (update)

/-! ### Sockets -/

/-- A socket of the process. -/
inductive SocketState
  | unbound
  | bound (port : UInt16)
  | listening (port : UInt16)
deriving DecidableEq, Repr

/-- The sockets that are open, by their descriptors. -/
abbrev Sockets := ℕ → Option SocketState

/-- What the calls of `sockt_bind_listen` answer, where no value and false stand for `-1`. -/
structure ListenAnswers where
  socket : Option ℕ
  bind : Bool
  listen : Bool
deriving DecidableEq, Repr

/-- `socket(2)` gives a descriptor that is not open. -/
def ListenAnswers.Admissible (a : ListenAnswers) (k : Sockets) : Prop :=
  ∀ fd ∈ a.socket, k fd = none

instance ListenAnswers.decidableAdmissible (a : ListenAnswers) (k : Sockets) :
    Decidable (a.Admissible k) :=
  inferInstanceAs (Decidable (∀ fd ∈ a.socket, k fd = none))

/-- `sockt_bind_listen`, where no descriptor stands for `-1`. -/
def socktBindListen (k : Sockets) (port : ℤ) (a : ListenAnswers) : Option ℕ × Sockets :=
  if port < 0 ∨ port > 65535 then (none, k)
  else
    match a.socket with
    | none => (none, k)
    | some fd =>
        let sinPort := UInt16.ofNat port.toNat
        let k := update k fd (some .unbound)
        if a.bind = false then (none, update k fd none)
        else
          let k := update k fd (some (.bound sinPort))
          if a.listen = false then (none, update k fd none)
          else (some fd, update k fd (some (.listening sinPort)))

/-- A `sockaddr_in`, with its port in host order. -/
structure SockAddr where
  port : UInt16
  addr : Fin 4 → UInt8

/-- `getsockname(2)`: the name of an open socket.  Without one, the struct keeps what it held. -/
def getsockname (k : Sockets) (fd : Option ℕ) (held : SockAddr) : SockAddr :=
  match fd.bind k with
  | none => held
  | some .unbound => ⟨0, fun _ => 0⟩
  | some (.bound port) => ⟨port, fun _ => 0⟩
  | some (.listening port) => ⟨port, fun _ => 0⟩

/-- The decimal digits of a byte. -/
def decimal (b : UInt8) : Str :=
  let digit (n : ℕ) : UInt8 := UInt8.ofNat (48 + n)
  if b.toNat < 10 then [digit b.toNat]
  else if b.toNat < 100 then [digit (b.toNat / 10), digit (b.toNat % 10)]
  else [digit (b.toNat / 100), digit (b.toNat / 10 % 10), digit (b.toNat % 10)]

/-- `inet_ntoa`. -/
def inetNtoa (addr : Fin 4 → UInt8) : Str :=
  decimal (addr 0) ++ [46] ++ decimal (addr 1) ++ [46] ++ decimal (addr 2) ++ [46] ++ decimal (addr 3)

/-- `random_str`: a digit or a capital letter for each number that is drawn. -/
def randomStr {len : ℕ} (random : Fin len → ℕ) : Str :=
  List.ofFn fun i =>
    let temp := random i % 36
    if temp < 10 then UInt8.ofNat (temp + 48) else UInt8.ofNat (temp - 10 + 65)

/-! ### The server -/

/-- A `Tunnel` of the server. -/
structure ServerTunnel (κ : Type) where
  tunId : Str
  listenFd : Option ℕ
  listenAddr : Str
  listenPort : UInt16
  ctl : κ

/-- The constructor of `Tunnel`. -/
def ServerTunnel.new {κ : Type} (k : Sockets) (tunnelId : Str) (ctl : κ) (a : ListenAnswers)
    (held : SockAddr) : ServerTunnel κ × Sockets :=
  let (listenFd, k) := socktBindListen k 7777 a
  let listenAddr := getsockname k listenFd held
  ({ tunId := tunnelId
     listenFd := listenFd
     listenAddr := inetNtoa listenAddr.addr
     listenPort := listenAddr.port
     ctl := ctl }, k)

/-- The server, whose controls are `κ`.  A pointer to a tunnel is its number in the order of creation. -/
structure TunnelServer (κ : Type) where
  tunnelMap : κ → ConnMap Str ℕ := fun _ => ∅
  tunnels : List (ServerTunnel κ) := []
  sockets : Sockets := fun _ => none

/-- A `NewTunnelReq` at a control, and what the calls of its handler find. -/
structure NewTunnelCall (κ : Type) where
  control : κ
  req : Vector UInt8 NewTunnelReqMsg.size
  random : Fin 5 → ℕ
  listen : ListenAnswers
  /-- what the memory of `listenAddr` holds -/
  held : SockAddr
  /-- what the memory of `rsp_msg` holds -/
  rspMem : Vector UInt8 NewTunnelRspMsg.size
  /-- the output buffer takes the response -/
  taken : Bool

variable {κ : Type} [DecidableEq κ]

namespace TunnelServer

/-- `Control::handleNewTunnelReq`, with the response that it sends. -/
def handleNewTunnelReq (e : Endian) (s : TunnelServer κ) (c : NewTunnelCall κ) :
    Option (TunnelServer κ × Option (List UInt8)) :=
  let randId := randomStr c.random
  let (tunnel, sockets) := ServerTunnel.new s.sockets randId c.control c.listen c.held
  let s' : TunnelServer κ :=
    { tunnelMap := update s.tunnelMap c.control
        ((s.tunnelMap c.control).add randId s.tunnels.length)
      tunnels := s.tunnels ++ [tunnel]
      sockets := sockets }
  (NewTunnelRspMsg.build e c.rspMem.toList c.req.toList tunnel.listenPort.toNat randId
    tunnel.listenAddr).map fun rsp => (s', if c.taken then some rsp else none)

/-- One request. -/
def step (e : Endian) (s : TunnelServer κ) (c : NewTunnelCall κ) : Option (TunnelServer κ) :=
  if c.listen.Admissible s.sockets then (s.handleNewTunnelReq e c).map Prod.fst else none

end TunnelServer

/-- The requests to a new server. -/
def newTunnelLts (e : Endian) (κ : Type) [DecidableEq κ] : Lts (TunnelServer κ) (NewTunnelCall κ) where
  init := {}
  step := TunnelServer.step e

/-- What a response says is so: the control has the tunnel just made under the id, and this tunnel has a
socket of its own that listens on the port. -/
structure RspTrue (e : Endian) (s s' : TunnelServer κ) (control : κ) (rsp : List UInt8) : Prop where
  named : ∃ id, cstr rsp NewTunnelRspMsg.tunnelId.off = some id ∧
    AList.lookup id (s'.tunnelMap control) = some s.tunnels.length
  listens : ∃ tunnel fd port, s'.tunnels[s.tunnels.length]? = some tunnel ∧
    tunnel.listenFd = some fd ∧ s'.sockets fd = some (.listening port) ∧
    port.toNat = NewTunnelRspMsg.proxyServerPort.u32 e rsp ∧
    ∀ other ∈ s.tunnels, other.listenFd ≠ some fd

/-- The ids of earlier tunnels keep them. -/
def KeepsIds (s s' : TunnelServer κ) : Prop :=
  ∀ control id t, AList.lookup id (s.tunnelMap control) = some t →
    AList.lookup id (s'.tunnelMap control) = some t

/-- A response that is sent is true, and earlier tunnels keep their ids. -/
def AnsweredTruly (e : Endian) (s : TunnelServer κ) (c : NewTunnelCall κ) : Prop :=
  c.listen.Admissible s.sockets → ∀ s' rsp, s.handleNewTunnelReq e c = some (s', rsp) →
    KeepsIds s s' ∧ ∀ r ∈ rsp, RspTrue e s s' c.control r

/-- A response is sent: the buffer takes it, and the host of the request ends in the request. -/
def NewTunnelCall.Sends (c : NewTunnelCall κ) : Prop := c.taken = true ∧ 0 ∈ c.req.toList

/-- When a response is sent, the id is new in the map of the control, and `socket`, `bind` and `listen`
succeed. -/
def FreshAndListening (s : TunnelServer κ) (c : NewTunnelCall κ) : Prop :=
  c.listen.Admissible s.sockets → c.Sends →
    AList.lookup (randomStr c.random) (s.tunnelMap c.control) = none ∧
      c.listen.socket.isSome ∧ c.listen.bind = true ∧ c.listen.listen = true

/-! ### What the calls give -/

theorem length_decimal_le (b : UInt8) : (decimal b).length ≤ 3 := by
  unfold decimal
  dsimp only
  split
  · exact Nat.le_of_ble_eq_true rfl
  · split <;> exact Nat.le_of_ble_eq_true rfl

/-- An address fits its field of a response. -/
theorem takes_inetNtoa (addr : Fin 4 → UInt8) :
    NewTunnelRspMsg.proxyServerHost.Takes (inetNtoa addr) := by
  have h₀ := length_decimal_le (addr 0)
  have h₁ := length_decimal_le (addr 1)
  have h₂ := length_decimal_le (addr 2)
  have h₃ := length_decimal_le (addr 3)
  simp only [Field.Takes, inetNtoa, List.length_append, List.length_singleton,
    NewTunnelRspMsg.proxyServerHost]
  omega

/-- An address has no terminator in it. -/
theorem zero_notMem_inetNtoa (addr : Fin 4 → UInt8) : 0 ∉ inetNtoa addr := by
  have hdigit : ∀ n < 10, (0 : UInt8) ≠ UInt8.ofNat (48 + n) := by decide
  have hdecimal : ∀ b, 0 ∉ decimal b := by
    intro b
    have hb := b.toNat_lt
    unfold decimal
    dsimp only
    split
    · rename_i h
      exact List.not_mem_cons_of_ne_of_not_mem (hdigit _ h) List.not_mem_nil
    · split
      · exact List.not_mem_cons_of_ne_of_not_mem (hdigit _ (by omega))
          (List.not_mem_cons_of_ne_of_not_mem (hdigit _ (by omega)) List.not_mem_nil)
      · exact List.not_mem_cons_of_ne_of_not_mem (hdigit _ (by omega))
          (List.not_mem_cons_of_ne_of_not_mem (hdigit _ (by omega))
            (List.not_mem_cons_of_ne_of_not_mem (hdigit _ (by omega)) List.not_mem_nil))
  simp only [inetNtoa, List.mem_append, List.mem_singleton, not_or]
  have hdot : (0 : UInt8) ≠ 46 := by decide
  exact ⟨⟨⟨⟨⟨⟨hdecimal _, hdot⟩, hdecimal _⟩, hdot⟩, hdecimal _⟩, hdot⟩, hdecimal _⟩

theorem length_randomStr {len : ℕ} (random : Fin len → ℕ) : (randomStr random).length = len :=
  List.length_ofFn

/-- An id fits its field of a response. -/
theorem takes_randomStr (random : Fin 5 → ℕ) : NewTunnelRspMsg.tunnelId.Takes (randomStr random) := by
  rw [Field.Takes, length_randomStr]
  decide

/-- An id has no terminator in it. -/
theorem zero_notMem_randomStr {len : ℕ} (random : Fin len → ℕ) : 0 ∉ randomStr random := by
  intro h
  obtain ⟨i, hi⟩ := List.mem_ofFn.1 h
  have hlt : random i % 36 < 36 := Nat.mod_lt _ (by decide)
  generalize random i % 36 = temp at hi hlt
  have hall : ∀ t < 36, (if t < 10 then UInt8.ofNat (t + 48) else UInt8.ofNat (t - 10 + 65)) ≠ 0 := by
    decide
  exact hall temp hlt hi

/-- **The socket of a tunnel**: one that listens on the port, or none. -/
theorem socktBindListen_cases {k : Sockets} {a : ListenAnswers} (h : a.Admissible k) :
    (∃ fd, a.socket = some fd ∧ k fd = none ∧ a.bind = true ∧ a.listen = true ∧
      socktBindListen k 7777 a = (some fd, update k fd (some (.listening 7777)))) ∨
    (¬ (a.socket.isSome ∧ a.bind = true ∧ a.listen = true) ∧ socktBindListen k 7777 a = (none, k)) := by
  have hport : ¬ ((7777 : ℤ) < 0 ∨ (7777 : ℤ) > 65535) := by decide
  obtain ⟨socket, bind, listen⟩ := a
  cases socket with
  | none =>
      refine .inr ⟨by simp, ?_⟩
      rw [socktBindListen, if_neg hport]
  | some fd =>
      have hfd : k fd = none := h fd rfl
      -- a socket that is closed again leaves the descriptors as they were
      have hclose : ∀ x, update (update k fd x) fd none = k := by
        intro x
        rw [Function.update_idem, ← hfd, Function.update_eq_self]
      rw [socktBindListen, if_neg hport]
      dsimp only
      cases bind with
      | false => exact .inr ⟨by simp, by rw [if_pos rfl, hclose]⟩
      | true =>
          rw [if_neg (by decide), Function.update_idem]
          cases listen with
          | false => exact .inr ⟨by simp, by rw [if_pos rfl, hclose]⟩
          | true =>
              refine .inl ⟨fd, rfl, hfd, rfl, rfl, ?_⟩
              rw [if_neg (by decide), Function.update_idem, Function.update_idem]
              rfl

/-! ### One request -/

section Request

variable {e : Endian} {s s' : TunnelServer κ} {c : NewTunnelCall κ} {rsp : Option (List UInt8)}

/-- **What a server that handled a request looks like.** -/
theorem TunnelServer.handle_eq_some (h : s.handleNewTunnelReq e c = some (s', rsp)) :
    ∃ r, rsp = (if c.taken then some r else none) ∧
      s'.tunnelMap = update s.tunnelMap c.control
        ((s.tunnelMap c.control).add (randomStr c.random) s.tunnels.length) ∧
      ∃ tunnel, ServerTunnel.new s.sockets (randomStr c.random) c.control c.listen c.held =
          (tunnel, s'.sockets) ∧
        s'.tunnels = s.tunnels ++ [tunnel] ∧
        NewTunnelRspMsg.build e c.rspMem.toList c.req.toList tunnel.listenPort.toNat
          (randomStr c.random) tunnel.listenAddr = some r := by
  obtain ⟨r, hbuild, heq⟩ := Option.map_eq_some_iff.1 h
  cases heq
  exact ⟨r, rfl, rfl, _, rfl, rfl, hbuild⟩

/-- A response is built when the host of the request ends in it. -/
theorem TunnelServer.exists_handle (h : 0 ∈ c.req.toList) :
    ∃ s' rsp, s.handleNewTunnelReq e c = some (s', rsp) := by
  obtain ⟨host, hhost⟩ : ∃ host, cstr c.req.toList 0 = some host :=
    Option.isSome_iff_exists.1 (isSome_cstr.2 h)
  have hlen : host.length < 24 := by
    have hlt := (cstr_spec hhost).2
    rw [List.drop_zero, Vector.length_toList] at hlt
    exact hlt
  obtain ⟨rsp, hrsp, -⟩ := NewTunnelRspMsg.exists_build (e := e)
    (show c.rspMem.toList.length = _ from Vector.length_toList)
    (takes_randomStr c.random) (takes_inetNtoa _) hhost
    (show 18 + host.length + 1 ≤ 60 by omega)
  exact ⟨_, _, Option.map_eq_some_iff.2 ⟨rsp, hrsp, rfl⟩⟩

/-- The host of a request that was handled ends in it. -/
theorem TunnelServer.zero_mem_of_handle (h : s.handleNewTunnelReq e c = some (s', rsp)) :
    0 ∈ c.req.toList := by
  obtain ⟨r, -, -, tunnel, -, -, hbuild⟩ := handle_eq_some h
  obtain ⟨-, -, host, -, -, hhost, -⟩ := NewTunnelRspMsg.build_eq_some hbuild
  exact isSome_cstr.1 (by rw [hhost]; rfl)

omit [DecidableEq κ] in
/-- **The new tunnel** listens on port 7777 with a new socket, or has none. -/
theorem ServerTunnel.new_cases {k k' : Sockets} {id : Str} {ctl : κ} {a : ListenAnswers}
    {held : SockAddr} {tunnel : ServerTunnel κ} (ha : a.Admissible k)
    (h : ServerTunnel.new k id ctl a held = (tunnel, k')) :
    (∃ fd, a.socket = some fd ∧ k fd = none ∧ a.bind = true ∧ a.listen = true ∧
      tunnel.listenFd = some fd ∧ tunnel.listenPort = 7777 ∧
      k' = update k fd (some (.listening 7777))) ∨
    (¬ (a.socket.isSome ∧ a.bind = true ∧ a.listen = true) ∧ tunnel.listenFd = none ∧ k' = k) := by
  rcases socktBindListen_cases ha with ⟨fd, h₁, h₂, h₃, h₄, heq⟩ | ⟨hno, heq⟩
  · rw [ServerTunnel.new, heq] at h
    cases h
    refine .inl ⟨fd, h₁, h₂, h₃, h₄, rfl, ?_, rfl⟩
    simp only [getsockname, Option.bind_some, Function.update_self]
  · rw [ServerTunnel.new, heq] at h
    cases h
    exact .inr ⟨hno, rfl, rfl⟩

end Request

/-! ### The invariant -/

/-- **The invariant of the server**: the maps refer to tunnels, and the sockets of tunnels are open. -/
structure TunnelServer.Inv (s : TunnelServer κ) : Prop where
  made : ∀ control id t, AList.lookup id (s.tunnelMap control) = some t → t < s.tunnels.length
  opened : ∀ tunnel ∈ s.tunnels, ∀ fd, tunnel.listenFd = some fd → s.sockets fd ≠ none

namespace TunnelServer.Inv

variable {e : Endian} {s s' : TunnelServer κ} {c : NewTunnelCall κ} {rsp : Option (List UInt8)}

/-- **A request keeps the invariant.** -/
theorem handle (h : s.Inv) (ha : c.listen.Admissible s.sockets)
    (hs : s.handleNewTunnelReq e c = some (s', rsp)) : s'.Inv := by
  obtain ⟨r, -, hmap, tunnel, hnew, htunnels, -⟩ := handle_eq_some hs
  refine ⟨fun control id t hl => ?_, fun tunnel' hmem fd hfd => ?_⟩
  · rw [htunnels, List.length_append, List.length_singleton]
    rw [hmap] at hl
    by_cases hc : control = c.control
    · rw [hc, Function.update_self, ConnMap.lookup_add] at hl
      split at hl
      · rw [← Option.some.inj hl]
        exact Nat.lt_succ_self _
      · exact Nat.lt_succ_of_lt (h.made _ _ _ hl)
    · rw [Function.update_of_ne hc] at hl
      exact Nat.lt_succ_of_lt (h.made _ _ _ hl)
  · rw [htunnels] at hmem
    rcases List.mem_append.1 hmem with hold | hlast
    · have hopen := h.opened _ hold fd hfd
      rcases ServerTunnel.new_cases ha hnew with ⟨fd', -, hfree, -, -, -, -, hk⟩ | ⟨-, -, hk⟩
      · have hne : fd ≠ fd' := fun heq => hopen (heq ▸ hfree)
        rw [hk, Function.update_of_ne hne]
        exact hopen
      · rw [hk]
        exact hopen
    · obtain rfl := List.mem_singleton.1 hlast
      rcases ServerTunnel.new_cases ha hnew with ⟨fd', -, -, -, -, hfd', -, hk⟩ | ⟨-, hno, -⟩
      · obtain rfl := Option.some.inj (hfd.symm.trans hfd')
        rw [hk, Function.update_self]
        exact Option.some_ne_none _
      · rw [hno] at hfd
        cases hfd

theorem init : (newTunnelLts e κ).init.Inv :=
  ⟨fun _ _ _ h => (by cases h), fun _ h => absurd h List.not_mem_nil⟩

theorem step (h : s.Inv) (hs : s.step e c = some s') : s'.Inv := by
  obtain ⟨ha, hs⟩ := Option.ite_none_right_eq_some.1 hs
  obtain ⟨⟨s₁, rsp⟩, hs', rfl⟩ := Option.map_eq_some_iff.1 hs
  exact h.handle ha hs'

end TunnelServer.Inv

/-! ### Runs -/

section Runs

variable {e : Endian} {s s' : TunnelServer κ} {c : NewTunnelCall κ} {rsp : Option (List UInt8)}

/-- **No request changes the tunnel of an id.** -/
theorem keepsIds (hs : s.handleNewTunnelReq e c = some (s', rsp)) : KeepsIds s s' := by
  obtain ⟨-, -, hmap, -⟩ := TunnelServer.handle_eq_some hs
  intro control id t hl
  rw [hmap]
  by_cases hc : control = c.control
  · subst hc
    rw [Function.update_self, ConnMap.lookup_add, if_neg, hl]
    rintro ⟨rfl, hnone⟩
    rw [hnone] at hl
    cases hl
  · rw [Function.update_of_ne hc, hl]

omit [DecidableEq κ] in
/-- The id of a response is the one that was drawn. -/
theorem cstr_tunnelId {r : List UInt8} {port : UInt16} {addr : Str}
    (h : NewTunnelRspMsg.build e c.rspMem.toList c.req.toList port.toNat (randomStr c.random) addr =
      some r) :
    NewTunnelRspMsg.proxyServerPort.u32 e r = port.toNat ∧
      cstr r NewTunnelRspMsg.tunnelId.off = some (randomStr c.random) := by
  have hport := port.toNat_lt
  obtain ⟨h₁, -, h₃⟩ := NewTunnelRspMsg.build_front Vector.length_toList Vector.length_toList
    (show port.toNat < 2 ^ 32 by omega) (takes_randomStr c.random) h
  exact ⟨h₁, h₃.cstr (zero_notMem_randomStr c.random)⟩

/-- **When a response is true.** -/
theorem rspTrue_iff (h : s.Inv) (ha : c.listen.Admissible s.sockets)
    (hs : s.handleNewTunnelReq e c = some (s', rsp)) (ht : c.taken = true) :
    (∀ r ∈ rsp, RspTrue e s s' c.control r) ↔
      AList.lookup (randomStr c.random) (s.tunnelMap c.control) = none ∧
        c.listen.socket.isSome ∧ c.listen.bind = true ∧ c.listen.listen = true := by
  obtain ⟨r, rfl, hmap, tunnel, hnew, htunnels, hbuild⟩ := TunnelServer.handle_eq_some hs
  obtain ⟨hport, hid⟩ := cstr_tunnelId hbuild
  have hlast : s'.tunnels[s.tunnels.length]? = some tunnel := by
    rw [htunnels, List.getElem?_append_right (Nat.le_refl _), Nat.sub_self]
    rfl
  rw [if_pos ht]
  constructor
  · intro htrue
    obtain ⟨⟨id, hid', hl⟩, ⟨tunnel', fd, port, htunnel', hfd, -⟩⟩ := htrue r rfl
    obtain rfl := Option.some.inj (hid.symm.trans hid')
    obtain rfl := Option.some.inj (hlast.symm.trans htunnel')
    constructor
    · -- an id that was there has an earlier tunnel
      by_contra hold
      rw [hmap, Function.update_self, ConnMap.lookup_add, if_neg (fun h => hold h.2)] at hl
      exact Nat.lt_irrefl _ (h.made _ _ _ hl)
    · rcases ServerTunnel.new_cases ha hnew with ⟨fd', hsock, -, hbind, hlisten, -⟩ | ⟨-, hno, -⟩
      · exact ⟨by rw [hsock]; rfl, hbind, hlisten⟩
      · rw [hno] at hfd
        cases hfd
  · rintro ⟨hfresh, hok⟩ r' hr'
    obtain rfl := Option.some.inj hr'
    rcases ServerTunnel.new_cases ha hnew with ⟨fd, -, hfree, -, -, hfd, hlp, hk⟩ | ⟨hno, -⟩
    · refine ⟨⟨_, hid, ?_⟩, tunnel, fd, 7777, hlast, hfd, ?_, ?_, ?_⟩
      · rw [hmap, Function.update_self, ConnMap.lookup_add, if_pos ⟨rfl, hfresh⟩]
      · rw [hk, Function.update_self]
      · rw [hport, hlp]
      · exact fun other hother hfd' => h.opened other hother fd hfd' hfree
    · exact absurd hok hno

/-- **When a request is answered truly**, in a state that keeps the invariant. -/
theorem answeredTruly_iff (h : s.Inv) : AnsweredTruly e s c ↔ FreshAndListening s c := by
  constructor
  · rintro htrue ha ⟨ht, hhost⟩
    obtain ⟨s', rsp, hs⟩ := TunnelServer.exists_handle (e := e) (s := s) hhost
    exact (rspTrue_iff h ha hs ht).1 (htrue ha s' rsp hs).2
  · intro hfresh ha s' rsp hs
    refine ⟨keepsIds hs, ?_⟩
    cases ht : c.taken with
    | false =>
        obtain ⟨r, rfl, -⟩ := TunnelServer.handle_eq_some hs
        rw [ht]
        intro r' hr'
        cases hr'
    | true =>
        exact (rspTrue_iff h ha hs ht).2 (hfresh ha ⟨ht, TunnelServer.zero_mem_of_handle hs⟩)

end Runs

/-- **When all responses are true.**  In every sequence of requests at any controls, every response that is
sent names the tunnel just made and its own listening socket, and ids keep their tunnels, exactly when each
response that is sent is for an id that is new in the map of its control, and for a tunnel whose `socket`,
`bind` and `listen` succeed. -/
theorem answers_true_iff (e : Endian) (cs : List (NewTunnelCall κ)) :
    (newTunnelLts e κ).AllSteps (AnsweredTruly e) (newTunnelLts e κ).init cs ↔
      (newTunnelLts e κ).AllSteps FreshAndListening (newTunnelLts e κ).init cs := by
  have hrun : ∀ {s : TunnelServer κ}, s.Inv →
      ((newTunnelLts e κ).AllSteps (AnsweredTruly e) s cs ↔
        (newTunnelLts e κ).AllSteps FreshAndListening s cs) := by
    induction cs with
    | nil => exact fun _ => Iff.rfl
    | cons c cs ih =>
        intro s h
        refine and_congr (answeredTruly_iff h) (forall_congr' fun s' => ?_)
        exact forall_congr' fun hs => ih (h.step hs)
  exact hrun .init

/-- A request for which `bind` fails. -/
def bindFails : NewTunnelCall ℕ where
  control := 0
  req := .replicate _ 0
  random _ := 0
  listen := ⟨some 5, false, true⟩
  held := ⟨0, fun _ => 0⟩
  rspMem := .replicate _ 0
  taken := true

/-- When `bind` fails, the response names a port on which no socket listens. -/
theorem not_answers_true : ¬ ∀ (e : Endian) (cs : List (NewTunnelCall ℕ)),
    (newTunnelLts e ℕ).AllSteps (AnsweredTruly e) (newTunnelLts e ℕ).init cs := by
  intro hall
  have htrue := (hall .little [bindFails]).1
  obtain ⟨-, -, hbind, -⟩ := (answeredTruly_iff .init).1 htrue (fun _ _ => rfl) ⟨rfl, by decide⟩
  cases hbind

end ProxySocket

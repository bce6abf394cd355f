/-
**From a notification to its tunnel.**

A client introduces itself, gets the id of its control, asks for a tunnel and gets the tunnel's id.  A
notification makes it open a proxy connection and send both ids, with which `Server::claimProxyConn`
finds the control and then the tunnel.  `claimProxyConn` runs on the threads of proxy connections, the
handlers of controls run on the main loop and `notifyClientNeedProxy` on the thread of public listeners.
They share `control_map_`, from which the end of a control connection takes the control.

Each call on a shared map is a step of its own here, as is each message sent and received.  Messages of
one control connection arrive in order, and a full output buffer loses what it does not take.  Controls,
and their clients, are the numbers of their control connections in the order of acceptance.

Main definitions:

* `Claim`, `Routing` — a call of `claimProxyConn`, and the server with its clients;
* `Routing.step`, `routingLts` — the handlers and the threads, step by step;
* `Routing.Listed` — the map has the control of a client;
* `Claim.OnItsWay` — a call has found nothing but what its client named.

Main results:

* `Grows.claimOk` — a step that takes no control or tunnel away spoils no call;
* `RoutingInv.step` — **one step keeps the invariant**;
* `claims_routed` — **a proxy connection comes to the tunnel that asked for it as long as its control is
  in the map, and otherwise at worst to a tunnel with the same two ids**.
-/

import ProxySocket.Lts
import ProxySocket.NewTunnel

set_option relaxedAutoImplicit false
set_option autoImplicit false

namespace ProxySocket

open Function (update)

/-! ### Clients, controls and calls -/

/-- What a client sends on its control connection. -/
inductive UpMsg
  | newRequest
  | newTunnelReq
deriving DecidableEq

/-- What a control sends to its client. -/
inductive DownMsg
  | newResponse (ctlId : Str)
  | newTunnelRsp (tunId : Str)
  | notifyClient (tunId : Str)
deriving DecidableEq

/-- The answer to a client's introduction. -/
def DownMsg.isResponse : DownMsg → Bool
  | .newResponse _ => true
  | .newTunnelRsp _ | .notifyClient _ => false

/-- Where the main loop stands in the handlers that take more than one step. -/
inductive MainPc
  | idle
  /-- in `newCtlConnHandler`, with an id that `control_map_` did not have -/
  | drawn (ctlId : Str)
  /-- in `handleNewTunnelReq`, before `addtoTunnel` -/
  | built (t : ℕ)
  /-- in `handleNewTunnelReq`, before `SendMsg` -/
  | added (t : ℕ)
deriving DecidableEq

/-- Where a proxy connection stands in `Server::claimProxyConn`. -/
inductive ClaimPc
  /-- before `control_map_.find` -/
  | sent
  /-- before `control_map_[ctl_id]` -/
  | found
  /-- before `isExist`, with `ctl`, which may be empty -/
  | holds (ctl : Option ℕ)
  /-- before `get`, with `ctl` -/
  | checked (ctl : ℕ)
  /-- `tun->claimProxyConn` -/
  | claimed (t : ℕ)
  /-- the control is not exist -/
  | noControl
  /-- the tunnel is not exist -/
  | noTunnel
  /-- a member of an empty pointer was used -/
  | fault
deriving DecidableEq

/-- A proxy connection with its `ProxyMetaSet`. -/
structure Claim where
  /-- the client that opened it -/
  opener : ℕ
  ctlId : Str
  tunId : Str
  pc : ClaimPc := .sent
deriving DecidableEq

/-- A server, its clients and what is on its way between them. -/
structure Routing where
  main : MainPc := .idle
  /-- the ids of the controls -/
  ctlIds : List Str := []
  controlMap : ConnMap Str (Option ℕ) := ∅
  /-- the tunnels, with their controls and ids -/
  tunnels : List (ℕ × Str) := []
  tunnelMap : ℕ → ConnMap Str ℕ := fun _ => ∅
  up : ℕ → List UpMsg := fun _ => []
  down : ℕ → List DownMsg := fun _ => []
  /-- `client_id_` of the clients, and the keys of their `tunnel_map_` -/
  clientId : ℕ → Str := fun _ => []
  clientTunnels : ℕ → List Str := fun _ => []
  claims : List Claim := []
  crashed : Bool := false

/-- A step, with what is drawn and whether an output buffer takes the message. -/
inductive RouteAct
  /-- `newCtlConnHandler`: an id, and `control_map_.find` -/
  | drawCtlId (random : Fin 5 → ℕ)
  /-- `newCtlConnHandler`: the control, and `control_map_.emplace` -/
  | newControl
  /-- `Control::handleNewCtlReq` -/
  | handleNewCtlReq (j : ℕ) (taken : Bool)
  /-- `Control::handleNewTunnelReq`: the tunnel, which listens from now on -/
  | handleNewTunnelReq (j : ℕ) (random : Fin 5 → ℕ)
  /-- `Control::handleNewTunnelReq`: `addtoTunnel` -/
  | addtoTunnel
  /-- `Control::handleNewTunnelReq`: the response -/
  | sendNewTunnelRsp (taken : Bool)
  /-- `Control::handleCtlConnClose` -/
  | handleCtlConnClose (j : ℕ)
  /-- `Control::notifyClientNeedProxy` for a public connection of a tunnel -/
  | notifyClientNeedProxy (t : ℕ) (taken : Bool)
  /-- `Client::handleNewCtlRsp`, with the request for a tunnel -/
  | handleNewCtlRsp (j : ℕ) (taken : Bool)
  /-- `Client::handleNewTunnelRsp` -/
  | handleNewTunnelRsp (j : ℕ)
  /-- `Client::handleProxyNotify`, with the connection and its `ProxyMetaSet` -/
  | handleProxyNotify (j : ℕ)
  /-- the next step in `Server::claimProxyConn` -/
  | claimProxyConn (p : ℕ)

namespace Routing

variable (s : Routing)

/-! ### The steps -/

/-- The call for the proxy connection `p` goes on at `pc`. -/
def setPc (p : ℕ) (c : Claim) (pc : ClaimPc) : Routing :=
  { s with claims := s.claims.set p { c with pc := pc } }

/-- A member of an empty pointer is used. -/
def faults (p : ℕ) (c : Claim) : Routing := { s.setPc p c .fault with crashed := true }

/-- A message to the client `j`, if the output buffer takes it. -/
def sendDown (j : ℕ) (m : DownMsg) (taken : Bool) : Routing :=
  { s with down := update s.down j (s.down j ++ if taken then [m] else []) }

/-- `Server::claimProxyConn`: the next step of the call `c` for the connection `p`. -/
def claimStep (p : ℕ) (c : Claim) : Option Routing :=
  match c.pc with
  | .sent =>
      some (s.setPc p c (if AList.lookup c.ctlId s.controlMap = none then .noControl else .found))
  | .found =>
      match AList.lookup c.ctlId s.controlMap with
      | some ctl => some (s.setPc p c (.holds ctl))
      -- the entry is gone since `find`, and `operator[]` makes an empty one
      | none => some { s.setPc p c (.holds none) with
          controlMap := ConnMap.add s.controlMap c.ctlId none }
  | .holds none => some (s.faults p c)
  | .holds (some k) =>
      some (s.setPc p c
        (if AList.lookup c.tunId (s.tunnelMap k) = none then .noTunnel else .checked k))
  | .checked k =>
      match AList.lookup c.tunId (s.tunnelMap k) with
      | some t => some (s.setPc p c (.claimed t))
      | none => some (s.faults p c)
  | .claimed _ | .noControl | .noTunnel | .fault => none

/-- A step of a server that runs. -/
def stepLive : RouteAct → Option Routing
  | .drawCtlId random =>
      if s.main = .idle then
        let ctlId := randomStr random
        some (if AList.lookup ctlId s.controlMap = none then { s with main := .drawn ctlId } else s)
      else none
  | .newControl =>
      match s.main with
      | .drawn ctlId =>
          let j := s.ctlIds.length
          some { s with
            main := .idle
            ctlIds := s.ctlIds ++ [ctlId]
            controlMap := ConnMap.add s.controlMap ctlId (some j)
            -- the client has sent its `NewRequest`
            up := update s.up j [.newRequest] }
      | _ => none
  | .handleNewCtlReq j taken =>
      match s.main, s.up j, s.ctlIds[j]? with
      | .idle, .newRequest :: rest, some ctlId =>
          some { s.sendDown j (.newResponse ctlId) taken with up := update s.up j rest }
      | _, _, _ => none
  | .handleNewTunnelReq j random =>
      match s.main, s.up j with
      | .idle, .newTunnelReq :: rest =>
          some { s with
            main := .built s.tunnels.length
            tunnels := s.tunnels ++ [(j, randomStr random)]
            up := update s.up j rest }
      | _, _ => none
  | .addtoTunnel =>
      match s.main with
      | .built t => s.tunnels[t]?.map fun (j, tunId) =>
          { s with
            main := .added t
            tunnelMap := update s.tunnelMap j ((s.tunnelMap j).add tunId t) }
      | _ => none
  | .sendNewTunnelRsp taken =>
      match s.main with
      | .added t => s.tunnels[t]?.map fun (j, tunId) =>
          { s.sendDown j (.newTunnelRsp tunId) taken with main := .idle }
      | _ => none
  | .handleCtlConnClose j =>
      match s.main, s.ctlIds[j]? with
      | .idle, some ctlId => some { s with controlMap := AList.erase ctlId s.controlMap }
      | _, _ => none
  | .notifyClientNeedProxy t taken =>
      s.tunnels[t]?.map fun (j, tunId) => s.sendDown j (.notifyClient tunId) taken
  | .handleNewCtlRsp j taken =>
      match s.down j with
      | .newResponse ctlId :: rest =>
          some { s with
            down := update s.down j rest
            clientId := update s.clientId j ctlId
            up := update s.up j (s.up j ++ if taken then [.newTunnelReq] else []) }
      | _ => none
  | .handleNewTunnelRsp j =>
      match s.down j with
      | .newTunnelRsp tunId :: rest =>
          some { s with
            down := update s.down j rest
            clientTunnels := update s.clientTunnels j (tunId :: s.clientTunnels j) }
      | _ => none
  | .handleProxyNotify j =>
      match s.down j with
      | .notifyClient tunId :: rest =>
          let s := { s with down := update s.down j rest }
          some (if tunId ∈ s.clientTunnels j then
            { s with claims := s.claims ++ [⟨j, s.clientId j, tunId, .sent⟩] } else s)
      | _ => none
  | .claimProxyConn p => s.claims[p]?.bind (s.claimStep p)

/-- A step, unless the server has crashed. -/
def step (a : RouteAct) : Option Routing := if s.crashed then none else s.stepLive a

end Routing

/-- A server without clients. -/
def routingLts : Lts Routing RouteAct where
  init := {}
  step := Routing.step

/-! ### The invariant -/

namespace Routing

variable (s : Routing)

/-- `control_map_` has the control of the client `j` under its id. -/
def Listed (j : ℕ) : Prop :=
  ∃ ctlId, s.ctlIds[j]? = some ctlId ∧ AList.lookup ctlId s.controlMap = some (some j)

/-- The map of the control `k` has a tunnel under the id. -/
def Knows (k : ℕ) (tunId : Str) : Prop := ∃ t, AList.lookup tunId (s.tunnelMap k) = some t

/-- What is left of a client's introduction: the messages that lead to a tunnel, and the tunnel. -/
def tokens (j : ℕ) : ℕ :=
  (s.up j).length + (s.down j).countP DownMsg.isResponse +
    s.tunnels.countP (fun x => x.1 = j)

/-- What the main loop has made so far. -/
def MainOk : Prop :=
  match s.main with
  | .idle | .drawn _ | .built _ => True
  | .added t => ∀ j tunId, s.tunnels[t]? = some (j, tunId) → s.Knows j tunId

/-- What a message to the client `j` says is so. -/
def DownOk (j : ℕ) : DownMsg → Prop
  | .newResponse ctlId => s.ctlIds[j]? = some ctlId
  | .newTunnelRsp tunId => s.Knows j tunId
  | .notifyClient _ => True

end Routing

/-- The control `k` has the id that the client named, and is the client's own one as long as the map has
that. -/
structure Claim.Meets (c : Claim) (s : Routing) (k : ℕ) : Prop where
  sameId : s.ctlIds[k]? = some c.ctlId
  own : s.Listed c.opener → k = c.opener

/-- What a call has found so far. -/
def Claim.PcOk (c : Claim) (s : Routing) : Prop :=
  match c.pc with
  | .sent | .found => True
  | .holds (some k) => c.Meets s k
  | .checked k => c.Meets s k ∧ s.Knows k c.tunId
  | .claimed t => ∃ k, c.Meets s k ∧ s.tunnels[t]? = some (k, c.tunId)
  | .holds none | .noControl | .noTunnel | .fault => ¬ s.Listed c.opener

/-- A call names the control and a tunnel of the client that made the connection. -/
structure ClaimOk (s : Routing) (c : Claim) : Prop where
  ctlId : s.ctlIds[c.opener]? = some c.ctlId
  knows : s.Knows c.opener c.tunId
  pc : c.PcOk s

/-- **The invariant of the handlers.** -/
structure RoutingInv (s : Routing) : Prop where
  main : s.MainOk
  listed : ∀ ctlId j, AList.lookup ctlId s.controlMap = some (some j) → s.ctlIds[j]? = some ctlId
  asked : ∀ j, .newTunnelReq ∈ s.up j → s.ctlIds[j]? = some (s.clientId j)
  owned : ∀ x ∈ s.tunnels, s.ctlIds[x.1]? = some (s.clientId x.1)
  down : ∀ j, ∀ m ∈ s.down j, s.DownOk j m
  known : ∀ j, ∀ tunId ∈ s.clientTunnels j, s.Knows j tunId
  mapped : ∀ j tunId t, AList.lookup tunId (s.tunnelMap j) = some t → s.tunnels[t]? = some (j, tunId)
  claims : ∀ c ∈ s.claims, ClaimOk s c
  tokens : ∀ j, s.tokens j ≤ if j < s.ctlIds.length then 1 else 0

/-- **What only grows**: controls, tunnels and the maps of tunnels.  No control comes back into
`control_map_`. -/
structure Grows (s s' : Routing) : Prop where
  ctlIds : ∀ (j : ℕ) ctlId, s.ctlIds[j]? = some ctlId → s'.ctlIds[j]? = some ctlId
  tunnels : ∀ (t : ℕ) x, s.tunnels[t]? = some x → s'.tunnels[t]? = some x
  knows : ∀ j tunId, s.Knows j tunId → s'.Knows j tunId
  listed : ∀ (j : ℕ) ctlId, s.ctlIds[j]? = some ctlId → s'.Listed j → s.Listed j

section Grows

variable {s s' : Routing}

theorem Grows.of_eq (hids : s'.ctlIds = s.ctlIds) (htun : s'.tunnels = s.tunnels)
    (hmap : s'.tunnelMap = s.tunnelMap) (hctl : s'.controlMap = s.controlMap) : Grows s s' where
  ctlIds := fun _ _ hk => hids ▸ hk
  tunnels := fun _ _ ht => htun ▸ ht
  knows := fun _ _ ⟨t, hk⟩ => ⟨t, hmap ▸ hk⟩
  listed := fun _ _ _ ⟨id, hk, hl⟩ => ⟨id, hids ▸ hk, hctl ▸ hl⟩

theorem Grows.meets (h : Grows s s') {c : Claim} (hid : s.ctlIds[c.opener]? = some c.ctlId) {k : ℕ}
    (hc : c.Meets s k) : c.Meets s' k where
  sameId := h.ctlIds _ _ hc.sameId
  own := fun hl => hc.own (h.listed _ _ hid hl)

theorem Grows.claimOk (h : Grows s s') {c : Claim} (hc : ClaimOk s c) : ClaimOk s' c where
  ctlId := h.ctlIds _ _ hc.ctlId
  knows := h.knows _ _ hc.knows
  pc := by
    have hgone : ¬ s.Listed c.opener → ¬ s'.Listed c.opener :=
      fun hn hl => hn (h.listed _ _ hc.ctlId hl)
    have hpc := hc.pc
    unfold Claim.PcOk at hpc ⊢
    split at hpc
    · trivial
    · trivial
    · exact h.meets hc.ctlId hpc
    · exact ⟨h.meets hc.ctlId hpc.1, h.knows _ _ hpc.2⟩
    · obtain ⟨k, hk, ht⟩ := hpc
      exact ⟨k, h.meets hc.ctlId hk, h.tunnels _ _ ht⟩
    all_goals exact hgone hpc

theorem ClaimOk.of_eq (hids : s'.ctlIds = s.ctlIds) (htun : s'.tunnels = s.tunnels)
    (hmap : s'.tunnelMap = s.tunnelMap) (hctl : s'.controlMap = s.controlMap) {c : Claim}
    (hc : ClaimOk s c) : ClaimOk s' c :=
  (Grows.of_eq hids htun hmap hctl).claimOk hc

theorem Grows.downOk (h : Grows s s') {j : ℕ} {m : DownMsg} (hm : s.DownOk j m) : s'.DownOk j m := by
  cases m with
  | newResponse ctlId => exact h.ctlIds _ _ hm
  | newTunnelRsp tunId => exact h.knows _ _ hm
  | notifyClient tunId => trivial

end Grows

/-- What a list has at a place stays there when it gets longer. -/
theorem getElem?_append_of_eq_some {α : Type} {l : List α} {i : ℕ} {a : α} (h : l[i]? = some a)
    (l' : List α) : (l ++ l')[i]? = some a := by
  rw [List.getElem?_append_left (List.getElem?_eq_some_iff.1 h).1, h]

/-- When one element at most satisfies a condition, there is one place for it. -/
theorem eq_of_countP_le_one {α : Type} {p : α → Bool} {l : List α} (h : l.countP p ≤ 1) :
    ∀ {i j : ℕ} {a b : α}, l[i]? = some a → l[j]? = some b → p a = true → p b = true → i = j := by
  induction l with
  | nil => intro i j a b hi; cases hi
  | cons x l ih =>
      have hno : p x = true → ∀ {i : ℕ} {a : α}, l[i]? = some a → p a ≠ true := by
        intro hx i a hi ha
        rw [List.countP_cons_of_pos hx] at h
        have hpos := List.countP_pos_iff.2 ⟨a, List.mem_of_getElem? hi, ha⟩
        omega
      intro i j a b hi hj ha hb
      cases i with
      | zero =>
          cases j with
          | zero => rfl
          | succ j =>
              obtain rfl := Option.some.inj hi
              exact absurd hb (hno ha hj)
      | succ i =>
          cases j with
          | zero =>
              obtain rfl := Option.some.inj hj
              exact absurd ha (hno hb hi)
          | succ j =>
              have hl : l.countP p ≤ 1 := Nat.le_trans (List.sublist_cons_self x l).countP_le h
              rw [ih hl hi hj ha hb]

namespace RoutingInv

variable {s : Routing} (h : RoutingInv s)

theorem init : RoutingInv routingLts.init where
  main := trivial
  listed := fun _ _ hl => nomatch hl
  asked := fun _ hm => nomatch hm
  owned := fun _ hm => nomatch hm
  down := fun _ _ hm => nomatch hm
  known := fun _ _ hm => nomatch hm
  mapped := fun _ _ _ hl => nomatch hl
  claims := fun _ hm => nomatch hm
  tokens := fun _ => Nat.zero_le _

theorem tokens_of_eq {s' : Routing} {k : ℕ} (hup : s'.up k = s.up k) (hdown : s'.down k = s.down k)
    (htun : s'.tunnels = s.tunnels) : s'.tokens k = s.tokens k := by
  rw [Routing.tokens, Routing.tokens, hup, hdown, htun]

include h

theorem claims_of_eq {s' : Routing} (hids : s'.ctlIds = s.ctlIds) (htun : s'.tunnels = s.tunnels)
    (hmap : s'.tunnelMap = s.tunnelMap) (hctl : s'.controlMap = s.controlMap)
    (hclaims : s'.claims = s.claims) : ∀ c ∈ s'.claims, ClaimOk s' c := by
  rw [hclaims]
  exact fun c hc => (h.claims c hc).of_eq hids htun hmap hctl

/-! ### The handlers of the server -/

/-- The client of an accepted control has sent its request, and nothing else has happened to it. -/
theorem newControl (ctlId : Str) :
    RoutingInv { s with
      main := .idle
      ctlIds := s.ctlIds ++ [ctlId]
      controlMap := ConnMap.add s.controlMap ctlId (some s.ctlIds.length)
      up := update s.up s.ctlIds.length [.newRequest] } := by
  set j := s.ctlIds.length with hj
  have hlast : (s.ctlIds ++ [ctlId])[j]? = some ctlId := List.getElem?_concat_length
  have hold : ∀ {k : ℕ} {id : Str}, s.ctlIds[k]? = some id → (s.ctlIds ++ [ctlId])[k]? = some id :=
    fun hk => getElem?_append_of_eq_some hk _
  have hgrows : Grows s { s with
      main := .idle
      ctlIds := s.ctlIds ++ [ctlId]
      controlMap := ConnMap.add s.controlMap ctlId (some j)
      up := update s.up j [.newRequest] } :=
    { ctlIds := fun _ _ hk => hold hk
      tunnels := fun _ _ ht => ht
      knows := fun _ _ hk => hk
      listed := by
        rintro k id hk ⟨id', hk', hl⟩
        obtain rfl := Option.some.inj ((hold hk).symm.trans hk')
        refine ⟨id, hk, ?_⟩
        dsimp only at hl
        rw [ConnMap.lookup_add] at hl
        split at hl
        · -- the new entry is for the new control
          have hlt : k < j := (List.getElem?_eq_some_iff.1 hk).1
          simp only [Option.some.injEq] at hl
          omega
        · exact hl }
  constructor
  · trivial
  · intro id k hl
    dsimp only at hl
    rw [ConnMap.lookup_add] at hl
    split at hl
    · rename_i hid
      simp only [Option.some.injEq] at hl
      rw [← hl, hid.1]
      exact hlast
    · exact hold (h.listed id k hl)
  · intro k hk
    by_cases hkj : k = j
    · subst hkj
      simp only [Function.update_self, List.mem_singleton] at hk
      cases hk
    · simp only [Function.update_of_ne hkj] at hk
      exact hold (h.asked k hk)
  · exact fun x hx => hold (h.owned x hx)
  · exact fun k m hk => hgrows.downOk (h.down k m hk)
  · exact h.known
  · exact h.mapped
  · exact fun c hc => hgrows.claimOk (h.claims c hc)
  · intro k
    have hk := h.tokens k
    simp only [Routing.tokens, List.length_append, List.length_singleton] at hk ⊢
    by_cases hkj : k = j
    · subst hkj
      rw [if_neg (Nat.lt_irrefl _)] at hk
      rw [Function.update_self, List.length_singleton, if_pos (Nat.lt_succ_self _)]
      omega
    · rw [Function.update_of_ne hkj]
      split at hk
      · rw [if_pos (by omega)]
        exact hk
      · omega

omit h in
/-- What a client may get next. -/
theorem mem_sendDown {j k : ℕ} {m m' : DownMsg} {taken : Bool}
    (hm : m' ∈ (s.sendDown j m taken).down k) : m' ∈ s.down k ∨ k = j ∧ m' = m := by
  by_cases hk : k = j
  · subst hk
    simp only [Routing.sendDown, Function.update_self, List.mem_append] at hm
    rcases hm with hm | hm
    · exact .inl hm
    · split at hm
      · exact .inr ⟨rfl, List.mem_singleton.1 hm⟩
      · cases hm
  · simp only [Routing.sendDown, Function.update_of_ne hk] at hm
    exact .inl hm

theorem handleNewCtlReq {j : ℕ} {rest : List UpMsg} {ctlId : Str} {taken : Bool}
    (hup : s.up j = .newRequest :: rest) (hid : s.ctlIds[j]? = some ctlId) :
    RoutingInv { s.sendDown j (.newResponse ctlId) taken with up := update s.up j rest } where
  main := h.main
  listed := h.listed
  owned := h.owned
  known := h.known
  mapped := h.mapped
  claims := h.claims_of_eq rfl rfl rfl rfl rfl
  asked := by
    intro k hk
    refine h.asked k ?_
    by_cases hkj : k = j
    · subst hkj
      simp only [Function.update_self] at hk
      rw [hup]
      exact List.mem_cons_of_mem _ hk
    · simpa only [Function.update_of_ne hkj] using hk
  down := by
    intro k m hk
    rcases mem_sendDown hk with hold | ⟨rfl, rfl⟩
    · exact h.down k m hold
    · exact hid
  tokens := by
    intro k
    have hk := h.tokens k
    by_cases hkj : k = j
    · subst hkj
      simp only [Routing.tokens, hup, List.length_cons] at hk
      -- one message less one way, and at most one more the other way
      have hsent : (if taken then [DownMsg.newResponse ctlId] else []).countP DownMsg.isResponse ≤ 1 := by
        cases taken
        · exact Nat.zero_le 1
        · exact Nat.le_refl 1
      simp only [Routing.tokens, Routing.sendDown, Function.update_self, List.countP_append]
      exact Nat.le_trans (by omega) hk
    · exact Nat.le_trans (Nat.le_of_eq (tokens_of_eq (Function.update_of_ne hkj _ _)
        (Function.update_of_ne hkj _ _) rfl)) hk

/-- The tunnel is new, and the request for it is done. -/
theorem handleNewTunnelReq {j : ℕ} {rest : List UpMsg} (tunId : Str)
    (hup : s.up j = .newTunnelReq :: rest) :
    RoutingInv { s with
      main := .built s.tunnels.length
      tunnels := s.tunnels ++ [(j, tunId)]
      up := update s.up j rest } := by
  have hj : s.ctlIds[j]? = some (s.clientId j) := h.asked j (by rw [hup]; exact List.mem_cons_self)
  have hgrows : Grows s { s with
      main := .built s.tunnels.length
      tunnels := s.tunnels ++ [(j, tunId)]
      up := update s.up j rest } :=
    { ctlIds := fun _ _ hk => hk
      tunnels := fun _ _ ht => getElem?_append_of_eq_some ht _
      knows := fun _ _ hk => hk
      listed := fun _ _ _ hl => hl }
  constructor
  · trivial
  · exact h.listed
  · intro k hk
    refine h.asked k ?_
    by_cases hkj : k = j
    · subst hkj
      simp only [Function.update_self] at hk
      rw [hup]
      exact List.mem_cons_of_mem _ hk
    · simpa only [Function.update_of_ne hkj] using hk
  · intro x hx
    rcases List.mem_append.1 hx with hx | hx
    · exact h.owned x hx
    · rw [List.mem_singleton.1 hx]
      exact hj
  · exact h.down
  · exact h.known
  · exact fun k id t hl => getElem?_append_of_eq_some (h.mapped k id t hl) _
  · exact fun c hc => hgrows.claimOk (h.claims c hc)
  · intro k
    have hk := h.tokens k
    by_cases hkj : k = j
    · subst hkj
      simp only [Routing.tokens, hup, List.length_cons] at hk
      simp only [Routing.tokens, Function.update_self, List.countP_append, List.countP_singleton,
        decide_true, if_true]
      exact Nat.le_trans (by omega) hk
    · have hne : decide (j = k) = false := decide_eq_false (Ne.symm hkj)
      simpa only [Routing.tokens, Function.update_of_ne hkj, List.countP_append,
        List.countP_singleton, hne, Bool.false_eq_true, if_false, Nat.add_zero] using hk

/-- The map of the control has the tunnel, or an earlier one with its id. -/
theorem addtoTunnel {t j : ℕ} {tunId : Str} (ht : s.tunnels[t]? = some (j, tunId)) :
    RoutingInv { s with
      main := .added t
      tunnelMap := update s.tunnelMap j ((s.tunnelMap j).add tunId t) } := by
  have hlookup : ∀ k id, AList.lookup id (update s.tunnelMap j ((s.tunnelMap j).add tunId t) k) =
      if k = j ∧ id = tunId ∧ AList.lookup tunId (s.tunnelMap j) = none then some t
      else AList.lookup id (s.tunnelMap k) := by
    intro k id
    by_cases hk : k = j
    · subst hk
      simp only [Function.update_self, ConnMap.lookup_add, true_and]
    · rw [Function.update_of_ne hk, if_neg (fun hc => hk hc.1)]
  have hgrows : Grows s { s with
      main := .added t
      tunnelMap := update s.tunnelMap j ((s.tunnelMap j).add tunId t) } :=
    { ctlIds := fun _ _ hk => hk
      tunnels := fun _ _ ht => ht
      knows := by
        rintro k id ⟨t', hk⟩
        refine ⟨t', ?_⟩
        dsimp only
        rw [hlookup, if_neg, hk]
        rintro ⟨rfl, rfl, hnone⟩
        rw [hnone] at hk
        cases hk
      listed := fun _ _ _ hl => hl }
  constructor
  · intro k id hk
    obtain ⟨rfl, rfl⟩ : j = k ∧ tunId = id := by
      simpa using Option.some.inj (ht.symm.trans hk)
    cases hold : AList.lookup tunId (s.tunnelMap j) with
    | none => exact ⟨t, by dsimp only; rw [hlookup, if_pos ⟨rfl, rfl, hold⟩]⟩
    | some t' => exact hgrows.knows _ _ ⟨t', hold⟩
  · exact h.listed
  · exact h.asked
  · exact h.owned
  · exact fun k m hk => hgrows.downOk (h.down k m hk)
  · exact fun k id hk => hgrows.knows _ _ (h.known k id hk)
  · intro k id t' hl
    dsimp only at hl
    rw [hlookup] at hl
    split at hl
    · rename_i hc
      obtain ⟨rfl, rfl, -⟩ := hc
      rw [← Option.some.inj hl]
      exact ht
    · exact h.mapped k id t' hl
  · exact fun c hc => hgrows.claimOk (h.claims c hc)
  · exact h.tokens

omit h in
/-- A message that does not answer an introduction is no token. -/
theorem tokens_sendDown {j : ℕ} {m : DownMsg} (taken : Bool)
    (hm : m.isResponse = false) (k : ℕ) :
    (s.sendDown j m taken).tokens k = s.tokens k := by
  by_cases hk : k = j
  · subst hk
    have hnone : (if taken then [m] else []).countP DownMsg.isResponse = 0 := by
      cases taken
      · rfl
      · rw [if_pos rfl, List.countP_singleton, hm]
        rfl
    simp only [Routing.tokens, Routing.sendDown, Function.update_self, List.countP_append, hnone,
      Nat.add_zero]
  · simp only [Routing.tokens, Routing.sendDown, Function.update_of_ne hk]

theorem sendNewTunnelRsp {t j : ℕ} {tunId : Str} (taken : Bool) (hm : s.main = .added t)
    (ht : s.tunnels[t]? = some (j, tunId)) :
    RoutingInv { s.sendDown j (.newTunnelRsp tunId) taken with main := .idle } where
  main := trivial
  listed := h.listed
  asked := h.asked
  owned := h.owned
  known := h.known
  mapped := h.mapped
  claims := h.claims_of_eq rfl rfl rfl rfl rfl
  down := by
    intro k m hk
    rcases mem_sendDown hk with hold | ⟨rfl, rfl⟩
    · exact h.down k m hold
    · have hmain := h.main
      rw [Routing.MainOk, hm] at hmain
      exact hmain k tunId ht
  tokens := by
    intro k
    refine Nat.le_trans (Nat.le_of_eq ?_) (h.tokens k)
    exact tokens_sendDown (s := s) (j := j) (m := .newTunnelRsp tunId) taken rfl k

theorem notifyClientNeedProxy (j : ℕ) (tunId : Str) (taken : Bool) :
    RoutingInv (s.sendDown j (.notifyClient tunId) taken) where
  main := h.main
  listed := h.listed
  asked := h.asked
  owned := h.owned
  known := h.known
  mapped := h.mapped
  claims := h.claims_of_eq rfl rfl rfl rfl rfl
  down := by
    intro k m hk
    rcases mem_sendDown hk with hold | ⟨rfl, rfl⟩
    · exact h.down k m hold
    · trivial
  tokens := fun k => Nat.le_trans (Nat.le_of_eq (tokens_sendDown taken rfl k)) (h.tokens k)

/-- A control leaves the map, and whatever control has its id leaves with it. -/
theorem handleCtlConnClose (ctlId : Str) :
    RoutingInv { s with controlMap := AList.erase ctlId s.controlMap } := by
  have hlookup : ∀ {id : Str} {c : Option ℕ},
      AList.lookup id (AList.erase ctlId s.controlMap) = some c →
      AList.lookup id s.controlMap = some c := by
    intro id c hl
    by_cases hid : id = ctlId
    · subst hid
      rw [AList.lookup_erase] at hl
      cases hl
    · rwa [AList.lookup_erase_ne hid] at hl
  have hgrows : Grows s { s with controlMap := AList.erase ctlId s.controlMap } :=
    { ctlIds := fun _ _ hk => hk
      tunnels := fun _ _ ht => ht
      knows := fun _ _ hk => hk
      listed := fun _ _ _ ⟨id, hk, hl⟩ => ⟨id, hk, hlookup hl⟩ }
  exact
    { main := h.main
      listed := fun id j hl => h.listed id j (hlookup hl)
      asked := h.asked
      owned := h.owned
      down := h.down
      known := h.known
      mapped := h.mapped
      claims := fun c hc => hgrows.claimOk (h.claims c hc)
      tokens := h.tokens }

/-! ### The handlers of the client -/

/-- What a client that took a message may still get. -/
theorem down_tail {j k : ℕ} {m m' : DownMsg} {rest : List DownMsg} (hdown : s.down j = m :: rest)
    (hk : m' ∈ update s.down j rest k) : s.DownOk k m' := by
  by_cases hkj : k = j
  · subst hkj
    rw [Function.update_self] at hk
    exact h.down k m' (by rw [hdown]; exact List.mem_cons_of_mem _ hk)
  · rw [Function.update_of_ne hkj] at hk
    exact h.down k m' hk

/-- A message that does not answer an introduction is taken. -/
theorem tokens_tail {j : ℕ} {m : DownMsg} {rest : List DownMsg} (hdown : s.down j = m :: rest)
    (hm : m.isResponse = false) (k : ℕ) :
    (s.up k).length + (update s.down j rest k).countP DownMsg.isResponse +
      s.tunnels.countP (fun x => x.1 = k) ≤ if k < s.ctlIds.length then 1 else 0 := by
  have hk := h.tokens k
  by_cases hkj : k = j
  · subst hkj
    rw [Routing.tokens, hdown, List.countP_cons_of_neg (by rw [hm]; exact Bool.false_ne_true)] at hk
    rwa [Function.update_self]
  · rwa [Function.update_of_ne hkj]

/-- The client knows the id of its control, and may ask for a tunnel. -/
theorem handleNewCtlRsp {j : ℕ} {ctlId : Str} {rest : List DownMsg} (taken : Bool)
    (hdown : s.down j = .newResponse ctlId :: rest) :
    RoutingInv { s with
      down := update s.down j rest
      clientId := update s.clientId j ctlId
      up := update s.up j (s.up j ++ if taken then [.newTunnelReq] else []) } where
  main := h.main
  listed := h.listed
  known := h.known
  mapped := h.mapped
  claims := h.claims_of_eq rfl rfl rfl rfl rfl
  asked := by
    intro k hk
    by_cases hkj : k = j
    · subst hkj
      simp only [Function.update_self]
      exact h.down k _ (by rw [hdown]; exact List.mem_cons_self)
    · simp only [Function.update_of_ne hkj] at hk ⊢
      exact h.asked k hk
  owned := by
    intro x hx
    by_cases hxj : x.1 = j
    · subst hxj
      simp only [Function.update_self]
      exact h.down x.1 _ (by rw [hdown]; exact List.mem_cons_self)
    · simp only [Function.update_of_ne hxj]
      exact h.owned x hx
  down := by
    intro k m hk
    exact (Grows.of_eq rfl rfl rfl rfl).downOk (h.down_tail hdown hk)
  tokens := by
    intro k
    have hk := h.tokens k
    by_cases hkj : k = j
    · subst hkj
      have hrsp : (DownMsg.newResponse ctlId).isResponse = true := rfl
      rw [Routing.tokens, hdown, List.countP_cons_of_pos hrsp] at hk
      have hsent : (if taken then [UpMsg.newTunnelReq] else []).length ≤ 1 := by
        cases taken
        · exact Nat.zero_le 1
        · exact Nat.le_refl 1
      simp only [Routing.tokens, Function.update_self, List.length_append]
      exact Nat.le_trans (by omega) hk
    · exact Nat.le_trans (Nat.le_of_eq (tokens_of_eq (Function.update_of_ne hkj _ _)
        (Function.update_of_ne hkj _ _) rfl)) hk

theorem handleNewTunnelRsp {j : ℕ} {tunId : Str} {rest : List DownMsg}
    (hdown : s.down j = .newTunnelRsp tunId :: rest) :
    RoutingInv { s with
      down := update s.down j rest
      clientTunnels := update s.clientTunnels j (tunId :: s.clientTunnels j) } where
  main := h.main
  listed := h.listed
  asked := h.asked
  owned := h.owned
  mapped := h.mapped
  claims := h.claims_of_eq rfl rfl rfl rfl rfl
  known := by
    intro k id hk
    by_cases hkj : k = j
    · subst hkj
      simp only [Function.update_self, List.mem_cons] at hk
      rcases hk with rfl | hk
      · exact h.down k _ (by rw [hdown]; exact List.mem_cons_self)
      · exact h.known k id hk
    · simp only [Function.update_of_ne hkj] at hk
      exact h.known k id hk
  down := by
    intro k m hk
    exact (Grows.of_eq rfl rfl rfl rfl).downOk (h.down_tail hdown hk)
  tokens := h.tokens_tail hdown rfl

/-- The client opens a connection, and names a tunnel that its control has. -/
theorem handleProxyNotify {j : ℕ} {tunId : Str} {rest : List DownMsg}
    (hdown : s.down j = .notifyClient tunId :: rest) (hk : tunId ∈ s.clientTunnels j) :
    RoutingInv { s with
      down := update s.down j rest
      claims := s.claims ++ [⟨j, s.clientId j, tunId, .sent⟩] } where
  main := h.main
  listed := h.listed
  asked := h.asked
  owned := h.owned
  known := h.known
  mapped := h.mapped
  down := by
    intro k m hk
    exact (Grows.of_eq rfl rfl rfl rfl).downOk (h.down_tail hdown hk)
  tokens := h.tokens_tail hdown rfl
  claims := by
    intro c hc
    rcases List.mem_append.1 hc with hc | hc
    · refine ClaimOk.of_eq ?_ ?_ ?_ ?_ (h.claims c hc) <;> rfl
    · rw [List.mem_singleton.1 hc]
      obtain ⟨t, ht⟩ := h.known j tunId hk
      exact ⟨h.owned _ (List.mem_of_getElem? (h.mapped j tunId t ht)), ⟨t, ht⟩, trivial⟩

theorem skipProxyNotify {j : ℕ} {tunId : Str} {rest : List DownMsg}
    (hdown : s.down j = .notifyClient tunId :: rest) :
    RoutingInv { s with down := update s.down j rest } where
  main := h.main
  listed := h.listed
  asked := h.asked
  owned := h.owned
  known := h.known
  mapped := h.mapped
  claims := h.claims_of_eq rfl rfl rfl rfl rfl
  down := by
    intro k m hk
    exact (Grows.of_eq rfl rfl rfl rfl).downOk (h.down_tail hdown hk)
  tokens := h.tokens_tail hdown rfl

/-! ### The calls of `claimProxyConn` -/

/-- A call goes on, and nothing else happens. -/
theorem setPc {p : ℕ} {c : Claim} {pc : ClaimPc} (hc : c ∈ s.claims)
    (hpc : { c with pc := pc }.PcOk s) : RoutingInv (s.setPc p c pc) where
  main := h.main
  listed := h.listed
  asked := h.asked
  owned := h.owned
  known := h.known
  mapped := h.mapped
  down := fun k m hk => (Grows.of_eq rfl rfl rfl rfl).downOk (h.down k m hk)
  tokens := h.tokens
  claims := by
    intro c' hc'
    suffices hold : ClaimOk s c' by refine ClaimOk.of_eq ?_ ?_ ?_ ?_ hold <;> rfl
    rcases List.mem_or_eq_of_mem_set hc' with hold | rfl
    · exact h.claims c' hold
    · have hok := h.claims c hc
      exact ⟨hok.ctlId, hok.knows, hpc⟩

theorem crash : RoutingInv { s with crashed := true } where
  main := h.main
  listed := h.listed
  asked := h.asked
  owned := h.owned
  known := h.known
  mapped := h.mapped
  down := fun k m hk => (Grows.of_eq rfl rfl rfl rfl).downOk (h.down k m hk)
  tokens := h.tokens
  claims := h.claims_of_eq rfl rfl rfl rfl rfl

/-- `operator[]` makes an empty entry. -/
theorem emptyEntry (ctlId : Str) :
    RoutingInv { s with controlMap := ConnMap.add s.controlMap ctlId none } := by
  have hlookup : ∀ {id : Str} {k : ℕ},
      AList.lookup id (ConnMap.add s.controlMap ctlId none) = some (some k) →
      AList.lookup id s.controlMap = some (some k) := by
    intro id k hl
    rw [ConnMap.lookup_add] at hl
    split at hl
    · cases hl
    · exact hl
  have hgrows : Grows s { s with controlMap := ConnMap.add s.controlMap ctlId none } :=
    { ctlIds := fun _ _ hk => hk
      tunnels := fun _ _ ht => ht
      knows := fun _ _ hk => hk
      listed := fun _ _ _ ⟨id, hk, hl⟩ => ⟨id, hk, hlookup hl⟩ }
  exact
    { main := h.main
      listed := fun id j hl => h.listed id j (hlookup hl)
      asked := h.asked
      owned := h.owned
      down := fun k m hk => hgrows.downOk (h.down k m hk)
      known := h.known
      mapped := h.mapped
      claims := fun c hc => hgrows.claimOk (h.claims c hc)
      tokens := h.tokens }

omit h in
/-- A client whose control the map has finds its own entry under its id. -/
theorem lookup_of_listed {c : Claim} (hc : ClaimOk s c) (hl : s.Listed c.opener) :
    AList.lookup c.ctlId s.controlMap = some (some c.opener) := by
  obtain ⟨id, hid, hl⟩ := hl
  obtain rfl := Option.some.inj (hc.ctlId.symm.trans hid)
  exact hl

/-- **A step of a call.** -/
theorem claimStep {s' : Routing} {p : ℕ} {c : Claim} (hc : c ∈ s.claims)
    (hs : s.claimStep p c = some s') : RoutingInv s' := by
  have hok := h.claims c hc
  have hpc := hok.pc
  unfold Claim.PcOk at hpc
  unfold Routing.claimStep at hs
  split at hs
  · -- `find`
    obtain rfl := Option.some.inj hs
    refine h.setPc hc ?_
    split
    · rename_i hnone
      intro hl
      rw [lookup_of_listed hok hl] at hnone
      cases hnone
    · trivial
  · -- `operator[]`
    split at hs
    · rename_i ctl hctl
      obtain rfl := Option.some.inj hs
      refine h.setPc hc ?_
      cases ctl with
      | none =>
          intro hl
          rw [lookup_of_listed hok hl] at hctl
          cases hctl
      | some k =>
          refine ⟨h.listed _ _ hctl, fun hl => ?_⟩
          rw [lookup_of_listed hok hl] at hctl
          exact (Option.some.inj (Option.some.inj hctl)).symm
    · rename_i hnone
      obtain rfl := Option.some.inj hs
      refine (h.setPc hc ?_).emptyEntry c.ctlId
      intro hl
      rw [lookup_of_listed hok hl] at hnone
      cases hnone
  · -- a member of an empty pointer
    rename_i heq
    obtain rfl := Option.some.inj hs
    rw [heq] at hpc
    have hgone : Claim.PcOk { c with pc := .fault } s := hpc
    exact (h.setPc hc hgone).crash
  · -- `isExist`
    rename_i k heq
    obtain rfl := Option.some.inj hs
    rw [heq] at hpc
    have hmeets : c.Meets s k := hpc
    refine h.setPc hc ?_
    split
    · rename_i hnone
      intro hl
      obtain ⟨t, ht⟩ := hok.knows
      rw [hmeets.own hl, ht] at hnone
      cases hnone
    · rename_i hsome
      exact ⟨⟨hmeets.sameId, hmeets.own⟩, Option.ne_none_iff_exists'.1 hsome⟩
  · -- `get`
    rename_i k heq
    rw [heq] at hpc
    obtain ⟨hmeets, t, ht⟩ : c.Meets s k ∧ s.Knows k c.tunId := hpc
    rw [ht] at hs
    obtain rfl := Option.some.inj hs
    exact h.setPc hc ⟨k, ⟨hmeets.sameId, hmeets.own⟩, h.mapped _ _ _ ht⟩
  all_goals cases hs

/-! ### Runs -/

/-- **One step keeps the invariant.** -/
theorem step {s' : Routing} {a : RouteAct} (hs : s.step a = some s') : RoutingInv s' := by
  obtain ⟨-, hs⟩ := Option.ite_none_left_eq_some.1 hs
  cases a with
  | drawCtlId random =>
      simp only [Routing.stepLive, Option.ite_none_right_eq_some, Option.some.injEq] at hs
      obtain ⟨-, rfl⟩ := hs
      split
      · exact
          { main := trivial
            listed := h.listed
            asked := h.asked
            owned := h.owned
            down := fun k m hk => (Grows.of_eq rfl rfl rfl rfl).downOk (h.down k m hk)
            known := h.known
            mapped := h.mapped
            claims := h.claims_of_eq rfl rfl rfl rfl rfl
            tokens := h.tokens }
      · exact h
  | newControl =>
      simp only [Routing.stepLive] at hs
      split at hs
      · rename_i ctlId _
        obtain rfl := Option.some.inj hs
        exact h.newControl ctlId
      · cases hs
  | handleNewCtlReq j taken =>
      simp only [Routing.stepLive] at hs
      split at hs
      · rename_i hup hid
        obtain rfl := Option.some.inj hs
        exact h.handleNewCtlReq hup hid
      · cases hs
  | handleNewTunnelReq j random =>
      simp only [Routing.stepLive] at hs
      split at hs
      · rename_i hup
        obtain rfl := Option.some.inj hs
        exact h.handleNewTunnelReq _ hup
      · cases hs
  | addtoTunnel =>
      simp only [Routing.stepLive] at hs
      split at hs
      · obtain ⟨⟨j, tunId⟩, ht, rfl⟩ := Option.map_eq_some_iff.1 hs
        exact h.addtoTunnel ht
      · cases hs
  | sendNewTunnelRsp taken =>
      simp only [Routing.stepLive] at hs
      split at hs
      · rename_i hm
        obtain ⟨⟨j, tunId⟩, ht, rfl⟩ := Option.map_eq_some_iff.1 hs
        exact h.sendNewTunnelRsp taken hm ht
      · cases hs
  | handleCtlConnClose j =>
      simp only [Routing.stepLive] at hs
      split at hs
      · obtain rfl := Option.some.inj hs
        exact h.handleCtlConnClose _
      · cases hs
  | notifyClientNeedProxy t taken =>
      obtain ⟨⟨j, tunId⟩, -, rfl⟩ := Option.map_eq_some_iff.1 hs
      exact h.notifyClientNeedProxy j tunId taken
  | handleNewCtlRsp j taken =>
      simp only [Routing.stepLive] at hs
      split at hs
      · rename_i hdown
        obtain rfl := Option.some.inj hs
        exact h.handleNewCtlRsp taken hdown
      · cases hs
  | handleNewTunnelRsp j =>
      simp only [Routing.stepLive] at hs
      split at hs
      · rename_i hdown
        obtain rfl := Option.some.inj hs
        exact h.handleNewTunnelRsp hdown
      · cases hs
  | handleProxyNotify j =>
      simp only [Routing.stepLive] at hs
      split at hs
      · rename_i hdown
        obtain rfl := Option.some.inj hs
        split
        · rename_i hk
          exact h.handleProxyNotify hdown hk
        · exact h.skipProxyNotify hdown
      · cases hs
  | claimProxyConn p =>
      obtain ⟨c, hc, hs⟩ := Option.bind_eq_some_iff.1 hs
      exact h.claimStep (List.mem_of_getElem? hc) hs

omit h in
/-- The invariant holds in every run. -/
theorem of_reach (hs : routingLts.Reach (fun _ _ => True) s) : RoutingInv s := by
  induction hs with
  | init => exact init
  | step _ _ hstep ih => exact ih.step hstep

/-- A client has one tunnel at most. -/
theorem one_tunnel {j t t' : ℕ} {id id' : Str} (ht : s.tunnels[t]? = some (j, id))
    (ht' : s.tunnels[t']? = some (j, id')) : t = t' := by
  have htokens := h.tokens j
  have hle : s.tunnels.countP (fun x => x.1 = j) ≤ 1 := by
    refine Nat.le_trans (Nat.le_add_left _ _) (Nat.le_trans htokens ?_)
    split <;> decide
  exact eq_of_countP_le_one hle ht ht' (decide_eq_true rfl) (decide_eq_true rfl)

end RoutingInv

/-- The call has found nothing but the control of the client that opened the connection, and its
tunnel. -/
def Claim.OnItsWay (c : Claim) (s : Routing) : Prop :=
  match c.pc with
  | .sent | .found => True
  | .holds (some k) | .checked k => k = c.opener
  | .claimed t => s.tunnels[t]? = some (c.opener, c.tunId)
  | .holds none | .noControl | .noTunnel | .fault => False

/-- **Where proxy connections come to.**  Whatever the order of the steps, a proxy connection names one
tunnel of the client that opened it, and the only one.  As long as `control_map_` has that client's
control the connection is on its way there or has got there.  In any case it gets to no tunnel but one
that has the same id, of a control that has the same id. -/
theorem claims_routed {s : Routing} (hs : routingLts.Reach (fun _ _ => True) s) {c : Claim}
    (hc : c ∈ s.claims) :
    (∃! t : ℕ, ∃ id, s.tunnels[t]? = some (c.opener, id)) ∧ s.Knows c.opener c.tunId ∧
      (s.Listed c.opener → c.OnItsWay s) ∧
      ∀ t, c.pc = .claimed t →
        ∃ k, s.tunnels[t]? = some (k, c.tunId) ∧ s.ctlIds[k]? = s.ctlIds[c.opener]? := by
  have h := RoutingInv.of_reach hs
  have hok := h.claims c hc
  have hpc := hok.pc
  obtain ⟨t, ht⟩ := hok.knows
  refine ⟨⟨t, ⟨_, h.mapped _ _ _ ht⟩, ?_⟩, ⟨t, ht⟩, ?_, ?_⟩
  · rintro t' ⟨id, ht'⟩
    exact h.one_tunnel ht' (h.mapped _ _ _ ht)
  · intro hl
    unfold Claim.PcOk at hpc
    unfold Claim.OnItsWay
    split at hpc
    · trivial
    · trivial
    · exact hpc.own hl
    · exact hpc.1.own hl
    · obtain ⟨k, hk, htun⟩ := hpc
      rw [hk.own hl] at htun
      exact htun
    all_goals exact hpc hl
  · intro t' heq
    rw [Claim.PcOk, heq] at hpc
    obtain ⟨k, hk, htun⟩ := hpc
    exact ⟨k, htun, hk.sameId.trans hok.ctlId.symm⟩

/-- A client with a tunnel, whose notification has made a proxy connection. -/
def introduction : List RouteAct :=
  [.drawCtlId fun _ => 0, .newControl, .handleNewCtlReq 0 true, .handleNewCtlRsp 0 true,
    .handleNewTunnelReq 0 fun _ => 2, .addtoTunnel, .sendNewTunnelRsp true, .handleNewTunnelRsp 0,
    .notifyClientNeedProxy 0 true, .handleProxyNotify 0]

/-- The client's connection gets to its tunnel. -/
theorem claims_routed_one :
    ∃ s c, routingLts.exec routingLts.init (introduction ++ List.replicate 4 (.claimProxyConn 0)) =
        some s ∧ c ∈ s.claims ∧ c.pc = .claimed 0 ∧ c.OnItsWay s := by
  let ctlId := randomStr fun _ : Fin 5 => 0
  let c : Claim := ⟨0, ctlId, randomStr fun _ : Fin 5 => 2, .claimed 0⟩
  obtain ⟨s, hrun, hc, hid, hl⟩ : ∃ s, routingLts.exec routingLts.init
      (introduction ++ List.replicate 4 (.claimProxyConn 0)) = some s ∧ c ∈ s.claims ∧
        s.ctlIds[0]? = some ctlId ∧ AList.lookup ctlId s.controlMap = some (some 0) :=
    ⟨_, (Option.some_get (x := routingLts.exec _ _) (by decide +kernel)).symm, by decide +kernel,
      by decide +kernel, by decide +kernel⟩
  have hreach := Lts.Reach.of_allSteps (g := fun _ _ => True) .init hrun (Lts.allSteps_true _ _)
  exact ⟨s, c, hrun, hc, rfl, (claims_routed hreach hc).2.2.1 ⟨ctlId, hid, hl⟩⟩

/-- The control leaves the map between `find` and `operator[]`: the pointer is empty. -/
example : (routingLts.exec routingLts.init (introduction ++ [.claimProxyConn 0,
    .handleCtlConnClose 0, .claimProxyConn 0, .claimProxyConn 0])).map Routing.crashed = some true := by
  decide +kernel

/-- The control leaves the map, and a later one and its tunnel draw the same ids: the connection gets to
the tunnel of another client. -/
example : (routingLts.exec routingLts.init (introduction ++ [.handleCtlConnClose 0,
    .drawCtlId fun _ => 0, .newControl, .handleNewCtlReq 1 true, .handleNewCtlRsp 1 true,
    .handleNewTunnelReq 1 fun _ => 2, .addtoTunnel] ++
    List.replicate 4 (.claimProxyConn 0))).bind (fun s => s.claims[0]?.map Claim.pc) =
      some (.claimed 1) := by
  decide +kernel

end ProxySocket

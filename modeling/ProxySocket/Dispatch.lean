/-
**Public clients, proxy connections and the messages that pair them.**

A public client that finds no free connection waits in `unhandle_fds_` while a `NotifyClient` goes to
the client, a new proxy connection comes back and a `ProxyMetaSet` on it takes the last descriptor
from the vector: which descriptor meets which connection is decided by position alone.  A public
client that finds a free connection travels in a `ProxyConnectReq` and its reply.

This module follows any number of server tunnels, proxy connections and public clients.  Each handler
is one step, and each message may be lost on its way, which stands for every way it can fail: a
send that fails, a tunnel or a control that is not found, a connection that cannot be made, a request
the client refuses.

Main definitions:

* `Dispatch`, `DispatchAct`, `Dispatch.step` — the tunnels and what is in flight;
* `Dispatch.Paired` — the vector is long enough for all that is coming to it, and no descriptor is
  bound twice;
* `FdPlace`, `FdInv` — where a public descriptor is, and **what the state says about it**.

Main results:

* `DispatchInv.step` — **one step preserves the invariant**;
* `dispatch_paired` — **every run keeps the vectors long enough and binds each descriptor once**.
-/

import ProxySocket.Lts
import ProxySocket.ProxyConnect
import ProxySocket.Tunnel

set_option relaxedAutoImplicit false
set_option autoImplicit false

namespace ProxySocket

open Function (update)

/-! ### The tunnels and what is in flight -/

/-- The tunnels `τ` of a server, the proxy connections `κ` and the messages in flight. -/
structure Dispatch (τ κ : Type) where
  tunnels : τ → Tunnel κ
  half : κ → ProxyConnect
  /-- the server's `unclaimed_proxy_map_` -/
  unclaimed : κ → Bool
  /-- the tunnel that has claimed the connection, whose handlers it calls -/
  tunnelOf : κ → Option τ
  /-- the connection was closed by the other end -/
  closed : κ → Bool
  /-- the client has made the connection -/
  created : κ → Bool
  /-- the number of `NotifyClient` messages on their way for a tunnel -/
  notifies : τ → ℕ
  /-- the `ProxyMetaSet` messages on their way, each on its own connection -/
  metas : List (κ × τ)
  /-- the descriptors of the `ProxyConnectReq` messages on their way -/
  reqs : κ → List ℕ
  /-- the descriptors of the `ProxyConnectRsp` messages on their way -/
  rsps : κ → List ℕ
  /-- history: the descriptors of the requests without a reply so far -/
  outstanding : κ → List ℕ
  /-- history: the descriptors that were accepted so far -/
  accepted : List ℕ
  /-- history: the descriptors bound so far, with their connections -/
  bound : List (κ × ℕ)

/-- The handlers of the server and of the client, and the losses. -/
inductive DispatchAct (τ κ : Type)
  /-- `Tunnel::newPublicConnHandler` for an accepted descriptor -/
  | newPublicConn (t : τ) (fd : ℕ)
  /-- `Client::handleProxyNotify`, with the connection it makes -/
  | proxyNotify (t : τ) (p : κ)
  /-- a `NotifyClient` is lost, or handled in vain -/
  | loseNotify (t : τ)
  /-- `Server::newProxyConnHandler` -/
  | newProxyConn (p : κ)
  /-- `Server::claimProxyConn` -/
  | claimProxyConn (p : κ) (t : τ)
  /-- a `ProxyMetaSet` is lost, or handled in vain -/
  | loseMeta (p : κ) (t : τ)
  /-- the client's `Tunnel::HandleProxyConnectReq` -/
  | answerReq (p : κ)
  /-- a `ProxyConnectReq` is lost, or refused -/
  | loseReq (p : κ)
  /-- `Tunnel::handleStartProxyConnRsp` -/
  | startRsp (p : κ)
  /-- a `ProxyConnectRsp` is lost -/
  | loseRsp (p : κ)
  /-- the session of a connection ends and its half is reset -/
  | resetConn (p : κ)
  /-- `Tunnel::freeProxyConn` -/
  | freeProxyConn (t : τ) (p : κ)
  /-- `Tunnel::handlePeerProxyConnClose` -/
  | closeProxyConn (p : κ)
deriving DecidableEq, Repr

variable {τ κ : Type} [DecidableEq τ] [DecidableEq κ]

namespace Dispatch

/-- `Tunnel::bindPublicFdToProxyConn`, for a tunnel whose other containers are those of `tun`. -/
def bindPublicFdToProxyConn (s : Dispatch τ κ) (t : τ) (tun : Tunnel κ) (fd : ℕ) (p : κ) :
    Dispatch τ κ :=
  { s with
    half := update s.half p ((s.half p).run { fd := fd })
    tunnels := update s.tunnels t
      { tun with proxyConnectMap := update tun.proxyConnectMap p true }
    bound := (p, fd) :: s.bound }

section Bind

variable (s : Dispatch τ κ) (t : τ) (tun : Tunnel κ) (fd : ℕ) (p : κ)

@[simp] theorem bind_tunnels : (s.bindPublicFdToProxyConn t tun fd p).tunnels =
    update s.tunnels t { tun with proxyConnectMap := update tun.proxyConnectMap p true } := rfl

@[simp] theorem bind_half : (s.bindPublicFdToProxyConn t tun fd p).half =
    update s.half p ((s.half p).run { fd := fd }) := rfl

@[simp] theorem bind_bound :
    (s.bindPublicFdToProxyConn t tun fd p).bound = (p, fd) :: s.bound := rfl

@[simp] theorem bind_tunnelOf : (s.bindPublicFdToProxyConn t tun fd p).tunnelOf = s.tunnelOf := rfl

@[simp] theorem bind_created : (s.bindPublicFdToProxyConn t tun fd p).created = s.created := rfl

@[simp] theorem bind_metas : (s.bindPublicFdToProxyConn t tun fd p).metas = s.metas := rfl

@[simp] theorem bind_outstanding :
    (s.bindPublicFdToProxyConn t tun fd p).outstanding = s.outstanding := rfl

@[simp] theorem bind_accepted :
    (s.bindPublicFdToProxyConn t tun fd p).accepted = s.accepted := rfl

end Bind

/-- `Tunnel::newPublicConnHandler` for one accepted descriptor.  The kernel returns a descriptor that
is not open, and nothing closes a public descriptor.  A request to an empty pointer ends the
process. -/
def newPublicConnHandler (s : Dispatch τ κ) (t : τ) (fd : ℕ) : Option (Dispatch τ κ) :=
  if fd ∈ s.accepted then none
  else
    match (s.tunnels t).popFreeProxyConn with
    | some (some p, tun) =>
        some { s with
          tunnels := update s.tunnels t
            { tun with waitProxyConnectMap := update tun.waitProxyConnectMap p true }
          reqs := update s.reqs p (s.reqs p ++ [fd])
          outstanding := update s.outstanding p (s.outstanding p ++ [fd])
          accepted := fd :: s.accepted }
    | some (none, _) => none
    | none =>
        some { s with
          tunnels := update s.tunnels t
            { s.tunnels t with unhandleFds := (s.tunnels t).unhandleFds ++ [fd] }
          notifies := update s.notifies t (s.notifies t + 1)
          accepted := fd :: s.accepted }

/-- `Server::claimProxyConn` when the control and the tunnel exist. -/
def claimProxyConn (s : Dispatch τ κ) (p : κ) (t : τ) : Option (Dispatch τ κ) :=
  match (s.tunnels t).getAndPopUndealPublicFd with
  | none => none
  | some (fd, tun) =>
      some { s.bindPublicFdToProxyConn t tun fd p with
        tunnelOf := update s.tunnelOf p (some t)
        unclaimed := update s.unclaimed p false }

/-- `Tunnel::handleStartProxyConnRsp`. -/
def handleStartProxyConnRsp (s : Dispatch τ κ) (t : τ) (fd : ℕ) (p : κ) : Dispatch τ κ :=
  if (s.tunnels t).waitProxyConnectMap p = false then s
  else
    s.bindPublicFdToProxyConn t { s.tunnels t with
      waitProxyConnectMap := update (s.tunnels t).waitProxyConnectMap p false } fd p

/-- One handler, or one loss. -/
def step (s : Dispatch τ κ) : DispatchAct τ κ → Option (Dispatch τ κ)
  | .newPublicConn t fd => s.newPublicConnHandler t fd
  | .proxyNotify t p =>
      if 0 < s.notifies t ∧ s.created p = false then
        some { s with
          notifies := update s.notifies t (s.notifies t - 1)
          created := update s.created p true
          metas := (p, t) :: s.metas }
      else none
  | .loseNotify t =>
      if 0 < s.notifies t then some { s with notifies := update s.notifies t (s.notifies t - 1) }
      else none
  | .newProxyConn p =>
      if s.created p = true ∧ s.tunnelOf p = none then
        some { s with unclaimed := update s.unclaimed p true }
      else none
  | .claimProxyConn p t =>
      if (p, t) ∈ s.metas ∧ s.unclaimed p = true then
        { s with metas := s.metas.erase (p, t) }.claimProxyConn p t
      else none
  | .loseMeta p t =>
      if (p, t) ∈ s.metas then some { s with metas := s.metas.erase (p, t) } else none
  | .answerReq p =>
      match s.reqs p with
      | fd :: rest =>
          some { s with reqs := update s.reqs p rest, rsps := update s.rsps p (s.rsps p ++ [fd]) }
      | [] => none
  | .loseReq p =>
      match s.reqs p with
      | _ :: rest => some { s with reqs := update s.reqs p rest }
      | [] => none
  | .startRsp p =>
      match s.tunnelOf p, s.rsps p with
      | some t, fd :: rest =>
          if (s.half p).start = false ∧ s.closed p = false then
            some ({ s with
              rsps := update s.rsps p rest
              outstanding := update s.outstanding p ((s.outstanding p).erase fd)
              }.handleStartProxyConnRsp t fd p)
          else none
      | _, _ => none
  | .loseRsp p =>
      match s.rsps p with
      | _ :: rest => some { s with rsps := update s.rsps p rest }
      | [] => none
  | .resetConn p =>
      if (s.half p).start = true then
        some { s with half := update s.half p (s.half p).resetConn }
      else none
  | .freeProxyConn t p =>
      some { s with
        tunnels := update s.tunnels t ((s.tunnels t).freeProxyConn (s.half p).start p) }
  | .closeProxyConn p =>
      match s.tunnelOf p with
      | some t =>
          if s.closed p then none
          else
            some { s with
              closed := update s.closed p true
              tunnels := update s.tunnels t ((s.tunnels t).handlePeerProxyConnClose p) }
      | none => none

/-- A server nobody has connected to. -/
def init : Dispatch τ κ where
  tunnels _ := {}
  half _ := { fd := 1 }
  unclaimed _ := false
  tunnelOf _ := none
  closed _ := false
  created _ := false
  notifies _ := 0
  metas := []
  reqs _ := []
  rsps _ := []
  outstanding _ := []
  accepted := []
  bound := []

/-- The number of `ProxyMetaSet` messages on their way for a tunnel. -/
def metasFor (s : Dispatch τ κ) (t : τ) : ℕ := s.metas.countP fun m => m.2 = t

/-- The vector of each tunnel holds a descriptor for every `NotifyClient` and `ProxyMetaSet` on its
way, in particular one for each `ProxyMetaSet` that may be handled next, and no descriptor was bound
twice. -/
structure Paired (s : Dispatch τ κ) : Prop where
  enough : ∀ t, s.notifies t + s.metasFor t ≤ (s.tunnels t).unhandleFds.length
  pops : ∀ p t, (p, t) ∈ s.metas → (s.tunnels t).getAndPopUndealPublicFd.isSome
  once : (s.bound.map Prod.snd).Nodup

end Dispatch

/-- The tunnels of a server, their proxy connections and their public clients. -/
def dispatchLts (τ κ : Type) [DecidableEq τ] [DecidableEq κ] :
    Lts (Dispatch τ κ) (DispatchAct τ κ) where
  init := Dispatch.init
  step := Dispatch.step

/-! ### Where a descriptor is -/

/-- Where a public descriptor is. -/
inductive FdPlace (τ κ : Type)
  | unknown
  /-- in the vector of a tunnel -/
  | unhandled (t : τ)
  /-- named by a request without a reply so far -/
  | asked (p : κ)
  | bound (p : κ)
  /-- named by a reply that was discarded -/
  | lost
deriving DecidableEq

/-- The descriptor was bound. -/
def FdPlace.isBound : FdPlace τ κ → Bool
  | .bound _ => true
  | _ => false

attribute [local grind =] FdPlace.isBound

/-- **What the state says about a descriptor** that is at the given place. -/
@[grind cases]
structure FdInv (s : Dispatch τ κ) (fd : ℕ) (place : FdPlace τ κ) : Prop where
  accepted : fd ∈ s.accepted ↔ place ≠ .unknown
  unhandled : ∀ t, (s.tunnels t).unhandleFds.count fd = if place = .unhandled t then 1 else 0
  outstanding : ∀ p, (s.outstanding p).count fd = if place = .asked p then 1 else 0
  flying : ∀ p, (s.reqs p).count fd + (s.rsps p).count fd ≤ (s.outstanding p).count fd
  bound : (s.bound.map Prod.snd).count fd = if place.isBound then 1 else 0
  bound_iff : ∀ p, (p, fd) ∈ s.bound ↔ place = .bound p

theorem fdInv_init (fd : ℕ) : FdInv (τ := τ) (κ := κ) Dispatch.init fd .unknown := by
  constructor <;> simp [Dispatch.init, FdPlace.isBound]

section Steps

variable {s s' : Dispatch τ κ}

attribute [local grind =] Function.update_apply List.count_append List.count_cons List.count_nil
  List.count_erase

/-- A public client that finds no free connection. -/
theorem FdInv.push (h : ∀ fd, ∃ place, FdInv s fd place) {t : τ} {fd : ℕ} (hfd : fd ∉ s.accepted)
    {n : τ → ℕ} (x : ℕ) :
    ∃ place, FdInv { s with
      tunnels := update s.tunnels t
        { s.tunnels t with unhandleFds := (s.tunnels t).unhandleFds ++ [fd] }
      notifies := n
      accepted := fd :: s.accepted } x place := by
  obtain ⟨place, hx⟩ := h x
  by_cases he : x = fd
  · subst he
    have hp : place = .unknown := by grind
    subst hp
    refine ⟨.unhandled t, ?_⟩
    constructor <;> grind
  · refine ⟨place, ?_⟩
    constructor <;> grind

/-- A public client that meets a free connection. -/
theorem FdInv.ask (h : ∀ fd, ∃ place, FdInv s fd place) {t : τ} {tun : Tunnel κ} {fd : ℕ} {p : κ}
    (hfd : fd ∉ s.accepted) (htun : tun.unhandleFds = (s.tunnels t).unhandleFds) (x : ℕ) :
    ∃ place, FdInv { s with
      tunnels := update s.tunnels t tun
      reqs := update s.reqs p (s.reqs p ++ [fd])
      outstanding := update s.outstanding p (s.outstanding p ++ [fd])
      accepted := fd :: s.accepted } x place := by
  obtain ⟨place, hx⟩ := h x
  by_cases he : x = fd
  · subst he
    have hp : place = .unknown := by grind
    subst hp
    refine ⟨.asked p, ?_⟩
    constructor <;> grind
  · refine ⟨place, ?_⟩
    constructor <;> grind

/-- A step that leaves every descriptor where it is. -/
theorem FdInv.congr (h : ∀ fd, ∃ place, FdInv s fd place) (ha : s'.accepted = s.accepted)
    (hu : ∀ t, (s'.tunnels t).unhandleFds = (s.tunnels t).unhandleFds)
    (ho : s'.outstanding = s.outstanding) (hb : s'.bound = s.bound)
    (hf : ∀ x p, (s'.reqs p).count x + (s'.rsps p).count x ≤
      (s.reqs p).count x + (s.rsps p).count x) (x : ℕ) :
    ∃ place, FdInv s' x place := by
  obtain ⟨place, hx⟩ := h x
  refine ⟨place, ⟨?_, ?_, ?_, ?_, ?_, ?_⟩⟩
  · rw [ha]
    exact hx.accepted
  · intro t
    rw [hu]
    exact hx.unhandled t
  · intro p
    rw [ho]
    exact hx.outstanding p
  · intro p
    rw [ho]
    exact Nat.le_trans (hf x p) (hx.flying p)
  · rw [hb]
    exact hx.bound
  · intro p
    rw [hb]
    exact hx.bound_iff p

/-- A new connection takes the last descriptor of the vector. -/
theorem FdInv.claim (h : ∀ fd, ∃ place, FdInv s fd place) {t : τ} {rest : List ℕ} {fd : ℕ} {p : κ}
    (ht : (s.tunnels t).unhandleFds = rest ++ [fd]) (tun : Tunnel κ) (htun : tun.unhandleFds = rest)
    (x : ℕ) : ∃ place, FdInv (s.bindPublicFdToProxyConn t tun fd p) x place := by
  obtain ⟨place, hx⟩ := h x
  unfold Dispatch.bindPublicFdToProxyConn
  by_cases he : x = fd
  · subst he
    have hp : place = .unhandled t := by
      have := hx.unhandled t
      grind
    subst hp
    refine ⟨.bound p, ?_⟩
    constructor <;> grind
  · refine ⟨place, ?_⟩
    constructor <;> grind

/-- A reply is handled: its descriptor is bound, or given up. -/
theorem FdInv.start (h : ∀ fd, ∃ place, FdInv s fd place) {t : τ} {rest : List ℕ} {fd : ℕ} {p : κ}
    (hr : s.rsps p = fd :: rest) (x : ℕ) :
    ∃ place, FdInv ({ s with
      rsps := update s.rsps p rest
      outstanding := update s.outstanding p ((s.outstanding p).erase fd)
      }.handleStartProxyConnRsp t fd p) x place := by
  obtain ⟨place, hx⟩ := h x
  unfold Dispatch.handleStartProxyConnRsp Dispatch.bindPublicFdToProxyConn
  by_cases he : x = fd
  · subst he
    have hp : place = .asked p := by
      have := hx.flying p
      have := hx.outstanding p
      grind
    subst hp
    split
    · refine ⟨.lost, ?_⟩
      constructor <;> grind
    · refine ⟨.bound p, ?_⟩
      constructor <;> grind
  · refine ⟨place, ?_⟩
    split <;> constructor <;> grind

omit [DecidableEq κ] in
theorem Dispatch.metasFor_cons (s : Dispatch τ κ) (p : κ) (t t' : τ) :
    metasFor { s with metas := (p, t) :: s.metas } t' = s.metasFor t' + if t = t' then 1 else 0 := by
  simp [metasFor, List.countP_cons]

/-- The message that is handled next is one of those that were counted. -/
theorem Dispatch.metasFor_erase {p : κ} {t : τ} (h : (p, t) ∈ s.metas) (t' : τ) :
    s.metasFor t' = metasFor { s with metas := s.metas.erase (p, t) } t' +
      if t = t' then 1 else 0 := by
  simp only [metasFor]
  rw [(List.perm_cons_erase h).countP_eq, List.countP_cons]
  simp

end Steps

/-! ### The invariant -/

/-- **The invariant.** -/
structure DispatchInv (s : Dispatch τ κ) : Prop where
  enough : ∀ t, s.notifies t + s.metasFor t ≤ (s.tunnels t).unhandleFds.length
  places : ∀ fd, ∃ place, FdInv s fd place

theorem dispatchInv_init : DispatchInv (τ := τ) (κ := κ) Dispatch.init :=
  ⟨fun t => by simp [Dispatch.init, Dispatch.metasFor], fun fd => ⟨_, fdInv_init fd⟩⟩

theorem DispatchInv.paired {s : Dispatch τ κ} (h : DispatchInv s) : s.Paired := by
  refine ⟨h.enough, fun p t hm => ?_, ?_⟩
  · have hpos : 0 < s.metasFor t := List.countP_pos_iff.2 ⟨_, hm, by simp⟩
    have := h.enough t
    exact Tunnel.getAndPopUndealPublicFd_isSome.2 (by omega)
  · rw [List.nodup_iff_count_le_one]
    intro fd
    obtain ⟨place, hf⟩ := h.places fd
    rw [hf.bound]
    split <;> omega

section InvSteps

variable {s s' : Dispatch τ κ}

/-- A public client is accepted. -/
theorem DispatchInv.newPublicConn (h : DispatchInv s) {t : τ} {fd : ℕ}
    (hs : s.newPublicConnHandler t fd = some s') : DispatchInv s' := by
  simp only [Dispatch.newPublicConnHandler] at hs
  split at hs
  · exact absurd hs (by simp)
  · rename_i hfd
    split at hs
    · rename_i p tun hpop
      obtain ⟨rest, -, rfl⟩ := Tunnel.popFreeProxyConn_eq_some hpop
      obtain rfl := Option.some.inj hs
      refine ⟨fun t' => ?_, FdInv.ask h.places hfd rfl⟩
      have := h.enough t'
      simp only [Dispatch.metasFor, Function.update_apply] at this ⊢
      split <;> simp_all
    · exact absurd hs (by simp)
    · obtain rfl := Option.some.inj hs
      refine ⟨fun t' => ?_, FdInv.push h.places hfd⟩
      have := h.enough t'
      simp only [Dispatch.metasFor, Function.update_apply] at this ⊢
      split
      · simp_all
        omega
      · exact this

/-- A `NotifyClient` becomes a `ProxyMetaSet`. -/
theorem DispatchInv.proxyNotify (h : DispatchInv s) {t : τ} {p : κ} (hn : 0 < s.notifies t) :
    DispatchInv { s with
      notifies := update s.notifies t (s.notifies t - 1)
      created := update s.created p true
      metas := (p, t) :: s.metas } := by
  refine ⟨fun t' => ?_, FdInv.congr h.places rfl (fun _ => rfl) rfl rfl fun _ _ => Nat.le_refl _⟩
  have := h.enough t'
  change update s.notifies t (s.notifies t - 1) t' +
    Dispatch.metasFor { s with metas := (p, t) :: s.metas } t' ≤ (s.tunnels t').unhandleFds.length
  rw [s.metasFor_cons, Function.update_apply]
  by_cases ht : t' = t
  · subst ht
    rw [if_pos rfl, if_pos rfl]
    omega
  · rw [if_neg ht, if_neg (Ne.symm ht)]
    exact this

theorem DispatchInv.loseNotify (h : DispatchInv s) (t : τ) :
    DispatchInv { s with notifies := update s.notifies t (s.notifies t - 1) } := by
  refine ⟨fun t' => ?_, FdInv.congr h.places rfl (fun _ => rfl) rfl rfl fun _ _ => Nat.le_refl _⟩
  have := h.enough t'
  simp only [Dispatch.metasFor, Function.update_apply] at this ⊢
  split
  · simp_all
    omega
  · exact this

/-- A `ProxyMetaSet` is handled, and its connection takes a descriptor. -/
theorem DispatchInv.claimProxyConn (h : DispatchInv s) {t : τ} {p : κ} (hm : (p, t) ∈ s.metas)
    (hs : Dispatch.claimProxyConn { s with metas := s.metas.erase (p, t) } p t = some s') :
    DispatchInv s' := by
  simp only [Dispatch.claimProxyConn] at hs
  split at hs
  · exact absurd hs (by simp)
  · rename_i fd tun hpop
    obtain ⟨rest, hrest, rfl⟩ := Tunnel.getAndPopUndealPublicFd_eq_some hpop
    obtain rfl := Option.some.inj hs
    have hplaces := FdInv.claim (s := { s with metas := s.metas.erase (p, t) }) (p := p)
      (FdInv.congr h.places rfl (fun _ => rfl) rfl rfl fun _ _ => Nat.le_refl _) hrest
      { s.tunnels t with unhandleFds := rest } rfl
    refine ⟨fun t' => ?_,
      FdInv.congr hplaces rfl (fun _ => rfl) rfl rfl fun _ _ => Nat.le_refl _⟩
    have := h.enough t'
    rw [Dispatch.metasFor_erase hm t'] at this
    simp only [Dispatch.metasFor, Dispatch.bindPublicFdToProxyConn, Function.update_apply] at this ⊢
    split
    · simp_all
      omega
    · rename_i hne
      rw [if_neg (Ne.symm hne)] at this
      exact this

theorem DispatchInv.loseMeta (h : DispatchInv s) {t : τ} {p : κ} (hm : (p, t) ∈ s.metas) :
    DispatchInv { s with metas := s.metas.erase (p, t) } := by
  refine ⟨fun t' => ?_, FdInv.congr h.places rfl (fun _ => rfl) rfl rfl fun _ _ => Nat.le_refl _⟩
  have := h.enough t'
  rw [Dispatch.metasFor_erase hm t'] at this
  exact Nat.le_trans (Nat.add_le_add_left (Nat.le_add_right _ _) _) this

/-- A reply is handled. -/
theorem DispatchInv.startRsp (h : DispatchInv s) {t : τ} {p : κ} {fd : ℕ} {rest : List ℕ}
    (hr : s.rsps p = fd :: rest) :
    DispatchInv ({ s with
      rsps := update s.rsps p rest
      outstanding := update s.outstanding p ((s.outstanding p).erase fd)
      }.handleStartProxyConnRsp t fd p) := by
  refine ⟨fun t' => ?_, FdInv.start h.places hr⟩
  have := h.enough t'
  simp only [Dispatch.handleStartProxyConnRsp]
  split
  · exact this
  · simp only [Dispatch.metasFor, Dispatch.bindPublicFdToProxyConn, Function.update_apply] at this ⊢
    split <;> simp_all

/-- A step that changes no vector of waiting descriptors and sends or drops messages only. -/
theorem DispatchInv.congr (h : DispatchInv s) (hn : s'.notifies = s.notifies)
    (hm : s'.metas = s.metas) (ha : s'.accepted = s.accepted)
    (hu : ∀ t, (s'.tunnels t).unhandleFds = (s.tunnels t).unhandleFds)
    (ho : s'.outstanding = s.outstanding) (hb : s'.bound = s.bound)
    (hf : ∀ x p, (s'.reqs p).count x + (s'.rsps p).count x ≤
      (s.reqs p).count x + (s.rsps p).count x) : DispatchInv s' := by
  refine ⟨fun t => ?_, FdInv.congr h.places ha hu ho hb hf⟩
  have := h.enough t
  simpa only [Dispatch.metasFor, hn, hm, hu] using this

/-- **One step preserves the invariant.** -/
theorem DispatchInv.step (h : DispatchInv s) {a : DispatchAct τ κ} (hs : s.step a = some s') :
    DispatchInv s' := by
  cases a with
  | newPublicConn t fd => exact h.newPublicConn hs
  | proxyNotify t p =>
      simp only [Dispatch.step, Option.ite_none_right_eq_some, Option.some.injEq] at hs
      obtain ⟨⟨hn, -⟩, rfl⟩ := hs
      exact h.proxyNotify hn
  | loseNotify t =>
      simp only [Dispatch.step, Option.ite_none_right_eq_some, Option.some.injEq] at hs
      obtain ⟨-, rfl⟩ := hs
      exact h.loseNotify t
  | newProxyConn p =>
      simp only [Dispatch.step, Option.ite_none_right_eq_some, Option.some.injEq] at hs
      obtain ⟨-, rfl⟩ := hs
      exact h.congr rfl rfl rfl (fun _ => rfl) rfl rfl fun _ _ => Nat.le_refl _
  | claimProxyConn p t =>
      simp only [Dispatch.step, Option.ite_none_right_eq_some] at hs
      obtain ⟨⟨hm, -⟩, hs⟩ := hs
      exact h.claimProxyConn hm hs
  | loseMeta p t =>
      simp only [Dispatch.step, Option.ite_none_right_eq_some, Option.some.injEq] at hs
      obtain ⟨hm, rfl⟩ := hs
      exact h.loseMeta hm
  | answerReq p =>
      simp only [Dispatch.step] at hs
      split at hs
      · rename_i fd rest hr
        obtain rfl := Option.some.inj hs
        refine h.congr rfl rfl rfl (fun _ => rfl) rfl rfl fun x q => ?_
        simp only [Function.update_apply]
        split <;> simp_all [List.count_cons]
        omega
      · exact absurd hs (by simp)
  | loseReq p =>
      simp only [Dispatch.step] at hs
      split at hs
      · rename_i fd rest hr
        obtain rfl := Option.some.inj hs
        refine h.congr rfl rfl rfl (fun _ => rfl) rfl rfl fun x q => ?_
        simp only [Function.update_apply]
        split <;> simp_all [List.count_cons]
      · exact absurd hs (by simp)
  | startRsp p =>
      simp only [Dispatch.step] at hs
      split at hs
      · rename_i hr
        simp only [Option.ite_none_right_eq_some, Option.some.injEq] at hs
        obtain ⟨-, rfl⟩ := hs
        exact h.startRsp hr
      · exact absurd hs (by simp)
  | loseRsp p =>
      simp only [Dispatch.step] at hs
      split at hs
      · rename_i fd rest hr
        obtain rfl := Option.some.inj hs
        refine h.congr rfl rfl rfl (fun _ => rfl) rfl rfl fun x q => ?_
        simp only [Function.update_apply]
        split <;> simp_all [List.count_cons]
      · exact absurd hs (by simp)
  | resetConn p =>
      simp only [Dispatch.step, Option.ite_none_right_eq_some, Option.some.injEq] at hs
      obtain ⟨-, rfl⟩ := hs
      exact h.congr rfl rfl rfl (fun _ => rfl) rfl rfl fun _ _ => Nat.le_refl _
  | freeProxyConn t p =>
      obtain rfl := Option.some.inj hs
      refine h.congr rfl rfl rfl (fun t' => ?_) rfl rfl fun _ _ => Nat.le_refl _
      simp only [Function.update_apply]
      split <;> simp_all
  | closeProxyConn p =>
      simp only [Dispatch.step] at hs
      split at hs
      · split at hs
        · exact absurd hs (by simp)
        · obtain rfl := Option.some.inj hs
          refine h.congr rfl rfl rfl (fun t' => ?_) rfl rfl fun _ _ => Nat.le_refl _
          simp only [Function.update_apply]
          split <;> simp_all
      · exact absurd hs (by simp)

end InvSteps

/-! ### Runs -/

theorem dispatchInv_of_reach {g : Dispatch τ κ → DispatchAct τ κ → Prop} {s : Dispatch τ κ}
    (hr : (dispatchLts τ κ).Reach g s) : DispatchInv s :=
  hr.invariant (I := fun s => DispatchInv s) dispatchInv_init fun _ _ _ _ h _ hs => h.step hs

/-- **Descriptors and connections are paired.**  In every run, whatever is lost, the vector of each
tunnel holds at least as many descriptors as there are `NotifyClient` and `ProxyMetaSet` messages
on their way for it, so that none of these finds it empty, and no accepted descriptor is bound
twice. -/
theorem dispatch_paired {as : List (DispatchAct τ κ)} {s : Dispatch τ κ}
    (he : (dispatchLts τ κ).exec (dispatchLts τ κ).init as = some s) : s.Paired :=
  (dispatchInv_of_reach (.of_allSteps .init he (Lts.allSteps_true _ _))).paired

/-- Three public clients: two get new connections, one of them after a lost message, and the third
one a recycled connection. -/
def dispatchThree : List (DispatchAct ℕ ℕ) :=
  [.newPublicConn 0 5, .newPublicConn 0 6, .loseNotify 0, .proxyNotify 0 0, .newProxyConn 0,
    .claimProxyConn 0 0, .resetConn 0, .freeProxyConn 0 0, .newPublicConn 0 7, .answerReq 0,
    .startRsp 0]

theorem dispatch_paired_three :
    (((dispatchLts ℕ ℕ).exec (dispatchLts ℕ ℕ).init dispatchThree).get (by decide +kernel)).Paired :=
  @dispatch_paired ℕ ℕ _ _ dispatchThree _ (Option.some_get _).symm

end ProxySocket

/-
**Who owns a public descriptor.**

Nothing on the server closes the descriptor of a public client: `PublicConnect` tells its channel not
to, and no other code does.  A descriptor can still be used only as long as an object of the tunnel
knows it: the vector of waiting descriptors, a request without a reply, or a `PublicConnect` that the
`conn_` of a live proxy connection refers to.  `resetConn` leaves `conn_` alone, `Run` replaces it, and
a connection that no container refers to is destroyed with it.

Main definitions:

* `Dispatch.Owned`, `Dispatch.NoLeak` — an object of the tunnel knows the descriptor; every accepted
  descriptor is known;
* `Keeps` — a step neither replaces the `conn_` of a connection nor lets go of a connection with one;
* `Custody`, `LifeInv` — which container refers to a connection.

Main results:

* `OwnInv.step` — **one step preserves the invariant**, whatever it drops;
* `no_leak_iff` — **a run loses no descriptor exactly when all its steps satisfy `Keeps`**.
-/

import ProxySocket.Dispatch

set_option relaxedAutoImplicit false
set_option autoImplicit false

namespace ProxySocket

open Function (update)

variable {τ κ : Type} [DecidableEq τ] [DecidableEq κ]

/-! ### Owners -/

namespace Dispatch

/-- The descriptor of the `PublicConnect` that the connection's `conn_` refers to. -/
def connFd (s : Dispatch τ κ) (p : κ) : Option ℕ := (s.half p).conn.map fun c => c.fd

/-- An object of a tunnel knows the descriptor. -/
def Owned (s : Dispatch τ κ) (fd : ℕ) : Prop :=
  (∃ t, fd ∈ (s.tunnels t).unhandleFds) ∨
  (∃ t p, (s.tunnels t).waitProxyConnectMap p = true ∧ fd ∈ s.outstanding p) ∨
  ∃ t p, (s.tunnels t).Live p ∧ s.connFd p = some fd

/-- Every descriptor that was accepted, and that nothing has closed, is owned. -/
def NoLeak (s : Dispatch τ κ) : Prop := ∀ fd ∈ s.accepted, s.Owned fd

end Dispatch

/-- A reply does not bind a connection whose `conn_` still refers to the last session, and a
connection with a `conn_` is closed only while it waits for a reply or stands last in
`free_proxy_connects_`. -/
def Keeps (s : Dispatch τ κ) : DispatchAct τ κ → Prop
  | .startRsp p => s.connFd p = none
  | .closeProxyConn p => s.connFd p = none ∨ ∃ t, s.tunnelOf p = some t ∧
      ((s.tunnels t).waitProxyConnectMap p = true ∨
        (s.tunnels t).freeProxyConnects.getLast? = some (some p))
  | _ => True

instance (s : Dispatch τ κ) : (a : DispatchAct τ κ) → Decidable (Keeps s a)
  | .startRsp p => inferInstanceAs (Decidable (s.connFd p = none))
  | .closeProxyConn p =>
      match ht : s.tunnelOf p with
      | none => decidable_of_iff (s.connFd p = none) (by simp [Keeps, ht])
      | some t =>
          decidable_of_iff (s.connFd p = none ∨ (s.tunnels t).waitProxyConnectMap p = true ∨
            (s.tunnels t).freeProxyConnects.getLast? = some (some p)) (by simp [Keeps, ht])
  | .newPublicConn _ _ | .proxyNotify _ _ | .loseNotify _ | .newProxyConn _ | .claimProxyConn _ _
  | .loseMeta _ _ | .answerReq _ | .loseReq _ | .loseRsp _ | .resetConn _ | .freeProxyConn _ _ =>
      .isTrue trivial

/-! ### Which container refers to a connection -/

/-- Which container of which tunnel refers to a connection. -/
inductive Custody (τ : Type)
  /-- it was not claimed -/
  | unclaimed
  | inMap (t : τ)
  | inFree (t : τ)
  /-- in `wait_proxy_connect_map_`, after a request for a descriptor -/
  | waiting (t : τ) (fd : ℕ)
  /-- none, any more -/
  | gone (t : τ)
deriving DecidableEq

namespace Custody

/-- The tunnel that has claimed the connection. -/
def tunnel : Custody τ → Option τ
  | .unclaimed => none
  | .inMap t | .inFree t | .waiting t _ | .gone t => some t

/-- The descriptor of the request without a reply. -/
def outstanding : Custody τ → List ℕ
  | .waiting _ fd => [fd]
  | _ => []

/-- The container of the tunnel `t` that refers to the connection. -/
def slot (t : τ) : Custody τ → Slot
  | .inMap t' => if t' = t then .map else .none
  | .inFree t' => if t' = t then .free else .none
  | .waiting t' _ => if t' = t then .wait else .none
  | .unclaimed | .gone _ => .none

theorem slot_eq_free {c : Custody τ} {t : τ} : c.slot t = .free ↔ c = .inFree t := by
  cases c <;> grind [slot]

theorem slot_eq_map {c : Custody τ} {t : τ} : c.slot t = .map ↔ c = .inMap t := by
  cases c <;> grind [slot]

theorem slot_eq_wait {c : Custody τ} {t : τ} : c.slot t = .wait ↔ ∃ fd, c = .waiting t fd := by
  cases c <;> grind [slot]

end Custody

attribute [local grind =] Custody.tunnel Custody.outstanding Custody.slot

/-- **What the state says about a connection** in the given custody. -/
@[grind cases]
structure LifeInv (s : Dispatch τ κ) (p : κ) (c : Custody τ) : Prop where
  tunnelOf : s.tunnelOf p = c.tunnel
  slots : ∀ t, (s.tunnels t).Holds p (c.slot t)
  outstanding : s.outstanding p = c.outstanding
  conn_iff : s.connFd p = none ↔ c = .unclaimed
  conn_bound : ∀ fd, s.connFd p = some fd → (p, fd) ∈ s.bound
  unbound : c = .unclaimed → ∀ fd, (p, fd) ∉ s.bound
  created : c ≠ .unclaimed → s.created p = true
  metas : s.metas.countP (fun m => m.1 = p) ≤
    if c = .unclaimed ∧ s.created p = true then 1 else 0

/-- The descriptor waits, is asked for, or was bound. -/
def Dispatch.Traced (s : Dispatch τ κ) (fd : ℕ) : Prop :=
  (∃ t, fd ∈ (s.tunnels t).unhandleFds) ∨ (∃ p, fd ∈ s.outstanding p) ∨ ∃ p, (p, fd) ∈ s.bound

/-- **The invariant**: the connections, the descriptors, and that no accepted descriptor was given
up. -/
structure OwnInv (s : Dispatch τ κ) (life : κ → Custody τ) : Prop where
  life : ∀ p, LifeInv s p (life p)
  dispatch : DispatchInv s
  traced : ∀ fd ∈ s.accepted, s.Traced fd

theorem ownInv_init : OwnInv (τ := τ) (κ := κ) Dispatch.init fun _ => .unclaimed := by
  refine ⟨fun p => ?_, dispatchInv_init, fun fd hfd => ?_⟩
  · constructor <;> simp [Dispatch.init, Dispatch.connFd, Custody.tunnel, Custody.outstanding]
    intro t
    constructor <;> simp [Custody.slot]
  · simp [Dispatch.init] at hfd

/-! ### One step, as one connection sees it -/

section Steps

variable {s s' : Dispatch τ κ} {p q : κ} {c c' : Custody τ} {t : τ}

/-- A change of one tunnel. -/
theorem LifeInv.slots_update (h : LifeInv s q c) (c' : Custody τ) {tun : Tunnel κ}
    (ht : tun.Holds q (c'.slot t)) (hc : ∀ t', t' ≠ t → c'.slot t' = c.slot t') (t' : τ) :
    (update s.tunnels t tun t').Holds q (c'.slot t') := by
  by_cases he : t' = t
  · subst he
    rw [Function.update_self]
    exact ht
  · rw [Function.update_of_ne he, hc t' he]
    exact h.slots t'

/-- The last free connection is asked to serve a public client. -/
theorem LifeInv.ask (h : LifeInv s q c) {fd : ℕ} {rest : List (Option κ)}
    (hf : (s.tunnels t).freeProxyConnects = rest ++ [some p]) :
    LifeInv { s with
      tunnels := update s.tunnels t { s.tunnels t with
        freeProxyConnects := rest
        waitProxyConnectMap := update (s.tunnels t).waitProxyConnectMap p true }
      reqs := update s.reqs p (s.reqs p ++ [fd])
      outstanding := update s.outstanding p (s.outstanding p ++ [fd])
      accepted := fd :: s.accepted } q (if q = p then .waiting t fd else c) := by
  have hpop := (h.slots t).popWait hf
  by_cases he : q = p
  · subst he
    have hfree := (h.slots t).free
    rw [hf, List.count_append] at hfree
    have hs : c.slot t = .free := by
      by_contra hs
      simp [hs] at hfree
    obtain rfl := Custody.slot_eq_free.1 hs
    rw [if_pos rfl] at hpop ⊢
    have hs := h.slots_update (.waiting t fd) (t := t) (by simpa [Custody.slot] using hpop)
      (fun t' ht => by simp [Custody.slot, Ne.symm ht])
    constructor <;> grind [Dispatch.connFd]
  · rw [if_neg he] at hpop ⊢
    have hs := h.slots_update c hpop fun _ _ => rfl
    constructor <;> grind [Dispatch.connFd]

/-- A step that leaves a connection where it is. -/
theorem LifeInv.congr (h : LifeInv s q c) (ht : ∀ t, (s'.tunnels t).Holds q (c.slot t))
    (ho : s'.tunnelOf q = s.tunnelOf q) (hout : s'.outstanding q = s.outstanding q)
    (hc : s'.connFd q = s.connFd q) (hb : ∀ fd, (q, fd) ∈ s'.bound ↔ (q, fd) ∈ s.bound)
    (hcr : s'.created q = s.created q)
    (hm : s'.metas.countP (fun m => m.1 = q) ≤ s.metas.countP fun m => m.1 = q) :
    LifeInv s' q c := by
  refine ⟨?_, ht, ?_, ?_, ?_, ?_, ?_, ?_⟩
  · rw [ho]
    exact h.tunnelOf
  · rw [hout]
    exact h.outstanding
  · rw [hc]
    exact h.conn_iff
  · intro fd hfd
    rw [hc] at hfd
    exact (hb fd).2 (h.conn_bound fd hfd)
  · intro hu fd hfd
    exact h.unbound hu fd ((hb fd).1 hfd)
  · rw [hcr]
    exact h.created
  · rw [hcr]
    exact Nat.le_trans hm h.metas

/-- A connection that was just bound. -/
theorem lifeInv_inMap (fd : ℕ) (hs : ∀ t', (s.tunnels t').Holds p ((Custody.inMap t).slot t'))
    (ho : s.tunnelOf p = some t) (hout : s.outstanding p = []) (hc : s.connFd p = some fd)
    (hb : (p, fd) ∈ s.bound) (hcr : s.created p = true)
    (hm : s.metas.countP (fun m => m.1 = p) = 0) : LifeInv s p (.inMap t) := by
  refine ⟨ho, hs, hout, ?_, ?_, ?_, fun _ => hcr, ?_⟩
  · simp [hc]
  · intro fd' hfd'
    rw [hc] at hfd'
    exact Option.some.inj hfd' ▸ hb
  · simp
  · rw [hm]
    exact Nat.zero_le _

/-- The client makes a connection and announces it. -/
theorem LifeInv.proxyNotify (h : LifeInv s q c) {n : τ → ℕ} (hp : s.created p = false) :
    LifeInv { s with
      notifies := n
      created := update s.created p true
      metas := (p, t) :: s.metas } q c := by
  by_cases he : q = p
  · subst he
    have hc : c = .unclaimed := by grind
    subst hc
    constructor <;> grind [Dispatch.connFd]
  · constructor <;> grind [Dispatch.connFd]

@[simp] theorem Dispatch.connFd_bind_self (s : Dispatch τ κ) (t : τ) (tun : Tunnel κ) (fd : ℕ)
    (p : κ) : (s.bindPublicFdToProxyConn t tun fd p).connFd p = some fd := by
  simp [connFd, ProxyConnect.run]

theorem Dispatch.connFd_bind_of_ne (s : Dispatch τ κ) (t : τ) (tun : Tunnel κ) (fd : ℕ)
    (h : q ≠ p) : (s.bindPublicFdToProxyConn t tun fd p).connFd q = s.connFd q := by
  simp [connFd, h]

/-- A new connection is claimed. -/
theorem LifeInv.claim (h : LifeInv s q c) (hm : (p, t) ∈ s.metas) (fd : ℕ) (rest : List ℕ) :
    LifeInv { Dispatch.bindPublicFdToProxyConn { s with metas := s.metas.erase (p, t) } t
        { s.tunnels t with unhandleFds := rest } fd p with
      tunnelOf := update s.tunnelOf p (some t)
      unclaimed := update s.unclaimed p false } q (if q = p then .inMap t else c) := by
  have hcount := (List.perm_cons_erase hm).countP_eq fun m => decide (m.1 = q)
  rw [List.countP_cons] at hcount
  by_cases he : q = p
  · subst he
    have hmetas := h.metas
    rw [hcount, if_pos (by simp)] at hmetas
    have hc : c = .unclaimed ∧ s.created q = true := by
      by_contra hc
      rw [if_neg hc] at hmetas
      omega
    obtain ⟨rfl, hcr⟩ := hc
    have hslot : Tunnel.Holds { s.tunnels t with
        unhandleFds := rest
        proxyConnectMap := update (s.tunnels t).proxyConnectMap q true } q .map := by
      have := (h.slots t).bindNew (p := q) fun _ => rfl
      rw [if_pos rfl] at this
      exact ⟨this.map, this.wait, this.free⟩
    rw [if_pos rfl]
    refine lifeInv_inMap fd ?_ (by simp) h.outstanding
      (Dispatch.connFd_bind_self { s with metas := s.metas.erase (q, t) } t
        { s.tunnels t with unhandleFds := rest } fd q) (by simp) hcr ?_
    · exact h.slots_update _ (by simpa [Custody.slot] using hslot)
        fun t' ht => by simp [Custody.slot, Ne.symm ht]
    · rw [if_pos ⟨rfl, hcr⟩] at hmetas
      exact Nat.le_zero.1 (by simpa using hmetas)
  · rw [if_neg he]
    have hslot : Tunnel.Holds { s.tunnels t with
        unhandleFds := rest
        proxyConnectMap := update (s.tunnels t).proxyConnectMap p true } q (c.slot t) := by
      have := (h.slots t).bindNew (p := p) fun hq => absurd hq he
      rw [if_neg he] at this
      exact ⟨this.map, this.wait, this.free⟩
    refine h.congr (h.slots_update _ hslot fun _ _ => rfl) (by simp [he]) rfl
      (Dispatch.connFd_bind_of_ne { s with metas := s.metas.erase (p, t) } t
        { s.tunnels t with unhandleFds := rest } fd he) (by simp [he]) rfl ?_
    simp only [Dispatch.bind_metas]
    omega

/-- A reply binds the connection that waits for it. -/
theorem LifeInv.start (h : LifeInv s q c) (hq : q = p → ∃ fd', c = .waiting t fd') (fd : ℕ)
    (rest : List ℕ) (hout : (s.outstanding p).erase fd = []) :
    LifeInv (Dispatch.bindPublicFdToProxyConn { s with
        rsps := update s.rsps p rest
        outstanding := update s.outstanding p ((s.outstanding p).erase fd) } t
        { s.tunnels t with
          waitProxyConnectMap := update (s.tunnels t).waitProxyConnectMap p false } fd p) q
      (if q = p then .inMap t else c) := by
  by_cases he : q = p
  · subst he
    obtain ⟨fd', rfl⟩ := hq rfl
    have hslot := (h.slots t).bind (p := q) fun _ => .inr (by simp [Custody.slot])
    rw [if_pos rfl] at hslot
    have hmetas := h.metas
    rw [if_neg (by simp)] at hmetas
    rw [if_pos rfl]
    exact lifeInv_inMap fd
      (h.slots_update _ (by simpa [Custody.slot] using hslot)
        fun t' ht => by simp [Custody.slot, Ne.symm ht])
      h.tunnelOf (by simpa using hout) (Dispatch.connFd_bind_self _ _ _ _ _) (by simp)
      (h.created (by simp)) (Nat.le_zero.1 hmetas)
  · have hslot := (h.slots t).bind (p := p) fun hq => absurd hq he
    rw [if_neg he] at hslot ⊢
    exact h.congr (h.slots_update _ hslot fun _ _ => rfl) rfl (by simp [he])
      (Dispatch.connFd_bind_of_ne _ _ _ _ he) (by simp [he]) rfl (Nat.le_refl _)

/-- A connection whose session is over is freed. -/
theorem LifeInv.freeProxyConn (h : LifeInv s q c) :
    LifeInv { s with
        tunnels := update s.tunnels t ((s.tunnels t).freeProxyConn (s.half p).start p) } q
      (if q = p ∧ c = .inMap t ∧ (s.half p).start = false then .inFree t else c) := by
  have hslot := (h.slots t).freeProxyConn (p := p) (s.half p).start
  by_cases hc : q = p ∧ c = .inMap t ∧ (s.half p).start = false
  · obtain ⟨rfl, rfl, hstart⟩ := hc
    rw [if_pos ⟨rfl, by simp [Custody.slot], hstart⟩] at hslot
    rw [if_pos ⟨rfl, rfl, hstart⟩]
    have hs := h.slots_update (.inFree t) (t := t) (by simpa [Custody.slot] using hslot)
      fun t' ht => by simp [Custody.slot, Ne.symm ht]
    have hcr := h.created (by simp)
    have hconn := h.conn_iff
    have hmetas := h.metas
    refine ⟨h.tunnelOf, hs, h.outstanding, ?_, h.conn_bound, by simp, fun _ => hcr, ?_⟩
    · simpa [Dispatch.connFd] using hconn
    · simpa using hmetas
  · rw [if_neg hc]
    rw [if_neg (by rwa [Custody.slot_eq_map])] at hslot
    exact h.congr (h.slots_update _ hslot fun _ _ => rfl) rfl rfl rfl (fun _ => Iff.rfl) rfl
      (Nat.le_refl _)

/-- A connection is closed by the other end.  It is let go of unless it waits for a reply or stands
last among the free ones. -/
theorem LifeInv.close (h : LifeInv s q c) :
    LifeInv { s with
        closed := update s.closed p true
        tunnels := update s.tunnels t ((s.tunnels t).handlePeerProxyConnClose p) } q
      (if q = p ∧ (c = .inMap t ∨
          (c = .inFree t ∧ (s.tunnels t).freeProxyConnects.getLast? ≠ some (some p)))
        then .gone t else c) := by
  have hslot := (h.slots t).handlePeerProxyConnClose (p := p)
  by_cases hc : q = p ∧ (c = .inMap t ∨
      (c = .inFree t ∧ (s.tunnels t).freeProxyConnects.getLast? ≠ some (some p)))
  · rw [if_pos (by rwa [Custody.slot_eq_map, Custody.slot_eq_free])] at hslot
    rw [if_pos hc]
    have hne : c ≠ .unclaimed ∧ c.tunnel = some t ∧ c.outstanding = [] ∧
        ∀ t', t' ≠ t → c.slot t' = .none := by
      rcases hc.2 with rfl | ⟨rfl, -⟩ <;>
        exact ⟨by simp, rfl, rfl, fun t' ht => by simp [Custody.slot, Ne.symm ht]⟩
    have hs := h.slots_update (.gone t) (t := t) (by simpa [Custody.slot] using hslot)
      fun t' ht => by rw [hne.2.2.2 t' ht]; rfl
    have hmetas := h.metas
    rw [if_neg fun hx => hne.1 hx.1] at hmetas
    refine ⟨h.tunnelOf.trans hne.2.1, hs, h.outstanding.trans hne.2.2.1, ?_, h.conn_bound, by simp,
      fun _ => h.created hne.1, ?_⟩
    · have hconn : s.connFd q ≠ none := fun hx => hne.1 (h.conn_iff.1 hx)
      simpa [Dispatch.connFd] using hconn
    · simpa using hmetas
  · rw [if_neg hc]
    rw [if_neg (by rwa [Custody.slot_eq_map, Custody.slot_eq_free])] at hslot
    exact h.congr (h.slots_update _ hslot fun _ _ => rfl) rfl rfl rfl (fun _ => Iff.rfl) rfl
      (Nat.le_refl _)

end Steps

/-! ### Kept and lost -/

/-- Every bound descriptor is the one its connection refers to, and the connection is alive. -/
def Dispatch.Kept (s : Dispatch τ κ) : Prop :=
  ∀ p fd, (p, fd) ∈ s.bound → s.connFd p = some fd ∧ ∃ t, (s.tunnels t).Live p

/-- No container refers to the connection any more. -/
def Custody.isGone : Custody τ → Bool
  | .gone _ => true
  | _ => false

section Kept

variable {s s' : Dispatch τ κ} {life life' : κ → Custody τ}

theorem LifeInv.live_iff {p : κ} {c : Custody τ} (h : LifeInv s p c) (hb : c ≠ .unclaimed) :
    (∃ t, (s.tunnels t).Live p) ↔ c.isGone = false := by
  simp only [fun t => (h.slots t).live_iff]
  cases c <;> simp_all [Custody.slot, Custody.isGone]

theorem OwnInv.kept_iff (h : OwnInv s life) :
    s.Kept ↔ ∀ p fd, (p, fd) ∈ s.bound → s.connFd p = some fd ∧ (life p).isGone = false := by
  refine forall₂_congr fun p fd => ?_
  refine imp_congr_right fun hb => and_congr_right fun _ => ?_
  exact (h.life p).live_iff fun hc => (h.life p).unbound hc fd hb

/-- What is known of a bound descriptor: it is nowhere else. -/
theorem OwnInv.place_of_bound (h : OwnInv s life) {p : κ} {fd : ℕ} (hb : (p, fd) ∈ s.bound) :
    FdInv s fd (.bound p) := by
  obtain ⟨place, hf⟩ := h.dispatch.places fd
  rwa [(hf.bound_iff p).1 hb] at hf

/-- **No descriptor is lost exactly when every bound one is kept.** -/
theorem OwnInv.noLeak_iff (h : OwnInv s life) : s.NoLeak ↔ s.Kept := by
  constructor
  · intro hn p fd hb
    have hf := h.place_of_bound hb
    rcases hn fd (hf.accepted.2 (by simp)) with ⟨t, ht⟩ | ⟨t, q, -, hq⟩ | ⟨t, q, hl, hq⟩
    · have := hf.unhandled t
      rw [if_neg (by simp), List.count_eq_zero] at this
      exact absurd ht this
    · have := hf.outstanding q
      rw [if_neg (by simp), List.count_eq_zero] at this
      exact absurd hq this
    · have hqb := (hf.bound_iff q).1 ((h.life q).conn_bound fd hq)
      obtain rfl : p = q := by simpa using hqb
      exact ⟨hq, t, hl⟩
  · intro hk fd hfd
    rcases h.traced fd hfd with ht | ⟨p, hp⟩ | ⟨p, hp⟩
    · exact .inl ht
    · have hout := (h.life p).outstanding
      cases hc : life p with
      | waiting t fd' =>
          refine .inr (.inl ⟨t, p, ?_, hp⟩)
          rw [((h.life p).slots t).wait, hc]
          simp [Custody.slot]
      | _ =>
          rw [hout, hc] at hp
          simp [Custody.outstanding] at hp
    · obtain ⟨hc, t, hl⟩ := hk p fd hp
      exact .inr (.inr ⟨t, p, hl, hc⟩)

/-- A step that binds nothing and lets go of nothing. -/
theorem OwnInv.kept_congr (h : OwnInv s life) (h' : OwnInv s' life') (hb : s'.bound = s.bound)
    (hc : ∀ p, s'.connFd p = s.connFd p) (hl : ∀ p, (life' p).isGone = (life p).isGone) :
    s'.Kept ↔ s.Kept := by
  rw [h.kept_iff, h'.kept_iff, hb]
  simp only [hc, hl]

end Kept

/-! ### One step -/

section OwnSteps

variable {s s' : Dispatch τ κ} {life life' : κ → Custody τ} {t : τ} {p : κ}

/-- A step that binds nothing and lets go of nothing. -/
theorem OwnInv.quiet (h : OwnInv s life) (life' : κ → Custody τ) (h' : OwnInv s' life')
    (hb : s'.bound = s.bound) (hc : ∀ p, s'.connFd p = s.connFd p)
    (hl : ∀ p, (life' p).isGone = (life p).isGone) :
    ∃ life', OwnInv s' life' ∧ (s'.Kept ↔ s.Kept ∧ True) :=
  ⟨life', h', by rw [h.kept_congr h' hb hc hl, and_true]⟩

/-- A step that changes no container. -/
theorem OwnInv.message (h : OwnInv s life) (hd : DispatchInv s') (ht : s'.tunnels = s.tunnels)
    (ho : s'.tunnelOf = s.tunnelOf) (hout : s'.outstanding = s.outstanding)
    (hc : ∀ p, s'.connFd p = s.connFd p) (hb : s'.bound = s.bound) (hcr : s'.created = s.created)
    (ha : s'.accepted = s.accepted)
    (hm : ∀ p, s'.metas.countP (fun m => m.1 = p) ≤ s.metas.countP fun m => m.1 = p) :
    ∃ life', OwnInv s' life' ∧ (s'.Kept ↔ s.Kept ∧ True) := by
  refine h.quiet life ⟨fun p => ?_, hd, ?_⟩ hb hc fun _ => rfl
  · exact (h.life p).congr (by rw [ht]; exact (h.life p).slots) (by rw [ho]) (by rw [hout])
      (hc p) (by rw [hb]; exact fun _ => Iff.rfl) (by rw [hcr]) (hm p)
  · unfold Dispatch.Traced
    rw [ha, ht, hout, hb]
    exact h.traced

omit [DecidableEq κ] in
/-- A descriptor that is still in the vector, after a change of one tunnel. -/
theorem mem_unhandleFds_update (tun : Tunnel κ) {t' : τ} {x : ℕ}
    (hx : x ∈ (s.tunnels t').unhandleFds)
    (htun : x ∈ (s.tunnels t).unhandleFds → x ∈ tun.unhandleFds) :
    x ∈ (update s.tunnels t tun t').unhandleFds := by
  by_cases he : t' = t
  · subst he
    rw [Function.update_self]
    exact htun hx
  · rwa [Function.update_of_ne he]

/-- A public client is accepted. -/
theorem OwnInv.newPublicConn (h : OwnInv s life) {fd : ℕ} (hd : DispatchInv s')
    (hs : s.newPublicConnHandler t fd = some s') :
    ∃ life', OwnInv s' life' ∧ (s'.Kept ↔ s.Kept ∧ True) := by
  simp only [Dispatch.newPublicConnHandler] at hs
  split at hs
  · exact absurd hs (by simp)
  · split at hs
    · rename_i p tun hpop
      obtain ⟨rest, hrest, rfl⟩ := Tunnel.popFreeProxyConn_eq_some hpop
      obtain rfl := Option.some.inj hs
      have hfree : life p = .inFree t := by
        have hcount := ((h.life p).slots t).free
        rw [hrest, List.count_append] at hcount
        by_contra hp
        rw [if_neg (by rwa [Custody.slot_eq_free])] at hcount
        simp at hcount
      refine h.quiet (fun q => if q = p then .waiting t fd else life q)
        ⟨fun q => (h.life q).ask hrest, hd, fun x hx => ?_⟩ rfl (fun _ => rfl) fun q => ?_
      · rcases List.mem_cons.1 hx with rfl | hx
        · exact .inr (.inl ⟨p, by simp⟩)
        · rcases h.traced x hx with ⟨t', ht⟩ | ⟨q, hq⟩ | hb
          · exact .inl ⟨t', mem_unhandleFds_update _ ht id⟩
          · refine .inr (.inl ⟨q, ?_⟩)
            simp only [Function.update_apply]
            split <;> simp_all
          · exact .inr (.inr hb)
      · split
        · rename_i hq
          rw [hq, hfree]
          rfl
        · rfl
    · exact absurd hs (by simp)
    · obtain rfl := Option.some.inj hs
      refine h.quiet life ⟨fun q => ?_, hd, fun x hx => ?_⟩ rfl (fun _ => rfl)
        fun _ => rfl
      · have hslot : Tunnel.Holds { s.tunnels t with
            unhandleFds := (s.tunnels t).unhandleFds ++ [fd] } q ((life q).slot t) :=
          ⟨((h.life q).slots t).map, ((h.life q).slots t).wait, ((h.life q).slots t).free⟩
        exact (h.life q).congr ((h.life q).slots_update _ hslot fun _ _ => rfl) rfl rfl rfl
          (fun _ => Iff.rfl) rfl (Nat.le_refl _)
      · rcases List.mem_cons.1 hx with rfl | hx
        · exact .inl ⟨t, by simp⟩
        · rcases h.traced x hx with ⟨t', ht⟩ | hq | hb
          · exact .inl ⟨t', mem_unhandleFds_update _ ht fun hm => List.mem_append_left _ hm⟩
          · exact .inr (.inl hq)
          · exact .inr (.inr hb)

/-- A new connection is claimed and bound. -/
theorem OwnInv.claimProxyConn (h : OwnInv s life) (hd : DispatchInv s') (hm : (p, t) ∈ s.metas)
    (hs : Dispatch.claimProxyConn { s with metas := s.metas.erase (p, t) } p t = some s') :
    ∃ life', OwnInv s' life' ∧ (s'.Kept ↔ s.Kept ∧ True) := by
  simp only [Dispatch.claimProxyConn] at hs
  split at hs
  · exact absurd hs (by simp)
  · rename_i fd tun hpop
    obtain ⟨rest, hrest, rfl⟩ := Tunnel.getAndPopUndealPublicFd_eq_some hpop
    replace hrest : (s.tunnels t).unhandleFds = rest ++ [fd] := hrest
    obtain rfl := Option.some.inj hs
    have hp : life p = .unclaimed := by
      have hmetas := (h.life p).metas
      have hpos : 0 < s.metas.countP fun m => decide (m.1 = p) :=
        List.countP_pos_iff.2 ⟨_, hm, by simp⟩
      by_contra hp
      rw [if_neg fun hx => hp hx.1] at hmetas
      omega
    have h' : OwnInv _ fun q => if q = p then .inMap t else life q :=
      ⟨fun q => (h.life q).claim hm fd rest, hd, fun x hx => ?_⟩
    · refine ⟨_, h', ?_⟩
      have hunbound := (h.life p).unbound hp
      have hself := Dispatch.connFd_bind_self { s with metas := s.metas.erase (p, t) } t
        { s.tunnels t with unhandleFds := rest } fd p
      have hne : ∀ q, q ≠ p → _ := fun q hq =>
        Dispatch.connFd_bind_of_ne { s with metas := s.metas.erase (p, t) } t
          { s.tunnels t with unhandleFds := rest } fd hq
      rw [h.kept_iff, h'.kept_iff, and_true]
      constructor
      · intro hk q x hb
        have hq : q ≠ p := fun hq => hunbound x (hq ▸ hb)
        have hkq := hk q x (List.mem_cons_of_mem _ hb)
        rw [if_neg hq] at hkq
        exact ⟨(hne q hq).symm.trans hkq.1, hkq.2⟩
      · intro hk q x hb
        by_cases hq : q = p
        · subst hq
          obtain rfl : x = fd := by
            rcases List.mem_cons.1 hb with hb | hb
            · exact (Prod.mk.inj hb).2
            · exact absurd hb (hunbound x)
          rw [if_pos rfl]
          exact ⟨hself, rfl⟩
        · have hb' : (q, x) ∈ s.bound := by
            rcases List.mem_cons.1 hb with hb | hb
            · exact absurd (Prod.mk.inj hb).1 hq
            · exact hb
          rw [if_neg hq]
          exact ⟨(hne q hq).trans (hk q x hb').1, (hk q x hb').2⟩
    · rcases h.traced x hx with ⟨t', ht⟩ | hq | ⟨q, hb⟩
      · by_cases he : x = fd
        · exact .inr (.inr ⟨p, by simp [he]⟩)
        · refine .inl ⟨t', mem_unhandleFds_update _ ht fun hx => ?_⟩
          rw [hrest] at hx
          simpa [he] using hx
      · exact .inr (.inl hq)
      · exact .inr (.inr ⟨q, List.mem_cons_of_mem _ hb⟩)

/-- A reply finds its connection in the waiting map, under the request it answers. -/
theorem OwnInv.waiting_of_rsp (h : OwnInv s life) {fd : ℕ} {rest : List ℕ}
    (hr : s.rsps p = fd :: rest) (ht : s.tunnelOf p = some t) : life p = .waiting t fd := by
  obtain ⟨place, hf⟩ := h.dispatch.places fd
  have hfly := hf.flying p
  rw [hr, List.count_cons_self] at hfly
  have hmem : fd ∈ s.outstanding p := List.count_pos_iff.1 (by omega)
  have hout := (h.life p).outstanding
  have htun := (h.life p).tunnelOf
  rw [ht] at htun
  cases hl : life p with
  | waiting t' fd' =>
      rw [hout, hl] at hmem
      rw [hl] at htun
      obtain rfl : fd = fd' := by simpa [Custody.outstanding] using hmem
      obtain rfl : t = t' := by simpa [Custody.tunnel] using htun
      rfl
  | _ =>
      rw [hout, hl] at hmem
      simp [Custody.outstanding] at hmem

/-- A reply binds its connection, whose `conn_` referred to the last session. -/
theorem OwnInv.startRsp (h : OwnInv s life) {fd : ℕ} {rest : List ℕ} (hr : s.rsps p = fd :: rest)
    (ht : s.tunnelOf p = some t) (hd : DispatchInv s')
    (hs : ({ s with
      rsps := update s.rsps p rest
      outstanding := update s.outstanding p ((s.outstanding p).erase fd)
      }.handleStartProxyConnRsp t fd p) = s') :
    ∃ life', OwnInv s' life' ∧ (s'.Kept ↔ s.Kept ∧ s.connFd p = none) := by
  have hw := h.waiting_of_rsp hr ht
  have hwait : (s.tunnels t).waitProxyConnectMap p = true := by
    rw [((h.life p).slots t).wait, hw]
    simp [Custody.slot]
  have hout : (s.outstanding p).erase fd = [] := by
    rw [(h.life p).outstanding, hw]
    simp [Custody.outstanding]
  simp only [Dispatch.handleStartProxyConnRsp, hwait, Bool.true_eq_false, if_false] at hs
  subst hs
  have h' : OwnInv _ fun q => if q = p then .inMap t else life q :=
    ⟨fun q => (h.life q).start (fun hq => ⟨fd, hq ▸ hw⟩) fd rest hout, hd, fun x hx => ?_⟩
  · refine ⟨_, h', ?_⟩
    -- the descriptor of the last session is bound, and `conn_` no longer refers to it
    have hconn : s.connFd p ≠ none := fun hc => by
      have := (h.life p).conn_iff.1 hc
      simp [hw] at this
    obtain ⟨old, hold⟩ := Option.ne_none_iff_exists'.1 hconn
    have hb := (h.life p).conn_bound old hold
    have hne : old ≠ fd := by
      rintro rfl
      have hf := (h.place_of_bound hb).outstanding p
      rw [(h.life p).outstanding, hw] at hf
      simp [Custody.outstanding] at hf
    refine iff_of_false (fun hk => ?_) fun hk => hconn hk.2
    have hk' := (hk p old (List.mem_cons_of_mem _ hb)).1
    rw [Dispatch.connFd_bind_self] at hk'
    exact hne (Option.some.inj hk').symm
  · rcases h.traced x hx with ⟨t', ht'⟩ | ⟨q, hq⟩ | ⟨q, hb⟩
    · exact .inl ⟨t', mem_unhandleFds_update { s.tunnels t with
        waitProxyConnectMap := update (s.tunnels t).waitProxyConnectMap p false
        proxyConnectMap := update (s.tunnels t).proxyConnectMap p true } ht' id⟩
    · by_cases he : q = p
      · subst he
        rw [(h.life q).outstanding, hw] at hq
        obtain rfl : x = fd := by simpa [Custody.outstanding] using hq
        exact .inr (.inr ⟨q, List.mem_cons_self⟩)
      · exact .inr (.inl ⟨q, by simpa [he] using hq⟩)
    · exact .inr (.inr ⟨q, List.mem_cons_of_mem _ hb⟩)

/-- A connection is freed, and stays alive. -/
theorem OwnInv.freeProxyConn (h : OwnInv s life) (t : τ) (p : κ)
    (hd : DispatchInv { s with
      tunnels := update s.tunnels t ((s.tunnels t).freeProxyConn (s.half p).start p) }) :
    ∃ life', OwnInv { s with
        tunnels := update s.tunnels t ((s.tunnels t).freeProxyConn (s.half p).start p) } life' ∧
      (Dispatch.Kept { s with
        tunnels := update s.tunnels t ((s.tunnels t).freeProxyConn (s.half p).start p) } ↔
        s.Kept ∧ True) := by
  refine h.quiet (fun q =>
      if q = p ∧ life q = .inMap t ∧ (s.half p).start = false then .inFree t else life q)
    ⟨fun q => (h.life q).freeProxyConn, hd, fun x hx => ?_⟩ rfl (fun _ => rfl) fun q => ?_
  · rcases h.traced x hx with ⟨t', ht⟩ | hq
    · exact .inl ⟨t', mem_unhandleFds_update _ ht fun hm => by simpa using hm⟩
    · exact .inr hq
  · split
    · rename_i hq
      rw [hq.2.1]
      rfl
    · rfl

/-- **What a close lets go of.**  A connection with a `conn_` is lost with it unless it waits for a
reply or stands last among the free ones. -/
theorem OwnInv.close (h : OwnInv s life) (ht : s.tunnelOf p = some t)
    (hd : DispatchInv { s with
      closed := update s.closed p true
      tunnels := update s.tunnels t ((s.tunnels t).handlePeerProxyConnClose p) }) :
    ∃ life', OwnInv { s with
        closed := update s.closed p true
        tunnels := update s.tunnels t ((s.tunnels t).handlePeerProxyConnClose p) } life' ∧
      (Dispatch.Kept { s with
        closed := update s.closed p true
        tunnels := update s.tunnels t ((s.tunnels t).handlePeerProxyConnClose p) } ↔
        s.Kept ∧ ((s.tunnels t).waitProxyConnectMap p = true ∨
          (s.tunnels t).freeProxyConnects.getLast? = some (some p))) := by
  have h' : OwnInv { s with
        closed := update s.closed p true
        tunnels := update s.tunnels t ((s.tunnels t).handlePeerProxyConnClose p) } fun q =>
      if q = p ∧ (life q = .inMap t ∨
          (life q = .inFree t ∧ (s.tunnels t).freeProxyConnects.getLast? ≠ some (some p)))
        then .gone t else life q := by
    refine ⟨fun q => (h.life q).close, hd, fun x hx => ?_⟩
    rcases h.traced x hx with ⟨t', ht'⟩ | hq
    · exact .inl ⟨t', mem_unhandleFds_update _ ht' fun hm => by simpa using hm⟩
    · exact .inr hq
  refine ⟨_, h', ?_⟩
  have htun := (h.life p).tunnelOf
  have hslot := (h.life p).slots t
  have hp : life p ≠ .unclaimed := fun hp => by
    rw [ht, hp] at htun
    exact absurd htun (by simp [Custody.tunnel])
  obtain ⟨fd, hfd⟩ := Option.ne_none_iff_exists'.1 fun hc => hp ((h.life p).conn_iff.1 hc)
  have hb := (h.life p).conn_bound fd hfd
  have hwait : (s.tunnels t).waitProxyConnectMap p = true ↔ ∃ x, life p = .waiting t x := by
    rw [hslot.wait, decide_eq_true_eq, Custody.slot_eq_wait]
  have hlast : (s.tunnels t).freeProxyConnects.getLast? = some (some p) → life p = .inFree t := by
    intro hl
    have hpos := List.count_pos_iff.2 (List.mem_of_getLast? hl)
    rw [hslot.free] at hpos
    rw [← Custody.slot_eq_free]
    by_contra hs
    simp [hs] at hpos
  -- the closed connection is alive afterwards when it was alive and something still refers to it
  have hkey : (if life p = .inMap t ∨ (life p = .inFree t ∧
        (s.tunnels t).freeProxyConnects.getLast? ≠ some (some p)) then .gone t else life p).isGone =
      false ↔ (life p).isGone = false ∧ ((s.tunnels t).waitProxyConnectMap p = true ∨
        (s.tunnels t).freeProxyConnects.getLast? = some (some p)) := by
    rw [hwait]
    by_cases hl : (s.tunnels t).freeProxyConnects.getLast? = some (some p)
    · simp [hl, hlast hl, Custody.isGone]
    · cases hc : life p <;> simp_all [Custody.tunnel, Custody.isGone]
  rw [h.kept_iff, h'.kept_iff]
  constructor
  · intro hk
    have hkp := (hk p fd hb).2
    simp only [true_and] at hkp
    refine ⟨fun q x hq => ⟨(hk q x hq).1, ?_⟩, (hkey.1 hkp).2⟩
    by_cases he : q = p
    · subst he
      exact (hkey.1 hkp).1
    · have := (hk q x hq).2
      rwa [if_neg fun hx => he hx.1] at this
  · rintro ⟨hk, hstay⟩ q x hq
    refine ⟨(hk q x hq).1, ?_⟩
    by_cases he : q = p
    · subst he
      simp only [true_and]
      exact hkey.2 ⟨(hk q x hq).2, hstay⟩
    · rw [if_neg fun hx => he hx.1]
      exact (hk q x hq).2

/-- **One step preserves the invariant**, and keeps what is bound exactly when it satisfies
`Keeps`. -/
theorem OwnInv.step (h : OwnInv s life) {a : DispatchAct τ κ} (hs : s.step a = some s') :
    ∃ life', OwnInv s' life' ∧ (s'.Kept ↔ s.Kept ∧ Keeps s a) := by
  have hd : DispatchInv s' := h.dispatch.step hs
  cases a with
  | newPublicConn t fd => exact h.newPublicConn hd hs
  | proxyNotify t p =>
      simp only [Dispatch.step, Option.ite_none_right_eq_some, Option.some.injEq] at hs
      obtain ⟨⟨-, hp⟩, rfl⟩ := hs
      exact h.quiet life ⟨fun q => (h.life q).proxyNotify hp, hd, h.traced⟩ rfl
        (fun _ => rfl) fun _ => rfl
  | loseNotify t =>
      simp only [Dispatch.step, Option.ite_none_right_eq_some, Option.some.injEq] at hs
      obtain ⟨-, rfl⟩ := hs
      exact h.message hd rfl rfl rfl (fun _ => rfl) rfl rfl rfl fun _ => Nat.le_refl _
  | newProxyConn p =>
      simp only [Dispatch.step, Option.ite_none_right_eq_some, Option.some.injEq] at hs
      obtain ⟨-, rfl⟩ := hs
      exact h.message hd rfl rfl rfl (fun _ => rfl) rfl rfl rfl fun _ => Nat.le_refl _
  | claimProxyConn p t =>
      simp only [Dispatch.step, Option.ite_none_right_eq_some] at hs
      obtain ⟨⟨hm, -⟩, hs⟩ := hs
      exact h.claimProxyConn hd hm hs
  | loseMeta p t =>
      simp only [Dispatch.step, Option.ite_none_right_eq_some, Option.some.injEq] at hs
      obtain ⟨-, rfl⟩ := hs
      exact h.message hd rfl rfl rfl (fun _ => rfl) rfl rfl rfl fun _ =>
        List.erase_sublist.countP_le
  | answerReq p =>
      simp only [Dispatch.step] at hs
      split at hs
      · obtain rfl := Option.some.inj hs
        exact h.message hd rfl rfl rfl (fun _ => rfl) rfl rfl rfl fun _ => Nat.le_refl _
      · exact absurd hs (by simp)
  | loseReq p =>
      simp only [Dispatch.step] at hs
      split at hs
      · obtain rfl := Option.some.inj hs
        exact h.message hd rfl rfl rfl (fun _ => rfl) rfl rfl rfl fun _ => Nat.le_refl _
      · exact absurd hs (by simp)
  | startRsp p =>
      simp only [Dispatch.step] at hs
      split at hs
      · rename_i t fd rest ht hr
        simp only [Option.ite_none_right_eq_some, Option.some.injEq] at hs
        exact h.startRsp hr ht hd hs.2
      · exact absurd hs (by simp)
  | loseRsp p =>
      simp only [Dispatch.step] at hs
      split at hs
      · obtain rfl := Option.some.inj hs
        exact h.message hd rfl rfl rfl (fun _ => rfl) rfl rfl rfl fun _ => Nat.le_refl _
      · exact absurd hs (by simp)
  | resetConn p =>
      simp only [Dispatch.step, Option.ite_none_right_eq_some, Option.some.injEq] at hs
      obtain ⟨-, rfl⟩ := hs
      refine h.message hd rfl rfl rfl (fun q => ?_) rfl rfl rfl fun _ => Nat.le_refl _
      simp only [Dispatch.connFd, Function.update_apply]
      split
      · rename_i he
        rw [he]
        rfl
      · rfl
  | freeProxyConn t p =>
      obtain rfl := Option.some.inj hs
      exact h.freeProxyConn t p hd
  | closeProxyConn p =>
      simp only [Dispatch.step] at hs
      split at hs
      · rename_i t ht
        split at hs
        · exact absurd hs (by simp)
        · obtain rfl := Option.some.inj hs
          obtain ⟨life', h', hk⟩ := h.close ht hd
          refine ⟨life', h', hk.trans (and_congr_right fun _ => ?_)⟩
          have hp : s.connFd p ≠ none := fun hc => by
            have htun := (h.life p).tunnelOf
            rw [(h.life p).conn_iff.1 hc, ht] at htun
            exact absurd htun (by simp [Custody.tunnel])
          simp [Keeps, hp, ht]
      · exact absurd hs (by simp)

end OwnSteps

/-! ### Runs -/

theorem ownInv_of_reach {g : Dispatch τ κ → DispatchAct τ κ → Prop} {s : Dispatch τ κ}
    (hr : (dispatchLts τ κ).Reach g s) : ∃ life, OwnInv s life :=
  hr.invariant (I := fun s => ∃ life, OwnInv s life) ⟨_, ownInv_init⟩
    fun _ _ _ _ ⟨_, h⟩ _ hs => by
      obtain ⟨life', h', -⟩ := h.step hs
      exact ⟨life', h'⟩

/-- **When no descriptor is lost.**  After a run every accepted public descriptor is owned by an
object of a tunnel exactly when in this run no reply bound a connection that had served before, and
no connection that had served was closed except while it waited for a reply or stood last in
`free_proxy_connects_`. -/
theorem no_leak_iff {as : List (DispatchAct τ κ)} {s : Dispatch τ κ}
    (he : (dispatchLts τ κ).exec (dispatchLts τ κ).init as = some s) :
    s.NoLeak ↔ (dispatchLts τ κ).AllSteps Keeps (dispatchLts τ κ).init as := by
  have hr : (dispatchLts τ κ).Reach (fun _ _ => True) s :=
    .of_allSteps .init he (Lts.allSteps_true _ _)
  obtain ⟨life, h⟩ := ownInv_of_reach hr
  rw [h.noLeak_iff]
  refine Lts.trace_iff (g := fun _ _ => True) (I := fun s => s.Kept) ?_ ?_ ?_ he
    (Lts.allSteps_true _ _)
  · intro p fd hb
    exact absurd hb (by simp [dispatchLts, Dispatch.init])
  · intro s a s' hr hk _ hs
    obtain ⟨life, h⟩ := ownInv_of_reach hr
    obtain ⟨-, -, hiff⟩ := h.step hs
    rw [hiff]
    exact and_iff_right hk
  · intro s a s' hr hs hk
    obtain ⟨life, h⟩ := ownInv_of_reach hr
    obtain ⟨-, -, hiff⟩ := h.step hs
    exact (hiff.1 hk).1

/-- A public client is served, its connection is freed and closed while it stands last. -/
def closeLastFree : List (DispatchAct ℕ ℕ) :=
  [.newPublicConn 0 5, .proxyNotify 0 0, .newProxyConn 0, .claimProxyConn 0 0, .resetConn 0,
    .freeProxyConn 0 0, .closeProxyConn 0]

theorem no_leak_close_last_free :
    (((dispatchLts ℕ ℕ).exec (dispatchLts ℕ ℕ).init closeLastFree).get (by decide +kernel)).NoLeak :=
  (@no_leak_iff ℕ ℕ _ _ closeLastFree _ (Option.some_get _).symm).2 (by decide +kernel)

/-- A second public client is bound to the connection of the first. -/
def reuseTwice : List (DispatchAct ℕ ℕ) :=
  [.newPublicConn 0 5, .proxyNotify 0 0, .newProxyConn 0, .claimProxyConn 0 0, .resetConn 0,
    .freeProxyConn 0 0, .newPublicConn 0 6, .answerReq 0, .startRsp 0]

/-- Nothing refers to the first descriptor any more, and it is open. -/
theorem descriptor_lost :
    ¬ ∀ (as : List (DispatchAct ℕ ℕ)) (s : Dispatch ℕ ℕ),
      (dispatchLts ℕ ℕ).exec (dispatchLts ℕ ℕ).init as = some s → s.NoLeak := by
  intro h
  have he : (dispatchLts ℕ ℕ).exec (dispatchLts ℕ ℕ).init reuseTwice =
      some (((dispatchLts ℕ ℕ).exec (dispatchLts ℕ ℕ).init reuseTwice).get (by decide +kernel)) :=
    (Option.some_get _).symm
  obtain ⟨life, hinv⟩ := ownInv_of_reach (.of_allSteps .init he (Lts.allSteps_true _ _))
  have hk := (hinv.noLeak_iff.1 (h _ _ he) 0 5 (by decide +kernel)).1
  exact absurd hk (by decide +kernel)

end ProxySocket

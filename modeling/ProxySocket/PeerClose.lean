/-
**What the close of a proxy connection leaves in the containers.**

`Tunnel::handlePeerProxyConnClose` takes a connection out of `proxy_connect_map_`, does not look at
`wait_proxy_connect_map_`, and calls `std::remove` on `free_proxy_connects_` without erasing what it
leaves behind.  A connection is therefore taken out exactly when it stood in neither of the last two;
otherwise the vector keeps its length, with an empty pointer or the closed connection at its end,
where `popFreeProxyConn` takes the next one from.

Main definitions:

* `Tunnel.ClosesExactly`, `Tunnel.Unlisted` — the effect of a close, and the condition for it;
* `Dispatch.PopsLive` — the next connection that is popped exists and is open.

Main results:

* `stdRemove_eq_filter_iff` — `std::remove` alone filters a vector only when there is nothing to do;
* `FreeLive.step` — one step of the server keeps the vectors free of closed connections;
* `peer_close_exact_iff` — **when a close leaves nothing behind**.
-/

import ProxySocket.Ownership

set_option relaxedAutoImplicit false
set_option autoImplicit false

namespace ProxySocket

open Function (update)

variable {τ κ : Type} [DecidableEq τ] [DecidableEq κ]

/-! ### One close -/

/-- The close of `p` filters it out of `free_proxy_connects_`, and leaves it in no container. -/
def Tunnel.ClosesExactly (t : Tunnel κ) (p : κ) : Prop :=
  (t.handlePeerProxyConnClose p).freeProxyConnects =
      t.freeProxyConnects.filter (fun x => x ≠ some p) ∧
    ¬ (t.handlePeerProxyConnClose p).Live p

instance (t : Tunnel κ) (p : κ) : Decidable (t.ClosesExactly p) :=
  inferInstanceAs (Decidable (_ ∧ _))

/-- The connection is not free, and does not wait for a reply. -/
def Tunnel.Unlisted (t : Tunnel κ) (p : κ) : Prop :=
  some p ∉ t.freeProxyConnects ∧ t.waitProxyConnectMap p = false

instance (t : Tunnel κ) (p : κ) : Decidable (t.Unlisted p) := inferInstanceAs (Decidable (_ ∧ _))

theorem stdRemove_of_not_mem {l : List (Option κ)} {p : κ} (h : some p ∉ l) :
    stdRemove l p = l := by
  have hkept : (l.filter fun x => x ≠ some p) = l := List.filter_eq_self.2 fun x hx => by
    simpa using fun hxp : x = some p => h (hxp ▸ hx)
  rw [stdRemove, hkept]
  simp

/-- Without a call of `erase` the vector keeps its length, so only a vector without the connection
is filtered. -/
theorem stdRemove_eq_filter_iff {l : List (Option κ)} {p : κ} :
    stdRemove l p = l.filter (fun x => x ≠ some p) ↔ some p ∉ l := by
  constructor
  · intro h hp
    have hlen := congrArg List.length h
    rw [length_stdRemove] at hlen
    have hall := List.length_filter_eq_length_iff.1 hlen.symm
    exact absurd (hall _ hp) (by simp)
  · intro h
    rw [stdRemove_of_not_mem h]
    exact (List.filter_eq_self.2 fun x hx => by
      simpa using fun hxp : x = some p => h (hxp ▸ hx)).symm

/-- **What one close does**, whatever the containers hold. -/
theorem Tunnel.closesExactly_iff (t : Tunnel κ) (p : κ) : t.ClosesExactly p ↔ t.Unlisted p := by
  have hmap : (t.handlePeerProxyConnClose p).proxyConnectMap p = false := by
    simp [Tunnel.handlePeerProxyConnClose]
  constructor
  · rintro ⟨hfree, hlive⟩
    refine ⟨stdRemove_eq_filter_iff.1 hfree, ?_⟩
    cases hw : t.waitProxyConnectMap p with
    | false => rfl
    | true => exact absurd (.inr (.inl hw)) hlive
  · rintro ⟨hp, hw⟩
    refine ⟨stdRemove_eq_filter_iff.2 hp, ?_⟩
    rintro (h | h | h)
    · rw [hmap] at h
      exact absurd h (by decide)
    · have h' : t.waitProxyConnectMap p = true := h
      rw [hw] at h'
      exact absurd h' (by decide)
    · have h' : some p ∈ stdRemove t.freeProxyConnects p := h
      rw [stdRemove_of_not_mem hp] at h'
      exact hp h'

/-! ### The next connection that is popped -/

/-- `popFreeProxyConn` returns neither an empty pointer nor a closed connection, in any tunnel. -/
def Dispatch.PopsLive (s : Dispatch τ κ) : Prop :=
  ∀ t x tun, (s.tunnels t).popFreeProxyConn = some (x, tun) → ∃ q, x = some q ∧ s.closed q = false

/-- A close does what it should in the tunnel that has claimed the connection. -/
def ExactStep (s : Dispatch τ κ) : DispatchAct τ κ → Prop
  | .closeProxyConn p => ∀ t, s.tunnelOf p = some t → (s.tunnels t).ClosesExactly p
  | _ => True

/-- Only connections that are neither free nor waiting are closed. -/
def UnlistedStep (s : Dispatch τ κ) : DispatchAct τ κ → Prop
  | .closeProxyConn p => ∀ t, s.tunnelOf p = some t → (s.tunnels t).Unlisted p
  | _ => True

instance (s : Dispatch τ κ) : (a : DispatchAct τ κ) → Decidable (UnlistedStep s a)
  | .closeProxyConn p => inferInstanceAs (Decidable (∀ t, s.tunnelOf p = some t → _))
  | .newPublicConn _ _ | .proxyNotify _ _ | .loseNotify _ | .newProxyConn _ | .claimProxyConn _ _
  | .loseMeta _ _ | .answerReq _ | .loseReq _ | .startRsp _ | .loseRsp _ | .resetConn _
  | .freeProxyConn _ _ => .isTrue trivial

omit [DecidableEq τ] in
theorem exactStep_iff (s : Dispatch τ κ) (a : DispatchAct τ κ) :
    ExactStep s a ↔ UnlistedStep s a := by
  cases a with
  | closeProxyConn p =>
      exact forall_congr' fun t => imp_congr_right fun _ => Tunnel.closesExactly_iff _ p
  | _ => exact Iff.rfl

/-- **The invariant**: the free connections, and those in the map, are open. -/
structure FreeLive (s : Dispatch τ κ) : Prop where
  free : ∀ t, ∀ x ∈ (s.tunnels t).freeProxyConnects, ∃ q, x = some q ∧ s.closed q = false
  map : ∀ t q, (s.tunnels t).proxyConnectMap q = true → s.closed q = false
  claimed : ∀ q, s.closed q = true → s.tunnelOf q ≠ none

namespace FreeLive

variable {s s' : Dispatch τ κ} {t : τ} {tun : Tunnel κ} {p : κ}

omit [DecidableEq τ] [DecidableEq κ] in
theorem init : FreeLive (Dispatch.init : Dispatch τ κ) := by
  refine ⟨fun t x hx => ?_, fun t q hq => ?_, fun q hq => ?_⟩
  · exact absurd hx (by simp [Dispatch.init])
  · exact absurd hq (by simp [Dispatch.init])
  · exact absurd hq (by simp [Dispatch.init])

omit [DecidableEq τ] [DecidableEq κ] in
theorem popsLive (h : FreeLive s) : s.PopsLive := by
  intro t x tun hpop
  obtain ⟨rest, hf, -⟩ := Tunnel.popFreeProxyConn_eq_some hpop
  exact h.free t x (by rw [hf]; simp)

omit [DecidableEq τ] [DecidableEq κ] in
/-- A step that touches neither the containers nor the closed connections. -/
theorem congr (h : FreeLive s) (ht : s'.tunnels = s.tunnels) (hc : s'.closed = s.closed)
    (ho : s'.tunnelOf = s.tunnelOf) : FreeLive s' := by
  refine ⟨?_, ?_, ?_⟩
  · rw [ht, hc]
    exact h.free
  · rw [ht, hc]
    exact h.map
  · rw [hc, ho]
    exact h.claimed

omit [DecidableEq κ] in
/-- A change of one tunnel. -/
theorem update_tunnel (h : FreeLive s) (ht : s'.tunnels = update s.tunnels t tun)
    (hc : s'.closed = s.closed) (ho : ∀ q, s.tunnelOf q ≠ none → s'.tunnelOf q ≠ none)
    (hfree : ∀ x ∈ tun.freeProxyConnects, ∃ q, x = some q ∧ s.closed q = false)
    (hmap : ∀ q, tun.proxyConnectMap q = true → s.closed q = false) : FreeLive s' := by
  refine ⟨fun t' x hx => ?_, fun t' q hq => ?_, fun q hq => ?_⟩
  · rw [hc]
    by_cases he : t' = t
    · subst he
      rw [ht, Function.update_self] at hx
      exact hfree x hx
    · rw [ht, Function.update_of_ne he] at hx
      exact h.free t' x hx
  · rw [hc]
    by_cases he : t' = t
    · subst he
      rw [ht, Function.update_self] at hq
      exact hmap q hq
    · rw [ht, Function.update_of_ne he] at hq
      exact h.map t' q hq
  · rw [hc] at hq
    exact ho q (h.claimed q hq)

/-- An accepted descriptor takes a free connection, or waits for a new one. -/
theorem newPublicConn (h : FreeLive s) {fd : ℕ} (hs : s.newPublicConnHandler t fd = some s') :
    FreeLive s' := by
  simp only [Dispatch.newPublicConnHandler] at hs
  split at hs
  · exact absurd hs (by simp)
  split at hs
  · rename_i q tun hpop
    obtain rfl := Option.some.inj hs
    obtain ⟨rest, hf, rfl⟩ := Tunnel.popFreeProxyConn_eq_some hpop
    refine h.update_tunnel rfl rfl (fun _ hq => hq) (fun x hx => ?_) (h.map t)
    exact h.free t x (by rw [hf]; exact List.mem_append_left _ hx)
  · exact absurd hs (by simp)
  · obtain rfl := Option.some.inj hs
    exact h.update_tunnel rfl rfl (fun _ hq => hq) (h.free t) (h.map t)

/-- A binding puts an open connection into the map. -/
theorem bind (h : FreeLive s) (tun : Tunnel κ) (hp : s.closed p = false)
    (hf : tun.freeProxyConnects = (s.tunnels t).freeProxyConnects)
    (hm : tun.proxyConnectMap = (s.tunnels t).proxyConnectMap)
    (ht : s'.tunnels =
      update s.tunnels t { tun with proxyConnectMap := update tun.proxyConnectMap p true })
    (hc : s'.closed = s.closed) (ho : ∀ q, s.tunnelOf q ≠ none → s'.tunnelOf q ≠ none) :
    FreeLive s' := by
  refine h.update_tunnel ht hc ho (fun x hx => ?_) (fun q hq => ?_)
  · exact h.free t x (hf ▸ hx)
  · by_cases he : q = p
    · rw [he]
      exact hp
    · simp only [Function.update_of_ne he, hm] at hq
      exact h.map t q hq

/-- A connection that was not claimed is open. -/
theorem open_of_meta (h : FreeLive s) {life : κ → Custody τ} (hl : OwnInv s life)
    (hm : (p, t) ∈ s.metas) : s.closed p = false := by
  cases hc : s.closed p with
  | false => rfl
  | true =>
      have hpos : 0 < s.metas.countP fun m => decide (m.1 = p) :=
        List.countP_pos_iff.2 ⟨(p, t), hm, by simp⟩
      have hun : life p = .unclaimed := by
        by_contra hne
        have hle := (hl.life p).metas
        rw [if_neg (fun hx => hne hx.1)] at hle
        omega
      have hnone := (hl.life p).tunnelOf
      rw [hun] at hnone
      exact absurd hnone (h.claimed p hc)

/-- A close leaves no closed connection behind, when the connection was not listed. -/
theorem close (h : FreeLive s) {life : κ → Custody τ} (hl : OwnInv s life)
    (ht : s.tunnelOf p = some t) (hu : (s.tunnels t).Unlisted p) :
    FreeLive { s with
      closed := update s.closed p true
      tunnels := update s.tunnels t ((s.tunnels t).handlePeerProxyConnClose p) } := by
  -- the other tunnels do not know the connection
  have hslot : ∀ t', t' ≠ t → (life p).slot t' = .none := by
    intro t' hne
    have hcust := (hl.life p).tunnelOf
    rw [ht] at hcust
    cases hp : life p with
    | unclaimed | gone _ => rfl
    | inMap _ | inFree _ | waiting _ _ =>
        rw [hp] at hcust
        obtain rfl := Option.some.inj hcust
        exact if_neg (Ne.symm hne)
  have hfree : ∀ t', some p ∉ (s.tunnels t').freeProxyConnects := by
    intro t' hmem
    by_cases he : t' = t
    · exact hu.1 (he ▸ hmem)
    · have hcount := ((hl.life p).slots t').free
      rw [hslot t' he, if_neg (by decide)] at hcount
      exact List.count_eq_zero.1 hcount hmem
  have hkeep : ∀ x q, x = some q → x ≠ some p → update s.closed p true q = s.closed q := by
    intro x q hx hne
    exact Function.update_of_ne (fun he => hne (by rw [hx, he])) _ _
  refine ⟨fun t' x hx => ?_, fun t' q hq => ?_, fun q hq => ?_⟩
  · have hx' : x ∈ (s.tunnels t').freeProxyConnects := by
      by_cases he : t' = t
      · subst he
        simp only [Function.update_self, Tunnel.handlePeerProxyConnClose] at hx
        rwa [stdRemove_of_not_mem hu.1] at hx
      · simpa only [Function.update_of_ne he] using hx
    obtain ⟨q, hq, hc⟩ := h.free t' x hx'
    refine ⟨q, hq, ?_⟩
    simp only
    rw [hkeep x q hq fun he => hfree t' (he ▸ hx'), hc]
  · have hne : q ≠ p := by
      rintro rfl
      by_cases he : t' = t
      · subst he
        simp only [Function.update_self, Tunnel.handlePeerProxyConnClose] at hq
        exact absurd hq (by decide)
      · simp only [Function.update_of_ne he] at hq
        have hmap := ((hl.life q).slots t').map
        rw [hslot t' he, hq] at hmap
        exact absurd hmap (by decide)
    simp only [Function.update_of_ne hne]
    by_cases he : t' = t
    · subst he
      simp only [Function.update_self, Tunnel.handlePeerProxyConnClose,
        Function.update_of_ne hne] at hq
      exact h.map t' q hq
    · simp only [Function.update_of_ne he] at hq
      exact h.map t' q hq
  · by_cases he : q = p
    · subst he
      simp [ht]
    · simp only [Function.update_of_ne he] at hq
      exact h.claimed q hq

/-- **One step keeps the vectors free of closed connections**, when it closes none that is listed. -/
theorem step (h : FreeLive s) {life : κ → Custody τ} (hl : OwnInv s life) {a : DispatchAct τ κ}
    (ha : UnlistedStep s a) (hs : s.step a = some s') : FreeLive s' := by
  cases a with
  | newPublicConn t fd => exact h.newPublicConn hs
  | proxyNotify t p =>
      simp only [Dispatch.step, Option.ite_none_right_eq_some, Option.some.injEq] at hs
      obtain ⟨-, rfl⟩ := hs
      exact h.congr rfl rfl rfl
  | loseNotify t =>
      simp only [Dispatch.step, Option.ite_none_right_eq_some, Option.some.injEq] at hs
      obtain ⟨-, rfl⟩ := hs
      exact h.congr rfl rfl rfl
  | newProxyConn p =>
      simp only [Dispatch.step, Option.ite_none_right_eq_some, Option.some.injEq] at hs
      obtain ⟨-, rfl⟩ := hs
      exact h.congr rfl rfl rfl
  | claimProxyConn p t =>
      simp only [Dispatch.step, Dispatch.claimProxyConn, Option.ite_none_right_eq_some] at hs
      obtain ⟨⟨hm, -⟩, hs⟩ := hs
      split at hs
      · exact absurd hs (by simp)
      · rename_i fd tun hpop
        obtain rfl := Option.some.inj hs
        obtain ⟨rest, -, rfl⟩ := Tunnel.getAndPopUndealPublicFd_eq_some hpop
        refine h.bind { s.tunnels t with unhandleFds := rest } (h.open_of_meta hl hm) rfl rfl rfl rfl
          fun q hq => ?_
        by_cases he : q = p
        · simp [he]
        · simpa [Function.update_of_ne he] using hq
  | loseMeta p t =>
      simp only [Dispatch.step, Option.ite_none_right_eq_some, Option.some.injEq] at hs
      obtain ⟨-, rfl⟩ := hs
      exact h.congr rfl rfl rfl
  | answerReq p | loseReq p | loseRsp p =>
      simp only [Dispatch.step] at hs
      split at hs
      · obtain rfl := Option.some.inj hs
        exact h.congr rfl rfl rfl
      · exact absurd hs (by simp)
  | startRsp p =>
      simp only [Dispatch.step] at hs
      split at hs
      · rename_i t fd rest ht hr
        simp only [Option.ite_none_right_eq_some, Option.some.injEq] at hs
        obtain ⟨⟨-, hopen⟩, rfl⟩ := hs
        unfold Dispatch.handleStartProxyConnRsp
        split
        · exact h.congr rfl rfl rfl
        · exact h.bind { s.tunnels t with
            waitProxyConnectMap := update (s.tunnels t).waitProxyConnectMap p false }
            hopen rfl rfl rfl rfl fun _ hq => hq
      · exact absurd hs (by simp)
  | resetConn p =>
      simp only [Dispatch.step, Option.ite_none_right_eq_some, Option.some.injEq] at hs
      obtain ⟨-, rfl⟩ := hs
      exact h.congr rfl rfl rfl
  | freeProxyConn t p =>
      obtain rfl := Option.some.inj hs
      refine h.update_tunnel rfl rfl (fun _ hq => hq) (fun x hx => ?_) (fun q hq => ?_)
      · unfold Tunnel.freeProxyConn at hx
        split at hx
        · exact h.free t x hx
        · rename_i hmap
          split at hx
          · exact h.free t x hx
          · rcases List.mem_append.1 hx with hx | hx
            · exact h.free t x hx
            · exact ⟨p, List.mem_singleton.1 hx, h.map t p (by simpa using hmap)⟩
      · unfold Tunnel.freeProxyConn at hq
        split at hq
        · exact h.map t q hq
        · split at hq
          · exact h.map t q hq
          · by_cases he : q = p
            · subst he
              simp only [Function.update_self] at hq
              exact absurd hq (by decide)
            · simp only [Function.update_of_ne he] at hq
              exact h.map t q hq
  | closeProxyConn p =>
      simp only [Dispatch.step] at hs
      split at hs
      · rename_i t ht
        split at hs
        · exact absurd hs (by simp)
        · obtain rfl := Option.some.inj hs
          exact h.close hl ht (ha t ht)
      · exact absurd hs (by simp)

end FreeLive

/-! ### Runs -/

theorem freeLive_of_reach {s : Dispatch τ κ} (hr : (dispatchLts τ κ).Reach UnlistedStep s) :
    FreeLive s := by
  induction hr with
  | init => exact FreeLive.init
  | step hr ha hs ih =>
      obtain ⟨life, hl⟩ := ownInv_of_reach hr
      exact ih.step hl ha hs

/-- **When a close leaves nothing behind.**  Whatever the containers hold, a close filters the
connection out of `free_proxy_connects_` and leaves it in no container exactly when it was neither
free nor waiting; and in a run every close does so, with only open connections to be popped before
every step and at the end, exactly when every close meets that condition. -/
theorem peer_close_exact_iff {as : List (DispatchAct τ κ)} {s : Dispatch τ κ}
    (he : (dispatchLts τ κ).exec (dispatchLts τ κ).init as = some s) :
    (∀ (t : Tunnel κ) (p : κ), t.ClosesExactly p ↔ t.Unlisted p) ∧
      (((dispatchLts τ κ).AllSteps (fun s a => ExactStep s a ∧ s.PopsLive)
          (dispatchLts τ κ).init as ∧ s.PopsLive) ↔
        (dispatchLts τ κ).AllSteps UnlistedStep (dispatchLts τ κ).init as) := by
  refine ⟨Tunnel.closesExactly_iff, ?_⟩
  have hsteps : (dispatchLts τ κ).AllSteps (fun s a => ExactStep s a ∧ s.PopsLive)
      (dispatchLts τ κ).init as ↔
        (dispatchLts τ κ).AllSteps UnlistedStep (dispatchLts τ κ).init as := by
    refine Lts.allSteps_iff (g := fun _ _ => True) ?_ he (Lts.allSteps_true _ _)
    intro s a s' hr _ _
    have hlive := (freeLive_of_reach (hr.mono fun _ _ h => h.2)).popsLive
    rw [exactStep_iff]
    exact and_iff_left hlive
  rw [hsteps]
  refine and_iff_left_of_imp fun hall => ?_
  exact (freeLive_of_reach (.of_allSteps .init he hall)).popsLive

/-- A public client is served, and its connection is closed in the middle of the session. -/
def closeInSession : List (DispatchAct ℕ ℕ) :=
  [.newPublicConn 0 5, .proxyNotify 0 0, .newProxyConn 0, .claimProxyConn 0 0, .closeProxyConn 0]

theorem peer_close_exact_in_session :
    (dispatchLts ℕ ℕ).AllSteps (fun s a => ExactStep s a ∧ s.PopsLive) (dispatchLts ℕ ℕ).init
      closeInSession := by
  have he := (Option.some_get (x := (dispatchLts ℕ ℕ).exec (dispatchLts ℕ ℕ).init closeInSession)
    (by decide +kernel)).symm
  exact ((peer_close_exact_iff he).2.2 (by decide +kernel)).1

/-- Of two free connections the first one is closed: an empty pointer stands where the next one is
popped. -/
theorem peer_close_leaves_null :
    ¬ Tunnel.ClosesExactly { freeProxyConnects := [some 1, some 2] } 1 ∧
      (Tunnel.handlePeerProxyConnClose { freeProxyConnects := [some 1, some 2] }
        1).freeProxyConnects = [some 2, none] := by
  decide

end ProxySocket

/-
**The client's handlers follow the session protocol.**

Main results:

* `Rel.shutdonwLocalConn` — **`Tunnel::shutdonwLocalConn` refines the comparison of the protocol**;
* `Rel.cliCtlRead`, `Rel.cliHandleRead`, `Rel.localRead`, `Rel.cliRun` — one lemma for each handler.
-/

import ProxySocket.PairRel

set_option relaxedAutoImplicit false
set_option autoImplicit false

namespace ProxySocket

/-- `Tunnel::shutdonwLocalConn` makes the test of `handleRead` again. -/
theorem Pair.shutdonwLocalConn_of_ne {s : Pair} (h : s.cli.totalCount ≠ s.cli.recvCount) :
    s.shutdonwLocalConn = s := by
  unfold Pair.shutdonwLocalConn
  rw [if_pos h]

namespace Rel

variable {early : Bool} {fd : ℕ} {s : Pair} {t : Session}

/-! ### The client's shutdown functions -/

/-- A running client half has no give-back in flight. -/
theorem freeNew_of_running (hi : t.Inv) (hp : t.phase = .running) : t.freeNew = false := by
  rw [← Bool.not_eq_true]
  intro hf
  have := (hi.freeNew hf).1
  rw [hp] at this
  exact absurd this (by decide)

/-- The server's direction of a running client half is shut down. -/
theorem cliHalfRemote (h : Rel fd s t) (hp : t.phase = .running) (hs : t.cliSid = t.srvSid) :
    Rel fd { s with cli := { s.cli with halfClose := true } }
      { t with down := { t.down with done := true } } :=
  { h with cliHalf := by simp [hp, hs] }

/-- The second shutdown resets the client half. -/
theorem cliReset (h : Rel fd s t) (hpos : 0 < t.cliSid) (hp : t.phase = .running)
    (hcl : t.up.closed = true) (hrec : t.down.recv = t.down.wrote) :
    Rel fd { s with cli := s.cli.resetConn } { t with phase := .idle } := by
  obtain ⟨c, hc, hcc, -⟩ := h.cliConn hp
  exact { h with
    cliStart := by simp [ProxyConnect.resetConn]
    cliHalf := by simp [ProxyConnect.resetConn]
    cliRecv := by simp
    cliRecv' := fun _ => rfl
    cliTotal := by simp
    cliTotal' := fun _ => by
      have : ¬ t.cliSid = 0 := by omega
      simp [ProxyConnect.resetConn, noTotal, this]
    cliConn := by simp
    cliConn' := fun _ c' hc' => by
      obtain rfl : c = c' := Option.some.inj (hc.symm.trans hc')
      rw [hcc, hcl]
    cliConn2fd := by simp
    cliConn2fd' := fun _ => rfl
    cliPipe' := fun _ hw => h.cliPipe_of_complete hw hrec
    pending := by simp
    pending' := fun _ => h.pending' (by simp [hp]) }

/-- **`Tunnel::shutdonwLocalConn` refines the comparison of the protocol.** -/
theorem shutdonwLocalConn (h : Rel fd s t) (hi : t.Inv) (hp : t.phase = .running)
    (hs : t.cliSid = t.srvSid) (hb : t.Fits)
    (hr : 0 < t.down.recv ∨ t.down.ann = .applied ∨ t.overrun = true) (hd : t.down.done = false) :
    Rel fd s.shutdonwLocalConn t.cliCheck ∧ s.shutdonwLocalConn.localFds = s.localFds ∧
      ∃ evs, s.shutdonwLocalConn.log = s.log ++ evs ∧ ∀ e ∈ evs, ∀ t' : Session,
        (t'.Clean → t.swallowed = false) → EventOk t' s.localFds e := by
  have hiff := h.cliComplete_iff hi hp hs hb hr
  unfold Pair.shutdonwLocalConn Session.cliCheck
  by_cases hc : t.CliComplete
  · rw [if_neg (fun hne => hne (hiff.2 hc)), if_pos hc]
    have htc := hiff.2 hc
    obtain ⟨ha, hrec, hov⟩ := hc
    have hhalf := h.cliHalf
    have hfd := h.cliConn2fd hp
    have hcount : s.cli.recvCount.toNat = s.wroteDown := by
      rw [h.cliRecv hp hs, hrec, h.wroteDown, hov]
      exact Counter.toNat_ofNat hb.1
    have hev : ∀ e ∈ remoteEvents .client s.cli s.cliSid s.wroteDown, ∀ t' : Session,
        (t'.Clean → t.swallowed = false) → EventOk t' s.localFds e := by
      intro e he t' hcl
      simp only [remoteEvents, localEvents, List.mem_cons] at he
      rcases he with rfl | he
      · rw [List.getLast?_eq_getElem?] at hfd
        exact hfd
      · split at he
        · obtain rfl := List.mem_singleton.1 he
          exact fun hcl' => ⟨h.cliPipe_of_complete (hcl hcl') hrec, hcount⟩
        · simp at he
    unfold ProxyConnect.shutdownFromRemote Session.cliRemote
    by_cases hcl : t.up.closed = true
    · rw [if_pos (hhalf.2 ⟨hp, Or.inl hcl⟩), if_pos hcl, hcl, Bool.true_or]
      refine ⟨?_, rfl, _, rfl, hev⟩
      have hr' := (h.cliHalfRemote hp hs).cliReset (hi.busy (by simp [hp])) hp hcl hrec
      have hfree := freeNew_of_running hi hp
      exact { hr' with
        toSrv := by
          simp only [if_true]
          rw [h.toSrv, hfree]
          simp }
    · rw [if_neg (fun hh => (hhalf.1 hh).2.elim hcl (by simp [hd])), if_neg hcl]
      rw [Bool.not_eq_true] at hcl
      rw [hcl, Bool.false_or]
      exact ⟨(h.cliHalfRemote hp hs).withLog _, rfl, _, rfl, hev⟩
  · rw [if_pos (fun he => hc (hiff.1 he)), if_neg hc]
    exact ⟨h, rfl, [], by simp, by simp⟩

/-! ### Announcements -/

theorem cliRun (h : Rel fd s t) (hi : t.Inv) {s' : Pair} (hs : s.cliRun = some s') :
    Matched early fd s t s' := by
  unfold Pair.cliRun at hs
  have hph : t.phase = .announced := by
    by_contra hph
    rw [h.pending' hph] at hs
    exact absurd hs (by simp)
  obtain ⟨localFd, hpos, hlast, hpend⟩ := h.pending hph
  rw [hpend] at hs
  obtain rfl := Option.some.inj hs
  obtain ⟨hcl, hwrote, hsw, hrecv⟩ := hi.announced hph
  have hov : t.overrun = false := by
    rw [← Bool.not_eq_true]
    intro ho
    have := (hi.over_run ho).1
    rw [hsw] at this
    exact absurd this (by decide)
  have hhalf := h.cliHalf
  refine .step (.cliRun hph) ?_ rfl
  exact { h with
    cliStart := by simp [ProxyConnect.run]
    cliHalf := by
      have : s.cli.halfClose ≠ true := fun hh => by
        have := (hhalf.1 hh).1
        rw [hph] at this
        exact absurd this (by decide)
      simp only [ProxyConnect.run, hcl]
      constructor
      · exact fun hh => absurd hh this
      · rintro ⟨-, hc | ⟨hs, hd⟩⟩
        · exact absurd hc (by decide)
        · rw [(hrecv hs).1] at hd
          exact absurd hd (by decide)
    cliRecv := fun _ hsid => by
      simp only [ProxyConnect.run, hov, (hrecv hsid).2]
      exact h.cliRecv' (.inl (by simp [hph]))
    cliRecv' := fun _ => h.cliRecv' (.inl (by simp [hph]))
    cliTotal := fun _ => h.cliTotal (by simp [hph])
    cliTotal' := by simp
    cliConn := fun _ => ⟨_, rfl, by simp [hcl], by simp [hwrote]⟩
    cliConn' := by simp
    cliConn2fd := fun _ => hlast
    cliConn2fd' := by simp
    cliPipe' := by simp
    pending := by simp
    pending' := fun _ => rfl }

/-- The announcement of the first session, over a new connection. -/
theorem handleProxyNotify (h : Rel fd s t) (hi : t.Inv) (hsid : t.cliSid = 0) {localFd : ℕ}
    (hpos : 0 < localFd) :
    Rel fd (({ s with toCli := [] } : Pair).handleProxyNotify localFd)
      { t with cliSid := 1, up := {}, phase := .announced } := by
  have hsrv : t.srvSid = 0 := by
    rcases hi.sids with hs | hs <;> omega
  have hpl : t.place = .unclaimed := hi.unclaimed_iff.2 hsrv
  have hup := h.up_nil hi (by simp [hpl]) (by omega)
  have hu := hi.freshUp hsid
  have hd := hi.freshDown hsrv
  have hq : t.reqQueued = false := by
    rw [← Bool.not_eq_true]
    intro hr
    have := (hi.req hr).1
    rw [hpl] at this
    exact absurd this (by decide)
  have hw : t.swallowed = false := by
    rw [← Bool.not_eq_true]
    intro hr
    have := (hi.swallow hr).2
    rw [hpl] at this
    exact absurd this (by decide)
  have hfds : s.localFds = [] := List.eq_nil_of_length_eq_zero (by rw [h.cliSid, hsid])
  have hph : t.phase = .idle := by
    by_contra hne
    have := hi.busy hne
    omega
  have hpipe := h.cliPipe' (by simp [hph]) hw
  have hhalf := h.srvHalf
  have hto := h.toSrv
  rw [hu] at hto
  exact { h with
    cliSid := by simp [Pair.handleProxyNotify, Pair.announce, hfds]
    wroteUp := rfl
    srvHalf := by
      simp only [Pair.handleProxyNotify, Pair.announce]
      rw [hhalf, hpl]
      simp
    srvRecv := by simp [hpl]
    srvTotal := by simp [hpl]
    cliStart := by simp [Pair.handleProxyNotify, Pair.announce]
    cliHalf := by simp [Pair.handleProxyNotify, Pair.announce]
    cliRecv := by simp
    cliRecv' := fun _ => rfl
    cliTotal := fun _ => by simp [Pair.handleProxyNotify, Pair.announce, hsrv, noTotal]
    cliTotal' := by simp
    cliConn := by simp
    cliConn' := fun _ c hc => absurd hc (by simp [Pair.handleProxyNotify, Pair.announce])
    cliConn2fd := by simp
    cliConn2fd' := fun _ => rfl
    cliPipe' := fun _ _ => rfl
    cliMap := by simp [Pair.handleProxyNotify, Pair.announce]
    pending := fun _ => ⟨localFd, hpos, by simp [Pair.handleProxyNotify, Pair.announce], rfl⟩
    pending' := by simp
    toSrv := by simpa [Pair.handleProxyNotify, Pair.announce] using hto
    toCli := by simp [Pair.handleProxyNotify, Pair.announce, hd]
    upLine := fun hc => by have : 1 = t.srvSid := hc; omega
    upAhead := fun _ => ⟨[], .proxyMetaSet, rfl, by
      simp [Pair.handleProxyNotify, Pair.announce, hup], .inl ⟨rfl, rfl⟩⟩
    downLine := by
      obtain ⟨bs, req, hlen, hline, hreq⟩ := h.downLine
      refine ⟨bs, req, hlen, ?_, hreq⟩
      rw [← hline, hpipe]
      rfl
    cliPipe := fun _ => ⟨[], rfl⟩
    swallowed := fun hc => absurd hc (by simp [hw]) }

/-- The client's answer to a request it reads as a frame. -/
theorem handleProxyConnectReq (h : Rel fd s t) (hi : t.Inv) (hph : t.phase = .idle)
    (hq : t.reqQueued = true) (hcli : 0 < t.cliSid) (hbuf : s.srv.buf = []) {publicFd localFd : ℕ}
    (hpos : 0 < localFd) (l : List Event) :
    Rel fd (({ s with down := [], log := l } : Pair).handleProxyConnectReq publicFd localFd)
      { t with
        cliSid := t.cliSid + 1
        up := {}
        phase := .announced
        reqQueued := false
        freeOld := t.freeNew
        freeNew := false } := by
  obtain ⟨hpl, hw⟩ := hi.req hq
  obtain ⟨hsid, hidle⟩ := hi.idle hph
  obtain ⟨hdone, hclosed⟩ := hidle hcli
  have hup := h.up_nil hi (by simp [hpl]) hsid
  have hpipe := h.cliPipe' (by simp [hph]) hw
  have hst : s.cli.start = false := by
    rw [← Bool.not_eq_true, h.cliStart, hph]
    decide
  have hcliHalf := h.cliHalf
  rw [hph] at hcliHalf
  have hhalf := h.srvHalf
  rw [hpl] at hhalf
  have hann := (hi.up.done_imp ((hi.ended (.inr (.inr hpl))).2 hsid)).1
  have hold : t.freeOld = false := by
    rw [← Bool.not_eq_true]
    intro hf
    rcases hi.freeOld hf with ha | ha <;> rw [hann] at ha <;> exact absurd ha (by decide)
  have hto := h.toSrv
  rw [hold, hann] at hto
  have htoCli := h.toCli
  have hne : ¬ t.cliSid = 0 := by omega
  have htot := h.cliTotal' hph
  obtain ⟨bs, req, hlen, hline, hreq⟩ := h.downLine
  have hdrec := (hi.down.done_imp hdone).2
  unfold Pair.handleProxyConnectReq
  rw [if_neg (by simp [hst])]
  exact { h with
    cliSid := by simp [Pair.announce, h.cliSid]
    wroteUp := rfl
    srvHalf := by simpa [Pair.announce, hpl] using hhalf
    srvRecv := by simp [hpl]
    srvTotal := by simp [hpl]
    cliStart := by simp [Pair.announce, hst]
    cliHalf := by simpa [Pair.announce] using hcliHalf
    cliRecv := by simp
    cliRecv' := fun _ => h.cliRecv' (.inl (by simp [hph]))
    cliTotal := fun _ => by
      simp only [Pair.announce]
      rw [htot, if_neg (by omega)]
    cliTotal' := by simp
    cliConn := by simp
    cliConn' := fun _ => h.cliConn' (by simp [hph])
    cliConn2fd := by simp
    cliConn2fd' := fun _ => h.cliConn2fd' (by simp [hph])
    cliPipe' := fun _ _ => hpipe
    cliMap := by simpa [Pair.announce, hcli] using h.cliMap
    pending := fun _ => ⟨localFd, hpos, by simp [Pair.announce], by simp [Pair.announce, hne]⟩
    pending' := by simp
    toSrv := by simpa [Pair.announce] using hto
    toCli := by simpa [Pair.announce, hne] using htoCli
    upLine := fun hc => by have : t.cliSid + 1 = t.srvSid := hc; omega
    upAhead := fun _ => ⟨[], .proxyConnectRsp publicFd, rfl, by simp [Pair.announce, hup],
      .inr ⟨by simp only; omega, publicFd, rfl⟩⟩
    downLine := ⟨[], [], by simp [hdrec], by simp [Pair.announce, hpipe, hbuf],
      .inr ⟨not_reqPresent rfl hw, rfl⟩⟩
    cliPipe := fun _ => ⟨[], hpipe⟩
    swallowed := fun hc => absurd hc (by simp [hw])
    buf := .inl hbuf }

/-! ### The main thread -/

/-- `Client::handleShutdownLocalConn` on the server's announcement.  Before the session runs, the
announcement of no byte at all would reset a half that has no connection yet. -/
theorem handleShutdownLocalConn (h : Rel fd s t) (hi : t.Inv) (hb : t.Fits)
    (ha : t.down.ann = .inFlight) (hp : t.phase = .running ∨ 0 < t.down.wrote) :
    Matched early fd s t
      (({ s with toCli := [] } : Pair).handleShutdownLocalConn (.ofNat t.down.wrote)) := by
  have hsid := hi.sids_of_inFlight ha
  have hdone : t.down.done = false := by
    rw [← Bool.not_eq_true]
    intro hd
    have := (hi.down.done_imp hd).1
    rw [ha] at this
    exact absurd this (by decide)
  have hph := hi.phase_ne_of_inFlight ha
  have hcli : t.cliSid ≠ 0 := by
    have := hi.busy hph
    omega
  have hmap : s.cliProxyConnectMap = true := h.cliMap.2 (by omega)
  have htot := h.cliTotal hph
  rw [if_neg (by simp [ha])] at htot
  let t₁ : Session := { t with down := { t.down with ann := .applied } }
  let s₁ : Pair := { s with
    toCli := []
    cli := { s.cli with totalCount := addTotalCount s.cli.totalCount (.ofNat t.down.wrote) } }
  have hi₁ : t₁.Inv := hi.applyDown ha
  have hr₁ : Rel fd s₁ t₁ := { h with
    cliTotal := fun _ => by
      simp only [s₁, t₁]
      rw [htot, addTotalCount_noTotal, hsid]
      simp
    cliTotal' := fun hc => absurd hc hph
    toCli := by simp [s₁, t₁, hcli] }
  have hs₁ : ({ s with toCli := [] } : Pair).handleShutdownLocalConn (.ofNat t.down.wrote) =
      s₁.shutdonwLocalConn := by
    unfold Pair.handleShutdownLocalConn
    rw [if_neg (by simp [hmap])]
  rw [hs₁]
  by_cases hrun : t.phase = .running
  · obtain ⟨hr', hfds, evs, hlog, hev⟩ :=
      hr₁.shutdonwLocalConn hi₁ hrun hsid hb (.inr (.inl rfl)) hdone
    refine ⟨⟨_, .single (.cliApply ha hp), hr'⟩, evs, hlog, fun e he => ?_⟩
    rw [hfds]
    exact hev e he t fun hc => hc.1
  · -- the half has received nothing, and the announcement is not empty
    have hwr : 0 < t.down.wrote := hp.resolve_left hrun
    have hann : t.phase = .announced := by
      cases hpp : t.phase with
      | idle => exact absurd hpp hph
      | announced => rfl
      | running => exact absurd hpp hrun
    have hne : s₁.cli.totalCount ≠ s₁.cli.recvCount := by
      rw [hr₁.cliTotal hph, if_pos ⟨hsid, rfl⟩, hr₁.cliRecv' (.inl hrun)]
      intro he
      have he' : Counter.ofNat t.down.wrote = Counter.ofNat 0 := he
      have hlt := hb.1
      unfold byteBound at hlt
      rw [Counter.ofNat_inj (by omega) (by omega)] at he'
      omega
    rw [Pair.shutdonwLocalConn_of_ne hne]
    have hcheck : t₁.cliCheck = t₁ := by
      unfold Session.cliCheck
      refine if_neg fun hc => ?_
      have hrec : t.down.recv = t.down.wrote := hc.2.1
      have := ((hi.announced hann).2.2.2 hsid).2
      omega
    refine ⟨⟨_, .single (.cliApply ha hp), ?_⟩, [], by simp [s₁], by simp⟩
    exact hcheck.symm ▸ hr₁

theorem cliCtlRead (h : Rel fd s t) (hi : t.Inv) (hb : t.Fits) {localFd : ℕ}
    (hw : ¬ (s.Owes .worker ∧ s.toCli.head? = some (.shutdownPeerConn 0))) {s' : Pair}
    (hs : s.cliCtlRead localFd = some s') : Matched early fd s t s' := by
  have hto := h.toCli
  unfold Pair.cliCtlRead at hs
  split at hs
  · exact absurd hs (by simp)
  · rename_i hmain
    by_cases hsid : t.cliSid = 0
    · have hsrv : t.srvSid = 0 := by rcases hi.sids with hc | hc <;> omega
      have hd := hi.freshDown hsrv
      have hto' : s.toCli = [.notifyClient] := by simpa [hsid, hd] using hto
      rw [hto'] at hs
      simp only at hs
      split at hs
      · obtain rfl := Option.some.inj hs
        exact .step (.cliNotify hsid) (h.handleProxyNotify hi hsid ‹_›) rfl
      · exact absurd hs (by simp)
    · by_cases ha : t.down.ann = .inFlight
      · rw [if_neg hsid, if_pos ha] at hto
        rw [hto] at hs
        obtain rfl := Option.some.inj hs
        refine h.handleShutdownLocalConn hi hb ha ?_
        by_contra hc
        obtain ⟨hrun, hwr⟩ := not_or.1 hc
        have hann : t.phase = .announced := by
          cases hpp : t.phase with
          | idle => exact absurd hpp (hi.phase_ne_of_inFlight ha)
          | announced => rfl
          | running => exact absurd hpp hrun
        obtain ⟨lf, -, -, hpend⟩ := h.pending hann
        by_cases h1 : t.cliSid = 1
        · rw [if_pos h1] at hpend
          exact hmain ⟨_, hpend⟩
        · rw [if_neg h1] at hpend
          refine hw ⟨⟨_, hpend⟩, ?_⟩
          rw [hto]
          simp [Nat.eq_zero_of_not_pos hwr]
      · rw [if_neg hsid, if_neg ha] at hto
        rw [hto] at hs
        exact absurd hs (by simp)

/-! ### The local side -/

/-- The local side ends its stream. -/
theorem shutdownFromClient (h : Rel fd s t) (hi : t.Inv) (hb : t.Fits) (hp : t.phase = .running)
    (hcl : t.up.closed = false) {c : PeerConnect} (hcount : c.tranCount = .ofNat t.up.wrote) :
    Matched early fd s t
      (({ s with cli := { s.cli with conn := some { c with closed := true } } } : Pair)
        |>.shutdownFromClient c.tranCount) := by
  have hpos : 0 < t.cliSid := hi.busy (by simp [hp])
  have hm : s.cliProxyConnectMap = true := h.cliMap.2 hpos
  have hunsent : t.up.ann = .unsent := hi.up.unsent_iff.2 hcl
  have hfree := freeNew_of_running hi hp
  have hto := h.toSrv
  rw [hunsent, hfree] at hto
  have hhalf := h.cliHalf
  have htot := h.srvTotal
  rw [hunsent] at htot
  -- the half is marked, and the announcement is sent
  have hr : Rel fd { s with
      cli := { s.cli with conn := some { c with closed := true }, halfClose := true }
      toSrv := s.toSrv ++ [.shutdownPeerConn c.tranCount] }
      { t with up := { t.up with closed := true, ann := .inFlight } } := { h with
    cliHalf := by simp [hp]
    cliConn := fun _ => ⟨_, rfl, rfl, hcount⟩
    cliConn' := fun hne => absurd hp hne
    srvTotal := fun hph => by simpa using htot hph
    toSrv := by simp [hto, hcount, hfree] }
  unfold Pair.shutdownFromClient
  rw [if_neg (by simp [hm])]
  unfold ProxyConnect.shutdownFromLocal
  refine ⟨⟨_, .single (.locClose hp hcl), ?_⟩, localEvents .client s.cli s.wroteDown, rfl, ?_⟩
  · by_cases hd : t.down.done = true ∧ t.cliSid = t.srvSid
    · have hh : s.cli.halfClose = true := hhalf.2 ⟨hp, .inr ⟨hd.2, hd.1⟩⟩
      simp only [hh, if_true, if_pos hd]
      exact (hr.cliReset hpos hp rfl (hi.down.done_imp hd.1).2).withLog _
    · have hh : s.cli.halfClose = false := by
        rw [← Bool.not_eq_true, hhalf, hcl]
        rintro ⟨-, hc | hc⟩
        · exact absurd hc (by decide)
        · exact hd ⟨hc.2, hc.1⟩
      simp only [hh, if_neg hd]
      exact hr.withLog _
  · intro e he
    unfold localEvents at he
    split at he
    · rename_i hh
      obtain rfl := List.mem_singleton.1 he
      obtain ⟨hsid, hd⟩ := (hhalf.1 hh).2.resolve_left (by simp [hcl])
      have hrec := (hi.down.done_imp hd).2
      intro hclean
      have hov : t.overrun = false := by
        rw [← Bool.not_eq_true]
        intro ho
        have := (hi.over_run ho).1
        rw [hclean.1] at this
        exact absurd this (by decide)
      refine ⟨h.cliPipe_of_complete hclean.1 hrec, ?_⟩
      rw [h.cliRecv hp hsid, hrec, h.wroteDown, hov]
      exact Counter.toNat_ofNat hb.1
    · simp at he

/-- The local side sends bytes. -/
theorem locWrite (h : Rel fd s t) (hi : t.Inv) (hp : t.phase = .running)
    (hcl : t.up.closed = false) (w : List UInt8) {conn : Option PeerConnect}
    (hconn : ∃ c, conn = some c ∧ c.closed = t.up.closed ∧
      c.tranCount = .ofNat (t.up.wrote + w.length)) :
    Rel fd { s with
        cli := { s.cli with conn := conn }
        up := s.up ++ raws s.cliSid w
        wroteUp := s.wroteUp + w.length }
      { t with up := { t.up with wrote := t.up.wrote + w.length } } := by
  have hunsent : t.up.ann = .unsent := hi.up.unsent_iff.2 hcl
  have hcli : s.cliSid = t.cliSid := h.cliSid
  have hto := h.toSrv
  have htot := h.srvTotal
  rw [hunsent] at hto htot
  exact { h with
    wroteUp := by rw [h.wroteUp]
    cliConn := fun _ => hconn
    cliConn' := fun hne => absurd hp hne
    srvTotal := fun hph => by simpa [hunsent] using htot hph
    toSrv := by simpa [hunsent] using hto
    upLine := fun hsid => by
      obtain ⟨bs, hlen, hline⟩ := h.upLine hsid
      refine ⟨bs ++ w, by simp only [List.length_append]; omega, ?_⟩
      rw [← List.append_assoc, hline, hcli, raws_append]
    upAhead := fun hah => by
      obtain ⟨bs, m, hlen, hline, hm⟩ := h.upAhead hah
      refine ⟨bs ++ w, m, by simp only [List.length_append]; omega, ?_, hm⟩
      rw [hline, hcli, raws_append, List.cons_append] }

theorem localRead (h : Rel fd s t) (hi : t.Inv) (hb : t.Fits) {i : SpliceIn} {o : SpliceOut}
    {s' : Pair} (hs : s.localRead i o = some s') : Matched early fd s t s' := by
  unfold Pair.localRead at hs
  split at hs
  · exact absurd hs (by simp)
  cases hconn : s.cli.conn with
  | none =>
      rw [hconn] at hs
      exact absurd hs (by simp)
  | some c =>
      rw [hconn] at hs
      simp only at hs
      split at hs
      case isFalse => exact absurd hs (by simp)
      case isTrue hadm =>
      obtain ⟨hin, hout⟩ := hadm
      unfold ClientConnect.handleRead at hs
      by_cases hcl : c.closed = true
      · rw [spliceThrough_of_closed hcl hin hout] at hs
        obtain rfl := Option.some.inj hs
        refine .stay ?_ rfl
        have hsame : ({ s.cli with conn := some c } : ProxyConnect) = s.cli := by rw [← hconn]
        simp only [hsame, raws_nil, List.append_nil, List.length_nil, Nat.add_zero]
        exact h
      · have hp : t.phase = .running := by
          by_contra hp
          exact hcl (h.cliConn' hp c hconn)
        obtain ⟨c', hc', hcc, hcount⟩ := h.cliConn hp
        obtain rfl : c = c' := Option.some.inj (hconn.symm.trans hc')
        have hucl : t.up.closed = false := by
          rw [← hcc]
          simpa using hcl
        by_cases hend : AtEnd c i
        · rw [spliceThrough_of_atEnd o hend] at hs
          obtain rfl := Option.some.inj hs
          simp only [raws_nil, List.append_nil, List.length_nil, Nat.add_zero]
          exact h.shutdownFromClient hi hb hp hucl hcount
        · rw [spliceThrough_of_not_atEnd hend hout] at hs
          obtain rfl := Option.some.inj hs
          have hlen : ((c.pipe ++ i.bytes).take o.count).length = o.count := by
            have := hout.1
            rw [List.length_take, List.length_append]
            omega
          refine .step (.locWrite ((c.pipe ++ i.bytes).take o.count).length hp hucl) ?_ rfl
          refine h.locWrite hi hp hucl _ ⟨_, rfl, hcc, ?_⟩
          simp only
          rw [hlen, Counter.ofNat_add, hcount]

/-! ### The read handler of the half -/

/-- A running client half with something to read serves the session the server has started, and no
request was taken for bytes yet. -/
theorem sids_of_down (h : Rel fd s t) (hi : t.Inv) (hdown : s.down ≠ []) :
    t.cliSid = t.srvSid ∧ t.swallowed = false := by
  constructor
  · exact hi.sids.resolve_right fun hah => hdown (h.down_of_ahead hi hah).2.1
  · rw [← Bool.not_eq_true]
    exact fun hw => hdown (h.swallowed hw).1

/-- What the client half has in the stream and in its pipe, before a request is swallowed. -/
theorem stream (h : Rel fd s t) (hw : t.swallowed = false) :
    ∃ bs req, bs.length + t.down.recv = t.down.wrote ∧
      s.cli.pipe ++ (s.down ++ s.srv.buf) = raws t.srvSid bs ++ req ∧
      (t.reqQueued = true ∧ (∃ f, req = [.frame (.proxyConnectReq f)]) ∨
        t.reqQueued = false ∧ req = []) := by
  obtain ⟨bs, req, hlen, hline, hreq⟩ := h.downLine
  refine ⟨bs, req, hlen, hline, ?_⟩
  rcases hreq with ⟨hp, hf⟩ | ⟨hp, hf⟩
  · refine .inl ⟨hp.resolve_right fun hc => ?_, hf⟩
    rw [hw] at hc
    exact absurd hc.1 (by decide)
  · refine .inr ⟨?_, hf⟩
    rw [← Bool.not_eq_true]
    exact fun hq => hp (.inl hq)

/-- The events of a read: every cell is a byte of the session, or the request. -/
theorem cliRead_events (h : Rel fd s t) (hp : t.phase = .running)
    (hsid : t.cliSid = t.srvSid) (hw : t.swallowed = false) {c : Cell}
    (hc : c ∈ s.cli.pipe ++ s.down) :
    EventOk t s.localFds (.cliRead s.cli.start s.cli.conn2fd c) ∧
      EventOk t s.localFds (.spliced .client s.cliSid c) := by
  obtain ⟨bs, req, -, hline, hreq⟩ := h.stream hw
  have hmem : c ∈ raws t.srvSid bs ++ req := by
    rw [← hline, ← List.append_assoc]
    exact List.mem_append_left _ hc
  have hst := h.cliStart.2 hp
  have hfd := h.cliConn2fd hp
  rw [List.getLast?_eq_getElem?, h.cliSid, hsid] at hfd
  rcases List.mem_append.1 hmem with hc | hc
  · obtain ⟨b, -, rfl⟩ := List.mem_map.1 hc
    have hcli : s.cliSid = t.srvSid := h.cliSid.trans hsid
    exact ⟨⟨hst, hfd⟩, fun _ => ⟨b, by rw [hcli]⟩⟩
  · rcases hreq with ⟨hq, f, rfl⟩ | ⟨-, rfl⟩
    · obtain rfl := List.mem_singleton.1 hc
      refine ⟨⟨hq, fun _ => hp⟩, fun hcl => ?_⟩
      rw [hcl.2 hp] at hq
      exact absurd hq (by decide)
    · exact absurd hc (by simp)

/-- The first splice: cells move from the stream into the pipe. -/
theorem cliTakeIn (h : Rel fd s t) (early : Bool) (hi : t.Inv) (hp : t.phase = .running) {n : ℕ}
    (hn : 0 < n) (hnle : n ≤ s.down.length) (l : List Event) :
    ∃ t₀, Relation.ReflTransGen (Session.Step early) t t₀ ∧ t₀.phase = .running ∧
      t₀.cliSid = t₀.srvSid ∧ t₀.down = t.down ∧ t₀.overrun = false ∧
      (t.Clean → t₀.Clean) ∧
      Rel fd { s with
        cli := { s.cli with pipe := s.cli.pipe ++ s.down.take n }
        down := s.down.drop n
        log := l } t₀ := by
  have hdown : s.down ≠ [] := fun hnil => by
    rw [hnil] at hnle
    simp only [List.length_nil] at hnle
    omega
  obtain ⟨hsid, hw⟩ := h.sids_of_down hi hdown
  have hov : t.overrun = false := by
    rw [← Bool.not_eq_true]
    intro ho
    have := (hi.over_run ho).1
    rw [hw] at this
    exact absurd this (by decide)
  obtain ⟨bs, req, hlen, hline, hreq⟩ := h.stream hw
  have hpipe := h.cliPipe hw
  have hline' : (s.cli.pipe ++ s.down.take n) ++ (s.down.drop n ++ s.srv.buf) =
      raws t.srvSid bs ++ req := by
    rw [← hline, List.append_assoc, ← List.append_assoc (s.down.take n), List.take_append_drop]
  by_cases hq : (s.cli.pipe ++ s.down.take n).length ≤ bs.length
  · -- only bytes of the session
    refine ⟨t, .refl, hp, hsid, rfl, hov, id, ?_⟩
    exact { h with
      cliPipe' := fun hne => absurd hp hne
      downLine := by
        obtain ⟨bs, req, hlen, hline, hreq⟩ := h.downLine
        refine ⟨bs, req, hlen, ?_, hreq⟩
        rw [← hline, List.append_assoc, ← List.append_assoc (s.down.take n), List.take_append_drop]
      cliPipe := fun _ => ⟨_, prefix_raws hline' hq⟩
      swallowed := fun hc => absurd hc (by simp [hw]) }
  · -- the request is among the cells, so it is the last of them
    have hlen' := congrArg List.length hline'
    rw [@List.length_append _ _ req, List.length_append, length_raws] at hlen'
    rcases hreq with ⟨hqueued, f, rfl⟩ | ⟨-, rfl⟩
    · have hnil : s.down.drop n ++ s.srv.buf = [] := by
        apply List.eq_nil_of_length_eq_zero
        simp only [List.length_cons, List.length_nil] at hlen'
        omega
      obtain ⟨hdrop, hbuf⟩ := List.append_eq_nil_iff.1 hnil
      refine ⟨{ t with swallowed := true, reqQueued := false }, .single (.cliSwallow hp hqueued), hp,
        hsid, rfl, hov, fun hcl => ?_, ?_⟩
      · rw [hcl.2 hp] at hqueued
        exact absurd hqueued (by decide)
      · exact { h with
          cliPipe' := fun hne => absurd hp hne
          downLine := ⟨bs, _, hlen, hline', .inl ⟨.inr ⟨rfl, hov⟩, f, rfl⟩⟩
          cliPipe := by simp
          swallowed := fun _ => ⟨hdrop, hbuf⟩
          buf := .inl hbuf }
    · simp only [List.length_nil] at hlen'
      omega

/-- The second splice: cells leave the pipe, and the counters are compared. -/
theorem cliSpliceOut (h : Rel fd s t) (early : Bool) (hi : t.Inv) (hp : t.phase = .running)
    (hsid : t.cliSid = t.srvSid) (hov : t.overrun = false) (hb : t.Fits) {k : ℕ}
    (hk : 0 < k) (hkle : k ≤ s.cli.pipe.length) :
    let s₁ : Pair := { s with cli := { s.cli with
      pipe := s.cli.pipe.drop k
      recvCount := s.cli.recvCount + Counter.ofNat (cellsSize (s.cli.pipe.take k)) } }
    (∃ t', Session.Step early t t' ∧ Rel fd s₁.shutdonwLocalConn t') ∧
      s₁.shutdonwLocalConn.localFds = s.localFds ∧
      ∃ evs, s₁.shutdonwLocalConn.log = s.log ++ evs ∧ ∀ e ∈ evs, ∀ t' : Session,
        (t'.Clean → t.swallowed = false) → EventOk t' s.localFds e := by
  intro s₁
  obtain ⟨bs, req, hlen, hline, hreq⟩ := h.downLine
  have hrecv := h.cliRecv hp hsid
  rw [hov] at hrecv
  by_cases hkbs : k ≤ bs.length
  · -- only bytes of the session leave the pipe
    have htake : s.cli.pipe.take k = raws t.srvSid (bs.take k) := by
      have := congrArg (List.take k) hline
      rw [List.take_append_of_le_length hkle,
        List.take_append_of_le_length (by rw [length_raws]; exact hkbs), take_raws] at this
      exact this
    have hdrop : s.cli.pipe.drop k ++ (s.down ++ s.srv.buf) = raws t.srvSid (bs.drop k) ++ req := by
      have := congrArg (List.drop k) hline
      rw [List.drop_append_of_le_length hkle,
        List.drop_append_of_le_length (by rw [length_raws]; exact hkbs), drop_raws] at this
      exact this
    have hsize : cellsSize (s.cli.pipe.take k) = k := by
      rw [htake, cellsSize_raws, List.length_take]
      omega
    let t₁ : Session := { t with down := { t.down with recv := t.down.recv + k } }
    have hi₁ : t₁.Inv := hi.receiveDown hp hsid (by omega)
    have hr₁ : Rel fd s₁ t₁ := { h with
      cliRecv := fun _ _ => by
        simp only [s₁, t₁, hov]
        rw [hsize, hrecv, ← Counter.ofNat_add]
        simp only [Bool.false_eq_true, if_false, Nat.add_zero]
      cliRecv' := fun hne => by
        rcases hne with hne | hne
        · exact absurd hp hne
        · exact absurd hsid hne
      cliPipe' := fun hne => absurd hp hne
      downLine := ⟨bs.drop k, req, by simp only [t₁, List.length_drop]; omega, hdrop, hreq⟩
      cliPipe := fun hw => by
        obtain ⟨ps, hps⟩ := h.cliPipe hw
        exact ⟨ps.drop k, by simp only [s₁]; rw [hps, drop_raws]⟩ }
    have hdone : t.down.done = false := by
      rw [← Bool.not_eq_true]
      intro hd
      have := (hi.down.done_imp hd).2
      omega
    obtain ⟨hr', hfds, evs, hlog, hev⟩ :=
      hr₁.shutdonwLocalConn hi₁ hp hsid hb (.inl (by simp only [t₁]; omega)) hdone
    exact ⟨⟨_, .cliRecv k hp hk hsid (by omega), hr'⟩, hfds, evs, hlog, hev⟩
  · -- the request leaves the pipe behind all bytes of the session
    have hlen' := congrArg List.length hline
    simp only [List.length_append, length_raws] at hlen'
    rcases hreq with ⟨hpres, f, rfl⟩ | ⟨-, rfl⟩
    · simp only [List.length_cons, List.length_nil] at hlen'
      have hnil : s.down ++ s.srv.buf = [] := by
        apply List.eq_nil_of_length_eq_zero
        rw [List.length_append]
        omega
      rw [hnil, List.append_nil] at hline
      have hw : t.swallowed = true := by
        rw [← Bool.not_eq_false]
        intro hw
        obtain ⟨ps, hps⟩ := h.cliPipe hw
        have hmem : Cell.frame (.proxyConnectReq f) ∈ raws t.srvSid ps := by
          rw [← hps, hline]
          simp
        obtain ⟨b, -, hb⟩ := List.mem_map.1 hmem
        exact absurd hb (by simp)
      have hstep : Session.Step early t
          { t with down := { t.down with recv := t.down.wrote }, overrun := true } :=
        .cliOverrun hp hw hov
      have hi₁ := hi.step hstep
      have hsize : cellsSize (s.cli.pipe.take k) = bs.length + reqLen := by
        rw [List.take_of_length_le (by omega), hline, cellsSize_append, cellsSize_raws]
        rfl
      have hr₁ : Rel fd s₁ { t with down := { t.down with recv := t.down.wrote }, overrun := true } :=
        { h with
          cliRecv := fun _ _ => by
            simp only [s₁]
            rw [hsize, hrecv, ← Counter.ofNat_add]
            simp only [if_true, Bool.false_eq_true, if_false]
            congr 1
            omega
          cliRecv' := fun hne => by
            rcases hne with hne | hne
            · exact absurd hp hne
            · exact absurd hsid hne
          cliPipe' := fun hne => absurd hp hne
          downLine := by
            refine ⟨[], [], by simp, ?_, .inr ⟨?_, rfl⟩⟩
            · simp only [s₁]
              rw [hnil, List.drop_of_length_le (by omega)]
              rfl
            · rintro (hq | ⟨-, ho⟩)
              · have := (hi.req hq).2
                rw [hw] at this
                exact absurd this (by decide)
              · exact absurd ho (by simp)
          cliPipe := fun hc => absurd hc (by simp [hw]) }
      obtain ⟨hr', hfds, evs, hlog, hev⟩ := hr₁.shutdonwLocalConn hi₁ hp hsid hb (.inr (.inr rfl))
        (hi₁.over_run rfl).2.2.2
      refine ⟨⟨_, hstep, ?_⟩, hfds, evs, hlog, hev⟩
      unfold Session.cliCheck at hr'
      rwa [if_neg fun hc => absurd hc.2.2 (by simp)] at hr'
    · simp only [List.length_nil] at hlen'
      omega
/-- The raw branch of `handleRead` on the client's half. -/
theorem cliHandleRead_raw (h : Rel fd s t) (hi : t.Inv) (hp : t.phase = .running)
    (hb : t.Fits) {n : ℕ} {o : SpliceOut} (ha : s.cli.RawAdmissible s.down n o)
    {s' : Pair}
    (hs : s' =
      let r := s.cli.spliceRaw s.down n o
      let s' := { s with
        cli := r.half
        down := r.rest
        log := s.log ++ (s.readEvents (s.down.take n) ++
          r.out.map (Event.spliced .client s.cliSid)) }
      if r.reached then s'.shutdonwLocalConn else s') : Matched early fd s t s' := by
  obtain ⟨hn, hnle, -, hout⟩ := ha
  have hdown : s.down ≠ [] := fun hnil => by
    rw [hnil] at hnle
    simp only [List.length_nil] at hnle
    omega
  obtain ⟨hsid, hw⟩ := h.sids_of_down hi hdown
  have hread : ∀ e ∈ s.readEvents (s.down.take n), EventOk t s.localFds e := by
    intro e he
    obtain ⟨c, hc, rfl⟩ := List.mem_map.1 he
    exact (h.cliRead_events hp hsid hw
      (List.mem_append_right _ (List.mem_of_mem_take hc))).1
  cases o with
  | fail =>
      obtain rfl := hs
      obtain ⟨t₀, ht₀, -, -, -, -, -, hr₀⟩ := h.cliTakeIn early hi hp hn hnle
        (s.log ++ (s.readEvents (s.down.take n) ++ []))
      refine ⟨⟨t₀, ht₀, hr₀⟩, s.readEvents (s.down.take n) ++ [], rfl, fun e he => ?_⟩
      rw [List.append_nil] at he
      exact hread e he
  | moved k =>
      obtain ⟨hk, hkle, -⟩ := hout (by simp)
      let out := (s.cli.pipe ++ s.down.take n).take k
      let evs₀ := s.readEvents (s.down.take n) ++ out.map (Event.spliced .client s.cliSid)
      let s₁ : Pair := { s with
        cli := (s.cli.spliceRaw s.down n (.moved k)).half
        down := s.down.drop n
        log := s.log ++ evs₀ }
      obtain ⟨t₀, ht₀, hp₀, hsid₀, hd₀, hov₀, hcl₀, hr₀⟩ :=
        h.cliTakeIn early hi hp hn hnle (s.log ++ evs₀)
      obtain ⟨⟨t', hstep, hr'⟩, hfds, evs, hlog, hev⟩ :=
        hr₀.cliSpliceOut early (hi.steps ht₀) hp₀ hsid₀ hov₀ (hb.of_clean hd₀ hcl₀) hk hkle
      have hs₁ : s' = s₁.shutdonwLocalConn := by
        rw [hs]
        by_cases hreach : s₁.cli.recvCount = s₁.cli.totalCount
        · exact if_pos (decide_eq_true hreach)
        · rw [Pair.shutdonwLocalConn_of_ne fun he => hreach he.symm]
          exact if_neg fun hr => hreach (of_decide_eq_true hr)
      rw [hs₁]
      refine ⟨⟨t', ht₀.tail hstep, hr'⟩, evs₀ ++ evs, ?_, fun e he => ?_⟩
      · rw [← List.append_assoc]
        exact hlog
      · have hfds' : s₁.shutdonwLocalConn.localFds = s.localFds := hfds
        rw [hfds']
        rcases List.mem_append.1 he with he | he
        · rcases List.mem_append.1 he with he | he
          · exact hread e he
          · obtain ⟨c, hc, rfl⟩ := List.mem_map.1 he
            refine (h.cliRead_events hp hsid hw ?_).2
            rcases List.mem_append.1 (List.mem_of_mem_take hc) with hc | hc
            · exact List.mem_append_left _ hc
            · exact List.mem_append_right _ (List.mem_of_mem_take hc)
        · exact hev e he t fun hc => (hcl₀ hc).1

/-- The client half of an idle session has at most a request to read. -/
theorem down_of_idle (h : Rel fd s t) (hi : t.Inv) (hph : t.phase = .idle) (hdown : s.down ≠ []) :
    t.reqQueued = true ∧ 0 < t.cliSid ∧ s.srv.buf = [] ∧
      ∃ f, s.down = [.frame (.proxyConnectReq f)] := by
  obtain ⟨hsid, hw⟩ := h.sids_of_down hi hdown
  obtain ⟨bs, req, hlen, hline, hreq⟩ := h.stream hw
  rw [h.cliPipe' (by simp [hph]) hw, List.nil_append] at hline
  have hbs : bs = [] := by
    apply List.eq_nil_of_length_eq_zero
    rcases Nat.eq_zero_or_pos t.cliSid with h0 | hpos
    · have hd := hi.freshDown (by omega)
      rw [hd] at hlen
      simp only at hlen
      omega
    · have := (hi.down.done_imp ((hi.idle hph).2 hpos).1).2
      omega
  rw [hbs, raws_nil, List.nil_append] at hline
  rcases hreq with ⟨hq, f, rfl⟩ | ⟨-, rfl⟩
  · have hpos : 0 < t.cliSid := by
      have hpl := (hi.req hq).1
      rcases Nat.eq_zero_or_pos t.cliSid with h0 | hpos
      · have := hi.unclaimed_iff.2 (by omega : t.srvSid = 0)
        rw [hpl] at this
        exact absurd this (by decide)
      · exact hpos
    rcases List.append_eq_singleton_iff.1 hline with ⟨hd, -⟩ | ⟨hd, hb⟩
    · exact absurd hd hdown
    · exact ⟨hq, hpos, hb, f, hd⟩
  · exact absurd (List.append_eq_nil_iff.1 hline).1 hdown

theorem cliHandleRead (h : Rel fd s t) (hi : t.Inv) (hb : t.Fits) {n : ℕ}
    {o : SpliceOut} {localFd : ℕ} (hmain : ¬ s.Owes .main) {s' : Pair}
    (hs : s.cliHandleRead n o localFd = some s') : Matched early fd s t s' := by
  unfold Pair.cliHandleRead at hs
  split at hs
  · exact absurd hs (by simp)
  rename_i hworker
  split at hs
  · rename_i hst
    split at hs
    · rename_i ha
      exact h.cliHandleRead_raw hi (h.cliStart.1 hst) hb ha (Option.some.inj hs).symm
    · exact absurd hs (by simp)
  · rename_i hst
    have hph : t.phase = .idle := by
      cases hpp : t.phase with
      | idle => rfl
      | running => exact absurd (h.cliStart.2 hpp) hst
      | announced =>
          obtain ⟨lf, -, -, hpend⟩ := h.pending hpp
          split at hpend
          · exact absurd ⟨_, hpend⟩ hmain
          · exact absurd ⟨_, hpend⟩ hworker
    by_cases hdown : s.down = []
    · rw [hdown] at hs
      exact absurd hs (by simp)
    · obtain ⟨hq, hpos, hbuf, f, hd⟩ := h.down_of_idle hi hph hdown
      rw [hd] at hs
      simp only at hs
      split at hs
      · rename_i hlf
        obtain rfl := Option.some.inj hs
        refine ⟨⟨_, .single (.cliAnswer hph hq hpos),
          h.handleProxyConnectReq hi hph hq hpos hbuf hlf _⟩,
          s.readEvents [.frame (.proxyConnectReq f)], ?_, fun e he => ?_⟩
        · unfold Pair.handleProxyConnectReq
          split <;> rfl
        · obtain rfl := List.mem_singleton.1 he
          exact ⟨hq, fun hc => absurd hc hst⟩
      · exact absurd hs (by simp)

end Rel

end ProxySocket

/-
**The server's handlers follow the session protocol.**

Main results:

* `Rel.shutdownPublicConn` — **`Tunnel::shutdownPublicConn` refines the comparison of the
  protocol**;
* `Rel.freeProxyConn` — `Tunnel::freeProxyConn` takes the connection exactly when the server waits
  for it;
* `Rel.newPublicConnHandler`, `Rel.srvHandleWrite`, `Rel.srvHandleRead`, `Rel.publicRead`,
  `Rel.srvCtlRead` — one lemma for each handler.
-/

import ProxySocket.PairRel

set_option relaxedAutoImplicit false
set_option autoImplicit false

namespace ProxySocket

theorem Pair.freeProxyConn_log (s : Pair) : s.freeProxyConn.log = s.log := by
  unfold Pair.freeProxyConn
  split
  · rfl
  · split <;> rfl

theorem Pair.freeProxyConn_localFds (s : Pair) : s.freeProxyConn.localFds = s.localFds := by
  unfold Pair.freeProxyConn
  split
  · rfl
  · split <;> rfl

/-- `Tunnel::freeProxyConn` does not look at the control channel. -/
theorem Pair.freeProxyConn_toSrv (s : Pair) (l : List CtlMsg) :
    ({ s with toSrv := l } : Pair).freeProxyConn = { s.freeProxyConn with toSrv := l } := by
  unfold Pair.freeProxyConn
  split
  · rfl
  · split <;> rfl

/-- `Tunnel::shutdownPublicConn` makes the test of `handleRead` again. -/
theorem Pair.shutdownPublicConn_of_ne {s : Pair} (h : s.srv.recvCount ≠ s.srv.totalCount) :
    s.shutdownPublicConn = s := by
  unfold Pair.shutdownPublicConn
  rw [if_pos h]

namespace Rel

variable {early : Bool} {fd : ℕ} {s : Pair} {t : Session}

/-! ### The server's shutdown functions -/

/-- The client's direction of a running server half is shut down. -/
theorem srvHalfRemote (h : Rel fd s t) (hp : t.place = .running) :
    Rel fd { s with srv := { s.srv with halfClose := true } }
      { t with up := { t.up with done := true } } :=
  { h with srvHalf := by simp [hp] }

/-- The second shutdown resets the server half. -/
theorem srvReset (h : Rel fd s t) (hs : t.cliSid = t.srvSid) (hpos : t.srvSid ≠ 0)
    (hp : t.place = .running) (hcl : t.down.closed = true) (hrec : t.up.recv = t.up.wrote) :
    Rel fd { s with srv := s.srv.resetConn } { t with place := .awaiting } := by
  obtain ⟨c, hc, hcc, -⟩ := h.srvConn hp
  have hmap := h.map.2 (Or.inl hp)
  have hwait := h.wait
  have hfree := h.free
  rw [hp] at hwait hfree
  exact { h with
    srvStart := by simp [ProxyConnect.resetConn]
    srvHalf := by simp [ProxyConnect.resetConn]
    srvRecv := by simp
    srvRecv' := fun _ => rfl
    srvTotal := by simp
    srvTotal' := fun _ => by simp [ProxyConnect.resetConn, noTotal, hpos]
    srvConn := by simp
    srvConn' := fun _ c' hc' => by
      obtain rfl : c = c' := Option.some.inj (hc.symm.trans hc')
      rw [hcc, hcl]
    srvPipe' := fun _ => h.srvPipe_of_complete hs hrec
    map := by simp [hmap]
    wait := by simpa using hwait
    free := by simpa using hfree }

/-- `Tunnel::freeProxyConn` takes the connection exactly when the server waits for it. -/
theorem freeProxyConn (h : Rel fd s t) : Rel fd s.freeProxyConn t.returned := by
  unfold Pair.freeProxyConn Session.returned
  by_cases ha : t.place = .awaiting
  · have hm : s.proxyConnectMap = true := h.map.2 (Or.inr ha)
    have hst : s.srv.start = false := by
      rw [← Bool.not_eq_true, h.srvStart, ha]
      decide
    have hfree := h.free
    have hhalf := h.srvHalf
    have hwait := h.wait
    rw [ha] at hfree hwait hhalf
    rw [if_neg (by simp [hm]), if_neg (by simp [hst]), if_pos ha]
    exact { h with
      srvStart := by simp [hst]
      srvHalf := by simpa using hhalf
      srvRecv := by simp
      srvRecv' := fun _ => h.srvRecv' (by simp [ha])
      srvTotal := by simp
      srvTotal' := fun _ => h.srvTotal' (by simp [ha])
      srvConn := by simp
      srvConn' := fun _ => h.srvConn' (by simp [ha])
      srvPipe' := fun _ => h.srvPipe' (by simp [ha])
      map := by simp
      wait := by simpa using hwait
      free := by simp [hfree] }
  · rw [if_neg ha]
    by_cases hm : s.proxyConnectMap = false
    · rw [if_pos hm]
      exact h
    · rw [if_neg hm, if_pos]
      · exact h
      · exact h.srvStart.2 ((h.map.1 (by simpa using hm)).resolve_right ha)

/-- **`Tunnel::shutdownPublicConn` refines the comparison of the protocol.** -/
theorem shutdownPublicConn (h : Rel fd s t) (hi : t.Inv) (hp : t.place = .running)
    (hb : t.up.wrote < byteBound) (hr : 0 < t.up.recv ∨ t.up.ann = .applied)
    (hd : t.up.done = false) : Rel fd s.shutdownPublicConn t.srvCheck ∧
      s.shutdownPublicConn.localFds = s.localFds ∧
      ∃ evs, s.shutdownPublicConn.log = s.log ++ evs ∧ ∀ e ∈ evs, ∀ t' fds, EventOk t' fds e := by
  have hiff := h.srvComplete_iff hi hp hb hr
  unfold Pair.shutdownPublicConn Session.srvCheck
  by_cases hc : t.SrvComplete
  · rw [if_neg (fun hne => hne (hiff.2 hc)), if_pos hc]
    obtain ⟨ha, hrec⟩ := hc
    obtain ⟨hs, -⟩ := hi.running hp
    have hhalf := h.srvHalf
    have hpipe := h.srvPipe_of_complete hs hrec
    have hcount : s.srv.recvCount.toNat = s.wroteUp := by
      rw [h.srvRecv hp, hrec, h.wroteUp, Counter.toNat_ofNat hb]
    have hev : ∀ e ∈ remoteEvents .server s.srv s.srvSid s.wroteUp, ∀ t' fds, EventOk t' fds e := by
      intro e he t' fds
      simp only [remoteEvents, localEvents, List.mem_cons] at he
      rcases he with rfl | he
      · trivial
      · split at he
        · obtain rfl := List.mem_singleton.1 he
          exact ⟨hpipe, hcount⟩
        · simp at he
    unfold ProxyConnect.shutdownFromRemote Session.srvRemote
    by_cases hcl : t.down.closed = true
    · rw [if_pos (hhalf.2 ⟨hp, Or.inl hcl⟩), if_pos hcl]
      refine ⟨?_, Pair.freeProxyConn_localFds _, _, Pair.freeProxyConn_log _, hev⟩
      exact (((h.srvHalfRemote hp).srvReset hs (hi.srvSid_ne hp) hp hcl hrec).withLog _).freeProxyConn
    · rw [if_neg (fun hh => (hhalf.1 hh).2.elim hcl (by simp [hd])), if_neg hcl]
      exact ⟨(h.srvHalfRemote hp).withLog _, rfl, _, rfl, hev⟩
  · rw [if_pos (fun he => hc (hiff.1 he)), if_neg hc]
    exact ⟨h, rfl, [], by simp, by simp⟩
/-! ### The listener and the write handler -/

/-- A client half without a `Run` to come that serves no session is idle. -/
theorem cli_idle (h : Rel fd s t) (hpend : s.pending = none) (hst : s.cli.start = false) :
    t.phase = .idle := by
  cases hp : t.phase with
  | idle => rfl
  | announced =>
      obtain ⟨_, -, -, hsome⟩ := h.pending hp
      rw [hpend] at hsome
      exact absurd hsome (by simp)
  | running =>
      rw [h.cliStart.2 hp] at hst
      exact absurd hst (by decide)

theorem newPublicConnHandler (h : Rel fd s t) (hi : t.Inv) {publicFd : ℕ}
    (hg : early = false → s.pending = none ∧ s.cli.start = false) {s' : Pair}
    (hs : s.newPublicConnHandler publicFd = some s') : Matched early fd s t s' := by
  unfold Pair.newPublicConnHandler at hs
  split at hs
  · exact absurd hs (by simp)
  · rename_i hne
    obtain rfl := Option.some.inj hs
    have hp : t.place = .free := by
      by_contra hp
      rw [h.free, if_neg hp] at hne
      exact hne rfl
    have hq : t.reqQueued = false := by
      rw [← Bool.not_eq_true]
      intro hr
      have := (hi.req hr).1
      rw [hp] at this
      exact absurd this (by decide)
    have hw : t.swallowed = false := by
      rw [← Bool.not_eq_true]
      intro hr
      have := (hi.swallow hr).2
      rw [hp] at this
      exact absurd this (by decide)
    have hbuf := h.buf_nil hq
    refine .step (.request hp fun he => h.cli_idle (hg he).1 (hg he).2) ?_ rfl
    obtain ⟨bs, req, hlen, hline, hreq⟩ := h.downLine
    have hreq' : req = [] := (hreq.resolve_left fun hc => not_reqPresent hq hw hc.1).2
    have hhalf := h.srvHalf
    have hmap := h.map
    have hstart := h.srvStart
    have hfree := h.free
    rw [hp] at hhalf hmap hstart hfree
    exact { h with
      srvStart := by simpa [ProxyConnect.sendMsg] using hstart
      srvHalf := by simpa [ProxyConnect.sendMsg] using hhalf
      srvRecv := by simp
      srvRecv' := fun _ => h.srvRecv' (by simp [hp])
      srvTotal := by simp
      srvTotal' := fun _ => h.srvTotal' (by simp [hp])
      srvConn := by simp
      srvConn' := fun _ => h.srvConn' (by simp [hp])
      srvPipe' := fun _ => h.srvPipe' (by simp [hp])
      map := by simpa using hmap
      wait := by simp
      free := by simp [hfree]
      downLine := by
        refine ⟨bs, [.frame (.proxyConnectReq publicFd)], hlen, ?_, .inl ⟨.inl rfl, _, rfl⟩⟩
        rw [hbuf, hreq', List.append_nil, List.append_nil] at hline
        simp [ProxyConnect.sendMsg, hbuf, ← hline]
      swallowed := fun hr => absurd hr (by simp [hw])
      buf := .inr ⟨rfl, publicFd, by simp [ProxyConnect.sendMsg, hbuf]⟩ }

theorem srvHandleWrite (h : Rel fd s t) {s' : Pair} (hs : s.srvHandleWrite = some s') :
    Matched early fd s t s' := by
  unfold Pair.srvHandleWrite at hs
  split at hs
  · exact absurd hs (by simp)
  · rename_i hne
    obtain rfl := Option.some.inj hs
    refine .stay ?_ rfl
    obtain ⟨bs, req, hlen, hline, hreq⟩ := h.downLine
    exact { h with
      downLine := ⟨bs, req, hlen, by simpa using hline, hreq⟩
      swallowed := fun hw => absurd (h.swallowed hw).2 hne
      buf := .inl rfl }

/-! ### The read handler of the half -/

/-- The raw branch of `handleRead` on the server's half. -/
theorem srvHandleRead_raw (h : Rel fd s t) (hi : t.Inv) (hp : t.place = .running)
    (hb : t.up.wrote < byteBound) {n : ℕ} {o : SpliceOut} (ha : s.srv.RawAdmissible s.up n o)
    {s' : Pair} (hs : s.srvHandleRead n o = some s') : Matched early fd s t s' := by
  unfold Pair.srvHandleRead at hs
  rw [if_pos (h.srvStart.2 hp), if_pos ha] at hs
  obtain ⟨hsid, -⟩ := hi.running hp
  obtain ⟨bs, hlen, hline⟩ := h.upLine hsid
  obtain ⟨hn, hnle, -, hout⟩ := ha
  cases o with
  | fail =>
      obtain rfl := Option.some.inj hs
      refine .stay ?_ (by simp [ProxyConnect.spliceRaw])
      exact { h with
        srvPipe' := fun hne => absurd hp hne
        upLine := fun _ => ⟨bs, hlen, by simpa [ProxyConnect.spliceRaw] using hline⟩
        upAhead := fun hah => by have : t.cliSid = t.srvSid + 1 := hah; omega }
  | moved k =>
      obtain ⟨hk, hkle, -⟩ := hout (by simp)
      replace hk : 0 < k := hk
      replace hkle : k ≤ (s.srv.pipe ++ s.up.take n).length := hkle
      have htake := take_splice hkle
      have hdrop := drop_splice hkle
      rw [hline, take_raws] at htake
      rw [hline, drop_raws] at hdrop
      have hkbs : k ≤ bs.length := by
        have := congrArg List.length hline
        simp only [List.length_append, List.length_take, length_raws] at this hkle
        omega
      have hsize : cellsSize ((s.srv.pipe ++ s.up.take n).take k) = k := by
        rw [htake, cellsSize_raws, List.length_take]
        omega
      let t₁ : Session := { t with up := { t.up with recv := t.up.recv + k } }
      let s₁ : Pair := { s with
        srv := (s.srv.spliceRaw s.up n (.moved k)).half
        up := s.up.drop n
        log := s.log ++ ((s.srv.pipe ++ s.up.take n).take k).map (Event.spliced .server s.srvSid) }
      have hi₁ : t₁.Inv := hi.receiveUp hp (by omega)
      have hr₁ : Rel fd s₁ t₁ := { h with
        srvRecv := fun _ => by
          simp only [s₁, t₁, ProxyConnect.spliceRaw]
          rw [hsize, h.srvRecv hp, Counter.ofNat_add]
        srvRecv' := fun hne => absurd hp hne
        srvPipe' := fun hne => absurd hp hne
        upLine := fun _ => ⟨bs.drop k, by simp only [t₁, List.length_drop]; omega, hdrop⟩
        upAhead := fun hah => by have : t.cliSid = t.srvSid + 1 := hah; omega }
      have hs' : s' = s₁.shutdownPublicConn := by
        obtain rfl := Option.some.inj hs
        by_cases hreach : s₁.srv.recvCount = s₁.srv.totalCount
        · exact if_pos (decide_eq_true hreach)
        · rw [Pair.shutdownPublicConn_of_ne hreach]
          exact if_neg fun hr => hreach (of_decide_eq_true hr)
      have hdone : t.up.done = false := by
        rw [← Bool.not_eq_true]
        intro hd
        have := (hi.up.done_imp hd).2
        omega
      obtain ⟨hr', hfds, evs, hlog, hev⟩ :=
        hr₁.shutdownPublicConn hi₁ hp hb (.inl (by simp only [t₁]; omega)) hdone
      rw [← hs'] at hr' hfds hlog
      refine ⟨⟨_, .single (.srvRecv k hp hk (by omega)), hr'⟩,
        ((s.srv.pipe ++ s.up.take n).take k).map (Event.spliced .server s.srvSid) ++ evs,
        by rw [hlog, List.append_assoc], fun e he => ?_⟩
      rcases List.mem_append.1 he with he | he
      · obtain ⟨c, hc, rfl⟩ := List.mem_map.1 he
        rw [htake] at hc
        obtain ⟨b, -, rfl⟩ := List.mem_map.1 hc
        exact ⟨b, by rw [h.srvSid, hsid]⟩
      · exact hev e he t s'.localFds


/-- The server half starts the session that was announced, once the frame is off the stream. -/
theorem bindPublicFdToProxyConn (h : Rel fd s t) (hi : t.Inv) (hah : t.cliSid = t.srvSid + 1)
    {m : ProxyMsg} {rest : List Cell} (hup : s.up = .frame m :: rest) (publicFd : ℕ)
    {w : Bool} (hw : w = false) {u : List ℕ} (hu : u = []) :
    Rel fd { ({ s with up := rest }.bindPublicFdToProxyConn publicFd) with
        waitProxyConnectMap := w, unhandleFds := u }
      { t with srvSid := t.srvSid + 1, place := .running, down := {} } := by
  obtain ⟨hplace, hph, hq, hsw, hdone, hann, hrec, -, hdd⟩ := hi.ahead hah
  have hne : t.place ≠ .running := by rcases hplace with hp | hp <;> rw [hp] <;> decide
  have hnf : t.place ≠ .free := by rcases hplace with hp | hp <;> rw [hp] <;> decide
  have hov : t.overrun = false := by
    rw [← Bool.not_eq_true]
    intro ho
    have := (hi.over_run ho).1
    rw [hsw] at this
    exact absurd this (by decide)
  have hsid : t.cliSid ≠ t.srvSid := by omega
  obtain ⟨hpipe, hdown, hbuf⟩ := h.down_of_ahead hi hah
  obtain ⟨bs, m', hlen, hup', -⟩ := h.upAhead hah
  have hrest : rest = raws t.cliSid bs := by
    rw [hup] at hup'
    exact (List.cons.inj hup').2
  have hhalf := h.srvHalf
  have hfree := h.free
  have hcli := h.cliHalf
  have htot := h.cliTotal hph
  have htoCli := h.toCli
  have hnoann : t.down.ann ≠ .inFlight := by
    intro ha
    exact hsid (hi.sids_of_inFlight ha)
  rw [if_neg hnf] at hfree
  rw [if_neg fun hc => hsid hc.1] at htot
  rw [if_neg (by omega : ¬ t.cliSid = 0), if_neg hnoann] at htoCli
  exact { h with
    srvSid := by
      simp only [Pair.bindPublicFdToProxyConn]
      rw [h.srvSid]
    wroteDown := rfl
    srvStart := by simp [Pair.bindPublicFdToProxyConn, ProxyConnect.run]
    srvHalf := by
      have : s.srv.halfClose ≠ true := fun hh => hne (hhalf.1 hh).1
      simpa [Pair.bindPublicFdToProxyConn, ProxyConnect.run, hdone] using this
    srvRecv := fun _ => by
      simp only [Pair.bindPublicFdToProxyConn, ProxyConnect.run, hrec]
      exact h.srvRecv' hne
    srvRecv' := fun hc => absurd rfl hc
    srvTotal := fun _ => by
      simp only [Pair.bindPublicFdToProxyConn, ProxyConnect.run, if_neg hann]
      exact h.srvTotal' hne
    srvTotal' := fun hc => absurd rfl hc
    srvConn := fun _ => ⟨_, rfl, rfl, rfl⟩
    srvConn' := fun hc => absurd rfl hc
    srvPipe' := fun hc => absurd rfl hc
    map := by simp [Pair.bindPublicFdToProxyConn]
    wait := by simp [hw]
    free := by simpa [Pair.bindPublicFdToProxyConn] using hfree
    unhandle := by simp [hu]
    cliHalf := by
      simp only [Pair.bindPublicFdToProxyConn]
      rw [hcli]
      simp [hsid]
    cliRecv := fun _ _ => by
      simp only [Pair.bindPublicFdToProxyConn, hov]
      exact h.cliRecv' (.inr hsid)
    cliRecv' := fun _ => h.cliRecv' (.inr hsid)
    cliTotal := fun _ => by
      simp only [Pair.bindPublicFdToProxyConn]
      rw [htot]
      simp
    toCli := by
      simp only [Pair.bindPublicFdToProxyConn]
      rw [htoCli, if_neg (by omega : ¬ t.cliSid = 0)]
      simp
    upLine := fun _ => ⟨bs, by simp only [hrec]; omega, by
      simp only [Pair.bindPublicFdToProxyConn, ProxyConnect.run]
      rw [h.srvPipe' hne, hrest, List.nil_append]⟩
    upAhead := fun hc => by have : t.cliSid = t.srvSid + 1 + 1 := hc; omega
    downLine := ⟨[], [], rfl, by
      simp [Pair.bindPublicFdToProxyConn, ProxyConnect.run, hpipe, hdown, hbuf],
      .inr ⟨not_reqPresent hq hsw, rfl⟩⟩
    cliPipe := fun _ => ⟨[], by simp [Pair.bindPublicFdToProxyConn, hpipe]⟩
    swallowed := fun hc => absurd hc (by simp [hsw])
    buf := .inl (by simp [Pair.bindPublicFdToProxyConn, ProxyConnect.run, hbuf]) }

/-- The frame reader of the server's half only meets announcements. -/
theorem srvHandleRead_frame (h : Rel fd s t) (hi : t.Inv) (hp : t.place ≠ .running) {n : ℕ}
    {o : SpliceOut} {s' : Pair} (hs : s.srvHandleRead n o = some s') : Matched early fd s t s' := by
  have hst : ¬ s.srv.start = true := fun hc => hp (h.srvStart.1 hc)
  unfold Pair.srvHandleRead at hs
  rw [if_neg hst] at hs
  rcases hi.sids with hsid | hah
  · rw [h.up_nil hi hp hsid] at hs
    exact absurd hs (by simp)
  · obtain ⟨bs, m, hlen, hup, hm⟩ := h.upAhead hah
    have hplace := (hi.ahead hah).1
    refine .step (.activate hah) ?_ ?_
    · rw [hup] at hs
      rcases hm with ⟨h1, rfl⟩ | ⟨h1, publicFd, rfl⟩
      · have hun := h.unhandle
        rw [if_pos (by omega)] at hun
        simp only [Pair.claimProxyConn, hun] at hs
        obtain rfl := Option.some.inj hs
        refine h.bindPublicFdToProxyConn hi hah hup fd ?_ rfl
        rw [← Bool.not_eq_true, h.wait, hi.unclaimed_iff.2 (by omega)]
        decide
      · have hpl : t.place = .waiting :=
          hplace.resolve_left fun hc => by have := hi.unclaimed_iff.1 hc; omega
        have hw : s.waitProxyConnectMap = true := h.wait.2 hpl
        have hun := h.unhandle
        rw [if_neg (by omega)] at hun
        simp only [Pair.handleStartProxyConnRsp, hw] at hs
        obtain rfl := Option.some.inj hs
        exact h.bindPublicFdToProxyConn hi hah hup publicFd rfl hun
    · rw [hup] at hs
      rcases hm with ⟨h1, rfl⟩ | ⟨h1, publicFd, rfl⟩
      · simp only [Pair.claimProxyConn] at hs
        split at hs
        · exact absurd hs (by simp)
        · obtain rfl := Option.some.inj hs
          rfl
      · obtain rfl := Option.some.inj hs
        unfold Pair.handleStartProxyConnRsp
        split <;> rfl


/-! ### The public side -/

/-- The public side ends its stream. -/
theorem shutdownFromPublic (h : Rel fd s t) (hi : t.Inv) (hb : t.up.wrote < byteBound)
    (hp : t.place = .running)
    (hcl : t.down.closed = false) {c : PeerConnect} (hcount : c.tranCount = .ofNat t.down.wrote) :
    Matched early fd s t
      (({ s with srv := { s.srv with conn := some { c with closed := true } } } : Pair)
        |>.shutdownFromPublic c.tranCount) := by
  obtain ⟨hsid, -⟩ := hi.running hp
  have hm : s.proxyConnectMap = true := h.map.2 (.inl hp)
  have hunsent : t.down.ann = .unsent := hi.down.unsent_iff.2 hcl
  have htoCli := h.toCli
  rw [hunsent] at htoCli
  have hhalf := h.srvHalf
  have hcli := h.cliHalf
  have htot := h.cliTotal
  rw [hunsent] at htot
  have hcliSid : t.cliSid ≠ 0 := by
    have := hi.srvSid_ne hp
    omega
  -- the half is marked, and the announcement is sent
  have hr : Rel fd { s with
      srv := { s.srv with conn := some { c with closed := true }, halfClose := true }
      toCli := s.toCli ++ [.shutdownPeerConn c.tranCount] }
      { t with down := { t.down with closed := true, ann := .inFlight } } := { h with
    srvHalf := by simp [hp]
    srvConn := fun _ => ⟨_, rfl, rfl, hcount⟩
    srvConn' := fun hne => absurd hp hne
    cliTotal := fun hph => by simpa using htot hph
    toCli := by simp [htoCli, hcliSid, hcount] }
  unfold Pair.shutdownFromPublic
  rw [if_neg (by simp [hm])]
  unfold ProxyConnect.shutdownFromLocal
  refine ⟨⟨_, .single (.pubClose hp hcl), ?_⟩, localEvents .server s.srv s.wroteUp, rfl, ?_⟩
  · by_cases hd : t.up.done = true
    · have hh : s.srv.halfClose = true := hhalf.2 ⟨hp, .inr hd⟩
      simp only [hh, if_true, hd]
      exact (hr.srvReset hsid (hi.srvSid_ne hp) hp rfl (hi.up.done_imp hd).2).withLog _
    · have hh : s.srv.halfClose = false := by
        rw [← Bool.not_eq_true, hhalf]
        simp [hd, hcl]
      simp only [hh, if_neg hd]
      exact hr.withLog _
  · intro e he
    unfold localEvents at he
    split at he
    · rename_i hh
      obtain rfl := List.mem_singleton.1 he
      have hd : t.up.done = true := (hhalf.1 hh).2.resolve_left (by simp [hcl])
      have hrec := (hi.up.done_imp hd).2
      refine ⟨h.srvPipe_of_complete hsid hrec, ?_⟩
      rw [h.srvRecv hp, hrec, h.wroteUp, Counter.toNat_ofNat hb]
    · simp at he

/-- The public side sends bytes. -/
theorem pubWrite (h : Rel fd s t) (hi : t.Inv) (hp : t.place = .running)
    (hcl : t.down.closed = false) (w : List UInt8) {conn : Option PeerConnect}
    (hconn : ∃ c, conn = some c ∧ c.closed = t.down.closed ∧
      c.tranCount = .ofNat (t.down.wrote + w.length)) :
    Rel fd { s with
        srv := { s.srv with conn := conn }
        down := s.down ++ raws s.srvSid w
        wroteDown := s.wroteDown + w.length }
      { t with down := { t.down with wrote := t.down.wrote + w.length } } := by
  have hunsent : t.down.ann = .unsent := hi.down.unsent_iff.2 hcl
  have hq : t.reqQueued = false := by
    rw [← Bool.not_eq_true]
    intro hr
    have := (hi.req hr).1
    rw [hp] at this
    exact absurd this (by decide)
  have hsw : t.swallowed = false := by
    rw [← Bool.not_eq_true]
    intro hr
    have := (hi.swallow hr).2
    rw [hp] at this
    exact absurd this (by decide)
  obtain ⟨bs, req, hlen, hline, hreq⟩ := h.downLine
  obtain rfl : req = [] := (hreq.resolve_left fun hc => not_reqPresent hq hsw hc.1).2
  have hbuf := h.buf_nil hq
  have htoCli := h.toCli
  have htot := h.cliTotal
  rw [hunsent] at htoCli htot
  exact { h with
    wroteDown := by rw [h.wroteDown]
    srvConn := fun _ => hconn
    srvConn' := fun hc => absurd hp hc
    cliTotal := fun hph => by simpa [hunsent] using htot hph
    toCli := by simpa [hunsent] using htoCli
    downLine := by
      refine ⟨bs ++ w, [], by simp only [List.length_append]; omega, ?_,
        .inr ⟨not_reqPresent hq hsw, rfl⟩⟩
      rw [hbuf, List.append_nil, List.append_nil] at hline
      rw [hbuf, List.append_nil, List.append_nil, ← List.append_assoc, hline, h.srvSid, raws_append]
    swallowed := fun hc => absurd hc (by simp [hsw]) }

theorem publicRead (h : Rel fd s t) (hi : t.Inv) (hb : t.up.wrote < byteBound) {i : SpliceIn}
    {o : SpliceOut} {s' : Pair} (hs : s.publicRead i o = some s') : Matched early fd s t s' := by
  unfold Pair.publicRead at hs
  cases hconn : s.srv.conn with
  | none =>
      rw [hconn] at hs
      exact absurd hs (by simp)
  | some c =>
      rw [hconn] at hs
      simp only at hs
      split at hs
      case isFalse => exact absurd hs (by simp)
      case isTrue hadm =>
      obtain ⟨hin, hout⟩ := hadm
      unfold PublicConnect.handleRead at hs
      by_cases hcl : c.closed = true
      · rw [spliceThrough_of_closed hcl hin hout] at hs
        obtain rfl := Option.some.inj hs
        refine .stay ?_ rfl
        have hsame : ({ s.srv with conn := some c } : ProxyConnect) = s.srv := by rw [← hconn]
        simp only [hsame, raws_nil, List.append_nil, List.length_nil, Nat.add_zero]
        exact h
      · have hp : t.place = .running := by
          by_contra hp
          exact hcl (h.srvConn' hp c hconn)
        obtain ⟨c', hc', hcc, hcount⟩ := h.srvConn hp
        obtain rfl : c = c' := Option.some.inj (hconn.symm.trans hc')
        have hdcl : t.down.closed = false := by
          rw [← hcc]
          simpa using hcl
        by_cases hend : AtEnd c i
        · rw [spliceThrough_of_atEnd o hend] at hs
          obtain rfl := Option.some.inj hs
          simp only [raws_nil, List.append_nil, List.length_nil, Nat.add_zero]
          exact h.shutdownFromPublic hi hb hp hdcl hcount
        · rw [spliceThrough_of_not_atEnd hend hout] at hs
          obtain rfl := Option.some.inj hs
          have hlen : ((c.pipe ++ i.bytes).take o.count).length = o.count := by
            have := hout.1
            rw [List.length_take, List.length_append]
            omega
          have hw := h.wroteDown
          refine .step (.pubWrite ((c.pipe ++ i.bytes).take o.count).length hp hdcl) ?_ rfl
          refine h.pubWrite hi hp hdcl _ ⟨_, rfl, hcc, ?_⟩
          simp only
          rw [hlen, Counter.ofNat_add, hcount]

/-! ### The control thread -/

/-- An announcement of the client in flight meets a running server half, or one that has not
started the session. -/
theorem place_of_inFlight (hi : t.Inv) (ha : t.up.ann = .inFlight) :
    t.place = .running ∨ t.cliSid = t.srvSid + 1 := by
  rcases hi.sids with hs | hah
  · refine .inl ?_
    have hover : t.place = .awaiting ∨ t.place = .free ∨ t.place = .waiting → False := fun hp => by
      have := (hi.up.done_imp ((hi.ended hp).2 hs)).1
      rw [ha] at this
      exact absurd this (by decide)
    cases hpl : t.place with
    | unclaimed =>
        have hu := hi.freshUp (by have := hi.unclaimed_iff.1 hpl; omega)
        rw [hu] at ha
        exact absurd ha (by decide)
    | running => rfl
    | awaiting => exact (hover (.inl hpl)).elim
    | free => exact (hover (.inr (.inl hpl))).elim
    | waiting => exact (hover (.inr (.inr hpl))).elim
  · exact .inr hah

/-- `Control::handleShutdownPublicConn` on the client's announcement. -/
theorem handleShutdownPublicConn (h : Rel fd s t) (hi : t.Inv) (hb : t.up.wrote < byteBound)
    (ho : t.freeOld = false) (ha : t.up.ann = .inFlight) {rest : List CtlMsg}
    (hto : s.toSrv = .shutdownPeerConn (.ofNat t.up.wrote) :: rest) {s' : Pair}
    (hs : s' = { s with toSrv := rest }.handleShutdownPublicConn (.ofNat t.up.wrote)) :
    Matched early fd s t s' := by
  have hrest : rest = if t.freeNew then [.freeConnReq] else [] := by
    have := h.toSrv
    rw [hto, ho, ha] at this
    simpa using this
  have hmap := h.map
  unfold Pair.handleShutdownPublicConn at hs
  rcases place_of_inFlight hi ha with hp | hah
  · have hm : s.proxyConnectMap = true := hmap.2 (.inl hp)
    have hsid := (hi.running hp).1
    have hdone : t.up.done = false := by
      rw [← Bool.not_eq_true]
      intro hd
      have := (hi.up.done_imp hd).1
      rw [ha] at this
      exact absurd this (by decide)
    have htot := h.srvTotal hp
    rw [if_neg (by rw [ha]; decide)] at htot
    let t₁ : Session := { t with up := { t.up with ann := .applied } }
    let s₁ : Pair := { s with
      toSrv := rest
      srv := { s.srv with totalCount := addTotalCount s.srv.totalCount (.ofNat t.up.wrote) } }
    have hi₁ : t₁.Inv := hi.applyUp ho ha hp
    have hr₁ : Rel fd s₁ t₁ := { h with
      srvTotal := fun _ => by
        simp only [s₁, t₁]
        rw [htot, addTotalCount_noTotal]
        simp
      srvTotal' := fun hne => absurd hp hne
      toSrv := by simp [s₁, t₁, hrest, ho] }
    have hs₁ : s' = s₁.shutdownPublicConn := by
      rw [hs, if_neg (by simp [hm])]
    obtain ⟨hr', hfds, evs, hlog, hev⟩ := hr₁.shutdownPublicConn hi₁ hp hb (.inr rfl) hdone
    rw [← hs₁] at hr' hfds hlog
    exact ⟨⟨_, .single (.srvApply ho ha hp), hr'⟩, evs, hlog, fun e he => hev e he t s'.localFds⟩
  · have hpl := (hi.ahead hah).1
    have hm : s.proxyConnectMap = false := by
      rw [← Bool.not_eq_true, hmap]
      rcases hpl with hp | hp <;> rw [hp] <;> decide
    rw [if_pos hm] at hs
    obtain rfl := hs
    have hne : t.place ≠ .running := by rcases hpl with hp | hp <;> rw [hp] <;> decide
    refine .step (.srvDiscard ho ha hah) ?_ rfl
    exact { h with
      srvTotal := fun hp => absurd hp hne
      toSrv := by simp [hrest, ho] }

theorem srvCtlRead (h : Rel fd s t) (hi : t.Inv) (hb : t.up.wrote < byteBound) {s' : Pair}
    (hs : s.srvCtlRead = some s') : Matched early fd s t s' := by
  have hto := h.toSrv
  have hr := h.freeProxyConn
  unfold Pair.srvCtlRead at hs
  cases hold : t.freeOld with
  | true =>
      rw [hold] at hto
      simp only [if_true, List.singleton_append] at hto
      rw [hto] at hs
      obtain rfl := Option.some.inj hs
      refine .step (.srvReturnOld hold) ?_ (Pair.freeProxyConn_log _)
      unfold Pair.handleFreeProxyConnReq
      rw [Pair.freeProxyConn_toSrv]
      exact { hr with toSrv := by simp }
  | false =>
      by_cases ha : t.up.ann = .inFlight
      · rw [hold, ha] at hto
        simp only [if_true, List.nil_append, List.singleton_append, if_false,
          Bool.false_eq_true] at hto
        rw [hto] at hs
        exact h.handleShutdownPublicConn hi hb hold ha hto (Option.some.inj hs).symm
      · cases hnew : t.freeNew with
        | true =>
            rw [hold, hnew, if_neg ha] at hto
            rw [hto] at hs
            obtain rfl := Option.some.inj hs
            refine .step (.srvReturnNew hold ha hnew) ?_ (Pair.freeProxyConn_log _)
            unfold Pair.handleFreeProxyConnReq
            rw [Pair.freeProxyConn_toSrv]
            exact { hr with toSrv := by simp [hold, ha] }
        | false =>
            rw [hold, hnew, if_neg ha] at hto
            rw [hto] at hs
            exact absurd hs (by simp)

end Rel

end ProxySocket

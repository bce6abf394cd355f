/-
**Announcements: two orders the protocol relies on and nothing enforces.**

The client announces a session in the proxy stream and ends it on the control connection, and the
server may handle the end before it has read the announcement.  The client also announces a session
before it calls `Run`, and the server's answer may be handled before `Run` is.

Main results:

* `shutdownPeerConn_found_iff` — **a run finds every `ShutdownPeerConn` of the client in
  `proxy_connect_map_` exactly when each is handled after the announcement of its session**;
* `session_fd_iff` — **a run reads every byte, and shuts down every client half, with the local
  descriptor of the session exactly when every `Run` is in time**.
-/

import ProxySocket.PairRefine

set_option relaxedAutoImplicit false
set_option autoImplicit false

namespace ProxySocket

/-- Runs that are in time and within the bound follow the protocol, early requests included. -/
theorem follows_true {s : Pair} {a : Act} (hb : Bounded (byteBound - reqLen) s a)
    (hr : RunsInTime s a) : Follows true s a := ⟨hr, hb, fun h => absurd h (by decide)⟩

/-! ### The end of a session and its announcement -/

/-- The next message of the client is a `ShutdownPeerConn`. -/
def EndNext (s : Pair) : Bool :=
  match s.toSrv with
  | .shutdownPeerConn _ :: _ => true
  | _ => false

/-- A cell is (part of) a message frame. -/
def Cell.isFrame : Cell → Bool
  | .raw _ _ => false
  | .frame _ => true

/-- A `ShutdownPeerConn` of the client is handled while the proxy id is in `proxy_connect_map_`. -/
def ShutdownFound (s : Pair) : Act → Prop
  | .srvCtl => EndNext s = true → s.proxyConnectMap = true
  | _ => True

/-- A `ShutdownPeerConn` of the client is handled when the server half has read the announcement
(`ProxyMetaSet` or `ProxyConnectRsp`) that the client sent before. -/
def AnnouncementRead (s : Pair) : Act → Prop
  | .srvCtl => EndNext s = true → ∀ c ∈ s.up, c.isFrame = false
  | _ => True

instance (s : Pair) : (a : Act) → Decidable (ShutdownFound s a)
  | .srvCtl => inferInstanceAs (Decidable (_ → _))
  | .cliRead _ _ _ | .cliCtl _ | .srvWrite | .srvRead _ _ | .publicRead _ _ | .newPublicConn _
  | .localRead _ _ | .cliRun => .isTrue trivial

instance (s : Pair) : (a : Act) → Decidable (AnnouncementRead s a)
  | .srvCtl => inferInstanceAs (Decidable (_ → _))
  | .cliRead _ _ _ | .cliCtl _ | .srvWrite | .srvRead _ _ | .publicRead _ _ | .newPublicConn _
  | .localRead _ _ | .cliRun => .isTrue trivial

/-- A `ShutdownPeerConn` at the head of the control channel is in flight in the protocol. -/
theorem Rel.inFlight_of_endNext {fd : ℕ} {s : Pair} {t : Session} (h : Rel fd s t)
    (hc : EndNext s = true) : t.up.ann = .inFlight := by
  by_contra ha
  have hto := h.toSrv
  rw [if_neg ha] at hto
  unfold EndNext at hc
  rw [hto] at hc
  cases ho : t.freeOld <;> cases hn : t.freeNew <;> rw [ho, hn] at hc <;> simp at hc

/-- In related states the two conditions agree. -/
theorem Rel.shutdownFound_iff {fd : ℕ} {s : Pair} {t : Session} (h : Rel fd s t) (hi : t.Inv)
    (a : Act) : ShutdownFound s a ↔ AnnouncementRead s a := by
  cases a with
  | srvCtl =>
      refine imp_congr_right fun hc => ?_
      rcases Rel.place_of_inFlight hi (h.inFlight_of_endNext hc) with hp | hah
      · obtain ⟨bs, -, hline⟩ := h.upLine (hi.running hp).1
        refine ⟨fun _ c hm => ?_, fun _ => h.map.2 (.inl hp)⟩
        have hmem : c ∈ raws t.cliSid bs := hline ▸ List.mem_append_right _ hm
        obtain ⟨b, -, rfl⟩ := List.mem_map.1 hmem
        rfl
      · obtain ⟨bs, m, -, hup, -⟩ := h.upAhead hah
        constructor
        · intro hm
          have hpl := (hi.ahead hah).1
          rcases h.map.1 hm with hp | hp <;> rw [hp] at hpl <;> simp at hpl
        · intro hno
          have := hno (.frame m) (by rw [hup]; simp)
          exact absurd this (by simp [Cell.isFrame])
  | _ => exact Iff.rfl

/-- **When the end of a session is found.**  A run finds the connection in `proxy_connect_map_` at
every `ShutdownPeerConn` of the client exactly when the server half has read the announcement of the
session before each of them is handled. -/
theorem shutdownPeerConn_found_iff {fd : ℕ} {as : List Act} {s : Pair}
    (he : (pairLts fd).exec (pairLts fd).init as = some s)
    (hg : (pairLts fd).AllSteps (fun s a => RunsInTime s a ∧ Bounded (byteBound - reqLen) s a)
      (pairLts fd).init as) :
    (pairLts fd).AllSteps ShutdownFound (pairLts fd).init as ↔
      (pairLts fd).AllSteps AnnouncementRead (pairLts fd).init as := by
  refine Lts.allSteps_iff (fun s a s' hr _ _ => ?_) he hg
  have hreach : (pairLts fd).Reach (Follows true) s :=
    hr.mono fun _ _ h => follows_true h.1.2 h.1.1
  obtain ⟨t, ht, hrel, -⟩ := refines hreach
  exact hrel.shutdownFound_iff (Session.inv_of_reach ht) a

/-- A session of which the server has read the announcement when its end arrives. -/
def endAfterAnnouncement : List Act :=
  [.cliCtl 9, .cliRun, .srvRead 1 .fail, .localRead (.moved []) .fail, .srvCtl]

theorem shutdownPeerConn_found_in_order :
    (pairLts 7).AllSteps ShutdownFound (pairLts 7).init endAfterAnnouncement :=
  (shutdownPeerConn_found_iff
    (s := ((pairLts 7).exec (pairLts 7).init endAfterAnnouncement).get (by decide +kernel))
    (Option.some_get _).symm (by decide +kernel)).2 (by decide +kernel)

/-- A short session: its end overtakes the announcement. -/
def endBeforeAnnouncement : List Act :=
  [.cliCtl 9, .cliRun, .localRead (.moved []) .fail, .srvCtl]

/-- Whole handlers do not keep the end of a session from being discarded. -/
theorem shutdownPeerConn_discarded :
    ¬ ∀ (as : List Act) (s : Pair), (pairLts 7).exec (pairLts 7).init as = some s →
      (pairLts 7).AllSteps HandlerAtomic (pairLts 7).init as →
      (pairLts 7).AllSteps ShutdownFound (pairLts 7).init as := by
  intro h
  have := h endBeforeAnnouncement
    (((pairLts 7).exec (pairLts 7).init endBeforeAnnouncement).get (by decide +kernel))
    (Option.some_get _).symm (by decide +kernel)
  exact absurd this (by decide +kernel)

/-! ### `Run` and the answers to an announcement -/

/-- The client half works with the local descriptor of the session it is told about. -/
def SessionFdOk (fds : List ℕ) : Event → Prop
  | .cliRead start conn2fd (.raw sid _) => start = true ∧ fds[sid - 1]? = some conn2fd
  | .remoteShut .client conn2fd sid => fds[sid - 1]? = some conn2fd
  | _ => True

/-- What a step adds to the log uses the right local descriptor. -/
def UsesSessionFd (s : Pair) (a : Act) : Prop :=
  ∀ s', s.step a = some s' → ∀ e ∈ s'.log.drop s.log.length, SessionFdOk s'.localFds e

instance (fds : List ℕ) (e : Event) : Decidable (SessionFdOk fds e) :=
  match e with
  | .cliRead _ _ (.raw _ _) => inferInstanceAs (Decidable (_ ∧ _))
  | .remoteShut .client _ _ => inferInstanceAs (Decidable (_ = _))
  | .cliRead _ _ (.frame _) | .remoteShut .server _ _ | .spliced _ _ _ | .reset _ _ _ _ =>
      .isTrue trivial

instance (s : Pair) (a : Act) : Decidable (UsesSessionFd s a) :=
  inferInstanceAs (Decidable (∀ s', _ = some s' → _))

/-- The protocol permits only events with the right local descriptor. -/
theorem EventOk.sessionFdOk {t : Session} {fds : List ℕ} {e : Event} (h : EventOk t fds e) :
    SessionFdOk fds e := by
  cases e with
  | cliRead start conn2fd c =>
      cases c with
      | raw sid b => exact h
      | frame m => trivial
  | remoteShut side conn2fd sid =>
      cases side with
      | server => trivial
      | client => exact h
  | spliced side sid c => trivial
  | reset side pipe recv wrote => trivial

theorem Matched.usesSessionFd (early : Bool) {fd : ℕ} {s : Pair} {t : Session} {a : Act}
    (h : ∀ s', s.step a = some s' → Matched early fd s t s') : UsesSessionFd s a := by
  intro s' hs e he
  obtain ⟨-, evs, hlog, hev⟩ := h s' hs
  rw [hlog, List.drop_left] at he
  exact (hev e he).sessionFdOk

namespace Rel

variable {fd : ℕ} {s s' : Pair} {t : Session}

/-- While a `Run` is to come, the session it belongs to is announced. -/
theorem announced_of_owes (h : Rel fd s t) {thread : ClientThread} (ho : s.Owes thread) :
    t.phase = .announced ∧ thread = if t.cliSid = 1 then .main else .worker := by
  obtain ⟨c, hc⟩ := ho
  have hph : t.phase = .announced := by
    by_contra hne
    rw [h.pending' hne] at hc
    exact absurd hc (by simp)
  obtain ⟨lf, -, -, hpend⟩ := h.pending hph
  rw [hc] at hpend
  exact ⟨hph, congrArg Prod.fst (Option.some.inj hpend)⟩

/-- Read before `Run`, a byte of a new connection meets the frame reader. -/
theorem not_usesSessionFd_of_read (h : Rel fd s t) (hi : t.Inv) (ho : s.Owes .main) {n : ℕ}
    {o : SpliceOut} {localFd : ℕ} (hs : s.step (.cliRead n o localFd) = some s') :
    ¬ UsesSessionFd s (.cliRead n o localFd) := by
  obtain ⟨hph, hth⟩ := h.announced_of_owes ho
  have hst : ¬ s.cli.start = true := by
    rw [h.cliStart, hph]
    decide
  have hworker : ¬ s.Owes .worker := by
    rintro ⟨c, hc⟩
    obtain ⟨c', hc'⟩ := ho
    rw [hc] at hc'
    exact absurd hc' (by simp)
  obtain ⟨hcl, -, hsw, -⟩ := hi.announced hph
  have hq : t.reqQueued = false := by
    rw [← Bool.not_eq_true]
    intro hq
    rcases hi.sids with hsid | hah
    · have hd := (hi.ended (.inr (.inr (hi.req hq).1))).2 hsid
      have := hi.up.unsent_iff.2 hcl
      rw [(hi.up.done_imp hd).1] at this
      exact absurd this (by decide)
    · rw [(hi.ahead hah).2.2.1] at hq
      exact absurd hq (by decide)
  obtain ⟨bs, req, -, hline, hreq⟩ := h.stream hsw
  obtain rfl : req = [] := (hreq.resolve_left fun hc => by rw [hq] at hc; exact absurd hc.1 (by decide)).2
  rw [List.append_nil] at hline
  have hs' : s.cliHandleRead n o localFd = some s' := hs
  unfold Pair.cliHandleRead at hs'
  rw [if_neg hworker, if_neg hst] at hs'
  cases hdown : s.down with
  | nil =>
      rw [hdown] at hs'
      exact absurd hs' (by simp)
  | cons c rest =>
      have hmem : c ∈ raws t.srvSid bs := by
        rw [← hline, hdown]
        simp
      obtain ⟨b, -, rfl⟩ := List.mem_map.1 hmem
      rw [hdown] at hs'
      simp only at hs'
      split at hs'
      · rename_i hn
        obtain rfl := Option.some.inj hs'
        intro huse
        obtain ⟨k, rfl⟩ := Nat.exists_eq_succ_of_ne_zero (by omega : n ≠ 0)
        have := huse _ hs (.cliRead s.cli.start s.cli.conn2fd (.raw t.srvSid b)) (by
          rw [List.drop_left]
          simp [Pair.readEvents])
        exact hst this.1
      · exact absurd hs' (by simp)

/-- Handled before `Run`, the end of an empty stream shuts down a half that has no connection. -/
theorem not_usesSessionFd_of_shutdown (h : Rel fd s t) (hi : t.Inv) (ho : s.Owes .worker)
    (hhead : s.toCli.head? = some (.shutdownPeerConn 0)) {localFd : ℕ}
    (hs : s.step (.cliCtl localFd) = some s') : ¬ UsesSessionFd s (.cliCtl localFd) := by
  obtain ⟨hph, -⟩ := h.announced_of_owes ho
  obtain ⟨lf, hlf, hlast, hpend⟩ := h.pending hph
  have hmain : ¬ s.Owes .main := by
    rintro ⟨c, hc⟩
    obtain ⟨c', hc'⟩ := ho
    rw [hc] at hc'
    exact absurd hc' (by simp)
  have hpos : 0 < t.cliSid := hi.busy (by simp [hph])
  have hmap : s.cliProxyConnectMap = true := h.cliMap.2 hpos
  have htoCli := h.toCli
  rw [if_neg (by omega)] at htoCli
  have ha : t.down.ann = .inFlight := by
    by_contra ha
    rw [if_neg ha] at htoCli
    rw [htoCli] at hhead
    exact absurd hhead (by simp)
  rw [if_pos ha, List.nil_append] at htoCli
  have hzero : Counter.ofNat t.down.wrote = 0 := by
    rw [htoCli] at hhead
    simpa using hhead
  have htot := h.cliTotal (by simp [hph])
  rw [if_neg (by simp [ha])] at htot
  have hrecv := h.cliRecv' (.inl (by simp [hph]))
  have hs' : s.cliCtlRead localFd = some s' := hs
  unfold Pair.cliCtlRead at hs'
  rw [if_neg hmain, htoCli] at hs'
  simp only [Pair.handleShutdownLocalConn, hmap, hzero, htot, addTotalCount_noTotal,
    Pair.shutdonwLocalConn, hrecv] at hs'
  simp at hs'
  subst hs'
  intro huse
  have := huse _ hs (.remoteShut .client s.cli.conn2fd s.cliSid) (by
    rw [List.drop_left]
    simp [remoteEvents, Pair.cliSid])
  have hget : s.localFds[s.cliSid - 1]? = some s.cli.conn2fd := this
  rw [h.cliConn2fd' (by simp [hph])] at hget
  rw [List.getLast?_eq_getElem?] at hlast
  have : lf = 0 := Option.some.inj (hlast.symm.trans hget)
  omega

/-- In related states a step uses the right descriptor exactly when every `Run` is in time. -/
theorem usesSessionFd_iff (h : Rel fd s t) (ht : Relation.ReflTransGen (Session.Step true) {} t)
    (hb : InBound true s) {a : Act} (hs : s.step a = some s') :
    UsesSessionFd s a ↔ RunsInTime s a := by
  have hi := Session.inv_of_reach ht
  constructor
  · intro huse
    cases a with
    | cliRead n o localFd => exact fun ho => h.not_usesSessionFd_of_read hi ho hs huse
    | cliCtl localFd => exact fun hc => h.not_usesSessionFd_of_shutdown hi hc.1 hc.2 hs huse
    | _ => trivial
  · intro hrun
    exact Matched.usesSessionFd true fun s₁ hs₁ =>
      matched_of_follows ht h hb hrun (fun hf => absurd hf (by decide)) hs₁

end Rel

/-- **When the client half uses the descriptor of the session.**  In a run within the bound every
byte is read by a half with `start_` set and the local descriptor of its session in `conn2fd_`, and
every `shutdownFromRemote` of the client half finds the local descriptor of its session there,
exactly when every `Run` is in time. -/
theorem session_fd_iff {fd : ℕ} {as : List Act} {s : Pair}
    (he : (pairLts fd).exec (pairLts fd).init as = some s)
    (hg : (pairLts fd).AllSteps (Bounded (byteBound - reqLen)) (pairLts fd).init as) :
    (pairLts fd).AllSteps UsesSessionFd (pairLts fd).init as ↔
      (pairLts fd).AllSteps RunsInTime (pairLts fd).init as := by
  refine Lts.allSteps_iff (fun s a s' hr _ hs => ?_) he hg
  have hreach : (pairLts fd).Reach (Follows true) s := hr.mono fun _ _ h => follows_true h.1 h.2
  obtain ⟨t, ht, hrel, hb, -⟩ := refines hreach
  exact hrel.usesSessionFd_iff ht hb hs

/-- A new connection, on which a byte arrives before and is read after `Run`. -/
def readAfterRun : List Act :=
  [.cliCtl 9, .srvRead 1 .fail, .publicRead (.moved [97]) (.moved 1), .cliRun, .cliRead 1 (.moved 1) 0]

theorem session_fd_read_after_run :
    (pairLts 7).AllSteps UsesSessionFd (pairLts 7).init readAfterRun :=
  (session_fd_iff
    (s := ((pairLts 7).exec (pairLts 7).init readAfterRun).get (by decide +kernel))
    (Option.some_get _).symm (by decide +kernel)).2 (by decide +kernel)

/-- A new connection, on which a byte is read before `Run`. -/
def readBeforeRun : List Act :=
  [.cliCtl 9, .srvRead 1 .fail, .publicRead (.moved [97]) (.moved 1), .cliRead 1 .fail 0]

/-- A recycled connection, whose new session is ended by the public side, without a byte, before
`Run`. -/
def shutdownBeforeRun : List Act :=
  [.cliCtl 9, .cliRun, .srvRead 1 .fail, .publicRead (.moved []) .fail, .cliCtl 0,
    .localRead (.moved []) .fail, .srvCtl, .newPublicConn 8, .srvWrite, .cliRead 1 .fail 10,
    .srvRead 1 .fail, .publicRead (.moved []) .fail, .cliCtl 0]

/-- Neither path of the client keeps the answer to an announcement behind `Run`. -/
theorem session_fd_missed :
    (∃ s, (pairLts 7).exec (pairLts 7).init readBeforeRun = some s ∧
      .cliRead false 0 (.raw 1 97) ∈ s.log) ∧
    (∃ s, (pairLts 7).exec (pairLts 7).init shutdownBeforeRun = some s ∧
      .remoteShut .client 0 2 ∈ s.log ∧ s.localFds = [9, 10]) ∧
    ¬ ∀ (as : List Act) (s : Pair), (pairLts 7).exec (pairLts 7).init as = some s →
      (pairLts 7).AllSteps UsesSessionFd (pairLts 7).init as := by
  refine ⟨⟨((pairLts 7).exec (pairLts 7).init readBeforeRun).get (by decide +kernel),
    (Option.some_get _).symm, by decide +kernel⟩,
    ⟨((pairLts 7).exec (pairLts 7).init shutdownBeforeRun).get (by decide +kernel),
    (Option.some_get _).symm, by decide +kernel⟩, fun h => ?_⟩
  have := h readBeforeRun
    (((pairLts 7).exec (pairLts 7).init readBeforeRun).get (by decide +kernel))
    (Option.some_get _).symm
  exact absurd this (by decide +kernel)

end ProxySocket

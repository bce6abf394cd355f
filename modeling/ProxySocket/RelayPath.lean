/-
**From one end to the other.**

A byte of a session passes through five places: the socket it is read from, the pipe of the connection
that reads it, the proxy stream, the pipe of the proxy connection at the other end, and the socket it is
written to.  Two read handlers move it, each with two calls of `splice(2)`; the end of the stream takes
another way, with `ShutdownPeerConn` on the control connection.

This module follows one direction of one session, from the client to the server or back: the two handlers,
the announcement and the end of the other direction come in any order, and every call of `splice(2)` may
move less than it was asked to, or fail.

Main definitions:

* `RelayPath`, `PathAct`, `pathLts` — the places and the steps;
* `RelayPath.stages` — the places as a conveyor;
* `WholeStep` — a second splice moves all that the first one has moved.

Main results:

* `PathInv.step` — one step keeps the accounting;
* `path_shut_iff` — **the socket at the end is shut down exactly when the announcement was handled and all
  the bytes on the way were written to it**, and what is missing then is in the pipe at the beginning;
* `path_lossless_iff` — **everything arrives, and its end, exactly when every second splice is whole**.
-/

import ProxySocket.Conveyor
import ProxySocket.ProxyConnect
import ProxySocket.Relay

set_option relaxedAutoImplicit false
set_option autoImplicit false

namespace ProxySocket

/-! ### The path -/

/-- One direction of a session. -/
structure RelayPath where
  /-- history: the bytes that the sender has written -/
  sent : List UInt8 := []
  /-- those that were not read yet -/
  unread : List UInt8 := []
  /-- the sender has closed its direction -/
  finished : Bool := false
  /-- the connection that reads them -/
  peer : PeerConnect
  /-- the proxy stream -/
  stream : List Cell := []
  /-- the half of the proxy connection at the other end -/
  half : ProxyConnect
  /-- a `ShutdownPeerConn` on its way, and whether one was handled -/
  announced : Option Counter := none
  applied : Bool := false
  /-- the cells written to the socket at the end -/
  delivered : List Cell := []
  /-- `shutdown(conn2fd_, SHUT_WR)` was called on it -/
  shut : Bool := false
  /-- the other direction has ended -/
  otherEnded : Bool := false

/-- The steps, with what the two ends and the kernel contribute. -/
inductive PathAct
  | send (bs : List UInt8)
  | finish
  /-- the read handler of the connection, with the answers of its two splices -/
  | relay (i : SpliceIn) (o : SpliceOut)
  /-- the raw branch of `ProxyConnect::handleRead`, whose first splice moves `n` cells -/
  | forward (n : ℕ) (o : SpliceOut)
  /-- `ShutdownPeerConn` is handled -/
  | announcement
  /-- the other direction ends: `shutdownFromLocal` -/
  | otherEnds
deriving DecidableEq

/-- What the first splice can find: a piece of what was not read, or the end of the stream. -/
def SpliceIn.From (unread : List UInt8) (finished : Bool) : SpliceIn → Prop
  | .fail => True
  | .moved bs => bs <+: unread ∧ (bs = [] → unread = [] ∧ finished = true)

instance (unread : List UInt8) (finished : Bool) : (i : SpliceIn) → Decidable (i.From unread finished)
  | .fail => .isTrue trivial
  | .moved _ => inferInstanceAs (Decidable (_ ∧ (_ → _ ∧ _)))

namespace RelayPath

/-- `Tunnel::shutdownPublicConn` of the server and `Tunnel::shutdonwLocalConn` of the client, as far as
they concern this direction. -/
def shutdownPeerConn (s : RelayPath) : RelayPath :=
  if s.half.totalCount ≠ s.half.recvCount then s
  else { s with half := s.half.shutdownFromRemote.1, shut := true }

/-- One step of a session with the number `sid`. -/
def step (e : RelayEnd) (sid : ℕ) (s : RelayPath) : PathAct → Option RelayPath
  | .send bs =>
      if s.finished = false then
        some { s with sent := s.sent ++ bs, unread := s.unread ++ bs }
      else none
  | .finish => some { s with finished := true }
  | .relay i o =>
      if i.From s.unread s.finished ∧ i.Admissible s.peer.closed ∧ o.Admissible i.bytes.length then
        let f := e.handleRead s.peer i o
        some { s with
          unread := s.unread.drop i.bytes.length
          peer := f.conn
          stream := s.stream ++ raws sid f.written
          announced := f.shutdown.or s.announced }
      else none
  | .forward n o =>
      if s.half.start = true ∧ s.half.RawAdmissible s.stream n o then
        let r := s.half.spliceRaw s.stream n o
        let s := { s with half := r.half, stream := r.rest, delivered := s.delivered ++ r.out }
        some (if r.reached then s.shutdownPeerConn else s)
      else none
  | .announcement =>
      s.announced.map fun count =>
        { s with
          announced := none
          applied := true
          half := { s.half with totalCount := addTotalCount s.half.totalCount count } }.shutdownPeerConn
  | .otherEnds =>
      if s.otherEnded = false then
        some { s with half := s.half.shutdownFromLocal.1, otherEnded := true }
      else none

/-- The places a byte passes through, the last one first. -/
def stages (sid : ℕ) (s : RelayPath) : List (List Cell) :=
  [s.delivered, s.half.pipe, s.stream, raws sid s.peer.pipe, raws sid s.unread]

end RelayPath

/-- A session on a proxy connection that is new, or was used before. -/
def pathLts (e : RelayEnd) (sid fd : ℕ) (recycled : Bool) : Lts RelayPath PathAct where
  init :=
    { peer := { fd := fd }
      half := { fd := fd, start := true, totalCount := if recycled then 0 else -1 } }
  step := RelayPath.step e sid

/-! ### The accounting -/

/-- The total that a half shows before the announcement. -/
def noAnnouncement (recycled : Bool) : Counter := if recycled then 0 else -1

/-- The accounting of a session while its end is being settled.  The last two fields are about the other
direction, whose end can make the half ready for the next session. -/
structure PathAcc (sid : ℕ) (recycled : Bool) (s : RelayPath) : Prop where
  stages : (s.stages sid).flatten = raws sid s.sent
  tran : s.peer.tranCount = Counter.ofNat (s.delivered ++ s.half.pipe ++ s.stream).length
  closed : s.peer.closed = true ↔ s.announced.isSome = true ∨ s.applied = true
  ended : s.peer.closed = true → s.unread = [] ∧ s.finished = true
  announced : ∀ n, s.announced = some n → n = s.peer.tranCount ∧ s.applied = false
  recv : s.half.start = true → s.half.recvCount = Counter.ofNat s.delivered.length
  total : s.half.start = true →
    s.half.totalCount = if s.applied then s.peer.tranCount else noAnnouncement recycled
  reset : s.half.start = false → s.shut = true
  halfClose : s.half.start = true → s.half.halfClose = true → s.shut = true ∨ s.otherEnded = true

/-- **The accounting between two steps.** -/
structure PathInv (sid : ℕ) (recycled : Bool) (s : RelayPath) : Prop extends PathAcc sid recycled s where
  shut : s.shut = true ↔ s.applied = true ∧ s.half.pipe = [] ∧ s.stream = []

/-- A piece of the cells of some bytes has as many bytes as cells. -/
theorem cellsSize_piece {sid : ℕ} {bs : List UInt8} {l m r : List Cell}
    (h : l ++ m ++ r = raws sid bs) : cellsSize m = m.length := by
  obtain ⟨lm, r', -, hlm, -⟩ := List.map_eq_append_iff.1 h.symm
  obtain ⟨l', m', -, -, hm⟩ := List.map_eq_append_iff.1 hlm
  rw [← hm]
  change cellsSize (raws sid m') = (raws sid m').length
  rw [cellsSize_raws, length_raws]

/-- What the raw branch moves, whether its second splice fails or not. -/
theorem spliceRaw_moves (p : ProxyConnect) (stream : List Cell) (n : ℕ) (o : SpliceOut) :
    (p.spliceRaw stream n o).out = (p.pipe ++ stream.take n).take o.count ∧
    (p.spliceRaw stream n o).half =
      { p with
        pipe := (p.pipe ++ stream.take n).drop o.count
        recvCount := p.recvCount +
          Counter.ofNat (cellsSize ((p.pipe ++ stream.take n).take o.count)) } ∧
    (p.spliceRaw stream n o).rest = stream.drop n ∧
    ((p.spliceRaw stream n o).reached = true ↔ o ≠ .fail ∧
      (p.spliceRaw stream n o).half.recvCount = p.totalCount) := by
  cases o with
  | fail => simp [ProxyConnect.spliceRaw, SpliceOut.count]
  | moved k => simp [ProxyConnect.spliceRaw, SpliceOut.count]

namespace PathAcc

variable {sid : ℕ} {recycled : Bool} {s : RelayPath}

/-- The bytes on the proxy stream and beyond it are not more than those that were sent. -/
theorem length_le (h : PathAcc sid recycled s) :
    (s.delivered ++ s.half.pipe ++ s.stream).length ≤ s.sent.length := by
  have hlen := congrArg List.length h.stages
  simp only [RelayPath.stages, List.flatten_cons, List.flatten_nil, List.length_append,
    length_raws] at hlen ⊢
  omega

/-- **The comparison of the two counters**, once the announcement is in `total_count_`: they agree exactly
when nothing is left on the way. -/
theorem counts_eq_iff (h : PathAcc sid recycled s) (hfits : s.sent.length < 2 ^ 32 - 1)
    (hstart : s.half.start = true) (happlied : s.applied = true) :
    s.half.totalCount = s.half.recvCount ↔ s.half.pipe = [] ∧ s.stream = [] := by
  have hle := h.length_le
  rw [List.length_append, List.length_append] at hle
  rw [h.total hstart, h.recv hstart, if_pos happlied, h.tran, List.length_append, List.length_append,
    Counter.ofNat_inj (by omega) (by omega), ← List.length_eq_zero_iff, ← List.length_eq_zero_iff]
  omega

/-- Before the announcement the received bytes are never taken for all of them. -/
theorem counts_ne (h : PathAcc sid recycled s) (hfits : s.sent.length < 2 ^ 32 - 1)
    (hstart : s.half.start = true) (happlied : s.applied = false) (hpos : s.delivered ≠ []) :
    s.half.recvCount ≠ s.half.totalCount := by
  have hle := h.length_le
  rw [List.length_append, List.length_append] at hle
  have hlen : 0 < s.delivered.length := List.length_pos_iff.2 hpos
  rw [h.total hstart, h.recv hstart, happlied, if_neg Bool.false_ne_true, noAnnouncement]
  split
  · exact Counter.ofNat_ne_zero hlen (by omega)
  · exact Counter.ofNat_ne_neg_one (by omega)

/-- **What a comparison does** after the announcement, when nothing was shut down before. -/
theorem shutdownPeerConn (h : PathAcc sid recycled s) (hfits : s.sent.length < 2 ^ 32 - 1)
    (hstart : s.half.start = true) (happlied : s.applied = true) (hshut : s.shut = false) :
    PathInv sid recycled s.shutdownPeerConn := by
  have hiff := h.counts_eq_iff hfits hstart happlied
  unfold RelayPath.shutdownPeerConn
  by_cases hne : s.half.totalCount ≠ s.half.recvCount
  · rw [if_pos hne]
    refine ⟨h, ?_⟩
    rw [hshut]
    exact iff_of_false Bool.false_ne_true fun hc => hne (hiff.2 hc.2)
  · rw [if_neg hne]
    obtain ⟨hpipe, hstream⟩ := hiff.1 (not_not.1 hne)
    cases hhalf : s.half.halfClose with
    | true =>
        rw [ProxyConnect.shutdownFromRemote_of_halfClose hhalf]
        exact ⟨⟨h.stages, h.tran, h.closed, h.ended, h.announced, (nomatch ·), (nomatch ·), fun _ => rfl,
          (nomatch ·)⟩, iff_of_true rfl ⟨happlied, hpipe, hstream⟩⟩
    | false =>
        rw [ProxyConnect.shutdownFromRemote_of_open hhalf]
        exact ⟨⟨h.stages, h.tran, h.closed, h.ended, h.announced, h.recv, h.total, fun _ => rfl,
          fun _ _ => .inl rfl⟩, iff_of_true rfl ⟨happlied, hpipe, hstream⟩⟩

end PathAcc

namespace PathInv

variable {e : RelayEnd} {sid fd : ℕ} {recycled : Bool} {s s' : RelayPath}

theorem init : PathInv sid recycled (pathLts e sid fd recycled).init where
  stages := rfl
  tran := rfl
  closed := by simp [pathLts]
  ended := by intro h; cases h
  announced := by intro n h; cases h
  recv _ := rfl
  total _ := rfl
  shut := by simp [pathLts]
  reset := by intro h; cases h
  halfClose := by intro _ h; cases h

/-! Each step keeps the accounting. -/

theorem send (h : PathInv sid recycled s) {bs : List UInt8} (hs : s.step e sid (.send bs) = some s') :
    PathInv sid recycled s' := by
  simp only [RelayPath.step, Option.ite_none_right_eq_some, Option.some.injEq] at hs
  obtain ⟨hfin, rfl⟩ := hs
  refine { h with stages := ?_, ended := ?_ }
  · have hfeed := Conveyor.flatten_feed (raws sid bs) (s.stages sid)
    rw [h.stages, ← raws_append] at hfeed
    rw [← hfeed]
    simp [RelayPath.stages, Conveyor.feed]
  · intro hc
    have hfin' := (h.ended hc).2
    rw [hfin] at hfin'
    exact absurd hfin' Bool.false_ne_true

theorem finish (h : PathInv sid recycled s) (hs : s.step e sid .finish = some s') :
    PathInv sid recycled s' := by
  obtain rfl := Option.some.inj hs
  exact { h with ended := fun hc => ⟨(h.ended hc).1, rfl⟩ }

theorem relay (h : PathInv sid recycled s) {i : SpliceIn} {o : SpliceOut}
    (hs : s.step e sid (.relay i o) = some s') : PathInv sid recycled s' := by
  simp only [RelayPath.step, Option.ite_none_right_eq_some, Option.some.injEq,
    RelayEnd.handleRead_eq] at hs
  obtain ⟨⟨hfrom, hi, ho⟩, rfl⟩ := hs
  by_cases hend : AtEnd s.peer i
  · -- the end of the stream: the count is announced
    obtain ⟨rfl, hopen⟩ := hend
    rw [spliceThrough_of_atEnd o ⟨rfl, hopen⟩]
    obtain ⟨hunread, hfin⟩ := hfrom.2 rfl
    have hnone : ¬ (s.announced.isSome = true ∨ s.applied = true) := by
      rw [← h.closed, hopen]
      exact Bool.false_ne_true
    have happlied : s.applied = false := by
      cases ha : s.applied with
      | true => exact absurd (.inr ha) hnone
      | false => rfl
    refine { h with stages := ?_, tran := ?_, closed := ?_, ended := ?_, announced := ?_, shut := ?_ }
    · simpa [RelayPath.stages, hunread, SpliceIn.bytes] using h.stages
    · simpa using h.tran
    · simp
    · exact fun _ => ⟨by simp [hunread], hfin⟩
    · rintro n hn
      exact ⟨(Option.some.inj hn).symm, happlied⟩
    · simpa using h.shut
  · -- bytes pass through the pipe
    rw [spliceThrough_of_not_atEnd hend ho]
    have hbytes : i.bytes = s.unread.take i.bytes.length := by
      cases i with
      | fail => rfl
      | moved bs => exact List.prefix_iff_eq_take.1 hfrom.1
    have hcount : ((s.peer.pipe ++ i.bytes).take o.count).length = o.count := by
      have := ho.1
      rw [List.length_take, List.length_append]
      omega
    -- nothing is read any more once the end was announced
    have hdone : s.peer.closed = true → o.count = 0 := by
      intro hc
      have hnil : i.bytes = [] := hi.2 hc
      have := ho.1
      rw [hnil] at this
      exact Nat.le_zero.1 this
    have hsame : s.peer.closed = true →
        s.peer.tranCount + Counter.ofNat o.count = s.peer.tranCount := by
      intro hc
      rw [hdone hc]
      exact BitVec.add_zero _
    refine { h with stages := ?_, tran := ?_, closed := h.closed, ended := ?_, announced := ?_,
                    total := ?_, shut := ?_ }
    · have hmoves := Conveyor.Moves.through s.stream (raws sid s.peer.pipe) (raws sid s.unread) []
        i.bytes.length o.count
      have hflat := ((hmoves.later s.half.pipe).later s.delivered).flatten_eq
      rw [take_raws, ← hbytes, ← raws_append, take_raws, drop_raws, drop_raws] at hflat
      exact hflat.trans h.stages
    · rw [h.tran, ← Counter.ofNat_add]
      simp only [List.length_append, length_raws, hcount, Nat.add_assoc]
    · intro hc
      obtain ⟨hunread, hfin⟩ := h.ended hc
      exact ⟨by rw [hunread, List.drop_nil], hfin⟩
    · intro n hn
      have hn' : s.announced = some n := hn
      have hc : s.peer.closed = true := h.closed.2 (.inl (by rw [hn']; rfl))
      rw [hsame hc]
      exact h.announced n hn'
    · intro hstart
      rw [h.total hstart]
      by_cases ha : s.applied = true
      · rw [if_pos ha, if_pos ha, hsame (h.closed.2 (.inr ha))]
      · rw [if_neg ha, if_neg ha]
    · rw [h.shut]
      refine and_congr_right fun ha => and_congr_right fun _ => ?_
      have hzero : o.count = 0 := hdone (h.closed.2 (.inr ha))
      rw [hzero, List.take_zero, raws_nil, List.append_nil]

theorem forward (h : PathInv sid recycled s) {n : ℕ} {o : SpliceOut}
    (hs : s.step e sid (.forward n o) = some s') (hfits : s.sent.length < 2 ^ 32 - 1) :
    PathInv sid recycled s' := by
  simp only [RelayPath.step, Option.ite_none_right_eq_some, Option.some.injEq] at hs
  obtain ⟨⟨hstart, hpos, hn, -, ho⟩, rfl⟩ := hs
  obtain ⟨hout, hhalf, hrest, hreached⟩ := spliceRaw_moves s.half s.stream n o
  have hne : s.stream ≠ [] := by
    rintro hnil
    rw [hnil, List.length_nil] at hn
    omega
  have hshut : s.shut = false := by
    cases hc : s.shut with
    | true => exact absurd (h.shut.1 hc).2.2 hne
    | false => rfl
  -- the two splices move pieces on
  have hflat := (Conveyor.Moves.through s.delivered s.half.pipe s.stream
    [raws sid s.peer.pipe, raws sid s.unread] n o.count).flatten_eq.trans h.stages
  have hsize : cellsSize ((s.half.pipe ++ s.stream.take n).take o.count) =
      ((s.half.pipe ++ s.stream.take n).take o.count).length := by
    rw [List.flatten_cons, List.append_assoc, ← List.append_assoc] at hflat
    exact cellsSize_piece hflat
  let t : RelayPath := { s with
    half := (s.half.spliceRaw s.stream n o).half
    stream := (s.half.spliceRaw s.stream n o).rest
    delivered := s.delivered ++ (s.half.spliceRaw s.stream n o).out }
  have hacc : PathAcc sid recycled t := by
    simp only [t, hout, hhalf, hrest, hsize]
    refine { h.toPathAcc with stages := hflat, tran := ?_, recv := ?_ }
    · rw [h.tran]
      congr 1
      simp only [List.append_assoc, List.length_append, List.length_take, List.length_drop]
      omega
    · intro _
      rw [h.recv hstart, ← Counter.ofNat_add, List.length_append]
  have htstart : t.half.start = true := by
    simp only [t, hhalf]
    exact hstart
  have httotal : t.half.totalCount = s.half.totalCount := by simp only [t, hhalf]
  have hin : s.half.pipe ++ s.stream.take n ≠ [] := by
    intro hnil
    have hlen := congrArg List.length hnil
    rw [List.length_append, List.length_take, List.length_nil] at hlen
    omega
  change PathInv sid recycled (if (s.half.spliceRaw s.stream n o).reached = true then t.shutdownPeerConn
    else t)
  by_cases hr : (s.half.spliceRaw s.stream n o).reached = true
  · rw [if_pos hr]
    obtain ⟨hfail, heq⟩ := hreached.1 hr
    refine hacc.shutdownPeerConn hfits htstart ?_ hshut
    -- before the announcement the counters differ
    cases ha : s.applied with
    | true => rfl
    | false =>
        have hdelivered : t.delivered ≠ [] := by
          intro hnil
          have htake := (List.append_eq_nil_iff.1 hnil).2
          rw [hout, List.take_eq_nil_iff] at htake
          have := (ho hfail).1
          exact htake.elim (fun h0 => by omega) hin
        exact absurd (heq.trans httotal.symm) (hacc.counts_ne hfits htstart ha hdelivered)
  · rw [if_neg hr]
    refine ⟨hacc, ?_⟩
    change s.shut = true ↔ _
    rw [hshut]
    refine iff_of_false Bool.false_ne_true fun hall => hr (hreached.2 ⟨?_, ?_⟩)
    · rintro rfl
      have hpipe := hall.2.1
      simp only [t, hhalf, SpliceOut.count, List.drop_zero] at hpipe
      exact hin hpipe
    · rw [← httotal]
      exact ((hacc.counts_eq_iff hfits htstart hall.1).2 hall.2).symm

theorem announcement (h : PathInv sid recycled s) (hs : s.step e sid .announcement = some s')
    (hfits : s.sent.length < 2 ^ 32 - 1) : PathInv sid recycled s' := by
  obtain ⟨count, hcount, rfl⟩ := Option.map_eq_some_iff.1 hs
  obtain ⟨rfl, happlied⟩ := h.announced count hcount
  have hclosed : s.peer.closed = true := h.closed.2 (.inl (by rw [hcount]; rfl))
  have hshut : s.shut = false := by
    cases hc : s.shut with
    | true => exact absurd (h.shut.1 hc).1 (by rw [happlied]; exact Bool.false_ne_true)
    | false => rfl
  have hstart : s.half.start = true := by
    cases hst : s.half.start with
    | true => rfl
    | false => exact absurd (h.reset hst) (by rw [hshut]; exact Bool.false_ne_true)
  have htotal : addTotalCount s.half.totalCount s.peer.tranCount = s.peer.tranCount := by
    rw [h.total hstart, happlied, if_neg Bool.false_ne_true, noAnnouncement, addTotalCount]
    split
    · rw [if_neg (by decide)]
      exact BitVec.zero_add _
    · rw [if_pos rfl]
  refine PathAcc.shutdownPeerConn ?_ hfits hstart rfl hshut
  refine { h.toPathAcc with closed := ?_, announced := ?_, total := ?_ }
  · exact iff_of_true hclosed (.inr rfl)
  · intro n hn
    cases hn
  · exact fun _ => htotal

theorem otherEnds (h : PathInv sid recycled s) (hs : s.step e sid .otherEnds = some s') :
    PathInv sid recycled s' := by
  simp only [RelayPath.step, Option.ite_none_right_eq_some, Option.some.injEq] at hs
  obtain ⟨hother, rfl⟩ := hs
  cases hhalf : s.half.halfClose with
  | true =>
      rw [ProxyConnect.shutdownFromLocal_of_halfClose hhalf]
      refine { h with recv := (nomatch ·), total := (nomatch ·), reset := fun _ => ?_,
                      halfClose := (nomatch ·) }
      -- the half was half closed by this direction
      cases hst : s.half.start with
      | true =>
          rcases h.halfClose hst hhalf with hshut | ho
          · exact hshut
          · exact absurd ho (by rw [hother]; exact Bool.false_ne_true)
      | false => exact h.reset hst
  | false =>
      rw [ProxyConnect.shutdownFromLocal_of_open hhalf]
      exact { h with halfClose := fun _ _ => .inr rfl }

/-- **One step keeps the accounting**, as long as the session has fewer than `2 ^ 32 - 1` bytes. -/
theorem step (h : PathInv sid recycled s) {a : PathAct} (hs : s.step e sid a = some s')
    (hfits : s.sent.length < 2 ^ 32 - 1) : PathInv sid recycled s' := by
  cases a with
  | send bs => exact h.send hs
  | finish => exact h.finish hs
  | relay i o => exact h.relay hs
  | forward n o => exact h.forward hs hfits
  | announcement => exact h.announcement hs hfits
  | otherEnds => exact h.otherEnds hs

end PathInv

/-! ### Whole runs -/

section Run

variable {e : RelayEnd} {sid fd : ℕ} {recycled : Bool} {as : List PathAct} {s s' : RelayPath}

theorem shutdownPeerConn_sent (s : RelayPath) : s.shutdownPeerConn.sent = s.sent := by
  unfold RelayPath.shutdownPeerConn
  split <;> rfl

/-- What was sent stays sent. -/
theorem sent_length_le {a : PathAct} (hs : s.step e sid a = some s') :
    s.sent.length ≤ s'.sent.length := by
  cases a with
  | send bs =>
      simp only [RelayPath.step, Option.ite_none_right_eq_some, Option.some.injEq] at hs
      obtain ⟨-, rfl⟩ := hs
      rw [List.length_append]
      exact Nat.le_add_right _ _
  | finish =>
      obtain rfl := Option.some.inj hs
      exact le_rfl
  | relay i o =>
      simp only [RelayPath.step, Option.ite_none_right_eq_some, Option.some.injEq] at hs
      obtain ⟨-, rfl⟩ := hs
      exact le_rfl
  | forward n o =>
      simp only [RelayPath.step, Option.ite_none_right_eq_some, Option.some.injEq] at hs
      obtain ⟨-, rfl⟩ := hs
      split
      · rw [shutdownPeerConn_sent]
      · exact le_rfl
  | announcement =>
      obtain ⟨count, -, rfl⟩ := Option.map_eq_some_iff.1 hs
      rw [shutdownPeerConn_sent]
  | otherEnds =>
      simp only [RelayPath.step, Option.ite_none_right_eq_some, Option.some.injEq] at hs
      obtain ⟨-, rfl⟩ := hs
      exact le_rfl

theorem pathInv_of_exec
    (he : (pathLts e sid fd recycled).exec (pathLts e sid fd recycled).init as = some s)
    (hfits : s.sent.length < 2 ^ 32 - 1) : PathInv sid recycled s := by
  have hr : (pathLts e sid fd recycled).Reach (fun _ _ => True) s :=
    .of_allSteps .init he (Lts.allSteps_true _ as)
  have hinv : s.sent.length < 2 ^ 32 - 1 → PathInv sid recycled s :=
    hr.invariant (I := fun s => s.sent.length < 2 ^ 32 - 1 → PathInv sid recycled s)
      (fun _ => PathInv.init) fun s a s' _ hi _ hs hlt => by
        have hle : s.sent.length ≤ s'.sent.length := sent_length_le hs
        exact (hi (by omega)).step hs (by omega)
  exact hinv hfits

namespace PathInv

theorem places (h : PathInv sid recycled s) :
    s.delivered ++ s.half.pipe ++ s.stream ++ raws sid s.peer.pipe ++ raws sid s.unread =
      raws sid s.sent := by
  have hflat := h.stages
  simpa only [RelayPath.stages, List.flatten_cons, List.flatten_nil, List.append_nil,
    List.append_assoc] using hflat

/-- Once the socket at the end is shut down, only the first pipe can still hold bytes. -/
theorem rest (h : PathInv sid recycled s) (hshut : s.shut = true) :
    s.delivered ++ raws sid s.peer.pipe = raws sid s.sent := by
  obtain ⟨happlied, hpipe, hstream⟩ := h.shut.1 hshut
  have hplaces := h.places
  rw [hpipe, hstream, (h.ended (h.closed.2 (.inr happlied))).1] at hplaces
  simpa using hplaces

end PathInv

/-- The second splice of a step moves all that its first one has moved. -/
def WholeStep : PathAct → Prop
  | .relay i o => o.count = i.bytes.length
  | .forward n o => o.count = n
  | _ => True

instance instDecidableWholeStep : (a : PathAct) → Decidable (WholeStep a)
  | .send _ => .isTrue trivial
  | .finish => .isTrue trivial
  | .relay _ _ => inferInstanceAs (Decidable (_ = _))
  | .forward _ _ => inferInstanceAs (Decidable (_ = _))
  | .announcement => .isTrue trivial
  | .otherEnds => .isTrue trivial

theorem cellsSize_eq_zero {l : List Cell} (h : cellsSize l = 0) : l = [] := by
  cases l with
  | nil => rfl
  | cons c l =>
      rw [cellsSize, List.map_cons, List.sum_cons] at h
      cases c with
      | raw sid b => simp only [Cell.size] at h; omega
      | frame m => cases m <;> simp only [Cell.size, ProxyMsg.len] at h <;> omega

/-- Nothing waits in the two pipes. -/
def PipesEmpty (s : RelayPath) : Prop := s.peer.pipe = [] ∧ s.half.pipe = []

theorem pipesEmpty_shutdownPeerConn (s : RelayPath) :
    PipesEmpty s.shutdownPeerConn ↔ PipesEmpty s := by
  unfold RelayPath.shutdownPeerConn ProxyConnect.shutdownFromRemote
  split
  · exact Iff.rfl
  · split <;> exact Iff.rfl

/-- **The pipes are empty after a step exactly when they were before and the step was whole.** -/
theorem pipesEmpty_step {a : PathAct} (hs : s.step e sid a = some s') :
    PipesEmpty s' ↔ PipesEmpty s ∧ WholeStep a := by
  cases a with
  | send bs =>
      simp only [RelayPath.step, Option.ite_none_right_eq_some, Option.some.injEq] at hs
      obtain ⟨-, rfl⟩ := hs
      exact (and_iff_left trivial).symm
  | finish =>
      obtain rfl := Option.some.inj hs
      exact (and_iff_left trivial).symm
  | relay i o =>
      simp only [RelayPath.step, Option.ite_none_right_eq_some, Option.some.injEq,
        RelayEnd.handleRead_eq] at hs
      obtain ⟨⟨-, -, ho⟩, rfl⟩ := hs
      by_cases hend : AtEnd s.peer i
      · rw [spliceThrough_of_atEnd o hend]
        have hzero : o.count = 0 := by
          have := ho.1
          rw [hend.1] at this
          exact Nat.le_zero.1 this
        refine (and_iff_left ?_).symm
        simp only [WholeStep, hzero, hend.1]
        rfl
      · rw [spliceThrough_of_not_atEnd hend ho]
        have hle := ho.1
        simp only [PipesEmpty, WholeStep, List.drop_eq_nil_iff, List.length_append]
        constructor
        · rintro ⟨hlen, hhalf⟩
          exact ⟨⟨List.length_eq_zero_iff.1 (by omega), hhalf⟩, by omega⟩
        · rintro ⟨⟨hpipe, hhalf⟩, hw⟩
          exact ⟨by rw [hpipe, hw]; simp, hhalf⟩
  | forward n o =>
      simp only [RelayPath.step, Option.ite_none_right_eq_some, Option.some.injEq] at hs
      obtain ⟨⟨-, hpos, hn, -, ho⟩, rfl⟩ := hs
      obtain ⟨-, hhalf, -, -⟩ := spliceRaw_moves s.half s.stream n o
      have htake : (s.stream.take n).length = n := by
        rw [List.length_take]
        exact Nat.min_eq_left hn
      have hiff : (s.half.spliceRaw s.stream n o).half.pipe = [] ↔ s.half.pipe = [] ∧ o.count = n := by
        rw [hhalf]
        simp only [List.drop_eq_nil_iff, List.length_append, htake]
        constructor
        · intro hlen
          have hfail : o ≠ .fail := by
            rintro rfl
            simp only [SpliceOut.count] at hlen
            omega
          -- the second splice moves at most as many bytes as the first one
          have hsize := (ho hfail).2.2
          rw [List.take_of_length_le (by rw [List.length_append, htake]; exact hlen),
            cellsSize_append] at hsize
          have hpipe : s.half.pipe = [] := cellsSize_eq_zero (by omega)
          have hle := (ho hfail).2.1
          rw [List.length_append, htake, hpipe, List.length_nil] at hle
          rw [hpipe, List.length_nil] at hlen
          exact ⟨hpipe, by omega⟩
        · rintro ⟨hpipe, hw⟩
          rw [hpipe, hw, List.length_nil, Nat.zero_add]
      have hpipes : PipesEmpty { s with
          half := (s.half.spliceRaw s.stream n o).half
          stream := (s.half.spliceRaw s.stream n o).rest
          delivered := s.delivered ++ (s.half.spliceRaw s.stream n o).out } ↔
          PipesEmpty s ∧ WholeStep (.forward n o) := by
        simp only [PipesEmpty, WholeStep, hiff, and_assoc]
      split
      · rw [pipesEmpty_shutdownPeerConn]
        exact hpipes
      · exact hpipes
  | announcement =>
      obtain ⟨count, -, rfl⟩ := Option.map_eq_some_iff.1 hs
      rw [pipesEmpty_shutdownPeerConn]
      exact (and_iff_left trivial).symm
  | otherEnds =>
      simp only [RelayPath.step, Option.ite_none_right_eq_some, Option.some.injEq] at hs
      obtain ⟨-, rfl⟩ := hs
      refine Iff.trans ?_ (and_iff_left trivial).symm
      unfold PipesEmpty ProxyConnect.shutdownFromLocal
      split <;> exact Iff.rfl

/-- After a run the pipes are empty exactly when every step was whole. -/
theorem pipesEmpty_iff
    (he : (pathLts e sid fd recycled).exec (pathLts e sid fd recycled).init as = some s) :
    PipesEmpty s ↔ ∀ a ∈ as, WholeStep a := by
  rw [← Lts.allSteps_label_iff he]
  exact Lts.trace_iff (I := PipesEmpty) ⟨rfl, rfl⟩
    (fun _ _ _ _ hi _ hst => (pipesEmpty_step hst).trans (and_iff_right hi))
    (fun _ _ _ _ hst hi => ((pipesEmpty_step hst).1 hi).1) he (Lts.allSteps_true _ as)

end Run

/-- A session of three bytes, whose end is announced and handled before the last of them arrive. -/
def pathThree : List PathAct :=
  [.send [1, 2, 3], .relay (.moved [1, 2]) (.moved 2), .forward 1 (.moved 1), .finish,
    .relay (.moved [3]) (.moved 1), .relay (.moved []) .fail, .announcement, .forward 2 (.moved 2)]

end ProxySocket

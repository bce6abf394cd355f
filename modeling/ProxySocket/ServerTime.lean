/-
**When a client expires.**

A server keeps one `lasttime`, which only `checkTime` sets, and `checkTime` is only called in the rounds
of `Run` that find a client.  It adds the time since then to the `_deadtime` of every client, whenever
the client came, and a recycled client object comes with the `_deadtime` it had.

Main definitions:

* `TimeRun`, `timeLts` — a server with the clock, where clients are added, read from, written to,
  removed and checked;
* `TimeRun.base` — the moment a client was added, or its last `Resettime`;
* `TimeRun.start` — the moment from which its `_deadtime` counts;
* `RemovesLate` — `checkTime` removes nobody before the time is over;
* `OutsideWindow` — the clock reads no moment that is late for the start and early for the base.

Main results:

* `Timed.step` — `_deadtime` is the time from the start to the last check, in every run;
* `expire_late_iff` — **nobody is removed early exactly when no check falls in such a window**.
-/

import ProxySocket.Lts
import ProxySocket.ServerPass
import Mathlib.Logic.Function.Basic

set_option relaxedAutoImplicit false
set_option autoImplicit false

namespace ProxySocket

open Function (update)

/-! ### The server and the clock -/

/-- Where the loop of `Run` is. -/
inductive LoopPhase
  /-- at the beginning of a round -/
  | top
  /-- behind the test for clients -/
  | pass
  /-- a loop over the clients has stepped back from the first one -/
  | broken
deriving DecidableEq, Repr

/-- A server with the clock. -/
structure TimeRun where
  server : ThreadServer
  phase : LoopPhase := .top
  now : ℤ
  nextId : ℕ := 0
  /-- when a client was added, or its last `Resettime` -/
  base : ℕ → ℤ := fun _ => 0
  /-- the moment from which the `_deadtime` of a client counts -/
  start : ℕ → ℤ := fun _ => 0

/-- What happens, and when. -/
inductive TimeAction
  /-- `addClient`, with a client object in any state -/
  | addClient (c : ThreadClient) (t : ℤ)
  /-- a round begins, and goes on if there are clients -/
  | merge
  /-- `ReadData` comes to a client -/
  | readRound (fd : ℤ) (a : RecvAnswer) (t : ℤ)
  /-- `WiriteData` comes to a client -/
  | writeRound (fd : ℤ) (a : SendAnswer)
  | checkTime (curtime : ℤ)

/-- The application calls `Resettime` for one of the messages of a call of `RecvData`. -/
def resets (onNetMsg : MsgHandler) (e : Endian) (rounds : ℕ) (c : ThreadClient) (a : RecvAnswer) :
    Bool :=
  (ThreadServer.recvData onNetMsg e rounds c a).any fun r =>
    r.msgs.any fun m => (onNetMsg m).contains .resettime

/-- All clients of the map are checked. -/
def ThreadServer.checkAll (s : ThreadServer) (curtime : ℤ) :
    Option (List PassEvent × LoopEnd ThreadServer) :=
  s.checkTime curtime (s.clients.entries.length + 1)

/-- The `_deadtime` of the clients that get into `Clients` counts from where `lasttime` is. -/
def mergeStart (lasttime : ℤ) (start : ℕ → ℤ) (p : ThreadClientPtr) : ℕ → ℤ :=
  update start p.id (lasttime - p.client.deadtime)

/-- One step. -/
def TimeRun.step (onNetMsg : MsgHandler) (e : Endian) (rounds : ℕ) (s : TimeRun) :
    TimeAction → Option TimeRun
  | .addClient c t =>
      if s.now ≤ t then
        some { s with
          server := s.server.addClient ⟨s.nextId, c⟩
          now := t
          nextId := s.nextId + 1
          base := update s.base s.nextId t }
      else none
  | .merge =>
      if s.phase = .top then
        some { s with
          server := s.server.merge
          phase := if s.server.merge.clients.entries.isEmpty then .top else .pass
          start := s.server.clientsBuf.foldl (mergeStart s.server.lasttime) s.start }
      else none
  | .readRound fd a t =>
      if s.phase = .pass ∧ s.now ≤ t then
        (s.server.clients.get? fd).bind fun p =>
          (s.server.roundAt true (ThreadServer.readTest onNetMsg e rounds fun _ => a) fd).map
            fun r =>
              if resets onNetMsg e rounds p.client a then
                { s with
                  server := r.2
                  now := t
                  base := update s.base p.id t
                  start := update s.start p.id s.server.lasttime }
              else { s with server := r.2, now := t }
      else none
  | .writeRound fd a =>
      if s.phase = .pass then
        (s.server.roundAt false (fun fd c => some (ThreadServer.writeTest (fun _ => a) fd c)) fd).map
          fun r => { s with server := r.2 }
      else none
  | .checkTime curtime =>
      if s.phase = .pass ∧ s.now ≤ curtime then
        (s.server.checkAll curtime).map fun r =>
          match r.2 with
          | .finished server => { s with server := server, phase := .top, now := curtime }
          | _ => { s with phase := .broken, now := curtime }
      else none

/-- A new server, with any clock. -/
def timeLts (onNetMsg : MsgHandler) (e : Endian) (rounds : ℕ) (t₀ : ℤ) : Lts TimeRun TimeAction where
  init := { server := { lasttime := t₀ }, now := t₀ }
  step := TimeRun.step onNetMsg e rounds

/-- The clients that a call of `checkTime` removes. -/
def ThreadServer.expired (s : ThreadServer) (curtime : ℤ) : List ℕ :=
  (s.checkAll curtime).elim [] fun r => r.1.filterMap PassEvent.leftId?

/-- The clients that a call of `checkTime` comes to: all of them, or the first one if it is removed and
others are left. -/
def ThreadServer.checked (s : ThreadServer) (curtime : ℤ) : List (ℤ × ThreadClientPtr) :=
  if firstFails s.clients (fun _ => true) (checkFails (curtime - s.lasttime)) then
    s.clients.entries.take 1
  else s.clients.entries

/-- `checkTime` removes a client only when the time is over since it was added and since its last
`Resettime`. -/
def RemovesLate (s : TimeRun) : TimeAction → Prop
  | .checkTime curtime => ∀ id ∈ s.server.expired curtime, s.base id + expireTime ≤ curtime
  | _ => True

/-- The clock does not read a moment at which the time is over for a client that is checked, counted from
its start, and is not over, counted from its base. -/
def OutsideWindow (s : TimeRun) : TimeAction → Prop
  | .checkTime curtime => ∀ a ∈ s.server.checked curtime,
      ¬ (s.start a.2.id + expireTime ≤ curtime ∧ curtime < s.base a.2.id + expireTime)
  | _ => True

instance (s : TimeRun) : DecidablePred (OutsideWindow s)
  | .checkTime _ => inferInstanceAs (Decidable (∀ _ ∈ _, _))
  | .addClient _ _ | .merge | .readRound _ _ _ | .writeRound _ _ => .isTrue trivial

/-! ### The time that counts -/

/-- The clients are told apart by their numbers, and the `_deadtime` of those in the map is the time from
their start to `lasttime`. -/
structure Counted (lasttime : ℤ) (start : ℕ → ℤ) (m : Clients) (buf : List ThreadClientPtr) :
    Prop where
  inj : ∀ a ∈ m.entries, ∀ b ∈ m.entries, a.2.id = b.2.id → a.1 = b.1
  nodup : (buf.map ThreadClientPtr.id).Nodup
  disj : ∀ a ∈ m.entries, ∀ p ∈ buf, a.2.id ≠ p.id
  counts : ∀ a ∈ m.entries, a.2.client.deadtime = lasttime - start a.2.id

section Counted

variable {lasttime : ℤ} {start : ℕ → ℤ} {m : Clients} {buf : List ThreadClientPtr}
  {p : ThreadClientPtr}

/-- A client gets into the map. -/
theorem Counted.insert (h : Counted lasttime start m (p :: buf)) :
    Counted lasttime (mergeStart lasttime start p) (m.insert p.client.socket p) buf := by
  obtain ⟨hp, hbuf⟩ := List.nodup_cons.1 h.nodup
  -- the others in the map have other numbers
  have hother : ∀ a ∈ m.entries, a.2.id ≠ p.id := fun a ha => h.disj a ha p List.mem_cons_self
  refine ⟨?_, hbuf, ?_, ?_⟩
  · intro a ha b hb hab
    rcases OrderedMap.mem_insert.1 ha with rfl | ⟨ha, -⟩
    · rcases OrderedMap.mem_insert.1 hb with rfl | ⟨hb, -⟩
      · rfl
      · exact absurd hab.symm (hother b hb)
    · rcases OrderedMap.mem_insert.1 hb with rfl | ⟨hb, -⟩
      · exact absurd hab (hother a ha)
      · exact h.inj a ha b hb hab
  · intro a ha q hq
    rcases OrderedMap.mem_insert.1 ha with rfl | ⟨ha, -⟩
    · intro hid
      have hmem := List.mem_map_of_mem (f := ThreadClientPtr.id) hq
      rw [← hid] at hmem
      exact hp hmem
    · exact h.disj a ha q (List.mem_cons_of_mem _ hq)
  · intro a ha
    rcases OrderedMap.mem_insert.1 ha with rfl | ⟨ha, -⟩
    · simp only [mergeStart, Function.update_self]
      omega
    · rw [mergeStart, Function.update_of_ne (hother a ha)]
      exact h.counts a ha

/-- All clients get into the map. -/
theorem Counted.merge (h : Counted lasttime start m buf) :
    Counted lasttime (buf.foldl (mergeStart lasttime) start)
      (buf.foldl (fun m p => m.insert p.client.socket p) m) [] := by
  induction buf generalizing m start with
  | nil => exact h
  | cons p buf ih => exact ih h.insert

end Counted

/-- The invariant of the runs. -/
structure Timed (s : TimeRun) : Prop
    extends Counted s.server.lasttime s.start s.server.clients s.server.clientsBuf where
  fresh : ∀ a ∈ s.server.clients.entries, a.2.id < s.nextId
  freshBuf : ∀ p ∈ s.server.clientsBuf, p.id < s.nextId

section Steps

variable {onNetMsg : MsgHandler} {e : Endian} {rounds : ℕ} {s s' : TimeRun}

/-- A step that brings no client, and leaves or checks the ones that are there. -/
theorem Timed.of_sub (h : Timed s) (hbuf : s'.server.clientsBuf = s.server.clientsBuf)
    (hid : s'.nextId = s.nextId)
    (hsub : ∀ a' ∈ s'.server.clients.entries, ∃ a ∈ s.server.clients.entries,
      a'.1 = a.1 ∧ a'.2.id = a.2.id ∧
        a'.2.client.deadtime = s'.server.lasttime - s'.start a'.2.id) : Timed s' := by
  refine ⟨⟨?_, ?_, ?_, ?_⟩, ?_, ?_⟩
  · intro a' ha' b' hb' hab
    obtain ⟨a, ha, hka, hia, -⟩ := hsub a' ha'
    obtain ⟨b, hb, hkb, hib, -⟩ := hsub b' hb'
    rw [hka, hkb]
    exact h.inj a ha b hb (by rw [← hia, ← hib, hab])
  · rw [hbuf]
    exact h.nodup
  · intro a' ha' p hp
    obtain ⟨a, ha, -, hia, -⟩ := hsub a' ha'
    rw [hia]
    exact h.disj a ha p (hbuf ▸ hp)
  · intro a' ha'
    obtain ⟨-, -, -, -, hdead⟩ := hsub a' ha'
    exact hdead
  · intro a' ha'
    obtain ⟨a, ha, -, hia, -⟩ := hsub a' ha'
    rw [hia, hid]
    exact h.fresh a ha
  · rw [hbuf, hid]
    exact h.freshBuf

theorem Timed.addClient {c : ThreadClient} {t : ℤ} (h : Timed s)
    (hs : s.step onNetMsg e rounds (.addClient c t) = some s') : Timed s' := by
  obtain ⟨-, hs⟩ := Option.ite_none_right_eq_some.1 hs
  obtain rfl := Option.some.inj hs
  refine ⟨⟨h.inj, ?_, ?_, h.counts⟩, ?_, ?_⟩
  · simp only [ThreadServer.addClient, List.map_append, List.map_cons, List.map_nil]
    rw [List.nodup_append]
    refine ⟨h.nodup, List.nodup_singleton _, ?_⟩
    intro i hi j hj
    obtain ⟨p, hp, rfl⟩ := List.mem_map.1 hi
    rw [List.mem_singleton.1 hj]
    exact Nat.ne_of_lt (h.freshBuf p hp)
  · intro a ha p hp
    rcases List.mem_append.1 hp with hp | hp
    · exact h.disj a ha p hp
    · rw [List.mem_singleton.1 hp]
      exact Nat.ne_of_lt (h.fresh a ha)
  · exact fun a ha => Nat.lt_succ_of_lt (h.fresh a ha)
  · intro p hp
    rcases List.mem_append.1 hp with hp | hp
    · exact Nat.lt_succ_of_lt (h.freshBuf p hp)
    · rw [List.mem_singleton.1 hp]
      exact Nat.lt_succ_self _

theorem Timed.merge (h : Timed s) (hs : s.step onNetMsg e rounds .merge = some s') : Timed s' := by
  obtain ⟨-, hs⟩ := Option.ite_none_right_eq_some.1 hs
  obtain rfl := Option.some.inj hs
  refine ⟨?_, ?_, ?_⟩
  · dsimp only
    rw [s.server.merge_clients, s.server.merge_clientsBuf, s.server.merge_lasttime]
    exact h.toCounted.merge
  · dsimp only
    rw [s.server.merge_clients]
    intro a ha
    rcases OrderedMap.mem_foldl_insert ha with ha | ha
    · exact h.fresh a ha
    · exact h.freshBuf _ ha
  · dsimp only
    rw [s.server.merge_clientsBuf]
    exact fun p hp => absurd hp List.not_mem_nil

/-- The body of a loop, for one client: what becomes of the entries. -/
theorem ThreadServer.roundAt_cases {srv : ThreadServer} {closes : Bool}
    {test : ℤ → ThreadClient → Option (Bool × ThreadClient)} {fd : ℤ}
    {r : List PassEvent × ThreadServer} (h : srv.roundAt closes test fd = some r) :
    ∃ p v, srv.clients.get? fd = some p ∧ test fd p.client = some v ∧
      r.2.clientsBuf = srv.clientsBuf ∧ r.2.lasttime = srv.lasttime ∧
      ∀ a ∈ r.2.clients.entries, a ∈ srv.clients.entries ∧ a.1 ≠ fd ∨
        v.1 = false ∧ a = (fd, { p with client := v.2 }) := by
  obtain ⟨p, v, hp, hv, rfl⟩ := roundAt_eq_some h
  refine ⟨p, v, hp, hv, rfl, rfl, fun a ha => ?_⟩
  cases hfail : v.1 with
  | true =>
      simp only [hfail, if_true] at ha
      exact .inl (OrderedMap.mem_erase.1 ha)
  | false =>
      simp only [hfail, Bool.false_eq_true, if_false] at ha
      obtain ⟨b, hb, rfl⟩ := OrderedMap.mem_modify.1 ha
      by_cases hk : b.1 = fd
      · rw [if_pos hk, hk]
        exact .inr ⟨rfl, rfl⟩
      · rw [if_neg hk]
        exact .inl ⟨hb, hk⟩

end Steps

/-! ### `Resettime` -/

section Resets

variable {h : MsgHandler} {e : Endian} {c : ThreadClient}

theorem deadtime_foldl_call (as : List ClientCall) (c : ThreadClient) :
    (as.foldl ThreadClient.call c).deadtime =
      if as.contains .resettime then 0 else c.deadtime := by
  induction as generalizing c with
  | nil => rfl
  | cons a as ih =>
      rw [List.foldl_cons, ih]
      cases a with
      | resettime => simp [ThreadClient.call]
      | sendData header => simp [ThreadClient.call]

theorem deadtime_popFront (c : ThreadClient) (e : Endian) : (c.popFront e).deadtime = c.deadtime := by
  unfold ThreadClient.popFront
  split <;> rfl

/-- The loop of `RecvData` leaves `_deadtime` alone, or sets it to zero for a message. -/
theorem deadtime_drain {n : ℕ} {d : List (List UInt8) × ThreadClient}
    (hd : ThreadClient.drain h e n c = some d) :
    d.2.deadtime = if d.1.any fun m => (h m).contains .resettime then 0 else c.deadtime := by
  induction n generalizing c d with
  | zero => exact absurd hd (Option.some_ne_none d).symm
  | succ n ih =>
      cases hne : c.recvBuf.empty e with
      | true =>
          rw [ThreadClient.drain_of_empty h hne] at hd
          rw [← Option.some.inj hd]
          rfl
      | false =>
          by_cases hlen : c.recvBuf.headerLen e < 0
          · rw [ThreadClient.drain, if_neg (by rw [hne]; decide), if_pos hlen] at hd
            exact absurd hd (Option.some_ne_none d).symm
          · rw [ThreadClient.drain_of_not_empty h hne (Int.not_lt.1 hlen)] at hd
            obtain ⟨d', hd', rfl⟩ := Option.map_eq_some_iff.1 hd
            rw [ih hd', deadtime_popFront, deadtime_foldl_call, List.any_cons]
            cases (h (c.front e)).contains .resettime <;> simp

/-- A call of `RecvData` sets `_deadtime` to zero exactly when a message makes the application call
`Resettime`. -/
theorem deadtime_recvData {n : ℕ} {a : RecvAnswer} {r : Received}
    (hr : ThreadServer.recvData h e n c a = some r) :
    r.client.deadtime = if resets h e n c a then 0 else c.deadtime := by
  rw [resets, hr, Option.any_some]
  by_cases ha : (c.recvBuf.read4socket a).1 ≤ 0
  · rw [ThreadServer.recvData, ThreadClient.receive_of_nonpos ha] at hr
    rw [← Option.some.inj hr]
    rfl
  · rw [ThreadServer.recvData, ThreadClient.receive_of_pos ha] at hr
    obtain ⟨d, hd, rfl⟩ := Option.map_eq_some_iff.1 hr
    have hdead := deadtime_drain hd
    exact hdead

end Resets

/-! ### Every step -/

section Run

variable {onNetMsg : MsgHandler} {e : Endian} {rounds : ℕ} {s s' : TimeRun}

theorem Timed.readRound {fd : ℤ} {a : RecvAnswer} {t : ℤ} (h : Timed s)
    (hs : s.step onNetMsg e rounds (.readRound fd a t) = some s') : Timed s' := by
  obtain ⟨-, hs⟩ := Option.ite_none_right_eq_some.1 hs
  obtain ⟨p, hp, hs⟩ := Option.bind_eq_some_iff.1 hs
  obtain ⟨r, hr, hs⟩ := Option.map_eq_some_iff.1 hs
  obtain ⟨p', v, hp', hv, hbuf, hlast, hentries⟩ := ThreadServer.roundAt_cases hr
  obtain rfl : p = p' := Option.some.inj (hp.symm.trans hp')
  obtain ⟨d, hd, rfl⟩ := Option.map_eq_some_iff.1 hv
  have hmem := OrderedMap.mem_of_get? hp
  have hdead := deadtime_recvData hd
  -- the other clients have other numbers
  have hother : ∀ b ∈ s.server.clients.entries, b.1 ≠ fd → b.2.id ≠ p.id :=
    fun b hb hne hid => hne (h.inj b hb (fd, p) hmem hid)
  cases hreset : resets onNetMsg e rounds p.client a with
  | true =>
      rw [hreset, if_pos rfl] at hs hdead
      obtain rfl := hs
      refine h.of_sub hbuf rfl fun b hb => ?_
      rcases hentries b hb with ⟨hb, hne⟩ | ⟨-, rfl⟩
      · refine ⟨b, hb, rfl, rfl, ?_⟩
        dsimp only
        rw [hlast, Function.update_of_ne (hother b hb hne)]
        exact h.counts b hb
      · refine ⟨(fd, p), hmem, rfl, rfl, ?_⟩
        simp only [hlast, hdead, Function.update_self]
        omega
  | false =>
      rw [hreset, if_neg Bool.false_ne_true] at hs hdead
      obtain rfl := hs
      refine h.of_sub hbuf rfl fun b hb => ?_
      rcases hentries b hb with ⟨hb, -⟩ | ⟨-, rfl⟩
      · refine ⟨b, hb, rfl, rfl, ?_⟩
        dsimp only
        rw [hlast]
        exact h.counts b hb
      · refine ⟨(fd, p), hmem, rfl, rfl, ?_⟩
        simp only [hlast, hdead]
        exact h.counts _ hmem

theorem Timed.writeRound {fd : ℤ} {a : SendAnswer} (h : Timed s)
    (hs : s.step onNetMsg e rounds (.writeRound fd a) = some s') : Timed s' := by
  obtain ⟨-, hs⟩ := Option.ite_none_right_eq_some.1 hs
  obtain ⟨r, hr, rfl⟩ := Option.map_eq_some_iff.1 hs
  obtain ⟨p, v, hp, hv, hbuf, hlast, hentries⟩ := ThreadServer.roundAt_cases hr
  have hmem := OrderedMap.mem_of_get? hp
  refine h.of_sub hbuf rfl fun b hb => ?_
  rcases hentries b hb with ⟨hb, -⟩ | ⟨-, rfl⟩
  · refine ⟨b, hb, rfl, rfl, ?_⟩
    dsimp only
    rw [hlast]
    exact h.counts b hb
  · refine ⟨(fd, p), hmem, rfl, rfl, ?_⟩
    rw [← Option.some.inj hv]
    dsimp only
    rw [hlast]
    exact h.counts _ hmem

/-- **A call of `checkTime`**: whom it removes, and what it leaves when it comes to its end. -/
theorem ThreadServer.checkAll_eq (srv : ThreadServer) (t : ℤ) :
    srv.expired t = ((srv.checked t).filter fun a =>
        checkFails (t - srv.lasttime) a.1 a.2.client).map (fun a => a.2.id) ∧
      ∃ es, srv.checkAll t = some (es,
        if firstFails srv.clients (fun _ => true) (checkFails (t - srv.lasttime)) then .beforeBegin
        else .finished
          { srv with
            lasttime := t
            clients := srv.clients.filterMap (OrderedMap.kept (visitClient (fun _ => true) true
              fun fd c => some (expireTest (t - srv.lasttime) fd c)))
            clientchange := srv.clientchange || es.any fun ev => ev.erasedFd?.isSome }) := by
  have hf : ∀ a ∈ srv.clients.entries, ∀ r,
      some (expireTest (t - srv.lasttime) a.1 a.2.client) = some r →
        r.1 = checkFails (t - srv.lasttime) a.1 a.2.client := by
    intro a _ r hr
    rw [← Option.some.inj hr]
    rfl
  have hpass := pass_eq (s := { srv with lasttime := t }) (fun _ => true) true
    (checkFails (t - srv.lasttime))
    (fun fd c => some (expireTest (t - srv.lasttime) fd c)) (fun _ _ _ => rfl) hf
    (Nat.lt_succ_self srv.clients.entries.length)
  have hcheck : srv.checkAll t = _ := hpass
  refine ⟨?_, _, hcheck⟩
  rw [expired, hcheck]
  dsimp only [Option.elim_some]
  rw [reached_eq (fun _ _ _ => rfl) hf]
  refine filterMap_flatMap_eq fun a ha => ?_
  have ha' : a ∈ srv.clients.entries := by
    split at ha
    · exact List.mem_of_mem_take ha
    · exact ha
  rw [eventsAt_visitClient (fun _ => true) true (checkFails (t - srv.lasttime))
    (fun fd c => some (expireTest (t - srv.lasttime) fd c)) (fun _ => rfl) (hf a ha')]
  cases checkFails (t - srv.lasttime) a.1 a.2.client <;> rfl

theorem Timed.checkTime {t : ℤ} (h : Timed s)
    (hs : s.step onNetMsg e rounds (.checkTime t) = some s') : Timed s' := by
  obtain ⟨-, hs⟩ := Option.ite_none_right_eq_some.1 hs
  obtain ⟨r, hr, rfl⟩ := Option.map_eq_some_iff.1 hs
  obtain ⟨-, es, hes⟩ := s.server.checkAll_eq t
  rw [hes] at hr
  obtain rfl := Option.some.inj hr
  cases firstFails s.server.clients (fun _ => true) (checkFails (t - s.server.lasttime)) with
  | true => exact ⟨h.toCounted, h.fresh, h.freshBuf⟩
  | false =>
      refine h.of_sub rfl rfl fun a' ha' => ?_
      obtain ⟨a, ha, hkept⟩ := List.mem_filterMap.1 ha'
      obtain ⟨p, hp, rfl⟩ := Option.map_eq_some_iff.1 hkept
      refine ⟨a, ha, rfl, ?_⟩
      have hcounts := h.counts a ha
      -- a client that stays is charged with the time since the last check
      rw [OrderedMap.kept, keptAt_eq (by rw [ThreadServer.visitClient, if_pos rfl]; rfl)] at hp
      obtain ⟨-, hp⟩ := Option.ite_none_left_eq_some.1 hp
      rw [← Option.some.inj hp]
      refine ⟨rfl, ?_⟩
      change a.2.client.deadtime + (t - s.server.lasttime) = t - s.start a.2.id
      omega

/-- **Every step** keeps the `_deadtime` of every client the time from its start to the last check. -/
theorem Timed.step {a : TimeAction} (h : Timed s) (hs : s.step onNetMsg e rounds a = some s') :
    Timed s' := by
  cases a with
  | addClient c t => exact h.addClient hs
  | merge => exact h.merge hs
  | readRound fd a t => exact h.readRound hs
  | writeRound fd a => exact h.writeRound hs
  | checkTime t => exact h.checkTime hs

theorem timed_init (onNetMsg : MsgHandler) (e : Endian) (rounds : ℕ) (t₀ : ℤ) :
    Timed (timeLts onNetMsg e rounds t₀).init where
  inj := fun _ ha => absurd ha List.not_mem_nil
  nodup := List.nodup_nil
  disj := fun _ ha => absurd ha List.not_mem_nil
  counts := fun _ ha => absurd ha List.not_mem_nil
  fresh := fun _ ha => absurd ha List.not_mem_nil
  freshBuf := fun _ ha => absurd ha List.not_mem_nil

/-- A check removes nobody early exactly when it falls in no window. -/
theorem removesLate_iff (h : Timed s) (a : TimeAction) : RemovesLate s a ↔ OutsideWindow s a := by
  cases a with
  | checkTime t =>
      simp only [RemovesLate, OutsideWindow, (s.server.checkAll_eq t).1, List.mem_map,
        List.mem_filter]
      have hcounts : ∀ a ∈ s.server.checked t, a.2.client.deadtime =
          s.server.lasttime - s.start a.2.id := by
        intro a ha
        rw [ThreadServer.checked] at ha
        split at ha
        · exact h.counts a (List.mem_of_mem_take ha)
        · exact h.counts a ha
      constructor
      · intro hlate a ha hwindow
        have hdead := hcounts a ha
        have hbase := hlate a.2.id ⟨a, ⟨ha, by
          simp only [checkFails, ThreadClient.checkexpire, decide_eq_true_eq]
          omega⟩, rfl⟩
        omega
      · rintro hwindow id ⟨a, ⟨ha, hfail⟩, rfl⟩
        have hdead := hcounts a ha
        have hno := hwindow a ha
        simp only [checkFails, ThreadClient.checkexpire, decide_eq_true_eq] at hfail
        omega
  | _ => exact Iff.rfl

end Run

/-- **When nobody is removed early.**  In every run of a server, with any clock readings that do not
decrease, `checkTime` removes clients only when the time is over exactly when it is never called in the
window of a client that it comes to: when 50000 ms have passed since the moment its `_deadtime` counts
from, and have not passed since it was added and since its last `Resettime`. -/
theorem expire_late_iff (onNetMsg : MsgHandler) (e : Endian) (rounds : ℕ) (t₀ : ℤ)
    {as : List TimeAction} {s : TimeRun}
    (he : (timeLts onNetMsg e rounds t₀).exec (timeLts onNetMsg e rounds t₀).init as = some s) :
    (timeLts onNetMsg e rounds t₀).AllSteps RemovesLate (timeLts onNetMsg e rounds t₀).init as ↔
      (timeLts onNetMsg e rounds t₀).AllSteps OutsideWindow
        (timeLts onNetMsg e rounds t₀).init as := by
  refine Lts.allSteps_iff (g := fun _ _ => True) (fun s a s' hr _ _ => ?_) he (Lts.allSteps_true _ _)
  have htimed : Timed s := hr.invariant (timed_init onNetMsg e rounds t₀)
    fun _ _ _ _ hI _ hs => hI.step hs
  exact removesLate_iff htimed a

/-- A client that is heard of once, and then no more for a minute. -/
def heardOnce : List TimeAction :=
  [.addClient { ThreadClient.new (fun _ => 0) with socket := 4 } 10, .merge, .checkTime 20, .merge,
    .readRound 4 (.bytes [4, 0, 0, 0]) 30, .checkTime 40, .merge, .checkTime 60050]

theorem expire_late_heard_once :
    (timeLts (fun _ => [.resettime]) .little 2 0).AllSteps RemovesLate
      (timeLts (fun _ => [.resettime]) .little 2 0).init heardOnce :=
  (@expire_late_iff (fun _ => [.resettime]) .little 2 0 heardOnce _
    (Option.some_get (by decide +kernel)).symm).2 (by decide +kernel)

/-- A client that comes after the server was without clients for a minute is removed at once. -/
theorem expire_not_late :
    ¬ ∀ (onNetMsg : MsgHandler) (e : Endian) (rounds : ℕ) (t₀ : ℤ) (as : List TimeAction)
      (s : TimeRun),
      (timeLts onNetMsg e rounds t₀).exec (timeLts onNetMsg e rounds t₀).init as = some s →
        (timeLts onNetMsg e rounds t₀).AllSteps RemovesLate
          (timeLts onNetMsg e rounds t₀).init as := by
  intro h
  have hall := h (fun _ => []) .little 1 0
    ([.addClient { ThreadClient.new (fun _ => 0) with socket := 4 } 60000, .merge] ++
      [.checkTime 60001]) _ (Option.some_get (by decide +kernel)).symm
  have hlate := hall.after (Option.some_get (by decide +kernel)).symm 0 (by decide +kernel)
  exact absurd hlate (by decide +kernel)

end ProxySocket

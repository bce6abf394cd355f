/-
**Which clients have their socket closed.**

Neither a `ThreadClient` nor the map closes a descriptor, so every place that removes a client has to do
it.  `ReadData` and `checkTime` do, `WiriteData` and `ClearAllCLient` do not.  The kernel gives a
descriptor to a new connection only when it is not in use, and a `close` takes away the connection that
has the number at that time.

Main definitions:

* `CloseRun`, `closeLts` — a server with the descriptors of the kernel;
* `ClosedOnce` — the clients that were removed have had their socket closed once, the others never;
* `ClosesAll` — a step removes no client without closing its socket.

Main results:

* `Tracked.step` — the clients that are there have their own descriptor, in every run;
* `closed_once_iff` — **every socket is closed once exactly when no client fails in `WiriteData` and none
  is left at the end**.
-/

import ProxySocket.Lts
import ProxySocket.ServerPass
import Mathlib.Logic.Function.Basic

set_option relaxedAutoImplicit false
set_option autoImplicit false

namespace ProxySocket

open Function (update)

/-! ### The server and the kernel -/

/-- How far the thread and `Close` are. -/
inductive ServerPhase
  | running
  /-- `ClearAllCLient` was called -/
  | cleared
  /-- `Close` has returned -/
  | ended
deriving DecidableEq, Repr

/-- A server with the descriptors of its clients. -/
structure CloseRun where
  server : ThreadServer
  phase : ServerPhase := .running
  nextId : ℕ := 0
  /-- the client whose connection has this descriptor -/
  opened : ℤ → Option ℕ := fun _ => none
  /-- how often the connection of a client was closed -/
  closes : ℕ → ℕ := fun _ => 0

/-- What happens. -/
inductive CloseAction
  /-- `addClient`, with the descriptor of a new connection -/
  | addClient (c : ThreadClient)
  /-- a round of `Run` begins -/
  | merge
  /-- `ReadData` comes to a client -/
  | readRound (fd : ℤ) (a : RecvAnswer)
  /-- `WiriteData` comes to a client -/
  | writeRound (fd : ℤ) (a : SendAnswer)
  /-- `checkTime` comes to a client -/
  | checkRound (fd : ℤ) (passby : ℤ)
  /-- the thread leaves the loop of `Run` -/
  | clearAllClient
  /-- `Close` returns, which it does without waiting when the thread has left the loop by itself -/
  | closed

/-- `ClearAllCLient`. -/
def ThreadServer.clearAllClient (s : ThreadServer) : ThreadServer :=
  { s with clients := .empty, clientsBuf := [] }

/-- `close(2)`: the connection that has the descriptor is gone. -/
def CloseRun.close (s : CloseRun) (fd : ℤ) : CloseRun :=
  match s.opened fd with
  | none => s
  | some id =>
      { s with
        opened := update s.opened fd none
        closes := update s.closes id (s.closes id + 1) }

/-- What an event of a loop does to the descriptors. -/
def CloseRun.observe (s : CloseRun) : PassEvent → CloseRun
  | .close fd => s.close fd
  | _ => s

/-- The body of a loop, for one client. -/
def CloseRun.round (s : CloseRun) (closes : Bool)
    (test : ℤ → ThreadClient → Option (Bool × ThreadClient)) (fd : ℤ) : Option CloseRun :=
  if s.phase = .running then
    (s.server.roundAt closes test fd).map fun r =>
      { r.1.foldl CloseRun.observe s with server := r.2 }
  else none

/-- One step. -/
def CloseRun.step (onNetMsg : MsgHandler) (e : Endian) (rounds : ℕ) (s : CloseRun) :
    CloseAction → Option CloseRun
  | .addClient c =>
      if s.phase ≠ .ended ∧ s.opened c.socket = none then
        some { s with
          server := s.server.addClient ⟨s.nextId, c⟩
          nextId := s.nextId + 1
          opened := update s.opened c.socket (some s.nextId) }
      else none
  | .merge => if s.phase = .running then some { s with server := s.server.merge } else none
  | .readRound fd a => s.round true (ThreadServer.readTest onNetMsg e rounds fun _ => a) fd
  | .writeRound fd a =>
      s.round false (fun fd c => some (ThreadServer.writeTest (fun _ => a) fd c)) fd
  | .checkRound fd passby => s.round true (fun fd c => some (ThreadServer.expireTest passby fd c)) fd
  | .clearAllClient =>
      if s.phase = .running then
        some { s with server := s.server.clearAllClient, phase := .cleared }
      else none
  | .closed => if s.phase ≠ .ended then some { s with phase := .ended } else none

/-- A new server. -/
def closeLts (onNetMsg : MsgHandler) (e : Endian) (rounds : ℕ) : Lts CloseRun CloseAction where
  init := { server := { lasttime := 0 } }
  step := CloseRun.step onNetMsg e rounds

/-- The client is in `Clients` or in `ClientsBuf`. -/
def ThreadServer.Present (s : ThreadServer) (id : ℕ) : Prop :=
  (∃ a ∈ s.clients.entries, a.2.id = id) ∨ ∃ p ∈ s.clientsBuf, p.id = id

/-- The socket of a client is closed once, when the client is removed; and all have been removed when
`Close` returns. -/
structure ClosedOnce (s : CloseRun) : Prop where
  removed : ∀ id < s.nextId, ¬ s.server.Present id → s.closes id = 1
  present : ∀ id, s.server.Present id → s.closes id = 0
  ended : s.phase = .ended → ∀ id, ¬ s.server.Present id

/-- The step removes no client without closing its socket: `SendDataReal` does not return `-1`, and
there are no clients any more when the thread leaves the loop and when `Close` returns. -/
def ClosesAll (s : CloseRun) : CloseAction → Prop
  | .writeRound fd a => ∀ p, s.server.clients.get? fd = some p → writeFails (fun _ => a) fd p.client = false
  | .clearAllClient | .closed => s.server.clients.entries = [] ∧ s.server.clientsBuf = []
  | _ => True

instance (s : CloseRun) : DecidablePred (ClosesAll s)
  | .writeRound _ _ => inferInstanceAs (Decidable (∀ _, _ = some _ → _))
  | .clearAllClient | .closed => inferInstanceAs (Decidable (_ = [] ∧ _ = []))
  | .addClient _ | .merge | .readRound _ _ | .checkRound _ _ => .isTrue trivial

/-! ### The descriptors of the clients -/

/-- The clients in the two lists have their own descriptor, and are told apart by their numbers. -/
structure Own (opened : ℤ → Option ℕ) (m : Clients) (buf : List ThreadClientPtr) : Prop where
  client : ∀ a ∈ m.entries, opened a.1 = some a.2.id
  waiting : ∀ p ∈ buf, opened p.client.socket = some p.id
  disj : ∀ a ∈ m.entries, ∀ p ∈ buf, a.2.id ≠ p.id
  nodup : (buf.map ThreadClientPtr.id).Nodup

section Own

variable {opened : ℤ → Option ℕ} {m : Clients} {buf : List ThreadClientPtr} {p : ThreadClientPtr}

/-- A client that waits does not have the descriptor of one in the map. -/
theorem Own.key_ne (h : Own opened m (p :: buf)) {a : ℤ × ThreadClientPtr} (ha : a ∈ m.entries) :
    a.1 ≠ p.client.socket := by
  intro hk
  have hopen := h.client a ha
  rw [hk, h.waiting p List.mem_cons_self] at hopen
  exact h.disj a ha p List.mem_cons_self (Option.some.inj hopen).symm

/-- A client gets into the map. -/
theorem Own.insert (h : Own opened m (p :: buf)) :
    Own opened (m.insert p.client.socket p) buf := by
  obtain ⟨hp, hbuf⟩ := List.nodup_cons.1 h.nodup
  refine ⟨?_, fun q hq => h.waiting q (List.mem_cons_of_mem _ hq), ?_, hbuf⟩
  · intro a ha
    rcases OrderedMap.mem_insert.1 ha with rfl | ⟨ha, -⟩
    · exact h.waiting p List.mem_cons_self
    · exact h.client a ha
  · intro a ha q hq
    rcases OrderedMap.mem_insert.1 ha with rfl | ⟨ha, -⟩
    · intro hid
      have hmem := List.mem_map_of_mem (f := ThreadClientPtr.id) hq
      rw [← hid] at hmem
      exact hp hmem
    · exact h.disj a ha q (List.mem_cons_of_mem _ hq)

/-- All clients get into the map, and none is lost. -/
theorem Own.merge (h : Own opened m buf) :
    Own opened (buf.foldl (fun m p => m.insert p.client.socket p) m) [] ∧
      ∀ id, (∃ a ∈ (buf.foldl (fun m p => m.insert p.client.socket p) m).entries, a.2.id = id) ↔
        (∃ a ∈ m.entries, a.2.id = id) ∨ ∃ p ∈ buf, p.id = id := by
  induction buf generalizing m with
  | nil => exact ⟨h, fun id => by simp⟩
  | cons p buf ih =>
      obtain ⟨hown, hids⟩ := ih h.insert
      refine ⟨hown, fun id => ?_⟩
      rw [List.foldl_cons, hids]
      constructor
      · rintro (⟨a, ha, rfl⟩ | ⟨q, hq, rfl⟩)
        · rcases OrderedMap.mem_insert.1 ha with rfl | ⟨ha, -⟩
          · exact .inr ⟨p, List.mem_cons_self, rfl⟩
          · exact .inl ⟨a, ha, rfl⟩
        · exact .inr ⟨q, List.mem_cons_of_mem _ hq, rfl⟩
      · rintro (⟨a, ha, rfl⟩ | ⟨q, hq, rfl⟩)
        · exact .inl ⟨a, OrderedMap.mem_insert.2 (.inr ⟨ha, h.key_ne ha⟩), rfl⟩
        · rcases List.mem_cons.1 hq with rfl | hq
          · exact .inl ⟨_, OrderedMap.mem_insert.2 (.inl rfl), rfl⟩
          · exact .inr ⟨q, hq, rfl⟩

/-- Clients that are left, or only changed, still have their descriptor. -/
theorem Own.of_sub {m' : Clients} {buf' : List ThreadClientPtr} (h : Own opened m buf)
    (hm : ∀ a' ∈ m'.entries, ∃ a ∈ m.entries, a'.1 = a.1 ∧ a'.2.id = a.2.id)
    (hbuf : buf'.Sublist buf) : Own opened m' buf' := by
  refine ⟨?_, fun p hp => h.waiting p (hbuf.subset hp), ?_, h.nodup.sublist (hbuf.map _)⟩
  · intro a' ha'
    obtain ⟨a, ha, hk, hid⟩ := hm a' ha'
    rw [hk, hid]
    exact h.client a ha
  · intro a' ha' p hp
    obtain ⟨a, ha, -, hid⟩ := hm a' ha'
    rw [hid]
    exact h.disj a ha p (hbuf.subset hp)

end Own

/-- The invariant of the runs: a connection was closed once if it has no descriptor any more, and
never before that. -/
structure Tracked (s : CloseRun) : Prop
    extends Own s.opened s.server.clients s.server.clientsBuf where
  inj : ∀ fd fd' id, s.opened fd = some id → s.opened fd' = some id → fd = fd'
  old : ∀ fd id, s.opened fd = some id → id < s.nextId
  never : ∀ fd id, s.opened fd = some id → s.closes id = 0
  once : ∀ id < s.nextId, (∀ fd, s.opened fd ≠ some id) → s.closes id = 1
  fresh : ∀ id, s.nextId ≤ id → s.closes id = 0

variable {s s' : CloseRun}

/-- A client that is there has a descriptor. -/
theorem Tracked.opened_of_present (h : Tracked s) {id : ℕ} (hp : s.server.Present id) :
    ∃ fd, s.opened fd = some id := by
  rcases hp with ⟨a, ha, rfl⟩ | ⟨p, hp, rfl⟩
  · exact ⟨a.1, h.client a ha⟩
  · exact ⟨_, h.waiting p hp⟩

/-- No socket of a client that is there is closed.  What can go wrong is that the connection of a removed
client stays open. -/
theorem Tracked.closedOnce_iff (h : Tracked s) : ClosedOnce s ↔
    (∀ fd id, s.opened fd = some id → s.server.Present id) ∧
      (s.phase = .ended → ∀ id, ¬ s.server.Present id) := by
  constructor
  · intro hc
    refine ⟨fun fd id hopen => ?_, hc.ended⟩
    by_contra hp
    have h0 := h.never fd id hopen
    have h1 := hc.removed id (h.old fd id hopen) hp
    omega
  · rintro ⟨hopen, hend⟩
    refine ⟨fun id hid hp => h.once id hid fun fd hfd => hp (hopen fd id hfd), fun id hp => ?_, hend⟩
    obtain ⟨fd, hfd⟩ := h.opened_of_present hp
    exact h.never fd id hfd

/-! ### The steps -/

section Steps

/-- A descriptor that was not in use is open for the new client alone. -/
theorem update_opened_iff {opened : ℤ → Option ℕ} {fd : ℤ} {id : ℕ} (hfree : opened fd = none)
    (fd' : ℤ) (id' : ℕ) : update opened fd (some id) fd' = some id' ↔
      fd' = fd ∧ id' = id ∨ opened fd' = some id' := by
  by_cases hk : fd' = fd
  · rw [hk, Function.update_self, hfree]
    simp [eq_comm]
  · rw [Function.update_of_ne hk]
    simp [hk]

/-- A new client gets a descriptor that is not in use. -/
theorem Tracked.addClient (h : Tracked s) {c : ThreadClient} (hfree : s.opened c.socket = none)
    (hs' : s' = { s with
      server := s.server.addClient ⟨s.nextId, c⟩
      nextId := s.nextId + 1
      opened := update s.opened c.socket (some s.nextId) }) : Tracked s' := by
  subst hs'
  have hiff := @update_opened_iff _ _ s.nextId hfree
  have hupd : ∀ fd id, s.opened fd = some id →
      update s.opened c.socket (some s.nextId) fd = some id :=
    fun fd id hfd => (hiff fd id).2 (.inr hfd)
  refine ⟨⟨?_, ?_, ?_, ?_⟩, ?_, ?_, ?_, ?_, ?_⟩
  · exact fun a ha => hupd _ _ (h.client a ha)
  · intro p hp
    rcases List.mem_append.1 hp with hp | hp
    · exact hupd _ _ (h.waiting p hp)
    · rw [List.mem_singleton.1 hp]
      exact Function.update_self ..
  · intro a ha p hp
    rcases List.mem_append.1 hp with hp | hp
    · exact h.disj a ha p hp
    · rw [List.mem_singleton.1 hp]
      exact Nat.ne_of_lt (h.old _ _ (h.client a ha))
  · simp only [ThreadServer.addClient, List.map_append, List.map_cons, List.map_nil]
    rw [List.nodup_append]
    refine ⟨h.nodup, List.nodup_singleton _, ?_⟩
    intro i hi j hj
    obtain ⟨p, hp, rfl⟩ := List.mem_map.1 hi
    rw [List.mem_singleton.1 hj]
    exact Nat.ne_of_lt (h.old _ _ (h.waiting p hp))
  · intro fd fd' id hfd hfd'
    rcases (hiff fd id).1 hfd with ⟨rfl, rfl⟩ | hfd
    · rcases (hiff fd' _).1 hfd' with ⟨rfl, -⟩ | hfd'
      · rfl
      · exact absurd (h.old _ _ hfd') (Nat.lt_irrefl _)
    · rcases (hiff fd' id).1 hfd' with ⟨rfl, rfl⟩ | hfd'
      · exact absurd (h.old _ _ hfd) (Nat.lt_irrefl _)
      · exact h.inj fd fd' id hfd hfd'
  · intro fd id hfd
    rcases (hiff fd id).1 hfd with ⟨-, rfl⟩ | hfd
    · exact Nat.lt_succ_self _
    · exact Nat.lt_succ_of_lt (h.old fd id hfd)
  · intro fd id hfd
    rcases (hiff fd id).1 hfd with ⟨-, rfl⟩ | hfd
    · exact h.fresh _ (Nat.le_refl _)
    · exact h.never fd id hfd
  · intro id hid hno
    rcases Nat.lt_succ_iff_lt_or_eq.1 hid with hid | rfl
    · exact h.once id hid fun fd hfd => hno fd (hupd fd id hfd)
    · exact absurd (Function.update_self ..) (hno c.socket)
  · exact fun id hid => h.fresh id (Nat.le_of_succ_le hid)

/-- What `close` does to a descriptor that is open. -/
theorem CloseRun.close_of_opened {fd : ℤ} {id : ℕ} (hopen : s.opened fd = some id) :
    s.close fd = { s with
      opened := update s.opened fd none
      closes := update s.closes id (s.closes id + 1) } := by
  rw [CloseRun.close, hopen]

/-- The connection that is closed is open nowhere else. -/
theorem Tracked.opened_close_iff (h : Tracked s) {fd : ℤ} {id : ℕ} (hopen : s.opened fd = some id)
    (fd' : ℤ) (id' : ℕ) :
    (s.close fd).opened fd' = some id' ↔ s.opened fd' = some id' ∧ id' ≠ id := by
  rw [CloseRun.close_of_opened hopen]
  dsimp only
  by_cases hk : fd' = fd
  · rw [hk, Function.update_self, hopen]
    constructor
    · exact fun hno => nomatch hno
    · rintro ⟨hid, hne⟩
      exact absurd (Option.some.inj hid).symm hne
  · rw [Function.update_of_ne hk]
    refine ⟨fun hid => ⟨hid, ?_⟩, fun hid => hid.1⟩
    rintro rfl
    exact hk (h.inj _ _ _ hid hopen)

/-- The connection of a client in the map is closed, and the client erased. -/
theorem Tracked.closeErase (h : Tracked s) {fd : ℤ} {p : ThreadClientPtr}
    (hp : s.server.clients.get? fd = some p) {srv : ThreadServer}
    (hm : srv.clients = s.server.clients.erase fd) (hbuf : srv.clientsBuf = s.server.clientsBuf) :
    Tracked { s.close fd with server := srv } := by
  have hopen : s.opened fd = some p.id := h.client _ (OrderedMap.mem_of_get? hp)
  have hclose := CloseRun.close_of_opened hopen
  have hiff := h.opened_close_iff hopen
  refine ⟨⟨?_, ?_, ?_, ?_⟩, ?_, ?_, ?_, ?_, ?_⟩
  · dsimp only
    rw [hm]
    intro a ha
    obtain ⟨ha, hne⟩ := OrderedMap.mem_erase.1 ha
    refine (hiff _ _).2 ⟨h.client a ha, fun hid => hne ?_⟩
    exact h.inj _ _ _ (h.client a ha) (hid ▸ hopen)
  · dsimp only
    rw [hbuf]
    exact fun q hq => (hiff _ _).2
      ⟨h.waiting q hq, (h.disj _ (OrderedMap.mem_of_get? hp) q hq).symm⟩
  · dsimp only
    rw [hm, hbuf]
    exact fun a ha => h.disj a (OrderedMap.mem_erase.1 ha).1
  · dsimp only
    rw [hbuf]
    exact h.nodup
  · exact fun fd₁ fd₂ id h₁ h₂ => h.inj fd₁ fd₂ id ((hiff _ _).1 h₁).1 ((hiff _ _).1 h₂).1
  · intro fd' id hid
    rw [hclose]
    exact h.old fd' id ((hiff _ _).1 hid).1
  · intro fd' id hid
    obtain ⟨hid, hne⟩ := (hiff _ _).1 hid
    rw [hclose]
    dsimp only
    rw [Function.update_of_ne hne]
    exact h.never fd' id hid
  · intro id hlt hno
    rw [hclose] at hlt
    rw [hclose]
    dsimp only
    by_cases hid : id = p.id
    · rw [hid, Function.update_self, h.never _ _ hopen]
    · rw [Function.update_of_ne hid]
      exact h.once id hlt fun fd' hfd' => hno fd' ((hiff _ _).2 ⟨hfd', hid⟩)
  · intro id hle
    rw [hclose] at hle ⊢
    dsimp only at hle ⊢
    rw [Function.update_of_ne (fun hid => ?_)]
    · exact h.fresh id hle
    · have hlt := h.old _ _ hopen
      omega

/-- Who is left when the client `p` is erased. -/
theorem Tracked.present_erase (h : Tracked s) {fd : ℤ} {p : ThreadClientPtr} {srv : ThreadServer}
    (hp : s.server.clients.get? fd = some p) (hm : srv.clients = s.server.clients.erase fd)
    (hbuf : srv.clientsBuf = s.server.clientsBuf) (id : ℕ) :
    srv.Present id ↔ s.server.Present id ∧ id ≠ p.id := by
  have hmem := OrderedMap.mem_of_get? hp
  rw [ThreadServer.Present, ThreadServer.Present, hm, hbuf]
  constructor
  · rintro (⟨a, ha, rfl⟩ | ⟨q, hq, rfl⟩)
    · obtain ⟨ha, hne⟩ := OrderedMap.mem_erase.1 ha
      refine ⟨.inl ⟨a, ha, rfl⟩, fun hid => hne ?_⟩
      exact h.inj _ _ _ (h.client a ha) (hid ▸ h.client _ hmem)
    · exact ⟨.inr ⟨q, hq, rfl⟩, (h.disj _ hmem q hq).symm⟩
  · rintro ⟨⟨a, ha, rfl⟩ | ⟨q, hq, rfl⟩, hne⟩
    · refine .inl ⟨a, OrderedMap.mem_erase.2 ⟨ha, fun hk => hne ?_⟩, rfl⟩
      rw [OrderedMap.eq_of_mem ha hmem hk]
    · exact .inr ⟨q, hq, rfl⟩

/-- Who is there when the client `p` is changed. -/
theorem present_modify {fd : ℤ} {p q : ThreadClientPtr} {srv srv' : ThreadServer}
    (hp : srv.clients.get? fd = some p) (hq : q.id = p.id)
    (hm : srv'.clients = srv.clients.modify fd fun _ => q) (hbuf : srv'.clientsBuf = srv.clientsBuf) :
    (∀ a' ∈ srv'.clients.entries, ∃ a ∈ srv.clients.entries, a'.1 = a.1 ∧ a'.2.id = a.2.id) ∧
      ∀ id, srv'.Present id ↔ srv.Present id := by
  have hmem := OrderedMap.mem_of_get? hp
  -- the entry that changes keeps its number
  have hid : ∀ a ∈ srv.clients.entries, (if a.1 = fd then q else a.2).id = a.2.id := by
    intro a ha
    split
    · rename_i hk
      rw [OrderedMap.eq_of_mem ha hmem hk, hq]
    · rfl
  have hsub : ∀ a' ∈ srv'.clients.entries, ∃ a ∈ srv.clients.entries,
      a'.1 = a.1 ∧ a'.2.id = a.2.id := by
    rw [hm]
    intro a' ha'
    obtain ⟨a, ha, rfl⟩ := OrderedMap.mem_modify.1 ha'
    exact ⟨a, ha, rfl, hid a ha⟩
  refine ⟨hsub, fun id => ?_⟩
  rw [ThreadServer.Present, ThreadServer.Present, hbuf]
  refine or_congr_left ⟨?_, ?_⟩
  · rintro ⟨a', ha', rfl⟩
    obtain ⟨a, ha, -, haid⟩ := hsub a' ha'
    exact ⟨a, ha, haid.symm⟩
  · rintro ⟨a, ha, rfl⟩
    rw [hm]
    exact ⟨_, OrderedMap.mem_modify.2 ⟨a, ha, rfl⟩, hid a ha⟩

/-- A step that leaves the descriptors alone. -/
theorem Tracked.of_sub (h : Tracked s) (srv : ThreadServer) (phase : ServerPhase)
    (hm : ∀ a' ∈ srv.clients.entries, ∃ a ∈ s.server.clients.entries,
      a'.1 = a.1 ∧ a'.2.id = a.2.id)
    (hbuf : srv.clientsBuf.Sublist s.server.clientsBuf) :
    Tracked { s with server := srv, phase := phase } :=
  ⟨h.toOwn.of_sub hm hbuf, h.inj, h.old, h.never, h.once, h.fresh⟩

/-- The body of a loop, for one client: it stays in the map, or is erased. -/
theorem CloseRun.round_cases {closes : Bool}
    {test : ℤ → ThreadClient → Option (Bool × ThreadClient)} {fd : ℤ}
    (hs : s.round closes test fd = some s') :
    s.phase = .running ∧ ∃ p v srv, s.server.clients.get? fd = some p ∧
      test fd p.client = some v ∧ srv.clientsBuf = s.server.clientsBuf ∧
      (v.1 = false ∧ s' = { s with server := srv } ∧
          srv.clients = s.server.clients.modify fd (fun _ => { p with client := v.2 }) ∨
        v.1 = true ∧ s' = { (if closes then s.close fd else s) with server := srv } ∧
          srv.clients = s.server.clients.erase fd) := by
  obtain ⟨hrun, hs⟩ := Option.ite_none_right_eq_some.1 hs
  obtain ⟨r, hr, rfl⟩ := Option.map_eq_some_iff.1 hs
  obtain ⟨p, v, hp, hv, rfl⟩ := ThreadServer.roundAt_eq_some hr
  refine ⟨hrun, p, v, { s.server with
    clients := if v.1 then s.server.clients.erase fd
      else s.server.clients.modify fd fun _ => { p with client := v.2 }
    clientchange := s.server.clientchange || v.1 }, hp, hv, rfl, ?_⟩
  cases hfail : v.1 with
  | false => exact .inl ⟨rfl, rfl, rfl⟩
  | true => cases closes <;> exact .inr ⟨rfl, rfl, rfl⟩

/-- **The body of a loop**, for one client: its socket stays open when the client fails and the loop does
not close it. -/
theorem Tracked.round (h : Tracked s) {closes : Bool}
    {test : ℤ → ThreadClient → Option (Bool × ThreadClient)} {fd : ℤ}
    (hs : s.round closes test fd = some s') :
    Tracked s' ∧ (ClosedOnce s' ↔ ClosedOnce s ∧ (closes = false → ∀ p,
      s.server.clients.get? fd = some p → ∀ v, test fd p.client = some v → v.1 = false)) := by
  obtain ⟨hrun, p, v, srv, hp, hv, hbuf, hcases⟩ := CloseRun.round_cases hs
  have hopen := h.client _ (OrderedMap.mem_of_get? hp)
  have honly : (∀ p', s.server.clients.get? fd = some p' → ∀ v', test fd p'.client = some v' →
      v'.1 = false) ↔ v.1 = false := by
    constructor
    · exact fun hall => hall p hp v hv
    · intro hfail p' hp' v' hv'
      obtain rfl : p = p' := Option.some.inj (hp.symm.trans hp')
      rwa [← Option.some.inj (hv.symm.trans hv')]
  rw [honly]
  rcases hcases with ⟨hfail, rfl, hm⟩ | ⟨hfail, rfl, hm⟩
  · obtain ⟨hsub, hpres⟩ := present_modify (q := { p with client := v.2 }) hp rfl hm hbuf
    have h' := h.of_sub _ s.phase hsub (hbuf ▸ List.Sublist.refl _)
    refine ⟨h', ?_⟩
    rw [h'.closedOnce_iff, h.closedOnce_iff]
    simp only [hpres, hfail, implies_true, and_true]
  · have hpres := h.present_erase hp hm hbuf
    cases closes with
    | true =>
        have h' := h.closeErase hp hm hbuf
        have hphase : (s.close fd).phase = s.phase := by
          rw [CloseRun.close_of_opened hopen]
        refine ⟨h', ?_⟩
        simp only [Bool.true_eq_false, false_implies, and_true]
        refine h'.closedOnce_iff.trans (Iff.trans ?_ h.closedOnce_iff.symm)
        simp only [hpres, h.opened_close_iff hopen, hphase, hrun, reduceCtorEq, false_implies, and_true]
        constructor
        · intro hall fd' id hid
          by_cases hk : id = p.id
          · exact .inl ⟨_, OrderedMap.mem_of_get? hp, hk.symm⟩
          · exact (hall fd' id ⟨hid, hk⟩).1
        · exact fun hall fd' id hid => ⟨hall fd' id hid.1, hid.2⟩
    | false =>
        have h' := h.of_sub srv s.phase
          (fun a ha => ⟨a, (OrderedMap.mem_erase.1 (hm ▸ ha)).1, rfl, rfl⟩)
          (hbuf ▸ List.Sublist.refl _)
        refine ⟨h', fun hc => ?_, fun hc => ?_⟩
        · -- the connection of `p` is open, and `p` is not there
          have hthere := (h'.closedOnce_iff.1 hc).1 _ _ hopen
          exact absurd rfl ((hpres _).1 hthere).2
        · rw [hc.2 rfl] at hfail
          exact nomatch hfail

/-- A new client is there. -/
theorem present_addClient {srv : ThreadServer} {p : ThreadClientPtr} (id : ℕ) :
    (srv.addClient p).Present id ↔ srv.Present id ∨ id = p.id := by
  simp only [ThreadServer.Present, ThreadServer.addClient, List.mem_append, List.mem_singleton]
  constructor
  · rintro (ha | ⟨q, hq | rfl, rfl⟩)
    · exact .inl (.inl ha)
    · exact .inl (.inr ⟨q, hq, rfl⟩)
    · exact .inr rfl
  · rintro ((ha | ⟨q, hq, rfl⟩) | rfl)
    · exact .inl ha
    · exact .inr ⟨q, .inl hq, rfl⟩
    · exact .inr ⟨_, .inr rfl, rfl⟩

/-- Nobody is there when the two lists are empty. -/
theorem not_present_iff {srv : ThreadServer} :
    (∀ id, ¬ srv.Present id) ↔ srv.clients.entries = [] ∧ srv.clientsBuf = [] := by
  constructor
  · intro hno
    refine ⟨List.eq_nil_iff_forall_not_mem.2 fun a ha => hno _ (.inl ⟨a, ha, rfl⟩),
      List.eq_nil_iff_forall_not_mem.2 fun p hp => hno _ (.inr ⟨p, hp, rfl⟩)⟩
  · rintro ⟨hclients, hbuf⟩ id (⟨a, ha, -⟩ | ⟨p, hp, -⟩)
    · rw [hclients] at ha
      exact List.not_mem_nil ha
    · rw [hbuf] at hp
      exact List.not_mem_nil hp

/-- **Every step** leaves the clients that are there with their own descriptors, and keeps the closing
exact when it was and closes the socket of each client it removes. -/
theorem Tracked.step {onNetMsg : MsgHandler} {e : Endian} {rounds : ℕ} {a : CloseAction}
    (h : Tracked s) (hs : s.step onNetMsg e rounds a = some s') :
    Tracked s' ∧ (ClosedOnce s' ↔ ClosedOnce s ∧ ClosesAll s a) := by
  cases a with
  | addClient c =>
      obtain ⟨⟨hphase, hfree⟩, hs⟩ := Option.ite_none_right_eq_some.1 hs
      have h' := h.addClient hfree (Option.some.inj hs).symm
      obtain rfl := Option.some.inj hs
      refine ⟨h', ?_⟩
      rw [h'.closedOnce_iff, h.closedOnce_iff]
      simp only [present_addClient, update_opened_iff hfree, hphase, false_implies, and_true,
        ClosesAll]
      constructor
      · intro hall fd id hid
        rcases hall fd id (.inr hid) with hp | rfl
        · exact hp
        · exact absurd (h.old _ _ hid) (Nat.lt_irrefl _)
      · intro hall fd id hid
        rcases hid with ⟨-, hid⟩ | hid
        · exact .inr hid
        · exact .inl (hall fd id hid)
  | merge =>
      obtain ⟨-, hs⟩ := Option.ite_none_right_eq_some.1 hs
      obtain rfl := Option.some.inj hs
      obtain ⟨hown, hids⟩ := h.toOwn.merge
      have h' : Tracked { s with server := s.server.merge } := by
        refine ⟨?_, h.inj, h.old, h.never, h.once, h.fresh⟩
        dsimp only
        rwa [s.server.merge_clients, s.server.merge_clientsBuf]
      have hpres : ∀ id, s.server.merge.Present id ↔ s.server.Present id := by
        intro id
        rw [ThreadServer.Present, ThreadServer.Present, s.server.merge_clients,
          s.server.merge_clientsBuf, hids]
        simp
      refine ⟨h', ?_⟩
      rw [h'.closedOnce_iff, h.closedOnce_iff]
      simp only [hpres, ClosesAll, and_true]
  | readRound fd a =>
      obtain ⟨h', hiff⟩ := h.round hs
      exact ⟨h', hiff.trans (and_congr_right fun _ => by simp [ClosesAll])⟩
  | writeRound fd a =>
      obtain ⟨h', hiff⟩ := h.round hs
      refine ⟨h', hiff.trans (and_congr_right fun _ => ?_)⟩
      simp [ClosesAll, writeFails, ThreadServer.writeTest]
  | checkRound fd passby =>
      obtain ⟨h', hiff⟩ := h.round hs
      exact ⟨h', hiff.trans (and_congr_right fun _ => by simp [ClosesAll])⟩
  | clearAllClient =>
      obtain ⟨hrun, hs⟩ := Option.ite_none_right_eq_some.1 hs
      obtain rfl := Option.some.inj hs
      have h' := h.of_sub s.server.clearAllClient .cleared
        (fun a ha => absurd ha List.not_mem_nil) (List.nil_sublist _)
      have hpres := not_present_iff.2 (⟨rfl, rfl⟩ :
        s.server.clearAllClient.clients.entries = [] ∧ s.server.clearAllClient.clientsBuf = [])
      refine ⟨h', ?_⟩
      rw [h'.closedOnce_iff, h.closedOnce_iff, ClosesAll, ← not_present_iff]
      simp only [hpres, reduceCtorEq, false_implies, and_true, hrun]
      constructor
      · -- no connection is open, and so nobody was there
        intro hno
        refine ⟨fun fd id hid => (hno fd id hid).elim, fun id hp => ?_⟩
        obtain ⟨fd, hfd⟩ := h.opened_of_present hp
        exact hno fd id hfd
      · exact fun hall fd id hid => hall.2 id (hall.1 fd id hid)
  | closed =>
      obtain ⟨hphase, hs⟩ := Option.ite_none_right_eq_some.1 hs
      obtain rfl := Option.some.inj hs
      have h' : Tracked { s with phase := .ended } :=
        ⟨h.toOwn, h.inj, h.old, h.never, h.once, h.fresh⟩
      refine ⟨h', ?_⟩
      rw [h'.closedOnce_iff, h.closedOnce_iff, ClosesAll, ← not_present_iff]
      simp only [hphase, false_implies, and_true, true_implies]

end Steps

theorem tracked_init (onNetMsg : MsgHandler) (e : Endian) (rounds : ℕ) :
    Tracked (closeLts onNetMsg e rounds).init where
  client := fun _ ha => absurd ha List.not_mem_nil
  waiting := fun _ hp => absurd hp List.not_mem_nil
  disj := fun _ ha => absurd ha List.not_mem_nil
  nodup := List.nodup_nil
  inj := fun _ _ _ hid => nomatch hid
  old := fun _ _ hid => nomatch hid
  never := fun _ _ hid => nomatch hid
  once := fun _ hid => absurd hid (Nat.not_lt_zero _)
  fresh := fun _ _ => rfl

/-! ### Runs -/

/-- **When every socket is closed once.**  In every run of a server, up to the end of `Close`, the sockets
of the clients that were removed have been closed once and the others not exactly when `SendDataReal`
never returned `-1`, and no client was left when the thread left its loop and when `Close` returned. -/
theorem closed_once_iff (onNetMsg : MsgHandler) (e : Endian) (rounds : ℕ) {as : List CloseAction}
    {s : CloseRun}
    (he : (closeLts onNetMsg e rounds).exec (closeLts onNetMsg e rounds).init as = some s) :
    ClosedOnce s ↔
      (closeLts onNetMsg e rounds).AllSteps ClosesAll (closeLts onNetMsg e rounds).init as := by
  have hinit := tracked_init onNetMsg e rounds
  have hreach : ∀ {g : CloseRun → CloseAction → Prop} {s : CloseRun},
      (closeLts onNetMsg e rounds).Reach g s → Tracked s :=
    fun hr => hr.invariant hinit fun _ _ _ _ hI _ hs => (hI.step hs).1
  refine Lts.trace_iff (g := fun _ _ => True) (I := ClosedOnce) ?_
    (fun s a s' hr hI _ hs => ?_) (fun s a s' hr hs hI => ?_) he (Lts.allSteps_true _ _)
  · exact hinit.closedOnce_iff.2 ⟨fun _ _ hid => (nomatch hid), fun hp => nomatch hp⟩
  · rw [((hreach hr).step hs).2, and_iff_right hI]
  · exact (((hreach hr).step hs).2.1 hI).1

/-- A client with the descriptor 4. -/
def clientFour : ThreadClient := (ThreadClient.new fun _ => 0).setSocket 4

/-- A client ends its stream, the next one gets its descriptor and is idle for too long. -/
def descriptorReused : List CloseAction :=
  [.addClient clientFour, .merge, .readRound 4 (.bytes []), .addClient clientFour, .merge,
    .checkRound 4 20, .writeRound 4 .failed, .checkRound 4 50000, .clearAllClient, .closed]

theorem closed_once_reused : ClosedOnce
    (((closeLts (fun _ => []) .little 1).exec (closeLts (fun _ => []) .little 1).init
      descriptorReused).get (by decide +kernel)) :=
  (@closed_once_iff (fun _ => []) .little 1 descriptorReused _ (Option.some_get _).symm).2
    (by decide +kernel)

/-- A client gets an answer ready, and its connection breaks before it is sent. -/
theorem not_closed_once :
    ¬ ∀ (onNetMsg : MsgHandler) (e : Endian) (rounds : ℕ) (as : List CloseAction) (s : CloseRun),
      (closeLts onNetMsg e rounds).exec (closeLts onNetMsg e rounds).init as = some s →
        ClosedOnce s := by
  intro h
  have hclosed := h (fun _ => [.sendData [4, 0, 0, 0]]) .little 2
    [.addClient clientFour, .merge, .readRound 4 (.bytes [4, 0, 0, 0]), .writeRound 4 .failed] _
    (Option.some_get (by decide +kernel)).symm
  have honce := hclosed.removed 0 (by decide +kernel)
    (not_present_iff.2 ⟨by decide +kernel, by decide +kernel⟩ 0)
  exact absurd honce (by decide +kernel)

end ProxySocket

/-
**How the server takes its connections.**

The main thread of the server listens at two sockets, edge triggered: the kernel reports a socket once for
each connection that arrives, and after an `epoll_ctl(2)` for a socket at which a connection waits.  The
read handlers call `accept(2)` until it fails, for whatever reason; `everyHandler`, which both channels
have, asks again for events at the control socket.

Main definitions:

* `ListenSocket`, `AcceptServer`, `acceptLts` — the two sockets and the main thread;
* `AcceptServer.Forgotten` — connections wait, and the kernel will not report them;
* `AcceptServer.LeavesBehind` — a call of `accept(2)` fails for another reason than that nobody waits.

Main results:

* `AcceptServer.forgotten_step_iff` — which steps make connections wait in vain;
* `AcceptServer.accept_forgets_iff` — **no control connection is forgotten**, and proxy connections are
  exactly when a call of `accept(2)` failed before them and nobody came since.
-/

import Mathlib.Data.List.Nodup
import ProxySocket.Arming
import ProxySocket.Lts

set_option relaxedAutoImplicit false
set_option autoImplicit false

namespace ProxySocket

open Function (update)

/-! ### The listening sockets -/

/-- `ctl_acceptor_` and `proxy_acceptor_`. -/
inductive Acceptor
  | ctl
  | proxy
deriving DecidableEq, Repr

/-- A listening socket with its channel. -/
structure ListenSocket where
  /-- the connections that wait for `accept(2)` -/
  backlog : ℕ := 0
  /-- the kernel will report the socket -/
  ready : Bool := false
  /-- `events_` of the channel -/
  events : UInt32 := everyEvents
  /-- the events the kernel waits for -/
  interest : UInt32 := everyEvents
deriving DecidableEq

namespace ListenSocket

/-- A connection arrives. -/
def arrive (k : ListenSocket) : ListenSocket :=
  { k with backlog := k.backlog + 1, ready := k.ready || hasFlag k.interest epollIn }

/-- The kernel reports the socket, once. -/
def reported (k : ListenSocket) : ListenSocket := { k with ready := false }

/-- `SetEvents(EPOLLIN | EPOLLET | EPOLLRDHUP)` and `ModToPoller`. -/
def rearm (k : ListenSocket) : ListenSocket :=
  { k with
    events := everyEvents
    interest := everyEvents
    ready := k.ready || decide (0 < k.backlog) && hasFlag everyEvents epollIn }

end ListenSocket

/-- What a call of `accept(2)` answers. -/
inductive AcceptAnswer
  | connection
  /-- `EAGAIN`: nobody waits -/
  | wouldBlock
  /-- another error, which may have taken the connection away -/
  | failed (taken : Bool)
deriving DecidableEq, Repr

/-- Where the main thread is, with the acceptors of the batch that it has to handle later. -/
inductive AcceptPc
  | idle
  /-- in the `while` of the read handler -/
  | accepting (a : Acceptor) (rest : List Acceptor)
  /-- before `everyHandler` of the channel -/
  | every (a : Acceptor) (rest : List Acceptor)
deriving DecidableEq, Repr

/-- The server. -/
structure AcceptServer where
  sock : Acceptor → ListenSocket := fun _ => {}
  pc : AcceptPc := .idle
  /-- the number of connections that were accepted -/
  accepted : Acceptor → ℕ := fun _ => 0

/-- What happens. -/
inductive AcceptAct
  | arrive (a : Acceptor)
  /-- `WaitChannels` returns these acceptors, and others that are not modelled -/
  | wait (batch : List Acceptor)
  | accept (r : AcceptAnswer)
  | every
deriving DecidableEq, Repr

namespace AcceptServer

/-- A listening socket changes. -/
def setSock (s : AcceptServer) (a : Acceptor) (k : ListenSocket) : AcceptServer :=
  { s with sock := update s.sock a k }

/-- `epoll_wait(2)` returns. -/
def reportBatch (s : AcceptServer) (batch : List Acceptor) : AcceptServer :=
  { s with sock := fun a => if a ∈ batch then (s.sock a).reported else s.sock a }

/-- The next channel of the batch: `HandleEvents` sets `events_` to 0 and calls the read handler. -/
def handle (s : AcceptServer) : List Acceptor → AcceptServer
  | [] => { s with pc := .idle }
  | a :: rest => { s.setSock a { s.sock a with events := 0 } with pc := .accepting a rest }

/-- `accept(2)` in the loop of the read handler of `a`. -/
def acceptStep (s : AcceptServer) (a : Acceptor) (rest : List Acceptor) :
    AcceptAnswer → Option AcceptServer
  | .connection =>
      if 0 < (s.sock a).backlog then
        some { s.setSock a { s.sock a with backlog := (s.sock a).backlog - 1 } with
          accepted := update s.accepted a (s.accepted a + 1) }
      else none
  | .wouldBlock => if (s.sock a).backlog = 0 then some { s with pc := .every a rest } else none
  | .failed taken =>
      if taken = true ∧ (s.sock a).backlog = 0 then none
      else some { s.setSock a { s.sock a with backlog := (s.sock a).backlog - taken.toNat } with
        pc := .every a rest }

/-- One step. -/
def step (s : AcceptServer) : AcceptAct → Option AcceptServer
  | .arrive a => some (s.setSock a (s.sock a).arrive)
  | .wait batch =>
      if s.pc = .idle ∧ batch.Nodup ∧
          ∀ a ∈ batch, (s.sock a).ready = true ∧ 0 < (s.sock a).backlog then
        some ((s.reportBatch batch).handle batch)
      else none
  | .accept r =>
      match s.pc with
      | .accepting a rest => s.acceptStep a rest r
      | _ => none
  | .every =>
      match s.pc with
      -- the control socket, whichever of the two channels it is
      | .every _ rest => some ((s.setSock .ctl (s.sock .ctl).rearm).handle rest)
      | _ => none

end AcceptServer

/-- A server at which nobody waits. -/
def acceptLts : Lts AcceptServer AcceptAct where
  init := {}
  step := AcceptServer.step

namespace AcceptServer

/-- The main thread is in the read handler of the acceptor, or will come to it in this batch. -/
def Busy (s : AcceptServer) (a : Acceptor) : Prop :=
  match s.pc with
  | .idle => False
  | .accepting b rest => a = b ∨ a ∈ rest
  | .every _ rest => a ∈ rest

/-- Connections wait at a socket that the kernel will not report, unless another one arrives. -/
def Forgotten (s : AcceptServer) (a : Acceptor) : Prop :=
  ¬ s.Busy a ∧ 0 < (s.sock a).backlog ∧ (s.sock a).ready = false

/-- `accept(2)` fails at the proxy socket, and leaves connections there of which none came during the
loop. -/
def LeavesBehind (s : AcceptServer) : AcceptAct → Prop
  | .accept (.failed taken) =>
      (∃ rest, s.pc = .accepting .proxy rest) ∧ taken.toNat < (s.sock .proxy).backlog ∧
        (s.sock .proxy).ready = false
  | _ => False

/-! ### What the kernel reports -/

section Handle

variable (s : AcceptServer) (l : List Acceptor) (a b : Acceptor) (k : ListenSocket)

@[simp] theorem sock_setSock : (s.setSock a k).sock a = k := by
  simp only [setSock, Function.update_self]

theorem sock_setSock_of_ne (h : a ≠ b) : (s.setSock b k).sock a = s.sock a := by
  simp only [setSock, Function.update_of_ne h]

/-- Only `events_` of the channel changes. -/
theorem sock_handle : ((s.handle l).sock a).backlog = (s.sock a).backlog ∧
    ((s.handle l).sock a).ready = (s.sock a).ready ∧
    ((s.handle l).sock a).interest = (s.sock a).interest := by
  cases l with
  | nil => exact ⟨rfl, rfl, rfl⟩
  | cons b rest =>
      rcases eq_or_ne a b with rfl | hab
      · simp [handle]
      · simp only [handle, sock_setSock_of_ne s a b _ hab, and_self]

theorem busy_handle : (s.handle l).Busy a ↔ a ∈ l := by
  cases l with
  | nil => simp [handle, Busy]
  | cons b rest => simp [handle, Busy]

theorem pc_handle : (s.handle l).pc = .idle ↔ l = [] := by
  cases l <;> simp [handle]

theorem forgotten_handle : (s.handle l).Forgotten a ↔
    a ∉ l ∧ 0 < (s.sock a).backlog ∧ (s.sock a).ready = false := by
  obtain ⟨hbacklog, hready, -⟩ := s.sock_handle l a
  rw [Forgotten, busy_handle, hbacklog, hready]

end Handle

/-- **What a step can do.** -/
theorem step_cases {s s' : AcceptServer} {a : AcceptAct} (hs : s.step a = some s') :
    (∃ b, a = .arrive b ∧ s' = s.setSock b (s.sock b).arrive) ∨
    (∃ batch, a = .wait batch ∧ s.pc = .idle ∧ batch.Nodup ∧
      (∀ b ∈ batch, (s.sock b).ready = true) ∧ s' = (s.reportBatch batch).handle batch) ∨
    (∃ r b rest, a = .accept r ∧ s.pc = .accepting b rest ∧ s.acceptStep b rest r = some s') ∨
    (∃ b rest, a = .every ∧ s.pc = .every b rest ∧
      s' = (s.setSock .ctl (s.sock .ctl).rearm).handle rest) := by
  cases a with
  | arrive b => exact .inl ⟨b, rfl, (Option.some.inj hs).symm⟩
  | wait batch =>
      obtain ⟨⟨hidle, hnodup, hbatch⟩, hs⟩ := Option.ite_none_right_eq_some.1 hs
      exact .inr (.inl ⟨batch, rfl, hidle, hnodup, fun b hb => (hbatch b hb).1,
        (Option.some.inj hs).symm⟩)
  | accept r =>
      cases hpc : s.pc with
      | accepting b rest =>
          simp only [step, hpc] at hs
          exact .inr (.inr (.inl ⟨r, b, rest, rfl, rfl, hs⟩))
      | idle => simp only [step, hpc, reduceCtorEq] at hs
      | every b rest => simp only [step, hpc, reduceCtorEq] at hs
  | every =>
      cases hpc : s.pc with
      | every b rest =>
          simp only [step, hpc] at hs
          exact .inr (.inr (.inr ⟨b, rest, rfl, rfl, (Option.some.inj hs).symm⟩))
      | idle => simp only [step, hpc, reduceCtorEq] at hs
      | accepting b rest => simp only [step, hpc, reduceCtorEq] at hs

/-- The acceptors of the batch are different ones. -/
def BatchNodup : AcceptPc → Prop
  | .idle => True
  | .accepting a rest | .every a rest => (a :: rest).Nodup

/-- **The invariant**: the kernel waits for connections at both sockets, and reports the control socket
whenever it should. -/
structure AcceptInv (s : AcceptServer) : Prop where
  interest : ∀ a, hasFlag (s.sock a).interest epollIn = true
  nodup : BatchNodup s.pc
  ctl : s.pc = .idle → ¬ s.Forgotten .ctl

namespace AcceptInv

variable {s s' : AcceptServer}

theorem init : AcceptInv acceptLts.init where
  interest _ := listens_every.input
  nodup := trivial
  ctl _ h := Nat.lt_irrefl 0 h.2.1

theorem handle (hi : ∀ a, hasFlag (s.sock a).interest epollIn = true) {l : List Acceptor} (hl : l.Nodup)
    (hctl : l = [] → (s.sock .ctl).backlog = 0 ∨ (s.sock .ctl).ready = true) :
    AcceptInv (s.handle l) where
  interest a := by
    rw [(s.sock_handle l a).2.2]
    exact hi a
  nodup := by
    cases l with
    | nil => trivial
    | cons a rest => exact hl
  ctl hidle := by
    rw [pc_handle] at hidle
    rw [forgotten_handle]
    rintro ⟨-, hpos, hready⟩
    rcases hctl hidle with h | h
    · omega
    · rw [h] at hready
      cases hready

/-- What the kernel waits for does not change, and no batch begins or ends. -/
theorem keep (h : AcceptInv s) (hi : ∀ a, (s'.sock a).interest = (s.sock a).interest)
    (hn : BatchNodup s'.pc) (hctl : s'.pc = .idle → ¬ s'.Forgotten .ctl) : AcceptInv s' where
  interest a := by
    rw [hi]
    exact h.interest a
  nodup := hn
  ctl := hctl

theorem acceptStep (h : AcceptInv s) {a : Acceptor} {rest : List Acceptor}
    (hpc : s.pc = .accepting a rest) {r : AcceptAnswer} (hs : s.acceptStep a rest r = some s') :
    AcceptInv s' := by
  have hnodup := h.nodup
  rw [hpc] at hnodup
  have hinterest : ∀ (k : ListenSocket) (b : Acceptor), k.interest = (s.sock a).interest →
      ((s.setSock a k).sock b).interest = (s.sock b).interest := by
    intro k b hk
    rcases eq_or_ne b a with rfl | hb
    · rw [sock_setSock, hk]
    · rw [sock_setSock_of_ne s b a k hb]
  cases r with
  | connection =>
      obtain ⟨-, hs⟩ := Option.ite_none_right_eq_some.1 hs
      obtain rfl := Option.some.inj hs
      refine h.keep (fun b => hinterest _ b rfl) (hpc ▸ hnodup) fun hidle => ?_
      have hne : s.pc = .idle := hidle
      rw [hpc] at hne
      cases hne
  | wouldBlock =>
      obtain ⟨-, hs⟩ := Option.ite_none_right_eq_some.1 hs
      obtain rfl := Option.some.inj hs
      exact h.keep (fun _ => rfl) hnodup nofun
  | failed taken =>
      obtain ⟨-, hs⟩ := Option.ite_none_left_eq_some.1 hs
      obtain rfl := Option.some.inj hs
      exact h.keep (fun b => hinterest _ b rfl) hnodup nofun

/-- **One step.** -/
theorem step (h : AcceptInv s) {a : AcceptAct} (hs : s.step a = some s') : AcceptInv s' := by
  obtain ⟨a, rfl, rfl⟩ | ⟨batch, rfl, hidle, hnodup, -, rfl⟩ | ⟨r, a, rest, rfl, hpc, hs⟩ |
    ⟨a, rest, rfl, hpc, rfl⟩ := step_cases hs
  · -- a connection arrives
    refine h.keep (fun b => ?_) h.nodup fun hidle => ?_
    · rcases eq_or_ne b a with rfl | hb
      · rw [sock_setSock]
        rfl
      · rw [sock_setSock_of_ne s b a _ hb]
    · rcases eq_or_ne .ctl a with rfl | ha
      · rintro ⟨-, -, hready⟩
        rw [sock_setSock, ListenSocket.arrive, h.interest, Bool.or_true] at hready
        cases hready
      · intro hf
        refine h.ctl hidle ⟨hf.1, ?_⟩
        have hrest := hf.2
        rwa [sock_setSock_of_ne s .ctl a _ ha] at hrest
  · -- a batch is reported
    refine handle (fun a => ?_) hnodup fun hnil => ?_
    · unfold reportBatch
      dsimp only
      split <;> exact h.interest a
    · subst hnil
      have hf := h.ctl hidle
      by_contra hno
      rw [not_or] at hno
      refine hf ⟨fun hbusy => ?_, Nat.pos_of_ne_zero hno.1, Bool.eq_false_iff.2 hno.2⟩
      rw [Busy, hidle] at hbusy
      exact hbusy
  · exact h.acceptStep hpc hs
  · -- `everyHandler`
    have hnodup := h.nodup
    rw [hpc] at hnodup
    refine handle (fun b => ?_) hnodup.of_cons fun _ => ?_
    · rcases eq_or_ne b .ctl with rfl | hb
      · rw [sock_setSock]
        exact listens_every.input
      · rw [sock_setSock_of_ne s b .ctl _ hb]
        exact h.interest b
    · -- `EPOLL_CTL_MOD` looks at the socket
      rw [sock_setSock]
      rcases Nat.eq_zero_or_pos (s.sock .ctl).backlog with hzero | hpos
      · exact .inl hzero
      · refine .inr ?_
        simp [ListenSocket.rearm, hpos, listens_every.input]

end AcceptInv

/-! ### Connections that are forgotten -/

theorem AcceptInv.of_reach {s : AcceptServer} (hs : acceptLts.Reach (fun _ _ => True) s) :
    AcceptInv s :=
  hs.invariant AcceptInv.init fun _ _ _ _ hi _ hst => hi.step hst

variable {s s' : AcceptServer}

/-- A call of `accept(2)` and the connections at the proxy socket. -/
theorem forgotten_acceptStep (h : AcceptInv s) {a : Acceptor} {rest : List Acceptor}
    (hpc : s.pc = .accepting a rest) {r : AcceptAnswer} (hs : s.acceptStep a rest r = some s') :
    s'.Forgotten .proxy ↔ s.LeavesBehind (.accept r) ∨ s.Forgotten .proxy := by
  have hnodup := h.nodup
  rw [hpc] at hnodup
  have hbusy : s.Busy .proxy ↔ .proxy = a ∨ .proxy ∈ rest := by rw [Busy, hpc]
  have hleaves : ∀ taken, s.LeavesBehind (.accept (.failed taken)) ↔ a = .proxy ∧
      taken.toNat < (s.sock .proxy).backlog ∧ (s.sock .proxy).ready = false := by
    intro taken
    simp [LeavesBehind, hpc]
  rcases eq_or_ne .proxy a with rfl | ha
  · -- the proxy socket: it is looked at
    have hnot : ¬ s.Forgotten .proxy := fun hf => hf.1 (hbusy.2 (.inl rfl))
    have hrest : .proxy ∉ rest := (List.nodup_cons.1 hnodup).1
    cases r with
    | connection =>
        obtain ⟨-, hs⟩ := Option.ite_none_right_eq_some.1 hs
        obtain rfl := Option.some.inj hs
        refine iff_of_false (fun hf => hf.1 ?_) (not_or.2 ⟨id, hnot⟩)
        exact hbusy.2 (.inl rfl)
    | wouldBlock =>
        obtain ⟨hzero, hs⟩ := Option.ite_none_right_eq_some.1 hs
        obtain rfl := Option.some.inj hs
        refine iff_of_false (fun hf => ?_) (not_or.2 ⟨id, hnot⟩)
        exact Nat.ne_of_gt hf.2.1 hzero
    | failed taken =>
        obtain ⟨-, hs⟩ := Option.ite_none_left_eq_some.1 hs
        obtain rfl := Option.some.inj hs
        rw [or_iff_left hnot, hleaves, Forgotten]
        simp only [Busy, sock_setSock, hrest, not_false_eq_true, true_and, Nat.sub_pos_iff_lt]
  · -- the control socket
    have hsock : ∀ k, (s.setSock a k).sock .proxy = s.sock .proxy := fun k =>
      sock_setSock_of_ne s .proxy a k ha
    have hrest : s.Forgotten .proxy ↔ .proxy ∉ rest ∧ 0 < (s.sock .proxy).backlog ∧
        (s.sock .proxy).ready = false := by
      rw [Forgotten, hbusy, or_iff_right ha]
    cases r with
    | connection =>
        obtain ⟨-, hs⟩ := Option.ite_none_right_eq_some.1 hs
        obtain rfl := Option.some.inj hs
        have hbusy' : ∀ n, Busy { s.setSock a { s.sock a with backlog := (s.sock a).backlog - 1 } with
            accepted := n } .proxy ↔ s.Busy .proxy := fun _ => Iff.rfl
        rw [Forgotten, hbusy', hsock]
        exact (or_iff_right id).symm
    | wouldBlock =>
        obtain ⟨-, hs⟩ := Option.ite_none_right_eq_some.1 hs
        obtain rfl := Option.some.inj hs
        rw [hrest]
        exact (or_iff_right id).symm
    | failed taken =>
        obtain ⟨-, hs⟩ := Option.ite_none_left_eq_some.1 hs
        obtain rfl := Option.some.inj hs
        rw [hrest, hleaves, or_iff_right fun hl => ha hl.1.symm, Forgotten, hsock]
        rfl

/-- **One step**: what makes connections wait in vain at the proxy socket, and what ends that. -/
theorem forgotten_step_iff (h : AcceptInv s) {a : AcceptAct} (hs : s.step a = some s') :
    s'.Forgotten .proxy ↔ s.LeavesBehind a ∨ s.Forgotten .proxy ∧ ¬ a = .arrive .proxy := by
  obtain ⟨b, rfl, rfl⟩ | ⟨batch, rfl, hidle, hnodup, hready, rfl⟩ | ⟨r, b, rest, rfl, hpc, hs⟩ |
    ⟨b, rest, rfl, hpc, rfl⟩ := step_cases hs
  · rcases eq_or_ne .proxy b with rfl | hb
    · refine iff_of_false ?_ (not_or.2 ⟨id, fun hf => hf.2 rfl⟩)
      rintro ⟨-, -, hfalse⟩
      rw [sock_setSock, ListenSocket.arrive, h.interest, Bool.or_true] at hfalse
      cases hfalse
    · have hne : ¬ AcceptAct.arrive b = .arrive .proxy := fun he => hb (AcceptAct.arrive.inj he).symm
      rw [and_iff_left hne, Forgotten, sock_setSock_of_ne s .proxy b _ hb]
      exact (or_iff_right id).symm
  · have hbusy : ¬ s.Busy .proxy := by
      rw [Busy, hidle]
      exact id
    rw [and_iff_left nofun, forgotten_handle, or_iff_right (a := s.LeavesBehind (.wait batch)) id,
      Forgotten, reportBatch]
    dsimp only
    by_cases hmem : .proxy ∈ batch
    · refine iff_of_false (fun hf => hf.1 hmem) fun hf => ?_
      have hrep := hready _ hmem
      rw [hf.2.2] at hrep
      cases hrep
    · rw [if_neg hmem]
      exact and_congr_left' (iff_of_true hmem hbusy)
  · rw [and_iff_left nofun]
    exact forgotten_acceptStep h hpc hs
  · have hbusy : s.Busy .proxy ↔ .proxy ∈ rest := by rw [Busy, hpc]
    rw [and_iff_left nofun, forgotten_handle, or_iff_right (a := s.LeavesBehind .every) id,
      sock_setSock_of_ne s .proxy .ctl _ nofun, Forgotten, hbusy]

/-- **Who waits in vain.**  After any run, whatever `accept(2)` answered: once the main thread waits for
events again, the kernel will report the control socket if anybody waits there.  At the proxy socket
somebody waits in vain exactly when a call of `accept(2)` failed there, for another reason than that nobody
waited, while connections were left that had come before the batch, and no other one has come since. -/
theorem accept_forgets_iff {as : List AcceptAct} {s : AcceptServer}
    (he : acceptLts.exec acceptLts.init as = some s) :
    (s.pc = .idle → ¬ s.Forgotten .ctl) ∧
      (s.Forgotten .proxy ↔ ∃ pre a post s₁, as = pre ++ a :: post ∧
        acceptLts.exec acceptLts.init pre = some s₁ ∧ s₁.LeavesBehind a ∧
        ∀ b ∈ post, ¬ b = .arrive .proxy) := by
  have hs : acceptLts.Reach (fun _ _ => True) s := .of_allSteps .init he (Lts.allSteps_true _ as)
  refine ⟨(AcceptInv.of_reach hs).ctl, ?_⟩
  have hinit : ¬ acceptLts.init.Forgotten .proxy := fun hf => Nat.lt_irrefl 0 hf.2.1
  exact Lts.since_iff (P := fun s => s.Forgotten .proxy) hinit
    (fun _ _ _ hr hst => forgotten_step_iff (AcceptInv.of_reach hr) hst) he

/-- Two proxy connections arrive, and the process has too many files when the main thread takes the second
one; a control connection does not help. -/
def tooManyFiles : List AcceptAct :=
  [.arrive .proxy, .arrive .proxy, .wait [.proxy], .accept .connection, .accept (.failed false), .every,
    .arrive .ctl, .wait [.ctl], .accept .connection, .accept .wouldBlock, .every]

theorem accept_forgets_two :
    ∃ s, acceptLts.exec acceptLts.init tooManyFiles = some s ∧ s.pc = .idle ∧
      s.Forgotten .proxy ∧ ¬ s.Forgotten .ctl := by
  have he := (Option.some_get (x := acceptLts.exec acceptLts.init tooManyFiles)
    (by decide +kernel)).symm
  have hidle : ((acceptLts.exec acceptLts.init tooManyFiles).get (by decide +kernel)).pc = .idle := by
    decide +kernel
  refine ⟨_, he, hidle, ⟨fun hb => ?_, by decide +kernel, by decide +kernel⟩,
    (accept_forgets_iff he).1 hidle⟩
  rw [Busy, hidle] at hb
  exact hb

end AcceptServer

end ProxySocket

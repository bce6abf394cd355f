/-
**The session protocol of a recycled connection, in the abstract.**

Two parties serve one session after another over one connection.  A session has two directions; in
each the sender writes bytes, closes, and announces the number of bytes on a separate channel, and
the receiver is done when the announcement was applied and as many bytes have arrived.  The server
may hand the connection to a new session when it holds it free; the client starts a session when it
is asked to.

This module says nothing about sockets, counters or messages.  It is the purpose of the two
`ProxyConnect` halves, stated with plain numbers and the phases of a session.
`ProxySocket/PairRefine.lean` proves that the program of `ProxySocket/Pair.lean` follows it.

A connection that the public side closed first comes back to the server while the client may still
be busy with the old session.  The flag `early` of the step relation tells whether the server may
then hand it to the next session at once.

Main definitions:

* `Direction`, `Session` — a direction, and both parties with what is in flight;
* `Session.Step` — the protocol;
* `Session.Inv` — **the invariant over both parties and everything in flight**;
* `Session.Settled` — the server only requests sessions on a connection the client is done with.

Main results:

* `Session.inv_of_reach` — the invariant holds in every reachable state;
* `Session.settled_of_reach` — **without early requests, a requested connection is idle at the
  client**.
-/

import Mathlib.Logic.Relation
import Mathlib.Tactic.Common

set_option relaxedAutoImplicit false
set_option autoImplicit false

namespace ProxySocket

/-- What became of the announcement of a direction. -/
inductive Announcement
  | unsent
  | inFlight
  | applied
  | discarded
deriving DecidableEq, Repr

/-- One direction of a session. -/
structure Direction where
  /-- bytes written by the sender -/
  wrote : ℕ := 0
  /-- bytes that left the receiver's pipe -/
  recv : ℕ := 0
  /-- the sender has closed the direction -/
  closed : Bool := false
  /-- the announcement of the number of bytes -/
  ann : Announcement := .unsent
  /-- the receiver has shut the direction down -/
  done : Bool := false
deriving DecidableEq, Repr

/-- Where the server holds the connection. -/
inductive Place
  /-- a new connection nobody has claimed -/
  | unclaimed
  /-- in a session -/
  | running
  /-- reset by the end of the public stream, waiting for the client to give it back -/
  | awaiting
  /-- free for a new session -/
  | free
  /-- a new session was requested -/
  | waiting
deriving DecidableEq, Repr

/-- What the client does with the connection. -/
inductive Phase
  | idle
  /-- a session was announced and is about to run -/
  | announced
  | running
deriving DecidableEq, Repr

/-- Both parties, and what is in flight between them. -/
structure Session where
  /-- sessions the server has started -/
  srvSid : ℕ := 0
  /-- sessions the client has announced -/
  cliSid : ℕ := 0
  place : Place := .unclaimed
  phase : Phase := .idle
  /-- the direction towards the client, of the server's session -/
  down : Direction := {}
  /-- the direction towards the server, of the client's session -/
  up : Direction := {}
  /-- a request for a new session is in the stream -/
  reqQueued : Bool := false
  /-- a request was taken for bytes of the session that was still running -/
  swallowed : Bool := false
  /-- the bytes of that request were counted -/
  overrun : Bool := false
  /-- the client's give-back of the session before is still in flight -/
  freeOld : Bool := false
  /-- the client's give-back of its latest session is in flight -/
  freeNew : Bool := false
deriving DecidableEq, Repr

namespace Session

/-! ### The parties' reactions -/

/-- The server shuts down the direction towards it; if the public side has closed before, the
connection is free. -/
def srvRemote (t : Session) : Session :=
  { t with
    up := { t.up with done := true }
    place := if t.down.closed then .free else t.place }

/-- All announced bytes have arrived at the server. -/
def SrvComplete (t : Session) : Prop := t.up.ann = .applied ∧ t.up.recv = t.up.wrote

instance (t : Session) : Decidable t.SrvComplete := inferInstanceAs (Decidable (_ ∧ _))

/-- The server compares what has arrived with what was announced. -/
def srvCheck (t : Session) : Session := if t.SrvComplete then t.srvRemote else t

/-- The client gives the connection back: the server takes it if it waits for it. -/
def returned (t : Session) : Session :=
  if t.place = .awaiting then { t with place := .free } else t

@[simp] theorem returned_up (t : Session) : t.returned.up = t.up := by
  unfold returned
  split <;> rfl

@[simp] theorem returned_freeOld (t : Session) : t.returned.freeOld = t.freeOld := by
  unfold returned
  split <;> rfl

@[simp] theorem returned_freeNew (t : Session) : t.returned.freeNew = t.freeNew := by
  unfold returned
  split <;> rfl

/-- The client shuts down the direction towards it; if the local side has closed before, the
session is over and the connection is given back. -/
def cliRemote (t : Session) : Session :=
  { t with
    down := { t.down with done := true }
    phase := if t.up.closed then .idle else t.phase
    freeNew := t.up.closed || t.freeNew }

/-- All announced bytes have arrived at the client, and nothing else. -/
def CliComplete (t : Session) : Prop :=
  t.down.ann = .applied ∧ t.down.recv = t.down.wrote ∧ t.overrun = false

instance (t : Session) : Decidable t.CliComplete := inferInstanceAs (Decidable (_ ∧ _ ∧ _))

/-- The client compares what has arrived with what was announced. -/
def cliCheck (t : Session) : Session := if t.CliComplete then t.cliRemote else t

/-! ### The protocol -/

/-- The steps of the protocol.  With `early = false` a new session is requested only when the client
has finished with the old one. -/
inductive Step (early : Bool) : Session → Session → Prop
  /-- a new session is requested on a free connection -/
  | request {t} : t.place = .free → (early = false → t.phase = .idle) →
      Step early t { t with place := .waiting, reqQueued := true }
  /-- the server starts the session the client has announced -/
  | activate {t} : t.cliSid = t.srvSid + 1 →
      Step early t { t with srvSid := t.srvSid + 1, place := .running, down := {} }
  /-- the public side sends bytes -/
  | pubWrite {t} (n : ℕ) : t.place = .running → t.down.closed = false →
      Step early t { t with down := { t.down with wrote := t.down.wrote + n } }
  /-- the public side closes -/
  | pubClose {t} : t.place = .running → t.down.closed = false →
      Step early t { t with
        down := { t.down with closed := true, ann := .inFlight }
        place := if t.up.done then .awaiting else t.place }
  /-- bytes arrive at the server -/
  | srvRecv {t} (n : ℕ) : t.place = .running → 0 < n → t.up.recv + n ≤ t.up.wrote →
      Step early t { t with up := { t.up with recv := t.up.recv + n } }.srvCheck
  /-- the client's announcement is applied -/
  | srvApply {t} : t.freeOld = false → t.up.ann = .inFlight → t.place = .running →
      Step early t { t with up := { t.up with ann := .applied } }.srvCheck
  /-- the client's announcement meets a server that has not started the session -/
  | srvDiscard {t} : t.freeOld = false → t.up.ann = .inFlight → t.cliSid = t.srvSid + 1 →
      Step early t { t with up := { t.up with ann := .discarded } }
  /-- the client's give-back of an older session arrives -/
  | srvReturnOld {t} : t.freeOld = true → Step early t { t.returned with freeOld := false }
  /-- the client's give-back of its latest session arrives -/
  | srvReturnNew {t} : t.freeOld = false → t.up.ann ≠ .inFlight → t.freeNew = true →
      Step early t { t.returned with freeNew := false }
  /-- the client announces the first session -/
  | cliNotify {t} : t.cliSid = 0 →
      Step early t { t with cliSid := 1, up := {}, phase := .announced }
  /-- the client answers a request -/
  | cliAnswer {t} : t.phase = .idle → t.reqQueued = true → 0 < t.cliSid →
      Step early t { t with
        cliSid := t.cliSid + 1
        up := {}
        phase := .announced
        reqQueued := false
        freeOld := t.freeNew
        freeNew := false }
  /-- the client runs the announced session -/
  | cliRun {t} : t.phase = .announced → Step early t { t with phase := .running }
  /-- bytes arrive at the client -/
  | cliRecv {t} (n : ℕ) : t.phase = .running → 0 < n → t.cliSid = t.srvSid →
      t.down.recv + n ≤ t.down.wrote →
      Step early t { t with down := { t.down with recv := t.down.recv + n } }.cliCheck
  /-- the client takes a request for bytes of the running session -/
  | cliSwallow {t} : t.phase = .running → t.reqQueued = true →
      Step early t { t with swallowed := true, reqQueued := false }
  /-- the bytes of that request are counted behind all bytes of the session -/
  | cliOverrun {t} : t.phase = .running → t.swallowed = true → t.overrun = false →
      Step early t { t with down := { t.down with recv := t.down.wrote }, overrun := true }
  /-- the server's announcement is applied; before the session runs, only one of some bytes -/
  | cliApply {t} : t.down.ann = .inFlight → (t.phase = .running ∨ 0 < t.down.wrote) →
      Step early t { t with down := { t.down with ann := .applied } }.cliCheck
  /-- the local side sends bytes -/
  | locWrite {t} (n : ℕ) : t.phase = .running → t.up.closed = false →
      Step early t { t with up := { t.up with wrote := t.up.wrote + n } }
  /-- the local side closes -/
  | locClose {t} : t.phase = .running → t.up.closed = false →
      Step early t { t with
        up := { t.up with closed := true, ann := .inFlight }
        phase := if t.down.done ∧ t.cliSid = t.srvSid then .idle else t.phase }

/-! ### The invariant -/

/-- What holds of one direction, whatever the session does. -/
structure DirInv (d : Direction) : Prop where
  recv_le : d.recv ≤ d.wrote
  unsent_iff : d.ann = .unsent ↔ d.closed = false
  done_imp : d.done = true → d.ann = .applied ∧ d.recv = d.wrote

/-- **The invariant.**  The two parties are at most one session apart; a party is past a session
only when both its directions are finished at that party, and a give-back in flight belongs to a
session the client has left. -/
@[grind cases]
structure Inv (t : Session) : Prop where
  down : DirInv t.down
  up : DirInv t.up
  sids : t.cliSid = t.srvSid ∨ t.cliSid = t.srvSid + 1
  unclaimed_iff : t.place = .unclaimed ↔ t.srvSid = 0
  freshDown : t.srvSid = 0 → t.down = {}
  freshUp : t.cliSid = 0 → t.up = {}
  /-- while an announced session is not started, the server waits and its last session is over -/
  ahead : t.cliSid = t.srvSid + 1 → (t.place = .unclaimed ∨ t.place = .waiting) ∧
    t.phase ≠ .idle ∧ t.reqQueued = false ∧ t.swallowed = false ∧ t.up.done = false ∧
    t.up.ann ≠ .applied ∧ t.up.recv = 0 ∧ t.freeNew = false ∧ (0 < t.srvSid → t.down.done = true)
  running : t.place = .running → t.cliSid = t.srvSid ∧ ¬ (t.down.closed = true ∧ t.up.done = true)
  /-- a connection the server is done with -/
  ended : t.place = .awaiting ∨ t.place = .free ∨ t.place = .waiting → t.down.closed = true ∧
    (t.cliSid = t.srvSid → t.up.done = true)
  place_ne : t.place = .awaiting ∨ t.place = .free → t.cliSid = t.srvSid
  /-- an idle client is done with its last session -/
  idle : t.phase = .idle → t.cliSid = t.srvSid ∧
    (0 < t.cliSid → t.down.done = true ∧ t.up.closed = true)
  busy : t.phase ≠ .idle → 0 < t.cliSid
  announced : t.phase = .announced → t.up.closed = false ∧ t.up.wrote = 0 ∧ t.swallowed = false ∧
    (t.cliSid = t.srvSid → t.down.done = false ∧ t.down.recv = 0)
  cliRunning : t.phase = .running → t.cliSid = t.srvSid →
    ¬ (t.up.closed = true ∧ t.down.done = true)
  req : t.reqQueued = true → t.place = .waiting ∧ t.swallowed = false
  swallow : t.swallowed = true → t.phase ≠ .announced ∧ t.place = .waiting
  over_run : t.overrun = true → t.swallowed = true ∧ t.phase = .running ∧
    t.down.recv = t.down.wrote ∧ t.down.done = false
  freeNew : t.freeNew = true → t.phase = .idle ∧ 0 < t.cliSid
  freeOld : t.freeOld = true → t.up.ann = .unsent ∨ t.up.ann = .inFlight

theorem dirInv_new : DirInv {} := ⟨Nat.le_refl 0, by decide, by decide⟩

theorem inv_init : Inv {} := by
  constructor <;> first | exact dirInv_new | simp

/-! ### The rules for one direction -/

namespace DirInv

variable {d : Direction}

theorem write (h : DirInv d) (n : ℕ) (hc : d.closed = false) :
    DirInv { d with wrote := d.wrote + n } := by
  obtain ⟨h₁, h₂, h₃⟩ := h
  refine ⟨Nat.le_trans h₁ (Nat.le_add_right _ n), h₂, fun hd => ?_⟩
  rw [(h₂.2 hc)] at h₃
  exact absurd (h₃ hd).1 (by decide)

theorem close (h : DirInv d) (hc : d.closed = false) :
    DirInv { d with closed := true, ann := .inFlight } := by
  obtain ⟨h₁, h₂, h₃⟩ := h
  refine ⟨h₁, by simp, fun hd => ?_⟩
  rw [(h₂.2 hc)] at h₃
  exact absurd (h₃ hd).1 (by decide)

theorem receive (h : DirInv d) {n : ℕ} (hn : d.recv + n ≤ d.wrote) :
    DirInv { d with recv := d.recv + n } :=
  ⟨hn, h.unsent_iff, fun hd => ⟨(h.done_imp hd).1, by have := (h.done_imp hd).2; dsimp only; omega⟩⟩

/-- An announcement in flight is applied or discarded. -/
theorem deliver (h : DirInv d) (ha : d.ann = .inFlight) {a : Announcement} (hne : a ≠ .unsent) :
    DirInv { d with ann := a } := by
  obtain ⟨h₁, h₂, h₃⟩ := h
  refine ⟨h₁, ?_, fun hd => ?_⟩
  · rw [ha] at h₂
    simpa [hne] using h₂
  · rw [(h₃ hd).1] at ha
    exact absurd ha (by decide)

theorem finish (h : DirInv d) (ha : d.ann = .applied) (hr : d.recv = d.wrote) :
    DirInv { d with done := true } := ⟨h.recv_le, h.unsent_iff, fun _ => ⟨ha, hr⟩⟩

theorem overrun (h : DirInv d) : DirInv { d with recv := d.wrote } :=
  ⟨Nat.le_refl _, h.unsent_iff, fun hd => ⟨(h.done_imp hd).1, rfl⟩⟩

end DirInv

/-! ### One step -/

variable {t : Session}

/-- A connection that was claimed has started a session. -/
theorem Inv.srvSid_ne_of_place (h : Inv t) (hp : t.place ≠ .unclaimed) : t.srvSid ≠ 0 :=
  fun h0 => hp (h.unclaimed_iff.2 h0)

theorem Inv.srvSid_ne (h : Inv t) (hp : t.place = .running) : t.srvSid ≠ 0 :=
  h.srvSid_ne_of_place (by simp [hp])

/-- Only a connection that waits has a request in the stream, or lost one. -/
theorem Inv.no_request (h : Inv t) (hp : t.place ≠ .waiting) :
    t.reqQueued = false ∧ t.swallowed = false ∧ t.overrun = false := by
  have hsw : t.swallowed = false := by
    by_contra hsw
    exact hp (h.swallow (by simpa using hsw)).2
  refine ⟨?_, hsw, ?_⟩
  · by_contra hr
    exact hp (h.req (by simpa using hr)).1
  · by_contra ho
    have := (h.over_run (by simpa using ho)).1
    simp [hsw] at this

/-- A new session is requested on a free connection. -/
theorem Inv.request (h : Inv t) (hp : t.place = .free) :
    Inv { t with place := .waiting, reqQueued := true } := by
  have hs : t.cliSid = t.srvSid := h.place_ne (.inr hp)
  have h0 : t.srvSid ≠ 0 := h.srvSid_ne_of_place (by simp [hp])
  have hsw : t.swallowed = false := (h.no_request (by simp [hp])).2.1
  exact { h with
    unclaimed_iff := ⟨fun hw => absurd hw (by simp), fun h0' => absurd h0' h0⟩
    ahead := fun ha => absurd ha (by dsimp only; omega)
    running := fun hw => absurd hw (by simp)
    ended := fun _ => h.ended (.inr (.inl hp))
    place_ne := fun _ => hs
    req := fun _ => ⟨rfl, hsw⟩
    swallow := fun hw => absurd hw (by simp [hsw]) }

/-- The server starts the session the client has announced. -/
theorem Inv.activate (h : Inv t) (hc : t.cliSid = t.srvSid + 1) :
    Inv { t with srvSid := t.srvSid + 1, place := .running, down := {} } := by
  obtain ⟨-, hph, hr, hsw, -⟩ := h.ahead hc
  exact { h with
    down := dirInv_new
    sids := .inl hc
    unclaimed_iff := ⟨fun hw => absurd hw (by simp), fun h0 => absurd h0 (Nat.succ_ne_zero _)⟩
    freshDown := fun _ => rfl
    ahead := fun ha => absurd ha (by dsimp only; omega)
    running := fun _ => ⟨hc, by simp⟩
    ended := fun hw => absurd hw (by simp)
    place_ne := fun _ => hc
    idle := fun hi => absurd hi hph
    announced := fun ha => by
      obtain ⟨hclosed, hwrote, -, -⟩ := h.announced ha
      exact ⟨hclosed, hwrote, hsw, fun _ => ⟨rfl, rfl⟩⟩
    cliRunning := fun _ _ => by simp
    req := fun hw => absurd hw (by simp [hr])
    swallow := fun hw => absurd hw (by simp [hsw])
    over_run := fun ho => absurd (h.over_run ho).1 (by simp [hsw]) }

/-- The public side sends bytes. -/
theorem Inv.pubWrite (h : Inv t) (n : ℕ) (hp : t.place = .running) (hc : t.down.closed = false) :
    Inv { t with down := { t.down with wrote := t.down.wrote + n } } := by
  obtain ⟨-, -, ho⟩ := h.no_request (by simp [hp])
  exact { h with
    down := h.down.write n hc
    freshDown := fun h0 => absurd h0 (h.srvSid_ne hp)
    over_run := fun ho' => absurd ho' (by simp [ho]) }

/-- The public side closes. -/
theorem Inv.pubClose (h : Inv t) (hp : t.place = .running) (hc : t.down.closed = false) :
    Inv { t with
      down := { t.down with closed := true, ann := .inFlight }
      place := if t.up.done then .awaiting else t.place } := by
  have h0 := h.srvSid_ne hp
  have hs := (h.running hp).1
  obtain ⟨hr, hsw, -⟩ := h.no_request (by simp [hp])
  cases hdone : t.up.done with
  | true =>
      exact { h with
        down := h.down.close hc
        unclaimed_iff := ⟨fun hw => absurd hw (by simp), fun h0' => absurd h0' h0⟩
        freshDown := fun h0' => absurd h0' h0
        ahead := fun ha => absurd ha (by dsimp only; omega)
        running := fun hw => absurd hw (by simp)
        ended := fun _ => ⟨rfl, fun _ => hdone⟩
        place_ne := fun _ => hs
        req := fun hw => absurd hw (by simp [hr])
        swallow := fun hw => absurd hw (by simp [hsw]) }
  | false =>
      exact { h with
        down := h.down.close hc
        freshDown := fun h0' => absurd h0' h0
        running := fun _ => ⟨hs, by simp [hdone]⟩
        ended := fun hw => absurd hw (by simp [hp]) }

/-- The server's comparison, in a running session. -/
theorem Inv.srvCheck (h : Inv t) (hp : t.place = .running) : Inv t.srvCheck := by
  have h0 := h.srvSid_ne hp
  have hs := (h.running hp).1
  obtain ⟨hr, hsw, -⟩ := h.no_request (by simp [hp])
  unfold Session.srvCheck srvRemote
  split
  · rename_i hc
    have hup := h.up.finish hc.1 hc.2
    cases hclosed : t.down.closed with
    | true =>
        exact { h with
          up := hup
          unclaimed_iff := ⟨fun hw => absurd hw (by simp), fun h0' => absurd h0' h0⟩
          freshUp := fun h0' => absurd h0' (by dsimp only; omega)
          ahead := fun ha => absurd ha (by dsimp only; omega)
          running := fun hw => absurd hw (by simp)
          ended := fun _ => ⟨hclosed, fun _ => rfl⟩
          place_ne := fun _ => hs
          req := fun hw => absurd hw (by simp [hr])
          swallow := fun hw => absurd hw (by simp [hsw]) }
    | false =>
        exact { h with
          up := hup
          freshUp := fun h0' => absurd h0' (by dsimp only; omega)
          ahead := fun ha => absurd ha (by dsimp only; omega)
          running := fun _ => ⟨hs, by simp [hclosed]⟩
          ended := fun hw => absurd hw (by simp [hp]) }
  · exact h

/-- The client gives the connection back. -/
theorem Inv.returned (h : Inv t) : Inv t.returned := by
  unfold Session.returned
  split
  · rename_i hp
    have h0 := h.srvSid_ne_of_place (by simp [hp])
    have hs := h.place_ne (.inl hp)
    obtain ⟨hr, hsw, -⟩ := h.no_request (by simp [hp])
    exact { h with
      unclaimed_iff := ⟨fun hw => absurd hw (by simp), fun h0' => absurd h0' h0⟩
      ahead := fun ha => absurd ha (by dsimp only; omega)
      running := fun hw => absurd hw (by simp)
      ended := fun _ => h.ended (.inl hp)
      place_ne := fun _ => hs
      req := fun hw => absurd hw (by simp [hr])
      swallow := fun hw => absurd hw (by simp [hsw]) }
  · exact h

theorem Inv.returnOld (h : Inv t) : Inv { t.returned with freeOld := false } :=
  { h.returned with freeOld := fun hf => absurd hf (by simp) }

theorem Inv.returnNew (h : Inv t) (hn : t.freeNew = true) :
    Inv { t.returned with freeNew := false } := by
  have hr := h.returned
  refine { hr with
    ahead := fun hc => ?_
    freeNew := fun hf => absurd hf (by simp) }
  have hf : t.returned.freeNew = false := (hr.ahead hc).2.2.2.2.2.2.2.1
  rw [returned_freeNew, hn] at hf
  exact absurd hf (by simp)

/-- The client's comparison; it can only succeed while the session runs on both sides. -/
theorem Inv.cliCheck (h : Inv t) (hp : t.CliComplete → t.phase = .running ∧ t.cliSid = t.srvSid) :
    Inv t.cliCheck := by
  unfold Session.cliCheck cliRemote
  split
  · rename_i hc
    obtain ⟨hph, hs⟩ := hp hc
    have hpos : 0 < t.cliSid := h.busy (by simp [hph])
    have hdown := h.down.finish hc.1 hc.2.1
    cases hclosed : t.up.closed with
    | true =>
        exact { h with
          down := hdown
          freshDown := fun h0 => absurd h0 (by dsimp only; omega)
          ahead := fun ha => absurd ha (by dsimp only; omega)
          idle := fun _ => ⟨hs, fun _ => ⟨rfl, hclosed⟩⟩
          busy := fun hw => absurd rfl hw
          announced := fun hw => absurd hw (by simp)
          cliRunning := fun hw => absurd hw (by simp)
          swallow := fun hw => ⟨by simp, (h.swallow hw).2⟩
          over_run := fun ho => absurd ho (by simp [hc.2.2])
          freeNew := fun _ => ⟨rfl, hpos⟩ }
    | false =>
        exact { h with
          down := hdown
          freshDown := fun h0 => absurd h0 (by dsimp only; omega)
          ahead := fun ha => absurd ha (by dsimp only; omega)
          idle := fun hw => absurd hw (by simp [hph])
          announced := fun hw => absurd hw (by simp [hph])
          cliRunning := fun _ _ => by simp [hclosed]
          over_run := fun ho => absurd ho (by simp [hc.2.2]) }
  · exact h

/-- An announcement of the server in flight belongs to the session both parties are in. -/
theorem Inv.sids_of_inFlight (h : Inv t) (ha : t.down.ann = .inFlight) : t.cliSid = t.srvSid := by
  rcases h.sids with hs | hs
  · exact hs
  · rcases Nat.eq_zero_or_pos t.srvSid with h0 | hpos
    · rw [h.freshDown h0] at ha
      exact absurd ha (by simp)
    · rw [(h.down.done_imp ((h.ahead hs).2.2.2.2.2.2.2.2 hpos)).1] at ha
      exact absurd ha (by simp)

/-- An announcement of the server in flight finds the client in the session. -/
theorem Inv.phase_ne_of_inFlight (h : Inv t) (ha : t.down.ann = .inFlight) : t.phase ≠ .idle := by
  intro hidle
  have hs := h.sids_of_inFlight ha
  rcases Nat.eq_zero_or_pos t.cliSid with h0 | hpos
  · rw [h.freshDown (by omega)] at ha
    exact absurd ha (by simp)
  · rw [(h.down.done_imp ((h.idle hidle).2 hpos).1).1] at ha
    exact absurd ha (by simp)

/-- Bytes arrive at the server. -/
theorem Inv.receiveUp (h : Inv t) (hp : t.place = .running) {n : ℕ}
    (hle : t.up.recv + n ≤ t.up.wrote) :
    Inv { t with up := { t.up with recv := t.up.recv + n } } := by
  have hs := (h.running hp).1
  have h0 := h.srvSid_ne hp
  exact { h with
    up := h.up.receive hle
    freshUp := fun h0' => absurd h0' (by dsimp only; omega)
    ahead := fun ha => absurd ha (by dsimp only; omega) }

/-- The client's announcement reaches the running server. -/
theorem Inv.applyUp (h : Inv t) (hf : t.freeOld = false) (ha : t.up.ann = .inFlight)
    (hp : t.place = .running) :
    Inv { t with up := { t.up with ann := .applied } } := by
  have hs := (h.running hp).1
  have h0 := h.srvSid_ne hp
  exact { h with
    up := h.up.deliver ha (by simp)
    freshUp := fun h0' => absurd h0' (by dsimp only; omega)
    ahead := fun hc => absurd hc (by dsimp only; omega)
    freeOld := fun hf' => absurd hf' (by simp [hf]) }

/-- The client's announcement meets a server that has not started the session. -/
theorem Inv.discardUp (h : Inv t) (hf : t.freeOld = false) (ha : t.up.ann = .inFlight)
    (hc : t.cliSid = t.srvSid + 1) :
    Inv { t with up := { t.up with ann := .discarded } } := by
  obtain ⟨hpl, hph, hr, hsw, hdone, -, hrest⟩ := h.ahead hc
  exact { h with
    up := h.up.deliver ha (by simp)
    freshUp := fun h0 => absurd h0 (by dsimp only; omega)
    ahead := fun _ => ⟨hpl, hph, hr, hsw, hdone, by simp, hrest⟩
    freeOld := fun hf' => absurd hf' (by simp [hf]) }

/-- Bytes arrive at the client. -/
theorem Inv.receiveDown (h : Inv t) (hp : t.phase = .running) (hc : t.cliSid = t.srvSid) {n : ℕ}
    (hle : t.down.recv + n ≤ t.down.wrote) :
    Inv { t with down := { t.down with recv := t.down.recv + n } } := by
  have hpos : 0 < t.cliSid := h.busy (by simp [hp])
  exact { h with
    down := h.down.receive hle
    freshDown := fun h0 => absurd h0 (by dsimp only; omega)
    announced := fun ha => absurd ha (by simp [hp])
    over_run := fun ho => by
      obtain ⟨hsw, hrun, hrecv, hdone⟩ := h.over_run ho
      exact ⟨hsw, hrun, by dsimp only; omega, hdone⟩ }

/-- The server's announcement reaches the client. -/
theorem Inv.applyDown (h : Inv t) (ha : t.down.ann = .inFlight) :
    Inv { t with down := { t.down with ann := .applied } } := by
  have h0 : t.srvSid ≠ 0 := by
    intro h0
    rw [h.freshDown h0] at ha
    exact absurd ha (by simp)
  exact { h with
    down := h.down.deliver ha (by simp)
    freshDown := fun h0' => absurd h0' h0 }

/-- The client announces its next session, on a connection that is new or was requested. -/
theorem Inv.announce (h : Inv t) (hs : t.cliSid = t.srvSid)
    (hpl : t.place = .unclaimed ∨ t.place = .waiting) (hsw : t.swallowed = false)
    (hdone : 0 < t.srvSid → t.down.done = true) (f : Bool) :
    Inv { t with
      cliSid := t.cliSid + 1
      up := {}
      phase := .announced
      reqQueued := false
      freeOld := f
      freeNew := false } :=
  { h with
    up := dirInv_new
    sids := .inr (congrArg (· + 1) hs)
    freshUp := fun _ => rfl
    ahead := fun _ => ⟨hpl, by simp, rfl, hsw, rfl, by simp, rfl, rfl, hdone⟩
    running := fun hw => absurd hw (by rcases hpl with hpl | hpl <;> simp [hpl])
    ended := fun hw => ⟨(h.ended hw).1, fun hs' => absurd hs' (by dsimp only; omega)⟩
    place_ne := fun hw => absurd hw (by rcases hpl with hpl | hpl <;> simp [hpl])
    idle := fun hw => absurd hw (by simp)
    busy := fun _ => Nat.succ_pos _
    announced := fun _ => ⟨rfl, rfl, hsw, fun hs' => absurd hs' (by dsimp only; omega)⟩
    cliRunning := fun hw => absurd hw (by simp)
    req := fun hw => absurd hw (by simp)
    swallow := fun hw => absurd hw (by simp [hsw])
    over_run := fun ho => absurd (h.over_run ho).1 (by simp [hsw])
    freeNew := fun hw => absurd hw (by simp)
    freeOld := fun _ => .inl rfl }

/-- The client announces the first session. -/
theorem Inv.notify (h : Inv t) (hc : t.cliSid = 0) :
    Inv { t with cliSid := 1, up := {}, phase := .announced } := by
  have hs : t.cliSid = t.srvSid := by
    rcases h.sids with hs | hs <;> omega
  have hpl : t.place = .unclaimed := h.unclaimed_iff.2 (hs ▸ hc)
  obtain ⟨hr, hsw, -⟩ := h.no_request (by simp [hpl])
  have hf : t.freeNew = false := by
    by_contra hf
    exact absurd (h.freeNew (by simpa using hf)).2 (by omega)
  have he : { t with
      cliSid := t.cliSid + 1
      up := {}
      phase := .announced
      reqQueued := false
      freeOld := t.freeOld
      freeNew := false } = { t with cliSid := 1, up := {}, phase := .announced } := by
    simp [hc, hr, hf]
  exact he ▸ h.announce hs (.inl hpl) hsw (fun hpos => absurd hpos (by omega)) t.freeOld

/-- The client answers a request. -/
theorem Inv.answer (h : Inv t) (hp : t.phase = .idle) (hr : t.reqQueued = true)
    (hpos : 0 < t.cliSid) :
    Inv { t with
      cliSid := t.cliSid + 1
      up := {}
      phase := .announced
      reqQueued := false
      freeOld := t.freeNew
      freeNew := false } := by
  obtain ⟨hs, hdone⟩ := h.idle hp
  obtain ⟨hpl, hsw⟩ := h.req hr
  exact h.announce hs (.inr hpl) hsw (fun _ => (hdone hpos).1) t.freeNew

/-- The client runs the announced session. -/
theorem Inv.cliRun (h : Inv t) (hp : t.phase = .announced) :
    Inv { t with phase := .running } := by
  obtain ⟨hclosed, -, hsw, -⟩ := h.announced hp
  exact { h with
    ahead := fun hc => by
      obtain ⟨hpl, -, hrest⟩ := h.ahead hc
      exact ⟨hpl, by simp, hrest⟩
    idle := fun hw => absurd hw (by simp)
    busy := fun _ => h.busy (by simp [hp])
    announced := fun hw => absurd hw (by simp)
    cliRunning := fun _ _ => by simp [hclosed]
    swallow := fun hw => absurd hw (by simp [hsw])
    over_run := fun ho => absurd (h.over_run ho).1 (by simp [hsw])
    freeNew := fun hf => absurd (h.freeNew hf).1 (by simp [hp]) }

/-- The client takes a request for bytes of the running session. -/
theorem Inv.takeRequest (h : Inv t) (hp : t.phase = .running) (hr : t.reqQueued = true) :
    Inv { t with swallowed := true, reqQueued := false } := by
  obtain ⟨hpl, hsw⟩ := h.req hr
  exact { h with
    ahead := fun hc => absurd (h.ahead hc).2.2.1 (by simp [hr])
    announced := fun hw => absurd hw (by simp [hp])
    req := fun hw => absurd hw (by simp)
    swallow := fun _ => ⟨by simp [hp], hpl⟩
    over_run := fun ho => absurd (h.over_run ho).1 (by simp [hsw]) }

/-- The bytes of that request are counted behind all bytes of the session. -/
theorem Inv.countRequest (h : Inv t) (hp : t.phase = .running) (hw : t.swallowed = true) :
    Inv { t with down := { t.down with recv := t.down.wrote }, overrun := true } := by
  have hpl : t.place = .waiting := (h.swallow hw).2
  have hs : t.cliSid = t.srvSid := by
    rcases h.sids with hs | hs
    · exact hs
    · exact absurd (h.ahead hs).2.2.2.1 (by simp [hw])
  -- a client that were done with the session would be idle
  have hclosed : t.up.closed = true := by
    by_contra hclosed
    have hann := (h.up.done_imp ((h.ended (.inr (.inr hpl))).2 hs)).1
    rw [h.up.unsent_iff.2 (by simpa using hclosed)] at hann
    exact absurd hann (by simp)
  have hdone : t.down.done = false := by
    by_contra hdone
    exact h.cliRunning hp hs ⟨hclosed, by simpa using hdone⟩
  exact { h with
    down := h.down.overrun
    freshDown := fun h0 => absurd h0 (h.srvSid_ne_of_place (by simp [hpl]))
    announced := fun ha => absurd ha (by simp [hp])
    over_run := fun _ => ⟨hw, hp, rfl, hdone⟩ }

/-- The local side sends bytes. -/
theorem Inv.locWrite (h : Inv t) (n : ℕ) (hp : t.phase = .running) (hc : t.up.closed = false) :
    Inv { t with up := { t.up with wrote := t.up.wrote + n } } := by
  have hpos : 0 < t.cliSid := h.busy (by simp [hp])
  exact { h with
    up := h.up.write n hc
    freshUp := fun h0 => absurd h0 (by dsimp only; omega)
    announced := fun ha => absurd ha (by simp [hp]) }

/-- The local side closes. -/
theorem Inv.locClose (h : Inv t) (hp : t.phase = .running) (hc : t.up.closed = false) :
    Inv { t with
      up := { t.up with closed := true, ann := .inFlight }
      phase := if t.down.done ∧ t.cliSid = t.srvSid then .idle else t.phase } := by
  have hpos : 0 < t.cliSid := h.busy (by simp [hp])
  have hf : t.freeNew = false := by
    by_contra hf
    exact absurd (h.freeNew (by simpa using hf)).1 (by simp [hp])
  have hup := h.up.close hc
  split
  · rename_i hend
    obtain ⟨hdone, hs⟩ := hend
    exact { h with
      up := hup
      freshUp := fun h0 => absurd h0 (by dsimp only; omega)
      ahead := fun ha => absurd ha (by dsimp only; omega)
      idle := fun _ => ⟨hs, fun _ => ⟨hdone, rfl⟩⟩
      busy := fun hw => absurd rfl hw
      announced := fun hw => absurd hw (by simp)
      cliRunning := fun hw => absurd hw (by simp)
      swallow := fun hw => ⟨by simp, (h.swallow hw).2⟩
      over_run := fun ho => absurd (h.over_run ho).2.2.2 (by simp [hdone])
      freeNew := fun hw => absurd hw (by simp [hf])
      freeOld := fun _ => .inr rfl }
  · rename_i hopen
    exact { h with
      up := hup
      freshUp := fun h0 => absurd h0 (by dsimp only; omega)
      ahead := fun ha => by
        obtain ⟨hpl, hph, hr, hsw, hdone, -, hrest⟩ := h.ahead ha
        exact ⟨hpl, hph, hr, hsw, hdone, by simp, hrest⟩
      idle := fun hw => absurd hw (by simp [hp])
      announced := fun hw => absurd hw (by simp [hp])
      cliRunning := fun _ hs hend => hopen ⟨hend.2, hs⟩
      freeOld := fun _ => .inr rfl }

/-- **One step preserves the invariant**, by the rules for the steps. -/
theorem Inv.step {early : Bool} {t' : Session} (h : Inv t) (hs : Step early t t') : Inv t' := by
  cases hs with
  | request hp he => exact h.request hp
  | activate hc => exact h.activate hc
  | pubWrite n hp hc => exact h.pubWrite n hp hc
  | pubClose hp hc => exact h.pubClose hp hc
  | srvRecv n hp hn hle => exact (h.receiveUp hp hle).srvCheck hp
  | srvApply hf ha hp => exact (h.applyUp hf ha hp).srvCheck hp
  | srvDiscard hf ha hc => exact h.discardUp hf ha hc
  | srvReturnOld hf => exact h.returnOld
  | srvReturnNew hf ha hn => exact h.returnNew hn
  | cliNotify hc => exact h.notify hc
  | cliAnswer hp hr hpos => exact h.answer hp hr hpos
  | cliRun hp => exact h.cliRun hp
  | cliRecv n hp hn hc hle => exact (h.receiveDown hp hc hle).cliCheck fun _ => ⟨hp, hc⟩
  | cliSwallow hp hr => exact h.takeRequest hp hr
  | cliOverrun hp hw ho => exact h.countRequest hp hw
  | cliApply ha hp =>
      have hs := h.sids_of_inFlight ha
      refine (h.applyDown ha).cliCheck fun hcomp => ⟨?_, hs⟩
      -- an announced session has received nothing, so an announcement of bytes finds it incomplete
      rcases hp with hp | hp
      · exact hp
      · have hrec : t.down.recv = t.down.wrote := hcomp.2.1
        cases hph : t.phase with
        | running => rfl
        | announced =>
            have hzero := ((h.announced hph).2.2.2 hs).2
            omega
        | idle => exact absurd hph (h.phase_ne_of_inFlight ha)
  | locWrite n hp hc => exact h.locWrite n hp hc
  | locClose hp hc => exact h.locClose hp hc

/-- The invariant is preserved along runs. -/
theorem Inv.steps {early : Bool} {t' : Session} (h : Inv t)
    (hs : Relation.ReflTransGen (Step early) t t') : Inv t' := by
  induction hs with
  | refl => exact h
  | tail _ hs ih => exact ih.step hs

/-- **The invariant holds in every reachable state.** -/
theorem inv_of_reach {early : Bool} (h : Relation.ReflTransGen (Step early) {} t) : Inv t :=
  inv_init.steps h

/-! ### Without early requests -/

/-- A requested connection is idle at the client, and no request was taken for bytes. -/
structure Settled (t : Session) : Prop where
  waiting : t.place = .waiting → t.cliSid = t.srvSid → t.phase = .idle
  swallowed : t.swallowed = false

theorem Settled.step {t' : Session} (hi : Inv t) (h : Settled t) (hs : Step false t t') :
    Settled t' := by
  obtain ⟨h₁, h₂⟩ := h
  cases hs with
  | srvRecv n hp hn hle =>
      simp only [srvCheck, srvRemote]
      constructor <;> split <;> grind
  | srvApply hf ha hp =>
      simp only [srvCheck, srvRemote]
      constructor <;> split <;> grind
  | srvReturnOld hf =>
      simp only [returned]
      constructor <;> split <;> grind
  | srvReturnNew hf ha hn =>
      simp only [returned]
      constructor <;> split <;> grind
  | cliRecv n hp hn hc hle =>
      simp only [cliCheck, cliRemote]
      constructor <;> split <;> grind
  | cliApply ha hp =>
      simp only [cliCheck, cliRemote]
      constructor <;> split <;> grind
  | _ => constructor <;> grind

/-- **Without early requests, a requested connection is idle at the client.** -/
theorem settled_of_reach (h : Relation.ReflTransGen (Step false) {} t) : Settled t := by
  induction h with
  | refl => exact ⟨by decide, rfl⟩
  | tail hr hs ih => exact ih.step (inv_of_reach hr) hs

end Session

end ProxySocket

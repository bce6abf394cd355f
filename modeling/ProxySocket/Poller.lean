/-
**The channels that an `Epoll` knows.**

The kernel keeps the descriptors that are registered with an epoll instance, and `fd_channel_` keeps the
channels for them.  `PollAdd`, `PollMod` and `PollDel` ask the kernel first, and change the array according
to its answer.

Main definitions:

* `epollCtl` — what the kernel does for the three operations;
* `Epoll`, `Epoll.pollAdd`, `Epoll.pollMod`, `Epoll.pollDel` — the three functions;
* `Epoll.getReadyChannels` — the channels that events of the kernel lead to;
* `Agrees` — the array has a channel exactly for the registered descriptors, and it is the one of the last
  `PollAdd` that succeeded;
* `DelFails` — the condition: `PollDel` is not called for a registered descriptor.

Main results:

* `getReadyChannels_of_agrees` — what the agreement is good for;
* `stale_of_pollDel` — what a `PollDel` that succeeds leaves behind;
* `poller_agrees_iff` — **the two registries agree after every call exactly when no `PollDel` succeeds**.
-/

import ProxySocket.Lts
import Mathlib.Logic.Function.Basic

set_option relaxedAutoImplicit false
set_option autoImplicit false

namespace ProxySocket

open Function (update)

/-! ### The kernel -/

/-- `MAXFD`. -/
def maxFd : ℕ := 10000

/-- A descriptor below `MAXFD`. -/
abbrev PollFd := Fin maxFd

/-- The operations of `epoll_ctl(2)`. -/
inductive EpollOp
  | add
  | mod
  | del
deriving DecidableEq, Repr

/-- The descriptors that are registered with an epoll instance, with the events that are waited for. -/
abbrev Registry := PollFd → Option UInt32

/-- `epoll_ctl(2)`, where no value stands for `-1`: a descriptor is added when it is not registered, and
the kernel may refuse to; it is modified or deleted when it is registered. -/
def epollCtl (r : Registry) (op : EpollOp) (fd : PollFd) (events : UInt32) (refused : Bool) :
    Option Registry :=
  match op, r fd with
  | .add, none => if refused then none else some (update r fd (some events))
  | .mod, some _ => some (update r fd (some events))
  | .del, some _ => some (update r fd none)
  | _, _ => none

/-! ### The poller -/

/-- A channel as the poller sees it: the pointer, its descriptor and its events. -/
structure PollChannel (χ : Type) where
  channel : χ
  fd : PollFd
  events : UInt32

/-- An `Epoll`, with the registry of the kernel. -/
structure Epoll (χ : Type) where
  fdChannel : PollFd → Option χ := fun _ => none
  registry : Registry := fun _ => none
  /-- the channel of the last `PollAdd` for a descriptor that succeeded -/
  lastAdded : PollFd → Option χ := fun _ => none

namespace Epoll

variable {χ : Type}

/-- `PollAdd`.  When the array had the last pointer to another channel, `~Channel` closes its descriptor,
which takes it out of the registry. -/
def pollAdd (p : Epoll χ) (c : PollChannel χ) (refused lastPointer : Bool) : Epoll χ :=
  match epollCtl p.registry .add c.fd c.events refused with
  | none => p
  | some r =>
      { fdChannel := update p.fdChannel c.fd (some c.channel)
        registry := if (p.fdChannel c.fd).isSome && lastPointer then update r c.fd none else r
        lastAdded := update p.lastAdded c.fd (some c.channel) }

/-- `PollMod`. -/
def pollMod (p : Epoll χ) (c : PollChannel χ) : Epoll χ :=
  match epollCtl p.registry .mod c.fd c.events false with
  | none => { p with fdChannel := update p.fdChannel c.fd none }
  | some r => { p with registry := r }

/-- `PollDel`. -/
def pollDel (p : Epoll χ) (c : PollChannel χ) : Epoll χ :=
  match epollCtl p.registry .del c.fd c.events false with
  | none => { p with fdChannel := update p.fdChannel c.fd none }
  | some r => { p with registry := r }

/-- `getReadyChannels`: the channels for the events of the kernel, with these as their `revents_`. -/
def getReadyChannels (p : Epoll χ) (events : List (PollFd × UInt32)) : List (χ × UInt32) :=
  events.filterMap fun ev => (p.fdChannel ev.1).map fun ch => (ch, ev.2)

end Epoll

/-- A call on an `Epoll`. -/
inductive PollCall (χ : Type)
  /-- with whether the kernel refuses, and whether the array has the last pointer to its channel -/
  | pollAdd (c : PollChannel χ) (refused lastPointer : Bool)
  | pollMod (c : PollChannel χ)
  | pollDel (c : PollChannel χ)

/-- The calls on a new `Epoll`. -/
def pollLts (χ : Type) : Lts (Epoll χ) (PollCall χ) where
  init := {}
  step p
    | .pollAdd c refused lastPointer => some (p.pollAdd c refused lastPointer)
    | .pollMod c => some (p.pollMod c)
    | .pollDel c => some (p.pollDel c)

variable {χ : Type}

/-- The array has a channel exactly for the descriptors that are registered, the one of the last `PollAdd`
that succeeded. -/
def Agrees (p : Epoll χ) : Prop :=
  ∀ fd, ((p.fdChannel fd).isSome ↔ (p.registry fd).isSome) ∧
    ((p.registry fd).isSome → p.fdChannel fd = p.lastAdded fd)

/-- The state after a call has the property. -/
def After (I : Epoll χ → Prop) (p : Epoll χ) (a : PollCall χ) : Prop :=
  ∀ p', (pollLts χ).step p a = some p' → I p'

/-- A call of `PollDel` fails: its descriptor is not registered. -/
def DelFails (p : Epoll χ) : PollCall χ → Prop
  | .pollDel c => p.registry c.fd = none
  | _ => True

/-! ### One call -/

section Calls

variable {p : Epoll χ}

/-- **What the agreement is good for**: the events of registered descriptors all lead to a channel, and to
the one that was added last. -/
theorem getReadyChannels_of_agrees (h : Agrees p) {events : List (PollFd × UInt32)}
    (hreg : ∀ ev ∈ events, (p.registry ev.1).isSome) :
    (p.getReadyChannels events).map (fun r => (some r.1, r.2)) =
      events.map fun ev => (p.lastAdded ev.1, ev.2) := by
  induction events with
  | nil => rfl
  | cons ev events ih =>
      have hev := hreg ev List.mem_cons_self
      obtain ⟨ch, hch⟩ := Option.isSome_iff_exists.1 ((h ev.1).1.2 hev)
      have hlast := (h ev.1).2 hev
      have ih := ih fun ev' hmem => hreg ev' (List.mem_cons_of_mem _ hmem)
      rw [Epoll.getReadyChannels, List.filterMap_cons, hch]
      rw [List.map_cons, ← hlast, hch]
      exact congrArg _ ih

/-- A change at one descriptor keeps the agreement at the others. -/
theorem agrees_of_update (h : Agrees p) {p' : Epoll χ} (fd : PollFd)
    (hother : ∀ fd' ≠ fd, p'.fdChannel fd' = p.fdChannel fd' ∧ p'.registry fd' = p.registry fd' ∧
      p'.lastAdded fd' = p.lastAdded fd')
    (hfd : ((p'.fdChannel fd).isSome ↔ (p'.registry fd).isSome) ∧
      ((p'.registry fd).isSome → p'.fdChannel fd = p'.lastAdded fd)) : Agrees p' := by
  intro fd'
  by_cases hk : fd' = fd
  · rw [hk]
    exact hfd
  · obtain ⟨h₁, h₂, h₃⟩ := hother fd' hk
    rw [h₁, h₂, h₃]
    exact h fd'

theorem Agrees.pollAdd (h : Agrees p) (c : PollChannel χ) (refused lastPointer : Bool) :
    Agrees (p.pollAdd c refused lastPointer) := by
  unfold Epoll.pollAdd epollCtl
  cases hr : p.registry c.fd with
  | some ev => exact h
  | none =>
      -- the array has no channel yet
      have hnone : (p.fdChannel c.fd).isSome = false := by
        rw [Bool.eq_false_iff, ne_eq, (h c.fd).1, hr]
        exact Bool.false_ne_true
      cases refused with
      | true => exact h
      | false =>
          simp only [Bool.false_eq_true, if_false, hnone, Bool.false_and]
          refine agrees_of_update h c.fd (fun fd' hk => ?_) ?_
          · simp only [Function.update_of_ne hk, and_self]
          · simp only [Function.update_self, Option.isSome_some, implies_true, and_self]

theorem Agrees.pollMod (h : Agrees p) (c : PollChannel χ) : Agrees (p.pollMod c) := by
  unfold Epoll.pollMod epollCtl
  cases hr : p.registry c.fd with
  | some ev =>
      refine agrees_of_update h c.fd (fun fd' hk => ?_) ?_
      · simp only [Function.update_of_ne hk, and_self]
      · have hfd := h c.fd
        rw [hr] at hfd
        simpa only [Function.update_self, Option.isSome_some] using hfd
  | none =>
      refine agrees_of_update h c.fd (fun fd' hk => ?_) ?_
      · simp only [Function.update_of_ne hk, and_self]
      · simp [hr]

/-- A `PollDel` that fails takes the channel out of the array, where there was none. -/
theorem Agrees.pollDel (h : Agrees p) {c : PollChannel χ} (hr : p.registry c.fd = none) :
    Agrees (p.pollDel c) := by
  unfold Epoll.pollDel epollCtl
  rw [hr]
  refine agrees_of_update h c.fd (fun fd' hk => ?_) ?_
  · simp only [Function.update_of_ne hk, and_self]
  · simp [hr]

/-- **A `PollDel` that succeeds** takes the descriptor out of the registry and leaves its channel in the
array. -/
theorem stale_of_pollDel {c : PollChannel χ} (hr : (p.registry c.fd).isSome) :
    (p.pollDel c).registry c.fd = none ∧ (p.pollDel c).fdChannel = p.fdChannel := by
  obtain ⟨ev, hev⟩ := Option.isSome_iff_exists.1 hr
  unfold Epoll.pollDel epollCtl
  rw [hev]
  exact ⟨Function.update_self .., rfl⟩

/-- **One call** keeps the agreement exactly when it is not a `PollDel` that succeeds. -/
theorem agrees_after_iff (h : Agrees p) (a : PollCall χ) : After Agrees p a ↔ DelFails p a := by
  cases a with
  | pollAdd c refused lastPointer =>
      refine iff_of_true (fun p' hp => ?_) trivial
      rw [← Option.some.inj hp]
      exact h.pollAdd c refused lastPointer
  | pollMod c =>
      refine iff_of_true (fun p' hp => ?_) trivial
      rw [← Option.some.inj hp]
      exact h.pollMod c
  | pollDel c =>
      constructor
      · intro hafter
        by_contra hreg
        have hsome := Option.isSome_iff_ne_none.2 hreg
        obtain ⟨hgone, hkept⟩ := stale_of_pollDel hsome
        have hfd := (hafter _ rfl c.fd).1.1
        rw [hkept, hgone] at hfd
        exact absurd (hfd ((h c.fd).1.2 hsome)) Bool.false_ne_true
      · intro hr p' hp
        rw [← Option.some.inj hp]
        exact h.pollDel hr

end Calls

/-! ### Runs -/

/-- Every call is possible. -/
theorem exists_exec_poll (p : Epoll χ) (as : List (PollCall χ)) :
    ∃ p', (pollLts χ).exec p as = some p' := by
  induction as generalizing p with
  | nil => exact ⟨p, rfl⟩
  | cons a as ih =>
      obtain ⟨p₁, h₁⟩ : ∃ p₁, (pollLts χ).step p a = some p₁ := by
        cases a <;> exact ⟨_, rfl⟩
      obtain ⟨p', hp⟩ := ih p₁
      exact ⟨p', (Lts.exec_cons_eq_some _).2 ⟨p₁, h₁, hp⟩⟩

/-- **When the two registries agree.**  In every sequence of calls, on any channels, the array and the
kernel agree after every call exactly when `PollDel` is never called for a registered descriptor. -/
theorem poller_agrees_iff (as : List (PollCall χ)) :
    (pollLts χ).AllSteps (After Agrees) (pollLts χ).init as ↔
      (pollLts χ).AllSteps DelFails (pollLts χ).init as := by
  obtain ⟨p, hp⟩ := exists_exec_poll (pollLts χ).init as
  refine Lts.allSteps_iff (g := fun _ _ => True) (fun s a s' hr _ _ => ?_) hp (Lts.allSteps_true _ _)
  have hagrees : Agrees s := by
    refine hr.invariant (I := Agrees) (fun fd => ?_) fun s a s' _ hI hg hs => ?_
    · exact ⟨Iff.rfl, fun hreg => absurd hreg Bool.false_ne_true⟩
    · exact (agrees_after_iff hI a).2 hg.2 s' hs
  exact agrees_after_iff hagrees a

/-- The channel of the descriptor 5. -/
def channelFive : PollChannel Unit := ⟨(), ⟨5, by decide⟩, 1⟩

/-- A channel is added and deleted. -/
theorem poller_not_agrees :
    ¬ ∀ (χ : Type) (as : List (PollCall χ)),
      (pollLts χ).AllSteps (After Agrees) (pollLts χ).init as := by
  intro h
  have hall := h Unit [.pollAdd channelFive false false, .pollDel channelFive]
  have hfd := (hall.2 _ rfl).1 _ rfl channelFive.fd
  exact absurd hfd.1 (by decide +kernel)

end ProxySocket

/-
**Starting and closing a thread.**

`ThreadControl` has one flag for two purposes: the thread is to go on, and `Close` has to wait for
it.  `Exit` clears the flag and waits for nobody.  `Close` waits for the semaphore while it holds
the mutex, which `Exit` locks.

Main definitions:

* `ControlSys`, `controlLts` — a `ThreadControl`, its owner, and the threads that were started;
* `CloseWaits`, `NoLiveExit` — what a return of `Close` promises, and the condition for it;
* `Deadlocked`, `ExitApart` — two threads that wait for each other, and what keeps them apart.

Main results:

* `ControlInv.step` — the states that are reached while no `Exit` clears the flag;
* `close_waits_iff` — **`Close` waits for the thread unless `Exit` came first**;
* `CreditInv.step` — what is left in the semaphore, whoever clears the flag;
* `exit_apart_iff` — **when `Close` and `Exit` do not block each other**.
-/

import Mathlib.Data.Int.Order.Basic
import ProxySocket.ThreadStop

set_option relaxedAutoImplicit false
set_option autoImplicit false

namespace ProxySocket

/-! ### The owner and the threads -/

/-- Where the owner is. -/
inductive CloserPc
  | idle
  /-- in `Close`, in front of `_sem.wait()`: the mutex is locked and the flag is cleared -/
  | locked
  /-- in `_sem.wait()`, at the condition variable -/
  | blocked
deriving DecidableEq, Repr

/-- Where a thread is in `ThreadControl::Run`. -/
inductive RunPc
  /-- in `_Create` -/
  | create
  /-- in `_Run` -/
  | run
  /-- in `_Run`, in a call of `Exit` in front of the mutex -/
  | exiting
  /-- in `_Destory` -/
  | destroy
  /-- at `_sem.wakeup()` -/
  | wakeup
  | done
deriving DecidableEq, Repr

/-- `_Run` and `_Destory` have returned. -/
def RunPc.Finished (pc : RunPc) : Prop := pc = .wakeup ∨ pc = .done

instance RunPc.instDecidableFinished (pc : RunPc) : Decidable pc.Finished :=
  inferInstanceAs (Decidable (_ ∨ _))

/-- A `ThreadControl` with its owner and the threads it has started, the last one last. -/
structure ControlSys where
  ctl : ThreadControl := {}
  owner : CloserPc := .idle
  workers : List RunPc := []
deriving DecidableEq, Repr

/-- The steps of all threads. -/
inductive ControlAct
  | start
  /-- `Close` up to `_sem.wait()` -/
  | close
  /-- `_sem.wait()` up to its return or to the condition variable -/
  | semWait
  /-- `_sem.wait()` from the condition variable on -/
  | semWake
  /-- `Exit`, called by some other thread -/
  | exit
  /-- a thread goes to the next part of `ThreadControl::Run` -/
  | advance (i : ℕ)
  /-- a thread calls `Exit` in `_Run` -/
  | callExit (i : ℕ)
  /-- the section of that call under the mutex -/
  | exitBy (i : ℕ)
deriving DecidableEq, Repr

namespace ControlSys

/-- The section of `Exit` under the mutex. -/
def clearRun (s : ControlSys) : ControlSys := { s with ctl := { s.ctl with isRun := false } }

/-- `_sem.wait()` returns, and `Close` with it. -/
def closeReturns (s : ControlSys) (sem : ThreadSemaphore) : ControlSys :=
  { s with ctl := { s.ctl with locked := false, sem := sem }, owner := .idle }

/-- One step.  A section under the mutex is possible while nobody holds it. -/
def step (s : ControlSys) : ControlAct → Option ControlSys
  | .start =>
      if s.owner = .idle ∧ s.ctl.locked = false then
        if s.ctl.isRun then some s
        else
          some { s with
            ctl := { s.ctl with isRun := true }
            workers := s.workers ++ [.create] }
      else none
  | .close =>
      if s.owner = .idle ∧ s.ctl.locked = false then
        if s.ctl.isRun then
          some { s with ctl := { s.ctl with isRun := false, locked := true }, owner := .locked }
        else some s
      else none
  | .semWait =>
      if s.owner = .locked then
        if s.ctl.sem.mustWait then
          match s.ctl.sem.beginWait.endWait with
          | some sem => some (s.closeReturns sem)
          | none =>
              some { s with ctl := { s.ctl with sem := s.ctl.sem.beginWait }, owner := .blocked }
        else some (s.closeReturns s.ctl.sem.beginWait)
      else none
  | .semWake => if s.owner = .blocked then s.ctl.sem.endWait.map s.closeReturns else none
  | .exit => if s.ctl.locked = false then some s.clearRun else none
  | .advance i =>
      match s.workers[i]? with
      | some .create => some { s with workers := s.workers.set i .run }
      | some .run => some { s with workers := s.workers.set i .destroy }
      | some .destroy => some { s with workers := s.workers.set i .wakeup }
      | some .wakeup =>
          some { s with
            ctl := { s.ctl with sem := s.ctl.sem.wakeup }
            workers := s.workers.set i .done }
      | _ => none
  | .callExit i =>
      if s.workers[i]? = some .run then some { s with workers := s.workers.set i .exiting }
      else none
  | .exitBy i =>
      if s.workers[i]? = some .exiting ∧ s.ctl.locked = false then
        some { s.clearRun with workers := s.workers.set i .run }
      else none

end ControlSys

/-- The runs of a `ThreadControl`. -/
def controlLts : Lts ControlSys ControlAct where
  init := {}
  step := ControlSys.step

/-! ### What `Close` promises -/

/-- The thread that was started last has finished its callbacks. -/
def LastFinished (s : ControlSys) : Prop := ∀ pc ∈ s.workers.getLast?, pc.Finished

/-- Whether a step from `s` to `s'` is one in which `Close` returns. -/
def ReturnsClose (a : ControlAct) (s' : ControlSys) : Prop :=
  (a = .close ∨ a = .semWait ∨ a = .semWake) ∧ s'.owner = .idle

/-- When `Close` returns, the thread has finished. -/
def CloseStepWaits (s : ControlSys) (a : ControlAct) : Prop :=
  ∀ s', s.step a = some s' → ReturnsClose a s' → LastFinished s'

/-- A step that is not one of `Exit` under the mutex. -/
def ControlAct.NoExit : ControlAct → Prop
  | .exit => False
  | .exitBy _ => False
  | _ => True

/-- **`Close` waits**: in this step, and in whatever follows it as long as nobody calls `Exit`. -/
def CloseWaits (s : ControlSys) (a : ControlAct) : Prop :=
  CloseStepWaits s a ∧ ∀ s', s.step a = some s' → ∀ bs : List ControlAct, (∀ b ∈ bs, b.NoExit) →
    controlLts.AllSteps CloseStepWaits s' bs

/-- No `Exit` finds the flag set. -/
def NoLiveExit (s : ControlSys) : ControlAct → Prop
  | .exit => s.ctl.isRun = false
  | .exitBy _ => s.ctl.isRun = false
  | _ => True

instance instDecidableNoLiveExit (s : ControlSys) : (a : ControlAct) → Decidable (NoLiveExit s a)
  | .exit => inferInstanceAs (Decidable (_ = _))
  | .exitBy _ => inferInstanceAs (Decidable (_ = _))
  | .start => .isTrue trivial
  | .close => .isTrue trivial
  | .semWait => .isTrue trivial
  | .semWake => .isTrue trivial
  | .advance _ => .isTrue trivial
  | .callExit _ => .isTrue trivial

/-- The `wakeup` that a thread has made. -/
def RunPc.credit (pc : RunPc) : ℤ := if pc = .done then 1 else 0

/-- **The states that are reached while no `Exit` clears the flag.**  The threads but the last one
are done, and the semaphore has what the last one gave and `Close` took. -/
inductive ControlInv : ControlSys → Prop
  | closed {ws : List RunPc} (h : ∀ w ∈ ws, w = .done) :
      ControlInv ⟨⟨false, false, ⟨0, 0⟩⟩, .idle, ws⟩
  | running {ws : List RunPc} {pc : RunPc} (h : ∀ w ∈ ws, w = .done) :
      ControlInv ⟨⟨true, false, ⟨pc.credit, 0⟩⟩, .idle, ws ++ [pc]⟩
  | closing {ws : List RunPc} {pc : RunPc} (h : ∀ w ∈ ws, w = .done) :
      ControlInv ⟨⟨false, true, ⟨pc.credit, 0⟩⟩, .locked, ws ++ [pc]⟩
  | waiting {ws : List RunPc} {pc : RunPc} (h : ∀ w ∈ ws, w = .done) :
      ControlInv ⟨⟨false, true, ⟨pc.credit - 1, pc.credit⟩⟩, .blocked, ws ++ [pc]⟩

/-! ### Steps of the threads -/

section Workers

variable {ws : List RunPc} {pc w : RunPc} {i : ℕ}

/-- Only the last thread can move when the others are done. -/
theorem last_moves (h : ∀ w ∈ ws, w = .done) (hi : (ws ++ [pc])[i]? = some w) (hw : w ≠ .done) :
    w = pc ∧ ∀ pc', (ws ++ [pc]).set i pc' = ws ++ [pc'] := by
  rcases Nat.lt_or_ge i ws.length with hlt | hge
  · rw [List.getElem?_append_left hlt] at hi
    exact absurd (h w (List.mem_of_getElem? hi)) hw
  · rw [List.getElem?_append_right hge, List.getElem?_singleton, Option.ite_none_right_eq_some]
      at hi
    obtain ⟨hzero, hpc⟩ := hi
    refine ⟨(Option.some.inj hpc).symm, fun pc' => ?_⟩
    rw [List.set_append_right i pc' hge, hzero]
    rfl

theorem no_moves (h : ∀ w ∈ ws, w = .done) (hi : ws[i]? = some w) : w = .done :=
  h w (List.mem_of_getElem? hi)

end Workers

/-- What a thread does outside of the mutex: it goes on and leaves the rest as it is, or it makes
its `wakeup`. -/
theorem worker_step {ctl : ThreadControl} {owner : CloserPc} {ws : List RunPc} {pc : RunPc}
    {a : ControlAct} {s' : ControlSys} (h : ∀ w ∈ ws, w = .done)
    (ha : (∃ i, a = .advance i) ∨ ∃ i, a = .callExit i)
    (hs : ControlSys.step ⟨ctl, owner, ws ++ [pc]⟩ a = some s') :
    ∃ pc', (pc'.credit = pc.credit ∧ s' = ⟨ctl, owner, ws ++ [pc']⟩) ∨
      (pc.credit = 0 ∧ pc'.credit = 1 ∧
        s' = ⟨{ ctl with sem := ctl.sem.wakeup }, owner, ws ++ [pc']⟩) := by
  rcases ha with ⟨i, rfl⟩ | ⟨i, rfl⟩
  · simp only [ControlSys.step] at hs
    cases hi : (ws ++ [pc])[i]? with
    | none =>
        rw [hi] at hs
        exact absurd hs (by simp)
    | some w =>
        rw [hi] at hs
        cases w with
        | create =>
            obtain ⟨rfl, hset⟩ := last_moves h hi (by decide)
            exact ⟨.run, .inl ⟨rfl, by rw [← Option.some.inj hs, hset]⟩⟩
        | run =>
            obtain ⟨rfl, hset⟩ := last_moves h hi (by decide)
            exact ⟨.destroy, .inl ⟨rfl, by rw [← Option.some.inj hs, hset]⟩⟩
        | exiting => exact absurd hs (by simp)
        | destroy =>
            obtain ⟨rfl, hset⟩ := last_moves h hi (by decide)
            exact ⟨.wakeup, .inl ⟨rfl, by rw [← Option.some.inj hs, hset]⟩⟩
        | wakeup =>
            obtain ⟨rfl, hset⟩ := last_moves h hi (by decide)
            exact ⟨.done, .inr ⟨rfl, rfl, by rw [← Option.some.inj hs, hset]⟩⟩
        | done => exact absurd hs (by simp)
  · simp only [ControlSys.step, Option.ite_none_right_eq_some] at hs
    obtain ⟨hi, hs⟩ := hs
    obtain ⟨rfl, hset⟩ := last_moves h hi (by decide)
    exact ⟨.exiting, .inl ⟨rfl, by rw [← Option.some.inj hs, hset]⟩⟩

/-- What holds wherever the thread is, with a semaphore that goes by its credit, holds after such a
step. -/
theorem worker_keeps {isRun locked : Bool} {owner : CloserPc} {ws : List RunPc} {pc : RunPc}
    {a : ControlAct} {s' : ControlSys} {I : ControlSys → Prop} (sem : ℤ → ThreadSemaphore)
    (hwake : (sem 0).wakeup = sem 1)
    (hI : ∀ pc : RunPc, I ⟨⟨isRun, locked, sem pc.credit⟩, owner, ws ++ [pc]⟩)
    (h : ∀ w ∈ ws, w = .done) (ha : (∃ i, a = .advance i) ∨ ∃ i, a = .callExit i)
    (hs : ControlSys.step ⟨⟨isRun, locked, sem pc.credit⟩, owner, ws ++ [pc]⟩ a = some s') :
    I s' := by
  obtain ⟨pc', ⟨hc, rfl⟩ | ⟨h₀, h₁, rfl⟩⟩ := worker_step h ha hs
  · rw [← hc]
    exact hI pc'
  · have hsem : (sem pc.credit).wakeup = sem pc'.credit := by rw [h₀, h₁, hwake]
    simp only [hsem]
    exact hI pc'

/-- When all threads are done, none of them moves. -/
theorem no_worker_step {ctl : ThreadControl} {owner : CloserPc} {ws : List RunPc} {a : ControlAct}
    (h : ∀ w ∈ ws, w = .done)
    (ha : (∃ i, a = .advance i) ∨ (∃ i, a = .callExit i) ∨ ∃ i, a = .exitBy i) :
    ControlSys.step ⟨ctl, owner, ws⟩ a = none := by
  rcases ha with ⟨i, rfl⟩ | ⟨i, rfl⟩ | ⟨i, rfl⟩
  · simp only [ControlSys.step]
    cases hi : ws[i]? with
    | none => rfl
    | some w => rw [no_moves h hi]
  · refine if_neg fun hi => ?_
    exact absurd (no_moves h hi) (by decide)
  · refine if_neg fun hi => ?_
    exact absurd (no_moves h hi.1) (by decide)

namespace ControlInv

variable {s s' : ControlSys} {a : ControlAct}

/-- After `Close` the threads are done. -/
theorem finished (h : ControlInv s) (ho : s.owner = .idle) (hr : s.ctl.isRun = false) :
    LastFinished s := by
  cases h with
  | closed h =>
      intro pc hpc
      exact .inr (h pc (List.mem_of_getLast? hpc))
  | running h => exact absurd hr (by simp)
  | closing h => exact absurd ho (by simp)
  | waiting h => exact absurd ho (by simp)

theorem step_closed {ws : List RunPc} (h : ∀ w ∈ ws, w = .done)
    (hs : ControlSys.step ⟨⟨false, false, ⟨0, 0⟩⟩, .idle, ws⟩ a = some s') :
    ControlInv s' ∧ (a = .start ∨ s'.ctl.isRun = false) := by
  cases a with
  | start =>
      obtain rfl := Option.some.inj hs
      exact ⟨@running _ .create h, .inl rfl⟩
  | close =>
      obtain rfl := Option.some.inj hs
      exact ⟨closed h, .inr rfl⟩
  | semWait => exact absurd hs (by simp [ControlSys.step])
  | semWake => exact absurd hs (by simp [ControlSys.step])
  | exit =>
      obtain rfl := Option.some.inj hs
      exact ⟨closed h, .inr rfl⟩
  | advance i =>
      rw [no_worker_step h (.inl ⟨i, rfl⟩)] at hs
      exact absurd hs (by simp)
  | callExit i =>
      rw [no_worker_step h (.inr (.inl ⟨i, rfl⟩))] at hs
      exact absurd hs (by simp)
  | exitBy i =>
      rw [no_worker_step h (.inr (.inr ⟨i, rfl⟩))] at hs
      exact absurd hs (by simp)

theorem step_running {ws : List RunPc} {pc : RunPc} (h : ∀ w ∈ ws, w = .done)
    (hq : NoLiveExit ⟨⟨true, false, ⟨pc.credit, 0⟩⟩, .idle, ws ++ [pc]⟩ a)
    (hs : ControlSys.step ⟨⟨true, false, ⟨pc.credit, 0⟩⟩, .idle, ws ++ [pc]⟩ a = some s') :
    ControlInv s' ∧ ¬ReturnsClose a s' := by
  have hmoves : ((∃ i, a = .advance i) ∨ ∃ i, a = .callExit i) →
      ControlInv s' ∧ ¬ReturnsClose a s' := by
    intro ha
    refine ⟨worker_keeps (fun c => ⟨c, 0⟩) rfl (fun pc => running h) h ha hs, ?_⟩
    rintro ⟨rfl | rfl | rfl, -⟩
    all_goals exact absurd ha (by simp)
  cases a with
  | start =>
      obtain rfl := Option.some.inj hs
      exact ⟨running h, fun hr => absurd hr.1 (by simp)⟩
  | close =>
      obtain rfl := Option.some.inj hs
      exact ⟨closing h, fun hr => absurd hr.2 (by simp)⟩
  | semWait => exact absurd hs (by simp [ControlSys.step])
  | semWake => exact absurd hs (by simp [ControlSys.step])
  | exit => exact absurd hq (by simp [NoLiveExit])
  | advance i => exact hmoves (.inl ⟨i, rfl⟩)
  | callExit i => exact hmoves (.inr ⟨i, rfl⟩)
  | exitBy i => exact absurd hq (by simp [NoLiveExit])

/-- `_sem.wait()` returns at once when the thread is done, and else it has to wait. -/
theorem step_closing {ws : List RunPc} {pc : RunPc} (h : ∀ w ∈ ws, w = .done)
    (hs : ControlSys.step ⟨⟨false, true, ⟨pc.credit, 0⟩⟩, .locked, ws ++ [pc]⟩ a = some s') :
    ControlInv s' ∧ s'.ctl.isRun = false := by
  have hmoves : ((∃ i, a = .advance i) ∨ ∃ i, a = .callExit i) →
      ControlInv s' ∧ s'.ctl.isRun = false :=
    fun ha => worker_keeps (I := fun s => ControlInv s ∧ s.ctl.isRun = false) (fun c => ⟨c, 0⟩) rfl
      (fun pc => ⟨closing h, rfl⟩) h ha hs
  cases a with
  | start => exact absurd hs (by simp [ControlSys.step])
  | close => exact absurd hs (by simp [ControlSys.step])
  | semWait =>
      by_cases hpc : pc = .done
      · subst hpc
        obtain rfl := Option.some.inj hs
        refine ⟨closed (List.forall_mem_append.2 ⟨h, ?_⟩), rfl⟩
        exact List.forall_mem_singleton.2 rfl
      · have hc : pc.credit = 0 := if_neg hpc
        rw [hc] at hs
        obtain rfl := Option.some.inj hs
        have hinv := @waiting ws pc h
        rw [hc] at hinv
        exact ⟨hinv, rfl⟩
  | semWake => exact absurd hs (by simp [ControlSys.step])
  | exit => exact absurd hs (by simp [ControlSys.step])
  | advance i => exact hmoves (.inl ⟨i, rfl⟩)
  | callExit i => exact hmoves (.inr ⟨i, rfl⟩)
  | exitBy i => exact absurd hs (by simp [ControlSys.step])

theorem step_waiting {ws : List RunPc} {pc : RunPc} (h : ∀ w ∈ ws, w = .done)
    (hs : ControlSys.step ⟨⟨false, true, ⟨pc.credit - 1, pc.credit⟩⟩, .blocked, ws ++ [pc]⟩ a =
      some s') : ControlInv s' ∧ s'.ctl.isRun = false := by
  have hmoves : ((∃ i, a = .advance i) ∨ ∃ i, a = .callExit i) →
      ControlInv s' ∧ s'.ctl.isRun = false :=
    fun ha => worker_keeps (I := fun s => ControlInv s ∧ s.ctl.isRun = false)
      (fun c => ⟨c - 1, c⟩) rfl (fun pc => ⟨waiting h, rfl⟩) h ha hs
  cases a with
  | start => exact absurd hs (by simp [ControlSys.step])
  | close => exact absurd hs (by simp [ControlSys.step])
  | semWait => exact absurd hs (by simp [ControlSys.step])
  | semWake =>
      by_cases hpc : pc = .done
      · subst hpc
        obtain rfl := Option.some.inj hs
        refine ⟨closed (List.forall_mem_append.2 ⟨h, ?_⟩), rfl⟩
        exact List.forall_mem_singleton.2 rfl
      · have hc : pc.credit = 0 := if_neg hpc
        rw [hc] at hs
        exact absurd hs (by simp [ControlSys.step, ThreadSemaphore.endWait])
  | exit => exact absurd hs (by simp [ControlSys.step])
  | advance i => exact hmoves (.inl ⟨i, rfl⟩)
  | callExit i => exact hmoves (.inr ⟨i, rfl⟩)
  | exitBy i => exact absurd hs (by simp [ControlSys.step])

/-- **One step keeps the invariant**, and a `Close` that returns in it has waited. -/
theorem step (h : ControlInv s) (hq : NoLiveExit s a) (hs : s.step a = some s') :
    ControlInv s' ∧ (ReturnsClose a s' → LastFinished s') := by
  cases h with
  | closed h =>
      obtain ⟨hinv, hrun⟩ := step_closed h hs
      refine ⟨hinv, fun hr => hinv.finished hr.2 ?_⟩
      rcases hrun with rfl | hrun
      · exact absurd hr.1 (by simp)
      · exact hrun
  | running h =>
      obtain ⟨hinv, hnot⟩ := step_running h hq hs
      exact ⟨hinv, fun hr => absurd hr hnot⟩
  | closing h =>
      obtain ⟨hinv, hrun⟩ := step_closing h hs
      exact ⟨hinv, fun hr => hinv.finished hr.2 hrun⟩
  | waiting h =>
      obtain ⟨hinv, hrun⟩ := step_waiting h hs
      exact ⟨hinv, fun hr => hinv.finished hr.2 hrun⟩

theorem init : ControlInv controlLts.init := closed fun _ hw => absurd hw (by simp)

theorem noLiveExit (h : a.NoExit) : NoLiveExit s a := by
  cases a with
  | exit => exact absurd h id
  | exitBy i => exact absurd h id
  | _ => trivial

theorem noLiveExit_of_isRun (h : s.ctl.isRun = false) : NoLiveExit s a := by
  cases a with
  | exit => exact h
  | exitBy i => exact h
  | _ => trivial

/-- What follows without an `Exit`. -/
theorem allSteps (h : ControlInv s) {bs : List ControlAct} (hbs : ∀ b ∈ bs, b.NoExit) :
    controlLts.AllSteps CloseStepWaits s bs := by
  induction bs generalizing s with
  | nil => trivial
  | cons b bs ih =>
      obtain ⟨hb, hbs⟩ := List.forall_mem_cons.1 hbs
      refine ⟨fun s' hs => (h.step (noLiveExit hb) hs).2, fun s' hs => ?_⟩
      exact ih (h.step (noLiveExit hb) hs).1 hbs

end ControlInv

/-! ### An `Exit` that comes first -/

theorem not_lastFinished {ctl : ThreadControl} {owner : CloserPc} {ws : List RunPc} {pc : RunPc}
    (hpc : ¬pc.Finished) : ¬LastFinished ⟨ctl, owner, ws ++ [pc]⟩ := by
  intro h
  exact hpc (h pc (by simp))

/-- With a `wakeup` left over, `Close` does not wait for the next thread. -/
theorem leftover_spoils (ws : List RunPc) :
    ¬controlLts.AllSteps CloseStepWaits ⟨⟨false, false, ⟨1, 0⟩⟩, .idle, ws⟩
      [.start, .close, .semWait] := by
  intro hall
  have hexec : controlLts.exec ⟨⟨false, false, ⟨1, 0⟩⟩, .idle, ws⟩ [.start, .close] =
      some ⟨⟨false, true, ⟨1, 0⟩⟩, .locked, ws ++ [.create]⟩ := rfl
  have hwait := hall.after hexec
  exact not_lastFinished (by decide) (hwait _ rfl ⟨.inr (.inl rfl), rfl⟩)

/-- **After an `Exit` that clears the flag**, `Close` can return too early: at once if the thread has
not finished, and otherwise the next time. -/
theorem exit_spoils (ws : List RunPc) (pc : RunPc) :
    ∃ bs : List ControlAct, (∀ b ∈ bs, b.NoExit) ∧
      ¬controlLts.AllSteps CloseStepWaits ⟨⟨false, false, ⟨pc.credit, 0⟩⟩, .idle, ws ++ [pc]⟩
        bs := by
  by_cases hpc : pc.Finished
  swap
  · refine ⟨[.close], List.forall_mem_singleton.2 trivial, fun hall => ?_⟩
    exact not_lastFinished hpc (hall.1 _ rfl ⟨.inl rfl, rfl⟩)
  rcases hpc with rfl | rfl
  · refine ⟨.advance ws.length :: [.start, .close, .semWait], by simp [ControlAct.NoExit], ?_⟩
    rw [show RunPc.wakeup.credit = 0 from rfl]
    intro hall
    have hstep : controlLts.step ⟨⟨false, false, ⟨0, 0⟩⟩, .idle, ws ++ [.wakeup]⟩
        (.advance ws.length) = some ⟨⟨false, false, ⟨1, 0⟩⟩, .idle, ws ++ [.done]⟩ := by
      have hset : (ws ++ [RunPc.wakeup]).set ws.length .done = ws ++ [.done] := by
        rw [List.set_append_right _ _ le_rfl, Nat.sub_self]
        rfl
      simp only [controlLts, ControlSys.step, List.getElem?_concat_length, hset]
      rfl
    exact leftover_spoils (ws ++ [.done]) (hall.2 _ hstep)
  · refine ⟨[.start, .close, .semWait], by simp [ControlAct.NoExit], ?_⟩
    rw [show RunPc.done.credit = 1 from rfl]
    exact leftover_spoils (ws ++ [.done])

/-- Where such an `Exit` leads. -/
theorem ControlInv.step_liveExit {s s' : ControlSys} {a : ControlAct} (h : ControlInv s)
    (hq : ¬NoLiveExit s a) (hs : s.step a = some s') :
    ∃ ws pc, s' = ⟨⟨false, false, ⟨RunPc.credit pc, 0⟩⟩, .idle, ws ++ [pc]⟩ := by
  cases h with
  | running h =>
      cases a with
      | exit => exact ⟨_, _, (Option.some.inj hs).symm⟩
      | exitBy i =>
          simp only [ControlSys.step, Option.ite_none_right_eq_some] at hs
          obtain ⟨⟨hi, -⟩, hs⟩ := hs
          obtain ⟨rfl, hset⟩ := last_moves h hi (by decide)
          rw [hset] at hs
          exact ⟨_, .run, (Option.some.inj hs).symm⟩
      | _ => exact absurd trivial hq
  | closed h => exact absurd (noLiveExit_of_isRun rfl) hq
  | closing h => exact absurd (noLiveExit_of_isRun rfl) hq
  | waiting h => exact absurd (noLiveExit_of_isRun rfl) hq

/-- **`Close` waits for the thread unless `Exit` came first.**  A run, and whatever follows a step of
it without an `Exit`, has the thread finished at each return of `Close`, exactly when no `Exit` of
the run finds the flag set. -/
theorem close_waits_iff {as : List ControlAct} {s : ControlSys}
    (he : controlLts.exec controlLts.init as = some s) :
    controlLts.AllSteps CloseWaits controlLts.init as ↔
      controlLts.AllSteps NoLiveExit controlLts.init as := by
  refine Lts.allSteps_iff (g := fun _ _ => True) ?_ he (Lts.allSteps_true _ _)
  intro s a s' hr _ hs
  have hinv : ControlInv s := hr.invariant ControlInv.init
    fun _ _ _ _ hi hg hstep => (hi.step hg.2 hstep).1
  constructor
  · intro hw
    by_contra hq
    obtain ⟨ws, pc, rfl⟩ := hinv.step_liveExit hq hs
    obtain ⟨bs, hbs, hbad⟩ := exit_spoils ws pc
    exact hbad (hw.2 _ hs bs hbs)
  · intro hq
    exact ⟨fun t ht => (hinv.step hq ht).2, fun t ht bs hbs => (hinv.step hq ht).1.allSteps hbs⟩

/-- A thread is started and closed, and ends only then. -/
def closedInTime : List ControlAct :=
  [.start, .advance 0, .close, .semWait, .advance 0, .advance 0, .advance 0, .semWake]

theorem close_waits_inTime :
    ∃ s, controlLts.exec controlLts.init closedInTime = some s ∧ s.owner = .idle ∧
      s.workers = [.done] ∧ controlLts.AllSteps CloseWaits controlLts.init closedInTime :=
  ⟨_, rfl, rfl, rfl, (close_waits_iff rfl).2 (by decide)⟩

/-- The thread calls `Exit` in `_Run`, because `select` has failed, and then `Close` is called. -/
def exitedFirst : List ControlAct := [.start, .advance 0, .callExit 0, .exitBy 0, .close]

/-- **`Close` returns while the thread is in `_Run`.** -/
theorem close_returns_early :
    ∃ s, controlLts.exec controlLts.init exitedFirst = some s ∧ s.workers = [.run] ∧
      ¬controlLts.AllSteps CloseStepWaits controlLts.init exitedFirst := by
  refine ⟨_, rfl, rfl, fun hall => ?_⟩
  have hexec : controlLts.exec controlLts.init [.start, .advance 0, .callExit 0, .exitBy 0] =
      some ⟨⟨false, false, ⟨0, 0⟩⟩, .idle, [] ++ [.run]⟩ := rfl
  exact not_lastFinished (by decide) (hall.after hexec _ rfl ⟨.inl rfl, rfl⟩)

/-! ### `Close` and `Exit` at the same time -/

/-- **The owner waits for the semaphore, and a thread for the mutex that the owner has locked.** -/
def Deadlocked (s : ControlSys) : Prop := s.owner = .blocked ∧ .exiting ∈ s.workers

instance instDecidableDeadlocked (s : ControlSys) : Decidable (Deadlocked s) :=
  inferInstanceAs (Decidable (_ ∧ _))

/-- A step does not lead to such a state, and neither does it if the owner goes on at
`_sem.wait()`. -/
def StaysApart (s : ControlSys) (a : ControlAct) : Prop :=
  ∀ s', s.step a = some s' →
    ¬Deadlocked s' ∧ ∀ s'', s'.step .semWait = some s'' → ¬Deadlocked s''

/-- A thread does not call `Exit` while `Close` waits, or is about to wait; and `Close` does not
lock the mutex in order to wait while a thread stands in front of it. -/
def ExitApart (s : ControlSys) : ControlAct → Prop
  | .callExit _ => s.owner ≠ .blocked ∧ (s.owner = .locked → 0 < s.ctl.sem.waitNum)
  | .close => s.ctl.isRun = true → .exiting ∈ s.workers → 0 < s.ctl.sem.waitNum
  | _ => True

instance instDecidableExitApart (s : ControlSys) : (a : ControlAct) → Decidable (ExitApart s a)
  | .callExit _ => inferInstanceAs (Decidable (_ ∧ _))
  | .close => inferInstanceAs (Decidable (_ → _ → _))
  | .start => .isTrue trivial
  | .semWait => .isTrue trivial
  | .semWake => .isTrue trivial
  | .exit => .isTrue trivial
  | .advance _ => .isTrue trivial
  | .exitBy _ => .isTrue trivial

/-- **What is left in the semaphore**, whoever clears the flag: nothing for the condition variable
unless the owner waits there. -/
structure CreditInv (s : ControlSys) : Prop where
  free : s.owner ≠ .blocked → s.ctl.sem.wakeupNum = 0 ∧ 0 ≤ s.ctl.sem.waitNum
  blocked : s.owner = .blocked →
    s.ctl.sem.waitNum = -1 ∧ s.ctl.sem.wakeupNum = 0 ∨
      0 ≤ s.ctl.sem.waitNum ∧ s.ctl.sem.wakeupNum = 1

namespace CreditInv

variable {s s' : ControlSys} {a : ControlAct}

theorem init : CreditInv controlLts.init :=
  ⟨fun _ => ⟨rfl, Int.le_refl 0⟩, fun h => absurd h (by decide)⟩

/-- The semaphore and the owner are as before. -/
theorem same (h : CreditInv s) (hsem : s'.ctl.sem = s.ctl.sem) (ho : s'.owner = s.owner) :
    CreditInv s' := by
  refine ⟨fun hne => ?_, fun hb => ?_⟩
  · rw [hsem]
    exact h.free (ho ▸ hne)
  · rw [hsem]
    exact h.blocked (ho ▸ hb)

theorem wakeup (h : CreditInv s) (workers : List RunPc) :
    CreditInv ⟨{ s.ctl with sem := s.ctl.sem.wakeup }, s.owner, workers⟩ := by
  refine ⟨fun hne => ?_, fun hb => ?_⟩
  · obtain ⟨h₁, h₂⟩ := h.free hne
    simp only [ThreadSemaphore.wakeup]
    rw [if_neg (by omega)]
    omega
  · right
    simp only [ThreadSemaphore.wakeup]
    rcases h.blocked hb with ⟨h₁, h₂⟩ | ⟨h₁, h₂⟩
    · rw [if_pos (by omega)]
      omega
    · rw [if_neg (by omega)]
      omega

/-- `_sem.wait()` blocks when nothing is left. -/
theorem semWait_blocks (h : CreditInv s) (ho : s.owner = .locked) (hw : s.ctl.sem.waitNum ≤ 0) :
    s.step .semWait =
      some { s with ctl := { s.ctl with sem := s.ctl.sem.beginWait }, owner := .blocked } := by
  obtain ⟨h₁, h₂⟩ := h.free (by rw [ho]; decide)
  have hmust : s.ctl.sem.mustWait = true := by
    simp only [ThreadSemaphore.mustWait, decide_eq_true_eq]
    omega
  have hend : s.ctl.sem.beginWait.endWait = none := by
    refine if_neg ?_
    simp only [ThreadSemaphore.beginWait]
    omega
  simp only [ControlSys.step, if_pos ho, if_pos hmust, hend]

/-- It returns when something is left. -/
theorem semWait_returns (ho : s.owner = .locked) (hw : 0 < s.ctl.sem.waitNum) :
    s.step .semWait = some (s.closeReturns s.ctl.sem.beginWait) := by
  have hmust : ¬s.ctl.sem.mustWait = true := by
    simp only [ThreadSemaphore.mustWait, decide_eq_true_eq]
    omega
  simp only [ControlSys.step, if_pos ho, if_neg hmust]

theorem semWait (h : CreditInv s) (hs : s.step .semWait = some s') : CreditInv s' := by
  by_cases ho : s.owner = .locked
  swap
  · exact absurd hs (by simp [ControlSys.step, ho])
  obtain ⟨h₁, h₂⟩ := h.free (by rw [ho]; decide)
  rcases Int.lt_or_le 0 s.ctl.sem.waitNum with hpos | hle
  · rw [semWait_returns ho hpos, Option.some.injEq] at hs
    subst hs
    refine ⟨fun _ => ?_, fun hb => absurd hb (by simp [ControlSys.closeReturns])⟩
    simp only [ControlSys.closeReturns, ThreadSemaphore.beginWait]
    omega
  · rw [h.semWait_blocks ho hle, Option.some.injEq] at hs
    subst hs
    refine ⟨fun hne => absurd rfl hne, fun _ => ?_⟩
    simp only [ThreadSemaphore.beginWait]
    omega

theorem semWake (h : CreditInv s) (hs : s.step .semWake = some s') : CreditInv s' := by
  simp only [ControlSys.step, Option.ite_none_right_eq_some, Option.map_eq_some_iff,
    ThreadSemaphore.endWait] at hs
  obtain ⟨ho, sem, ⟨hpos, hsem⟩, rfl⟩ := hs
  refine ⟨fun _ => ?_, fun hb => absurd hb (by simp [ControlSys.closeReturns])⟩
  rw [← Option.some.inj hsem]
  simp only [ControlSys.closeReturns]
  rcases h.blocked ho with ⟨h₁, h₂⟩ | ⟨h₁, h₂⟩
  · omega
  · omega

/-- **One step keeps it.** -/
theorem step (h : CreditInv s) (hs : s.step a = some s') : CreditInv s' := by
  cases a with
  | start =>
      simp only [ControlSys.step, Option.ite_none_right_eq_some] at hs
      obtain ⟨-, hs⟩ := hs
      split at hs
      · exact Option.some.inj hs ▸ h
      · exact h.same (by rw [← Option.some.inj hs]) (by rw [← Option.some.inj hs])
  | close =>
      simp only [ControlSys.step, Option.ite_none_right_eq_some] at hs
      obtain ⟨⟨ho, -⟩, hs⟩ := hs
      split at hs
      · obtain ⟨h₁, h₂⟩ := h.free (by rw [ho]; decide)
        rw [← Option.some.inj hs]
        exact ⟨fun _ => ⟨h₁, h₂⟩, fun hb => absurd hb (by simp)⟩
      · exact Option.some.inj hs ▸ h
  | semWait => exact h.semWait hs
  | semWake => exact h.semWake hs
  | exit =>
      simp only [ControlSys.step, Option.ite_none_right_eq_some, Option.some.injEq] at hs
      exact h.same (by rw [← hs.2]; rfl) (by rw [← hs.2]; rfl)
  | advance i =>
      simp only [ControlSys.step] at hs
      split at hs
      · exact h.same (by rw [← Option.some.inj hs]) (by rw [← Option.some.inj hs])
      · exact h.same (by rw [← Option.some.inj hs]) (by rw [← Option.some.inj hs])
      · exact h.same (by rw [← Option.some.inj hs]) (by rw [← Option.some.inj hs])
      · exact Option.some.inj hs ▸ h.wakeup _
      · exact absurd hs (by simp)
  | callExit i =>
      simp only [ControlSys.step, Option.ite_none_right_eq_some, Option.some.injEq] at hs
      exact h.same (by rw [← hs.2]) (by rw [← hs.2])
  | exitBy i =>
      simp only [ControlSys.step, Option.ite_none_right_eq_some, Option.some.injEq] at hs
      exact h.same (by rw [← hs.2]; rfl) (by rw [← hs.2]; rfl)

end CreditInv

/-- No thread stands in front of the mutex when the owner waits, or is about to wait. -/
structure ApartInv (s : ControlSys) : Prop where
  apart : ¬Deadlocked s
  soon : s.owner = .locked → s.ctl.sem.waitNum ≤ 0 → .exiting ∉ s.workers

namespace ApartInv

variable {s s' : ControlSys} {a : ControlAct}

theorem of_idle (ho : s.owner = .idle) : ApartInv s where
  apart h := absurd (ho.symm.trans h.1) (by decide)
  soon h := absurd (ho.symm.trans h) (by decide)

/-- No more threads stand there, and no less is left in the semaphore. -/
theorem mono (h : ApartInv s) (ho : s'.owner = s.owner)
    (hex : .exiting ∈ s'.workers → .exiting ∈ s.workers)
    (hw : s.ctl.sem.waitNum ≤ s'.ctl.sem.waitNum) : ApartInv s' where
  apart hd := h.apart ⟨ho ▸ hd.1, hex hd.2⟩
  soon hl hle hmem := h.soon (ho ▸ hl) (Int.le_trans hw hle) (hex hmem)

/-- A thread that goes on does not stand there. -/
theorem set (h : ApartInv s) {i : ℕ} {pc : RunPc} (hpc : pc ≠ .exiting) {ctl : ThreadControl}
    (hw : s.ctl.sem.waitNum ≤ ctl.sem.waitNum) :
    ApartInv ⟨ctl, s.owner, s.workers.set i pc⟩ := by
  refine h.mono rfl (fun hmem => ?_) hw
  rcases List.mem_or_eq_of_mem_set hmem with hmem | heq
  · exact hmem
  · exact absurd heq.symm hpc

/-- The invariant is about the next step of the owner. -/
theorem iff_next (hc : CreditInv s) : ApartInv s ↔
    ¬Deadlocked s ∧ ∀ s', s.step .semWait = some s' → ¬Deadlocked s' := by
  constructor
  · intro h
    refine ⟨h.apart, fun s' hs hd => ?_⟩
    by_cases ho : s.owner = .locked
    swap
    · exact absurd hs (by simp [ControlSys.step, ho])
    rcases Int.lt_or_le 0 s.ctl.sem.waitNum with hpos | hle
    · rw [CreditInv.semWait_returns ho hpos, Option.some.injEq] at hs
      subst hs
      exact absurd hd.1 (by simp [ControlSys.closeReturns])
    · rw [hc.semWait_blocks ho hle, Option.some.injEq] at hs
      subst hs
      exact h.soon ho hle hd.2
  · rintro ⟨h, hnext⟩
    exact ⟨h, fun ho hle hmem => hnext _ (hc.semWait_blocks ho hle) ⟨rfl, hmem⟩⟩

/-- **One step keeps the two apart exactly when it meets the condition.** -/
theorem step (h : ApartInv s) (hc : CreditInv s) (hs : s.step a = some s') :
    ApartInv s' ↔ ExitApart s a := by
  cases a with
  | start =>
      simp only [ControlSys.step, Option.ite_none_right_eq_some] at hs
      obtain ⟨⟨ho, -⟩, hs⟩ := hs
      refine iff_of_true (of_idle ?_) trivial
      split at hs
      · exact Option.some.inj hs ▸ ho
      · exact Option.some.inj hs ▸ ho
  | close =>
      simp only [ControlSys.step, Option.ite_none_right_eq_some] at hs
      obtain ⟨⟨ho, -⟩, hs⟩ := hs
      by_cases hrun : s.ctl.isRun = true
      · rw [if_pos hrun, Option.some.injEq] at hs
        subst hs
        constructor
        · intro h' _ hmem
          by_contra hle
          exact h'.soon rfl (not_lt.1 hle) hmem
        · intro hq
          refine ⟨fun hd => absurd hd.1 (by simp), fun _ hle hmem => ?_⟩
          exact absurd hle (not_le.2 (hq hrun hmem))
      · rw [if_neg hrun] at hs
        refine iff_of_true (Option.some.inj hs ▸ h) fun hr => absurd hr hrun
  | semWait =>
      refine iff_of_true ?_ trivial
      obtain ⟨-, hnext⟩ := (iff_next hc).1 h
      refine ⟨hnext s' hs, fun ho => ?_⟩
      -- the owner does not stay where it is
      by_cases hl : s.owner = .locked
      swap
      · exact absurd hs (by simp [ControlSys.step, hl])
      rcases Int.lt_or_le 0 s.ctl.sem.waitNum with hpos | hle
      · rw [CreditInv.semWait_returns hl hpos, Option.some.injEq] at hs
        subst hs
        exact absurd ho (by simp [ControlSys.closeReturns])
      · rw [hc.semWait_blocks hl hle, Option.some.injEq] at hs
        subst hs
        exact absurd ho (by simp)
  | semWake =>
      simp only [ControlSys.step, Option.ite_none_right_eq_some, Option.map_eq_some_iff] at hs
      obtain ⟨-, sem, -, rfl⟩ := hs
      exact iff_of_true (of_idle rfl) trivial
  | exit =>
      simp only [ControlSys.step, Option.ite_none_right_eq_some, Option.some.injEq] at hs
      obtain ⟨-, rfl⟩ := hs
      exact iff_of_true (h.mono rfl id le_rfl) trivial
  | advance i =>
      refine iff_of_true ?_ trivial
      simp only [ControlSys.step] at hs
      split at hs
      · exact Option.some.inj hs ▸ h.set (by decide) le_rfl
      · exact Option.some.inj hs ▸ h.set (by decide) le_rfl
      · exact Option.some.inj hs ▸ h.set (by decide) le_rfl
      · refine Option.some.inj hs ▸ h.set (by decide) ?_
        simp only [ThreadSemaphore.wakeup]
        omega
      · exact absurd hs (by simp)
  | callExit i =>
      simp only [ControlSys.step, Option.ite_none_right_eq_some, Option.some.injEq] at hs
      obtain ⟨hi, rfl⟩ := hs
      have hmem : .exiting ∈ s.workers.set i .exiting :=
        List.mem_set (List.getElem?_eq_some_iff.1 hi).1 _
      constructor
      · intro h'
        refine ⟨fun ho => h'.apart ⟨ho, hmem⟩, fun ho => ?_⟩
        by_contra hle
        exact h'.soon ho (not_lt.1 hle) hmem
      · rintro ⟨hb, hl⟩
        exact ⟨fun hd => hb hd.1, fun ho hle _ => absurd hle (not_le.2 (hl ho))⟩
  | exitBy i =>
      simp only [ControlSys.step, Option.ite_none_right_eq_some, Option.some.injEq] at hs
      obtain ⟨-, rfl⟩ := hs
      exact iff_of_true (h.set (by decide) le_rfl) trivial

end ApartInv

/-- **When `Close` and `Exit` do not block each other.**  In exactly those runs in which no thread
calls `Exit` while `Close` waits or has to wait, and in which `Close` does not lock the mutex in
order to wait while a thread stands in front of it. -/
theorem exit_apart_iff {as : List ControlAct} {s : ControlSys}
    (he : controlLts.exec controlLts.init as = some s) :
    controlLts.AllSteps StaysApart controlLts.init as ↔
      controlLts.AllSteps ExitApart controlLts.init as := by
  refine Lts.allSteps_iff (g := fun _ _ => True) ?_ he (Lts.allSteps_true _ _)
  intro s a s' hr _ hs
  have hcredit : CreditInv s :=
    hr.invariant CreditInv.init fun _ _ _ _ hi _ hstep => hi.step hstep
  have hapart : ApartInv s ∧ CreditInv s := hr.invariant
    (I := fun s => ApartInv s ∧ CreditInv s) ⟨ApartInv.of_idle rfl, CreditInv.init⟩
    fun _ _ _ _ hi hg hstep => ⟨(hi.1.step hi.2 hstep).2 hg.2, hi.2.step hstep⟩
  rw [← hapart.1.step hcredit hs, ApartInv.iff_next (hcredit.step hs)]
  constructor
  · intro h
    exact h s' hs
  · intro h t ht
    obtain rfl : t = s' := Option.some.inj (ht.symm.trans hs)
    exact h

/-- `Exit` has returned before `Close` is called. -/
theorem exit_apart_exitedFirst :
    ∃ s, controlLts.exec controlLts.init exitedFirst = some s ∧
      controlLts.AllSteps StaysApart controlLts.init exitedFirst :=
  ⟨_, rfl, (exit_apart_iff rfl).2 (by decide)⟩

/-- `select` fails and the thread calls `Exit`, but `Close` is the first to lock the mutex. -/
def exitOvertaken : List ControlAct := [.start, .advance 0, .callExit 0, .close, .semWait]

/-- **`Close` and `Exit` block each other.** -/
theorem close_deadlocks :
    ∃ s, controlLts.exec controlLts.init exitOvertaken = some s ∧ Deadlocked s :=
  ⟨_, rfl, by decide⟩

end ProxySocket

/-
**Closing a server thread.**

A `ThreadServer` runs two threads: the reactor thread, which serves its clients, and the thread of its
`ThreadTaskServer`.  Each belongs to a `ThreadControl`, whose flag `isRun` the loop of the thread tests,
and whose `Close` clears the flag and waits at a semaphore until the thread is through.

`ThreadServer::Close` calls the `Close` of the reactor's control, but for the task server it calls
`ThreadTaskServer::Close`, which clears a flag of its own that no loop tests.  And a reactor whose
`select` failed has cleared `isRun` itself, so that `Close` does not wait for it.

Main definitions:

* `ThreadSemaphore`, `ThreadControl` — the semaphore and the control of a thread;
* `ServerThreads`, `StopAct`, `ServerThreads.step` — the owner of a `ThreadServer` and its two threads;
* `ServerThreads.NeverTouched` — no step of the two threads touches the object any more.

Main results:

* `ServerThreads.reactor_done_of_waited` — **when `Close` waits, the reactor thread is through**;
* `ServerThreads.close_returns` — `Close` can return, whatever the clients and the tasks are;
* `close_untouched_iff` — **when the object may be deleted after `Close`**.
-/

import ProxySocket.Lts
import Mathlib.Data.Int.Basic

set_option relaxedAutoImplicit false
set_option autoImplicit false

namespace ProxySocket

/-! ### The semaphore and the control of a thread -/

/-- A `ThreadSemaphore`.  Its numbers are `int`s, which differ from these after `2 ^ 31` calls at the
earliest; the operations on `int`s are `decWait`, `incWait`, `decWakeup` and `incWakeup`. -/
structure ThreadSemaphore where
  /-- `_wait` -/
  waitNum : ℤ := 0
  /-- `_wakeup` -/
  wakeupNum : ℤ := 0
deriving DecidableEq, Repr

namespace ThreadSemaphore

/-- `wait` up to the condition variable. -/
def beginWait (m : ThreadSemaphore) : ThreadSemaphore := { m with waitNum := m.waitNum - 1 }

/-- `wait` has to wait for the condition variable. -/
def mustWait (m : ThreadSemaphore) : Bool := m.waitNum - 1 < 0

/-- `wait` from the condition variable on. -/
def endWait (m : ThreadSemaphore) : Option ThreadSemaphore :=
  if m.wakeupNum > 0 then some { m with wakeupNum := m.wakeupNum - 1 } else none

/-- `wakeup`. -/
def wakeup (m : ThreadSemaphore) : ThreadSemaphore :=
  { waitNum := m.waitNum + 1
    wakeupNum := if m.waitNum + 1 ≤ 0 then m.wakeupNum + 1 else m.wakeupNum }

end ThreadSemaphore

/-- A `ThreadControl`.  Only `Close` holds the mutex for more than one step. -/
structure ThreadControl where
  isRun : Bool := false
  locked : Bool := false
  sem : ThreadSemaphore := {}
deriving DecidableEq, Repr

/-! ### The threads -/

/-- Where the owner of the `ThreadServer` is. -/
inductive OwnerPc
  | idle
  /-- in `Start`, behind `taskServer.Start()` -/
  | taskStarted
  | running
  /-- in `Close`, behind `_isRun = false` -/
  | closing
  /-- in `Close`, behind `taskServer.Close()` -/
  | tasksClosed
  /-- in `_thread.Close()`, which holds the mutex -/
  | locked
  /-- in `_thread.Close()`, behind `isRun = false` -/
  | waiting
  /-- in `_sem.wait()`, at the condition variable -/
  | blocked
  /-- `Close` has returned; the flag is history and tells whether it called `_sem.wait()` -/
  | closed (waited : Bool)
deriving DecidableEq, Repr

/-- Where the reactor thread is: in the loop of `ThreadServer::Run`, or behind it in
`ThreadControl::Run`. -/
inductive ReactorPc
  | none
  /-- `while(pThread->IsRun())` -/
  | test
  /-- at the test of `ClientsBuf` -/
  | buf
  /-- at the test of `Clients` -/
  | check
  | sleep
  | select
  /-- at `ReadData`, `WiriteData` and `checkTime` -/
  | serve
  /-- at `_thread.Exit()` -/
  | exit
  /-- at `ClearAllCLient` -/
  | destroy
  /-- at `_sem.wakeup()` -/
  | wakeup
  | done
deriving DecidableEq, Repr

/-- How far the reactor thread is from its end when its flag is cleared. -/
def ReactorPc.ahead : ReactorPc → ℕ
  | .buf => 7
  | .check => 6
  | .select => 5
  | .sleep | .serve => 4
  | .test => 3
  | .destroy => 2
  | .wakeup => 1
  | .none | .exit | .done => 0

theorem ReactorPc.ahead_pos (pc : ReactorPc) (h₁ : pc ≠ .none) (h₂ : pc ≠ .exit)
    (h₃ : pc ≠ .done) : 0 < pc.ahead := by
  cases pc with
  | none => exact absurd rfl h₁
  | exit => exact absurd rfl h₂
  | done => exact absurd rfl h₃
  | test | buf | check | sleep | select | serve | destroy | wakeup => decide

/-- Where the task thread is: in the loop of `ThreadTaskServer::Run`, or behind it in
`ThreadControl::Run`. -/
inductive TaskPc
  | none
  /-- `while(pThead->IsRun())` -/
  | test
  /-- at the test of `tasksBuf` -/
  | buf
  /-- at the test of `task` -/
  | check
  | sleep
  /-- at the `Deal` of the task with this index -/
  | deal (i : ℕ)
  /-- at `_sem.wakeup()` -/
  | wakeup
  | done
deriving DecidableEq, Repr

/-- A `ThreadServer` with clients `γ` and tasks `δ`, its owner and its two threads. -/
structure ServerThreads (γ δ : Type) where
  owner : OwnerPc := .idle
  reactor : ReactorPc := .none
  taskPc : TaskPc := .none
  /-- `_thread` -/
  thread : ThreadControl := {}
  /-- `_thread` of `taskServer` -/
  taskThread : ThreadControl := {}
  /-- `_isRun` -/
  isRun : Bool
  /-- `_isRun` of `taskServer` -/
  taskIsRun : Bool
  /-- `Clients` -/
  clients : List γ := []
  /-- `ClientsBuf` -/
  clientsBuf : List γ := []
  /-- `task` -/
  task : List δ := []
  /-- `tasksBuf` -/
  tasksBuf : List δ := []

/-- A step of one of the threads. -/
inductive StopAct (γ δ : Type)
  /-- the owner's next step in `Start` -/
  | start
  /-- the owner's next step in `Close` -/
  | close
  /-- the reactor thread's next step, with the answer of `select(2)` and the clients that are
  erased -/
  | reactor (selected : Bool) (erased : List γ)
  /-- the task thread's next step -/
  | task
  /-- `addClient` -/
  | addClient (c : γ)
  /-- `addSendTask` -/
  | addTask (d : δ)
deriving DecidableEq, Repr

namespace ServerThreads

variable {γ δ : Type} [DecidableEq γ]

/-- `Start`. -/
def startStep (s : ServerThreads γ δ) : Option (ServerThreads γ δ) :=
  match s.owner with
  | .idle =>
      -- `ThreadControl::Start` does nothing for a thread that runs
      some { s with
        owner := .taskStarted
        taskThread := { s.taskThread with isRun := true }
        taskPc := if s.taskThread.isRun then s.taskPc else .test }
  | .taskStarted =>
      some { s with
        owner := .running
        thread := { s.thread with isRun := true }
        reactor := if s.thread.isRun then s.reactor else .test }
  | _ => none

/-- `Close`. -/
def closeStep (s : ServerThreads γ δ) : Option (ServerThreads γ δ) :=
  match s.owner with
  | .idle | .running => some { s with owner := .closing, isRun := false }
  | .closing => some { s with owner := .tasksClosed, taskIsRun := false }
  | .tasksClosed =>
      if s.thread.locked then none
      else some { s with owner := .locked, thread := { s.thread with locked := true } }
  | .locked =>
      if s.thread.isRun then
        some { s with owner := .waiting, thread := { s.thread with isRun := false } }
      else some { s with owner := .closed false, thread := { s.thread with locked := false } }
  | .waiting =>
      let sem := s.thread.sem.beginWait
      if s.thread.sem.mustWait then
        some { s with owner := .blocked, thread := { s.thread with sem := sem } }
      else
        some { s with owner := .closed true, thread := { s.thread with sem := sem, locked := false } }
  | .blocked =>
      s.thread.sem.endWait.map fun sem =>
        { s with owner := .closed true, thread := { s.thread with sem := sem, locked := false } }
  | .taskStarted | .closed _ => none

/-- `ThreadServer::Run` and what `ThreadControl::Run` does behind it. -/
def reactorStep (s : ServerThreads γ δ) (selected : Bool) (erased : List γ) :
    Option (ServerThreads γ δ) :=
  match s.reactor with
  | .test => some { s with reactor := if s.thread.isRun then .buf else .destroy }
  | .buf =>
      some { s with
        reactor := .check, clients := s.clients ++ s.clientsBuf, clientsBuf := [] }
  | .check => some { s with reactor := if s.clients.isEmpty then .sleep else .select }
  | .sleep => some { s with reactor := .test }
  | .select => some { s with reactor := if selected then .serve else .exit }
  | .serve => some { s with reactor := .test, clients := s.clients.filter (· ∉ erased) }
  | .exit =>
      if s.thread.locked then none
      else some { s with reactor := .destroy, thread := { s.thread with isRun := false } }
  | .destroy => some { s with reactor := .wakeup, clients := [], clientsBuf := [] }
  | .wakeup =>
      some { s with reactor := .done, thread := { s.thread with sem := s.thread.sem.wakeup } }
  | .none | .done => none

/-- `ThreadTaskServer::Run` and what `ThreadControl::Run` does behind it. -/
def taskStep (s : ServerThreads γ δ) : Option (ServerThreads γ δ) :=
  match s.taskPc with
  | .test => some { s with taskPc := if s.taskThread.isRun then .buf else .wakeup }
  | .buf => some { s with taskPc := .check, task := s.task ++ s.tasksBuf, tasksBuf := [] }
  | .check => some { s with taskPc := if s.task.isEmpty then .sleep else .deal 0 }
  | .sleep => some { s with taskPc := .test }
  | .deal i =>
      if i < s.task.length then some { s with taskPc := .deal (i + 1) }
      else some { s with taskPc := .test, task := [] }
  | .wakeup =>
      some { s with
        taskPc := .done, taskThread := { s.taskThread with sem := s.taskThread.sem.wakeup } }
  | .none | .done => none

/-- A step of one of the threads, or a client or a task that another thread adds. -/
def step (s : ServerThreads γ δ) : StopAct γ δ → Option (ServerThreads γ δ)
  | .start => s.startStep
  | .close => s.closeStep
  | .reactor selected erased => s.reactorStep selected erased
  | .task => s.taskStep
  | .addClient c => some { s with clientsBuf := s.clientsBuf ++ [c] }
  | .addTask d => some { s with tasksBuf := s.tasksBuf ++ [d] }

end ServerThreads

/-- A new `ThreadServer`, with the flags no constructor sets. -/
def stopLts (γ δ : Type) [DecidableEq γ] (isRun taskIsRun : Bool) :
    Lts (ServerThreads γ δ) (StopAct γ δ) where
  init := { isRun := isRun, taskIsRun := taskIsRun }
  step := ServerThreads.step

namespace ServerThreads

variable {γ δ : Type} [DecidableEq γ] {b₁ b₂ : Bool}
variable {s s' : ServerThreads γ δ} {a : StopAct γ δ}

/-! ### What touches the object -/

/-- The step is one of the two threads and touches the `ThreadServer`, of which everything the threads
use is a part.  Only a thread that sleeps does not touch it. -/
def Touches (s : ServerThreads γ δ) : StopAct γ δ → Prop
  | .reactor _ _ => s.reactor ≠ .sleep
  | .task => s.taskPc ≠ .sleep
  | _ => False

/-- No step of the two threads touches the object any more. -/
def NeverTouched (b₁ b₂ : Bool) (s : ServerThreads γ δ) : Prop :=
  ∀ bs s', (stopLts γ δ b₁ b₂).exec s bs = some s' →
    (stopLts γ δ b₁ b₂).AllSteps (fun s a => ¬ s.Touches a) s bs

/-! ### What a step may change -/

omit [DecidableEq γ] in
/-- A step of `Close` changes where the owner is, the control of the reactor and the two flags that no
loop tests. -/
theorem closeStep_eq (h : s.closeStep = some s') : ∃ owner thread b₁ b₂,
    s' = { s with owner := owner, thread := thread, isRun := b₁, taskIsRun := b₂ } ∧
      owner ≠ .taskStarted := by
  unfold closeStep at h
  split at h
  · exact ⟨_, _, _, _, (Option.some.inj h).symm, by simp⟩
  · exact ⟨_, _, _, _, (Option.some.inj h).symm, by simp⟩
  · exact ⟨_, _, _, _, (Option.some.inj h).symm, by simp⟩
  · split at h
    · exact absurd h (by simp)
    · exact ⟨_, _, _, _, (Option.some.inj h).symm, by simp⟩
  · split at h
    · exact ⟨_, _, _, _, (Option.some.inj h).symm, by simp⟩
    · exact ⟨_, _, _, _, (Option.some.inj h).symm, by simp⟩
  · simp only [] at h
    split at h
    · exact ⟨_, _, _, _, (Option.some.inj h).symm, by simp⟩
    · exact ⟨_, _, _, _, (Option.some.inj h).symm, by simp⟩
  · obtain ⟨sem, -, rfl⟩ := Option.map_eq_some_iff.1 h
    exact ⟨_, _, _, _, rfl, by simp⟩
  · exact absurd h (by simp)
  · exact absurd h (by simp)

/-- A step of the reactor thread changes where it is, its control and the clients. -/
theorem reactorStep_eq {selected : Bool} {erased : List γ}
    (h : s.reactorStep selected erased = some s') : ∃ reactor thread clients clientsBuf,
    s' = { s with
      reactor := reactor, thread := thread, clients := clients, clientsBuf := clientsBuf } := by
  unfold reactorStep at h
  split at h
  · exact ⟨_, _, _, _, (Option.some.inj h).symm⟩
  · exact ⟨_, _, _, _, (Option.some.inj h).symm⟩
  · exact ⟨_, _, _, _, (Option.some.inj h).symm⟩
  · exact ⟨_, _, _, _, (Option.some.inj h).symm⟩
  · exact ⟨_, _, _, _, (Option.some.inj h).symm⟩
  · exact ⟨_, _, _, _, (Option.some.inj h).symm⟩
  · split at h
    · exact absurd h (by simp)
    · exact ⟨_, _, _, _, (Option.some.inj h).symm⟩
  · exact ⟨_, _, _, _, (Option.some.inj h).symm⟩
  · exact ⟨_, _, _, _, (Option.some.inj h).symm⟩
  · exact absurd h (by simp)
  · exact absurd h (by simp)

omit [DecidableEq γ] in
/-- A step of the task thread changes where it is, its control and the tasks. -/
theorem taskStep_eq (h : s.taskStep = some s') : ∃ taskPc taskThread task tasksBuf,
    s' = { s with
      taskPc := taskPc, taskThread := taskThread, task := task, tasksBuf := tasksBuf } := by
  unfold taskStep at h
  split at h
  · exact ⟨_, _, _, _, (Option.some.inj h).symm⟩
  · exact ⟨_, _, _, _, (Option.some.inj h).symm⟩
  · exact ⟨_, _, _, _, (Option.some.inj h).symm⟩
  · exact ⟨_, _, _, _, (Option.some.inj h).symm⟩
  · split at h
    · exact ⟨_, _, _, _, (Option.some.inj h).symm⟩
    · exact ⟨_, _, _, _, (Option.some.inj h).symm⟩
  · exact ⟨_, _, _, _, (Option.some.inj h).symm⟩
  · exact absurd h (by simp)
  · exact absurd h (by simp)

/-! ### The task thread -/

/-- `Start` was not called: there are no threads. -/
structure Idle (s : ServerThreads γ δ) : Prop where
  reactor : s.reactor = .none
  taskPc : s.taskPc = .none
  owner : s.owner ≠ .taskStarted
  taskThread : s.taskThread.isRun = false

/-- The task thread goes round its loop. -/
structure Looping (s : ServerThreads γ δ) : Prop where
  isRun : s.taskThread.isRun = true
  taskPc : s.taskPc ≠ .none ∧ s.taskPc ≠ .wakeup ∧ s.taskPc ≠ .done

/-- **Nothing takes the task thread out of its loop.** -/
theorem Looping.step (hl : s.Looping) (h : s.step a = some s') : s'.Looping := by
  obtain ⟨hrun, hpc₁, hpc₂, hpc₃⟩ := hl
  cases a with
  | start =>
      simp only [ServerThreads.step, startStep] at h
      split at h
      · obtain rfl := Option.some.inj h
        exact ⟨rfl, by simpa [hrun] using ⟨hpc₁, hpc₂, hpc₃⟩⟩
      · obtain rfl := Option.some.inj h
        exact ⟨hrun, hpc₁, hpc₂, hpc₃⟩
      · exact absurd h (by simp)
  | close =>
      obtain ⟨_, _, _, _, rfl, -⟩ := closeStep_eq h
      exact ⟨hrun, hpc₁, hpc₂, hpc₃⟩
  | reactor selected erased =>
      obtain ⟨_, _, _, _, rfl⟩ := reactorStep_eq h
      exact ⟨hrun, hpc₁, hpc₂, hpc₃⟩
  | task =>
      simp only [ServerThreads.step, taskStep] at h
      split at h
      · -- the flag that the loop tests is still set
        obtain rfl := Option.some.inj h
        rw [hrun]
        exact ⟨hrun, by simp⟩
      · obtain rfl := Option.some.inj h
        exact ⟨hrun, by simp⟩
      · obtain rfl := Option.some.inj h
        refine ⟨hrun, ?_⟩
        split <;> simp
      · obtain rfl := Option.some.inj h
        exact ⟨hrun, by simp⟩
      · split at h
        · obtain rfl := Option.some.inj h
          exact ⟨hrun, by simp⟩
        · obtain rfl := Option.some.inj h
          exact ⟨hrun, by simp⟩
      · rename_i hpc
        exact absurd hpc hpc₂
      · exact absurd h (by simp)
      · exact absurd h (by simp)
  | addClient c =>
      obtain rfl := Option.some.inj h
      exact ⟨hrun, hpc₁, hpc₂, hpc₃⟩
  | addTask d =>
      obtain rfl := Option.some.inj h
      exact ⟨hrun, hpc₁, hpc₂, hpc₃⟩

/-- Before `Start` there is nothing but the owner. -/
theorem Idle.step (hi : s.Idle) (h : s.step a = some s') :
    (a = .start ∧ s'.Looping) ∨ (a ≠ .start ∧ ¬ s.Touches a ∧ s'.Idle) := by
  cases a with
  | start =>
      refine .inl ⟨rfl, ?_⟩
      simp only [ServerThreads.step, startStep] at h
      split at h
      · obtain rfl := Option.some.inj h
        exact ⟨rfl, by simp [hi.taskThread]⟩
      · rename_i ho
        exact absurd ho hi.owner
      · exact absurd h (by simp)
  | close =>
      obtain ⟨_, _, _, _, rfl, howner⟩ := closeStep_eq h
      exact .inr ⟨by simp, id, hi.reactor, hi.taskPc, howner, hi.taskThread⟩
  | reactor selected erased =>
      simp only [ServerThreads.step, reactorStep, hi.reactor] at h
      exact absurd h (by simp)
  | task =>
      simp only [ServerThreads.step, taskStep, hi.taskPc] at h
      exact absurd h (by simp)
  | addClient c =>
      obtain rfl := Option.some.inj h
      exact .inr ⟨by simp, id, hi.reactor, hi.taskPc, hi.owner, hi.taskThread⟩
  | addTask d =>
      obtain rfl := Option.some.inj h
      exact .inr ⟨by simp, id, hi.reactor, hi.taskPc, hi.owner, hi.taskThread⟩

/-- Once `Start` was called the task thread goes round its loop for ever. -/
theorem Looping.exec {as : List (StopAct γ δ)} :
    ∀ {s s' : ServerThreads γ δ}, s.Looping → (stopLts γ δ b₁ b₂).exec s as = some s' →
      s'.Looping := by
  induction as with
  | nil =>
      intro s s' hl he
      obtain rfl := Option.some.inj he
      exact hl
  | cons a as ih =>
      intro s s' hl he
      obtain ⟨s₁, h₁, h₂⟩ := (Lts.exec_cons_eq_some _).1 he
      exact ih (hl.step h₁) h₂

/-- **What a run tells about the task thread**: whether `Start` was called. -/
theorem Idle.exec {as : List (StopAct γ δ)} :
    ∀ {s s' : ServerThreads γ δ}, s.Idle → (stopLts γ δ b₁ b₂).exec s as = some s' →
      (.start ∈ as → s'.Looping) ∧ (.start ∉ as → s'.Idle) := by
  induction as with
  | nil =>
      intro s s' hi he
      obtain rfl := Option.some.inj he
      exact ⟨fun h => absurd h List.not_mem_nil, fun _ => hi⟩
  | cons a as ih =>
      intro s s' hi he
      obtain ⟨s₁, h₁, h₂⟩ := (Lts.exec_cons_eq_some _).1 he
      rcases hi.step h₁ with ⟨rfl, hl⟩ | ⟨ha, -, hi₁⟩
      · exact ⟨fun _ => hl.exec h₂, fun h => absurd List.mem_cons_self h⟩
      · obtain ⟨ih₁, ih₂⟩ := ih hi₁ h₂
        refine ⟨fun h => ih₁ ?_, fun h => ih₂ fun hm => h (List.mem_cons_of_mem _ hm)⟩
        rcases List.mem_cons.1 h with h | h
        · exact absurd h.symm ha
        · exact h

/-- A thread that goes round its loop touches the object with its next step, or with the one after
it. -/
theorem Looping.not_neverTouched (hl : s.Looping) : ¬ s.NeverTouched b₁ b₂ := by
  intro hn
  obtain ⟨hpc₁, hpc₂, hpc₃⟩ := hl.taskPc
  cases hpc : s.taskPc with
  | none => exact hpc₁ hpc
  | wakeup => exact hpc₂ hpc
  | done => exact hpc₃ hpc
  | sleep =>
      -- it wakes up and tests the flag
      have hstep : (stopLts γ δ b₁ b₂).step s .task = some { s with taskPc := .test } := by
        simp [stopLts, ServerThreads.step, taskStep, hpc]
      have htest : ((stopLts γ δ b₁ b₂).step { s with taskPc := .test } .task).isSome = true := rfl
      obtain ⟨s₂, hs₂⟩ := Option.isSome_iff_exists.1 htest
      have he : (stopLts γ δ b₁ b₂).exec s [.task, .task] = some s₂ := by
        rw [Lts.exec_cons, hstep, Option.bind_some, Lts.exec_cons, hs₂, Option.bind_some,
          Lts.exec_nil]
      exact (hn _ _ he).2 _ hstep |>.1 (by simp [Touches])
  | test | buf | check | deal i =>
      have hsome : ((stopLts γ δ b₁ b₂).step s .task).isSome = true := by
        simp only [stopLts, ServerThreads.step, taskStep, hpc]
        first
        | rfl
        | (split <;> rfl)
      obtain ⟨s₁, hs₁⟩ := Option.isSome_iff_exists.1 hsome
      have he : (stopLts γ δ b₁ b₂).exec s [.task] = some s₁ := by
        rw [Lts.exec_cons, hs₁, Option.bind_some, Lts.exec_nil]
      exact (hn _ _ he).1 (by simp [Touches, hpc])

/-- After `Close` has returned the owner does nothing with the object but delete it. -/
theorem closed_step {w : Bool} (hc : s.owner = .closed w) (h : s.step a = some s') :
    a ≠ .start ∧ s'.owner = .closed w := by
  cases a with
  | start => simp [ServerThreads.step, startStep, hc] at h
  | close => simp [ServerThreads.step, closeStep, hc] at h
  | reactor selected erased =>
      obtain ⟨_, _, _, _, rfl⟩ := reactorStep_eq h
      exact ⟨by simp, hc⟩
  | task =>
      obtain ⟨_, _, _, _, rfl⟩ := taskStep_eq h
      exact ⟨by simp, hc⟩
  | addClient c =>
      obtain rfl := Option.some.inj h
      exact ⟨by simp, hc⟩
  | addTask d =>
      obtain rfl := Option.some.inj h
      exact ⟨by simp, hc⟩

/-- Without threads nothing touches the object. -/
theorem Idle.neverTouched {w : Bool} (hi : s.Idle) (hc : s.owner = .closed w) :
    s.NeverTouched b₁ b₂ := by
  intro bs
  induction bs generalizing s with
  | nil => exact fun _ _ => trivial
  | cons b bs ih =>
      intro s' he
      obtain ⟨s₁, h₁, h₂⟩ := (Lts.exec_cons_eq_some _).1 he
      obtain ⟨hb, hc₁⟩ := closed_step hc h₁
      rcases hi.step h₁ with ⟨hb', -⟩ | ⟨-, hquiet, hi₁⟩
      · exact absurd hb' hb
      · refine ⟨hquiet, fun t ht => ?_⟩
        obtain rfl : t = s₁ := Option.some.inj (ht.symm.trans h₁)
        exact ih hi₁ hc₁ s' h₂

/-! ### The reactor thread -/

/-- The semaphore of the reactor when nobody has waited at it. -/
def restSem (s : ServerThreads γ δ) : ThreadSemaphore :=
  if s.reactor = .done then ⟨1, 0⟩ else ⟨0, 0⟩

/-- **What the place of the owner says about the semaphore of the reactor**, and about its flag and its
mutex. -/
def HandshakeAt (s : ServerThreads γ δ) : OwnerPc → Prop
  | .idle | .taskStarted =>
      s.thread.isRun = false ∧ s.thread.locked = false ∧ s.thread.sem = s.restSem ∧
        s.reactor = .none
  | .running | .closing | .tasksClosed => s.thread.locked = false ∧ s.thread.sem = s.restSem
  | .locked => s.thread.locked = true ∧ s.thread.sem = s.restSem
  | .waiting => s.thread.isRun = false ∧ s.thread.sem = s.restSem
  | .blocked => s.thread.sem = if s.reactor = .done then ⟨0, 1⟩ else ⟨-1, 0⟩
  | .closed waited => waited = true → s.reactor = .done

/-- The handshake of the owner with the reactor. -/
def Handshake (s : ServerThreads γ δ) : Prop := s.HandshakeAt s.owner

/-- A step of the reactor thread leaves its semaphore alone, up to the `wakeup` at its end. -/
theorem reactorStep_sem {selected : Bool} {erased : List γ}
    (h : s.reactorStep selected erased = some s') :
    s.reactor ≠ .none ∧ s.reactor ≠ .done ∧ s'.reactor ≠ .none ∧ s'.owner = s.owner ∧
      s'.thread.locked = s.thread.locked ∧ (s.thread.isRun = false → s'.thread.isRun = false) ∧
      if s'.reactor = .done then s'.thread.sem = s.thread.sem.wakeup
      else s'.thread.sem = s.thread.sem := by
  cases hpc : s.reactor with
  | none => simp [reactorStep, hpc] at h
  | done => simp [reactorStep, hpc] at h
  | exit =>
      simp only [reactorStep, hpc] at h
      split at h
      · exact absurd h (by simp)
      · obtain rfl := Option.some.inj h
        exact ⟨by simp, by simp, by simp, rfl, rfl, fun _ => rfl, by simp⟩
  | test =>
      simp only [reactorStep, hpc] at h
      obtain rfl := Option.some.inj h
      cases s.thread.isRun <;> exact ⟨by simp, by simp, by simp, rfl, rfl, id, by simp⟩
  | check =>
      simp only [reactorStep, hpc] at h
      obtain rfl := Option.some.inj h
      cases s.clients.isEmpty <;> exact ⟨by simp, by simp, by simp, rfl, rfl, id, by simp⟩
  | select =>
      simp only [reactorStep, hpc] at h
      obtain rfl := Option.some.inj h
      cases selected <;> exact ⟨by simp, by simp, by simp, rfl, rfl, id, by simp⟩
  | buf | sleep | serve | destroy | wakeup =>
      simp only [reactorStep, hpc] at h
      obtain rfl := Option.some.inj h
      exact ⟨by simp, by simp, by simp, rfl, rfl, id, by simp⟩

/-- The reactor keeps the handshake. -/
theorem Handshake.reactorStep {selected : Bool} {erased : List γ} (hs : s.Handshake)
    (h : s.reactorStep selected erased = some s') : s'.Handshake := by
  obtain ⟨hnone, hdone, -, howner, hlocked, hrun, hsem⟩ := reactorStep_sem h
  -- the semaphore at rest stays so: the reactor was not through before
  have hrest : s.thread.sem = s.restSem → s'.thread.sem = s'.restSem := by
    intro hs
    rw [restSem, if_neg hdone] at hs
    rw [restSem]
    split at hsem
    · rename_i hd
      rw [hsem, hs, if_pos hd]
      rfl
    · rename_i hd
      rw [hsem, hs, if_neg hd]
  simp only [Handshake, HandshakeAt] at hs ⊢
  rw [howner]
  cases ho : s.owner with
  | idle =>
      rw [ho] at hs
      exact absurd hs.2.2.2 hnone
  | taskStarted =>
      rw [ho] at hs
      exact absurd hs.2.2.2 hnone
  | running | closing | tasksClosed =>
      rw [ho] at hs
      exact ⟨hlocked.trans hs.1, hrest hs.2⟩
  | locked =>
      rw [ho] at hs
      exact ⟨hlocked.trans hs.1, hrest hs.2⟩
  | waiting =>
      rw [ho] at hs
      exact ⟨hrun hs.1, hrest hs.2⟩
  | blocked =>
      rw [ho] at hs
      simp only [if_neg hdone] at hs
      -- `wakeup` finds the owner waiting
      split at hsem
      · rename_i hd
        simp only [hsem, hs, if_pos hd]
        rfl
      · rename_i hd
        simp only [hsem, hs, if_neg hd]
  | closed waited =>
      rw [ho] at hs
      exact fun hw => absurd (hs hw) hdone

omit [DecidableEq γ] in
/-- The owner keeps the handshake. -/
theorem Handshake.closeStep (hs : s.Handshake) (h : s.closeStep = some s') : s'.Handshake := by
  simp only [Handshake, HandshakeAt] at hs ⊢
  cases ho : s.owner with
  | idle =>
      rw [ho] at hs
      simp only [ServerThreads.closeStep, ho] at h
      obtain rfl := Option.some.inj h
      exact ⟨hs.2.1, hs.2.2.1⟩
  | running | closing =>
      rw [ho] at hs
      simp only [ServerThreads.closeStep, ho] at h
      obtain rfl := Option.some.inj h
      exact hs
  | tasksClosed =>
      rw [ho] at hs
      simp only [ServerThreads.closeStep, ho, hs.1] at h
      obtain rfl := Option.some.inj h
      exact ⟨rfl, hs.2⟩
  | locked =>
      rw [ho] at hs
      simp only [ServerThreads.closeStep, ho] at h
      split at h
      · obtain rfl := Option.some.inj h
        exact ⟨rfl, hs.2⟩
      · obtain rfl := Option.some.inj h
        exact fun hw => absurd hw (by simp)
  | waiting =>
      rw [ho] at hs
      simp only [ServerThreads.closeStep, ho] at h
      have hsem := hs.2
      split at h
      · -- the reactor has not been there
        rename_i hmust
        obtain rfl := Option.some.inj h
        by_cases hd : s.reactor = .done
        · rw [hsem, restSem, if_pos hd] at hmust
          exact absurd hmust (by decide)
        · simp only [hsem, restSem, if_neg hd]
          rfl
      · rename_i hmust
        obtain rfl := Option.some.inj h
        intro _
        by_contra hd
        rw [hsem, restSem, if_neg hd] at hmust
        exact hmust (by decide)
  | blocked =>
      rw [ho] at hs
      simp only [ServerThreads.closeStep, ho] at h
      obtain ⟨sem, hend, rfl⟩ := Option.map_eq_some_iff.1 h
      intro _
      by_contra hd
      rw [hs, if_neg hd] at hend
      simp [ThreadSemaphore.endWait] at hend
  | taskStarted => simp [ServerThreads.closeStep, ho] at h
  | closed waited => simp [ServerThreads.closeStep, ho] at h

/-- **Every step keeps the handshake.** -/
theorem Handshake.step (hs : s.Handshake) (h : s.step a = some s') : s'.Handshake := by
  cases a with
  | close => exact hs.closeStep h
  | reactor selected erased => exact hs.reactorStep h
  | start =>
      simp only [Handshake, HandshakeAt] at hs ⊢
      simp only [ServerThreads.step, startStep] at h
      split at h
      · rename_i ho
        rw [ho] at hs
        obtain rfl := Option.some.inj h
        exact hs
      · rename_i ho
        rw [ho] at hs
        obtain rfl := Option.some.inj h
        refine ⟨hs.2.1, ?_⟩
        simp [hs.1, hs.2.2.1, restSem, hs.2.2.2]
      · exact absurd h (by simp)
  | task =>
      obtain ⟨_, _, _, _, rfl⟩ := taskStep_eq h
      exact hs
  | addClient c =>
      obtain rfl := Option.some.inj h
      exact hs
  | addTask d =>
      obtain rfl := Option.some.inj h
      exact hs

theorem Handshake.reach {g : ServerThreads γ δ → StopAct γ δ → Prop}
    (hs : (stopLts γ δ b₁ b₂).Reach g s) : s.Handshake :=
  hs.invariant ⟨rfl, rfl, rfl, rfl⟩ fun _ _ _ _ hs _ hst => hs.step hst

/-- **When `Close` waits, the reactor thread is through** when it returns. -/
theorem reactor_done_of_waited {g : ServerThreads γ δ → StopAct γ δ → Prop}
    (hs : (stopLts γ δ b₁ b₂).Reach g s) (hc : s.owner = .closed true) : s.reactor = .done := by
  have hh := Handshake.reach hs
  rw [Handshake, hc] at hh
  exact hh rfl

/-! ### `Close` returns -/

/-- A reactor whose flag is set was started. -/
theorem reactor_started {g : ServerThreads γ δ → StopAct γ δ → Prop}
    (hs : (stopLts γ δ b₁ b₂).Reach g s) : s.thread.isRun = true → s.reactor ≠ .none := by
  refine hs.invariant (I := fun s => s.thread.isRun = true → s.reactor ≠ .none) ?_ ?_
  · intro h
    exact absurd h (by simp [stopLts])
  · intro s a s' hr hi _ h
    have hh := Handshake.reach hr
    cases a with
    | start =>
        simp only [stopLts, ServerThreads.step, startStep] at h
        split at h
        · obtain rfl := Option.some.inj h
          exact hi
        · rename_i ho
          rw [Handshake, ho] at hh
          obtain rfl := Option.some.inj h
          intro _
          simp [hh.1]
        · exact absurd h (by simp)
    | close =>
        simp only [stopLts, ServerThreads.step, closeStep] at h
        split at h
        · obtain rfl := Option.some.inj h
          exact hi
        · obtain rfl := Option.some.inj h
          exact hi
        · obtain rfl := Option.some.inj h
          exact hi
        · split at h
          · exact absurd h (by simp)
          · obtain rfl := Option.some.inj h
            exact hi
        · split at h
          · obtain rfl := Option.some.inj h
            exact fun hrun => absurd hrun (by simp)
          · obtain rfl := Option.some.inj h
            exact hi
        · split at h
          · obtain rfl := Option.some.inj h
            exact hi
          · obtain rfl := Option.some.inj h
            exact hi
        · obtain ⟨sem, -, rfl⟩ := Option.map_eq_some_iff.1 h
          exact hi
        · exact absurd h (by simp)
        · exact absurd h (by simp)
    | reactor selected erased => exact fun _ => (reactorStep_sem h).2.2.1
    | task =>
        obtain ⟨_, _, _, _, rfl⟩ := taskStep_eq h
        exact hi
    | addClient c =>
        obtain rfl := Option.some.inj h
        exact hi
    | addTask d =>
        obtain rfl := Option.some.inj h
        exact hi

/-- The reactor thread can get through. -/
def Finishes (b₁ b₂ : Bool) (s : ServerThreads γ δ) : Prop :=
  ∃ bs s', (stopLts γ δ b₁ b₂).exec s bs = some s' ∧ s'.reactor = .done ∧ s'.owner = s.owner

theorem Finishes.step {s₁ : ServerThreads γ δ} (h : s.reactorStep true [] = some s₁)
    (hf : s₁.Finishes b₁ b₂) : s.Finishes b₁ b₂ := by
  obtain ⟨bs, s', he, hdone, howner⟩ := hf
  obtain ⟨_, _, _, _, rfl⟩ := reactorStep_eq h
  exact ⟨.reactor true [] :: bs, s', (Lts.exec_cons_eq_some _).2 ⟨_, h, he⟩, hdone, howner⟩

/-- A step of a reactor whose flag is cleared, when `select` succeeds. -/
theorem reactorStep_ahead (hrun : s.thread.isRun = false) (hpos : 0 < s.reactor.ahead) :
    ∃ s₁, s.reactorStep true [] = some s₁ ∧ s₁.thread.isRun = false ∧
      s₁.reactor.ahead < s.reactor.ahead ∧ s₁.reactor ≠ .none ∧ s₁.reactor ≠ .exit := by
  cases hpc : s.reactor with
  | none | exit | done =>
      rw [hpc] at hpos
      exact absurd hpos (by decide)
  | test =>
      simp only [reactorStep, hpc, hrun]
      exact ⟨_, rfl, hrun, by simp [ReactorPc.ahead], by simp, by simp⟩
  | check =>
      cases hc : s.clients.isEmpty <;> simp only [reactorStep, hpc, hc]
      · exact ⟨_, rfl, hrun, by simp [ReactorPc.ahead], by simp, by simp⟩
      · exact ⟨_, rfl, hrun, by simp [ReactorPc.ahead], by simp, by simp⟩
  | buf | sleep | select | serve | destroy | wakeup =>
      simp only [reactorStep, hpc]
      exact ⟨_, rfl, hrun, by simp [ReactorPc.ahead], by simp, by simp⟩

/-- **A reactor whose flag is cleared gets through**, unless it waits for the mutex in `Exit`. -/
theorem finishes_of_not_isRun {n : ℕ} : ∀ {s : ServerThreads γ δ}, s.reactor.ahead = n →
    s.thread.isRun = false → s.reactor ≠ .none → s.reactor ≠ .exit → s.Finishes b₁ b₂ := by
  induction n using Nat.strong_induction_on with
  | _ n ih =>
      intro s hn hrun hnone hexit
      by_cases hdone : s.reactor = .done
      · exact ⟨[], s, rfl, hdone, rfl⟩
      · have hpos : 0 < s.reactor.ahead := s.reactor.ahead_pos hnone hexit hdone
        obtain ⟨s₁, h, hrun₁, hlt, hnone₁, hexit₁⟩ := reactorStep_ahead hrun hpos
        exact .step h (ih _ (hn ▸ hlt) rfl hrun₁ hnone₁ hexit₁)

/-- The steps of `Close` up to the test of the flag. -/
theorem close_locked (ho : s.owner = .running) (hl : s.thread.locked = false) :
    (stopLts γ δ b₁ b₂).exec s [.close, .close, .close] = some { s with
      owner := .locked, thread := { s.thread with locked := true }, isRun := false,
      taskIsRun := false } := by
  simp [Lts.exec, stopLts, ServerThreads.step, ServerThreads.closeStep, ho, hl]

/-- `Close` does not wait when the flag is cleared already. -/
theorem close_returns_of_not_isRun (ho : s.owner = .running) (hl : s.thread.locked = false)
    (hrun : s.thread.isRun = false) :
    ∃ bs s' w, (stopLts γ δ b₁ b₂).exec s bs = some s' ∧ s'.owner = .closed w := by
  refine ⟨[.close, .close, .close] ++ [.close], { s with
    owner := .closed false, thread := { s.thread with locked := false }, isRun := false,
    taskIsRun := false }, false, ?_, rfl⟩
  rw [Lts.exec_append, close_locked ho hl]
  simp [Lts.exec, stopLts, ServerThreads.step, ServerThreads.closeStep, hrun]

/-- **`Close` can return**, whatever the clients and the tasks are and wherever the two threads
are. -/
theorem close_returns (hs : (stopLts γ δ b₁ b₂).Reach (fun _ _ => True) s)
    (ho : s.owner = .running) :
    ∃ bs s' w, (stopLts γ δ b₁ b₂).exec s bs = some s' ∧ s'.owner = .closed w := by
  have hh := Handshake.reach hs
  rw [Handshake, ho] at hh
  have hl : s.thread.locked = false := hh.1
  cases hrun : s.thread.isRun with
  | false => exact close_returns_of_not_isRun ho hl hrun
  | true =>
      have hnone : s.reactor ≠ .none := reactor_started hs hrun
      by_cases hexit : s.reactor = .exit
      · -- `Exit` first: it needs the mutex that `Close` would hold
        have hstep : (stopLts γ δ b₁ b₂).step s (.reactor true []) = some { s with
            reactor := .destroy, thread := { s.thread with isRun := false } } := by
          simp [stopLts, ServerThreads.step, ServerThreads.reactorStep, hexit, hl]
        have hcloses : ∃ bs s' w, (stopLts γ δ b₁ b₂).exec { s with
            reactor := .destroy, thread := { s.thread with isRun := false } } bs = some s' ∧
            s'.owner = .closed w := close_returns_of_not_isRun ho hl rfl
        obtain ⟨bs, s', w, he, hc⟩ := hcloses
        exact ⟨_ :: bs, s', w, (Lts.exec_cons_eq_some _).2 ⟨_, hstep, he⟩, hc⟩
      · -- the owner clears the flag, the reactor gets through, and the owner goes on
        have hclear : (stopLts γ δ b₁ b₂).exec s ([.close, .close, .close] ++ [.close]) =
            some { s with
              owner := .waiting, thread := { s.thread with isRun := false, locked := true }
              isRun := false, taskIsRun := false } := by
          rw [Lts.exec_append, close_locked ho hl]
          simp [Lts.exec, stopLts, ServerThreads.step, ServerThreads.closeStep, hrun]
        have hfinishes : ServerThreads.Finishes b₁ b₂ { s with
            owner := .waiting, thread := { s.thread with isRun := false, locked := true }
            isRun := false, taskIsRun := false } := finishes_of_not_isRun rfl rfl hnone hexit
        obtain ⟨bs, s₁, he, hdone, howner⟩ := hfinishes
        have hwait : s₁.owner = .waiting := howner
        have hrest : s₁.thread.sem = ⟨1, 0⟩ := by
          have hh₁ := Handshake.reach ((hs.of_allSteps hclear (Lts.allSteps_true _ _)).of_allSteps
            he (Lts.allSteps_true _ _))
          rw [Handshake, hwait] at hh₁
          rw [hh₁.2, restSem, if_pos hdone]
        have hlast : (stopLts γ δ b₁ b₂).exec s₁ [.close] = some { s₁ with
            owner := .closed true
            thread := { s₁.thread with sem := s₁.thread.sem.beginWait, locked := false } } := by
          simp [Lts.exec, stopLts, ServerThreads.step, ServerThreads.closeStep, hwait, hrest,
            ThreadSemaphore.mustWait]
        have hall : (stopLts γ δ b₁ b₂).exec s
            (([.close, .close, .close] ++ [.close]) ++ (bs ++ [.close])) = some { s₁ with
              owner := .closed true
              thread := { s₁.thread with sem := s₁.thread.sem.beginWait, locked := false } } := by
          rw [Lts.exec_append, hclear, Option.bind_some, Lts.exec_append, he, Option.bind_some,
            hlast]
        exact ⟨_, _, true, hall, rfl⟩

end ServerThreads

/-- **When the object may be deleted after `Close`.**  Once `Close` has returned, the two threads touch
the object no more exactly when `Start` was not called. -/
theorem close_untouched_iff {γ δ : Type} [DecidableEq γ] {b₁ b₂ : Bool} {as : List (StopAct γ δ)}
    {s : ServerThreads γ δ} {w : Bool}
    (he : (stopLts γ δ b₁ b₂).exec (stopLts γ δ b₁ b₂).init as = some s)
    (hc : s.owner = .closed w) : s.NeverTouched b₁ b₂ ↔ .start ∉ as := by
  have hinit : (stopLts γ δ b₁ b₂).init.Idle := ⟨rfl, rfl, by simp [stopLts], rfl⟩
  obtain ⟨hstarted, hidle⟩ := hinit.exec he
  constructor
  · intro hn hm
    exact (hstarted hm).not_neverTouched hn
  · intro hm
    exact (hidle hm).neverTouched hc

section Examples

/-- `Close` without `Start`. -/
theorem close_untouched_idle : ({ owner := .closed false, isRun := false, taskIsRun := false } :
    ServerThreads ℕ ℕ).NeverTouched true true :=
  (@close_untouched_iff ℕ ℕ _ true true [.close, .close, .close, .close] _ false rfl rfl).2
    (by decide)

/-- The owner starts the threads and closes while both have nothing to do: it waits for the reactor
thread, which gets through. -/
def closeQuiet : List (StopAct ℕ ℕ) :=
  [.start, .start, .reactor true [], .task, .close, .close, .close, .close, .close,
    .reactor true [], .reactor true [], .reactor true [], .reactor true [], .reactor true [],
    .reactor true [], .close]

/-- The `select` of the reactor thread fails before the owner closes. -/
def closeFailed : List (StopAct ℕ ℕ) :=
  [.start, .start, .addClient 3, .reactor true [], .reactor true [], .reactor true [],
    .reactor false [], .reactor true [], .close, .close, .close, .close]

/-- `Close` has returned.  In the first run the task thread goes on with its loop; in the second one the
reactor thread, too, has still to clear its clients. -/
theorem close_touched :
    (∃ s, (stopLts ℕ ℕ true true).exec (stopLts ℕ ℕ true true).init closeQuiet = some s ∧
      s.owner = .closed true ∧ s.reactor = .done ∧ s.taskPc = .buf ∧
        ¬ s.NeverTouched true true) ∧
    ∃ s, (stopLts ℕ ℕ true true).exec (stopLts ℕ ℕ true true).init closeFailed = some s ∧
      s.owner = .closed false ∧ s.reactor = .destroy ∧ ¬ s.NeverTouched true true := by
  refine ⟨⟨_, rfl, rfl, rfl, rfl, fun hn => ?_⟩, ⟨_, rfl, rfl, rfl, fun hn => ?_⟩⟩
  · exact (hn [.task] _ rfl).1 (show TaskPc.buf ≠ .sleep by decide)
  · exact (hn [.reactor true []] _ rfl).1 (show ReactorPc.destroy ≠ .sleep by decide)

end Examples

end ProxySocket

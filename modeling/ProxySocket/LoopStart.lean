/-
**How the loops of the worker threads start.**

A `ThreadEventLoop` starts its thread in its constructor, before its mutex and its condition variable are
constructed, and leaves `start_` as its memory was.  The thread makes the loop, sets `start_` under the
mutex and notifies; `StartRun` waits for `start_`.  A program constructs its loops and calls `StartRun` of
each one in a fixed order, and from then on `PickRandThread` hands the loops out in turn.

Main definitions:

* `ThreadEventLoop` — one loop, where its thread is in `WaitRun`, and where its `StartRun` is;
* `StartCmd`, `startScript` — what the main thread of the client and of the server does up to its own loop;
* `startLts` — the main thread, the threads of the loops, and the connections that are given to them;
* `LocksInTime` — no thread locks a mutex that is not constructed.

Main results:

* `LoopInv`, `StartInv` — the invariants of one loop and of all of them;
* `pool_ready_iff` — **no connection meets a loop that is not made**, exactly when no memory that `start_`
  got held `true`;
* `pool_starts` — **all loops start**: no wake-up is lost, and the picks are spread evenly.
-/

import Mathlib.Algebra.BigOperators.Group.Finset.Basic
import Mathlib.Algebra.Order.BigOperators.Group.Finset
import ProxySocket.Lts

set_option relaxedAutoImplicit false
set_option autoImplicit false

namespace ProxySocket

/-! ### One loop -/

/-- What the thread does next in `WaitRun`. -/
inductive WaitRunPc
  /-- `thread_` is not constructed yet -/
  | unborn
  /-- `loop_ = SP_EventLoop(new EventLoop())` -/
  | makeLoop
  /-- `std::unique_lock<std::mutex> lock(mutex_)` -/
  | lock
  /-- `start_ = true` -/
  | setStart
  /-- `cv2_.notify_all()` -/
  | notify
  /-- the end of the block, which unlocks `mutex_` -/
  | unlock
  /-- `loop_->Loop()` -/
  | loop
deriving DecidableEq, Repr

/-- The thread holds `mutex_`. -/
def WaitRunPc.Holds : WaitRunPc → Prop
  | .setStart | .notify | .unlock => True
  | _ => False

instance instDecidableHolds : (pc : WaitRunPc) → Decidable pc.Holds
  | .setStart | .notify | .unlock => .isTrue trivial
  | .unborn | .makeLoop | .lock | .loop => .isFalse id

/-- Where `StartRun` is. -/
inductive StartRunPc
  /-- it was not called -/
  | idle
  /-- `std::unique_lock<std::mutex> lock(mutex_)`, or the same at the end of `cv2_.wait(lock)` -/
  | lock
  /-- `while(!start_)` -/
  | test
  /-- in `cv2_.wait(lock)`, without the mutex -/
  | waiting
  | returned
deriving DecidableEq, Repr

/-- `ThreadEventLoop`. -/
structure ThreadEventLoop where
  /-- `start_`, which no constructor sets -/
  start : Bool
  /-- `loop_` is not empty -/
  loop : Bool := false
  /-- `mutex_` and `cv2_` are constructed -/
  mutex : Bool := false
  /-- where `thread_` is -/
  pc : WaitRunPc := .unborn
  starter : StartRunPc := .idle
deriving DecidableEq, Repr

/-- What ends the meaning of a program. -/
inductive StartFault
  /-- `throw "loop_ is already exit"`, which nothing catches -/
  | thrown
  /-- a mutex that is not constructed was locked -/
  | raced
  /-- `loop_->AddToPoller` without a loop -/
  | emptyLoop
  /-- `threads_[next_thread_id_]` is no element -/
  | badIndex
deriving DecidableEq, Repr

namespace ThreadEventLoop

/-- One step of `WaitRun`. -/
def waitRun (l : ThreadEventLoop) : Option (Except StartFault ThreadEventLoop) :=
  match l.pc with
  | .unborn => none
  | .makeLoop =>
      if l.loop then some (.error .thrown) else some (.ok { l with loop := true, pc := .lock })
  | .lock =>
      if l.mutex = false then some (.error .raced)
      else if l.starter = .test then none
      else some (.ok { l with pc := .setStart })
  | .setStart => some (.ok { l with start := true, pc := .notify })
  | .notify =>
      some (.ok { l with
        pc := .unlock
        starter := if l.starter = .waiting then .lock else l.starter })
  | .unlock => some (.ok { l with pc := .loop })
  | .loop => none

/-- One step of `StartRun`. -/
def startRun (l : ThreadEventLoop) : Option ThreadEventLoop :=
  match l.starter with
  | .idle => some { l with starter := .lock }
  | .lock => if l.pc.Holds then none else some { l with starter := .test }
  | .test => some { l with starter := if l.start then .returned else .waiting }
  | .waiting => none
  | .returned => none

/-- `cv2_.wait` may return for no reason. -/
def spurious (l : ThreadEventLoop) : Option ThreadEventLoop :=
  if l.starter = .waiting then some { l with starter := .lock } else none

end ThreadEventLoop

/-! ### The program -/

/-- What the main thread does with the loop `k`. -/
inductive StartCmd
  /-- the constructor up to `thread_` -/
  | thread (k : ℕ)
  /-- the rest of the constructor -/
  | mutex (k : ℕ)
  /-- `StartRun`, and for a loop of the pool `threads_.emplace_back(t)` -/
  | startRun (k : ℕ) (pooled : Bool)
deriving DecidableEq, Repr

/-- The loop that a command is about. -/
def StartCmd.loop : StartCmd → ℕ
  | .thread k | .mutex k | .startRun k _ => k

/-- `new ThreadEventLoop()`. -/
def constructLoop (k : ℕ) : List StartCmd := [.thread k, .mutex k]

/-- The constructor of `ThreadEventLoopPoll` sets `thread_num_`. -/
def threadNum (thread_num : ℤ) : ℕ := if 0 < thread_num then thread_num.toNat else 1

/-- `ThreadEventLoopPoll::Run`. -/
def poolRun (n : ℕ) : List StartCmd :=
  (List.range n).flatMap fun k => constructLoop k ++ [.startRun k true]

/-- What comes before `loop_->Loop()` of the main thread: in `Client::Run` the pool, and in the
constructor of `Server` and in `Server::Run` the pool and `publicListenThread_` as the loop `n`. -/
def startScript (server : Bool) (n : ℕ) : List StartCmd :=
  if server then constructLoop n ++ poolRun n ++ [.startRun n false] else poolRun n

/-- The main thread and the loops. -/
structure PoolStart where
  loops : ℕ → ThreadEventLoop
  /-- what the main thread still has to do -/
  script : List StartCmd
  /-- what it has done -/
  done : List StartCmd := []
  /-- `threads_` -/
  threads : List ℕ := []
  /-- `next_thread_id_` -/
  nextId : ℕ := 0
  /-- the loops that `PickRandThread` has returned -/
  picked : List ℕ := []
  fault : Option StartFault := none

/-- Who makes a step. -/
inductive StartAct
  | main
  | worker (k : ℕ)
  | spurious (k : ℕ)
  /-- `PickRandThread()` and `AddConnect` of what it returns -/
  | pick
  /-- `AddConnect` or `AddChannel` of a loop that has been started -/
  | add (k : ℕ)
deriving DecidableEq, Repr

/-- A step of the two threads that start a loop. -/
def StartAct.Starts : StartAct → Prop
  | .main | .worker _ => True
  | _ => False

namespace PoolStart

/-- The loop `k` has changed. -/
def setLoop (s : PoolStart) (k : ℕ) (l : ThreadEventLoop) : PoolStart :=
  { s with loops := Function.update s.loops k l }

@[simp] theorem loops_setLoop (s : PoolStart) (k : ℕ) (l : ThreadEventLoop) :
    (s.setLoop k l).loops k = l := by
  simp only [setLoop, Function.update_self]

theorem loops_setLoop_of_ne (s : PoolStart) {j k : ℕ} (h : j ≠ k) (l : ThreadEventLoop) :
    (s.setLoop k l).loops j = s.loops j := by
  simp only [setLoop, Function.update_of_ne h]

/-- The main thread has done the first of its commands. -/
def next (s : PoolStart) : PoolStart :=
  { s with script := s.script.tail, done := s.done ++ s.script.take 1 }

/-- `loop_->AddToPoller(...)`. -/
def addTo (s : PoolStart) (k : ℕ) : PoolStart :=
  if (s.loops k).loop then s else { s with fault := some .emptyLoop }

/-- The main thread. -/
def mainStep (s : PoolStart) : Option PoolStart :=
  match s.script with
  | [] => none
  | .thread k :: _ =>
      if (s.loops k).pc = .unborn then some (s.setLoop k { s.loops k with pc := .makeLoop }).next
      else none
  | .mutex k :: _ => some (s.setLoop k { s.loops k with mutex := true }).next
  | .startRun k pooled :: _ =>
      (s.loops k).startRun.map fun l =>
        let s := s.setLoop k l
        if l.starter = .returned then
          { s.next with threads := if pooled then s.threads ++ [k] else s.threads }
        else s

/-- `PickRandThread()` and `AddConnect`. -/
def pickStep (n : ℕ) (s : PoolStart) : PoolStart :=
  match s.threads[s.nextId]? with
  | none => { s with fault := some .badIndex }
  | some k => { s with nextId := (s.nextId + 1) % n, picked := s.picked ++ [k] }.addTo k

/-- One step. -/
def step (n : ℕ) (s : PoolStart) (a : StartAct) : Option PoolStart :=
  if s.fault.isSome then none
  else
    match a with
    | .main => s.mainStep
    | .worker k => (s.loops k).waitRun.map fun
        | .ok l => s.setLoop k l
        | .error f => { s with fault := some f }
    | .spurious k => (s.loops k).spurious.map (s.setLoop k)
    | .pick => if s.script = [] then some (s.pickStep n) else none
    | .add k =>
        if s.script = [] ∧ (s.loops k).starter = .returned then some (s.addTo k) else none

end PoolStart

/-- The client or the server, whose memory held `memory k` where `start_` of the loop `k` is. -/
def startLts (server : Bool) (thread_num : ℤ) (memory : ℕ → Bool) : Lts PoolStart StartAct where
  init :=
    { loops := fun k => { start := memory k }, script := startScript server (threadNum thread_num) }
  step := PoolStart.step (threadNum thread_num)

/-- No thread locks a mutex that is not constructed. -/
def LocksInTime (s : PoolStart) : StartAct → Prop
  | .worker k => (s.loops k).pc = .lock → (s.loops k).mutex = true
  | _ => True

instance instDecidableLocksInTime (s : PoolStart) : (a : StartAct) → Decidable (LocksInTime s a)
  | .worker _ => inferInstanceAs (Decidable (_ → _))
  | .main | .spurious _ | .pick | .add _ => .isTrue trivial

/-! ### The invariant of one loop -/

/-- What a step of `WaitRun` does. -/
theorem ThreadEventLoop.waitRun_cases {l l' : ThreadEventLoop} (hs : l.waitRun = some (.ok l')) :
    (l.pc = .makeLoop ∧ l' = { l with loop := true, pc := .lock }) ∨
    (l.pc = .lock ∧ l.starter ≠ .test ∧ l' = { l with pc := .setStart }) ∨
    (l.pc = .setStart ∧ l' = { l with start := true, pc := .notify }) ∨
    (l.pc = .notify ∧ l' = { l with
      pc := .unlock
      starter := if l.starter = .waiting then .lock else l.starter }) ∨
    (l.pc = .unlock ∧ l' = { l with pc := .loop }) := by
  unfold ThreadEventLoop.waitRun at hs
  split at hs
  case h_1 => cases hs
  case h_2 hpc =>
    split at hs
    · cases hs
    · cases hs
      exact .inl ⟨hpc, rfl⟩
  case h_3 hpc =>
    split at hs
    · cases hs
    · split at hs
      · cases hs
      · next htest =>
        cases hs
        exact .inr (.inl ⟨hpc, htest, rfl⟩)
  case h_4 hpc =>
    cases hs
    exact .inr (.inr (.inl ⟨hpc, rfl⟩))
  case h_5 hpc =>
    cases hs
    exact .inr (.inr (.inr (.inl ⟨hpc, rfl⟩)))
  case h_6 hpc =>
    cases hs
    exact .inr (.inr (.inr (.inr ⟨hpc, rfl⟩)))
  case h_7 => cases hs

/-- **The invariant of one loop**, whose `start_` was `memory` at first. -/
structure LoopInv (memory : Bool) (l : ThreadEventLoop) : Prop where
  loop_iff : l.loop = true ↔ l.pc ≠ .unborn ∧ l.pc ≠ .makeLoop
  start_iff : l.start = true ↔ memory = true ∨ l.pc = .notify ∨ l.pc = .unlock ∨ l.pc = .loop
  apart : l.starter = .test → ¬ l.pc.Holds
  /-- no wake-up is lost: one that waits for a `start_` that is set will be notified -/
  waiting : l.starter = .waiting → l.start = true → l.pc = .notify
  returned : l.starter = .returned → l.start = true

namespace LoopInv

variable {memory : Bool} {l l' : ThreadEventLoop}

theorem init (memory : Bool) : LoopInv memory { start := memory } where
  loop_iff := by simp
  start_iff := by simp
  apart := by intro h; cases h
  waiting := by intro h; cases h
  returned := by intro h; cases h

theorem thread (h : LoopInv memory l) (hpc : l.pc = .unborn) :
    LoopInv memory { l with pc := .makeLoop } where
  loop_iff := by
    have hloop := h.loop_iff
    rw [hpc] at hloop
    simpa using hloop
  start_iff := by
    have hstart := h.start_iff
    rw [hpc] at hstart
    simpa using hstart
  apart := fun _ => id
  waiting := by
    intro hw hs
    have hnotify := h.waiting hw hs
    rw [hpc] at hnotify
    cases hnotify
  returned := h.returned

theorem mutex (h : LoopInv memory l) : LoopInv memory { l with mutex := true } :=
  ⟨h.loop_iff, h.start_iff, h.apart, h.waiting, h.returned⟩

/-- **One step of the thread.** -/
theorem waitRun (h : LoopInv memory l) (hs : l.waitRun = some (.ok l')) : LoopInv memory l' := by
  obtain ⟨hloop, hstart, hapart, hwaiting, hreturned⟩ := h
  obtain ⟨hpc, rfl⟩ | ⟨hpc, htest, rfl⟩ | ⟨hpc, rfl⟩ | ⟨hpc, rfl⟩ | ⟨hpc, rfl⟩ := l.waitRun_cases hs
  all_goals rw [hpc] at hloop hstart hapart hwaiting
  · refine ⟨by simp, by simpa using hstart, fun _ => id, fun hw hst => ?_, hreturned⟩
    exact absurd (hwaiting hw hst) (by decide)
  · refine ⟨by simpa using hloop, by simpa using hstart, fun ht => absurd ht htest,
      fun hw hst => ?_, hreturned⟩
    exact absurd (hwaiting hw hst) (by decide)
  · exact ⟨by simpa using hloop, by simp, fun ht => absurd trivial (hapart ht), fun _ _ => rfl,
      fun _ => rfl⟩
  · refine ⟨by simpa using hloop, by simpa using hstart, fun ht => ?_, fun hw => ?_,
      fun _ => hstart.2 (.inr (.inl rfl))⟩
    · dsimp only at ht
      split at ht
      · cases ht
      · exact absurd trivial (hapart ht)
    · dsimp only at hw
      split at hw
      · cases hw
      · next hne => exact absurd hw hne
  · refine ⟨by simpa using hloop, by simpa using hstart, fun _ => id, fun hw hst => ?_, hreturned⟩
    exact absurd (hwaiting hw hst) (by decide)

/-- **One step of `StartRun`.** -/
theorem startRun (h : LoopInv memory l) (hs : l.startRun = some l') : LoopInv memory l' := by
  obtain ⟨hloop, hstart, hapart, hwaiting, hreturned⟩ := h
  unfold ThreadEventLoop.startRun at hs
  split at hs
  · cases hs
    exact ⟨hloop, hstart, nofun, nofun, nofun⟩
  · split at hs
    · cases hs
    · next hfree =>
      cases hs
      exact ⟨hloop, hstart, fun _ => hfree, nofun, nofun⟩
  · next htest =>
    cases hs
    refine ⟨hloop, hstart, fun ht => ?_, fun hw hst => ?_, fun hr => ?_⟩
    · dsimp only at ht
      split at ht <;> cases ht
    · dsimp only at hw hst
      rw [if_pos hst] at hw
      cases hw
    · by_contra hst
      dsimp only at hr
      rw [if_neg hst] at hr
      cases hr
  · cases hs
  · cases hs

theorem spurious (h : LoopInv memory l) (hs : l.spurious = some l') : LoopInv memory l' := by
  obtain ⟨-, hs⟩ := Option.ite_none_right_eq_some.1 hs
  cases hs
  exact ⟨h.loop_iff, h.start_iff, nofun, nofun, nofun⟩

/-- A loop that has been started is made, unless the memory of `start_` held `true`. -/
theorem made (h : LoopInv memory l) (hr : l.starter = .returned) (hm : memory = false) :
    l.loop = true := by
  rw [h.loop_iff]
  rcases h.start_iff.1 (h.returned hr) with hmem | hpc | hpc | hpc
  · rw [hm] at hmem
    cases hmem
  all_goals rw [hpc]; exact ⟨nofun, nofun⟩

/-- The thread finds no loop that it has not made, and a mutex that is constructed in time. -/
theorem not_error (h : LoopInv memory l) (hmutex : l.pc = .lock → l.mutex = true) (f : StartFault) :
    l.waitRun ≠ some (.error f) := by
  intro hs
  unfold ThreadEventLoop.waitRun at hs
  split at hs
  case h_2 hpc =>
    split at hs
    · next hl => exact (h.loop_iff.1 hl).2 hpc
    · cases hs
  case h_3 hpc =>
    rw [hmutex hpc, if_neg Bool.noConfusion] at hs
    split at hs <;> cases hs
  all_goals cases hs

end LoopInv

/-! ### The order of the commands -/

/-- The number of loops that a program starts. -/
def loopCount (server : Bool) (n : ℕ) : ℕ := if server then n + 1 else n

/-- The command can be carried out after the commands `done`. -/
def StartCmd.Fits (done : List StartCmd) : StartCmd → Prop
  | .thread k => .thread k ∉ done
  | .mutex _ => True
  | .startRun k _ => .thread k ∈ done ∧ .mutex k ∈ done ∧ ∀ p, .startRun k p ∉ done

/-- Each command can be carried out after those before it. -/
def WellOrdered : List StartCmd → List StartCmd → Prop
  | _, [] => True
  | done, c :: rest => c.Fits done ∧ WellOrdered (done ++ [c]) rest

theorem wellOrdered_append {done xs ys : List StartCmd} :
    WellOrdered done (xs ++ ys) ↔ WellOrdered done xs ∧ WellOrdered (done ++ xs) ys := by
  induction xs generalizing done with
  | nil => simp [WellOrdered]
  | cons c xs ih => rw [List.cons_append, WellOrdered, WellOrdered, ih, and_assoc, List.append_assoc,
      List.singleton_append]

theorem wellOrdered_constructLoop {done : List StartCmd} {k : ℕ} (h : StartCmd.thread k ∉ done) :
    WellOrdered done (constructLoop k) := ⟨h, trivial, trivial⟩

theorem poolRun_succ (n : ℕ) :
    poolRun (n + 1) = poolRun n ++ constructLoop n ++ [.startRun n true] := by
  rw [poolRun, List.range_succ, List.flatMap_append, List.flatMap_singleton, ← List.append_assoc]
  rfl

theorem mem_poolRun_iff {n : ℕ} {c : StartCmd} :
    c ∈ poolRun n ↔ c.loop < n ∧ c ∈ constructLoop c.loop ++ [.startRun c.loop true] := by
  simp only [poolRun, List.mem_flatMap, List.mem_range]
  constructor
  · rintro ⟨k, hk, hc⟩
    obtain rfl : c.loop = k := by
      simp only [constructLoop, List.mem_append, List.mem_cons, List.not_mem_nil, or_false] at hc
      rcases hc with (rfl | rfl) | rfl <;> rfl
    exact ⟨hk, hc⟩
  · rintro ⟨hk, hc⟩
    exact ⟨_, hk, hc⟩

theorem wellOrdered_poolRun {done : List StartCmd} {n : ℕ} (h : ∀ c ∈ done, n ≤ c.loop) :
    WellOrdered done (poolRun n) := by
  induction n with
  | zero => trivial
  | succ n ih =>
      have hnew : ∀ c ∈ done ++ poolRun n, c.loop ≠ n := by
        intro c hc
        rcases List.mem_append.1 hc with hc | hc
        · exact Nat.ne_of_gt (h c hc)
        · exact Nat.ne_of_lt (mem_poolRun_iff.1 hc).1
      rw [poolRun_succ, wellOrdered_append, wellOrdered_append]
      refine ⟨⟨ih fun c hc => Nat.le_of_succ_le (h c hc), ?_⟩, ⟨?_, ?_, fun p hp => ?_⟩, trivial⟩
      · exact wellOrdered_constructLoop fun hc => hnew _ hc rfl
      · simp [constructLoop]
      · simp [constructLoop]
      · simp only [constructLoop, ← List.append_assoc, List.mem_append, List.mem_cons,
          List.not_mem_nil, or_false, reduceCtorEq] at hp
        exact hnew _ (List.mem_append.2 hp) rfl

/-- **The main thread constructs a loop before it starts it**, and each one once. -/
theorem wellOrdered_startScript (server : Bool) (n : ℕ) :
    WellOrdered [] (startScript server n) := by
  cases server with
  | false => exact wellOrdered_poolRun nofun
  | true =>
      have hloop : ∀ c ∈ constructLoop n, n ≤ c.loop := by
        intro c hc
        rcases List.mem_pair.1 hc with rfl | rfl <;> exact le_rfl
      rw [startScript, if_pos rfl, wellOrdered_append, wellOrdered_append]
      refine ⟨⟨wellOrdered_constructLoop List.not_mem_nil, wellOrdered_poolRun hloop⟩,
        ⟨?_, ?_, fun p hp => ?_⟩, trivial⟩
      · simp [constructLoop]
      · simp [constructLoop]
      · rw [List.nil_append, List.mem_append] at hp
        rcases hp with hp | hp
        · simp [constructLoop] at hp
        · exact Nat.lt_irrefl n (mem_poolRun_iff.1 hp).1

theorem loop_lt_of_mem {server : Bool} {n : ℕ} {c : StartCmd} (h : c ∈ startScript server n) :
    c.loop < loopCount server n := by
  cases server with
  | false => exact (mem_poolRun_iff.1 h).1
  | true =>
      simp only [startScript, if_true, List.mem_append, constructLoop, List.mem_cons,
        List.not_mem_nil, or_false, mem_poolRun_iff] at h
      rcases h with ((rfl | rfl) | ⟨h, -⟩) | rfl
      · exact Nat.lt_succ_self n
      · exact Nat.lt_succ_self n
      · exact Nat.lt_succ_of_lt h
      · exact Nat.lt_succ_self n

theorem exists_startRun {server : Bool} {n k : ℕ} (h : k < loopCount server n) :
    ∃ p, StartCmd.startRun k p ∈ startScript server n := by
  have hpool : k < n → StartCmd.startRun k true ∈ poolRun n := fun hk =>
    mem_poolRun_iff.2 ⟨hk, by simp [StartCmd.loop]⟩
  cases server with
  | false => exact ⟨true, hpool h⟩
  | true =>
      rcases Nat.lt_succ_iff_lt_or_eq.1 h with hk | rfl
      · refine ⟨true, ?_⟩
        rw [startScript, if_pos rfl]
        exact List.mem_append_left _ (List.mem_append_right _ (hpool hk))
      · exact ⟨false, List.mem_append_right _ (List.mem_singleton.2 rfl)⟩

/-- The loop of the pool that a command starts. -/
def StartCmd.pooled? : StartCmd → Option ℕ
  | .startRun k true => some k
  | _ => none

theorem pooled_startScript (server : Bool) (n : ℕ) :
    (startScript server n).filterMap StartCmd.pooled? = List.range n := by
  have hpool : (poolRun n).filterMap StartCmd.pooled? = List.range n := by
    induction n with
    | zero => rfl
    | succ n ih =>
        rw [poolRun_succ, List.filterMap_append, List.filterMap_append, ih, List.range_succ]
        simp [constructLoop, StartCmd.pooled?]
  cases server with
  | false => exact hpool
  | true =>
      rw [startScript, if_pos rfl, List.filterMap_append, List.filterMap_append, hpool]
      exact List.append_nil _

theorem threadNum_pos (thread_num : ℤ) : 0 < threadNum thread_num := by
  unfold threadNum
  split <;> omega

/-! ### The invariant of the program -/

variable {server : Bool} {n : ℕ} {memory : ℕ → Bool}

/-- **The invariant**: what the main thread has done, what it shows in the loops, and which loops
`PickRandThread` has returned. -/
structure StartInv (server : Bool) (n : ℕ) (memory : ℕ → Bool) (s : PoolStart) : Prop where
  loops : ∀ k, LoopInv (memory k) (s.loops k)
  script : s.done ++ s.script = startScript server n
  ordered : WellOrdered s.done s.script
  thread_iff : ∀ k, (s.loops k).pc ≠ .unborn ↔ .thread k ∈ s.done
  mutex_iff : ∀ k, (s.loops k).mutex = true ↔ .mutex k ∈ s.done
  returned_iff : ∀ k, (s.loops k).starter = .returned ↔ ∃ p, .startRun k p ∈ s.done
  busy : ∀ k, (s.loops k).starter ≠ .idle → (s.loops k).starter ≠ .returned →
    ∃ p rest, s.script = .startRun k p :: rest
  threads : s.threads = s.done.filterMap StartCmd.pooled?
  nextId : s.nextId = s.picked.length % n
  picked : s.picked = (List.range s.picked.length).map (· % n)
  fault : s.fault = none ∨
    s.fault = some .emptyLoop ∧ ∃ k < loopCount server n, memory k = true

namespace StartInv

variable {s s' : PoolStart}

theorem init (server : Bool) (thread_num : ℤ) (memory : ℕ → Bool) :
    StartInv server (threadNum thread_num) memory (startLts server thread_num memory).init where
  loops k := LoopInv.init (memory k)
  script := rfl
  ordered := wellOrdered_startScript server _
  thread_iff k := by simp [startLts]
  mutex_iff k := by simp [startLts]
  returned_iff k := by simp [startLts]
  busy k h := absurd rfl h
  threads := rfl
  nextId := (Nat.zero_mod _).symm
  picked := rfl
  fault := .inl rfl

/-- A loop changes, and the main thread goes on with the same command. -/
theorem setLoop (h : StartInv server n memory s) {k : ℕ} {l : ThreadEventLoop}
    (hl : LoopInv (memory k) l) (hpc : l.pc ≠ .unborn ↔ (s.loops k).pc ≠ .unborn)
    (hmutex : l.mutex = (s.loops k).mutex)
    (hret : l.starter = .returned ↔ (s.loops k).starter = .returned)
    (hbusy : l.starter ≠ .idle → l.starter ≠ .returned → ∃ p rest, s.script = .startRun k p :: rest) :
    StartInv server n memory (s.setLoop k l) where
  loops j := by
    rcases eq_or_ne j k with rfl | hj
    · simpa only [PoolStart.setLoop, Function.update_self] using hl
    · simpa only [PoolStart.setLoop, Function.update_of_ne hj] using h.loops j
  script := h.script
  ordered := h.ordered
  thread_iff j := by
    rcases eq_or_ne j k with rfl | hj
    · simpa only [PoolStart.setLoop, Function.update_self, hpc] using h.thread_iff j
    · simpa only [PoolStart.setLoop, Function.update_of_ne hj] using h.thread_iff j
  mutex_iff j := by
    rcases eq_or_ne j k with rfl | hj
    · simpa only [PoolStart.setLoop, Function.update_self, hmutex] using h.mutex_iff j
    · simpa only [PoolStart.setLoop, Function.update_of_ne hj] using h.mutex_iff j
  returned_iff j := by
    rcases eq_or_ne j k with rfl | hj
    · simpa only [PoolStart.setLoop, Function.update_self, hret] using h.returned_iff j
    · simpa only [PoolStart.setLoop, Function.update_of_ne hj] using h.returned_iff j
  busy j := by
    rcases eq_or_ne j k with rfl | hj
    · simpa only [PoolStart.setLoop, Function.update_self] using hbusy
    · simpa only [PoolStart.setLoop, Function.update_of_ne hj] using h.busy j
  threads := h.threads
  nextId := h.nextId
  picked := h.picked
  fault := h.fault

/-- The thread of a loop makes a step. -/
theorem worker (h : StartInv server n memory s) {k : ℕ} {l : ThreadEventLoop}
    (hs : (s.loops k).waitRun = some (.ok l)) : StartInv server n memory (s.setLoop k l) := by
  have hl := (h.loops k).waitRun hs
  obtain ⟨hpc, rfl⟩ | ⟨hpc, -, rfl⟩ | ⟨hpc, rfl⟩ | ⟨hpc, rfl⟩ | ⟨hpc, rfl⟩ :=
    (s.loops k).waitRun_cases hs
  case inr.inr.inr.inl =>
    refine h.setLoop hl (by simp [hpc]) rfl ?_ fun hidle hret => h.busy k ?_ ?_
    · dsimp only
      split
      · next hw =>
        rw [hw]
        exact iff_of_false nofun nofun
      · exact Iff.rfl
    · intro hi
      simp [hi] at hidle
    · intro hr
      simp [hr] at hret
  all_goals exact h.setLoop hl (by simp [hpc]) rfl Iff.rfl (h.busy k)

theorem spurious (h : StartInv server n memory s) {k : ℕ} {l : ThreadEventLoop}
    (hs : (s.loops k).spurious = some l) : StartInv server n memory (s.setLoop k l) := by
  have hl := (h.loops k).spurious hs
  obtain ⟨hw, hs⟩ := Option.ite_none_right_eq_some.1 hs
  cases hs
  refine h.setLoop hl Iff.rfl rfl (iff_of_false nofun ?_) fun _ _ => ?_
  · rw [hw]
    exact nofun
  · exact h.busy k (by rw [hw]; exact nofun) (by rw [hw]; exact nofun)

/-- **The main thread goes on to its next command**, which is about another loop or about this one. -/
theorem next (h : StartInv server n memory s) {c : StartCmd} {rest : List StartCmd}
    (hscript : s.script = c :: rest) {l : ThreadEventLoop} (hl : LoopInv (memory c.loop) l)
    (hpc : l.pc ≠ .unborn ↔ .thread c.loop ∈ s.done ++ [c])
    (hmutex : l.mutex = true ↔ .mutex c.loop ∈ s.done ++ [c])
    (hret : l.starter = .returned ↔ ∃ p, .startRun c.loop p ∈ s.done ++ [c])
    (hbusy : l.starter = .idle ∨ l.starter = .returned) {threads : List ℕ}
    (hthreads : threads = s.threads ++ [c].filterMap StartCmd.pooled?) :
    StartInv server n memory { (s.setLoop c.loop l).next with threads := threads } where
  loops j := by
    rcases eq_or_ne j c.loop with rfl | hj
    · simpa only [PoolStart.setLoop, PoolStart.next, Function.update_self] using hl
    · simpa only [PoolStart.setLoop, PoolStart.next, Function.update_of_ne hj] using h.loops j
  script := by
    have hs := h.script
    rw [hscript] at hs
    simpa [PoolStart.next, PoolStart.setLoop, hscript] using hs
  ordered := by
    have hs := h.ordered
    rw [hscript] at hs
    simpa [PoolStart.next, PoolStart.setLoop, hscript] using hs.2
  thread_iff j := by
    simp only [PoolStart.next, PoolStart.setLoop, hscript, List.take_succ_cons, List.take_zero]
    rcases eq_or_ne j c.loop with rfl | hj
    · rwa [Function.update_self]
    · have hne : StartCmd.thread j ≠ c := by rintro rfl; exact hj rfl
      rw [Function.update_of_ne hj, h.thread_iff j, List.mem_append, List.mem_singleton]
      exact (or_iff_left hne).symm
  mutex_iff j := by
    simp only [PoolStart.next, PoolStart.setLoop, hscript, List.take_succ_cons, List.take_zero]
    rcases eq_or_ne j c.loop with rfl | hj
    · rwa [Function.update_self]
    · have hne : StartCmd.mutex j ≠ c := by rintro rfl; exact hj rfl
      rw [Function.update_of_ne hj, h.mutex_iff j, List.mem_append, List.mem_singleton]
      exact (or_iff_left hne).symm
  returned_iff j := by
    simp only [PoolStart.next, PoolStart.setLoop, hscript, List.take_succ_cons, List.take_zero]
    rcases eq_or_ne j c.loop with rfl | hj
    · rwa [Function.update_self]
    · have hne : ∀ p, StartCmd.startRun j p ≠ c := by rintro p rfl; exact hj rfl
      rw [Function.update_of_ne hj, h.returned_iff j]
      refine exists_congr fun p => ?_
      rw [List.mem_append, List.mem_singleton]
      exact (or_iff_left (hne p)).symm
  busy j hidle hne := by
    simp only [PoolStart.next, PoolStart.setLoop] at hidle hne
    rcases eq_or_ne j c.loop with rfl | hj
    · rw [Function.update_self] at hidle hne
      exact (hbusy.elim hidle hne).elim
    · rw [Function.update_of_ne hj] at hidle hne
      obtain ⟨p, rest', hscript'⟩ := h.busy j hidle hne
      rw [hscript] at hscript'
      obtain rfl := (List.cons.inj hscript').1
      exact absurd rfl hj
  threads := by
    rw [hthreads, h.threads, ← List.filterMap_append]
    simp only [PoolStart.next, PoolStart.setLoop, hscript, List.take_succ_cons, List.take_zero]
  nextId := h.nextId
  picked := h.picked
  fault := h.fault

/-- A loop is in the middle of `StartRun` only while that is the command of the main thread. -/
theorem idle_or_returned (h : StartInv server n memory s) {c : StartCmd} {rest : List StartCmd}
    (hscript : s.script = c :: rest) {k : ℕ} (hc : ∀ p, c ≠ .startRun k p) :
    (s.loops k).starter = .idle ∨ (s.loops k).starter = .returned := by
  by_contra hbusy
  rw [not_or] at hbusy
  obtain ⟨p, rest', hscript'⟩ := h.busy k hbusy.1 hbusy.2
  rw [hscript] at hscript'
  exact hc p (List.cons.inj hscript').1

/-- **The main thread.** -/
theorem mainStep (h : StartInv server n memory s) (hs : s.mainStep = some s') :
    StartInv server n memory s' := by
  have hfits := h.ordered
  unfold PoolStart.mainStep at hs
  split at hs
  case h_1 => cases hs
  case h_2 k rest hscript =>
    obtain ⟨hpc, hs⟩ := Option.ite_none_right_eq_some.1 hs
    obtain rfl := Option.some.inj hs
    exact h.next hscript ((h.loops k).thread hpc) (by simp [StartCmd.loop])
      (by simp [StartCmd.loop, h.mutex_iff k]) (by simp [StartCmd.loop, h.returned_iff k])
      (h.idle_or_returned hscript nofun) (List.append_nil _).symm
  case h_3 k rest hscript =>
    obtain rfl := Option.some.inj hs
    exact h.next hscript (h.loops k).mutex (by simp [StartCmd.loop, h.thread_iff k])
      (by simp [StartCmd.loop]) (by simp [StartCmd.loop, h.returned_iff k])
      (h.idle_or_returned hscript nofun) (List.append_nil _).symm
  case h_4 k pooled rest hscript =>
    obtain ⟨l, hl, rfl⟩ := Option.map_eq_some_iff.1 hs
    have hinv := (h.loops k).startRun hl
    have hsame : l.pc = (s.loops k).pc ∧ l.mutex = (s.loops k).mutex := by
      unfold ThreadEventLoop.startRun at hl
      repeat' split at hl
      all_goals cases hl
      all_goals exact ⟨rfl, rfl⟩
    dsimp only
    split
    · next hret =>
      refine h.next hscript hinv (by simp [StartCmd.loop, hsame.1, h.thread_iff k])
        (by simp [StartCmd.loop, hsame.2, h.mutex_iff k])
        (iff_of_true hret ⟨pooled, by simp [StartCmd.loop]⟩) (.inr hret) ?_
      cases pooled with
      | false => exact (List.append_nil _).symm
      | true => rfl
    · next hret =>
      rw [hscript] at hfits
      refine h.setLoop hinv (by rw [hsame.1]) hsame.2 (iff_of_false hret fun hold => ?_)
        fun _ _ => ⟨pooled, rest, hscript⟩
      obtain ⟨p, hp⟩ := (h.returned_iff k).1 hold
      exact hfits.1.2.2 p hp

/-- The threads that `PickRandThread` knows, once they have been started. -/
theorem threads_eq (h : StartInv server n memory s) (hscript : s.script = []) :
    s.threads = List.range n := by
  have hdone := h.script
  rw [hscript, List.append_nil] at hdone
  rw [h.threads, hdone, pooled_startScript]

theorem started (h : StartInv server n memory s) (hscript : s.script = []) {k : ℕ}
    (hk : k < loopCount server n) : (s.loops k).starter = .returned := by
  have hdone := h.script
  rw [hscript, List.append_nil] at hdone
  rw [h.returned_iff, hdone]
  exact exists_startRun hk

theorem lt_loopCount (h : StartInv server n memory s) {k : ℕ}
    (hr : (s.loops k).starter = .returned) : k < loopCount server n := by
  obtain ⟨p, hp⟩ := (h.returned_iff k).1 hr
  have hmem : StartCmd.startRun k p ∈ startScript server n := by
    rw [← h.script]
    exact List.mem_append_left _ hp
  exact loop_lt_of_mem hmem

/-- **A connection is given to a loop that has been started.** -/
theorem addTo (h : StartInv server n memory s) {k : ℕ} (hr : (s.loops k).starter = .returned) :
    StartInv server n memory (s.addTo k) := by
  unfold PoolStart.addTo
  split
  · exact h
  · next hloop =>
    refine { h with fault := .inr ⟨rfl, k, h.lt_loopCount hr, ?_⟩ }
    by_contra hm
    exact hloop ((h.loops k).made hr (Bool.eq_false_iff.2 hm))

/-- **`PickRandThread`.** -/
theorem pick (h : StartInv server n memory s) (hn : 0 < n) (hscript : s.script = []) :
    StartInv server n memory (s.pickStep n) := by
  have hlt : s.nextId < n := by
    rw [h.nextId]
    exact Nat.mod_lt _ hn
  have hget : s.threads[s.nextId]? = some s.nextId := by
    rw [h.threads_eq hscript, List.getElem?_range hlt]
  have hcount : s.nextId < loopCount server n := by
    unfold loopCount
    split <;> omega
  unfold PoolStart.pickStep
  rw [hget]
  refine addTo (s := { s with nextId := (s.nextId + 1) % n, picked := s.picked ++ [s.nextId] }) ?_
    (h.started hscript hcount)
  refine { h with nextId := ?_, picked := ?_ }
  · rw [h.nextId, List.length_append, List.length_singleton, Nat.mod_add_mod]
  · rw [List.length_append, List.length_singleton, List.range_succ, List.map_append,
      List.map_singleton, ← h.nextId, ← h.picked]

/-- **One step.** -/
theorem step (h : StartInv server n memory s) (hn : 0 < n) {a : StartAct} (hg : LocksInTime s a)
    (hs : s.step n a = some s') : StartInv server n memory s' := by
  unfold PoolStart.step at hs
  split at hs
  · cases hs
  · cases a with
    | main => exact h.mainStep hs
    | worker k =>
        obtain ⟨r, hr, rfl⟩ := Option.map_eq_some_iff.1 hs
        cases r with
        | ok l => exact h.worker hr
        | error f => exact absurd hr ((h.loops k).not_error hg f)
    | spurious k =>
        obtain ⟨l, hl, rfl⟩ := Option.map_eq_some_iff.1 hs
        exact h.spurious hl
    | pick =>
        obtain ⟨hscript, hs⟩ := Option.ite_none_right_eq_some.1 hs
        obtain rfl := Option.some.inj hs
        exact h.pick hn hscript
    | add k =>
        obtain ⟨⟨-, hr⟩, hs⟩ := Option.ite_none_right_eq_some.1 hs
        obtain rfl := Option.some.inj hs
        exact h.addTo hr

theorem of_reach {thread_num : ℤ}
    (hs : (startLts server thread_num memory).Reach LocksInTime s) :
    StartInv server (threadNum thread_num) memory s := by
  induction hs with
  | init => exact init server thread_num memory
  | step _ hg hst ih => exact ih.step (threadNum_pos thread_num) hg hst

end StartInv

/-! ### A loop that is not made -/

section Unmade

variable {thread_num : ℤ} {s : PoolStart} {j k : ℕ}

/-- The thread of a loop makes one step or more. -/
theorem reach_setLoop (hs : (startLts server thread_num memory).Reach LocksInTime s)
    (hf : s.fault = none) {l : ThreadEventLoop}
    (hl : Relation.ReflTransGen (fun l l' : ThreadEventLoop =>
      l.mutex = true ∧ l.waitRun = some (.ok l')) (s.loops j) l) :
    (startLts server thread_num memory).Reach LocksInTime (s.setLoop j l) := by
  induction hl with
  | refl => rwa [PoolStart.setLoop, Function.update_eq_self]
  | @tail l l' _ hstep ih =>
      refine ih.step (a := .worker j) ?_ ?_
      · intro _
        rw [PoolStart.loops_setLoop]
        exact hstep.1
      · have hrun : ((s.setLoop j l).loops j).waitRun = some (.ok l') := by
          rw [PoolStart.loops_setLoop]
          exact hstep.2
        have hfine : (s.setLoop j l).fault = none := hf
        simp only [startLts, PoolStart.step, hfine, hrun, Option.map_some, Option.isSome_none,
          Bool.false_eq_true, if_false]
        simp only [PoolStart.setLoop, Function.update_idem]

/-- `StartRun` returns at once from a loop whose `start_` is set. -/
theorem reach_startRun (hs : (startLts server thread_num memory).Reach LocksInTime s)
    (hf : s.fault = none) {p : Bool} {rest : List StartCmd} (hscript : s.script = .startRun j p :: rest)
    (hstart : (s.loops j).start = true) (hidle : (s.loops j).starter = .idle)
    (hfree : ¬ (s.loops j).pc.Holds) :
    ∃ s', (startLts server thread_num memory).Reach LocksInTime s' ∧ s'.script = rest ∧
      s'.fault = none ∧
      s'.loops = Function.update s.loops j { s.loops j with starter := .returned } := by
  have hstep : ∀ s₁ : PoolStart, s₁.fault = none → s₁.script = .startRun j p :: rest →
      (startLts server thread_num memory).step s₁ .main =
        ((s₁.loops j).startRun.map fun l =>
          if l.starter = .returned then
            { (s₁.setLoop j l).next with
              threads := if p then s₁.threads ++ [j] else s₁.threads }
          else s₁.setLoop j l) := by
    intro s₁ hf₁ hs₁
    simp only [startLts, PoolStart.step, hf₁, PoolStart.mainStep, hs₁]
    rfl
  -- the call, the mutex, the test
  have h₁ : (startLts server thread_num memory).Reach LocksInTime
      (s.setLoop j { s.loops j with starter := .lock }) := by
    refine hs.step (a := .main) trivial ?_
    rw [hstep s hf hscript, ThreadEventLoop.startRun, hidle]
    rfl
  have h₂ : (startLts server thread_num memory).Reach LocksInTime
      (s.setLoop j { s.loops j with starter := .test }) := by
    refine h₁.step (a := .main) trivial ?_
    refine (hstep (s.setLoop j { s.loops j with starter := .lock }) hf hscript).trans ?_
    simp [PoolStart.setLoop, ThreadEventLoop.startRun, hfree]
  have h₃ : (startLts server thread_num memory).Reach LocksInTime
      { (s.setLoop j { s.loops j with starter := .returned }).next with
        threads := if p then s.threads ++ [j] else s.threads } := by
    refine h₂.step (a := .main) trivial ?_
    refine (hstep (s.setLoop j { s.loops j with starter := .test }) hf hscript).trans ?_
    simp [PoolStart.setLoop, PoolStart.next, ThreadEventLoop.startRun, hstart]
  exact ⟨_, h₃, by simp [PoolStart.next, PoolStart.setLoop, hscript], hf, rfl⟩

/-- The loop `k` is not made, and no thread is in the middle of its start. -/
structure Unmade (k : ℕ) (s : PoolStart) : Prop where
  fault : s.fault = none
  unmade : (s.loops k).loop = false
  atRest : ∀ j, (s.loops j).pc = .unborn ∨ (s.loops j).pc = .makeLoop ∨ (s.loops j).pc = .loop
  idle : ∀ j, (s.loops j).starter = .idle ∨ (s.loops j).starter = .returned

theorem Unmade.setLoop (h : Unmade k s) {l : ThreadEventLoop} {s' : PoolStart}
    (hloops : s'.loops = Function.update s.loops j l) (hf : s'.fault = none)
    (hl : j = k → l.loop = false) (hpc : l.pc = .unborn ∨ l.pc = .makeLoop ∨ l.pc = .loop)
    (hidle : l.starter = .idle ∨ l.starter = .returned) : Unmade k s' where
  fault := hf
  unmade := by
    rw [hloops]
    rcases eq_or_ne k j with rfl | hk
    · rw [Function.update_self]
      exact hl rfl
    · rw [Function.update_of_ne hk]
      exact h.unmade
  atRest i := by
    rw [hloops]
    rcases eq_or_ne i j with rfl | hi
    · rwa [Function.update_self]
    · rw [Function.update_of_ne hi]
      exact h.atRest i
  idle i := by
    rw [hloops]
    rcases eq_or_ne i j with rfl | hi
    · rwa [Function.update_self]
    · rw [Function.update_of_ne hi]
      exact h.idle i

/-- **The main thread can be done before a thread whose `start_` held `true` has made its loop.** -/
theorem exists_unmade (hm : memory k = true) {script : List StartCmd} :
    ∀ {s : PoolStart}, (startLts server thread_num memory).Reach LocksInTime s →
      s.script = script → Unmade k s →
      ∃ s', (startLts server thread_num memory).Reach LocksInTime s' ∧ s'.script = [] ∧
        Unmade k s' := by
  induction script with
  | nil => exact fun hs hscript h => ⟨_, hs, hscript, h⟩
  | cons c rest ih =>
      intro s hs hscript h
      have hinv := StartInv.of_reach hs
      have hfits : c.Fits s.done := by
        have hord := hinv.ordered
        rw [hscript] at hord
        exact hord.1
      cases c with
      | thread j =>
          have hpc : (s.loops j).pc = .unborn := by
            by_contra hne
            exact hfits ((hinv.thread_iff j).1 hne)
          refine ih (s := (s.setLoop j { s.loops j with pc := .makeLoop }).next)
            (hs.step (a := .main) trivial ?_) ?_ ?_
          · simp only [startLts, PoolStart.step, h.fault, PoolStart.mainStep, hscript, hpc]
            rfl
          · simp [PoolStart.next, PoolStart.setLoop, hscript]
          · refine h.setLoop rfl h.fault ?_ (.inr (.inl rfl)) (h.idle j)
            rintro rfl
            exact h.unmade
      | mutex j =>
          refine ih (s := (s.setLoop j { s.loops j with mutex := true }).next)
            (hs.step (a := .main) trivial ?_) ?_ ?_
          · simp only [startLts, PoolStart.step, h.fault, PoolStart.mainStep, hscript]
            rfl
          · simp [PoolStart.next, PoolStart.setLoop, hscript]
          · refine h.setLoop rfl h.fault ?_ (h.atRest j) (h.idle j)
            rintro rfl
            exact h.unmade
      | startRun j p =>
          obtain ⟨hthread, hmutex, hnot⟩ := hfits
          have hborn : (s.loops j).pc ≠ .unborn := (hinv.thread_iff j).2 hthread
          have hbuilt : (s.loops j).mutex = true := (hinv.mutex_iff j).2 hmutex
          have hidle : (s.loops j).starter = .idle := (h.idle j).resolve_right fun hret => by
            obtain ⟨p', hp'⟩ := (hinv.returned_iff j).1 hret
            exact hnot p' hp'
          have hrest := (h.atRest j).resolve_left hborn
          cases hstart : (s.loops j).start with
          | true =>
              have hfree : ¬ (s.loops j).pc.Holds := by
                rcases hrest with hpc | hpc <;> rw [hpc] <;> exact id
              obtain ⟨s', hs', hscript', hf', hloops⟩ :=
                reach_startRun hs h.fault hscript hstart hidle hfree
              refine ih hs' hscript' (h.setLoop hloops hf' ?_ (h.atRest j) (.inr rfl))
              rintro rfl
              exact h.unmade
          | false =>
              -- another thread, which runs until it is in its loop
              have hjk : j ≠ k := by
                rintro rfl
                have htrue := (hinv.loops j).start_iff.2 (.inl hm)
                rw [hstart] at htrue
                cases htrue
              have hpc : (s.loops j).pc = .makeLoop := by
                refine hrest.resolve_right fun hloop => ?_
                have htrue := (hinv.loops j).start_iff.2 (.inr (.inr (.inr hloop)))
                rw [hstart] at htrue
                cases htrue
              have hloop : (s.loops j).loop = false := by
                rw [Bool.eq_false_iff]
                intro htrue
                exact ((hinv.loops j).loop_iff.1 htrue).2 hpc
              have hl : s.loops j =
                  { start := false, loop := false, mutex := true, pc := .makeLoop, starter := .idle } := by
                have heta : s.loops j = ⟨(s.loops j).start, (s.loops j).loop, (s.loops j).mutex,
                  (s.loops j).pc, (s.loops j).starter⟩ := rfl
                rwa [hstart, hloop, hbuilt, hpc, hidle] at heta
              have hrun := reach_setLoop (j := j) hs h.fault (l :=
                { start := true, loop := true, mutex := true, pc := .loop, starter := .idle }) (by
                  rw [hl]
                  exact .head ⟨rfl, rfl⟩ (.head ⟨rfl, rfl⟩ (.head ⟨rfl, rfl⟩
                    (.head ⟨rfl, rfl⟩ (.single ⟨rfl, rfl⟩)))))
              have hmid : Unmade k (s.setLoop j
                  { start := true, loop := true, mutex := true, pc := .loop, starter := .idle }) :=
                h.setLoop rfl h.fault (fun he => absurd he hjk) (.inr (.inr rfl)) (.inl rfl)
              obtain ⟨s', hs', hscript', hf', hloops⟩ := reach_startRun (j := j) hrun h.fault hscript
                (by simp [PoolStart.setLoop]) (by simp [PoolStart.setLoop])
                (by simp [PoolStart.setLoop, WaitRunPc.Holds])
              refine ih hs' hscript' (hmid.setLoop hloops hf' (fun he => absurd he hjk) ?_ (.inr rfl))
              simp [PoolStart.setLoop]

end Unmade

/-- **No connection meets a loop that is not made**, in any order of the threads, exactly when memory held
`false` wherever a loop of the program has its `start_`: nor does anything else end the meaning of the
program. -/
theorem pool_ready_iff (server : Bool) (thread_num : ℤ) (memory : ℕ → Bool) :
    (∀ s, (startLts server thread_num memory).Reach LocksInTime s → s.fault = none) ↔
      ∀ k < loopCount server (threadNum thread_num), memory k = false := by
  constructor
  · intro hfine k hk
    by_contra hm
    rw [Bool.not_eq_false] at hm
    obtain ⟨s, hs, hscript, h⟩ := exists_unmade hm .init rfl
      ⟨rfl, rfl, fun _ => .inl rfl, fun _ => .inl rfl⟩
    -- a connection is given to the loop that is not made
    have hret := (StartInv.of_reach hs).started hscript hk
    have hadd : (startLts server thread_num memory).step s (.add k) =
        some { s with fault := some .emptyLoop } := by
      simp [startLts, PoolStart.step, h.fault, hscript, hret, PoolStart.addTo, h.unmade]
    have hguard : LocksInTime s (.add k) := trivial
    have hnone := hfine _ (hs.step hguard hadd)
    cases hnone
  · intro hm s hs
    refine (StartInv.of_reach hs).fault.resolve_right ?_
    rintro ⟨-, k, hk, htrue⟩
    rw [hm k hk] at htrue
    cases htrue

/-! ### All loops start -/

/-- The steps that the thread still has to make. -/
def WaitRunPc.rank : WaitRunPc → ℕ
  | .unborn => 6
  | .makeLoop => 5
  | .lock => 4
  | .setStart => 3
  | .notify => 2
  | .unlock => 1
  | .loop => 0

/-- The steps that `StartRun` still has to make, if it is not woken. -/
def StartRunPc.rank : StartRunPc → ℕ
  | .idle => 4
  | .lock => 3
  | .test => 2
  | .waiting => 1
  | .returned => 0

/-- A bound for the steps of the two threads that start a loop: a wake-up sends `StartRun` back. -/
def ThreadEventLoop.left (l : ThreadEventLoop) : ℕ := 4 * l.pc.rank + l.starter.rank

/-- A bound for the steps up to the loops of all threads. -/
def PoolStart.left (count : ℕ) (s : PoolStart) : ℕ :=
  s.script.length + ∑ k ∈ Finset.range count, (s.loops k).left

section Starts

variable {thread_num : ℤ} {s s' : PoolStart} {l l' : ThreadEventLoop} {m k : ℕ}

theorem ThreadEventLoop.left_waitRun (hs : l.waitRun = some (.ok l')) : l'.left < l.left := by
  obtain ⟨hpc, rfl⟩ | ⟨hpc, -, rfl⟩ | ⟨hpc, rfl⟩ | ⟨hpc, rfl⟩ | ⟨hpc, rfl⟩ := l.waitRun_cases hs
  case inr.inr.inr.inl =>
    simp only [ThreadEventLoop.left, hpc, WaitRunPc.rank]
    split
    · next hw =>
      rw [hw]
      decide
    · omega
  all_goals simp only [ThreadEventLoop.left, hpc, WaitRunPc.rank]
  all_goals omega

theorem ThreadEventLoop.left_startRun (hs : l.startRun = some l') : l'.left < l.left := by
  unfold ThreadEventLoop.startRun at hs
  split at hs
  case h_1 hst =>
    cases hs
    simp only [ThreadEventLoop.left, hst, StartRunPc.rank]
    omega
  case h_2 hst =>
    obtain ⟨-, hs⟩ := Option.ite_none_left_eq_some.1 hs
    cases hs
    simp only [ThreadEventLoop.left, hst, StartRunPc.rank]
    omega
  case h_3 hst =>
    cases hs
    simp only [ThreadEventLoop.left, hst]
    split <;> simp only [StartRunPc.rank] <;> omega
  case h_4 => cases hs
  case h_5 => cases hs

/-- A thread that cannot move is in its loop, or it waits for `mutex_`. -/
theorem ThreadEventLoop.of_waitRun_eq_none (hs : l.waitRun = none) :
    l.pc = .unborn ∨ l.starter = .test ∨ l.pc = .loop := by
  unfold ThreadEventLoop.waitRun at hs
  split at hs
  case h_1 hpc => exact .inl hpc
  case h_2 => split at hs <;> cases hs
  case h_3 =>
    split at hs
    · cases hs
    · split at hs
      · next htest => exact .inr (.inl htest)
      · cases hs
  case h_7 hpc => exact .inr (.inr hpc)
  all_goals cases hs

/-- `StartRun` cannot move only while the thread has the mutex, or before it is woken. -/
theorem ThreadEventLoop.of_startRun_eq_none (hs : l.startRun = none) :
    l.pc.Holds ∨ l.starter = .waiting ∨ l.starter = .returned := by
  unfold ThreadEventLoop.startRun at hs
  split at hs
  case h_1 => cases hs
  case h_2 =>
    split at hs
    · next hholds => exact .inl hholds
    · cases hs
  case h_3 => cases hs
  case h_4 hst => exact .inr (.inl hst)
  case h_5 hst => exact .inr (.inr hst)

theorem PoolStart.left_setLoop_le (h : l.left ≤ (s.loops k).left) :
    ∑ j ∈ Finset.range m, ((s.setLoop k l).loops j).left ≤
      ∑ j ∈ Finset.range m, (s.loops j).left := by
  refine Finset.sum_le_sum fun j _ => ?_
  rcases eq_or_ne j k with rfl | hj
  · rwa [PoolStart.loops_setLoop]
  · rw [PoolStart.loops_setLoop_of_ne s hj]

theorem PoolStart.left_setLoop_lt (hk : k < m) (h : l.left < (s.loops k).left) :
    ∑ j ∈ Finset.range m, ((s.setLoop k l).loops j).left <
      ∑ j ∈ Finset.range m, (s.loops j).left := by
  refine Finset.sum_lt_sum (fun j _ => ?_) ⟨k, Finset.mem_range.2 hk, ?_⟩
  · rcases eq_or_ne j k with rfl | hj
    · rw [PoolStart.loops_setLoop]
      exact h.le
    · rw [PoolStart.loops_setLoop_of_ne s hj]
  · rwa [PoolStart.loops_setLoop]

/-- The main thread has one step less to make. -/
theorem StartInv.left_mainStep (h : StartInv server n memory s) (hs : s.mainStep = some s') :
    s'.left (loopCount server n) < s.left (loopCount server n) := by
  unfold PoolStart.mainStep at hs
  split at hs
  case h_1 => cases hs
  case h_2 k rest hscript =>
    obtain ⟨hpc, hs⟩ := Option.ite_none_right_eq_some.1 hs
    obtain rfl := Option.some.inj hs
    have hle := PoolStart.left_setLoop_le (s := s) (k := k) (m := loopCount server n)
      (l := { s.loops k with pc := .makeLoop }) (by
        simp only [ThreadEventLoop.left, hpc, WaitRunPc.rank]
        omega)
    simp only [PoolStart.left, PoolStart.next, PoolStart.setLoop, hscript, List.tail_cons,
      List.length_cons] at hle ⊢
    omega
  case h_3 k rest hscript =>
    obtain rfl := Option.some.inj hs
    have hle := PoolStart.left_setLoop_le (s := s) (k := k) (m := loopCount server n)
      (l := { s.loops k with mutex := true }) le_rfl
    simp only [PoolStart.left, PoolStart.next, PoolStart.setLoop, hscript, List.tail_cons,
      List.length_cons] at hle ⊢
    omega
  case h_4 k pooled rest hscript =>
    obtain ⟨l, hl, rfl⟩ := Option.map_eq_some_iff.1 hs
    have hk : k < loopCount server n := by
      refine loop_lt_of_mem (c := .startRun k pooled) ?_
      rw [← h.script, hscript]
      exact List.mem_append_right _ List.mem_cons_self
    have hlt := PoolStart.left_setLoop_lt hk (ThreadEventLoop.left_startRun hl)
    dsimp only
    split
    all_goals
      simp only [PoolStart.left, PoolStart.next, PoolStart.setLoop, hscript, List.tail_cons,
        List.length_cons] at hlt ⊢
      omega

/-- **A step of the threads that start the loops is one step less to make.** -/
theorem StartInv.left_lt (h : StartInv server n memory s) {a : StartAct} (ha : a.Starts)
    (hg : LocksInTime s a) (hs : s.step n a = some s') :
    s'.left (loopCount server n) < s.left (loopCount server n) := by
  unfold PoolStart.step at hs
  obtain ⟨-, hs⟩ := Option.ite_none_left_eq_some.1 hs
  cases a with
  | main => exact h.left_mainStep hs
  | worker k =>
      obtain ⟨r, hr, rfl⟩ := Option.map_eq_some_iff.1 hs
      cases r with
      | ok l =>
          have hborn : (s.loops k).pc ≠ .unborn := by
            intro hpc
            rw [ThreadEventLoop.waitRun, hpc] at hr
            cases hr
          have hk : k < loopCount server n := by
            refine loop_lt_of_mem (c := .thread k) ?_
            rw [← h.script]
            exact List.mem_append_left _ ((h.thread_iff k).1 hborn)
          exact Nat.add_lt_add_left
            (PoolStart.left_setLoop_lt hk (ThreadEventLoop.left_waitRun hr)) s.script.length
      | error f => exact absurd hr ((h.loops k).not_error hg f)
  | spurious k => exact ha.elim
  | pick => exact ha.elim
  | add k => exact ha.elim

theorem mem_thread {k : ℕ} (hk : k < loopCount server n) :
    StartCmd.thread k ∈ startScript server n := by
  have hpool : k < n → StartCmd.thread k ∈ poolRun n := fun hlt =>
    mem_poolRun_iff.2 ⟨hlt, by simp [StartCmd.loop, constructLoop]⟩
  cases server with
  | false => exact hpool hk
  | true =>
      rw [startScript, if_pos rfl]
      refine List.mem_append_left _ (List.mem_append.2 ?_)
      rcases Nat.lt_succ_iff_lt_or_eq.1 hk with hlt | rfl
      · exact .inr (hpool hlt)
      · exact .inl List.mem_cons_self

/-- **No wake-up is lost**: while the main thread is not in its own loop, it or the thread that it waits for
can move. -/
theorem StartInv.script_eq_nil (h : StartInv server n memory s) (hmain : s.mainStep = none)
    (hworker : ∀ k, (s.loops k).waitRun = none) : s.script = [] := by
  have hord := h.ordered
  unfold PoolStart.mainStep at hmain
  split at hmain
  case h_1 hscript => exact hscript
  case h_2 k rest hscript =>
    exfalso
    rw [hscript] at hord
    have hpc : (s.loops k).pc = .unborn := by
      by_contra hne
      exact hord.1 ((h.thread_iff k).1 hne)
    rw [if_pos hpc] at hmain
    cases hmain
  case h_3 => cases hmain
  case h_4 k pooled rest hscript =>
    exfalso
    rw [hscript] at hord
    obtain ⟨hthread, -, hnot⟩ := hord.1
    have hborn : (s.loops k).pc ≠ .unborn := (h.thread_iff k).2 hthread
    have hw := (ThreadEventLoop.of_waitRun_eq_none (hworker k)).resolve_left hborn
    rcases ThreadEventLoop.of_startRun_eq_none (Option.map_eq_none_iff.1 hmain) with hm | hm | hm
    · -- the thread has the mutex, and can go on
      rcases hw with htest | hpc
      · exact (h.loops k).apart htest hm
      · rw [hpc] at hm
        exact hm
    · -- the thread has notified before `StartRun` waits
      rcases hw with htest | hpc
      · rw [htest] at hm
        cases hm
      · have hstart := (h.loops k).start_iff.2 (.inr (.inr (.inr hpc)))
        have hnotify := (h.loops k).waiting hm hstart
        rw [hpc] at hnotify
        cases hnotify
    · obtain ⟨p, hp⟩ := (h.returned_iff k).1 hm
      exact hnot p hp

/-- When nothing can move, all threads are in their loops. -/
theorem StartInv.all_loop (h : StartInv server n memory s) (hscript : s.script = [])
    (hworker : ∀ k, (s.loops k).waitRun = none) {k : ℕ} (hk : k < loopCount server n) :
    (s.loops k).pc = .loop := by
  have hborn : (s.loops k).pc ≠ .unborn := by
    have hdone := h.script
    rw [hscript, List.append_nil] at hdone
    rw [h.thread_iff, hdone]
    exact mem_thread hk
  have hret := h.started hscript hk
  refine ((ThreadEventLoop.of_waitRun_eq_none (hworker k)).resolve_left hborn).resolve_left ?_
  rw [hret]
  exact nofun

/-- How often a loop is among the first picks. -/
theorem count_picks {i m : ℕ} (hi : i < n) :
    ((List.range m).map (· % n)).count i = (m + (n - 1 - i)) / n := by
  induction m with
  | zero =>
      rw [Nat.zero_add, Nat.div_eq_of_lt (by omega)]
      rfl
  | succ m ih =>
      rw [List.range_succ, List.map_append, List.count_append, ih, List.map_singleton,
        show m + 1 + (n - 1 - i) = m + (n - 1 - i) + 1 by omega, Nat.succ_div]
      congr 1
      rw [List.count_singleton]
      refine if_congr (beq_iff_eq.trans ?_) rfl rfl
      -- the next pick is `i` when the picks so far and those behind `i` are whole rounds
      have hmod := Nat.div_add_mod m n
      have hlt := Nat.mod_lt m (Nat.zero_lt_of_lt hi)
      have hsum : m + (n - 1 - i) + 1 = n * (m / n) + (m % n + n - i) := by omega
      rw [hsum, Nat.dvd_add_right (Nat.dvd_mul_right n (m / n))]
      constructor
      · rintro rfl
        rw [Nat.add_sub_cancel_left]
      · intro hdvd
        have heq := Nat.eq_of_dvd_of_lt_two_mul (by omega) hdvd (by omega)
        omega

/-- **All loops start.**  Whatever `start_` was at first, in a run in which no thread locks a mutex that is
not constructed: the threads that start the loops make no more steps than their bound tells, as long as no
thread wakes up for no reason; when they cannot go on and nothing has gone wrong, the main thread is in its
own loop, and so are all the threads; and the numbers of connections that two threads of the pool have got
differ by one at most. -/
theorem pool_starts (hs : (startLts server thread_num memory).Reach LocksInTime s) :
    (∀ a s', a.Starts → LocksInTime s a → (startLts server thread_num memory).step s a = some s' →
      s'.left (loopCount server (threadNum thread_num)) <
        s.left (loopCount server (threadNum thread_num))) ∧
    (s.fault = none → (∀ a, a.Starts → (startLts server thread_num memory).step s a = none) →
      s.script = [] ∧ ∀ k < loopCount server (threadNum thread_num), (s.loops k).pc = .loop) ∧
    ∀ i < threadNum thread_num, ∀ j < threadNum thread_num,
      s.picked.count i ≤ s.picked.count j + 1 := by
  have h := StartInv.of_reach hs
  refine ⟨fun a s' ha hg hst => h.left_lt ha hg hst, fun hf hstuck => ?_, fun i hi j hj => ?_⟩
  · have hmain : s.mainStep = none := by
      have hnone := hstuck .main trivial
      simpa only [startLts, PoolStart.step, hf, Option.isSome_none, Bool.false_eq_true,
        if_false] using hnone
    have hworker : ∀ k, (s.loops k).waitRun = none := by
      intro k
      have hnone := hstuck (.worker k) trivial
      simpa only [startLts, PoolStart.step, hf, Option.isSome_none, Bool.false_eq_true,
        if_false, Option.map_eq_none_iff] using hnone
    have hscript := h.script_eq_nil hmain hworker
    exact ⟨hscript, fun k hk => h.all_loop hscript hworker hk⟩
  · rw [h.picked, count_picks hi, count_picks hj, ← Nat.add_div_right _ (threadNum_pos thread_num)]
    exact Nat.div_le_div_right (by omega)

/-- The server with one worker thread: the main thread waits for it, and later two proxy connections and
a listening channel are given to the loops. -/
def startOne : List StartAct :=
  List.replicate 7 .main ++ List.replicate 5 (.worker 0) ++ List.replicate 2 .main ++
    List.replicate 5 (.worker 1) ++ List.replicate 3 .main ++ [.pick, .add 1, .pick]

theorem pool_starts_one :
    ∃ s, (startLts true 1 fun _ => false).exec (startLts true 1 fun _ => false).init startOne = some s ∧
      s.picked = [0, 0] ∧ s.script = [] ∧ ∀ k < 2, (s.loops k).pc = .loop := by
  obtain ⟨s, he, hpicked, hfault, hmain, hworker⟩ : ∃ s,
      (startLts true 1 fun _ => false).exec (startLts true 1 fun _ => false).init startOne = some s ∧
        s.picked = [0, 0] ∧ s.fault = none ∧ (startLts true 1 fun _ => false).step s .main = none ∧
        ∀ k, (startLts true 1 fun _ => false).step s (.worker k) = none := by
    refine ⟨_, (Option.some_get (x := (startLts true 1 fun _ => false).exec _ _) (by decide +kernel)).symm,
      by decide +kernel, by decide +kernel, rfl, fun k => ?_⟩
    rcases k with _ | _ | k
    · rfl
    · rfl
    · rfl
  have hs := Lts.Reach.of_allSteps (g := LocksInTime) .init he (by decide +kernel)
  refine ⟨s, he, hpicked, (pool_starts hs).2.1 hfault fun a ha => ?_⟩
  cases a with
  | main => exact hmain
  | worker k => exact hworker k
  | spurious k => exact absurd ha id
  | pick => exact absurd ha id
  | add k => exact absurd ha id

/-- A thread is quick: the mutex that it locks is not constructed. -/
example : ((startLts false 1 fun _ => false).exec (startLts false 1 fun _ => false).init
    [.main, .worker 0, .worker 0]).map PoolStart.fault = some (some .raced) := by
  decide +kernel

end Starts

end ProxySocket

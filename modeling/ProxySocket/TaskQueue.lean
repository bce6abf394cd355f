/-
**Tasks for the clients.**

`addSendTask` leaves a message for a client in `tasksBuf`.  The thread of the `ThreadTaskServer` takes
what it finds there over into its own list, under the mutex, and then deals with the list: it calls
`SendData` of the client of each task.  The reactor calls `SendData` and `SendDataReal` of the same
clients meanwhile.  A call of `SendData` is one step.  `Close` clears a flag that the loop of the thread does
not test, so the thread runs on.

`AllDone` adds the sizes of the two lists without the mutex, and the language does not say which of them it
reads first.

Main definitions:

* `Send2Client`, `DealPc` — a task, and where the thread stands in `ThreadTaskServer::Run`;
* `TaskQueue`, `TaskAct`, `taskLts` — the two lists with the clients and all the threads;
* `TaskQueue.stages` — dealt with, taken over and added, as a conveyor.

Main results:

* `TaskInv.step` — one step keeps the invariant;
* `tasks_in_order` — **each task is dealt with once, in the order in which they were added, and a client
  sees of them what it would see of the calls of `SendData` alone**;
* `all_done_iff` — **`AllDone` tells the truth when it reads `tasksBuf` first, and only then**.
-/

import ProxySocket.Conveyor
import ProxySocket.SendBuffer
import Mathlib.Logic.Function.Basic

set_option relaxedAutoImplicit false
set_option autoImplicit false

namespace ProxySocket

open Function (update)

/-! ### The lists and the thread -/

/-- A `Send2Client`, with the message its `header` points to. -/
structure Send2Client (κ : Type) where
  pclient : κ
  header : List UInt8
deriving DecidableEq

/-- Where the task thread stands in `Run`. -/
inductive DealPc
  /-- at the test of `tasksBuf`, which it makes without the mutex -/
  | looping
  /-- before it locks the mutex -/
  | locking
  /-- before the `push_back` of the element of `tasksBuf` with this index, with the mutex -/
  | merging (i : ℕ)
  /-- at the test of `task` -/
  | testing
  /-- before the `Deal` of the task with this index -/
  | dealing (i : ℕ)
deriving DecidableEq, Repr

/-- A `ThreadTaskServer` whose tasks are for the clients `κ`. -/
structure TaskQueue (κ : Type) where
  task : List (Send2Client κ) := []
  tasksBuf : List (Send2Client κ) := []
  pc : DealPc := .looping
  clients : κ → SendRun
  /-- a call of `AllDone` has read one size; with the number of tasks added before the call -/
  asked : Option (ℕ × ℕ) := none
  /-- history: the tasks added, and those dealt with -/
  added : List (Send2Client κ) := []
  dealt : List (Send2Client κ) := []
  /-- history: the calls on each client, marked if they are those of the task thread -/
  calls : κ → List (Bool × SendCall) := fun _ => []
  /-- history: the last `AllDone` has returned true, and so many tasks had been added before it -/
  said : Option ℕ := none

/-- A step of one of the threads. -/
inductive TaskAct (κ : Type)
  /-- `addTask` -/
  | addTask (t : Send2Client κ)
  /-- the next step of the task thread -/
  | run
  /-- another thread calls a function of a client -/
  | client (k : κ) (c : SendCall)
  /-- the two halves of `AllDone` -/
  | allDone
  | allDoneRest

/-- The task that a step adds. -/
def TaskAct.added? {κ : Type} : TaskAct κ → Option (Send2Client κ)
  | .addTask t => some t
  | .run | .client _ _ | .allDone | .allDoneRest => none

/-- The call on the client `k` that a thread other than the task thread makes. -/
def TaskAct.callOn? {κ : Type} [DecidableEq κ] (k : κ) : TaskAct κ → Option SendCall
  | .client j c => if j = k then some c else none
  | .run | .addTask _ | .allDone | .allDoneRest => none

namespace TaskQueue

variable {κ : Type} [DecidableEq κ]

/-- A call on the client `k`. -/
def onClient (e : Endian) (s : TaskQueue κ) (byTask : Bool) (k : κ) (c : SendCall) :
    Option (TaskQueue κ) :=
  ((s.clients k).step e c).map fun r =>
    { s with
      clients := update s.clients k r
      calls := update s.calls k (s.calls k ++ [(byTask, c)]) }

/-- `ThreadTaskServer::Run`. -/
def runStep (e : Endian) (s : TaskQueue κ) : Option (TaskQueue κ) :=
  match s.pc with
  | .looping => some { s with pc := if s.tasksBuf = [] then .testing else .locking }
  | .locking => some { s with pc := .merging 0 }
  | .merging i =>
      match s.tasksBuf[i]? with
      | some t => some { s with task := s.task ++ [t], pc := .merging (i + 1) }
      | none => some { s with tasksBuf := [], pc := .testing }
  | .testing => some { s with pc := if s.task = [] then .looping else .dealing 0 }
  | .dealing i =>
      match s.task[i]? with
      -- `Deal` ignores what `SendData` returns
      | some t =>
          (s.onClient e true t.pclient (.sendData t.header)).map fun s =>
            { s with dealt := s.dealt ++ [t], pc := .dealing (i + 1) }
      | none => some { s with task := [], pc := .looping }

/-- Nobody holds the mutex. -/
def Unlocked (s : TaskQueue κ) : Prop := ∀ i, s.pc ≠ .merging i

instance (s : TaskQueue κ) : Decidable s.Unlocked :=
  match h : s.pc with
  | .merging i => .isFalse fun hu => hu i h
  | .looping => .isTrue fun i hi => by rw [h] at hi; cases hi
  | .locking => .isTrue fun i hi => by rw [h] at hi; cases hi
  | .testing => .isTrue fun i hi => by rw [h] at hi; cases hi
  | .dealing _ => .isTrue fun i hi => by rw [h] at hi; cases hi

/-- One step.  `AllDone` reads `task.size()` first, or `tasksBuf.size()`. -/
def step (e : Endian) (taskFirst : Bool) (s : TaskQueue κ) : TaskAct κ → Option (TaskQueue κ)
  | .addTask t =>
      if s.Unlocked then some { s with tasksBuf := s.tasksBuf ++ [t], added := s.added ++ [t] }
      else none
  | .run => s.runStep e
  | .client k c => s.onClient e false k c
  | .allDone =>
      let size := if taskFirst then s.task.length else s.tasksBuf.length
      some { s with asked := some (s.added.length, size) }
  | .allDoneRest =>
      s.asked.map fun a =>
        let size := if taskFirst then s.tasksBuf.length else s.task.length
        { s with asked := none, said := if a.2 + size = 0 then some a.1 else s.said }

/-- The tasks that the thread has taken over, and not dealt with. -/
def pending (s : TaskQueue κ) : List (Send2Client κ) :=
  match s.pc with
  | .merging _ => []
  | .dealing i => s.task.drop i
  | _ => s.task

/-- The calls on the client `k` that the task thread has made. -/
def taskCalls (s : TaskQueue κ) (k : κ) : List SendCall := ((s.calls k).filter (·.1)).map Prod.snd

/-- Those that the other threads have made. -/
def otherCalls (s : TaskQueue κ) (k : κ) : List SendCall := ((s.calls k).filter (!·.1)).map Prod.snd

/-- What was dealt with, what was taken over, and what was added. -/
def stages (s : TaskQueue κ) : List (List (Send2Client κ)) := [s.dealt, s.pending, s.tasksBuf]

end TaskQueue

/-- A new `ThreadTaskServer` and new clients. -/
def taskLts {κ : Type} [DecidableEq κ] (e : Endian) (taskFirst : Bool) (heap : κ → ℕ → UInt8)
    (socket : κ → ℤ) : Lts (TaskQueue κ) (TaskAct κ) where
  init := { clients := fun k => (sendLts e (heap k) (socket k)).init }
  step := TaskQueue.step e taskFirst

/-! ### The invariant -/

/-- **The invariant** of the two lists and the clients. -/
structure TaskInv {κ : Type} [DecidableEq κ] (e : Endian) (heap : κ → ℕ → UInt8) (socket : κ → ℤ)
    (s : TaskQueue κ) : Prop where
  stages : s.stages.flatten = s.added
  merging : ∀ i, s.pc = .merging i → s.task = s.tasksBuf.take i
  looping : s.pc = .looping ∨ s.pc = .locking → s.task = []
  calls : ∀ k, (sendLts e (heap k) (socket k)).exec (sendLts e (heap k) (socket k)).init
    ((s.calls k).map Prod.snd) = some (s.clients k)
  order : ∀ k, s.taskCalls k = (s.dealt.filter (·.pclient = k)).map (SendCall.sendData ·.header)

namespace TaskInv

variable {κ : Type} [DecidableEq κ] {e : Endian} {taskFirst : Bool} {heap : κ → ℕ → UInt8}
  {socket : κ → ℤ} {s s' : TaskQueue κ}

theorem init : TaskInv e heap socket (taskLts e taskFirst heap socket).init where
  stages := rfl
  merging := by intro i h; cases h
  looping _ := rfl
  calls _ := rfl
  order _ := rfl

/-- What a call on a client does to the history of its calls. -/
theorem onClient {byTask : Bool} {k : κ} {c : SendCall} (hs : s.onClient e byTask k c = some s')
    (hcalls : ∀ k, (sendLts e (heap k) (socket k)).exec (sendLts e (heap k) (socket k)).init
      ((s.calls k).map Prod.snd) = some (s.clients k)) :
    (∀ k, (sendLts e (heap k) (socket k)).exec (sendLts e (heap k) (socket k)).init
      ((s'.calls k).map Prod.snd) = some (s'.clients k)) ∧
    (∀ j, s'.taskCalls j = s.taskCalls j ++ if byTask = true ∧ k = j then [c] else []) ∧
    (∀ j, s'.otherCalls j = s.otherCalls j ++ if byTask = false ∧ k = j then [c] else []) ∧
    (∃ clients calls, s' = { s with clients := clients, calls := calls }) := by
  obtain ⟨r, hr, rfl⟩ := Option.map_eq_some_iff.1 hs
  have hnew : ∀ j, update s.calls k (s.calls k ++ [(byTask, c)]) j =
      s.calls j ++ if k = j then [(byTask, c)] else [] := by
    intro j
    by_cases hj : j = k
    · subst hj
      rw [Function.update_self, if_pos rfl]
    · rw [Function.update_of_ne hj, if_neg (Ne.symm hj), List.append_nil]
  refine ⟨fun j => ?_, fun j => ?_, fun j => ?_, _, _, rfl⟩
  · by_cases hj : j = k
    · subst hj
      simp only [Function.update_self, List.map_append, Lts.exec_append, hcalls j, Option.bind_some,
        List.map_cons, List.map_nil]
      exact (Lts.exec_cons_eq_some _).2 ⟨r, hr, rfl⟩
    · simp only [Function.update_of_ne hj]
      exact hcalls j
  · simp only [TaskQueue.taskCalls, hnew j, List.filter_append, List.map_append]
    by_cases hj : k = j <;> cases byTask <;> simp [hj]
  · simp only [TaskQueue.otherCalls, hnew j, List.filter_append, List.map_append]
    by_cases hj : k = j <;> cases byTask <;> simp [hj]

/-- **The steps of the task thread.** -/
theorem runStep (h : TaskInv e heap socket s) (hs : s.runStep e = some s') :
    TaskInv e heap socket s' := by
  have hstages := h.stages
  unfold TaskQueue.stages TaskQueue.pending at hstages
  unfold TaskQueue.runStep at hs
  cases hp : s.pc with
  | looping =>
      rw [hp] at hs hstages
      obtain rfl := Option.some.inj hs
      by_cases hbuf : s.tasksBuf = []
      · simp only [if_pos hbuf]
        exact { h with stages := hstages, merging := (nomatch ·, ·), looping := (by simp) }
      · simp only [if_neg hbuf]
        exact { h with stages := hstages, merging := (nomatch ·, ·), looping := fun _ => h.looping (.inl hp) }
  | locking =>
      rw [hp] at hs hstages
      obtain rfl := Option.some.inj hs
      have htask : s.task = [] := h.looping (.inr hp)
      rw [htask] at hstages
      refine { h with stages := hstages, merging := ?_, looping := (by simp) }
      rintro i hi
      cases hi
      exact htask
  | merging i =>
      rw [hp] at hs hstages
      have htask : s.task = s.tasksBuf.take i := h.merging i hp
      dsimp only at hs
      cases ht : s.tasksBuf[i]? with
      | some t =>
          rw [ht] at hs
          obtain rfl := Option.some.inj hs
          refine { h with stages := hstages, merging := ?_, looping := (by simp) }
          rintro j hj
          cases hj
          rw [htask, List.take_add_one, ht]
          rfl
      | none =>
          rw [ht] at hs
          obtain rfl := Option.some.inj hs
          -- all of `tasksBuf` has moved
          rw [List.take_of_length_le (List.getElem?_eq_none_iff.1 ht)] at htask
          have hmove := ((Conveyor.Moves.take [] s.tasksBuf [] s.tasksBuf.length).later s.dealt).flatten_eq
          rw [List.take_length, List.drop_length, ← htask] at hmove
          exact { h with stages := (hmove.trans (by rw [htask])).trans hstages, merging := (nomatch ·, ·),
                         looping := (by simp) }
  | testing =>
      rw [hp] at hs hstages
      obtain rfl := Option.some.inj hs
      by_cases htask : s.task = []
      · simp only [if_pos htask]
        exact { h with stages := hstages, merging := (nomatch ·, ·), looping := fun _ => htask }
      · simp only [if_neg htask]
        exact { h with stages := hstages, merging := (nomatch ·, ·), looping := (by simp) }
  | dealing i =>
      rw [hp] at hs hstages
      dsimp only at hs
      cases ht : s.task[i]? with
      | some t =>
          rw [ht] at hs
          obtain ⟨s₁, hs₁, rfl⟩ := Option.map_eq_some_iff.1 hs
          obtain ⟨hcalls, horder, -, clients, calls, rfl⟩ := onClient hs₁ h.calls
          refine ⟨?_, (nomatch ·, ·), (by simp), hcalls, fun k => ?_⟩
          · -- the first of the pending tasks was dealt with
            obtain ⟨hi, rfl⟩ := List.getElem?_eq_some_iff.1 ht
            have hmove := (Conveyor.Move.here s.dealt [s.task[i]] (s.task.drop (i + 1))
              [s.tasksBuf]).flatten_eq
            rw [List.singleton_append, ← List.drop_eq_getElem_cons hi] at hmove
            exact hmove.trans hstages
          · refine (horder k).trans ?_
            rw [h.order k]
            by_cases hk : t.pclient = k
            · simp [hk]
            · simp [hk]
      | none =>
          rw [ht] at hs
          obtain rfl := Option.some.inj hs
          -- the rest of the list is empty
          have hdrop : s.task.drop i = [] := List.drop_eq_nil_iff.2 (List.getElem?_eq_none_iff.1 ht)
          simp only [hdrop] at hstages
          exact { h with stages := hstages, merging := (nomatch ·, ·), looping := fun _ => rfl }

/-- **One step keeps the invariant**, whichever thread takes it. -/
theorem step (h : TaskInv e heap socket s) {a : TaskAct κ} (hs : s.step e taskFirst a = some s') :
    TaskInv e heap socket s' := by
  cases a with
  | addTask t =>
      simp only [TaskQueue.step, Option.ite_none_right_eq_some, Option.some.injEq] at hs
      obtain ⟨hfree, rfl⟩ := hs
      refine { h with stages := ?_, merging := fun i hi => absurd hi (hfree i) }
      have hfeed := Conveyor.flatten_feed [t] s.stages
      rw [h.stages] at hfeed
      exact hfeed
  | run => exact h.runStep hs
  | client k c =>
      obtain ⟨hcalls, horder, -, clients, calls, rfl⟩ := onClient hs h.calls
      refine { h with calls := hcalls, order := fun j => ?_ }
      rw [horder j, if_neg fun hb => Bool.false_ne_true hb.1, List.append_nil]
      exact h.order j
  | allDone =>
      obtain rfl := Option.some.inj hs
      exact { h with }
  | allDoneRest =>
      obtain ⟨a, -, rfl⟩ := Option.map_eq_some_iff.1 hs
      exact { h with }

end TaskInv

/-! ### The order of the tasks -/

section Run

variable {κ : Type} [DecidableEq κ] {e : Endian} {taskFirst : Bool} {heap : κ → ℕ → UInt8}
  {socket : κ → ℤ} {as : List (TaskAct κ)} {s s' : TaskQueue κ}

theorem taskInv_of_exec
    (he : (taskLts e taskFirst heap socket).exec (taskLts e taskFirst heap socket).init as = some s) :
    TaskInv e heap socket s := by
  have hr : (taskLts e taskFirst heap socket).Reach (fun _ _ => True) s :=
    .of_allSteps .init he (Lts.allSteps_true _ as)
  exact hr.invariant TaskInv.init fun _ _ _ _ hi _ hs => hi.step hs

/-- What the task thread leaves alone, and which way it moves the tasks. -/
theorem runStep_frame (h : TaskInv e heap socket s) (hs : s.runStep e = some s') :
    s'.added = s.added ∧ (∀ k, s'.otherCalls k = s.otherCalls k) ∧ s'.asked = s.asked ∧ s'.said = s.said ∧
      s.dealt.length ≤ s'.dealt.length ∧ s'.tasksBuf.length ≤ s.tasksBuf.length := by
  unfold TaskQueue.runStep at hs
  split at hs
  · obtain rfl := Option.some.inj hs
    exact ⟨rfl, fun _ => rfl, rfl, rfl, le_rfl, le_rfl⟩
  · obtain rfl := Option.some.inj hs
    exact ⟨rfl, fun _ => rfl, rfl, rfl, le_rfl, le_rfl⟩
  · split at hs
    · obtain rfl := Option.some.inj hs
      exact ⟨rfl, fun _ => rfl, rfl, rfl, le_rfl, le_rfl⟩
    · obtain rfl := Option.some.inj hs
      exact ⟨rfl, fun _ => rfl, rfl, rfl, le_rfl, Nat.zero_le _⟩
  · obtain rfl := Option.some.inj hs
    exact ⟨rfl, fun _ => rfl, rfl, rfl, le_rfl, le_rfl⟩
  · split at hs
    · obtain ⟨s₁, hs₁, rfl⟩ := Option.map_eq_some_iff.1 hs
      obtain ⟨-, -, hother, clients, calls, rfl⟩ := TaskInv.onClient hs₁ h.calls
      refine ⟨rfl, fun k => ?_, rfl, rfl, ?_, le_rfl⟩
      · refine (hother k).trans ?_
        rw [if_neg fun hb => Bool.false_ne_true hb.1.symm, List.append_nil]
      rw [List.length_append]
      exact Nat.le_add_right _ _
    · obtain rfl := Option.some.inj hs
      exact ⟨rfl, fun _ => rfl, rfl, rfl, le_rfl, le_rfl⟩

/-- What one step adds to the histories. -/
theorem history_step (h : TaskInv e heap socket s) {a : TaskAct κ} (hs : s.step e taskFirst a = some s') :
    s'.added = s.added ++ a.added?.toList ∧
      ∀ k, s'.otherCalls k = s.otherCalls k ++ (a.callOn? k).toList := by
  cases a with
  | addTask t =>
      simp only [TaskQueue.step, Option.ite_none_right_eq_some, Option.some.injEq] at hs
      obtain ⟨-, rfl⟩ := hs
      exact ⟨rfl, fun k => (List.append_nil _).symm⟩
  | run =>
      obtain ⟨hadded, hother, -⟩ := runStep_frame h hs
      exact ⟨hadded.trans (List.append_nil _).symm, fun k => (hother k).trans (List.append_nil _).symm⟩
  | client j c =>
      obtain ⟨-, -, hother, clients, calls, rfl⟩ := TaskInv.onClient hs h.calls
      refine ⟨(List.append_nil _).symm, fun k => (hother k).trans ?_⟩
      by_cases hj : j = k <;> simp [hj, TaskAct.callOn?]
  | allDone =>
      obtain rfl := Option.some.inj hs
      exact ⟨(List.append_nil _).symm, fun k => (List.append_nil _).symm⟩
  | allDoneRest =>
      obtain ⟨a, -, rfl⟩ := Option.map_eq_some_iff.1 hs
      exact ⟨(List.append_nil _).symm, fun k => (List.append_nil _).symm⟩

/-- **The histories are those of the run.** -/
theorem history_of_exec
    (he : (taskLts e taskFirst heap socket).exec (taskLts e taskFirst heap socket).init as = some s) :
    s.added = as.filterMap TaskAct.added? ∧ ∀ k, s.otherCalls k = as.filterMap (TaskAct.callOn? k) := by
  induction as using List.reverseRecOn generalizing s with
  | nil =>
      obtain rfl := Option.some.inj he
      exact ⟨rfl, fun _ => rfl⟩
  | append_singleton as a ih =>
      rw [Lts.exec_append, Option.bind_eq_some_iff] at he
      obtain ⟨t, ht, hlast⟩ := he
      obtain ⟨s', hst, hs'⟩ := (Lts.exec_cons_eq_some _).1 hlast
      obtain rfl := Option.some.inj hs'
      obtain ⟨hadded, hother⟩ := ih ht
      obtain ⟨hadded', hother'⟩ := history_step (taskInv_of_exec ht) hst
      refine ⟨?_, fun k => ?_⟩
      · rw [hadded', hadded, List.filterMap_append]
        cases ha : a.added? <;> simp [ha]
      · rw [hother', hother, List.filterMap_append]
        cases ha : a.callOn? k <;> simp [ha]

/-- **Each task is dealt with once, in the order in which they were added.**  In every interleaving of the
threads that add tasks, the task thread and the threads that use the clients: the tasks dealt with, those
taken over and those that wait are the tasks that the run has added.  The calls that each client has seen
are those of the task thread, which are one `SendData` for each of its own tasks among those dealt with, in
the order in which they were added, and the calls that the other threads have made in the run. -/
theorem tasks_in_order
    (he : (taskLts e taskFirst heap socket).exec (taskLts e taskFirst heap socket).init as = some s) :
    s.dealt ++ s.pending ++ s.tasksBuf = as.filterMap TaskAct.added? ∧
      ∀ k, (sendLts e (heap k) (socket k)).exec (sendLts e (heap k) (socket k)).init
          ((s.calls k).map Prod.snd) = some (s.clients k) ∧
        s.taskCalls k = (((as.filterMap TaskAct.added?).take s.dealt.length).filter (·.pclient = k)).map
          (SendCall.sendData ·.header) ∧
        s.otherCalls k = as.filterMap (TaskAct.callOn? k) := by
  have h := taskInv_of_exec he
  obtain ⟨hadded, hother⟩ := history_of_exec he
  have hstages : s.dealt ++ (s.pending ++ s.tasksBuf) = s.added := by
    have hflat := h.stages
    simpa only [TaskQueue.stages, List.flatten_cons, List.flatten_nil, List.append_nil] using hflat
  rw [← hadded]
  refine ⟨(List.append_assoc _ _ _).trans hstages, fun k => ⟨h.calls k, ?_, hother k⟩⟩
  rw [h.order k, ← hstages, List.take_left]

/-- Two tasks for two clients, and the thread has dealt with the first one. -/
def twoTasks : List (TaskAct Bool) :=
  [.addTask ⟨true, [4, 0, 5, 0]⟩, .addTask ⟨false, [4, 0, 0, 0]⟩] ++ List.replicate 7 .run

theorem tasks_in_order_two :
    ∃ s, (taskLts .little true (fun _ _ => 0) fun _ : Bool => 3).exec
        (taskLts .little true (fun _ _ => 0) fun _ => 3).init twoTasks = some s ∧
      s.taskCalls true = [.sendData [4, 0, 5, 0]] ∧ s.taskCalls false = [] := by
  obtain ⟨s, he, hdealt⟩ : ∃ s, (taskLts .little true (fun _ _ => 0) fun _ : Bool => 3).exec
      (taskLts .little true (fun _ _ => 0) fun _ => 3).init twoTasks = some s ∧ s.dealt.length = 1 :=
    ⟨_, (Option.some_get (x := (taskLts .little true (fun _ _ => 0) fun _ : Bool => 3).exec _ _)
      (by decide +kernel)).symm, by decide +kernel⟩
  have h := (tasks_in_order he).2
  rw [hdealt] at h
  exact ⟨s, he, (h true).2.1, (h false).2.1⟩

/-! ### AllDone -/

omit [DecidableEq κ] in
theorem TaskQueue.pending_length_le (s : TaskQueue κ) : s.pending.length ≤ s.task.length := by
  unfold TaskQueue.pending
  split
  · exact Nat.zero_le _
  · rw [List.length_drop]
    exact Nat.sub_le _ _
  · exact le_rfl

theorem TaskInv.length_eq (h : TaskInv e heap socket s) :
    s.dealt.length + s.pending.length + s.tasksBuf.length = s.added.length := by
  have hlen := congrArg List.length h.stages
  simp only [TaskQueue.stages, List.flatten_cons, List.flatten_nil, List.append_nil,
    List.length_append] at hlen
  omega

/-- What an `AllDone` that reads `tasksBuf` first knows: when it found that empty, the tasks that had been
added were dealt with or taken over. -/
structure DoneInv (s : TaskQueue κ) : Prop where
  asked : ∀ n, s.asked = some (n, 0) → n ≤ s.dealt.length + s.pending.length
  said : ∀ n, s.said = some n → n ≤ s.dealt.length

theorem doneInv_init : DoneInv (taskLts e taskFirst heap socket).init where
  asked := by intro n h; cases h
  said := by intro n h; cases h

theorem DoneInv.step (hd : DoneInv s) (h : TaskInv e heap socket s) {a : TaskAct κ}
    (hs : s.step e false a = some s') : DoneInv s' := by
  cases a with
  | addTask t =>
      simp only [TaskQueue.step, Option.ite_none_right_eq_some, Option.some.injEq] at hs
      obtain ⟨-, rfl⟩ := hs
      exact ⟨hd.asked, hd.said⟩
  | client k c =>
      obtain ⟨-, -, -, clients, calls, rfl⟩ := TaskInv.onClient hs h.calls
      exact ⟨hd.asked, hd.said⟩
  | run =>
      obtain ⟨hadded, -, hasked, hsaid, hdealt, hbuf⟩ := runStep_frame h hs
      have hlen := h.length_eq
      have hlen' := (h.runStep hs).length_eq
      rw [hadded] at hlen'
      constructor
      · intro n hn
        have := hd.asked n (hasked ▸ hn)
        omega
      · intro n hn
        have := hd.said n (hsaid ▸ hn)
        omega
  | allDone =>
      obtain rfl := Option.some.inj hs
      refine ⟨fun n hn => ?_, hd.said⟩
      have hlen := h.length_eq
      simp only [Bool.false_eq_true, if_false, Option.some.injEq, Prod.mk.injEq] at hn
      change n ≤ s.dealt.length + s.pending.length
      omega
  | allDoneRest =>
      obtain ⟨a, ha, rfl⟩ := Option.map_eq_some_iff.1 hs
      refine ⟨fun n hn => (by cases hn), fun n hn => ?_⟩
      simp only [Bool.false_eq_true, if_false] at hn
      change n ≤ s.dealt.length
      split at hn
      · -- both lists were found empty
        rename_i hzero
        have hpending := s.pending_length_le
        have hfirst : a.2 = 0 := by omega
        have hasked := hd.asked a.1 (by rw [ha, ← hfirst])
        have hn' : a.1 = n := Option.some.inj hn
        omega
      · exact hd.said n hn

/-- `AllDone` says that all is done before anything is: it finds `task` empty, the thread takes a task over,
and it finds `tasksBuf` empty. -/
def doneTooEarly (k : κ) : List (TaskAct κ) :=
  [.addTask ⟨k, []⟩, .run, .allDone, .run, .run, .run, .allDoneRest]

/-- **`AllDone` tells the truth when it reads `tasksBuf` first, and only then**: in every run, when it
returns true, all the tasks that had been added before the call have been dealt with. -/
theorem all_done_iff {κ : Type} [DecidableEq κ] [Nonempty κ] (e : Endian) (taskFirst : Bool)
    (heap : κ → ℕ → UInt8) (socket : κ → ℤ) :
    (∀ as s, (taskLts e taskFirst heap socket).exec (taskLts e taskFirst heap socket).init as = some s →
      ∀ n, s.said = some n → n ≤ s.dealt.length) ↔ taskFirst = false := by
  constructor
  · intro htrue
    cases taskFirst with
    | false => rfl
    | true =>
        obtain ⟨k⟩ := ‹Nonempty κ›
        have hwrong : 1 ≤ 0 := htrue (doneTooEarly k) _ rfl 1 rfl
        exact absurd hwrong (Nat.not_succ_le_zero 0)
  · rintro rfl as s he
    have hr : (taskLts e false heap socket).Reach (fun _ _ => True) s :=
      .of_allSteps .init he (Lts.allSteps_true _ as)
    have hboth : TaskInv e heap socket s ∧ DoneInv s :=
      hr.invariant (I := fun s => TaskInv e heap socket s ∧ DoneInv s)
        ⟨TaskInv.init, doneInv_init⟩
        fun _ _ _ _ hi _ hs => ⟨hi.1.step hs, hi.2.step hi.1 hs⟩
    exact hboth.2.said

/-- One task is added, taken over and dealt with before the call. -/
def dealOne : List (TaskAct Unit) :=
  .addTask ⟨(), []⟩ :: List.replicate 7 .run ++ [.allDone, .allDoneRest]

theorem all_done_one_client :
    ∃ s, (taskLts .little false (fun _ _ => 0) fun _ => 3).exec
        (taskLts .little false (fun _ _ => 0) fun _ => 3).init dealOne = some s ∧
      s.said = some 1 ∧ 1 ≤ s.dealt.length := by
  have he := (Option.some_get (x := (taskLts .little false (fun _ _ => 0) fun _ => 3).exec
    (taskLts .little false (fun _ _ => 0) fun _ => 3).init dealOne) (by decide +kernel)).symm
  have hsaid := (all_done_iff .little false (fun _ _ => 0) fun _ : Unit => 3).2 rfl _ _ he 1
  exact ⟨_, he, by decide +kernel, hsaid (by decide +kernel)⟩

end Run

end ProxySocket

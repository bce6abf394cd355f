/-
**Arming a control connection for output.**

`SendMsg` puts a frame into the output buffer, adds `EPOLLOUT` to `events_` and hands `events_` to
`epoll_ctl(2)`.  The loop thread does the same at the end of every event: it starts from 0, sets the
events that are always waited for, adds `EPOLLOUT` when the buffer has something left, and calls
`epoll_ctl(2)`.  `mutex_` keeps the senders apart, and nothing keeps a sender and the loop thread apart.

Here every test and every change of `events_`, every call on the buffer and every call of
`epoll_ctl(2)` is a step of its own.  `PollMod` is two of them: it reads `events_`, and then it calls the
kernel.  A call of `WriteToBuffer` is one step, and so is one of `WriteToSocket`: these are the runs in
which no such call, of a sender under `mutex_` and of the loop thread without it, falls into another.

Main definitions:

* `SendPc`, `LoopPc` — where the sender stands in `SendMsg`, and the loop thread in `HandleEvents`;
* `Arming`, `ArmAct`, `Arming.step` — a connection with the two threads and what the kernel waits for;
* `ArmAct.Built`, `ArmAct.Takes` — the program builds the bodies; every `write(2)` takes bytes;
* `Arming.Quiet` — no call is in progress, and the connection is not closing;
* `Listens`, `Arming.Armed` — the events that are always waited for, and those that are needed.

Main results:

* `ArmedInv.step` — **one step keeps the invariant**, whoever takes it and whatever `write(2)` answers;
* `ArmedInv.out_step` — a step in which every `write(2)` takes bytes loses none;
* `quiet_interest_iff` — the kernel waits for `events_` exactly when the last call gave it the value
  `events_` had at that time;
* `quiet_armed` — **after any interleaving, `events_` asks for output whenever there is any, and then so
  does the kernel, unless the last call came with an old value; nothing was lost from the buffer if every
  `write(2)` took bytes**;
* `flush_sends` — an event that finds the socket writable sends all of it;
* `old_value_strands` — what happens otherwise.
-/

import ProxySocket.BufferGrowth
import ProxySocket.CtlClose

set_option relaxedAutoImplicit false
set_option autoImplicit false

namespace ProxySocket

/-! ### Event masks -/

theorem and_or_flags (a b f : UInt32) : (a ||| b) &&& f = (a &&& f) ||| (b &&& f) := by
  apply UInt32.toBitVec_inj.1
  simp only [UInt32.toBitVec_and, UInt32.toBitVec_or]
  ext i hi
  simp [Bool.and_or_distrib_right]

@[simp] theorem hasFlag_or (a b f : UInt32) : hasFlag (a ||| b) f = (hasFlag a f || hasFlag b f) := by
  simp only [hasFlag, and_or_flags, ne_eq, UInt32.or_eq_zero_iff, not_and_or, Bool.decide_or]

/-- What `HandlerEvery` sets first: `EPOLLET | EPOLLIN | EPOLLRDHUP`. -/
def everyEvents : UInt32 := epollEt ||| epollIn ||| epollRdHup

/-- A mask has the three flags that a connection always waits for. -/
structure Listens (events : UInt32) : Prop where
  et : hasFlag events epollEt = true
  input : hasFlag events epollIn = true
  rdHup : hasFlag events epollRdHup = true

theorem listens_every : Listens everyEvents := ⟨rfl, rfl, rfl⟩

theorem Listens.or {events : UInt32} (h : Listens events) (f : UInt32) : Listens (events ||| f) where
  et := by rw [hasFlag_or, h.et, Bool.true_or]
  input := by rw [hasFlag_or, h.input, Bool.true_or]
  rdHup := by rw [hasFlag_or, h.rdHup, Bool.true_or]

theorem hasFlag_or_out (events : UInt32) : hasFlag (events ||| epollOut) epollOut = true := by
  rw [hasFlag_or, show hasFlag epollOut epollOut = true from rfl, Bool.or_true]

/-! ### The two threads -/

/-- Where the thread that holds `mutex_` stands in `SendMsg`. -/
inductive SendPc
  /-- nobody holds the mutex -/
  | outside
  /-- before `WriteToBuffer` of the message -/
  | writing (type : MsgType) (body : List UInt8)
  /-- before `Addevents(EPOLLOUT)` -/
  | adding
  /-- before `GetEvents` in `PollMod` -/
  | getting
  /-- before `epoll_ctl(2)` with these events -/
  | calling (events : UInt32)
deriving DecidableEq

/-- Where the loop thread stands in `HandleEvents`. -/
inductive LoopPc
  /-- in `epoll_wait(2)`, or busy with other channels -/
  | idle
  /-- before the read handler -/
  | reading (revents : UInt32)
  /-- before the write handler -/
  | writing (revents : UInt32)
  /-- in `HandlerWrite`, after `WriteToSocket` -/
  | written
  /-- in `HandlerWrite`, before `Addevents(EPOLLOUT)` -/
  | leftAdding
  /-- before `HandlerEvery` -/
  | every
  /-- in `HandlerEvery`, before `SetEvents` -/
  | setting
  /-- before the test of the buffer -/
  | testing
  /-- before `Addevents(EPOLLOUT)` -/
  | adding
  /-- before `GetEvents` in `PollMod` -/
  | getting
  /-- before `epoll_ctl(2)` with these events -/
  | calling (events : UInt32)
deriving DecidableEq

/-- A control connection that is registered with the poller of its loop. -/
structure Arming where
  /-- the output half, with `out_buf_` -/
  out : CtlSender
  /-- `events_` of the channel -/
  events : UInt32 := everyEvents ||| epollOut
  /-- the events the kernel waits for -/
  interest : UInt32 := everyEvents ||| epollOut
  /-- `in_buffer_empty_`, and `closed_` of the channel -/
  bufferEmpty : Bool
  closed : Bool
  sender : SendPc := .outside
  loop : LoopPc := .idle
  /-- history: the last `epoll_ctl(2)` got the value that `events_` had at that time -/
  lastFresh : Bool := true

/-- A step, with what the heap, the peer and the kernel contribute. -/
inductive ArmAct
  /-- a thread calls `SendMsg` and gets the mutex -/
  | sendMsg (type : MsgType) (body : List UInt8)
  /-- the next step in `SendMsg` -/
  | sender (heap : ℕ → UInt8)
  /-- an event: `SetRevents`, and `HandleEvents` up to the read handler -/
  | wake (revents : UInt32)
  /-- the next step of `HandleEvents`; the read handler may find the end of the stream, and the write
  handler makes `k` calls of `write(2)` -/
  | loop (eof : Bool) (errno : ℕ) (o : ℕ → WriteResult) (k : ℕ)

namespace Arming

/-- The call of `epoll_ctl(2)` that ends a `PollMod`. -/
def epollMod (s : Arming) (events : UInt32) : Arming :=
  { s with interest := events, lastFresh := decide (events = s.events) }

/-- The steps of `SendMsg`.  The history of `SendMsg` grows exactly when `write_num` is `msg_len`. -/
def sendStep (e : Endian) (s : Arming) (heap : ℕ → UInt8) : Option Arming :=
  match s.sender with
  | .outside => none
  | .writing type body =>
      (s.out.sendMsg e heap type body).map fun out =>
        { s with
          out := out
          sender := if out.accepted.length = s.out.accepted.length then .outside else .adding }
  | .adding => some { s with events := s.events ||| epollOut, sender := .getting }
  | .getting => some { s with sender := .calling s.events }
  | .calling events => some { s.epollMod events with sender := .outside }

/-- The steps of `HandleEvents` from the read handler on. -/
def loopStep (s : Arming) (eof : Bool) (errno : ℕ) (o : ℕ → WriteResult) (k : ℕ) : Option Arming :=
  match s.loop with
  | .idle => none
  | .reading revents =>
      some { s with
        bufferEmpty := s.bufferEmpty || hasFlag revents (epollIn ||| epollPri) && eof
        loop := .writing revents }
  | .writing revents =>
      if hasFlag revents epollOut ∧ s.closed = false ∧ 0 < s.out.outBuf.getunused then
        (s.out.handlerWrite errno o k).map fun out => { s with out := out, loop := .written }
      else some { s with loop := .every }
  | .written => some { s with loop := if 0 < s.out.outBuf.getunused then .leftAdding else .every }
  | .leftAdding => some { s with events := s.events ||| epollOut, loop := .every }
  | .every => some { s with loop := if s.bufferEmpty ∧ s.closed then .idle else .setting }
  | .setting => some { s with events := everyEvents, loop := .testing }
  | .testing => some { s with loop := if 0 < s.out.outBuf.getunused then .adding else .getting }
  | .adding => some { s with events := s.events ||| epollOut, loop := .getting }
  | .getting => some { s with loop := .calling s.events }
  | .calling events => some { s.epollMod events with loop := .idle }

/-- One step. -/
def step (e : Endian) (s : Arming) : ArmAct → Option Arming
  | .sendMsg type body =>
      if s.sender = .outside then some { s with sender := .writing type body } else none
  | .sender heap => s.sendStep e heap
  | .wake revents =>
      if s.loop = .idle ∧ revents ≠ 0 then
        some { s with
          events := 0
          closed := s.closed || hasFlag revents epollHup || hasFlag revents epollRdHup
          loop := .reading revents }
      else none
  | .loop eof errno o k => s.loopStep eof errno o k

end Arming

/-- A new control connection, in a memory that holds any flags. -/
def armingLts (e : Endian) (heap : ℕ → UInt8) (bufferEmpty closed : Bool) : Lts Arming ArmAct where
  init := { out := (ctlSenderLts e heap).init, bufferEmpty := bufferEmpty, closed := closed }
  step := Arming.step e

/-- The program builds the bodies. -/
def ArmAct.Built : ArmAct → Prop
  | .sendMsg type body => MsgBody (type, body)
  | _ => True

instance instDecidableArmBuilt : (a : ArmAct) → Decidable a.Built
  | .sendMsg _ _ => inferInstanceAs (Decidable (MsgBody _))
  | .sender _ => .isTrue trivial
  | .wake _ => .isTrue trivial
  | .loop _ _ _ _ => .isTrue trivial

/-- Every `write(2)` takes bytes. -/
def ArmAct.Takes : ArmAct → Prop
  | .loop _ _ o k => ∀ i < k, 0 < (o i).count
  | _ => True

instance instDecidableArmTakes : (a : ArmAct) → Decidable a.Takes
  | .sendMsg _ _ => .isTrue trivial
  | .sender _ => .isTrue trivial
  | .wake _ => .isTrue trivial
  | .loop _ _ _ _ => inferInstanceAs (Decidable (∀ _ < _, _))

/-! ### The invariant -/

namespace CtlSender

variable {e : Endian} {s s' : CtlSender}

/-- The output buffer of a connection, whatever was sent from it. -/
structure Sound (s : CtlSender) : Prop where
  wf : s.outBuf.Wf
  max : s.outBuf.maxCapacity = 40960

/-- `SendMsg` accepts the message, or leaves everything as it was. -/
theorem Sound.sendMsg_or (h : s.Sound) {heap : ℕ → UInt8} {t : MsgType} {body : List UInt8}
    (hbody : MsgBody (t, body)) (hs : s.sendMsg e heap t body = some s') :
    s'.Sound ∧ s'.accepted.length ≠ s.accepted.length ∨ s' = s := by
  have hlen : (makeMsg t body).len = 8 + body.length := rfl
  have hle : body.length ≤ maxMsgLen := hbody.2
  have hmax : maxMsgLen = 1024 := rfl
  have hbytes : ((makeMsg t body).len : ℤ) ≤ ((makeMsg t body).bytes e).length := by
    have htake := congrArg List.length (take_bytes_makeMsg e t body)
    rw [List.length_take, length_encodeMsg] at htake
    simp only at htake
    omega
  have hroom : s.outBuf.maxCapacity + (makeMsg t body).len < 2 ^ 31 := by
    rw [h.max]
    omega
  obtain ⟨r, hr, rfl⟩ := Option.map_eq_some_iff.1 hs
  rcases h.wf.writeToBuffer_spec heap (by omega) hbytes hroom with ⟨b', hb', hwf, hcap, -⟩ | hb'
  · obtain rfl := Option.some.inj (hr.symm.trans hb')
    left
    rw [if_neg (by simp)]
    exact ⟨⟨hwf, hcap.trans h.max⟩, by simp⟩
  · obtain rfl := Option.some.inj (hr.symm.trans hb')
    right
    rw [if_pos (by simp only [ne_eq]; omega)]

/-- **Whatever `write(2)` answers**, the buffer stays sound. -/
theorem Sound.handlerWrite (h : s.Sound) {errno : ℕ} {o : ℕ → WriteResult} {k : ℕ}
    (hs : s.handlerWrite errno o k = some s') : s'.Sound := by
  unfold CtlSender.handlerWrite at hs
  by_cases hempty : s.outBuf.getunused ≤ 0
  · rw [if_pos hempty] at hs
    obtain rfl := Option.some.inj hs
    exact h
  · simp only [if_neg hempty, Option.ite_none_right_eq_some, Option.some.injEq] at hs
    obtain ⟨-, rfl⟩ := hs
    exact ⟨(WriteLoop.after_wf (s := s.outBuf.writeToSocket errno) h.wf o k).1,
      (WriteLoop.after_maxCapacity (s.outBuf.writeToSocket errno) o k).trans h.max⟩

end CtlSender

namespace Arming

/-- The flags do not make `HandlerEvery` close the connection. -/
def Open (s : Arming) : Prop := ¬ (s.bufferEmpty = true ∧ s.closed = true)

/-- `events_` asks for output when there is any, or a sender is about to make it ask. -/
def Wants (s : Arming) : Prop :=
  0 < s.out.outBuf.getunused → s.sender = .adding ∨ hasFlag s.events epollOut = true

theorem Wants.flag {s : Arming} (h : s.Wants) (hne : s.sender ≠ .adding)
    (hpos : 0 < s.out.outBuf.getunused) : hasFlag s.events epollOut = true :=
  (h hpos).resolve_left hne

/-- What `events_` holds while the loop thread stands at the given place. -/
def Watches (events : UInt32) (wants : Prop) : LoopPc → Prop
  | .testing => Listens events
  | .adding => Listens events
  | .getting => Listens events ∧ wants
  | .calling _ => Listens events ∧ wants
  | .idle => Listens events ∧ wants
  | _ => True

/-- A sender has changed `events_`, and has not told the kernel yet. -/
def SendPc.Behind : SendPc → Prop
  | .getting => True
  | .calling _ => True
  | _ => False

/-- The kernel waits for `events_` exactly when the last call was not late. -/
def Settled (s : Arming) : Prop := s.interest = s.events ↔ s.lastFresh = true

end Arming

open Arming (SendPc.Behind)

/-- **The invariant** of a connection with its two threads. -/
structure ArmedInv (s : Arming) : Prop where
  out : s.out.Sound
  body : ∀ t b, s.sender = .writing t b → MsgBody (t, b)
  watches : s.Open → Arming.Watches s.events s.Wants s.loop
  settled : s.Open → s.loop = .idle → ¬ SendPc.Behind s.sender → s.Settled

namespace ArmedInv

variable {e : Endian} {s s' : Arming}

theorem init (e : Endian) (heap : ℕ → UInt8) (bufferEmpty closed : Bool) :
    ArmedInv (armingLts e heap bufferEmpty closed).init where
  out := ⟨(CtlSender.inv_init e heap).wf, (CtlSender.inv_init e heap).max⟩
  body := by intro t b h; cases h
  watches _ := ⟨listens_every.or _, fun _ => .inr (hasFlag_or_out _)⟩
  settled _ _ _ := iff_of_true rfl rfl

theorem settled_epollMod (s : Arming) (events : UInt32) : (s.epollMod events).Settled := by
  simp [Arming.Settled, Arming.epollMod]

/-- A step that only adds events leaves the loop thread what it relies on. -/
theorem watches_mono {events events' : UInt32} {wants wants' : Prop}
    (hlisten : Listens events → Listens events') (hwants : wants → wants') {pc : LoopPc}
    (h : Arming.Watches events wants pc) : Arming.Watches events' wants' pc := by
  cases pc with
  | idle => exact ⟨hlisten h.1, hwants h.2⟩
  | getting => exact ⟨hlisten h.1, hwants h.2⟩
  | calling => exact ⟨hlisten h.1, hwants h.2⟩
  | testing => exact hlisten h
  | adding => exact hlisten h
  | _ => trivial

/-- **The steps of a sender.** -/
theorem sendStep (h : ArmedInv s) {heap : ℕ → UInt8} (hs : s.sendStep e heap = some s') :
    ArmedInv s' := by
  unfold Arming.sendStep at hs
  cases hp : s.sender with
  | outside => rw [hp] at hs; cases hs
  | writing t b =>
      rw [hp] at hs
      obtain ⟨out, hout, rfl⟩ := Option.map_eq_some_iff.1 hs
      have hb : MsgBody (t, b) := h.body t b hp
      have hset : s.Open → s.loop = .idle → s.Settled := fun ho hl =>
        h.settled ho hl (by rw [hp]; exact id)
      have hor := h.out.sendMsg_or hb hout
      refine ⟨hor.elim And.left fun heq => heq ▸ h.out, ?_, fun ho => ?_, fun ho hl _ => hset ho hl⟩
      · intro t' b' hne
        dsimp only at hne
        split at hne <;> cases hne
      · refine watches_mono id (fun hw hpos => ?_) (h.watches ho)
        rcases hor with ⟨-, hne⟩ | rfl
        · exact .inl (if_neg hne)
        · exact .inr (hw.flag (by rw [hp]; nofun) hpos)
  | adding =>
      rw [hp] at hs
      obtain rfl := Option.some.inj hs
      refine ⟨h.out, (by intro t b hne; cases hne), fun ho => ?_, fun _ _ hb => absurd trivial hb⟩
      exact watches_mono (fun hl => hl.or _) (fun _ _ => .inr (hasFlag_or_out _)) (h.watches ho)
  | getting =>
      rw [hp] at hs
      obtain rfl := Option.some.inj hs
      refine ⟨h.out, (by intro t b hne; cases hne), fun ho => ?_, fun _ _ hb => absurd trivial hb⟩
      exact watches_mono id (fun hw hpos => .inr (hw.flag (by rw [hp]; nofun) hpos)) (h.watches ho)
  | calling ev =>
      rw [hp] at hs
      obtain rfl := Option.some.inj hs
      refine ⟨h.out, (by intro t b hne; cases hne), fun ho => ?_, fun _ _ _ => settled_epollMod s ev⟩
      exact watches_mono id (fun hw hpos => .inr (hw.flag (by rw [hp]; nofun) hpos)) (h.watches ho)

/-- **The steps of the loop thread**, whatever `write(2)` answers. -/
theorem loopStep (h : ArmedInv s) {eof : Bool} {errno : ℕ} {o : ℕ → WriteResult} {k : ℕ}
    (hs : s.loopStep eof errno o k = some s') : ArmedInv s' := by
  unfold Arming.loopStep at hs
  cases hp : s.loop with
  | idle => rw [hp] at hs; cases hs
  | reading r =>
      rw [hp] at hs
      obtain rfl := Option.some.inj hs
      exact ⟨h.out, h.body, fun _ => trivial, fun _ hl => nomatch hl⟩
  | writing r =>
      rw [hp] at hs
      dsimp only at hs
      split at hs
      · obtain ⟨out, hout, rfl⟩ := Option.map_eq_some_iff.1 hs
        exact ⟨h.out.handlerWrite hout, h.body, fun _ => trivial, fun _ hl => nomatch hl⟩
      · obtain rfl := Option.some.inj hs
        exact ⟨h.out, h.body, fun _ => trivial, fun _ hl => nomatch hl⟩
  | written =>
      rw [hp] at hs
      obtain rfl := Option.some.inj hs
      by_cases hpos : 0 < s.out.outBuf.getunused
      · simp only [if_pos hpos]
        exact ⟨h.out, h.body, fun _ => trivial, fun _ hl => nomatch hl⟩
      · simp only [if_neg hpos]
        exact ⟨h.out, h.body, fun _ => trivial, fun _ hl => nomatch hl⟩
  | leftAdding =>
      rw [hp] at hs
      obtain rfl := Option.some.inj hs
      exact ⟨h.out, h.body, fun _ => trivial, fun _ hl => nomatch hl⟩
  | every =>
      rw [hp] at hs
      obtain rfl := Option.some.inj hs
      by_cases hc : s.bufferEmpty = true ∧ s.closed = true
      · simp only [if_pos hc]
        exact ⟨h.out, h.body, fun hopen => absurd hc hopen, fun hopen => absurd hc hopen⟩
      · simp only [if_neg hc]
        exact ⟨h.out, h.body, fun _ => trivial, fun _ hl => nomatch hl⟩
  | setting =>
      rw [hp] at hs
      obtain rfl := Option.some.inj hs
      exact ⟨h.out, h.body, fun _ => listens_every, fun _ hl => nomatch hl⟩
  | testing =>
      rw [hp] at hs
      obtain rfl := Option.some.inj hs
      have hw : s.Open → Listens s.events := fun hopen => by
        have hw := h.watches hopen
        rwa [hp] at hw
      by_cases hpos : 0 < s.out.outBuf.getunused
      · simp only [if_pos hpos]
        exact ⟨h.out, h.body, hw, fun _ hl => nomatch hl⟩
      · simp only [if_neg hpos]
        exact ⟨h.out, h.body, fun hopen => ⟨hw hopen, fun hpos' => absurd hpos' hpos⟩,
          fun _ hl => nomatch hl⟩
  | adding =>
      rw [hp] at hs
      obtain rfl := Option.some.inj hs
      refine ⟨h.out, h.body, fun hopen => ?_, fun _ hl => nomatch hl⟩
      have hw := h.watches hopen
      rw [hp] at hw
      exact ⟨hw.or _, fun _ => .inr (hasFlag_or_out _)⟩
  | getting =>
      rw [hp] at hs
      obtain rfl := Option.some.inj hs
      refine ⟨h.out, h.body, fun hopen => ?_, fun _ hl => nomatch hl⟩
      have hw := h.watches hopen
      rwa [hp] at hw
  | calling ev =>
      rw [hp] at hs
      obtain rfl := Option.some.inj hs
      refine ⟨h.out, h.body, fun hopen => ?_, fun _ _ _ => settled_epollMod s ev⟩
      have hw := h.watches hopen
      rwa [hp] at hw

/-- Only the write handler touches the buffer. -/
theorem out_eq_of_loopStep {eof : Bool} {errno : ℕ} {o : ℕ → WriteResult} {k : ℕ}
    (hp : ∀ r, s.loop ≠ .writing r) (hs : s.loopStep eof errno o k = some s') : s'.out = s.out := by
  unfold Arming.loopStep at hs
  split at hs
  · cases hs
  · obtain rfl := Option.some.inj hs
    rfl
  · rename_i r hr
    exact absurd hr (hp r)
  all_goals
    obtain rfl := Option.some.inj hs
    rfl

/-- **One step keeps the invariant**, whoever takes it. -/
theorem step (h : ArmedInv s) {a : ArmAct} (ha : a.Built) (hs : s.step e a = some s') :
    ArmedInv s' := by
  cases a with
  | sendMsg t b =>
      simp only [Arming.step, Option.ite_none_right_eq_some, Option.some.injEq] at hs
      obtain ⟨hp, rfl⟩ := hs
      have hset : s.Open → s.loop = .idle → s.Settled := fun ho hl =>
        h.settled ho hl (by rw [hp]; exact id)
      refine ⟨h.out, ?_, fun ho => ?_, fun ho hl _ => hset ho hl⟩
      · rintro t' b' heq
        cases heq
        exact ha
      · exact watches_mono id (fun hw hpos => .inr (hw.flag (by rw [hp]; nofun) hpos)) (h.watches ho)
  | sender heap => exact h.sendStep hs
  | wake r =>
      simp only [Arming.step, Option.ite_none_right_eq_some, Option.some.injEq] at hs
      obtain ⟨-, rfl⟩ := hs
      exact ⟨h.out, h.body, fun _ => trivial, fun _ hl => nomatch hl⟩
  | loop eof errno o k => exact h.loopStep hs

/-- **A step in which every `write(2)` takes bytes** loses none of them. -/
theorem out_step (h : ArmedInv s) (hout : s.out.Inv e) {a : ArmAct} (ha : a.Takes)
    (hs : s.step e a = some s') : s'.out.Inv e := by
  cases a with
  | sendMsg t b =>
      simp only [Arming.step, Option.ite_none_right_eq_some, Option.some.injEq] at hs
      obtain ⟨-, rfl⟩ := hs
      exact hout
  | sender heap =>
      simp only [Arming.step, Arming.sendStep] at hs
      split at hs
      · cases hs
      · rename_i hp
        obtain ⟨out, hsend, rfl⟩ := Option.map_eq_some_iff.1 hs
        exact hout.sendMsg (h.body _ _ hp) hsend
      · obtain rfl := Option.some.inj hs
        exact hout
      · obtain rfl := Option.some.inj hs
        exact hout
      · obtain rfl := Option.some.inj hs
        exact hout
  | wake r =>
      simp only [Arming.step, Option.ite_none_right_eq_some, Option.some.injEq] at hs
      obtain ⟨-, rfl⟩ := hs
      exact hout
  | loop eof errno o k =>
      simp only [Arming.step] at hs
      by_cases hwrite : ∃ r, s.loop = .writing r
      · obtain ⟨r, hp⟩ := hwrite
        simp only [Arming.loopStep, hp] at hs
        split at hs
        · obtain ⟨out, hw, rfl⟩ := Option.map_eq_some_iff.1 hs
          exact hout.handlerWrite ha hw
        · obtain rfl := Option.some.inj hs
          exact hout
      · rw [out_eq_of_loopStep (fun r hp => hwrite ⟨r, hp⟩) hs]
        exact hout

end ArmedInv

/-! ### Between two events -/

namespace Arming

/-- No call of `SendMsg` or `HandleEvents` is in progress, and the connection is not closing. -/
structure Quiet (s : Arming) : Prop where
  sender : s.sender = .outside
  loop : s.loop = .idle
  isOpen : s.Open

instance instDecidableQuiet (s : Arming) : Decidable s.Quiet :=
  decidable_of_iff (s.sender = .outside ∧ s.loop = .idle ∧ ¬ (s.bufferEmpty = true ∧ s.closed = true))
    ⟨fun h => ⟨h.1, h.2.1, h.2.2⟩, fun h => ⟨h.sender, h.loop, h.isOpen⟩⟩

/-- The kernel waits for what is needed: for input always, and for output when there is any. -/
structure Armed (s : Arming) : Prop where
  listens : Listens s.interest
  out : s.out.outBuf.queue ≠ [] → hasFlag s.interest epollOut = true

end Arming

section Quiet

variable {e : Endian} {heap : ℕ → UInt8} {bufferEmpty closed : Bool} {as : List ArmAct} {s : Arming}

theorem armedInv_of_exec
    (he : (armingLts e heap bufferEmpty closed).exec (armingLts e heap bufferEmpty closed).init as =
      some s) (ha : ∀ a ∈ as, a.Built) : ArmedInv s := by
  have hr : (armingLts e heap bufferEmpty closed).Reach (fun _ a => a.Built) s :=
    .of_allSteps .init he ((Lts.allSteps_label_iff he).2 ha)
  exact hr.invariant (ArmedInv.init e heap bufferEmpty closed) fun _ _ _ _ hi ha hs => hi.step ha hs

theorem outInv_of_exec
    (he : (armingLts e heap bufferEmpty closed).exec (armingLts e heap bufferEmpty closed).init as =
      some s) (ha : ∀ a ∈ as, a.Built) (ht : ∀ a ∈ as, a.Takes) : s.out.Inv e := by
  have hr : (armingLts e heap bufferEmpty closed).Reach (fun _ a => a.Built ∧ a.Takes) s :=
    .of_allSteps .init he ((Lts.allSteps_label_iff he).2 fun a hmem => ⟨ha a hmem, ht a hmem⟩)
  have h : ArmedInv s ∧ s.out.Inv e := by
    refine hr.invariant (I := fun s => ArmedInv s ∧ s.out.Inv e)
      ⟨ArmedInv.init e heap bufferEmpty closed, CtlSender.inv_init e heap⟩ ?_
    intro s a s' _ hi ha hs
    exact ⟨hi.1.step ha.1 hs, hi.1.out_step hi.2 ha.2 hs⟩
  exact h.2

/-- Between two events the kernel waits for `events_` exactly when the last call gave it the value that
`events_` had at that time. -/
theorem quiet_interest_iff (h : ArmedInv s) (hq : s.Quiet) :
    s.interest = s.events ↔ s.lastFresh = true :=
  h.settled hq.isOpen hq.loop (by rw [hq.sender]; exact id)

/-- **Nothing is forgotten in the buffer.**  After any interleaving of senders and events on a control
connection, a call of `WriteToBuffer` or `WriteToSocket` being one step, whatever its memory held: when no
call is in progress and the connection is not closing, `events_` asks for input, and for output if the
buffer has any; the kernel waits for `events_` exactly when the last `epoll_ctl(2)` was given the value that
`events_` had at the time of the call.  And if every `write(2)` took bytes, what was accepted is what was
sent and what is in the buffer, in order and frame by frame. -/
theorem quiet_armed
    (he : (armingLts e heap bufferEmpty closed).exec (armingLts e heap bufferEmpty closed).init as =
      some s) (ha : ∀ a ∈ as, a.Built) :
    ((∀ a ∈ as, a.Takes) →
        s.out.wire ++ s.out.outBuf.queue = s.out.accepted.flatMap (encodeMsg e)) ∧
      (s.Quiet →
        Listens s.events ∧ (s.out.outBuf.queue ≠ [] → hasFlag s.events epollOut = true) ∧
        (s.interest = s.events ↔ s.lastFresh = true) ∧ (s.lastFresh = true → s.Armed)) := by
  have h : ArmedInv s := armedInv_of_exec he ha
  refine ⟨fun ht => (outInv_of_exec he ha ht).conserved, fun hq => ?_⟩
  have hw := h.watches hq.isOpen
  rw [hq.loop] at hw
  obtain ⟨hlisten, hwants⟩ := hw
  have hout : s.out.outBuf.queue ≠ [] → hasFlag s.events epollOut = true := by
    intro hne
    have hlen := h.out.wf.length_cast
    have hpos : 0 < s.out.outBuf.queue.length := List.length_pos_iff.2 hne
    rw [Buffer.length_queue] at hpos
    rcases hwants (by omega) with hadd | hflag
    · rw [hq.sender] at hadd; cases hadd
    · exact hflag
  have hiff := quiet_interest_iff h hq
  refine ⟨hlisten, hout, hiff, fun hfresh => ?_⟩
  have heq : s.interest = s.events := hiff.2 hfresh
  exact ⟨heq ▸ hlisten, fun hne => heq ▸ hout hne⟩

/-- One message, and the kernel is told. -/
theorem quiet_armed_one :
    ∃ s, (armingLts .little (fun _ => 0) false false).exec
        (armingLts .little (fun _ => 0) false false).init
        (.sendMsg .newRequest [0] :: List.replicate 4 (.sender fun _ => 0)) = some s ∧
      s.Quiet ∧ s.lastFresh = true ∧ s.out.outBuf.queue ≠ [] ∧ s.Armed := by
  have he := (Option.some_get (x := (armingLts .little (fun _ => 0) false false).exec
    (armingLts .little (fun _ => 0) false false).init
    (.sendMsg .newRequest [0] :: List.replicate 4 (.sender fun _ => 0))) (by decide +kernel)).symm
  exact ⟨_, he, by decide +kernel, by decide +kernel, by decide +kernel,
    ((quiet_armed he (by decide +kernel)).2 (by decide +kernel)).2.2.2 (by decide +kernel)⟩

end Quiet

section Flush
variable {e : Endian} {s : Arming} {revents : UInt32} {errno : ℕ} {o : ℕ → WriteResult}

/-- The handlers of an event that finds the socket writable, with nobody in between. -/
def flushSteps (revents : UInt32) (errno : ℕ) (o : ℕ → WriteResult) (k : ℕ) : List ArmAct :=
  .wake revents :: List.replicate 8 (.loop false errno o k)

/-- **What the kernel reports is sent.**  Between two events, when the socket is reported writable and
`write(2)` takes bytes as often as it is called, the handlers of that event send all that was accepted, and
the connection is armed again. -/
theorem flush_sends (heap : ℕ → UInt8) (bufferEmpty closed : Bool) (h : s.out.Inv e) (hq : s.Quiet)
    (hne : s.out.outBuf.queue ≠ []) (hclosed : s.closed = false)
    (hout : hasFlag revents epollOut = true)
    (hhup : hasFlag revents epollHup = false) (hrd : hasFlag revents epollRdHup = false)
    (ho : ∀ k, ((s.out.outBuf.writeToSocket errno).after o k).returned = false →
      ((s.out.outBuf.writeToSocket errno).after o k).Takes (o k)) :
    ∃ k s', (armingLts e heap bufferEmpty closed).exec s (flushSteps revents errno o k) = some s' ∧
      s'.Quiet ∧ s'.Armed ∧ s'.out.outBuf.queue = [] ∧
      s'.out.wire = s.out.accepted.flatMap (encodeMsg e) := by
  obtain ⟨k, hret, hwf, hempty, hsent, -⟩ := h.wf.writeToSocket_spec errno ho
  have hrevents : revents ≠ 0 := by
    rintro rfl
    exact absurd hout (by decide)
  have hpos : 0 < s.out.outBuf.getunused := by
    have hlen := h.wf.length_cast
    have hpos : 0 < s.out.outBuf.queue.length := List.length_pos_iff.2 hne
    rw [Buffer.length_queue] at hpos
    omega
  have hadm : ∀ i < k, ((s.out.outBuf.writeToSocket errno).after o i).Admissible (o i) := by
    intro i hi
    obtain ⟨n, hn, -, hle⟩ := ho i (hret.2 i hi)
    rw [hn]
    exact hle
  -- what `HandlerWrite` leaves
  let out : CtlSender := { s.out with
    outBuf := ((s.out.outBuf.writeToSocket errno).after o k).buf
    wire := s.out.wire ++ ((s.out.outBuf.writeToSocket errno).after o k).sent }
  have hwrite : s.out.handlerWrite errno o k = some out := by
    rw [CtlSender.handlerWrite, if_neg (by omega)]
    exact if_pos ⟨hret, hadm⟩
  have hnone : ¬ 0 < out.outBuf.getunused := by
    have hlen := hwf.length_cast
    have hzero := congrArg List.length hempty
    rw [Buffer.length_queue, List.length_nil] at hzero
    change ¬ 0 < ((s.out.outBuf.writeToSocket errno).after o k).buf.getunused
    omega
  refine ⟨k, { s with out := out, events := everyEvents, interest := everyEvents, lastFresh := true },
    ?_, ⟨hq.sender, hq.loop, hq.isOpen⟩, ⟨listens_every, fun hne => absurd hempty hne⟩, hempty, ?_⟩
  · have hnot : ¬ (s.bufferEmpty = true ∧ false = true) := fun h => Bool.false_ne_true h.2
    simp only [flushSteps, List.replicate, Lts.exec, armingLts, Arming.step, Arming.loopStep, hq.loop,
      hrevents, hclosed, hhup, hrd, hout, hwrite, hpos, hnone, hnot, Arming.epollMod, ne_eq,
      not_false_eq_true, and_self, if_true, if_false, Option.bind_some, Option.map_some, Bool.or_false,
      Bool.and_false, decide_true]
  · change s.out.wire ++ ((s.out.outBuf.writeToSocket errno).after o k).sent = _
    rw [hsent]
    exact h.conserved
end Flush

/-! ### What an old value does -/

/-- The loop thread reads `events_`, a sender adds `EPOLLOUT` and tells the kernel, and the loop thread
tells it the value from before. -/
def lateLoop : List ArmAct :=
  [.wake epollIn] ++ List.replicate 6 (.loop false 0 (fun _ => .accepted 0) 0) ++
    [.sendMsg .newRequest [0]] ++ List.replicate 4 (.sender fun _ => 0) ++
    [.loop false 0 (fun _ => .accepted 0) 0]

/-- A sender reads `events_` after `HandleEvents` has cleared it, and tells the kernel last. -/
def lateSender : List ArmAct :=
  [.sendMsg .newRequest [0]] ++ List.replicate 2 (.sender fun _ => 0) ++ [.wake epollIn] ++
    [.sender fun _ => 0] ++ List.replicate 8 (.loop false 0 (fun _ => .accepted 0) 0) ++
    [.sender fun _ => 0]

/-- **A connection can be stranded.**  After `lateLoop` a frame is in the buffer, nobody is going to send
it, and the kernel does not wait until it can be sent; after `lateSender` the kernel waits for nothing. -/
theorem old_value_strands :
    (∃ s, (armingLts .little (fun _ => 0) false false).exec
        (armingLts .little (fun _ => 0) false false).init lateLoop = some s ∧ s.Quiet ∧
      s.out.outBuf.queue.length = 9 ∧ hasFlag s.events epollOut = true ∧
      hasFlag s.interest epollOut = false) ∧
    (∃ s, (armingLts .little (fun _ => 0) false false).exec
        (armingLts .little (fun _ => 0) false false).init lateSender = some s ∧ s.Quiet ∧
      s.out.outBuf.queue.length = 9 ∧ s.interest = 0) := by
  have h₁ := (Option.some_get (x := (armingLts .little (fun _ => 0) false false).exec
    (armingLts .little (fun _ => 0) false false).init lateLoop) (by decide +kernel)).symm
  have h₂ := (Option.some_get (x := (armingLts .little (fun _ => 0) false false).exec
    (armingLts .little (fun _ => 0) false false).init lateSender) (by decide +kernel)).symm
  exact ⟨⟨_, h₁, by decide +kernel, by decide +kernel, by decide +kernel, by decide +kernel⟩,
    ⟨_, h₂, by decide +kernel, by decide +kernel, by decide +kernel⟩⟩

end ProxySocket

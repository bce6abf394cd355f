/-
**When a control connection closes.**

`HandlerEvery` calls the close handler when `in_buffer_empty_` and `closed_` are set.  The first flag is
set when a read finds the end of the stream, the second one for `EPOLLHUP` and `EPOLLRDHUP`, and neither is
ever cleared; but no constructor and no initialiser gives them a value either.

Main definitions:

* `CtlMemory` — the fields that are not initialised;
* `CtlChannel`, `CtlChannel.handleEvents` — a control connection with its channel, for any event mask;
* `readReturnsZero`, `CtlConnect.handlerSeesEnd` — a call of `read(2)` in a handler finds the end;
* `CloseJustified` — the close handler is called only after a hang-up and the end of the stream.

Main results:

* `bufferEmpty_handlerRead` — what the read handler does to `in_buffer_empty_`;
* `Flagged.step` — the flags are what was seen, or what the memory held;
* `close_justified_iff` — **no call of the close handler is spurious exactly when the memory held false
  for both flags**.
-/

import ProxySocket.CtlConnect

set_option relaxedAutoImplicit false
set_option autoImplicit false

namespace ProxySocket

/-! ### The end of the stream -/

/-- A call of `read(2)` in the loop of `readn` returns `0`. -/
def readReturnsZero : List ReadResult → (lenLeft : ℤ) → (stream : List UInt8) → Bool
  | [], _, _ => false
  | .failed errno :: reads, lenLeft, stream =>
      decide (lenLeft > 0) && decide (errno = eintr ∨ errno = eagain) &&
        readReturnsZero reads lenLeft stream
  | .arrived more :: reads, lenLeft, stream =>
      decide (lenLeft > 0) &&
        if stream = [] then true
        else
          let readNum := min (min (more + 1) lenLeft.toNat) stream.length
          readReturnsZero reads (int32 (lenLeft - readNum)) (stream.drop readNum)

/-- A call of `read(2)` in `CtlConnect::HandlerRead` returns `0`: in the `readn` for the length, or in the
one for the body, which comes when the length was read and is not too long. -/
def CtlConnect.handlerSeesEnd (bufferEmpty : Bool) (stream : List UInt8) (reads : List ReadResult) :
    Bool :=
  readReturnsZero reads (int32 4) stream ||
    (readn 4 bufferEmpty stream reads).any fun h =>
      let len := Endian.big.decode h.buf
      decide (h.ret = 4 ∧ len ≤ ctlFormat.maxLen) &&
        readReturnsZero h.reads (int32 (sizeT ((len : ℤ) - 4))) h.stream

section End

variable {size : ℕ} {reads : List ReadResult} {buf stream : List UInt8} {flag : Bool} {r : Readn}

/-- **`readn` sets the flag exactly when a read returns `0`.** -/
theorem bufferEmpty_readnLoop {l : ℤ} (h : readnLoop size reads l buf stream flag = some r) :
    r.bufferEmpty = (flag || readReturnsZero reads l stream) := by
  induction reads generalizing l buf stream with
  | nil =>
      rw [readnLoop, Option.ite_none_left_eq_some] at h
      rw [← Option.some.inj h.2, readReturnsZero, Bool.or_false]
  | cons a reads ih =>
      by_cases hl : l > 0
      · cases a with
        | failed errno =>
            by_cases he : errno = eintr ∨ errno = eagain
            · rw [readnLoop, if_pos hl, if_pos he] at h
              rw [ih h, readReturnsZero, decide_eq_true hl, decide_eq_true he, Bool.true_and,
                Bool.true_and]
            · rw [readnLoop, if_pos hl, if_neg he] at h
              rw [← Option.some.inj h, readReturnsZero, decide_eq_false he, Bool.and_false,
                Bool.false_and, Bool.or_false]
        | arrived more =>
            rw [readReturnsZero, decide_eq_true hl, Bool.true_and]
            by_cases hs : stream = []
            · rw [readnLoop, if_pos hl, if_pos hs] at h
              rw [← Option.some.inj h, if_pos hs, Bool.or_true]
            · rw [readnLoop, if_pos hl, if_neg hs] at h
              rw [ih h, if_neg hs]
      · rw [readnLoop_done _ _ (by omega)] at h
        rw [← Option.some.inj h]
        cases a <;> simp [readReturnsZero, hl]

/-- **`HandlerRead` sets `in_buffer_empty_` exactly when a read returns `0`.** -/
theorem bufferEmpty_handlerRead {stack : ℕ → UInt8} {r : FrameRead}
    (h : CtlConnect.handlerRead stack flag stream reads = some r) :
    r.bufferEmpty = (flag || CtlConnect.handlerSeesEnd flag stream reads) := by
  obtain ⟨n, hn, h⟩ := Option.bind_eq_some_iff.1 h
  have hflag : n.bufferEmpty = (flag || readReturnsZero reads (int32 4) stream) :=
    bufferEmpty_readnLoop hn
  rw [CtlConnect.handlerSeesEnd, hn, Option.any_some, ← Bool.or_assoc, ← hflag]
  by_cases hret : n.ret = 4
  · rw [if_neg (by rw [hret]; simp), if_neg (not_not.2 hret), readBody] at h
    by_cases hlen : Endian.big.decode n.buf ≤ ctlFormat.maxLen
    · rw [if_neg (Nat.not_lt.2 hlen)] at h
      obtain ⟨b, hb, rfl⟩ := Option.map_eq_some_iff.1 h
      have hflag' := bufferEmpty_readnLoop hb
      simp only [hret, hlen, and_self, decide_true, Bool.true_and]
      rw [← hflag']
      split
      · rfl
      · split <;> rfl
    · rw [if_pos (Nat.not_le.1 hlen)] at h
      rw [← Option.some.inj h]
      simp [hlen]
  · have hrest : r.bufferEmpty = n.bufferEmpty := by
      by_cases hend : n.ret = 0 ∧ n.bufferEmpty = true
      · rw [if_pos hend] at h
        rw [← Option.some.inj h]
      · rw [if_neg hend, if_pos hret] at h
        rw [← Option.some.inj h]
    simp [hret, hrest]

end End

/-! ### The connection and its channel -/

/-- The flags of an event mask. -/
def epollIn : UInt32 := 0x001
def epollPri : UInt32 := 0x002
def epollOut : UInt32 := 0x004
def epollHup : UInt32 := 0x010
def epollRdHup : UInt32 := 0x2000
def epollEt : UInt32 := 0x80000000

/-- A mask has one of the flags. -/
def hasFlag (mask flags : UInt32) : Bool := mask &&& flags ≠ 0

/-- The values that the memory of a new `CtlConnect` and its `Channel` happens to hold, in the fields that
are not set by a constructor or an initialiser. -/
structure CtlMemory where
  inBufferEmpty : Bool
  closed : Bool
  revents : UInt32
deriving DecidableEq, Repr

/-- A `CtlConnect` with its `Channel`. -/
structure CtlChannel where
  /-- the input half, with `in_buffer_empty_` and `closed_` -/
  reader : CtlReader
  events : UInt32
  revents : UInt32
  /-- the bytes in `out_buf_` -/
  unused : ℕ
  /-- an event with `EPOLLHUP` or `EPOLLRDHUP` was handled -/
  hupSeen : Bool := false
  /-- a read has returned `0` -/
  eofSeen : Bool := false

/-- The events of the poller, and what the handlers find. -/
structure ChannelEvent where
  revents : UInt32
  reads : List ReadResult
  stack : ℕ → UInt8
  /-- the bytes that `write(2)` takes -/
  written : ℕ

/-- What happens to a control connection. -/
inductive CtlAction
  /-- `SendMsg`, of a message that the buffer takes -/
  | sendMsg (len : ℕ)
  /-- the poller sets `revents_` and calls `HandleEvents` -/
  | handleEvents (ev : ChannelEvent)

namespace CtlChannel

/-- The constructors. -/
def new (mem : CtlMemory) (wire : List UInt8) : CtlChannel where
  reader := { stream := wire, bufferEmpty := mem.inBufferEmpty, closed := mem.closed }
  events := epollEt ||| epollIn ||| epollOut ||| epollRdHup
  revents := mem.revents
  unused := 0

/-- The event as the input half sees it. -/
def toCtlEvent (s : CtlChannel) (ev : ChannelEvent) : CtlEvent where
  hup := hasFlag s.revents epollHup || hasFlag s.revents epollRdHup
  readable := hasFlag s.revents (epollIn ||| epollPri)
  reads := ev.reads
  stack := ev.stack

/-- `CtlConnect::HandlerRead`. -/
def handlerRead (e : Endian) (s : CtlChannel) (ev : ChannelEvent) : Option CtlChannel :=
  (s.reader.handlerRead e (s.toCtlEvent ev)).map fun reader =>
    { s with
      reader := reader
      eofSeen := s.eofSeen ||
        CtlConnect.handlerSeesEnd s.reader.bufferEmpty s.reader.stream ev.reads }

/-- `CtlConnect::HandlerWrite`. -/
def handlerWrite (s : CtlChannel) (ev : ChannelEvent) : CtlChannel :=
  if s.unused = 0 then s
  else
    let unused := s.unused - ev.written
    { s with unused := unused, events := if unused > 0 then s.events ||| epollOut else s.events }

/-- `CtlConnect::HandlerEvery`. -/
def handlerEvery (s : CtlChannel) : CtlChannel :=
  let s := { s with reader := s.reader.handlerEvery }
  if s.reader.bufferEmpty ∧ s.reader.closed then s
  else
    let events := epollEt ||| epollIn ||| epollRdHup
    { s with events := if s.unused > 0 then events ||| epollOut else events }

/-- `Channel::HandleEvents`.  The error handler of a control connection does nothing. -/
def handleEvents (e : Endian) (s : CtlChannel) (ev : ChannelEvent) : Option CtlChannel :=
  let s := { s with events := 0 }
  if s.revents = 0 then some s
  else
    let hup := hasFlag s.revents epollHup || hasFlag s.revents epollRdHup
    let s := { s with
      reader := { s.reader with closed := s.reader.closed || hup }
      hupSeen := s.hupSeen || hup }
    let s := if hasFlag s.revents (epollIn ||| epollPri) then s.handlerRead e ev else some s
    s.map fun s =>
      let s := if hasFlag s.revents epollOut ∧ s.reader.closed = false then s.handlerWrite ev else s
      s.handlerEvery

/-- One step. -/
def step (e : Endian) (s : CtlChannel) : CtlAction → Option CtlChannel
  | .sendMsg len => some { s with unused := s.unused + len, events := s.events ||| epollOut }
  | .handleEvents ev => handleEvents e { s with revents := ev.revents } ev

end CtlChannel

/-- A new control connection in any memory, to which `wire` is sent. -/
def ctlChannelLts (e : Endian) (mem : CtlMemory) (wire : List UInt8) : Lts CtlChannel CtlAction where
  init := .new mem wire
  step := CtlChannel.step e

/-- How often the close handler was called. -/
def CtlChannel.closes (s : CtlChannel) : ℕ := s.reader.calls.count .close

/-- The close handler is called only when a hang-up was handled and a read has returned `0`. -/
def CloseJustified (e : Endian) (s : CtlChannel) (a : CtlAction) : Prop :=
  ∀ s', s.step e a = some s' → s'.closes ≠ s.closes → s'.hupSeen = true ∧ s'.eofSeen = true

/-! ### The flags -/

/-- The flags are what was seen, or what the memory held. -/
structure Flagged (mem : CtlMemory) (s : CtlChannel) : Prop where
  bufferEmpty : s.reader.bufferEmpty = (mem.inBufferEmpty || s.eofSeen)
  closed : s.reader.closed = (mem.closed || s.hupSeen)

section Flags

variable {e : Endian} {mem : CtlMemory} {s s' : CtlChannel} {ev : ChannelEvent}

/-- The read handler notes the end of the stream, and calls no close handler. -/
theorem Flagged.handlerRead (h : Flagged mem s) (hs : s.handlerRead e ev = some s') :
    Flagged mem s' ∧ s'.closes = s.closes := by
  obtain ⟨reader, hreader, rfl⟩ := Option.map_eq_some_iff.1 hs
  obtain ⟨r, hr, rfl⟩ := Option.map_eq_some_iff.1 hreader
  have hflag := bufferEmpty_handlerRead hr
  refine ⟨⟨?_, h.closed⟩, ?_⟩
  · change r.bufferEmpty = _
    rw [hflag, ← Bool.or_assoc, ← h.bufferEmpty]
    rfl
  · have hno : (CtlConnect.dispatch e r.result).count .close = 0 := by
      rw [List.count_eq_zero]
      unfold CtlConnect.dispatch
      split
      · exact List.not_mem_nil
      · split
        · exact List.not_mem_nil
        · split <;> simp
    simp only [CtlChannel.closes, List.count_append, hno, Nat.add_zero]

theorem Flagged.handlerWrite (h : Flagged mem s) :
    Flagged mem (s.handlerWrite ev) ∧ (s.handlerWrite ev).closes = s.closes := by
  unfold CtlChannel.handlerWrite
  split
  · exact ⟨h, rfl⟩
  · exact ⟨⟨h.bufferEmpty, h.closed⟩, rfl⟩

/-- The close handler is called when both flags are set. -/
theorem Flagged.handlerEvery (h : Flagged mem s) :
    Flagged mem s.handlerEvery ∧ s.handlerEvery.hupSeen = s.hupSeen ∧
      s.handlerEvery.eofSeen = s.eofSeen ∧
      (s.handlerEvery.closes ≠ s.closes ↔
        (mem.inBufferEmpty || s.eofSeen) = true ∧ (mem.closed || s.hupSeen) = true) := by
  rw [← h.bufferEmpty, ← h.closed]
  unfold CtlChannel.handlerEvery CtlReader.handlerEvery
  by_cases hc : s.reader.bufferEmpty = true ∧ s.reader.closed = true
  · simp only [if_pos hc]
    refine ⟨⟨h.bufferEmpty, h.closed⟩, trivial, trivial, iff_of_true ?_ hc⟩
    simp [CtlChannel.closes]
  · simp only [if_neg hc]
    exact ⟨⟨h.bufferEmpty, h.closed⟩, trivial, trivial, iff_of_false (fun hne => hne rfl) hc⟩

/-- **`HandleEvents`** calls the close handler exactly when there is an event, and both flags are set once
it was handled. -/
theorem Flagged.handleEvents (h : Flagged mem s) (hs : s.handleEvents e ev = some s') :
    Flagged mem s' ∧ (s'.closes ≠ s.closes ↔ s.revents ≠ 0 ∧
      (mem.inBufferEmpty || s'.eofSeen) = true ∧ (mem.closed || s'.hupSeen) = true) := by
  unfold CtlChannel.handleEvents at hs
  by_cases h0 : s.revents = 0
  · rw [if_pos h0] at hs
    obtain rfl := Option.some.inj hs
    exact ⟨⟨h.bufferEmpty, h.closed⟩, iff_of_false (fun hne => hne rfl) fun hall => hall.1 h0⟩
  · rw [if_neg h0] at hs
    obtain ⟨s₂, hs₂, rfl⟩ := Option.map_eq_some_iff.1 hs
    -- the hang-up is noted
    have h₁ : Flagged mem { s with
        events := 0
        reader := { s.reader with
          closed := s.reader.closed || (hasFlag s.revents epollHup || hasFlag s.revents epollRdHup) }
        hupSeen := s.hupSeen ||
          (hasFlag s.revents epollHup || hasFlag s.revents epollRdHup) } :=
      ⟨h.bufferEmpty, by simp only [h.closed, Bool.or_assoc]⟩
    -- then the input is read
    have h₂ : Flagged mem s₂ ∧ s₂.closes = s.closes := by
      split at hs₂
      · exact h₁.handlerRead hs₂
      · obtain rfl := Option.some.inj hs₂
        exact ⟨h₁, rfl⟩
    have h₃ : ∀ {t : CtlChannel}, Flagged mem t ∧ t.closes = s.closes →
        Flagged mem t.handlerEvery ∧ (t.handlerEvery.closes ≠ s.closes ↔ s.revents ≠ 0 ∧
          (mem.inBufferEmpty || t.handlerEvery.eofSeen) = true ∧
          (mem.closed || t.handlerEvery.hupSeen) = true) := by
      rintro t ⟨ht, hcloses⟩
      obtain ⟨hflag, hhup, heof, hiff⟩ := ht.handlerEvery
      refine ⟨hflag, ?_⟩
      rw [hhup, heof, and_iff_right h0, ← hiff, hcloses]
    -- the output does not touch the flags
    dsimp only
    split
    · exact h₃ ⟨h₂.1.handlerWrite.1, h₂.1.handlerWrite.2.trans h₂.2⟩
    · exact h₃ h₂

/-- **Every step** keeps the flags what was seen, or what the memory held. -/
theorem Flagged.step {a : CtlAction} (h : Flagged mem s) (hs : s.step e a = some s') :
    Flagged mem s' := by
  cases a with
  | sendMsg len =>
      obtain rfl := Option.some.inj hs
      exact ⟨h.bufferEmpty, h.closed⟩
  | handleEvents ev =>
      have h' : Flagged mem { s with revents := ev.revents } := ⟨h.bufferEmpty, h.closed⟩
      exact (h'.handleEvents hs).1

/-- With memory that holds false for both flags, a call of the close handler is justified. -/
theorem Flagged.closeJustified (h : Flagged mem s) (hmem : mem.inBufferEmpty = false)
    (hmem' : mem.closed = false) (a : CtlAction) : CloseJustified e s a := by
  intro s' hs hne
  cases a with
  | sendMsg len =>
      obtain rfl := Option.some.inj hs
      exact absurd rfl hne
  | handleEvents ev =>
      have h' : Flagged mem { s with revents := ev.revents } := ⟨h.bufferEmpty, h.closed⟩
      obtain ⟨-, heof, hhup⟩ := (h'.handleEvents hs).2.1 hne
      rw [hmem, Bool.false_or] at heof
      rw [hmem', Bool.false_or] at hhup
      exact ⟨hhup, heof⟩

end Flags

theorem flagged_new (mem : CtlMemory) (wire : List UInt8) : Flagged mem (.new mem wire) :=
  ⟨(Bool.or_false _).symm, (Bool.or_false _).symm⟩

/-! ### Runs -/

/-- The peer hangs up, and nothing is to be read. -/
def hangUpEvent : ChannelEvent := ⟨epollHup, [], fun _ => 0, 0⟩

/-- The stream ends, and the peer has not hung up. -/
def endEvent : ChannelEvent := ⟨epollIn, [.arrived 0], fun _ => 0, 0⟩

/-- The event calls the close handler although one of the two was not seen. -/
def spurious (e : Endian) (s : CtlChannel) (ev : ChannelEvent) : Bool :=
  (s.step e (.handleEvents ev)).any fun s' =>
    decide (s'.closes ≠ s.closes) && !(s'.hupSeen && s'.eofSeen)

theorem not_justified_of_spurious {e : Endian} {s : CtlChannel} {ev : ChannelEvent}
    (h : spurious e s ev = true) : ¬ CloseJustified e s (.handleEvents ev) := by
  intro hall
  obtain ⟨s', hs, hbad⟩ := (Option.any_eq_true _ _).1 h
  rw [Bool.and_eq_true, decide_eq_true_eq] at hbad
  obtain ⟨hhup, heof⟩ := hall s' hs hbad.1
  rw [hhup, heof] at hbad
  exact Bool.false_ne_true hbad.2

/-- What `revents_` held in a new connection does not matter. -/
theorem spurious_new (e : Endian) (b c : Bool) (revents : UInt32) (ev : ChannelEvent) :
    spurious e (.new ⟨b, c, revents⟩ []) ev = spurious e (.new ⟨b, c, 0⟩ []) ev := rfl

/-- A connection whose memory held true for one of the flags closes at its first event, when this is a
hang-up, or the end of the stream. -/
theorem exists_spurious (e : Endian) {mem : CtlMemory}
    (h : ¬ (mem.inBufferEmpty = false ∧ mem.closed = false)) :
    ∃ ev, spurious e (.new mem []) ev = true := by
  obtain ⟨inBufferEmpty, closed, revents⟩ := mem
  cases inBufferEmpty with
  | true =>
      refine ⟨hangUpEvent, ?_⟩
      rw [spurious_new]
      cases e <;> cases closed <;> decide +kernel
  | false =>
      cases closed with
      | true =>
          refine ⟨endEvent, ?_⟩
          rw [spurious_new]
          cases e <;> decide +kernel
      | false => exact absurd ⟨rfl, rfl⟩ h

/-- **When no call of the close handler is spurious.**  Whatever is sent and whatever events come, the
close handler is called only after a hang-up and the end of the stream, exactly when the memory of the
connection held false for `in_buffer_empty_` and for `closed_`. -/
theorem close_justified_iff (e : Endian) (mem : CtlMemory) :
    (∀ (wire : List UInt8) (as : List CtlAction),
      (ctlChannelLts e mem wire).AllSteps (CloseJustified e) (ctlChannelLts e mem wire).init as) ↔
      mem.inBufferEmpty = false ∧ mem.closed = false := by
  constructor
  · intro hall
    by_contra hmem
    obtain ⟨ev, hev⟩ := exists_spurious e hmem
    exact not_justified_of_spurious hev (hall [] [.handleEvents ev]).1
  · rintro ⟨hmem, hmem'⟩ wire as
    have hrun : ∀ {s : CtlChannel}, Flagged mem s →
        (ctlChannelLts e mem wire).AllSteps (CloseJustified e) s as := by
      induction as with
      | nil => exact fun _ => trivial
      | cons a as ih =>
          intro s h
          exact ⟨h.closeJustified hmem hmem' a, fun s' hs => ih (h.step hs)⟩
    exact hrun (flagged_new mem wire)

/-- In memory that holds true for `in_buffer_empty_`, the close handler is called for a peer that hangs up
when no read has found the end of the stream. -/
theorem close_not_justified : ¬ ∀ (e : Endian) (mem : CtlMemory) (wire : List UInt8)
    (as : List CtlAction),
    (ctlChannelLts e mem wire).AllSteps (CloseJustified e) (ctlChannelLts e mem wire).init as := by
  intro hall
  have hspurious : spurious .little (.new ⟨true, false, 0⟩ []) hangUpEvent = true := by
    decide +kernel
  exact not_justified_of_spurious hspurious
    (hall .little ⟨true, false, 0⟩ [] [.handleEvents hangUpEvent]).1

end ProxySocket

/-
**The control connection from end to end.**

One end accepts messages into its output buffer and sends the buffer piece by piece; the other end
reads one frame for each event that finds its socket readable, in whatever pieces `read(2)` hands
out, and closes once it has seen both the end of the stream and the hang-up.

Main definitions:

* `Msg`, `makeMsg`, `Msg.wire` — a message in memory, and the bytes that are sent;
* `CtlSender`, `ctlSenderLts` — `SendMsg` and `HandlerWrite`;
* `CtlReader`, `ctlReaderLts` — `HandlerRead` and `HandlerEvery`, called by `HandleEvents`.

Main results:

* `readFrame_patient` — a handler that waits for its frame gets it;
* `CtlSender.Inv` — what was accepted is what was sent and what is in the buffer;
* `ctl_round_trip` — **the messages arrive, in order and whole, and then the connection closes**.
-/

import ProxySocket.Frame

set_option relaxedAutoImplicit false
set_option autoImplicit false

namespace ProxySocket

/-! ### Reads that wait -/

/-- The socket has not failed: bytes arrive, or `readn` tries again. -/
def ReadResult.Patient : ReadResult → Prop
  | .arrived _ => True
  | .failed errno => errno = eintr ∨ errno = eagain

instance : (r : ReadResult) → Decidable r.Patient
  | .arrived _ => .isTrue trivial
  | .failed _ => inferInstanceAs (Decidable (_ ∨ _))

/-- Bytes arrive, or the end of the stream. -/
def ReadResult.isArrived : ReadResult → Bool
  | .arrived _ => true
  | .failed _ => false

/-- The number of calls of `read(2)` that found something. -/
def arrivals (reads : List ReadResult) : ℕ := reads.countP ReadResult.isArrived

section Patient

variable {size l : ℕ} {reads : List ReadResult} {buf stream : List UInt8} {flag : Bool} {r : Readn}

/-- **A call that waits** returns what it was asked for, when the stream has it. -/
theorem readnLoop_patient (hsize : size < 2 ^ 31) (hl : l ≤ size) (hs : l ≤ stream.length)
    (hp : ∀ a ∈ reads, a.Patient) (h : readnLoop size reads l buf stream flag = some r) :
    r.ret = size ∧ (∀ a ∈ r.reads, a.Patient) ∧ arrivals reads ≤ arrivals r.reads + l := by
  induction reads generalizing l buf stream with
  | nil =>
      rcases Nat.eq_zero_or_pos l with rfl | hpos
      · rw [readnLoop_zero (by omega)] at h
        obtain rfl := Option.some.inj h
        exact ⟨rfl, hp, le_rfl⟩
      · rw [readnLoop_wait hpos] at h
        exact absurd h (by simp)
  | cons a reads ih =>
      have hp' : ∀ a ∈ reads, a.Patient := fun b hb => hp b (List.mem_cons_of_mem a hb)
      rcases Nat.eq_zero_or_pos l with rfl | hpos
      · rw [readnLoop_zero (by omega)] at h
        obtain rfl := Option.some.inj h
        exact ⟨rfl, hp, le_rfl⟩
      cases a with
      | failed errno =>
          have he : errno = eintr ∨ errno = eagain := hp _ List.mem_cons_self
          rw [readnLoop_again hpos he] at h
          obtain ⟨h₁, h₂, h₃⟩ := ih hl hs hp' h
          refine ⟨h₁, h₂, ?_⟩
          rw [arrivals, List.countP_cons_of_neg (by simp [ReadResult.isArrived])]
          exact h₃
      | arrived more =>
          have hne : stream ≠ [] := by
            rintro rfl
            simp only [List.length_nil] at hs
            omega
          obtain ⟨n, hn, hnl, hns, -, heq⟩ :=
            readnLoop_arrived size reads buf flag hpos (by omega) hne more
          rw [heq] at h
          obtain ⟨h₁, h₂, h₃⟩ := ih (by omega) (by rw [List.length_drop]; omega) hp' h
          refine ⟨h₁, h₂, ?_⟩
          rw [arrivals, List.countP_cons_of_pos (by rfl)]
          simp only [arrivals] at h₃ ⊢
          omega

/-- A call that waits returns once enough has arrived. -/
theorem readnLoop_enough (hsize : size < 2 ^ 31) (hl : l ≤ size) (hs : l ≤ stream.length)
    (hp : ∀ a ∈ reads, a.Patient) (ha : l ≤ arrivals reads) :
    ∃ r, readnLoop size reads l buf stream flag = some r := by
  induction reads generalizing l buf stream with
  | nil =>
      obtain rfl : l = 0 := Nat.le_zero.1 ha
      exact ⟨_, readnLoop_zero (by omega) []⟩
  | cons a reads ih =>
      have hp' : ∀ a ∈ reads, a.Patient := fun b hb => hp b (List.mem_cons_of_mem a hb)
      rcases Nat.eq_zero_or_pos l with rfl | hpos
      · exact ⟨_, readnLoop_zero (by omega) _⟩
      cases a with
      | failed errno =>
          have he : errno = eintr ∨ errno = eagain := hp _ List.mem_cons_self
          rw [arrivals, List.countP_cons_of_neg (by simp [ReadResult.isArrived])] at ha
          rw [readnLoop_again hpos he]
          exact ih hl hs hp' ha
      | arrived more =>
          have hne : stream ≠ [] := by
            rintro rfl
            simp only [List.length_nil] at hs
            omega
          rw [arrivals, List.countP_cons_of_pos (by rfl)] at ha
          obtain ⟨n, hn, hnl, hns, -, heq⟩ :=
            readnLoop_arrived size reads buf flag hpos (by omega) hne more
          rw [heq]
          exact ih (by omega) (by rw [List.length_drop]; omega) hp'
            (by simp only [arrivals]; omega)

/-- At the end of the stream a call that waits sees it. -/
theorem readnLoop_at_end (hl : 0 < l) (hsize : size < 2 ^ 64) (hls : l ≤ size)
    (hp : ∀ a ∈ reads, a.Patient)
    (h : readnLoop size reads l buf [] flag = some r) :
    r.ret = size - l ∧ r.stream = [] ∧ r.bufferEmpty = true := by
  induction reads with
  | nil =>
      rw [readnLoop_wait hl] at h
      exact absurd h (by simp)
  | cons a reads ih =>
      cases a with
      | failed errno =>
          have he : errno = eintr ∨ errno = eagain := hp _ List.mem_cons_self
          rw [readnLoop_again hl he] at h
          exact ih (fun b hb => hp b (List.mem_cons_of_mem _ hb)) h
      | arrived more =>
          rw [readnLoop_end hl] at h
          obtain rfl := Option.some.inj h
          refine ⟨?_, rfl, rfl⟩
          rw [← Nat.cast_sub hls]
          exact sizeT_natCast (by omega)

theorem readnLoop_at_end_enough (hl : 0 < l) (hp : ∀ a ∈ reads, a.Patient)
    (ha : 0 < arrivals reads) : ∃ r, readnLoop size reads l buf [] flag = some r := by
  induction reads with
  | nil => exact absurd ha (Nat.lt_irrefl 0)
  | cons a reads ih =>
      cases a with
      | failed errno =>
          have he : errno = eintr ∨ errno = eagain := hp _ List.mem_cons_self
          rw [arrivals, List.countP_cons_of_neg (by simp [ReadResult.isArrived])] at ha
          rw [readnLoop_again hl he]
          exact ih (fun b hb => hp b (List.mem_cons_of_mem _ hb)) ha
      | arrived more => exact ⟨_, readnLoop_end hl more⟩

end Patient

section Handler

variable {fmt : FrameFormat} {stack : ℕ → UInt8} {flag : Bool} {stream : List UInt8}
  {reads : List ReadResult} {r : FrameRead}

theorem sizeT_sub_four {n : ℕ} (h : 4 ≤ n) (hlt : n < 2 ^ 31) : sizeT ((n : ℤ) - 4) = n - 4 := by
  have hcast := sizeT_cast ((n : ℤ) - 4)
  omega

/-- The first call of a handler that waits, on a stream that has its bytes. -/
theorem readn_patient {size : ℕ} (hsize : size < 2 ^ 31) (hs : size ≤ stream.length)
    (hp : ∀ a ∈ reads, a.Patient) {r : Readn} (h : readn size flag stream reads = some r) :
    r.ret = size ∧ r.buf = stream.take size ∧ r.stream = stream.drop size ∧
      r.bufferEmpty = flag ∧ (∀ a ∈ r.reads, a.Patient) ∧
      arrivals reads ≤ arrivals r.reads + size := by
  have h' := h
  rw [readn, int32_of_mem (by omega) (by omega)] at h'
  obtain ⟨h₁, h₂, h₃⟩ := readnLoop_patient hsize le_rfl hs hp h'
  obtain ⟨-, k₂, k₃, k₄⟩ := readn_full hsize h h₁
  exact ⟨h₁, k₂, k₃, k₄, h₂, h₃⟩

/-- **A handler that waits for its frame** gets it. -/
theorem readFrame_patient (hmax : fmt.maxLen < 2 ^ 31) (hw : FrameWhole fmt stream)
    (h8 : 8 ≤ frameLen stream) (hp : ∀ a ∈ reads, a.Patient)
    (h : readFrame fmt stack flag stream reads = some r) :
    r = ⟨.ok (frameMsg stack stream), stream.drop (frameLen stream), flag⟩ := by
  obtain ⟨h₁, h₂, h₃, h₄⟩ := hw
  obtain ⟨n, hn, h⟩ := Option.bind_eq_some_iff.1 h
  obtain ⟨k₁, k₂, k₃, k₄, k₅, -⟩ := readn_patient (by decide) h₁ hp hn
  rw [if_neg (by omega), if_neg (by omega), k₂] at h
  change readBody fmt stack (frameLen stream) n = some r at h
  rw [readBody, if_neg (by omega), sizeT_sub_four h₂ (by omega)] at h
  obtain ⟨b, hb, rfl⟩ := Option.map_eq_some_iff.1 h
  obtain ⟨m₁, m₂, m₃, m₄, -, -⟩ := readn_patient (by omega)
    (by rw [k₃, List.length_drop]; omega) k₅ hb
  rw [if_neg (by omega), if_neg (by omega), m₂, m₃, m₄, k₃, k₄, List.drop_drop,
    Nat.add_sub_cancel' h₂]
  rfl

/-- Such a handler returns once enough has arrived. -/
theorem readFrame_enough (hmax : fmt.maxLen < 2 ^ 31) (hw : FrameWhole fmt stream)
    (hp : ∀ a ∈ reads, a.Patient) (ha : fmt.maxLen ≤ arrivals reads) :
    ∃ r, readFrame fmt stack flag stream reads = some r := by
  obtain ⟨h₁, h₂, h₃, h₄⟩ := hw
  have hn : ∃ n, readn 4 flag stream reads = some n := by
    rw [readn, int32_of_mem (by decide) (by decide)]
    exact readnLoop_enough (by decide) le_rfl h₁ hp (by omega)
  obtain ⟨n, hn⟩ := hn
  obtain ⟨k₁, k₂, k₃, -, k₅, k₆⟩ := readn_patient (by decide) h₁ hp hn
  have hb : ∃ b, readn (frameLen stream - 4) n.bufferEmpty n.stream n.reads = some b := by
    rw [readn, int32_of_mem (by omega) (by omega)]
    exact readnLoop_enough (by omega) le_rfl (by rw [k₃, List.length_drop]; omega) k₅ (by omega)
  obtain ⟨b, hb⟩ := hb
  rw [readFrame, hn, Option.bind_some, if_neg (by omega), if_neg (by omega), k₂]
  change ∃ r, readBody fmt stack (frameLen stream) n = some r
  rw [readBody, if_neg (by omega), sizeT_sub_four h₂ (by omega)]
  exact ⟨_, Option.map_eq_some_iff.2 ⟨b, hb, rfl⟩⟩

/-- A handler that is called at the end of the stream. -/
theorem readFrame_at_end (hp : ∀ a ∈ reads, a.Patient)
    (h : readFrame fmt stack flag [] reads = some r) : r = ⟨.error .ended, [], true⟩ := by
  obtain ⟨n, hn, h⟩ := Option.bind_eq_some_iff.1 h
  rw [readn, int32_of_mem (by decide) (by decide)] at hn
  obtain ⟨k₁, k₂, k₃⟩ := readnLoop_at_end (by decide) (by decide) le_rfl hp hn
  rw [if_pos ⟨k₁, k₃⟩, k₂, k₃] at h
  exact (Option.some.inj h).symm

theorem readFrame_at_end_enough (hp : ∀ a ∈ reads, a.Patient) (ha : 0 < arrivals reads) :
    ∃ r, readFrame fmt stack flag [] reads = some r := by
  have hn : ∃ n, readn 4 flag [] reads = some n := by
    rw [readn, int32_of_mem (by decide) (by decide)]
    exact readnLoop_at_end_enough (by decide) hp ha
  obtain ⟨n, hn⟩ := hn
  have hn' := hn
  rw [readn, int32_of_mem (by decide) (by decide)] at hn'
  obtain ⟨k₁, -, k₃⟩ := readnLoop_at_end (by decide) (by decide) le_rfl hp hn'
  rw [readFrame, hn, Option.bind_some, if_pos ⟨k₁, k₃⟩]
  exact ⟨_, rfl⟩

end Handler

/-! ### Messages in memory -/

/-- A `Msg`, before `SendMsg` turns its length around. -/
structure Msg where
  len : ℕ
  type : MsgType
  data : List UInt8

/-- `MakeMsg`, which copies the body over zeros.  The body fits `data`. -/
def makeMsg (type : MsgType) (body : List UInt8) : Msg where
  len := 4 + 4 + body.length
  type := type
  data := body ++ List.replicate (maxMsgLen - body.length) 0

/-- The bytes of a message once its length is in network order. -/
def Msg.bytes (e : Endian) (m : Msg) : List UInt8 :=
  Endian.big.encode 4 m.len ++ e.encode 4 m.type.code ++ m.data

/-- The bytes that `SendMsg` puts into the buffer for a body of the given type. -/
def encodeMsg (e : Endian) (p : MsgType × List UInt8) : List UInt8 :=
  Endian.big.encode 4 (8 + p.2.length) ++ e.encode 4 p.1.code ++ p.2

/-- The bodies that the program builds: of the size of their struct, or any that fits. -/
def MsgBody (p : MsgType × List UInt8) : Prop :=
  p.2.length = p.1.structSize p.2.length ∧ p.2.length ≤ maxMsgLen

instance (p : MsgType × List UInt8) : Decidable (MsgBody p) := inferInstanceAs (Decidable (_ ∧ _))

theorem length_encodeMsg (e : Endian) (p : MsgType × List UInt8) :
    (encodeMsg e p).length = 8 + p.2.length := by
  simp only [encodeMsg, List.length_append, Endian.length_encode]

/-- What is sent of a message. -/
theorem take_bytes_makeMsg (e : Endian) (t : MsgType) (body : List UInt8) :
    ((makeMsg t body).bytes e).take (makeMsg t body).len = encodeMsg e (t, body) := by
  have hlen : (makeMsg t body).len = (encodeMsg e (t, body)).length := by
    rw [length_encodeMsg]
    rfl
  have hb : (makeMsg t body).bytes e =
      encodeMsg e (t, body) ++ List.replicate (maxMsgLen - body.length) 0 := by
    rw [Msg.bytes, encodeMsg, List.append_assoc (_ ++ _)]
    rfl
  rw [hlen, hb, List.take_left]

section Decode

variable (e : Endian) {p : MsgType × List UInt8} (rest : List UInt8)

theorem frameLen_encodeMsg (hp : p.2.length ≤ maxMsgLen) :
    frameLen (encodeMsg e p ++ rest) = 8 + p.2.length := by
  have h : (encodeMsg e p ++ rest).take 4 = Endian.big.encode 4 (8 + p.2.length) := by
    rw [encodeMsg, List.append_assoc, List.append_assoc,
      List.take_left' (Endian.length_encode _ _ _)]
  have hmax : maxMsgLen = 1024 := rfl
  rw [frameLen, h, Endian.decode_encode, Nat.mod_eq_of_lt (by omega)]

theorem frameWhole_encodeMsg (hp : p.2.length ≤ maxMsgLen) :
    FrameWhole ctlFormat (encodeMsg e p ++ rest) := by
  have hlen := frameLen_encodeMsg e rest hp
  have hmax : ctlFormat.maxLen = 4 + 4 + maxMsgLen := rfl
  refine ⟨?_, by omega, by omega, ?_⟩ <;>
    rw [List.length_append, length_encodeMsg] <;> omega

theorem drop_encodeMsg (hp : p.2.length ≤ maxMsgLen) :
    (encodeMsg e p ++ rest).drop (frameLen (encodeMsg e p ++ rest)) = rest := by
  rw [frameLen_encodeMsg e rest hp, ← length_encodeMsg e p, List.drop_left]

/-- The type and the body that the reader finds are those that were sent. -/
theorem frameMsg_encodeMsg (stack : ℕ → UInt8) (hp : p.2.length ≤ maxMsgLen) :
    (frameMsg stack (encodeMsg e p ++ rest)).type e = p.1.code ∧
      (frameMsg stack (encodeMsg e p ++ rest)).body = p.2 := by
  have hlen := frameLen_encodeMsg e rest hp
  have hmax : maxMsgLen = 1024 := rfl
  have hgot : (frameMsg stack (encodeMsg e p ++ rest)).got = e.encode 4 p.1.code ++ p.2 := by
    have h4 : (encodeMsg e p ++ rest).drop 4 = e.encode 4 p.1.code ++ p.2 ++ rest := by
      rw [encodeMsg, List.append_assoc, List.append_assoc,
        List.drop_left' (Endian.length_encode _ _ _), List.append_assoc]
    have hl : (e.encode 4 p.1.code ++ p.2).length = 8 + p.2.length - 4 := by
      rw [List.length_append, Endian.length_encode]
      omega
    rw [frameMsg, hlen, h4, ← hl, List.take_left]
  have hsize : (frameMsg stack (encodeMsg e p ++ rest)).bodySize = p.2.length := by
    have hl : (frameMsg stack (encodeMsg e p ++ rest)).len = 8 + p.2.length := hlen
    rw [RecvMsg.bodySize_of_le _ (by omega) (by omega), hl, Nat.add_sub_cancel_left]
  have hle : 4 + p.2.length ≤ (frameMsg stack (encodeMsg e p ++ rest)).got.length := by
    rw [hgot, List.length_append, Endian.length_encode]
  constructor
  · have hcode := p.1.code_lt
    rw [RecvMsg.type, RecvMsg.bytes_of_le _ (by omega), hgot,
      List.take_left' (Endian.length_encode _ _ _), Endian.decode_encode,
      Nat.mod_eq_of_lt (by omega)]
  · -- only the bytes that were received are copied
    have htake : ((frameMsg stack (encodeMsg e p ++ rest)).bytes (4 + maxMsgLen)).take
        (4 + p.2.length) = e.encode 4 p.1.code ++ p.2 := by
      rw [RecvMsg.take_bytes _ (by omega), RecvMsg.bytes_of_le _ hle, hgot, List.take_of_length_le]
      rw [List.length_append, Endian.length_encode]
    rw [RecvMsg.body, hsize, List.take_drop, htake,
      List.drop_left' (Endian.length_encode _ _ _)]

end Decode

/-! ### The sending end -/

/-- The output half of a `CtlConnect`. -/
structure CtlSender where
  outBuf : Buffer
  /-- history: the messages that `SendMsg` put into the buffer -/
  accepted : List (MsgType × List UInt8) := []
  /-- the bytes the kernel has taken -/
  wire : List UInt8 := []

/-- The calls on the output half, with what the heap and the kernel contribute. -/
inductive CtlSendAct
  /-- `SendMsg` of a message that was built by `MakeMsg` -/
  | sendMsg (heap : ℕ → UInt8) (type : MsgType) (body : List UInt8)
  /-- `HandlerWrite`, whose `WriteToSocket` makes `k` calls of `write(2)` -/
  | handlerWrite (errno : ℕ) (o : ℕ → WriteResult) (k : ℕ)

namespace CtlSender

/-- `CtlConnect::SendMsg`. -/
def sendMsg (e : Endian) (s : CtlSender) (heap : ℕ → UInt8) (type : MsgType)
    (body : List UInt8) : Option CtlSender :=
  let msg := makeMsg type body
  (s.outBuf.writeToBuffer heap (msg.bytes e) msg.len).map fun r =>
    if r.1 ≠ msg.len then { s with outBuf := r.2 }
    else { s with outBuf := r.2, accepted := s.accepted ++ [(type, body)] }

/-- `CtlConnect::HandlerWrite`. -/
def handlerWrite (s : CtlSender) (errno : ℕ) (o : ℕ → WriteResult) (k : ℕ) : Option CtlSender :=
  if s.outBuf.getunused ≤ 0 then some s
  else
    let start := s.outBuf.writeToSocket errno
    if start.Returns o k ∧ ∀ i < k, (start.after o i).Admissible (o i) then
      some { s with
        outBuf := (start.after o k).buf
        wire := s.wire ++ (start.after o k).sent }
    else none

/-- One call. -/
def step (e : Endian) (s : CtlSender) : CtlSendAct → Option CtlSender
  | .sendMsg heap type body => s.sendMsg e heap type body
  | .handlerWrite errno o k => s.handlerWrite errno o k

end CtlSender

/-- The runs of the output half of a new `CtlConnect`. -/
def ctlSenderLts (e : Endian) (heap : ℕ → UInt8) : Lts CtlSender CtlSendAct where
  init := { outBuf := Buffer.new 1024 40960 heap }
  step := CtlSender.step e

/-- The program builds the bodies, and every `write(2)` takes bytes. -/
def CtlSendAct.Ok : CtlSendAct → Prop
  | .sendMsg _ type body => MsgBody (type, body)
  | .handlerWrite _ o k => ∀ i < k, 0 < (o i).count

instance : (a : CtlSendAct) → Decidable a.Ok
  | .sendMsg _ _ _ => inferInstanceAs (Decidable (MsgBody _))
  | .handlerWrite _ _ _ => inferInstanceAs (Decidable (∀ _ < _, _))

namespace CtlSender

/-- **The invariant of the output half**: what was accepted is what was sent and what is in the
buffer. -/
structure Inv (e : Endian) (s : CtlSender) : Prop where
  wf : s.outBuf.Wf
  max : s.outBuf.maxCapacity = 40960
  conserved : s.wire ++ s.outBuf.queue = s.accepted.flatMap (encodeMsg e)
  bodies : ∀ p ∈ s.accepted, MsgBody p

variable {e : Endian} {s s' : CtlSender}

/-- A message goes into the buffer whole, or not at all. -/
theorem Inv.sendMsg (h : s.Inv e) {heap : ℕ → UInt8} {t : MsgType} {body : List UInt8}
    (hbody : MsgBody (t, body)) (hs : s.sendMsg e heap t body = some s') : s'.Inv e := by
  have hlen : (makeMsg t body).len = 8 + body.length := rfl
  have hmax : maxMsgLen = 1024 := rfl
  have hle := hbody.2
  have hbytes : ((makeMsg t body).len : ℤ) ≤ ((makeMsg t body).bytes e).length := by
    have htake := congrArg List.length (take_bytes_makeMsg e t body)
    rw [List.length_take, length_encodeMsg] at htake
    simp only at htake hle
    omega
  obtain ⟨r, hr, rfl⟩ := Option.map_eq_some_iff.1 hs
  have hroom : s.outBuf.maxCapacity + (makeMsg t body).len < 2 ^ 31 := by
    rw [h.max]
    simp only at hle
    omega
  rcases h.wf.writeToBuffer_spec heap (by omega) hbytes hroom with ⟨b', hb', hwf, hcap, hq⟩ | hb'
  · obtain rfl := Option.some.inj (hr.symm.trans hb')
    rw [Int.toNat_natCast, take_bytes_makeMsg] at hq
    rw [if_neg (by simp)]
    refine ⟨hwf, hcap.trans h.max, ?_, ?_⟩
    · simp only [hq, List.flatMap_append, List.flatMap_cons, List.flatMap_nil, List.append_nil]
      rw [← List.append_assoc, h.conserved]
    · intro p hp
      rcases List.mem_append.1 hp with hp | hp
      · exact h.bodies p hp
      · obtain rfl := List.mem_singleton.1 hp
        exact hbody
  · obtain rfl := Option.some.inj (hr.symm.trans hb')
    rw [if_pos (by simp only [ne_eq]; omega)]
    exact ⟨h.wf, h.max, h.conserved, h.bodies⟩

/-- What leaves the buffer goes to the kernel. -/
theorem Inv.handlerWrite (h : s.Inv e) {errno : ℕ} {o : ℕ → WriteResult} {k : ℕ}
    (ho : ∀ i < k, 0 < (o i).count) (hs : s.handlerWrite errno o k = some s') : s'.Inv e := by
  unfold CtlSender.handlerWrite at hs
  by_cases hempty : s.outBuf.getunused ≤ 0
  · rw [if_pos hempty] at hs
    obtain rfl := Option.some.inj hs
    exact h
  · simp only [if_neg hempty, Option.ite_none_right_eq_some, Option.some.injEq] at hs
    obtain ⟨⟨hret, hadm⟩, rfl⟩ := hs
    obtain ⟨hwf, hcap, hq, hsent⟩ := h.wf.writeToSocket_returned hret hadm ho
    refine ⟨hwf, hcap.trans h.max, ?_, h.bodies⟩
    simp only [hq, hsent, List.append_nil]
    exact h.conserved

/-- **One call keeps the invariant.** -/
theorem Inv.step (h : s.Inv e) {a : CtlSendAct} (ha : a.Ok) (hs : s.step e a = some s') :
    s'.Inv e := by
  cases a with
  | sendMsg heap t body => exact h.sendMsg ha hs
  | handlerWrite errno o k => exact h.handlerWrite ha hs

theorem inv_init (e : Endian) (heap : ℕ → UInt8) : (ctlSenderLts e heap).init.Inv e :=
  ⟨Buffer.wf_new heap (by decide) (by decide), rfl, by simp [ctlSenderLts, Buffer.queue_new],
    by simp [ctlSenderLts]⟩

/-- Once the buffer is empty, the kernel has all the messages that were accepted. -/
theorem wire_of_flushed {heap : ℕ → UInt8} {as : List CtlSendAct}
    (he : (ctlSenderLts e heap).exec (ctlSenderLts e heap).init as = some s)
    (ha : ∀ a ∈ as, a.Ok) (hflush : s.outBuf.getunused = 0) :
    s.wire = s.accepted.flatMap (encodeMsg e) ∧ ∀ p ∈ s.accepted, MsgBody p := by
  have hr : (ctlSenderLts e heap).Reach (fun _ a => a.Ok) s :=
    .of_allSteps .init he ((Lts.allSteps_label_iff he).2 ha)
  have hi : s.Inv e := hr.invariant (inv_init e heap) fun _ _ _ _ hi ha hs => hi.step ha hs
  have hq : s.outBuf.queue = [] := by
    have hlen := hi.wf.length_cast
    rw [← List.length_eq_zero_iff, Buffer.length_queue]
    omega
  have hc := hi.conserved
  rw [hq, List.append_nil] at hc
  exact ⟨hc, hi.bodies⟩

end CtlSender

/-! ### The receiving end -/

/-- What the receiving end does for the rest of the program. -/
inductive CtlCall
  /-- the handler of this type, with the body copied into its struct -/
  | handler (type : MsgType) (body : List UInt8)
  /-- a body that was copied past the end of its struct -/
  | overrun (type : MsgType)
  /-- `close_handler_` -/
  | close
deriving DecidableEq, Repr

/-- The `switch` of `CtlConnect::HandlerRead`. -/
def CtlConnect.dispatch (e : Endian) : Except FrameError RecvMsg → List CtlCall
  | .error _ => []
  | .ok m =>
      match MsgType.ofCode (m.type e) with
      | none => []
      | some t => [if m.bodySize ≤ t.structSize m.bodySize then .handler t m.body else .overrun t]

/-- The input half of a `CtlConnect`. -/
structure CtlReader where
  /-- the bytes that were sent, or will be, and were not read -/
  stream : List UInt8
  /-- `in_buffer_empty_` -/
  bufferEmpty : Bool := false
  /-- `closed_` of the channel -/
  closed : Bool := false
  /-- history -/
  calls : List CtlCall := []

/-- An event of the channel: the flags `EPOLLHUP` or `EPOLLRDHUP`, and `EPOLLIN` or `EPOLLPRI`, the
answers of `read(2)` while it is handled, and the stack below the read handler. -/
structure CtlEvent where
  hup : Bool
  readable : Bool
  reads : List ReadResult
  stack : ℕ → UInt8

namespace CtlReader

/-- `CtlConnect::HandlerEvery`, which re-arms the channel unless it closes. -/
def handlerEvery (s : CtlReader) : CtlReader :=
  if s.bufferEmpty ∧ s.closed then { s with calls := s.calls ++ [.close] } else s

/-- `CtlConnect::HandlerRead`, with its `switch`. -/
def handlerRead (e : Endian) (s : CtlReader) (ev : CtlEvent) : Option CtlReader :=
  (CtlConnect.handlerRead ev.stack s.bufferEmpty s.stream ev.reads).map fun r =>
    { s with
      stream := r.stream
      bufferEmpty := r.bufferEmpty
      calls := s.calls ++ CtlConnect.dispatch e r.result }

/-- `Channel::HandleEvents`, where the write handler does not touch the input. -/
def handleEvents (e : Endian) (s : CtlReader) (ev : CtlEvent) : Option CtlReader :=
  let s := { s with closed := s.closed || ev.hup }
  (if ev.readable then s.handlerRead e ev else some s).map handlerEvery

end CtlReader

/-- The runs of the input half of a new `CtlConnect`, to which `wire` is sent and then the end of
the stream. -/
def ctlReaderLts (e : Endian) (wire : List UInt8) : Lts CtlReader CtlEvent where
  init := { stream := wire }
  step := CtlReader.handleEvents e

/-- The number of events that call the read handler. -/
def readCalls (evs : List CtlEvent) : ℕ := evs.countP CtlEvent.readable

/-- Enough arrives, while the event is handled, for the largest frame. -/
def CtlEvent.Enough (ev : CtlEvent) : Prop := ctlFormat.maxLen ≤ arrivals ev.reads

namespace CtlReader

/-- **The invariant of the input half**, after `n` calls of the read handler: the first `n` messages
were dispatched, and the close handler has run only when a call after the last message has found the
end of the stream and the hang-up has been seen. -/
structure Inv (e : Endian) (msgs : List (MsgType × List UInt8)) (n : ℕ) (hup : Bool)
    (s : CtlReader) : Prop where
  stream : s.stream = (msgs.drop n).flatMap (encodeMsg e)
  bufferEmpty : s.bufferEmpty = decide (msgs.length < n)
  closed : s.closed = hup
  calls : ∃ k, s.calls =
      (msgs.take n).map (fun p => CtlCall.handler p.1 p.2) ++ List.replicate k .close ∧
    (0 < k ↔ msgs.length < n ∧ hup = true)

variable {e : Endian} {msgs : List (MsgType × List UInt8)} {n : ℕ} {hup : Bool} {s s' : CtlReader}
  {ev : CtlEvent}

/-- What a read handler leaves behind, before the close handler runs. -/
structure Mid (e : Endian) (msgs : List (MsgType × List UInt8)) (n : ℕ) (hup : Bool)
    (s : CtlReader) : Prop where
  stream : s.stream = (msgs.drop n).flatMap (encodeMsg e)
  bufferEmpty : s.bufferEmpty = decide (msgs.length < n)
  closed : s.closed = hup
  calls : ∃ k, s.calls =
      (msgs.take n).map (fun p => CtlCall.handler p.1 p.2) ++ List.replicate k .close ∧
    (0 < k → msgs.length < n ∧ hup = true)

theorem Mid.handlerEvery (h : Mid e msgs n hup s) : Inv e msgs n hup s.handlerEvery := by
  obtain ⟨k, hk, hpos⟩ := h.calls
  unfold CtlReader.handlerEvery
  by_cases hc : s.bufferEmpty = true ∧ s.closed = true
  · rw [if_pos hc]
    refine ⟨h.stream, h.bufferEmpty, h.closed, k + 1, ?_, ?_⟩
    · simp only [hk, List.append_assoc]
      rw [← List.replicate_succ']
    · rw [h.bufferEmpty, h.closed, decide_eq_true_iff] at hc
      exact ⟨fun _ => hc, fun _ => Nat.succ_pos k⟩
  · rw [if_neg hc]
    rw [h.bufferEmpty, h.closed, decide_eq_true_iff] at hc
    exact ⟨h.stream, h.bufferEmpty, h.closed, k, hk, hpos, fun hb => absurd hb hc⟩

/-- The hang-up is noted first. -/
theorem Inv.hangUp (h : Inv e msgs n hup s) (b : Bool) :
    Mid e msgs n (hup || b) { s with closed := s.closed || b } := by
  obtain ⟨k, hk, hpos⟩ := h.calls
  refine ⟨h.stream, h.bufferEmpty, by simp only [h.closed], k, hk, fun hp => ?_⟩
  obtain ⟨hlt, hup⟩ := hpos.1 hp
  exact ⟨hlt, by rw [hup, Bool.true_or]⟩

/-- The switch finds the handler of the message that was sent. -/
theorem dispatch_encodeMsg {p : MsgType × List UInt8} (hp : MsgBody p) (rest : List UInt8)
    (stack : ℕ → UInt8) :
    CtlConnect.dispatch e (.ok (frameMsg stack (encodeMsg e p ++ rest))) =
      [.handler p.1 p.2] := by
  obtain ⟨htype, hbody⟩ := frameMsg_encodeMsg e rest stack hp.2
  have hsize : (frameMsg stack (encodeMsg e p ++ rest)).bodySize = p.2.length := by
    have hlen := frameLen_encodeMsg e rest hp.2
    have hmax : maxMsgLen = 1024 := rfl
    have hle := hp.2
    have hl : (frameMsg stack (encodeMsg e p ++ rest)).len = 8 + p.2.length := hlen
    rw [RecvMsg.bodySize_of_le _ (by omega) (by omega), hl, Nat.add_sub_cancel_left]
  simp only [CtlConnect.dispatch, htype, MsgType.ofCode_code, hsize, hbody]
  rw [if_pos hp.1.le]

/-- **One call of the read handler** dispatches the next message, or finds the end of the stream. -/
theorem Mid.handlerRead (h : Mid e msgs n hup s) (hm : ∀ p ∈ msgs, MsgBody p)
    (hp : ∀ a ∈ ev.reads, a.Patient) (hs : s.handlerRead e ev = some s') :
    Mid e msgs (n + 1) hup s' := by
  obtain ⟨k, hk, hpos⟩ := h.calls
  obtain ⟨r, hr, rfl⟩ := Option.map_eq_some_iff.1 hs
  rcases Nat.lt_or_ge n msgs.length with hn | hn
  · -- the frame at the front of the stream is the next message
    have hd : msgs.drop n = msgs[n] :: msgs.drop (n + 1) := List.drop_eq_getElem_cons hn
    have hbody : MsgBody msgs[n] := hm _ (List.getElem_mem hn)
    rw [h.stream, hd, List.flatMap_cons] at hr
    have hlen := frameLen_encodeMsg e ((msgs.drop (n + 1)).flatMap (encodeMsg e)) hbody.2
    obtain rfl := readFrame_patient (by decide) (frameWhole_encodeMsg e _ hbody.2)
      (by rw [hlen]; omega) hp hr
    obtain rfl : k = 0 := by
      by_contra hk0
      have := (hpos (Nat.pos_of_ne_zero hk0)).1
      omega
    refine ⟨drop_encodeMsg e _ hbody.2, ?_, h.closed, 0, ?_, fun h0 => absurd h0 (by decide)⟩
    · simp only [h.bufferEmpty, decide_eq_decide]
      omega
    · simp only [hk, dispatch_encodeMsg hbody, List.replicate_zero, List.append_nil]
      rw [List.take_succ_eq_append_getElem hn, List.map_append, List.map_cons, List.map_nil]
  · -- the stream is over
    rw [h.stream, List.drop_of_length_le hn, List.flatMap_nil] at hr
    obtain rfl := readFrame_at_end hp hr
    refine ⟨?_, ?_, h.closed, k, ?_, ?_⟩
    · rw [List.drop_of_length_le (by omega), List.flatMap_nil]
    · exact (decide_eq_true (by omega)).symm
    · simp only [CtlConnect.dispatch, List.append_nil, hk]
      rw [List.take_of_length_le hn, List.take_of_length_le (by omega)]
    · intro hk0
      exact ⟨by omega, (hpos hk0).2⟩

/-- **One event.** -/
theorem Inv.handleEvents (h : Inv e msgs n hup s) (hm : ∀ p ∈ msgs, MsgBody p)
    (hp : ∀ a ∈ ev.reads, a.Patient) (hs : s.handleEvents e ev = some s') :
    Inv e msgs (n + readCalls [ev]) (hup || ev.hup) s' := by
  have hmid := h.hangUp ev.hup
  obtain ⟨s₁, hs₁, rfl⟩ := Option.map_eq_some_iff.1 hs
  cases hread : ev.readable with
  | true =>
      rw [hread, if_pos rfl] at hs₁
      rw [readCalls, List.countP_singleton, if_pos hread]
      exact (hmid.handlerRead hm hp hs₁).handlerEvery
  | false =>
      rw [hread, if_neg (by decide)] at hs₁
      rw [readCalls, List.countP_singleton, if_neg (by rw [hread]; decide), Nat.add_zero]
      obtain rfl := Option.some.inj hs₁
      exact hmid.handlerEvery

/-- An event is over once enough has arrived. -/
theorem Inv.handleEvents_enough (h : Inv e msgs n hup s) (hm : ∀ p ∈ msgs, MsgBody p)
    (hp : ∀ a ∈ ev.reads, a.Patient) (hen : ev.Enough) : ∃ s', s.handleEvents e ev = some s' := by
  have hread : ∃ r, CtlConnect.handlerRead ev.stack s.bufferEmpty s.stream ev.reads = some r := by
    rw [h.stream]
    rcases Nat.lt_or_ge n msgs.length with hn | hn
    · have hd : msgs.drop n = msgs[n] :: msgs.drop (n + 1) := List.drop_eq_getElem_cons hn
      rw [hd, List.flatMap_cons]
      exact readFrame_enough (by decide)
        (frameWhole_encodeMsg e _ (hm _ (List.getElem_mem hn)).2) hp hen
    · rw [List.drop_of_length_le hn, List.flatMap_nil]
      have hmax : ctlFormat.maxLen = 1032 := rfl
      exact readFrame_at_end_enough hp (by unfold CtlEvent.Enough at hen; omega)
  obtain ⟨r, hr⟩ := hread
  unfold CtlReader.handleEvents CtlReader.handlerRead
  simp only [hr, Option.map_some]
  split
  · exact ⟨_, rfl⟩
  · exact ⟨_, rfl⟩

/-- **A whole run of events.** -/
theorem Inv.exec {wire : List UInt8} (hm : ∀ p ∈ msgs, MsgBody p) {evs : List CtlEvent} :
    ∀ {s : CtlReader} {n : ℕ} {hup : Bool}, Inv e msgs n hup s →
      (∀ ev ∈ evs, ∀ a ∈ ev.reads, a.Patient) →
      ∀ {r : CtlReader}, (ctlReaderLts e wire).exec s evs = some r →
        Inv e msgs (n + readCalls evs) (hup || evs.any CtlEvent.hup) r := by
  induction evs with
  | nil =>
      intro s n hup h _ r hr
      obtain rfl := Option.some.inj hr
      simpa [readCalls] using h
  | cons ev evs ih =>
      intro s n hup h hp r hr
      obtain ⟨s₁, hs₁, hr⟩ := (Lts.exec_cons_eq_some _).1 hr
      have h₁ := h.handleEvents hm (hp ev List.mem_cons_self) hs₁
      have h₂ := ih h₁ (fun x hx => hp x (List.mem_cons_of_mem _ hx)) hr
      rw [List.any_cons, ← Bool.or_assoc]
      have hsum : readCalls (ev :: evs) = readCalls [ev] + readCalls evs := by
        rw [readCalls, ← List.singleton_append, List.countP_append]
        rfl
      rwa [hsum, ← Nat.add_assoc]

/-- A run of events is possible when enough arrives in each of them. -/
theorem Inv.exec_enough {wire : List UInt8} (hm : ∀ p ∈ msgs, MsgBody p) {evs : List CtlEvent} :
    ∀ {s : CtlReader} {n : ℕ} {hup : Bool}, Inv e msgs n hup s →
      (∀ ev ∈ evs, ∀ a ∈ ev.reads, a.Patient) → (∀ ev ∈ evs, ev.Enough) →
        ∃ r, (ctlReaderLts e wire).exec s evs = some r := by
  induction evs with
  | nil => exact fun _ _ _ => ⟨_, rfl⟩
  | cons ev evs ih =>
      intro s n hup h hp hen
      obtain ⟨s₁, hs₁⟩ :=
        h.handleEvents_enough hm (hp ev List.mem_cons_self) (hen ev List.mem_cons_self)
      have h₁ := h.handleEvents hm (hp ev List.mem_cons_self) hs₁
      obtain ⟨r, hr⟩ := ih h₁ (fun x hx => hp x (List.mem_cons_of_mem _ hx))
        fun x hx => hen x (List.mem_cons_of_mem _ hx)
      exact ⟨r, (Lts.exec_cons_eq_some _).2 ⟨s₁, hs₁, hr⟩⟩

theorem inv_init (e : Endian) (msgs : List (MsgType × List UInt8)) :
    Inv e msgs 0 false (ctlReaderLts e (msgs.flatMap (encodeMsg e))).init :=
  ⟨by simp [ctlReaderLts], by simp [ctlReaderLts], rfl, 0, by simp [ctlReaderLts], by simp⟩

end CtlReader

/-! ### From end to end -/

/-- **The messages arrive.**  After any run of one end that leaves its buffer empty, and any events
at the other end, each call of the read handler there has dispatched one more of the messages that
were accepted, in order and with exactly their bodies; the close handler runs when the stream is
over and the hang-up was seen, after all of them.  The events come to an end when enough arrives. -/
theorem ctl_round_trip (e : Endian) {heap : ℕ → UInt8} {as : List CtlSendAct} {s : CtlSender}
    (he : (ctlSenderLts e heap).exec (ctlSenderLts e heap).init as = some s)
    (ha : ∀ a ∈ as, a.Ok) (hflush : s.outBuf.getunused = 0) {evs : List CtlEvent}
    (hp : ∀ ev ∈ evs, ∀ a ∈ ev.reads, a.Patient) :
    (∀ r, (ctlReaderLts e s.wire).exec (ctlReaderLts e s.wire).init evs = some r →
      ∃ k, r.calls = (s.accepted.take (readCalls evs)).map (fun p => .handler p.1 p.2) ++
          List.replicate k .close ∧
        (0 < k ↔ s.accepted.length < readCalls evs ∧ ∃ ev ∈ evs, ev.hup = true)) ∧
      ((∀ ev ∈ evs, ev.Enough) →
        ∃ r, (ctlReaderLts e s.wire).exec (ctlReaderLts e s.wire).init evs = some r) := by
  obtain ⟨hwire, hm⟩ := CtlSender.wire_of_flushed he ha hflush
  have hinit := CtlReader.inv_init e s.accepted
  rw [hwire]
  refine ⟨fun r hr => ?_, hinit.exec_enough hm hp⟩
  obtain ⟨k, hk, hpos⟩ := (hinit.exec hm hp hr).calls
  rw [Nat.zero_add] at hk hpos
  refine ⟨k, hk, hpos.trans (and_congr_right fun _ => ?_)⟩
  rw [Bool.false_or, List.any_eq_true]

/-- An identifier of one letter is sent in two pieces. -/
def ctlOneSends : List CtlSendAct :=
  [.sendMsg (fun _ => 0) .newResponse [65, 0],
    .handlerWrite 0 (fun i => .accepted (4 + 2 * i)) 2]

/-- Its frame arrives in three pieces, and the end of the stream with the hang-up. -/
def ctlOneEvents : List CtlEvent :=
  [⟨false, true, [.arrived 2, .failed eagain, .arrived 0, .arrived 5], fun _ => 0⟩,
    ⟨true, true, [.failed eintr, .arrived 0], fun _ => 0⟩]

theorem ctl_round_trip_one : ∃ (s : CtlSender) (r : CtlReader) (k : ℕ),
    s.accepted = [(.newResponse, [65, 0])] ∧
      (ctlReaderLts .little s.wire).exec (ctlReaderLts .little s.wire).init ctlOneEvents =
        some r ∧
      r.calls = (s.accepted.take 2).map (fun p => .handler p.1 p.2) ++ List.replicate k .close ∧
      0 < k := by
  have he := (Option.some_get (x := (ctlSenderLts .little fun _ => 0).exec
    (ctlSenderLts .little fun _ => 0).init ctlOneSends) (by decide +kernel)).symm
  have hp : ∀ ev ∈ ctlOneEvents, ∀ a ∈ ev.reads, a.Patient := by decide
  obtain ⟨h, -⟩ := ctl_round_trip .little he (by decide +kernel) (by decide +kernel) hp
  have hr := (Option.some_get (x := (ctlReaderLts .little [0, 0, 0, 10, 1, 0, 0, 0, 65, 0]).exec
    (ctlReaderLts .little [0, 0, 0, 10, 1, 0, 0, 0, 65, 0]).init ctlOneEvents)
    (by decide +kernel)).symm
  have hwire : (((ctlSenderLts .little fun _ => 0).exec (ctlSenderLts .little fun _ => 0).init
      ctlOneSends).get (by decide +kernel)).wire = [0, 0, 0, 10, 1, 0, 0, 0, 65, 0] := by
    decide +kernel
  rw [hwire] at h
  obtain ⟨k, hk, hpos⟩ := h _ hr
  refine ⟨_, _, k, by decide +kernel, by rw [hwire]; exact hr, hk, hpos.2 ?_⟩
  exact ⟨by decide +kernel, by decide⟩

end ProxySocket

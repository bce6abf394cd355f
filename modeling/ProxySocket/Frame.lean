/-
**Reading one frame from a socket.**

The control connection and an idle proxy connection read the same way: four bytes with the length of
the frame, in network order, and then as many bytes as that length says.  The only test of the
length is an upper bound.  The frame goes into a message on the stack, which was not initialised,
and the body is copied from there into the struct of the message's type.

Main definitions:

* `ReadResult`, `readn` — the answers of `read(2)`, and the loop over them;
* `MsgType`, `ProxyMsgType`, `FrameFormat` — the types of the messages, and what the two kinds of
  frames differ in;
* `CtlConnect.handlerRead`, `ProxyConnect.handleRead` — the two read handlers up to their `switch`;
* `RecvMsg.Proper`, `FrameOk` — a message that may be dispatched, and the streams that never lead to
  another one.

Main results:

* `readn_full` — a call that returns all it was asked for has read the front of the stream;
* `readFrame_ok`, `readFrame_at_once` — what reaches the `switch`;
* `frames_checked_iff` — **which frames are checked before they are dispatched**.
-/

import ProxySocket.Buffer
import ProxySocket.Bytes
import ProxySocket.SocketWrite

set_option relaxedAutoImplicit false
set_option autoImplicit false

namespace ProxySocket

/-! ### `readn` -/

/-- The other value of `errno` that makes `readn` try again. -/
def eagain : ℕ := 11

/-- The answer of `read(2)`: `more + 1` bytes have arrived, unless the stream is over, or `-1` with an
`errno`. -/
inductive ReadResult
  | arrived (more : ℕ)
  | failed (errno : ℕ)
deriving DecidableEq, Repr

/-- What a call of `readn` leaves behind. -/
structure Readn where
  /-- the number returned -/
  ret : ℕ
  /-- the bytes in the caller's memory -/
  buf : List UInt8
  /-- the bytes the peer has sent, or will send, that were not read -/
  stream : List UInt8
  bufferEmpty : Bool
  /-- the answers to the calls of `read(2)` that come later -/
  reads : List ReadResult

/-- The loop of `readn`.  It has no result while it waits for another answer. -/
def readnLoop (size : ℕ) : List ReadResult → (lenLeft : ℤ) → (buf stream : List UInt8) → Bool →
    Option Readn
  | [], lenLeft, buf, stream, bufferEmpty =>
      if lenLeft > 0 then none
      else some ⟨sizeT (size - lenLeft), buf, stream, bufferEmpty, []⟩
  | r :: reads, lenLeft, buf, stream, bufferEmpty =>
      if lenLeft > 0 then
        match r with
        | .failed errno =>
            if errno = eintr ∨ errno = eagain then
              readnLoop size reads lenLeft buf stream bufferEmpty
            else some ⟨sizeT (-1), buf, stream, bufferEmpty, reads⟩
        | .arrived more =>
            if stream = [] then some ⟨sizeT (size - lenLeft), buf, stream, true, reads⟩
            else
              let readNum := min (min (more + 1) lenLeft.toNat) stream.length
              readnLoop size reads (int32 (lenLeft - readNum)) (buf ++ stream.take readNum)
                (stream.drop readNum) bufferEmpty
      else some ⟨sizeT (size - lenLeft), buf, stream, bufferEmpty, r :: reads⟩

/-- `readn`, where `size` becomes an `int`. -/
def readn (size : ℕ) (bufferEmpty : Bool) (stream : List UInt8) (reads : List ReadResult) :
    Option Readn :=
  readnLoop size reads (int32 size) [] stream bufferEmpty

section Loop

variable {size : ℕ} {reads : List ReadResult} {l : ℕ} {buf stream : List UInt8} {flag : Bool}
  {r : Readn}

theorem readnLoop_done (size : ℕ) (reads : List ReadResult) {l : ℤ} (hl : l ≤ 0)
    (buf stream : List UInt8) (flag : Bool) :
    readnLoop size reads l buf stream flag =
      some ⟨sizeT (size - l), buf, stream, flag, reads⟩ := by
  cases reads with
  | nil => simp [readnLoop, hl]
  | cons a reads => cases a <;> simp [readnLoop, not_lt.2 hl]

/-- Everything that was asked for has been read. -/
theorem readnLoop_zero (hsize : size < 2 ^ 64) (reads : List ReadResult) :
    readnLoop size reads (0 : ℕ) buf stream flag = some ⟨size, buf, stream, flag, reads⟩ := by
  rw [Nat.cast_zero, readnLoop_done _ _ le_rfl, sub_zero, sizeT_natCast hsize]

theorem readnLoop_wait (hl : 0 < l) : readnLoop size [] l buf stream flag = none := by
  simp [readnLoop, hl]

theorem readnLoop_again (hl : 0 < l) {errno : ℕ} (he : errno = eintr ∨ errno = eagain) :
    readnLoop size (.failed errno :: reads) l buf stream flag =
      readnLoop size reads l buf stream flag := by
  simp [readnLoop, hl, he]

theorem readnLoop_failed (hl : 0 < l) {errno : ℕ} (he : ¬ (errno = eintr ∨ errno = eagain)) :
    readnLoop size (.failed errno :: reads) l buf stream flag =
      some ⟨sizeT (-1), buf, stream, flag, reads⟩ := by
  simp [readnLoop, hl, he]

theorem readnLoop_end (hl : 0 < l) (more : ℕ) :
    readnLoop size (.arrived more :: reads) l buf [] flag =
      some ⟨sizeT (size - l), buf, [], true, reads⟩ := by
  simp [readnLoop, hl]

/-- Some bytes arrive. -/
theorem readnLoop_arrived (size : ℕ) (reads : List ReadResult) (buf : List UInt8) (flag : Bool)
    (hl : 0 < l) (hmax : l < 2 ^ 31) (hs : stream ≠ []) (more : ℕ) :
    ∃ n, 0 < n ∧ n ≤ l ∧ n ≤ stream.length ∧ (l ≤ more + 1 → l ≤ stream.length → n = l) ∧
      readnLoop size (.arrived more :: reads) l buf stream flag =
        readnLoop size reads (l - n : ℕ) (buf ++ stream.take n) (stream.drop n) flag := by
  have hpos := List.length_pos_iff.2 hs
  refine ⟨min (min (more + 1) l) stream.length, by omega, by omega, by omega,
    fun h₁ h₂ => by omega, ?_⟩
  simp only [readnLoop, hs, if_false, Int.toNat_natCast]
  rw [if_pos (by omega), int32_of_mem (by omega) (by omega), Nat.cast_sub (by omega)]

/-- **A call that returns the size it was asked for** has read the front of the stream. -/
theorem readnLoop_full (hsize : size < 2 ^ 31) (hl : l ≤ size)
    (h : readnLoop size reads l buf stream flag = some r) (hret : r.ret = size) :
    l ≤ stream.length ∧ r.buf = buf ++ stream.take l ∧ r.stream = stream.drop l ∧
      r.bufferEmpty = flag := by
  induction reads generalizing l buf stream with
  | nil =>
      rcases Nat.eq_zero_or_pos l with rfl | hpos
      · rw [readnLoop_zero (by omega)] at h
        obtain rfl := Option.some.inj h
        simp
      · rw [readnLoop_wait hpos] at h
        exact absurd h (by simp)
  | cons a reads ih =>
      rcases Nat.eq_zero_or_pos l with rfl | hpos
      · rw [readnLoop_zero (by omega)] at h
        obtain rfl := Option.some.inj h
        simp
      cases a with
      | failed errno =>
          by_cases he : errno = eintr ∨ errno = eagain
          · rw [readnLoop_again hpos he] at h
            exact ih hl h
          · rw [readnLoop_failed hpos he] at h
            obtain rfl := Option.some.inj h
            have hneg : sizeT (-1) = 2 ^ 64 - 1 := by decide
            simp only at hret
            omega
      | arrived more =>
          by_cases hs : stream = []
          · subst hs
            rw [readnLoop_end hpos] at h
            obtain rfl := Option.some.inj h
            have hcast := sizeT_cast (size - l)
            simp only at hret
            omega
          · obtain ⟨n, hn, hnl, hns, -, heq⟩ :=
              readnLoop_arrived size reads buf flag hpos (by omega) hs more
            rw [heq] at h
            obtain ⟨h₁, h₂, h₃, h₄⟩ := ih (by omega) h
            rw [List.length_drop] at h₁
            refine ⟨by omega, ?_, ?_, h₄⟩
            · rw [h₂, List.append_assoc, ← List.take_add, Nat.add_sub_cancel' hnl]
            · rw [h₃, List.drop_drop, Nat.add_sub_cancel' hnl]

end Loop

/-- **A call that returns the size it was asked for** has read the front of the stream. -/
theorem readn_full {size : ℕ} {flag : Bool} {stream : List UInt8} {reads : List ReadResult}
    {r : Readn} (hsize : size < 2 ^ 31) (h : readn size flag stream reads = some r)
    (hret : r.ret = size) :
    size ≤ stream.length ∧ r.buf = stream.take size ∧ r.stream = stream.drop size ∧
      r.bufferEmpty = flag := by
  rw [readn, int32_of_mem (by omega) (by omega)] at h
  simpa using readnLoop_full hsize le_rfl h hret

/-- All the bytes arrive at once. -/
theorem readn_at_once {size : ℕ} (hpos : 0 < size) (hsize : size < 2 ^ 31) (flag : Bool)
    {stream : List UInt8} (hs : size ≤ stream.length) (reads : List ReadResult) :
    readn size flag stream (.arrived (size - 1) :: reads) =
      some ⟨size, stream.take size, stream.drop size, flag, reads⟩ := by
  have hne : stream ≠ [] := by
    rintro rfl
    exact absurd hs (by simpa using hpos.ne')
  obtain ⟨n, -, -, -, hn, heq⟩ := readnLoop_arrived size reads [] flag hpos hsize hne (size - 1)
  obtain rfl := hn (by omega) hs
  rw [readn, int32_of_mem (by omega) (by omega), heq, Nat.sub_self,
    readnLoop_zero (by omega), List.nil_append]

/-- A call that is asked for nothing. -/
theorem readn_zero (flag : Bool) (stream : List UInt8) (reads : List ReadResult) :
    readn 0 flag stream reads = some ⟨0, [], stream, flag, reads⟩ := by
  rw [readn, int32_of_mem (by decide) (by decide)]
  exact readnLoop_zero (by decide) reads

/-! ### The messages -/

/-- The types of the messages of the control connection. -/
inductive MsgType
  | newRequest
  | newResponse
  | newTunnelReq
  | newTunnelRsp
  | notifyClient
  | shutdownPeerConn
  | freeConnReq
deriving DecidableEq, Repr

/-- The value of the enumerator. -/
def MsgType.code : MsgType → ℕ
  | newRequest => 0
  | newResponse => 1
  | newTunnelReq => 2
  | newTunnelRsp => 3
  | notifyClient => 4
  | shutdownPeerConn => 5
  | freeConnReq => 6

/-- The `case` of the `switch` that a value of `type` leads to. -/
def MsgType.ofCode : ℕ → Option MsgType
  | 0 => some newRequest
  | 1 => some newResponse
  | 2 => some newTunnelReq
  | 3 => some newTunnelRsp
  | 4 => some notifyClient
  | 5 => some shutdownPeerConn
  | 6 => some freeConnReq
  | _ => none

@[simp] theorem MsgType.ofCode_code (t : MsgType) : MsgType.ofCode t.code = some t := by
  cases t <;> rfl

theorem MsgType.code_lt (t : MsgType) : t.code < 7 := by
  cases t <;> decide

/-- The size of the struct that `copyLen` bytes are copied into.  The one of `NewResponse` is
allocated for them. -/
def MsgType.structSize (copyLen : ℕ) : MsgType → ℕ
  | newRequest => 1
  | newResponse => copyLen
  | newTunnelReq => 20 + 4
  | newTunnelRsp => 4 + 4 + 10 + 20 + 20 + 2
  | notifyClient => 10 + 2 + 4
  | shutdownPeerConn => 10 + 10 + 4
  | freeConnReq => 10 + 10

/-- The types of the messages of a proxy connection. -/
inductive ProxyMsgType
  | proxyMetaSet
  | proxyConnectReq
  | proxyConnectRsp
deriving DecidableEq, Repr

/-- The `case` of the `switch` that a value of `type` leads to. -/
def ProxyMsgType.ofCode : ℕ → Option ProxyMsgType
  | 0 => some proxyMetaSet
  | 1 => some proxyConnectReq
  | 2 => some proxyConnectRsp
  | _ => none

/-- The size of the struct that the body is copied into. -/
def ProxyMsgType.structSize : ProxyMsgType → ℕ
  | proxyMetaSet => 10 + 10 + 10
  | proxyConnectReq => 4 + 10 + 2
  | proxyConnectRsp => 4 + 10 + 2

/-- `MAX_MSG_LEN` and `MAX_LEN`, the size of `data`. -/
def maxMsgLen : ℕ := 1024

/-- What the two kinds of frames differ in. -/
structure FrameFormat where
  /-- the size of the message on the stack -/
  maxLen : ℕ
  /-- the size of the struct that a body of the given type and copy length is copied into, when the
  `switch` has a case for the type -/
  targetSize : ℕ → ℕ → Option ℕ

/-- The frames of the control connection. -/
def ctlFormat : FrameFormat where
  maxLen := 4 + 4 + maxMsgLen
  targetSize type copyLen := (MsgType.ofCode type).map (MsgType.structSize copyLen)

/-- The frames of a proxy connection. -/
def proxyFormat : FrameFormat where
  maxLen := 4 + 4 + maxMsgLen
  targetSize type _ := (ProxyMsgType.ofCode type).map ProxyMsgType.structSize

/-- A message at the `switch`: the length that was received, the bytes received behind it, and what
was on the stack. -/
structure RecvMsg where
  len : ℕ
  got : List UInt8
  stack : ℕ → UInt8

namespace RecvMsg

variable (m : RecvMsg) (e : Endian)

/-- The first `n` bytes of the message behind its length: those that were received, and then what
was there. -/
def bytes (n : ℕ) : List UInt8 :=
  (List.range n).map fun i => if h : i < m.got.length then m.got[i] else m.stack i

/-- The value of `type`, in the order of the host. -/
def type : ℕ := e.decode (m.bytes 4)

/-- `getMsgBodySize` and `getProxyMsgBodySize`, in `size_t`. -/
def bodySize : ℕ := sizeT (m.len - 4 - 4)

/-- The bytes that are copied out of `data`; what lies behind `data` is not modelled. -/
def body : List UInt8 := ((m.bytes (4 + maxMsgLen)).drop 4).take m.bodySize

/-- Type and body were received whole, and the bytes copied out of `data` are those received and fit
the struct they are copied into. -/
def Proper (fmt : FrameFormat) : Prop :=
  4 ≤ m.got.length ∧ 4 + m.got.length = m.len ∧ m.bodySize = m.got.length - 4 ∧
    ∀ t, fmt.targetSize (m.type e) m.bodySize = some t → m.bodySize ≤ t

theorem bytes_of_le {n : ℕ} (h : n ≤ m.got.length) : m.bytes n = m.got.take n := by
  refine List.ext_getElem (by simp [bytes, h]) ?_
  intro i h₁ h₂
  have hi : i < m.got.length := by
    rw [List.length_take] at h₂
    omega
  simp [bytes, hi]

theorem take_bytes {k n : ℕ} (h : k ≤ n) : (m.bytes n).take k = m.bytes k := by
  simp only [bytes, ← List.map_take, List.take_range, Nat.min_eq_left h]

theorem bodySize_of_le (h : 8 ≤ m.len) (hlt : m.len < 2 ^ 64) : m.bodySize = m.len - 8 := by
  have hcast := sizeT_cast (m.len - 4 - 4)
  unfold bodySize
  omega

end RecvMsg

/-! ### The read handlers up to their `switch` -/

/-- Why a handler returns before its `switch`. -/
inductive FrameError
  /-- nothing was read at the end of the stream -/
  | ended
  /-- `read msg len err` -/
  | len
  /-- `msg len too long` -/
  | tooLong
  /-- `read msg body err` -/
  | body
deriving DecidableEq, Repr

/-- What a call of a read handler leaves behind. -/
structure FrameRead where
  result : Except FrameError RecvMsg
  stream : List UInt8
  bufferEmpty : Bool

/-- The second half of the handler, after the length. -/
def readBody (fmt : FrameFormat) (stack : ℕ → UInt8) (len : ℕ) (h : Readn) : Option FrameRead :=
  if len > fmt.maxLen then some ⟨.error .tooLong, h.stream, h.bufferEmpty⟩
  else
    let bodySize := sizeT (len - 4)
    (readn bodySize h.bufferEmpty h.stream h.reads).map fun b =>
      if b.ret = 0 ∧ b.bufferEmpty = true then ⟨.error .ended, b.stream, b.bufferEmpty⟩
      else if b.ret ≠ bodySize then ⟨.error .body, b.stream, b.bufferEmpty⟩
      else ⟨.ok ⟨len, b.buf, stack⟩, b.stream, b.bufferEmpty⟩

/-- The read handlers up to their `switch`.  The length is in network order. -/
def readFrame (fmt : FrameFormat) (stack : ℕ → UInt8) (bufferEmpty : Bool) (stream : List UInt8)
    (reads : List ReadResult) : Option FrameRead :=
  (readn 4 bufferEmpty stream reads).bind fun h =>
    if h.ret = 0 ∧ h.bufferEmpty = true then some ⟨.error .ended, h.stream, h.bufferEmpty⟩
    else if h.ret ≠ 4 then some ⟨.error .len, h.stream, h.bufferEmpty⟩
    else readBody fmt stack (Endian.big.decode h.buf) h

/-- `CtlConnect::HandlerRead` up to its `switch`. -/
def CtlConnect.handlerRead (stack : ℕ → UInt8) (bufferEmpty : Bool) (stream : List UInt8)
    (reads : List ReadResult) : Option FrameRead :=
  readFrame ctlFormat stack bufferEmpty stream reads

/-- `ProxyConnect::handleRead` up to its `switch`, while `start_` is false. -/
def ProxyConnect.handleRead (stack : ℕ → UInt8) (bufferEmpty : Bool) (stream : List UInt8)
    (reads : List ReadResult) : Option FrameRead :=
  readFrame proxyFormat stack bufferEmpty stream reads

/-! ### What reaches the `switch` -/

/-- The length in the first four bytes. -/
def frameLen (stream : List UInt8) : ℕ := Endian.big.decode (stream.take 4)

/-- The message that a call builds from the front of the stream. -/
def frameMsg (stack : ℕ → UInt8) (stream : List UInt8) : RecvMsg :=
  ⟨frameLen stream, (stream.drop 4).take (frameLen stream - 4), stack⟩

/-- The stream begins with a frame whose length the handler lets through, and holds all of it. -/
def FrameWhole (fmt : FrameFormat) (stream : List UInt8) : Prop :=
  4 ≤ stream.length ∧ 4 ≤ frameLen stream ∧ frameLen stream ≤ fmt.maxLen ∧
    frameLen stream ≤ stream.length

section Reach

variable {fmt : FrameFormat} {stack : ℕ → UInt8} {flag : Bool} {stream : List UInt8}
  {reads : List ReadResult} {r : FrameRead} {m : RecvMsg}

theorem length_got_frameMsg (stack : ℕ → UInt8) (h : FrameWhole fmt stream) :
    (frameMsg stack stream).got.length = frameLen stream - 4 := by
  obtain ⟨-, h₂, -, h₄⟩ := h
  simp only [frameMsg, List.length_take, List.length_drop]
  omega

/-- The second half of the handler reaches the `switch` with the body that was announced. -/
theorem readBody_ok (hmax : fmt.maxLen < 2 ^ 31) {len : ℕ} {h : Readn}
    (hr : readBody fmt stack len h = some r) (hm : r.result = .ok m) :
    4 ≤ len ∧ len ≤ fmt.maxLen ∧ len - 4 ≤ h.stream.length ∧
      m = ⟨len, h.stream.take (len - 4), stack⟩ ∧ r.stream = h.stream.drop (len - 4) ∧
      r.bufferEmpty = h.bufferEmpty := by
  unfold readBody at hr
  by_cases htoo : len > fmt.maxLen
  · rw [if_pos htoo] at hr
    obtain rfl := Option.some.inj hr
    exact absurd hm (by simp)
  rw [if_neg htoo] at hr
  obtain ⟨b, hb, rfl⟩ := Option.map_eq_some_iff.1 hr
  -- a handler that returns early has no message
  have hend : ¬ (b.ret = 0 ∧ b.bufferEmpty = true) := by
    intro he
    rw [if_pos he] at hm
    exact absurd hm (by simp)
  have hret : b.ret = sizeT (len - 4) := by
    by_contra hne
    rw [if_neg hend, if_pos hne] at hm
    exact absurd hm (by simp)
  rw [if_neg hend, if_neg (not_not.2 hret)] at hm ⊢
  obtain rfl := Except.ok.inj hm
  have hcast := sizeT_cast ((len : ℤ) - 4)
  -- below four the length left is negative, and nothing is read
  have hlen : 4 ≤ len := by
    by_contra hlt
    rw [readn, readnLoop_done] at hb
    · obtain rfl := Option.some.inj hb
      have hz : int32 (sizeT ((len : ℤ) - 4) : ℕ) = len - 4 := by
        rw [hcast, ← int32_of_mem (x := (len : ℤ) - 4) (by omega) (by omega), int32_eq_iff,
          int32_of_mem (by omega) (by omega)]
        omega
      simp only [hz] at hret
      have hcast' := sizeT_cast ((sizeT ((len : ℤ) - 4) : ℕ) - ((len : ℤ) - 4))
      omega
    · rw [hcast, int32_eq_bmod, Int.bmod]
      split <;> omega
  have hsize : sizeT ((len : ℤ) - 4) = len - 4 := by omega
  rw [hsize] at hb hret
  obtain ⟨h₁, h₂, h₃, h₄⟩ := readn_full (by omega) hb hret
  exact ⟨hlen, by omega, h₁, by rw [h₂], h₃, h₄⟩

/-- **Everything that reaches the `switch`** is the frame at the front of the stream. -/
theorem readFrame_ok (hmax : fmt.maxLen < 2 ^ 31)
    (hr : readFrame fmt stack flag stream reads = some r) (hm : r.result = .ok m) :
    FrameWhole fmt stream ∧ m = frameMsg stack stream ∧ r.stream = stream.drop (frameLen stream) ∧
      r.bufferEmpty = flag := by
  obtain ⟨h, hh, hr⟩ := Option.bind_eq_some_iff.1 hr
  have hend : ¬ (h.ret = 0 ∧ h.bufferEmpty = true) := by
    intro he
    rw [if_pos he] at hr
    obtain rfl := Option.some.inj hr
    exact absurd hm (by simp)
  have hret : h.ret = 4 := by
    by_contra hne
    rw [if_neg hend, if_pos hne] at hr
    obtain rfl := Option.some.inj hr
    exact absurd hm (by simp)
  rw [if_neg hend, if_neg (not_not.2 hret)] at hr
  obtain ⟨h₁, h₂, h₃, h₄⟩ := readn_full (by decide) hh hret
  obtain ⟨k₁, k₂, k₃, k₄, k₅, k₆⟩ := readBody_ok hmax hr hm
  rw [h₂] at k₁ k₂ k₃ k₄ k₅
  rw [h₃] at k₃ k₄ k₅
  rw [List.length_drop] at k₃
  rw [List.drop_drop] at k₅
  refine ⟨⟨h₁, k₁, k₂, ?_⟩, k₄, ?_, by rw [k₆, h₄]⟩
  · change Endian.big.decode (stream.take 4) ≤ stream.length
    omega
  · rw [k₅, Nat.add_sub_cancel' k₁]
    rfl

/-- A frame that is there when the handler runs reaches the `switch`. -/
theorem readFrame_at_once (hmax : fmt.maxLen < 2 ^ 31) (h : FrameWhole fmt stream) :
    readFrame fmt stack false stream [.arrived 3, .arrived (frameLen stream - 4 - 1)] =
      some ⟨.ok (frameMsg stack stream), stream.drop (frameLen stream), false⟩ := by
  obtain ⟨h₁, h₂, h₃, h₄⟩ := h
  have hsize : sizeT ((frameLen stream : ℤ) - 4) = frameLen stream - 4 := by
    have hcast := sizeT_cast ((frameLen stream : ℤ) - 4)
    omega
  have hbody : ∃ rest, readn (frameLen stream - 4) false (stream.drop 4)
      [.arrived (frameLen stream - 4 - 1)] =
        some ⟨frameLen stream - 4, (stream.drop 4).take (frameLen stream - 4),
          stream.drop (frameLen stream), false, rest⟩ := by
    rcases Nat.eq_zero_or_pos (frameLen stream - 4) with h0 | hpos
    · refine ⟨[.arrived (frameLen stream - 4 - 1)], ?_⟩
      rw [h0, readn_zero, List.take_zero, show frameLen stream = 4 by omega]
    · refine ⟨[], ?_⟩
      rw [readn_at_once hpos (by omega) false (by rw [List.length_drop]; omega), List.drop_drop,
        Nat.add_sub_cancel' h₂]
  obtain ⟨rest, hbody⟩ := hbody
  rw [readFrame, readn_at_once (by decide) (by decide) false h₁]
  simp only [Option.bind_some, Nat.reduceEqDiff, false_and, if_false, ne_eq, not_true_eq_false]
  change readBody fmt stack (frameLen stream) _ = _
  simp only [readBody, if_neg (not_lt.2 h₃), hsize, hbody, Option.map_some, Bool.false_eq_true,
    and_false, if_false, ne_eq, not_true_eq_false]
  rfl

/-- A frame at the `switch` may be dispatched when it is long enough for a type and its body fits the
struct of its type. -/
theorem proper_frameMsg_iff (hmax : fmt.maxLen < 2 ^ 31) (h : FrameWhole fmt stream) (e : Endian) :
    (frameMsg stack stream).Proper e fmt ↔ 8 ≤ frameLen stream ∧
      ∀ t, fmt.targetSize (e.decode ((stream.drop 4).take 4)) (frameLen stream - 8) = some t →
        frameLen stream - 8 ≤ t := by
  have hgot := length_got_frameMsg stack h
  obtain ⟨-, h₂, h₃, -⟩ := h
  have hlen : (frameMsg stack stream).len = frameLen stream := rfl
  constructor
  · rintro ⟨k₁, k₂, k₃, k₄⟩
    have h8 : 8 ≤ frameLen stream := by omega
    have htype : (frameMsg stack stream).type e = e.decode ((stream.drop 4).take 4) := by
      rw [RecvMsg.type, RecvMsg.bytes_of_le _ k₁, frameMsg, List.take_take,
        Nat.min_eq_left (by omega)]
    have hbody : (frameMsg stack stream).bodySize = frameLen stream - 8 := by omega
    rw [htype, hbody] at k₄
    exact ⟨h8, k₄⟩
  · rintro ⟨h8, ht⟩
    have htype : (frameMsg stack stream).type e = e.decode ((stream.drop 4).take 4) := by
      rw [RecvMsg.type, RecvMsg.bytes_of_le _ (by omega), frameMsg, List.take_take,
        Nat.min_eq_left (by omega)]
    have hbody : (frameMsg stack stream).bodySize = frameLen stream - 8 := by
      rw [RecvMsg.bodySize_of_le _ (by omega) (by omega), hlen]
    refine ⟨by omega, by omega, by omega, ?_⟩
    rw [htype, hbody]
    exact ht

end Reach

/-! ### Which frames are checked -/

/-- A whole frame at the front of the stream is long enough for a type, and its body fits the struct
of its type. -/
def FrameOk (fmt : FrameFormat) (e : Endian) (stream : List UInt8) : Prop :=
  FrameWhole fmt stream → 8 ≤ frameLen stream ∧
    ∀ t, fmt.targetSize (e.decode ((stream.drop 4).take 4)) (frameLen stream - 8) = some t →
      frameLen stream - 8 ≤ t

theorem readFrame_checked_iff {fmt : FrameFormat} (hmax : fmt.maxLen < 2 ^ 31) (e : Endian)
    (stream : List UInt8) :
    (∀ stack flag reads r m, readFrame fmt stack flag stream reads = some r → r.result = .ok m →
      m.Proper e fmt) ↔ FrameOk fmt e stream := by
  constructor
  · intro h hwhole
    have hm := h (fun _ => 0) false _ _ _ (readFrame_at_once hmax hwhole) rfl
    exact (proper_frameMsg_iff hmax hwhole e).1 hm
  · intro h stack flag reads r m hr hm
    obtain ⟨hwhole, rfl, -, -⟩ := readFrame_ok hmax hr hm
    exact (proper_frameMsg_iff hmax hwhole e).2 (h hwhole)

/-- **The checks of the read handlers.**  Both dispatch only what was received whole and fits its
struct exactly when a frame at the front of the stream that their one test lets through is long
enough for a type and its body fits the struct of its type. -/
theorem frames_checked_iff (e : Endian) (stream : List UInt8) :
    ((∀ stack flag reads r m, CtlConnect.handlerRead stack flag stream reads = some r →
        r.result = .ok m → m.Proper e ctlFormat) ↔ FrameOk ctlFormat e stream) ∧
      ((∀ stack flag reads r m, ProxyConnect.handleRead stack flag stream reads = some r →
        r.result = .ok m → m.Proper e proxyFormat) ↔ FrameOk proxyFormat e stream) :=
  ⟨readFrame_checked_iff (by decide) e stream, readFrame_checked_iff (by decide) e stream⟩

/-- A frame of four bytes, which has no type: with a stack of zeros it is a `NewRequest` whose body
of minus four bytes is copied. -/
theorem frames_checked_not_four :
    ∃ r m, CtlConnect.handlerRead (fun _ => 0) false [0, 0, 0, 4] [.arrived 3] = some r ∧
      r.result = .ok m ∧ m.type .little = MsgType.newRequest.code ∧ m.bodySize = 2 ^ 64 - 4 ∧
      ¬ m.Proper .little ctlFormat := by
  refine ⟨_, ⟨4, [], fun _ => 0⟩, rfl, rfl, rfl, by decide, ?_⟩
  rintro ⟨h, -⟩
  exact absurd h (by decide)

end ProxySocket

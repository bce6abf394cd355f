/-
**A client of the send and receive server.**

A `ThreadBuffer` is a block of bytes of which the first `_last` are in use: data is put behind them
and taken from the front, and what is left moves to the front.  A `ThreadClient` has one for each
direction.  The receive loop of `ThreadServer` and of `EasyClient` puts what one `recv(2)` returned
behind the rest of the call before, and hands over messages as long as the front of the buffer holds
a whole one; a message begins with its length, a signed 16-bit number in the order of the host.

Main definitions:

* `ThreadBuffer` with `push`, `pop`, `write2socket`, `read4socket`, `empty`, and `content`, the bytes
  in use;
* `ThreadClient`, `ThreadClient.drain` — a client, and the loop that empties its buffer;
* `ThreadServer.recvData`, `EasyClient.recvData` — the two receive functions.

Main results:

* `ThreadBuffer.content_push`, `ThreadBuffer.content_pop`, `ThreadBuffer.content_read4socket` — the
  operations on the bytes in use;
* `ThreadBuffer.empty_eq` — whether there is a whole message depends on the bytes in use alone;
* `ThreadClient.drain_of_empty`, `ThreadClient.drain_of_not_empty` — the rounds of the loop.
-/

import ProxySocket.Bytes
import Mathlib.Data.Int.Basic

set_option relaxedAutoImplicit false
set_option autoImplicit false

namespace ProxySocket

/-! ### The buffer -/

/-- The size of the header of a message, `sizeof(DataHeader)`. -/
def dataHeaderSize : ℕ := 4

/-- The value of type `short` that these bytes stand for. -/
def short (e : Endian) (bs : List UInt8) : ℤ := (e.decode bs : ℤ).bmod (2 ^ 16)

/-- A `ThreadBuffer`.  The bytes that `_Buff` points to are given by their index. -/
structure ThreadBuffer where
  size : ℕ
  buff : ℕ → UInt8
  last : ℕ := 0
  full : ℕ := 0

/-- The answer of `recv(2)`: bytes, where none mean the end of the stream, or `-1`. -/
inductive RecvAnswer
  | bytes (bs : List UInt8)
  | failed
deriving DecidableEq, Repr

/-- The answer of `send(2)`: the number of bytes taken, or `-1`. -/
inductive SendAnswer
  | accepted (n : ℕ)
  | failed
deriving DecidableEq, Repr

/-- `memcpy` of `data` to the index `dst`. -/
def memcpy (mem : ℕ → UInt8) (dst : ℕ) (data : List UInt8) (i : ℕ) : UInt8 :=
  if h : dst ≤ i ∧ i - dst < data.length then data[i - dst] else mem i

namespace ThreadBuffer

/-- The constructor.  The bytes are what `new` found on the heap. -/
def new (size : ℕ) (heap : ℕ → UInt8) : ThreadBuffer where
  size := size
  buff := heap

/-- `ThreadBuffer::push`. -/
def push (b : ThreadBuffer) (data : List UInt8) : Bool × ThreadBuffer :=
  if b.last + data.length ≤ b.size then
    let last := b.last + data.length
    (true, { b with
      buff := memcpy b.buff b.last data
      last := last
      full := if last = b.size then b.full + 1 else b.full })
  else (false, { b with full := b.full + 1 })

/-- `ThreadBuffer::pop`, of at most the bytes in use.  The copy is that of `memmove`. -/
def pop (b : ThreadBuffer) (len : ℕ) : ThreadBuffer :=
  { b with
    buff := fun i => if i < b.last - len then b.buff (len + i) else b.buff i
    last := b.last - len
    full := if b.full > 0 then b.full - 1 else b.full }

/-- The bytes in use. -/
def content (b : ThreadBuffer) : List UInt8 := (List.range b.last).map b.buff

/-- `ThreadBuffer::write2socket`, with what the kernel took.  The buffer is empty afterwards, whatever
`send(2)` answered. -/
def write2socket (b : ThreadBuffer) (socket : ℤ) (a : SendAnswer) :
    ℤ × List UInt8 × ThreadBuffer :=
  if b.last > 0 ∧ socket > 0 then
    match a with
    | .accepted n => (n, b.content.take n, { b with last := 0, full := 0 })
    | .failed => (-1, [], { b with last := 0, full := 0 })
  else (0, [], b)

/-- `ThreadBuffer::read4socket`. -/
def read4socket (b : ThreadBuffer) (a : RecvAnswer) : ℤ × ThreadBuffer :=
  if b.size - b.last > 0 then
    match a with
    | .failed => (-1, b)
    | .bytes bs =>
        if bs.length = 0 then (0, b)
        else (bs.length, { b with buff := memcpy b.buff b.last bs, last := b.last + bs.length })
  else (0, b)

/-- The field `len` of the header at the front. -/
def headerLen (e : Endian) (b : ThreadBuffer) : ℤ := short e [b.buff 0, b.buff 1]

/-- `ThreadBuffer::empty`: there is no whole message. -/
def empty (e : Endian) (b : ThreadBuffer) : Bool :=
  if b.last ≥ dataHeaderSize then (b.last : ℤ) < b.headerLen e else true

/-! ### The bytes in use -/

variable {b : ThreadBuffer}

@[simp] theorem length_content (b : ThreadBuffer) : b.content.length = b.last := by
  simp [content]

/-- Bytes are copied behind those in use. -/
theorem content_memcpy (b : ThreadBuffer) (data : List UInt8) :
    (List.range (b.last + data.length)).map (memcpy b.buff b.last data) = b.content ++ data := by
  refine List.ext_getElem (by simp) ?_
  intro i h₁ h₂
  rw [List.getElem_map, List.getElem_range, List.getElem_append]
  by_cases hi : i < b.content.length
  · rw [dif_pos hi]
    rw [length_content] at hi
    simp only [content, List.getElem_map, List.getElem_range]
    exact dif_neg (fun h => by omega)
  · rw [dif_neg hi]
    rw [List.length_append, length_content] at h₂
    rw [length_content] at hi
    have hd : b.last ≤ i ∧ i - b.last < data.length := by omega
    simp only [length_content]
    exact dif_pos hd

/-- **Pushing** puts data behind the bytes in use, when there is room for it. -/
theorem content_push (data : List UInt8) :
    (b.push data).2.content =
        (if b.content.length + data.length ≤ b.size then b.content ++ data else b.content) ∧
      (b.push data).1 = decide (b.content.length + data.length ≤ b.size) ∧
      (b.push data).2.size = b.size := by
  rw [length_content]
  unfold push
  split
  · rename_i h
    exact ⟨content_memcpy b data, (decide_eq_true h).symm, rfl⟩
  · rename_i h
    exact ⟨rfl, (decide_eq_false h).symm, rfl⟩

/-- **Popping** takes bytes off the front. -/
theorem content_pop (b : ThreadBuffer) (len : ℕ) : (b.pop len).content = b.content.drop len := by
  refine List.ext_getElem (by simp [pop]) ?_
  intro i h₁ h₂
  have hi : i < b.last - len := by simpa [pop] using h₁
  simp only [content, pop, List.getElem_map, List.getElem_range, List.getElem_drop, if_pos hi]

@[simp] theorem size_pop (b : ThreadBuffer) (len : ℕ) : (b.pop len).size = b.size := rfl

/-- **Receiving** puts the bytes behind those in use. -/
theorem content_read4socket {bs : List UInt8} (hroom : b.last < b.size) (hbs : bs ≠ []) :
    (b.read4socket (.bytes bs)).1 = bs.length ∧
      (b.read4socket (.bytes bs)).2.content = b.content ++ bs ∧
      (b.read4socket (.bytes bs)).2.size = b.size := by
  have hlen : bs.length ≠ 0 := fun h => hbs (List.length_eq_zero_iff.1 h)
  have hread : b.read4socket (.bytes bs) = ((bs.length : ℤ),
      { b with buff := memcpy b.buff b.last bs, last := b.last + bs.length }) := by
    unfold read4socket
    rw [if_pos (Nat.sub_pos_of_lt hroom)]
    exact if_neg hlen
  rw [hread]
  exact ⟨rfl, content_memcpy b bs, rfl⟩

theorem read4socket_failed (hroom : b.last < b.size) : b.read4socket .failed = (-1, b) := by
  unfold read4socket
  rw [if_pos (Nat.sub_pos_of_lt hroom)]

theorem read4socket_nil (a : RecvAnswer) (h : b.last < b.size → a = .bytes []) :
    b.read4socket a = (0, b) := by
  unfold read4socket
  by_cases hroom : b.last < b.size
  · rw [if_pos (Nat.sub_pos_of_lt hroom), h hroom]
    exact if_pos rfl
  · rw [if_neg (by omega)]

/-- A call that receives nothing leaves the buffer as it is. -/
theorem read4socket_of_nonpos {a : RecvAnswer} (h : (b.read4socket a).1 ≤ 0) :
    (b.read4socket a).2 = b := by
  by_cases hroom : b.last < b.size
  · cases a with
    | failed => rw [read4socket_failed hroom]
    | bytes bs =>
        by_cases hbs : bs = []
        · rw [read4socket_nil _ fun _ => by rw [hbs]]
        · have hpos := List.length_pos_iff.2 hbs
          rw [(content_read4socket hroom hbs).1] at h
          omega
  · rw [read4socket_nil _ fun h => absurd h hroom]

/-- The header is the front of the bytes in use. -/
theorem headerLen_eq (e : Endian) (h : dataHeaderSize ≤ b.last) :
    b.headerLen e = short e (b.content.take 2) := by
  have hd : dataHeaderSize = 4 := rfl
  have h2 : b.content.take 2 = [b.buff 0, b.buff 1] := by
    rw [content, ← List.map_take, List.take_range, Nat.min_eq_left (by omega)]
    rfl
  rw [headerLen, h2]

/-- There is no whole message: a fact about the bytes in use. -/
theorem empty_eq (e : Endian) (b : ThreadBuffer) :
    b.empty e = if dataHeaderSize ≤ b.content.length then
      decide ((b.content.length : ℤ) < short e (b.content.take 2)) else true := by
  unfold empty
  rw [length_content]
  by_cases h : dataHeaderSize ≤ b.last
  · rw [if_pos h, if_pos h, headerLen_eq e h]
  · rw [if_neg h, if_neg h]

end ThreadBuffer

/-! ### The client -/

/-- `MaxBufSize`. -/
def maxBufSize : ℕ := 81920

/-- `ExpireTime`, in milliseconds. -/
def expireTime : ℤ := 50000

/-- A `ThreadClient`. -/
structure ThreadClient where
  socket : ℤ := -1
  recvBuf : ThreadBuffer
  sendBuf : ThreadBuffer
  deadtime : ℤ := 0
  senddeadtime : ℤ := 0

/-- What an application does to a client when it gets a message. -/
inductive ClientCall
  /-- `Resettime` -/
  | resettime
  /-- `SendData`, with the bytes of the answer -/
  | sendData (header : List UInt8)
deriving DecidableEq, Repr

/-- `OnNetMsg` of an application: what it does for a message. -/
abbrev MsgHandler := List UInt8 → List ClientCall

namespace ThreadClient

/-- The constructor. -/
def new (heap : ℕ → UInt8) : ThreadClient where
  recvBuf := .new maxBufSize heap
  sendBuf := .new maxBufSize heap

/-- `SetSocket`. -/
def setSocket (c : ThreadClient) (clientsocket : ℤ) : ThreadClient :=
  { c with socket := clientsocket }

/-- `SendDataReal`. -/
def sendDataReal (c : ThreadClient) (a : SendAnswer) : ℤ × List UInt8 × ThreadClient :=
  let r := c.sendBuf.write2socket c.socket a
  (r.1, r.2.1, { c with sendBuf := r.2.2, senddeadtime := 0 })

/-- `checkexpire`. -/
def checkexpire (c : ThreadClient) (time : ℤ) : Bool × ThreadClient :=
  (c.deadtime + time ≥ expireTime, { c with deadtime := c.deadtime + time })

/-- One call of an application. -/
def call (c : ThreadClient) : ClientCall → ThreadClient
  | .resettime => { c with deadtime := 0 }
  | .sendData header => { c with sendBuf := (c.sendBuf.push header).2 }

/-- `front`, as far as the message at the front goes. -/
def front (c : ThreadClient) (e : Endian) : List UInt8 :=
  c.recvBuf.content.take (c.recvBuf.headerLen e).toNat

/-- `pop_front`. -/
def popFront (c : ThreadClient) (e : Endian) : ThreadClient :=
  if c.recvBuf.empty e = false then
    { c with recvBuf := c.recvBuf.pop (c.recvBuf.headerLen e).toNat }
  else c

/-- The loop of `RecvData`, in at most `fuel` rounds, with the messages handed over.  A header with a
negative length makes `pop` copy from before the buffer, where the model stops; one with the length
zero keeps the loop going for ever. -/
def drain (h : MsgHandler) (e : Endian) : ℕ → ThreadClient →
    Option (List (List UInt8) × ThreadClient)
  | 0, _ => none
  | fuel + 1, c =>
      if c.recvBuf.empty e then some ([], c)
      else if c.recvBuf.headerLen e < 0 then none
      else
        let c' := ((h (c.front e)).foldl call c).popFront e
        (drain h e fuel c').map fun r => (c.front e :: r.1, r.2)

end ThreadClient

/-- What a call of `RecvData` leaves behind. -/
structure Received where
  ret : ℤ
  /-- the messages handed over -/
  msgs : List (List UInt8)
  client : ThreadClient

/-- The body shared by the two functions `RecvData`. -/
def receive (h : MsgHandler) (e : Endian) (fuel : ℕ) (c : ThreadClient) (a : RecvAnswer) :
    Option Received :=
  let r := c.recvBuf.read4socket a
  if r.1 ≤ 0 then some ⟨-1, [], { c with recvBuf := r.2 }⟩
  else (ThreadClient.drain h e fuel { c with recvBuf := r.2 }).map fun d => ⟨0, d.1, d.2⟩

/-- `ThreadServer::RecvData`, with the `OnNetMsg` of the application. -/
def ThreadServer.recvData (onNetMsg : MsgHandler) (e : Endian) (fuel : ℕ) (c : ThreadClient)
    (a : RecvAnswer) : Option Received := receive onNetMsg e fuel c a

/-- `EasyClient::RecvData`, whose `Message` does nothing to the client. -/
def EasyClient.recvData (e : Endian) (fuel : ℕ) (c : ThreadClient) (a : RecvAnswer) :
    Option Received := receive (fun _ => []) e fuel c a

/-! ### What the loop looks at -/

namespace ThreadClient

variable {h : MsgHandler} {e : Endian} {c c' : ThreadClient}

@[simp] theorem call_recvBuf (c : ThreadClient) (a : ClientCall) : (c.call a).recvBuf = c.recvBuf := by
  cases a <;> rfl

/-- An application does not touch the bytes that were received. -/
@[simp] theorem foldl_call_recvBuf (as : List ClientCall) (c : ThreadClient) :
    (as.foldl call c).recvBuf = c.recvBuf := by
  induction as generalizing c with
  | nil => rfl
  | cons a as ih => rw [List.foldl_cons, ih, call_recvBuf]

/-- A round of the loop leaves what comes behind the message. -/
theorem content_popFront (hne : c.recvBuf.empty e = false) :
    (c.popFront e).recvBuf.content =
      c.recvBuf.content.drop (c.recvBuf.headerLen e).toNat := by
  rw [popFront, if_pos hne, ThreadBuffer.content_pop]

theorem size_popFront (c : ThreadClient) (e : Endian) :
    (c.popFront e).recvBuf.size = c.recvBuf.size := by
  by_cases hne : c.recvBuf.empty e = false
  · rw [popFront, if_pos hne, ThreadBuffer.size_pop]
  · rw [popFront, if_neg hne]

/-- The loop stops where no whole message is left. -/
theorem drain_of_empty (h : MsgHandler) (hne : c.recvBuf.empty e = true) (fuel : ℕ) :
    drain h e (fuel + 1) c = some ([], c) := by
  rw [drain, if_pos hne]

/-- One round of the loop. -/
theorem drain_of_not_empty (h : MsgHandler) (hne : c.recvBuf.empty e = false)
    (hlen : 0 ≤ c.recvBuf.headerLen e) (fuel : ℕ) :
    drain h e (fuel + 1) c =
      (drain h e fuel (((h (c.front e)).foldl call c).popFront e)).map fun r =>
        (c.front e :: r.1, r.2) := by
  rw [drain, if_neg (by rw [hne]; decide), if_neg (Int.not_lt.2 hlen)]

/-- A call that receives nothing leaves the client as it is. -/
theorem receive_of_nonpos {a : RecvAnswer} (ha : (c.recvBuf.read4socket a).1 ≤ 0) (fuel : ℕ) :
    receive h e fuel c a = some ⟨-1, [], c⟩ := by
  rw [receive, if_pos ha, ThreadBuffer.read4socket_of_nonpos ha]

theorem receive_of_pos {a : RecvAnswer} (ha : ¬ (c.recvBuf.read4socket a).1 ≤ 0) (fuel : ℕ) :
    receive h e fuel c a =
      (drain h e fuel { c with recvBuf := (c.recvBuf.read4socket a).2 }).map fun d =>
        ⟨0, d.1, d.2⟩ := by
  rw [receive, if_neg ha]

end ThreadClient

end ProxySocket

/-
**One half of a proxy connection.**

A proxy connection is a TCP connection between the proxy server and the proxy client; each end has a
`ProxyConnect`.  While it serves no session (`start_` is false) it reads framed messages; while it
serves one it splices raw bytes between the stream and the connection of the session.

The stream is a list of cells.  A raw byte is a cell of its own and carries, as history, the session
it was written in; a message frame is one cell, written and read as a whole, that counts as many
bytes as the frame has.

Main definitions:

* `ProxyMsg`, `Cell` — the messages of the proxy stream and the elements of the stream;
* `ProxyConnect` — the state of one half;
* `ProxyConnect.shutdownFromRemote`, `ProxyConnect.shutdownFromLocal`, `ProxyConnect.resetConn`,
  `ProxyConnect.run`, `ProxyConnect.spliceRaw` — its operations.
-/

import ProxySocket.TransConnect

set_option relaxedAutoImplicit false
set_option autoImplicit false

namespace ProxySocket

/-! ### The proxy stream -/

/-- The messages of the proxy stream, with the public descriptor they carry. -/
inductive ProxyMsg
  | proxyMetaSet
  | proxyConnectReq (fd : ℕ)
  | proxyConnectRsp (fd : ℕ)
deriving DecidableEq, Repr

/-- The length of the frame of a message: length field, type field and message struct. -/
def ProxyMsg.len : ProxyMsg → ℕ
  | .proxyMetaSet => 4 + 4 + 30
  | .proxyConnectReq _ => 4 + 4 + 16
  | .proxyConnectRsp _ => 4 + 4 + 16

/-- An element of the proxy stream: a raw byte of the session `sid`, or a message frame. -/
inductive Cell
  | raw (sid : ℕ) (b : UInt8)
  | frame (m : ProxyMsg)
deriving DecidableEq, Repr

/-- The number of bytes of a cell. -/
def Cell.size : Cell → ℕ
  | .raw _ _ => 1
  | .frame m => m.len

/-- The number of bytes of a piece of the stream. -/
def cellsSize (l : List Cell) : ℕ := (l.map Cell.size).sum

/-- The cells of the bytes `bs` written in the session `sid`. -/
def raws (sid : ℕ) (bs : List UInt8) : List Cell := bs.map (Cell.raw sid)

@[simp] theorem cellsSize_nil : cellsSize [] = 0 := rfl

@[simp] theorem cellsSize_append (l m : List Cell) :
    cellsSize (l ++ m) = cellsSize l + cellsSize m := by simp [cellsSize]

@[simp] theorem cellsSize_raws (sid : ℕ) (bs : List UInt8) :
    cellsSize (raws sid bs) = bs.length := by
  induction bs with
  | nil => rfl
  | cons b bs ih =>
      simp only [cellsSize, raws, List.map_cons, List.sum_cons, List.length_cons] at ih ⊢
      rw [ih, Cell.size, Nat.add_comm]

@[simp] theorem raws_nil (sid : ℕ) : raws sid [] = [] := rfl

@[simp] theorem raws_append (sid : ℕ) (bs cs : List UInt8) :
    raws sid (bs ++ cs) = raws sid bs ++ raws sid cs := by simp [raws]

@[simp] theorem raws_eq_nil {sid : ℕ} {bs : List UInt8} : raws sid bs = [] ↔ bs = [] := by
  simp [raws]

@[simp] theorem length_raws (sid : ℕ) (bs : List UInt8) : (raws sid bs).length = bs.length := by
  simp [raws]

theorem take_raws (sid : ℕ) (bs : List UInt8) (n : ℕ) :
    (raws sid bs).take n = raws sid (bs.take n) := by simp [raws, List.map_take]

theorem drop_raws (sid : ℕ) (bs : List UInt8) (n : ℕ) :
    (raws sid bs).drop n = raws sid (bs.drop n) := by simp [raws, List.map_drop]

/-! ### Two splices in a row -/

/-- What the second splice takes comes off the front of pipe and stream together. -/
theorem take_splice {β : Type} {p l : List β} {n k : ℕ} (hk : k ≤ (p ++ l.take n).length) :
    (p ++ l.take n).take k = (p ++ l).take k := by
  conv_rhs => rw [← List.take_append_drop n l, ← List.append_assoc]
  rw [List.take_append_of_le_length hk]

/-- What the two splices leave is the rest of pipe and stream together. -/
theorem drop_splice {β : Type} {p l : List β} {n k : ℕ} (hk : k ≤ (p ++ l.take n).length) :
    (p ++ l.take n).drop k ++ l.drop n = (p ++ l).drop k := by
  conv_rhs => rw [← List.take_append_drop n l, ← List.append_assoc]
  rw [List.drop_append_of_le_length hk]

/-- A piece at the front of the bytes of a session is bytes of that session. -/
theorem prefix_raws {sid : ℕ} {bs : List UInt8} {q r l : List Cell} (h : q ++ r = raws sid bs ++ l)
    (hq : q.length ≤ bs.length) : q = raws sid (bs.take q.length) := by
  have ht := congrArg (List.take q.length) h
  rw [List.take_left, List.take_append_of_le_length (by rw [length_raws]; exact hq), take_raws] at ht
  exact ht

/-! ### The state of a half -/

/-- The state of a `ProxyConnect`. -/
structure ProxyConnect extends TransConnect Cell where
  /-- `start_`: the half serves a session -/
  start : Bool := false
  /-- `half_close_`: one of the two directions of the session was shut down -/
  halfClose : Bool := false
  /-- `conn_`: the connection of the session served last -/
  conn : Option PeerConnect := none
  /-- `buf_`: frames that `SendMsg` left for the write handler -/
  buf : List Cell := []

namespace ProxyConnect

/-- `resetConn`.  Neither `conn_` nor the pipe is touched. -/
def resetConn (p : ProxyConnect) : ProxyConnect :=
  { p with
    conn2fd := 0
    recvCount := 0
    tranCount := 0
    totalCount := 0
    start := false
    halfClose := false }

/-- `shutdownFromRemote`: the other end has announced its last byte and all bytes arrived.  The
answer tells whether the half was reset. -/
def shutdownFromRemote (p : ProxyConnect) : ProxyConnect × Bool :=
  if p.halfClose then (p.resetConn, true) else ({ p with halfClose := true }, false)

/-- `shutdownFromLocal`: the connection of the session has reached the end of its stream. -/
def shutdownFromLocal (p : ProxyConnect) : ProxyConnect × Bool :=
  if p.halfClose then (p.resetConn, true) else ({ p with halfClose := true }, false)

/-- `Run`: the half starts to serve the session of the connection `c`. -/
def run (p : ProxyConnect) (c : PeerConnect) : ProxyConnect :=
  { p with start := true, conn := some { c with conn2fd := p.fd }, conn2fd := c.fd }

@[simp, grind =] theorem resetConn_start (p : ProxyConnect) : p.resetConn.start = false := rfl

@[simp, grind =] theorem resetConn_halfClose (p : ProxyConnect) :
    p.resetConn.halfClose = false := rfl

@[simp, grind =] theorem run_start (p : ProxyConnect) (c : PeerConnect) :
    (p.run c).start = true := rfl

@[simp, grind =] theorem run_halfClose (p : ProxyConnect) (c : PeerConnect) :
    (p.run c).halfClose = p.halfClose := rfl

/-- The second of the two shutdowns resets the half. -/
theorem shutdownFromRemote_of_halfClose {p : ProxyConnect} (h : p.halfClose = true) :
    p.shutdownFromRemote = (p.resetConn, true) := by simp [shutdownFromRemote, h]

theorem shutdownFromRemote_of_open {p : ProxyConnect} (h : p.halfClose = false) :
    p.shutdownFromRemote = ({ p with halfClose := true }, false) := by simp [shutdownFromRemote, h]

theorem shutdownFromLocal_of_halfClose {p : ProxyConnect} (h : p.halfClose = true) :
    p.shutdownFromLocal = (p.resetConn, true) := by simp [shutdownFromLocal, h]

theorem shutdownFromLocal_of_open {p : ProxyConnect} (h : p.halfClose = false) :
    p.shutdownFromLocal = ({ p with halfClose := true }, false) := by simp [shutdownFromLocal, h]

/-- `SendMsg`: the frame waits in the output buffer for the write handler. -/
def sendMsg (p : ProxyConnect) (m : ProxyMsg) : ProxyConnect :=
  { p with buf := p.buf ++ [.frame m] }

/-- What the raw branch of `handleRead` does. -/
structure RawRead where
  half : ProxyConnect
  /-- what is left of the stream -/
  rest : List Cell
  /-- what was spliced to `conn2fd_` -/
  out : List Cell
  /-- `closeLocalPeerConnHandler_` is called: the received bytes are the announced ones -/
  reached : Bool

/-- The raw branch of `handleRead`: the first `n` cells of the stream go into the pipe, and the
second splice moves cells from the front of the pipe to the socket of the session. -/
def spliceRaw (p : ProxyConnect) (stream : List Cell) (n : ℕ) (o : SpliceOut) : RawRead :=
  let pipe := p.pipe ++ stream.take n
  match o with
  | .fail => ⟨{ p with pipe := pipe }, stream.drop n, [], false⟩
  | .moved k =>
      let recv := p.recvCount + Counter.ofNat (cellsSize (pipe.take k))
      ⟨{ p with pipe := pipe.drop k, recvCount := recv }, stream.drop n, pipe.take k,
        decide (recv = p.totalCount)⟩

/-- The answers the two splices of the raw branch may get: the first one moves at least a byte and
at most `spliceLen`; the second one may fail, or move at least a byte and at most as many as the
first one did. -/
def RawAdmissible (p : ProxyConnect) (stream : List Cell) (n : ℕ) (o : SpliceOut) : Prop :=
  0 < n ∧ n ≤ stream.length ∧ cellsSize (stream.take n) ≤ spliceLen ∧
    (o ≠ .fail → 0 < o.count ∧ o.count ≤ (p.pipe ++ stream.take n).length ∧
      cellsSize ((p.pipe ++ stream.take n).take o.count) ≤ cellsSize (stream.take n))

instance (p : ProxyConnect) (stream : List Cell) (n : ℕ) (o : SpliceOut) :
    Decidable (p.RawAdmissible stream n o) :=
  inferInstanceAs (Decidable (_ ∧ _ ∧ _ ∧ (_ → _ ∧ _ ∧ _)))

end ProxyConnect

end ProxySocket

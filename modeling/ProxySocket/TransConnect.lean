/-
**The relaying connections: counters, pipe and the two-splice read handler.**

A `TransConnect` owns a socket, a pipe and three 32-bit counters.  Its read handler moves bytes in
two steps, socket to pipe and pipe to the socket of the other end, both with `splice(2)`.  What the
kernel answers is the environment's choice, so a handler takes the two answers as arguments.

`PublicConnect` (on the server) and `ClientConnect` (on the client) run the same handler; they
differ in the tunnel function they report the end of the stream to.

Main definitions:

* `Counter`, `addTotalCount` — the wrapping counters and the one update that is not an addition;
* `SpliceIn`, `SpliceOut` and their `Admissible` — the answers of the two `splice(2)` calls;
* `PublicConnect.handleRead`, `ClientConnect.handleRead` — the read handlers.

Main results:

* `Counter.ofNat_inj` — below the wrap the counters tell the numbers apart;
* `spliceThrough_of_atEnd`, `spliceThrough_of_not_atEnd` — **everything one call can do**.
-/

import Mathlib.Algebra.Ring.Nat
import Mathlib.Data.List.Basic
import Mathlib.Tactic.Common

set_option relaxedAutoImplicit false
set_option autoImplicit false

namespace ProxySocket

/-! ### Counters -/

/-- The type of `tran_count_`, `recv_count_` and `total_count_`, atomic `int`s that wrap. -/
abbrev Counter := BitVec 32

/-- The counter that shows the number `n`. -/
abbrev Counter.ofNat (n : ℕ) : Counter := BitVec.ofNat 32 n

theorem Counter.ofNat_inj {m n : ℕ} (hm : m < 2 ^ 32) (hn : n < 2 ^ 32) :
    Counter.ofNat m = Counter.ofNat n ↔ m = n := by
  constructor
  · intro h
    have h' := congrArg BitVec.toNat h
    rwa [BitVec.toNat_ofNat, BitVec.toNat_ofNat, Nat.mod_eq_of_lt hm, Nat.mod_eq_of_lt hn] at h'
  · rintro rfl
    rfl

theorem Counter.ofNat_ne_zero {n : ℕ} (h₀ : 0 < n) (h : n < 2 ^ 32) : Counter.ofNat n ≠ 0 := by
  intro he
  have h' : Counter.ofNat n = Counter.ofNat 0 := he
  rw [Counter.ofNat_inj h (by omega)] at h'
  omega

theorem Counter.ofNat_ne_neg_one {n : ℕ} (h : n < 2 ^ 32 - 1) : Counter.ofNat n ≠ -1 := by
  intro he
  have h' : Counter.ofNat n = Counter.ofNat (2 ^ 32 - 1) := he
  rw [Counter.ofNat_inj (by omega) (by omega)] at h'
  omega

/-- The counter shows `n` itself exactly when `n` is below the wrap. -/
theorem Counter.toNat_ofNat_eq_iff {n : ℕ} : (Counter.ofNat n).toNat = n ↔ n < 2 ^ 32 := by
  rw [BitVec.toNat_ofNat]
  constructor
  · intro h
    rw [← h]
    exact Nat.mod_lt _ (Nat.two_pow_pos 32)
  · intro h
    exact Nat.mod_eq_of_lt h

theorem Counter.ofNat_add (m n : ℕ) :
    Counter.ofNat (m + n) = Counter.ofNat m + Counter.ofNat n := BitVec.ofNat_add m n

/-- The announced total after `AddTotalCount(count)`: the value `-1` stands for no total yet. -/
def addTotalCount (total count : Counter) : Counter :=
  if total = -1 then count else total + count

/-- The fields of a `TransConnect`, with a pipe that holds elements of `β`. -/
structure TransConnect (β : Type) where
  /-- the socket the connection owns -/
  fd : ℕ
  /-- the socket it splices to, `0` when there is none -/
  conn2fd : ℕ := 0
  /-- the content of the pipe, oldest first -/
  pipe : List β := []
  tranCount : Counter := 0
  recvCount : Counter := 0
  totalCount : Counter := -1

/-! ### The answers of `splice(2)` -/

/-- The most bytes one call asks `splice(2)` to move out of a socket. -/
def spliceLen : ℕ := 2048

/-- The answer of the first `splice(2)`, socket to pipe: `-1`, or the bytes moved, where no byte
means the end of the stream. -/
inductive SpliceIn
  | fail
  | moved (bytes : List UInt8)
deriving DecidableEq, Repr

/-- The answer of the second `splice(2)`, pipe to socket: `-1`, or the number of bytes moved. -/
inductive SpliceOut
  | fail
  | moved (n : ℕ)
deriving DecidableEq, Repr

/-- The bytes the first call moved. -/
def SpliceIn.bytes : SpliceIn → List UInt8
  | .fail => []
  | .moved bytes => bytes

/-- The number of bytes the second call moved. -/
def SpliceOut.count : SpliceOut → ℕ
  | .fail => 0
  | .moved n => n

/-- What `splice(2)` may answer on a socket: at most `spliceLen` bytes, and none once the end of
the stream was seen. -/
def SpliceIn.Admissible (closed : Bool) (i : SpliceIn) : Prop :=
  i.bytes.length ≤ spliceLen ∧ (closed = true → i.bytes = [])

/-- What `splice(2)` may answer when it is asked to move `len` bytes out of a pipe that holds at
least that many: it may fail with `EAGAIN`, and when it succeeds it moves at least one byte. -/
def SpliceOut.Admissible (len : ℕ) (o : SpliceOut) : Prop :=
  o.count ≤ len ∧ (o ≠ .fail → 0 < len → 0 < o.count)

instance (closed : Bool) (i : SpliceIn) : Decidable (i.Admissible closed) :=
  inferInstanceAs (Decidable (_ ∧ _))

instance (len : ℕ) (o : SpliceOut) : Decidable (o.Admissible len) :=
  inferInstanceAs (Decidable (_ ∧ _))

/-! ### The read handler of the two ends -/

/-- A connection to a public client or to the local server. -/
structure PeerConnect extends TransConnect UInt8 where
  /-- `closed_` and `close_`: the end of the stream was handled -/
  closed : Bool := false

/-- The server's connection to a public client. -/
abbrev PublicConnect := PeerConnect

/-- The client's connection to the local server. -/
abbrev ClientConnect := PeerConnect

/-- What one call of a read handler does. -/
structure ReadEffect where
  conn : PeerConnect
  /-- the bytes written to the proxy socket -/
  written : List UInt8
  /-- the count reported to the tunnel, when the handler saw the end of the stream -/
  shutdown : Option Counter

/-- The body shared by `PublicConnect::handleRead` and `ClientConnect::handleRead`.  The second
splice asks for the number of bytes the first one moved, not for what the pipe holds. -/
def spliceThrough (c : PeerConnect) (i : SpliceIn) (o : SpliceOut) : ReadEffect :=
  match i with
  | .fail => ⟨c, [], none⟩
  | .moved bytes =>
      if bytes = [] ∧ c.closed = false then
        ⟨{ c with closed := true }, [], some c.tranCount⟩
      else
        match o with
        | .fail => ⟨{ c with pipe := c.pipe ++ bytes }, [], none⟩
        | .moved n =>
            ⟨{ c with
                pipe := (c.pipe ++ bytes).drop n
                tranCount := c.tranCount + Counter.ofNat n },
              (c.pipe ++ bytes).take n, none⟩

/-- `PublicConnect::handleRead`, which reports to `Tunnel::shutdownFromPublic`. -/
def PublicConnect.handleRead (c : PublicConnect) (i : SpliceIn) (o : SpliceOut) : ReadEffect :=
  spliceThrough c i o

/-- `ClientConnect::handleRead`, which reports to `Tunnel::shutdownFromClient`. -/
def ClientConnect.handleRead (c : ClientConnect) (i : SpliceIn) (o : SpliceOut) : ReadEffect :=
  spliceThrough c i o

/-- The call sees the end of the stream, for the first time on this connection. -/
def AtEnd (c : PeerConnect) (i : SpliceIn) : Prop := i = .moved [] ∧ c.closed = false

instance (c : PeerConnect) (i : SpliceIn) : Decidable (AtEnd c i) :=
  inferInstanceAs (Decidable (_ ∧ _))

/-- At the end of the stream the handler reports `tran_count_`, whatever the pipe holds. -/
theorem spliceThrough_of_atEnd {c : PeerConnect} {i : SpliceIn} (o : SpliceOut) (h : AtEnd c i) :
    spliceThrough c i o = ⟨{ c with closed := true }, [], some c.tranCount⟩ := by
  obtain ⟨rfl, hc⟩ := h
  simp [spliceThrough, hc]

/-- **Every other call** puts what it read behind the content of the pipe and takes the count of
the second splice off its front. -/
theorem spliceThrough_of_not_atEnd {c : PeerConnect} {i : SpliceIn} {o : SpliceOut}
    (h : ¬ AtEnd c i) (ho : o.Admissible i.bytes.length) :
    spliceThrough c i o =
      ⟨{ c with
          pipe := (c.pipe ++ i.bytes).drop o.count
          tranCount := c.tranCount + Counter.ofNat o.count },
        (c.pipe ++ i.bytes).take o.count, none⟩ := by
  cases i with
  | fail =>
      have h₀ : o.count = 0 := Nat.le_zero.1 ho.1
      simp [spliceThrough, SpliceIn.bytes, h₀]
  | moved bytes =>
      have hend : ¬ (bytes = [] ∧ c.closed = false) := by simpa [AtEnd] using h
      cases o with
      | fail => simp [spliceThrough, hend, SpliceIn.bytes, SpliceOut.count]
      | moved n => simp [spliceThrough, hend, SpliceIn.bytes, SpliceOut.count]

/-- A closed connection has nothing left to do. -/
theorem spliceThrough_of_closed {c : PeerConnect} (hc : c.closed = true) {i : SpliceIn}
    {o : SpliceOut} (hi : i.Admissible c.closed) (ho : o.Admissible i.bytes.length) :
    spliceThrough c i o = ⟨c, [], none⟩ := by
  have hb : i.bytes = [] := hi.2 hc
  have hend : ¬ AtEnd c i := fun he => by
    have := he.2
    rw [hc] at this
    exact absurd this (by decide)
  have h0 : o.count = 0 := by
    have := ho.1
    rw [hb] at this
    exact Nat.le_zero.1 this
  rw [spliceThrough_of_not_atEnd hend ho, hb, h0]
  simp

end ProxySocket

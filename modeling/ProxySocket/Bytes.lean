/-
**Numbers as bytes.**

Writing a number into a given count of bytes and reading it back, in either byte order.  Nothing in
this module depends on what the numbers are for.

Main definitions:

* `Bytes.lowBytes`, `Bytes.value` — the least significant byte first;
* `Endian.encode`, `Endian.decode` — in either order.

Main results:

* `Endian.decode_encode` — what was written is read back, modulo the range.
-/

import Mathlib.Algebra.Ring.Nat
import Mathlib.Data.List.Basic
import Mathlib.Tactic.Common

set_option relaxedAutoImplicit false
set_option autoImplicit false

namespace ProxySocket

namespace Bytes

/-- The `w` low bytes of `n`, the least significant one first. -/
def lowBytes : ℕ → ℕ → List UInt8
  | 0, _ => []
  | w + 1, n => UInt8.ofNat n :: lowBytes w (n / 256)

/-- The number with these bytes, the least significant one first. -/
def value : List UInt8 → ℕ
  | [] => 0
  | b :: bs => b.toNat + 256 * value bs

@[simp] theorem length_lowBytes (w n : ℕ) : (lowBytes w n).length = w := by
  induction w generalizing n with
  | zero => rfl
  | succ w ih => simp [lowBytes, ih]

theorem value_lowBytes (w n : ℕ) : value (lowBytes w n) = n % 256 ^ w := by
  induction w generalizing n with
  | zero => simp [lowBytes, value, Nat.mod_one]
  | succ w ih =>
      have hpow : 256 ^ (w + 1) = 256 * 256 ^ w := Nat.pow_succ'
      rw [lowBytes, value, ih, UInt8.toNat_ofNat', hpow, Nat.mod_mul]

end Bytes

/-- The order of the bytes of a number. -/
inductive Endian
  | little
  | big
deriving DecidableEq, Repr

namespace Endian

/-- The `w` low bytes of `n`. -/
def encode (e : Endian) (w n : ℕ) : List UInt8 :=
  match e with
  | little => Bytes.lowBytes w n
  | big => (Bytes.lowBytes w n).reverse

/-- The number with these bytes. -/
def decode (e : Endian) (bs : List UInt8) : ℕ :=
  match e with
  | little => Bytes.value bs
  | big => Bytes.value bs.reverse

@[simp] theorem length_encode (e : Endian) (w n : ℕ) : (e.encode w n).length = w := by
  cases e <;> simp [encode]

/-- What was written is read back, as far as there is room for it. -/
theorem decode_encode (e : Endian) (w n : ℕ) : e.decode (e.encode w n) = n % 256 ^ w := by
  cases e <;> simp [encode, decode, Bytes.value_lowBytes]

end Endian

end ProxySocket

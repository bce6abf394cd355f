/-
**Reading an address from the command line.**

`parse_host_port` copies its argument into an array of a hundred bytes, cuts it at the colons with
`strtok`, and takes the first two parts for the host and the port.  An array of two pointers keeps the
parts, and the loop may leave it before the second one is assigned.

Main definitions:

* `strtok` — the function, by its position in a block of bytes;
* `atoi`, `leadingNumber` — the number that a string begins with, and what becomes of it;
* `parseHostPort`, `mainRejects` — the function, and the check that `main` makes;
* `nextPart`, `part` — the next part of a string between colons, and the parts one after the other;
* `HostPort`, `ParsesOrRejects`, `TwoParts` — an address, what should happen to an argument, and the
  condition for it.

Main results:

* `strtok_spec` — what `strtok` finds and leaves;
* `parseHostPort_two`, `parseHostPort_one` — what the function makes of the first two parts;
* `atoi_eq_zero_iff` — the strings that are taken for port 0;
* `HostPort.parsed` — an address that fits is parsed;
* `host_port_iff` — **which arguments are parsed or rejected**.
-/

import Mathlib.Algebra.Order.Ring.Nat
import ProxySocket.Buffer
import ProxySocket.CString

set_option relaxedAutoImplicit false
set_option autoImplicit false

namespace ProxySocket

/-! ### The functions of the C library -/

/-- What goes wrong in the function. -/
inductive ParseFault
  /-- a byte is read or written outside of `addr_arr` -/
  | outside
  /-- an entry of `split_ret` is used that was not assigned -/
  | unassigned
  /-- a string is made of the null pointer -/
  | nullString
deriving DecidableEq, Repr

/-- The delimiter. -/
def colon : UInt8 := 58

/-- The number of delimiters at a position. -/
def strspn (mem : List UInt8) (s : ℕ) : ℕ := ((mem.drop s).takeWhile (· = colon)).length

/-- The number of bytes at a position up to a delimiter or the terminator. -/
def strcspn (mem : List UInt8) (s : ℕ) : ℕ :=
  ((mem.drop s).takeWhile fun b => b ≠ colon ∧ b ≠ 0).length

/-- The byte at a position. -/
def loadByte (mem : List UInt8) (s : ℕ) : Except ParseFault UInt8 :=
  match mem[s]? with
  | some b => .ok b
  | none => .error .outside

@[simp] theorem ok_bind {α β : Type} (a : α) (f : α → Except ParseFault β) :
    (Except.ok a >>= f) = f a := rfl

/-- `strtok`, which goes on at the position `s`: the part it finds, the block, and the position it
saves. -/
def strtok (mem : List UInt8) (s : ℕ) : Except ParseFault (Option ℕ × List UInt8 × ℕ) := do
  if (← loadByte mem s) = 0 then return (none, mem, s)
  let s := s + strspn mem s
  if (← loadByte mem s) = 0 then return (none, mem, s)
  let last := s + strcspn mem s
  if (← loadByte mem last) = 0 then return (some s, mem, last)
  return (some s, mem.set last 0, last + 1)

/-- `isspace`. -/
def isSpace (b : UInt8) : Bool := b = 32 || (9 ≤ b && b ≤ 13)

/-- `isdigit`. -/
def isDigit (b : UInt8) : Bool := 48 ≤ b && b ≤ 57

/-- The value of a string of digits. -/
def decimalValue (ds : Str) : ℕ := ds.foldl (fun v d => 10 * v + (d.toNat - 48)) 0

/-- Whether the string has a minus sign behind its white space, and the string behind the sign. -/
def splitSign (s : Str) : Bool × Str :=
  match s.dropWhile isSpace with
  | 45 :: r => (true, r)
  | 43 :: r => (false, r)
  | r => (false, r)

/-- The number that a string begins with, behind white space: its sign and its value. -/
def leadingNumber (s : Str) : Bool × ℕ :=
  ((splitSign s).1, decimalValue ((splitSign s).2.takeWhile isDigit))

/-- `strtol`, which stops at the bounds of `long`. -/
def strtol (s : Str) : ℤ :=
  if (leadingNumber s).1 then max (-(leadingNumber s).2) (-2 ^ 63)
  else min (leadingNumber s).2 (2 ^ 63 - 1)

/-- `atoi`. -/
def atoi (s : Str) : ℤ := int32 (strtol s)

/-- The value of type `u_int32_t` that stands for `x`. -/
def uint32 (x : ℤ) : ℕ := (x % 2 ^ 32).toNat

/-! ### The function -/

/-- `split_ret`: the entries that are assigned, which may be the null pointer. -/
abbrev SplitRet := List (Option (Option ℕ))

/-- The loop of `parse_host_port`, `n` rounds of which are left. -/
def splitLoop : ℕ → ℕ → Option ℕ → List UInt8 → ℕ → SplitRet →
    Except ParseFault (List UInt8 × SplitRet)
  | 0, _, _, mem, _, splitRet => return (mem, splitRet)
  | n + 1, i, splitPtr, mem, save, splitRet => do
      let splitRet := splitRet.set i (some splitPtr)
      let (splitPtr, mem, save) ← strtok mem save
      if splitPtr = none then return (mem, splitRet)
      splitLoop n (i + 1) splitPtr mem save splitRet

/-- The string that an entry of `split_ret` points to. -/
def splitString (mem : List UInt8) (splitRet : SplitRet) (i : ℕ) : Except ParseFault Str :=
  match splitRet[i]? with
  | some (some (some p)) =>
      match cstr mem p with
      | some s => .ok s
      | none => .error .outside
  | some (some none) => .error .nullString
  | _ => .error .unassigned

/-- `parse_host_port`, with what the stack held before: the host and the port. -/
def parseHostPort (stack : ℕ → UInt8) (addr : Str) : Except ParseFault (Str × ℕ) := do
  match strcpy ((List.range 100).map stack) 0 addr with
  | none => throw .outside
  | some mem =>
      let (splitPtr, mem, save) ← strtok mem 0
      let (mem, splitRet) ← splitLoop 2 0 splitPtr mem save [none, none]
      let host ← splitString mem splitRet 0
      let port ← splitString mem splitRet 1
      return (host, uint32 (atoi port))

/-- The check of `main`. -/
def mainRejects (host : Str) (port : ℕ) : Bool := host.isEmpty || port = 0

/-! ### The parts of a string -/

/-- The next part of a string, and what is behind it, which begins with a delimiter. -/
def nextPart (t : Str) : Str × Str :=
  ((t.dropWhile (· = colon)).takeWhile (· ≠ colon), (t.dropWhile (· = colon)).dropWhile (· ≠ colon))

/-- The part of a string that `i` others stand before. -/
def part : ℕ → Str → Str
  | 0, t => (nextPart t).1
  | i + 1, t => part i (nextPart t).2

/-- What is behind the delimiters of a string does not begin with one. -/
theorem ne_colon_of_dropWhile {t u : Str} {b : UInt8} (h : t.dropWhile (· = colon) = b :: u) :
    b ≠ colon := by
  have hb := List.head?_dropWhile_not (· = colon) t
  rw [h] at hb
  simpa using hb

theorem nextPart_eq_nil {t : Str} : (nextPart t).1 = [] ↔ t.dropWhile (· = colon) = [] := by
  cases hu : t.dropWhile (· = colon) with
  | nil => simp [nextPart, hu]
  | cons b u => simp [nextPart, hu, ne_colon_of_dropWhile hu]

theorem nextPart_append (t : Str) :
    (nextPart t).1 ++ (nextPart t).2 = t.dropWhile (· = colon) := List.takeWhile_append_dropWhile

/-- What is behind a part begins with a delimiter. -/
theorem eq_colon_of_nextPart {t r : Str} {d : UInt8} (h : (nextPart t).2 = d :: r) :
    d = colon := by
  have hd := List.head?_dropWhile_not (· ≠ colon) (t.dropWhile (· = colon))
  simp only [nextPart] at h
  rw [h] at hd
  simpa using hd

/-- A part that ends at a delimiter or at the end of the string. -/
theorem nextPart_of_ne {w r : Str} (hw : ∀ b ∈ w, b ≠ colon)
    (hr : ∀ d r', r = d :: r' → d = colon) (hne : w ≠ []) : nextPart (w ++ r) = (w, r) := by
  have hdrop : (w ++ r).dropWhile (· = colon) = w ++ r := by
    cases w with
    | nil => exact absurd rfl hne
    | cons b w => exact List.dropWhile_cons_of_neg (by simp [hw b List.mem_cons_self])
  have hall : ∀ b ∈ w, decide (b ≠ colon) = true := fun b hb => decide_eq_true (hw b hb)
  rw [nextPart, hdrop, List.takeWhile_append_of_pos hall, List.dropWhile_append_of_pos hall]
  cases r with
  | nil => simp
  | cons d r =>
    obtain rfl := hr d r rfl
    simp

theorem nextPart_colon (t : Str) : nextPart (colon :: t) = nextPart t := by
  simp [nextPart]

section Strtok

variable {mem : List UInt8} {s : ℕ} {t : Str}

theorem takeWhile_append_zero {p : UInt8 → Bool} (hp : p 0 = false) (t tail : List UInt8) :
    (t ++ 0 :: tail).takeWhile p = t.takeWhile p := by
  induction t with
  | nil => simp [hp]
  | cons b t ih => simp only [List.cons_append, List.takeWhile_cons, ih]

theorem drop_add {x y : List UInt8} (h : mem.drop s = x ++ y) : mem.drop (s + x.length) = y := by
  rw [← List.drop_drop, h, List.drop_left]

theorem loadByte_of_drop {b : UInt8} {l : List UInt8} (h : mem.drop s = b :: l) :
    loadByte mem s = .ok b := by
  have hget : mem[s]? = some b := by
    rw [← Nat.add_zero s, ← List.getElem?_drop, h, List.getElem?_cons_zero]
  rw [loadByte, hget]

theorem loadByte_append {w l : List UInt8} (h : mem.drop s = w ++ l) (hw : w ≠ []) (h0 : 0 ∉ w) :
    ∃ b, loadByte mem s = .ok b ∧ b ≠ 0 := by
  cases w with
  | nil => exact absurd rfl hw
  | cons b w => exact ⟨b, loadByte_of_drop h, fun hb => h0 (hb ▸ List.mem_cons_self)⟩

theorem strspn_of_drop {tail : List UInt8} (h : mem.drop s = t ++ 0 :: tail) :
    strspn mem s = (t.takeWhile (· = colon)).length := by
  rw [strspn, h, takeWhile_append_zero (by decide)]

theorem strcspn_of_drop {tail : List UInt8} (ht : 0 ∉ t) (h : mem.drop s = t ++ 0 :: tail) :
    strcspn mem s = (t.takeWhile (· ≠ colon)).length := by
  rw [strcspn, h]
  congr 1
  clear h
  induction t with
  | nil => rfl
  | cons b t ih =>
    have hb : b ≠ 0 := fun h0 => ht (h0 ▸ List.mem_cons_self)
    have ht' : 0 ∉ t := fun h0 => ht (List.mem_cons_of_mem b h0)
    simp only [List.cons_append, List.takeWhile_cons, ih ht', hb, ne_eq, not_false_eq_true,
      and_true]

/-- What a call can do to the block: it writes a terminator behind the position, if anything. -/
theorem strtok_cases {q : Option ℕ} {mem' : List UInt8} {s' : ℕ}
    (h : strtok mem s = .ok (q, mem', s')) :
    s ≤ s' ∧ (mem' = mem ∨ ∃ i, s ≤ i ∧ mem' = mem.set i 0) := by
  simp only [strtok, bind, Except.bind, pure, Except.pure] at h
  split at h
  · cases h
  split at h
  · cases h
    exact ⟨le_rfl, .inl rfl⟩
  split at h
  · cases h
  split at h
  · cases h
    exact ⟨by omega, .inl rfl⟩
  split at h
  · cases h
  split at h
  · cases h
    exact ⟨by omega, .inl rfl⟩
  · cases h
    exact ⟨by omega, .inr ⟨_, by omega, rfl⟩⟩

/-- A string that ends before the position is left alone. -/
theorem strtok_keeps {q : Option ℕ} {mem' : List UInt8} {s' p : ℕ} {w : Str}
    (h : strtok mem s = .ok (q, mem', s')) (hw : cstr mem p = some w) (hp : p + w.length ≤ s) :
    cstr mem' p = some w := by
  obtain ⟨-, rfl | ⟨i, hi, rfl⟩⟩ := strtok_cases h
  · exact hw
  · exact cstr_set_zero hw (by omega)

/-- A part is terminated by writing over the byte behind it. -/
theorem cstr_terminate {w l : List UInt8} {b : UInt8} (hw : 0 ∉ w)
    (h : mem.drop s = w ++ b :: l) : cstr (mem.set (s + w.length) 0) s = some w := by
  have hdrop : (mem.set (s + w.length) 0).drop s = w ++ 0 :: l := by
    rw [List.drop_set, if_neg (by omega), Nat.add_sub_cancel_left, h, List.set_append,
      if_neg (Nat.lt_irrefl _), Nat.sub_self, List.set_cons_zero]
  exact cstr_of_drop hw hdrop

/-- Nothing is found in a string of delimiters. -/
theorem strtok_none (h : cstr mem s = some t) (ht : (nextPart t).1 = []) :
    ∃ s', strtok mem s = .ok (none, mem, s') ∧ cstr mem s' = some [] := by
  obtain ⟨h0, tail, hdrop⟩ := cstr_eq_some_iff.1 h
  have hall : t.takeWhile (· = colon) = t := by
    have hsplit := List.takeWhile_append_dropWhile (p := (· = colon)) (l := t)
    rwa [nextPart_eq_nil.1 ht, List.append_nil] at hsplit
  have hspn := strspn_of_drop hdrop
  rw [hall] at hspn
  have hend := loadByte_of_drop (drop_add hdrop)
  by_cases hnil : t = []
  · subst hnil
    have hb := loadByte_of_drop hdrop
    refine ⟨s, ?_, h⟩
    rw [strtok, hb, ok_bind, if_pos rfl]
    rfl
  · obtain ⟨b, hb, hb0⟩ := loadByte_append hdrop hnil h0
    refine ⟨s + t.length, ?_, cstr_of_drop List.not_mem_nil (drop_add hdrop)⟩
    simp only [strtok, hb, ok_bind, hb0, ↓reduceIte, hspn, hend]
    rfl

/-- A part `w` between the delimiters `cs` and the rest `r` of a string is found and terminated; what
is left is the rest without its first delimiter. -/
theorem strtok_part {cs w r tail : List UInt8} (h0 : 0 ∉ cs ++ (w ++ r)) (hw : w ≠ [])
    (hr : ∀ d r', r = d :: r' → d = colon) (h : mem.drop s = cs ++ (w ++ (r ++ 0 :: tail)))
    (hspn : strspn mem s = cs.length) (hcspn : strcspn mem (s + cs.length) = w.length) :
    ∃ p mem' s' r', strtok mem s = .ok (some p, mem', s') ∧ cstr mem' p = some w ∧
      p + w.length ≤ s' ∧ cstr mem' s' = some r' ∧ nextPart r' = nextPart r := by
  simp only [List.mem_append, not_or] at h0
  obtain ⟨hcs0, hw0, hr0⟩ := h0
  have hdropw : mem.drop (s + cs.length) = w ++ (r ++ 0 :: tail) := drop_add h
  have hdropr : mem.drop (s + cs.length + w.length) = r ++ 0 :: tail := drop_add hdropw
  obtain ⟨b, hb, hb0⟩ : ∃ b, loadByte mem s = .ok b ∧ b ≠ 0 := by
    refine loadByte_append (w := cs ++ w) (by rw [h, List.append_assoc]) (by simp [hw]) ?_
    simp [hcs0, hw0]
  obtain ⟨c, hc, hc0⟩ := loadByte_append hdropw hw hw0
  refine ⟨s + cs.length, ?_⟩
  simp only [strtok, hb, ok_bind, hb0, ↓reduceIte, hspn, hc, hc0, hcspn]
  cases r with
  | nil =>
    have hend := loadByte_of_drop hdropr
    refine ⟨mem, s + cs.length + w.length, [], ?_, cstr_of_drop hw0 hdropw, le_rfl,
      cstr_of_drop List.not_mem_nil hdropr, rfl⟩
    rw [hend]
    rfl
  | cons d r =>
    have hend := loadByte_of_drop hdropr
    obtain rfl := hr d r rfl
    have hrest : (mem.set (s + cs.length + w.length) 0).drop (s + cs.length + w.length + 1) =
        r ++ 0 :: tail := by
      rw [List.drop_set_of_lt (Nat.lt_succ_self _)]
      exact drop_add (x := [colon]) hdropr
    refine ⟨mem.set (s + cs.length + w.length) 0, s + cs.length + w.length + 1, r, ?_,
      cstr_terminate hw0 hdropw, by omega,
      cstr_of_drop (fun hm => hr0 (List.mem_cons_of_mem colon hm)) hrest,
      (nextPart_colon r).symm⟩
    rw [hend]
    rfl

/-- **What `strtok` finds and leaves**: the next part, terminated, and a string with the same parts
as the rest. -/
theorem strtok_spec (h : cstr mem s = some t) (ht : (nextPart t).1 ≠ []) :
    ∃ p mem' s' r, strtok mem s = .ok (some p, mem', s') ∧ cstr mem' p = some (nextPart t).1 ∧
      p + (nextPart t).1.length ≤ s' ∧ cstr mem' s' = some r ∧
      nextPart r = nextPart (nextPart t).2 := by
  obtain ⟨h0, tail, hdrop⟩ := cstr_eq_some_iff.1 h
  have hsplit : t.takeWhile (· = colon) ++ ((nextPart t).1 ++ (nextPart t).2) = t := by
    rw [nextPart_append, List.takeWhile_append_dropWhile]
  have hdrop' : mem.drop s =
      t.takeWhile (· = colon) ++ (t.dropWhile (· = colon) ++ 0 :: tail) := by
    rw [← List.append_assoc, List.takeWhile_append_dropWhile, hdrop]
  have hcspn := strcspn_of_drop (fun hm => h0 ((List.dropWhile_suffix _).subset hm))
    (drop_add hdrop')
  rw [← nextPart_append, List.append_assoc] at hdrop'
  exact strtok_part (by rwa [hsplit]) ht (fun d r => eq_colon_of_nextPart) hdrop'
    (strspn_of_drop hdrop) hcspn

/-- The function goes on from any string. -/
theorem exists_strtok (h : cstr mem s = some t) :
    ∃ q mem' s', strtok mem s = .ok (q, mem', s') := by
  by_cases ht : (nextPart t).1 = []
  · obtain ⟨s', hs', -⟩ := strtok_none h ht
    exact ⟨none, mem, s', hs'⟩
  · obtain ⟨p, mem', s', -, hs', -⟩ := strtok_spec h ht
    exact ⟨some p, mem', s', hs'⟩

end Strtok

/-! ### The routes through the function -/

section Routes

variable {stack : ℕ → UInt8} {addr : Str}

theorem splitLoop_none {n i save save' : ℕ} {q : Option ℕ} {mem mem' : List UInt8} {ret : SplitRet}
    (h : strtok mem save = .ok (none, mem', save')) :
    splitLoop (n + 1) i q mem save ret = .ok (mem', ret.set i (some q)) := by
  rw [splitLoop, h]
  rfl

theorem splitLoop_some {n i p save save' : ℕ} {q : Option ℕ} {mem mem' : List UInt8}
    {ret : SplitRet} (h : strtok mem save = .ok (some p, mem', save')) :
    splitLoop (n + 1) i q mem save ret =
      splitLoop n (i + 1) (some p) mem' save' (ret.set i (some q)) := by
  rw [splitLoop, h]
  rfl

/-- The last round keeps what it found, whatever the call behind it finds. -/
theorem splitLoop_one {i save save' : ℕ} {q o : Option ℕ} {mem mem' : List UInt8} {ret : SplitRet}
    (h : strtok mem save = .ok (o, mem', save')) :
    splitLoop 1 i q mem save ret = .ok (mem', ret.set i (some q)) := by
  cases o with
  | none => exact splitLoop_none h
  | some p => exact splitLoop_some h

theorem splitString_of_cstr {mem : List UInt8} {ret : SplitRet} {i p : ℕ} {w : Str}
    (hret : ret[i]? = some (some (some p))) (h : cstr mem p = some w) :
    splitString mem ret i = .ok w := by
  simp only [splitString, hret, h]

/-- Behind the last part there is no other. -/
theorem part_one_eq_nil (h : part 0 addr = []) : part 1 addr = [] := by
  have happ := nextPart_append addr
  rw [nextPart_eq_nil.1 h] at happ
  have hrest : (nextPart addr).2 = [] := (List.append_eq_nil_iff.1 happ).2
  simp only [part, hrest]
  rfl

/-- An argument that fits is copied. -/
theorem strcpy_addr (stack : ℕ → UInt8) (haddr : 0 ∉ addr) (hlen : addr.length < 100) :
    ∃ mem, strcpy ((List.range 100).map stack) 0 addr = some mem ∧ cstr mem 0 = some addr := by
  refine ⟨_, strcpy_eq_some (by simp; omega), cstr_of_readAt haddr ?_⟩
  have hread : readAt (writeAt ((List.range 100).map stack) 0 (addr ++ [0])) 0
      (addr ++ [0]).length = addr ++ [0] := readAt_writeAt (addr ++ [0]) (Nat.zero_le _)
  rwa [List.length_append] at hread

/-- A longer one is copied past the end of `addr_arr`. -/
theorem parseHostPort_long (hlen : 100 ≤ addr.length) :
    parseHostPort stack addr = .error .outside := by
  have hcpy : strcpy ((List.range 100).map stack) 0 addr = none :=
    if_neg (by simp; omega)
  rw [parseHostPort, hcpy]
  rfl

/-- Without a part, the host is made of the null pointer. -/
theorem parseHostPort_none (haddr : 0 ∉ addr) (hlen : addr.length < 100)
    (h₀ : part 0 addr = []) : parseHostPort stack addr = .error .nullString := by
  obtain ⟨mem, hcpy, hmem⟩ := strcpy_addr stack haddr hlen
  obtain ⟨s₁, hs₁, hmem₁⟩ := strtok_none hmem h₀
  obtain ⟨s₂, hs₂, -⟩ := strtok_none hmem₁ rfl
  simp only [parseHostPort, hcpy, hs₁, ok_bind, splitLoop_none hs₂]
  rfl

/-- With a single part, the port is made of an entry that was not assigned. -/
theorem parseHostPort_one (haddr : 0 ∉ addr) (hlen : addr.length < 100) (h₀ : part 0 addr ≠ [])
    (h₁ : part 1 addr = []) : parseHostPort stack addr = .error .unassigned := by
  obtain ⟨mem, hcpy, hmem⟩ := strcpy_addr stack haddr hlen
  obtain ⟨p, mem₁, s₁, r, hs₁, hp, -, hr, hnext⟩ := strtok_spec hmem h₀
  obtain ⟨s₂, hs₂, -⟩ := strtok_none hr (by rw [hnext]; exact h₁)
  simp only [parseHostPort, hcpy, hs₁, ok_bind, splitLoop_none hs₂]
  rw [splitString_of_cstr rfl hp]
  rfl

/-- **With two parts or more, the first two are the host and the port.** -/
theorem parseHostPort_two (haddr : 0 ∉ addr) (hlen : addr.length < 100) (h₁ : part 1 addr ≠ []) :
    parseHostPort stack addr = .ok (part 0 addr, uint32 (atoi (part 1 addr))) := by
  obtain ⟨mem, hcpy, hmem⟩ := strcpy_addr stack haddr hlen
  obtain ⟨p, mem₁, s₁, r, hs₁, hp, hle, hr, hnext⟩ :=
    strtok_spec hmem fun h₀ => h₁ (part_one_eq_nil h₀)
  obtain ⟨q, mem₂, s₂, r', hs₂, hq, hle', hr', -⟩ := strtok_spec hr (by rw [hnext]; exact h₁)
  obtain ⟨o, mem₃, s₃, hs₃⟩ := exists_strtok hr'
  -- the calls that follow leave the two parts alone
  have hp₃ : cstr mem₃ p = some (part 0 addr) :=
    strtok_keeps hs₃ (strtok_keeps hs₂ hp hle) (hle.trans (strtok_cases hs₂).1)
  rw [hnext] at hq hle'
  have hq₃ : cstr mem₃ q = some (part 1 addr) := strtok_keeps hs₃ hq hle'
  simp only [parseHostPort, hcpy, hs₁, ok_bind, splitLoop_some hs₂, splitLoop_one hs₃]
  rw [splitString_of_cstr rfl hp₃, splitString_of_cstr rfl hq₃]
  rfl

end Routes

/-! ### Ports -/

/-- The numbers that are taken for port 0, by sign and value: the multiples of `2 ^ 32` and the ones
below the least `long`, but not the ones above the greatest. -/
def ZeroNumber : Bool × ℕ → Prop
  | (true, v) => v % 2 ^ 32 = 0 ∨ 2 ^ 63 ≤ v
  | (false, v) => v % 2 ^ 32 = 0 ∧ v < 2 ^ 63

/-- The strings that are taken for port 0. -/
theorem atoi_eq_zero_iff {s : Str} : uint32 (atoi s) = 0 ↔ ZeroNumber (leadingNumber s) := by
  rw [uint32, atoi, int32_emod, strtol]
  cases hn : leadingNumber s with
  | mk neg v =>
    cases neg with
    | true =>
      simp only [ZeroNumber, ↓reduceIte]
      omega
    | false =>
      simp only [ZeroNumber, Bool.false_eq_true, ↓reduceIte]
      omega

section Digits

variable {ds : Str}

/-- A digit is no white space, no sign and no delimiter. -/
theorem of_isDigit {b : UInt8} (h : isDigit b) :
    isSpace b = false ∧ b ≠ 45 ∧ b ≠ 43 ∧ b ≠ colon := by
  simp only [isDigit, Bool.and_eq_true, decide_eq_true_eq, UInt8.le_iff_toNat_le,
    UInt8.reduceToNat] at h
  refine ⟨?_, ?_, ?_, ?_⟩
  · rw [Bool.eq_false_iff]
    simp only [isSpace, Bool.or_eq_true, Bool.and_eq_true, decide_eq_true_eq, ne_eq,
      UInt8.le_iff_toNat_le, ← UInt8.toNat_inj, UInt8.reduceToNat]
    omega
  all_goals
    rintro rfl
    exact absurd h (by decide)

theorem leadingNumber_digits (h : ∀ b ∈ ds, isDigit b) :
    leadingNumber ds = (false, decimalValue ds) := by
  have hsign : splitSign ds = (false, ds) := by
    cases ds with
    | nil => rfl
    | cons b ds =>
      obtain ⟨hb, h45, h43, -⟩ := of_isDigit (h b List.mem_cons_self)
      rw [splitSign, List.dropWhile_cons_of_neg (by simp [hb])]
      split
      · next heq => exact absurd (List.cons.inj heq).1 h45
      · next heq => exact absurd (List.cons.inj heq).1 h43
      · rfl
  rw [leadingNumber, hsign, List.takeWhile_eq_self_iff.2 h]

/-- A decimal number in the range of the ports is read as it is. -/
theorem uint32_atoi_digits (h : ∀ b ∈ ds, isDigit b) (hp : decimalValue ds ≤ 65535) :
    uint32 (atoi ds) = decimalValue ds := by
  rw [uint32, atoi, int32_emod, strtol, leadingNumber_digits h]
  simp only [Bool.false_eq_true, ↓reduceIte]
  omega

end Digits

/-! ### Addresses -/

/-- The string is of the form `host:port`, with a decimal number for the port. -/
def HostPort (addr host : Str) (port : ℕ) : Prop :=
  ∃ ds, addr = host ++ colon :: ds ∧ host ≠ [] ∧ colon ∉ host ∧ ds ≠ [] ∧
    (∀ b ∈ ds, isDigit b) ∧ decimalValue ds = port ∧ 1 ≤ port ∧ port ≤ 65535

/-- The argument is an address that the function returns, or one that `main` rejects. -/
def ParsesOrRejects (stack : ℕ → UInt8) (addr : Str) : Prop :=
  ∃ host port, parseHostPort stack addr = .ok (host, port) ∧
    (HostPort addr host port ∨ mainRejects host port)

/-- The condition for it: the argument fits into `addr_arr` and has two parts, and it is an address or
its second part is taken for port 0. -/
structure TwoParts (addr : Str) : Prop where
  fits : addr.length < 100
  second : part 1 addr ≠ []
  form : (∃ host port, HostPort addr host port) ∨ ZeroNumber (leadingNumber (part 1 addr))

section Addresses

variable {stack : ℕ → UInt8} {addr host : Str} {port : ℕ}

/-- The parts of an address are its host and its port. -/
theorem HostPort.parts (h : HostPort addr host port) :
    part 0 addr = host ∧ part 1 addr ≠ [] ∧ uint32 (atoi (part 1 addr)) = port := by
  obtain ⟨ds, rfl, hhost, hcolon, hds, hdigit, rfl, -, hle⟩ := h
  have hne : ∀ b ∈ host, b ≠ colon := fun b hb h => hcolon (h ▸ hb)
  have hnext : nextPart (host ++ colon :: ds) = (host, colon :: ds) :=
    nextPart_of_ne hne (fun d r h => (List.cons.inj h).1.symm) hhost
  have hlast : nextPart (colon :: ds) = (ds, []) := by
    have hds' := nextPart_of_ne (r := []) (fun b hb => (of_isDigit (hdigit b hb)).2.2.2)
      (fun d r h => absurd h.symm (List.cons_ne_nil d r)) hds
    rw [List.append_nil] at hds'
    rw [nextPart_colon, hds']
  have h₁ : part 1 (host ++ colon :: ds) = ds := by
    simp only [part, hnext, hlast]
  refine ⟨by simp only [part, hnext], by rwa [h₁], ?_⟩
  rw [h₁, uint32_atoi_digits hdigit hle]

/-- **An address that fits is parsed.** -/
theorem HostPort.parsed (h : HostPort addr host port) (haddr : 0 ∉ addr)
    (hlen : addr.length < 100) : parseHostPort stack addr = .ok (host, port) := by
  obtain ⟨h₀, hne, h₁⟩ := h.parts
  rw [parseHostPort_two haddr hlen hne, h₀, h₁]

/-- **Which arguments are parsed or rejected.** -/
theorem host_port_iff (haddr : 0 ∉ addr) : ParsesOrRejects stack addr ↔ TwoParts addr := by
  constructor
  · rintro ⟨host, port, hparse, h⟩
    have hfits : addr.length < 100 := by
      by_contra hlen
      rw [parseHostPort_long (by omega)] at hparse
      cases hparse
    have hsecond : part 1 addr ≠ [] := by
      intro h₁
      by_cases h₀ : part 0 addr = []
      · rw [parseHostPort_none haddr hfits h₀] at hparse
        cases hparse
      · rw [parseHostPort_one haddr hfits h₀ h₁] at hparse
        cases hparse
    refine ⟨hfits, hsecond, ?_⟩
    rcases h with h | h
    · exact .inl ⟨host, port, h⟩
    · rw [parseHostPort_two haddr hfits hsecond] at hparse
      cases hparse
      -- a host that is returned is not empty, so the port is what `main` rejects
      have h₀ : part 0 addr ≠ [] := fun h₀ => hsecond (part_one_eq_nil h₀)
      simp only [mainRejects, List.isEmpty_eq_false_iff.2 h₀, Bool.false_or,
        decide_eq_true_eq] at h
      exact .inr (atoi_eq_zero_iff.1 h)
  · intro h
    rcases h.form with ⟨host, port, hform⟩ | hzero
    · exact ⟨host, port, hform.parsed haddr h.fits, .inl hform⟩
    · refine ⟨_, _, parseHostPort_two haddr h.fits h.second, .inr ?_⟩
      rw [mainRejects, atoi_eq_zero_iff.2 hzero]
      simp

end Addresses

/-- The address `a:80`. -/
theorem host_port_iff_eighty : ParsesOrRejects (fun _ => 0) [97, 58, 56, 48] := by
  have hdigits : ∀ b ∈ [56, 48], isDigit b :=
    List.forall_mem_cons.2 ⟨rfl, List.forall_mem_singleton.2 rfl⟩
  have hform : HostPort [97, 58, 56, 48] [97] 80 :=
    ⟨[56, 48], rfl, by simp, by decide, by simp, hdigits, rfl, by omega, by omega⟩
  exact (host_port_iff (by decide)).2 ⟨by decide, hform.parts.2.1, .inl ⟨[97], 80, hform⟩⟩

/-- The argument `abc` has no colon: the loop is left before the second entry is assigned. -/
theorem host_port_unassigned :
    parseHostPort (fun _ => 0) [97, 98, 99] = .error .unassigned ∧
      ¬ ParsesOrRejects (fun _ => 0) [97, 98, 99] := by
  have hparse : parseHostPort (fun _ => 0) [97, 98, 99] = .error .unassigned :=
    parseHostPort_one (by decide) (by decide) (List.cons_ne_nil 97 [98, 99]) rfl
  refine ⟨hparse, ?_⟩
  rintro ⟨host, port, h, -⟩
  rw [hparse] at h
  cases h

end ProxySocket

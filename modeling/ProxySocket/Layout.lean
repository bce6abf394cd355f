/-
**Filling in a struct.**

A struct is filled in by assignments, one after the other: a number is stored into a field in one of the
byte orders, or a string is copied into one with `strcpy`.  What was in the memory before stays where no
assignment goes.  When every value fits its field, and no two fields overlap, the struct holds all of them
at the end, whatever the order and whatever was there.

Nothing in this module mentions a particular struct.

Main definitions:

* `Assign`, `Assign.run`, `assignAll` — one assignment, and several;
* `Assign.Fits`, `Field.Apart` — a value fits, and two fields do not overlap;
* `Assign.Kept` — the field holds what was assigned.

Main results:

* `Assign.run_kept` — what one assignment leaves;
* `assignAll_kept` — **a struct holds all that was assigned**.
-/

import ProxySocket.TunnelMsg

set_option relaxedAutoImplicit false
set_option autoImplicit false

namespace ProxySocket

/-! ### Assignments -/

/-- An assignment to a field. -/
inductive Assign
  /-- `strcpy` of a string -/
  | copy (f : Field) (s : Str)
  /-- a number, in this order of bytes -/
  | store (f : Field) (order : Endian) (n : ℕ)

namespace Assign

def field : Assign → Field
  | copy f _ | store f _ _ => f

/-- The struct after an assignment. -/
def run (mem : List UInt8) : Assign → Option (List UInt8)
  | copy f s => strcpy mem f.off s
  | store f order n => some (writeAt mem f.off (order.encode f.size n))

/-- The value and its terminator fit into the field, which is in the struct. -/
def Fits (size : ℕ) (a : Assign) : Prop :=
  a.field.off + a.field.size ≤ size ∧
    match a with
    | copy f s => f.Takes s ∧ 0 ∉ s
    | store f _ n => n < 256 ^ f.size

/-- The field holds the value. -/
def Kept (mem : List UInt8) : Assign → Prop
  | copy f s => f.Holds mem s
  | store f order n => order.decode (readAt mem f.off f.size) = n

end Assign

/-- The struct after the assignments. -/
def assignAll (as : List Assign) (mem : List UInt8) : Option (List UInt8) :=
  as.foldlM (fun mem a => a.run mem) mem

/-- The fields do not overlap. -/
def Field.Apart (f g : Field) : Prop := f.off + f.size ≤ g.off ∨ g.off + g.size ≤ f.off

instance (f g : Field) : Decidable (f.Apart g) := inferInstanceAs (Decidable (_ ∨ _))

/-! ### What they leave -/

namespace Assign

variable {size : ℕ} {a : Assign} {mem mem' : List UInt8}

/-- **What one assignment leaves**: its value, and the fields apart from its own as they were. -/
theorem run_kept (ha : a.Fits size) (hmem : mem.length = size) :
    ∃ mem', a.run mem = some mem' ∧ mem'.length = size ∧ a.Kept mem' ∧
      ∀ g : Field, g.Apart a.field → readAt mem' g.off g.size = readAt mem g.off g.size := by
  obtain ⟨hin, ha⟩ := ha
  cases a with
  | copy f s =>
      obtain ⟨htakes, -⟩ := ha
      have hin' : f.off + f.size ≤ size := hin
      have hfit : f.off + s.length + 1 ≤ mem.length := by
        rw [Field.Takes] at htakes
        omega
      have hrun := strcpy_eq_some hfit
      exact ⟨_, hrun, (length_strcpy hrun).trans hmem, .of_strcpy hrun,
        fun g hg => readAt_strcpy hrun htakes hg⟩
  | store f order n =>
      have hin' : f.off + f.size ≤ mem.length := hmem ▸ hin
      have hlen : (order.encode f.size n).length = f.size := Endian.length_encode order f.size n
      refine ⟨_, rfl, ?_, ?_, fun g hg => ?_⟩
      · rw [length_writeAt (by rw [hlen]; exact hin'), hmem]
      · have hread := readAt_writeAt (order.encode f.size n) (show f.off ≤ mem.length by omega)
        rw [hlen] at hread
        rw [Kept, hread, Endian.decode_encode, Nat.mod_eq_of_lt ha]
      · exact readAt_writeAt_of_disjoint (by omega) (by rw [hlen]; exact hg)

/-- A field that stays as it is keeps its value. -/
theorem Kept.of_readAt (h : a.Kept mem) (ha : a.Fits size)
    (hread : readAt mem' a.field.off a.field.size = readAt mem a.field.off a.field.size) :
    a.Kept mem' := by
  cases a with
  | copy f s =>
      obtain ⟨-, htakes, -⟩ := ha
      have hle : s.length + 1 ≤ f.size := htakes
      have hread' := congrArg (List.take (s.length + 1)) hread
      simp only [field, readAt, List.take_take, Nat.min_eq_left hle] at hread'
      exact hread'.trans h
  | store f order n => exact (congrArg order.decode hread).trans h

/-- The string that was copied is read. -/
theorem Kept.cstr {f : Field} {s : Str} (h : (copy f s).Kept mem) (ha : (copy f s).Fits size) :
    cstr mem f.off = some s := Field.Holds.cstr h ha.2.2

end Assign

/-- **A struct holds all that was assigned**, in any order and over any memory, when every value fits and
the fields do not overlap; nothing else changes. -/
theorem assignAll_kept {size : ℕ} {as : List Assign} (hfits : ∀ a ∈ as, a.Fits size)
    (hapart : as.Pairwise fun a b => a.field.Apart b.field) {mem : List UInt8}
    (hmem : mem.length = size) :
    ∃ mem', assignAll as mem = some mem' ∧ mem'.length = size ∧ (∀ a ∈ as, a.Kept mem') ∧
      ∀ g : Field, (∀ a ∈ as, g.Apart a.field) → readAt mem' g.off g.size = readAt mem g.off g.size := by
  induction as generalizing mem with
  | nil => exact ⟨mem, rfl, hmem, fun _ ha => absurd ha List.not_mem_nil, fun _ _ => rfl⟩
  | cons a as ih =>
      obtain ⟨hfirst, hrest⟩ := List.pairwise_cons.1 hapart
      obtain ⟨mem₁, hrun, hlen₁, hkept, hother⟩ := Assign.run_kept (hfits a List.mem_cons_self) hmem
      obtain ⟨mem', hall, hlen, hkept', hother'⟩ :=
        ih (fun b hb => hfits b (List.mem_cons_of_mem a hb)) hrest hlen₁
      refine ⟨mem', ?_, hlen, ?_, ?_⟩
      · rw [assignAll, List.foldlM_cons, hrun]
        exact hall
      · intro b hb
        rcases List.mem_cons.1 hb with rfl | hb
        · -- the later assignments go to other fields
          exact hkept.of_readAt (hfits b List.mem_cons_self) (hother' b.field hfirst)
        · exact hkept' b hb
      · intro g hg
        rw [hother' g fun b hb => hg b (List.mem_cons_of_mem a hb), hother g (hg a List.mem_cons_self)]

end ProxySocket

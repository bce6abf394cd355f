/-
**Ordered maps, their iterators, and a loop that erases while it iterates.**

A map is the list of its entries in the order of the keys, and an iterator splits this list in two.
The loop here calls a function for each entry that it comes to.  When that says so it erases the entry,
which moves the iterator to the next one, and then takes a step back, so that the step forward at the
end of the round leads to that next entry.

Nothing in this module mentions a particular program.

Main definitions:

* `OrderedMap` — a map whose keys come in a strict order;
* `Iter` — the entries before an iterator, and those from it on;
* `eraseLoop`, `OrderedMap.eraseWhile` — the loop, with what was seen of its rounds and how it ended;
* `firstErased` — the first of several entries is to be erased.

Main results:

* `eraseLoop_begin` — **how the loop ends**: in a step back from the first position exactly when the
  first of several entries is erased;
* `eraseLoop_finished` — a loop that ends well has called the function for each entry, in order.
-/

import Mathlib.Order.Lattice
import Mathlib.Data.List.Nodup
import Mathlib.Tactic.Common

set_option relaxedAutoImplicit false
set_option autoImplicit false

/-! ### Maps -/

/-- A map from `κ` to `β`, by its entries in the order of the keys. -/
@[ext] structure OrderedMap (κ β : Type*) [LinearOrder κ] where
  entries : List (κ × β)
  sorted : entries.Pairwise fun a b => a.1 < b.1

namespace OrderedMap

variable {κ β : Type*} [LinearOrder κ]

/-- The keys, from the least to the greatest. -/
def keys (m : OrderedMap κ β) : List κ := m.entries.map Prod.fst

/-- The map without entries. -/
def empty : OrderedMap κ β where
  entries := []
  sorted := .nil

/-- The value at a key. -/
def get? (m : OrderedMap κ β) (k : κ) : Option β :=
  (m.entries.find? fun a => a.1 = k).map Prod.snd

/-- The assignment of a value to a key, which may have had another one. -/
def insert (m : OrderedMap κ β) (k : κ) (v : β) : OrderedMap κ β where
  entries := m.entries.filter (·.1 < k) ++ (k, v) :: m.entries.filter (k < ·.1)
  sorted := by
    rw [List.pairwise_append, List.pairwise_cons]
    refine ⟨m.sorted.filter _, ⟨?_, m.sorted.filter _⟩, ?_⟩
    · intro b hb
      exact of_decide_eq_true (List.mem_filter.1 hb).2
    · intro a ha b hb
      have hak : a.1 < k := of_decide_eq_true (List.mem_filter.1 ha).2
      rcases List.mem_cons.1 hb with rfl | hb
      · exact hak
      · exact hak.trans (of_decide_eq_true (List.mem_filter.1 hb).2)

/-- The map without a key. -/
def erase (m : OrderedMap κ β) (k : κ) : OrderedMap κ β where
  entries := m.entries.filter (·.1 ≠ k)
  sorted := m.sorted.filter _

/-- The map with the value at a key changed. -/
def modify (m : OrderedMap κ β) (k : κ) (f : β → β) : OrderedMap κ β where
  entries := m.entries.map fun a => (a.1, if a.1 = k then f a.2 else a.2)
  sorted := List.pairwise_map.2 m.sorted

variable {m : OrderedMap κ β} {k : κ} {v : β} {a : κ × β}

theorem mem_insert : a ∈ (m.insert k v).entries ↔ a = (k, v) ∨ a ∈ m.entries ∧ a.1 ≠ k := by
  simp only [insert, List.mem_append, List.mem_cons, List.mem_filter, decide_eq_true_eq]
  constructor
  · rintro (⟨hm, hlt⟩ | rfl | ⟨hm, hlt⟩)
    · exact .inr ⟨hm, hlt.ne⟩
    · exact .inl rfl
    · exact .inr ⟨hm, hlt.ne'⟩
  · rintro (rfl | ⟨hm, hne⟩)
    · exact .inr (.inl rfl)
    · rcases lt_or_gt_of_ne hne with hlt | hgt
      · exact .inl ⟨hm, hlt⟩
      · exact .inr (.inr ⟨hm, hgt⟩)

/-- What is in a map after a list of values was inserted, each under its own key. -/
theorem mem_foldl_insert {key : β → κ} {l : List β}
    (ha : a ∈ (l.foldl (fun m v => m.insert (key v) v) m).entries) : a ∈ m.entries ∨ a.2 ∈ l := by
  induction l generalizing m with
  | nil => exact .inl ha
  | cons v l ih =>
      rcases ih ha with hm | hl
      · rcases mem_insert.1 hm with rfl | ⟨hm, -⟩
        · exact .inr List.mem_cons_self
        · exact .inl hm
      · exact .inr (List.mem_cons_of_mem v hl)

theorem mem_erase : a ∈ (m.erase k).entries ↔ a ∈ m.entries ∧ a.1 ≠ k := by
  simp only [erase, List.mem_filter, decide_eq_true_eq]

theorem mem_modify {f : β → β} : a ∈ (m.modify k f).entries ↔
    ∃ b ∈ m.entries, a = (b.1, if b.1 = k then f b.2 else b.2) := by
  simp only [modify, List.mem_map, eq_comm]

theorem mem_of_get? (h : m.get? k = some v) : (k, v) ∈ m.entries := by
  obtain ⟨a, ha, rfl⟩ := Option.map_eq_some_iff.1 h
  have hk : a.1 = k := by simpa using List.find?_some ha
  rw [← hk]
  exact List.mem_of_find?_eq_some ha

theorem keys_sorted (m : OrderedMap κ β) : m.keys.Pairwise (· < ·) := List.pairwise_map.2 m.sorted

/-- There is one entry for a key. -/
theorem eq_of_mem {b : κ × β} (ha : a ∈ m.entries) (hb : b ∈ m.entries) (h : a.1 = b.1) : a = b := by
  have hnd : m.keys.Nodup := m.keys_sorted.imp ne_of_lt
  exact List.inj_on_of_nodup_map hnd ha hb h

end OrderedMap

/-! ### Iterators -/

/-- An iterator: the entries before it, the nearest first, and those from it on. -/
structure Iter (α : Type*) where
  before : List α
  after : List α

namespace Iter

variable {α : Type*}

def begin (l : List α) : Iter α := ⟨[], l⟩

/-- `++` -/
def next : Iter α → Option (Iter α)
  | ⟨_, []⟩ => none
  | ⟨before, a :: after⟩ => some ⟨a :: before, after⟩

/-- `--` -/
def prev : Iter α → Option (Iter α)
  | ⟨[], _⟩ => none
  | ⟨a :: before, after⟩ => some ⟨before, a :: after⟩

end Iter

/-! ### The loop -/

/-- What a round does with the entry it comes to. -/
structure Visit (α ε : Type*) where
  value : α
  erased : Bool
  /-- what is seen of the round -/
  events : List ε

/-- How a loop ends. -/
inductive LoopEnd (α : Type*)
  /-- at the end of the map, with what is left in it -/
  | finished (rest : α)
  /-- in a step back from the first position -/
  | beforeBegin
  /-- in a call that does not return -/
  | noReturn
deriving DecidableEq, Repr

/-- The same end of another loop. -/
def LoopEnd.map {α β : Type*} (f : α → β) : LoopEnd α → LoopEnd β
  | .finished rest => .finished (f rest)
  | .beforeBegin => .beforeBegin
  | .noReturn => .noReturn

section Loop

variable {α ε : Type*}

/-- At most `fuel` rounds of a loop that goes through a map and erases entries. -/
def eraseLoop (visit : α → Option (Visit α ε)) : ℕ → Iter α → Option (List ε × LoopEnd (List α))
  | 0, _ => none
  | _ + 1, ⟨before, []⟩ => some ([], .finished before.reverse)
  | fuel + 1, ⟨before, a :: after⟩ =>
      match visit a with
      | none => some ([], .noReturn)
      | some v =>
          if v.erased then
            -- the iterator that `erase` returns
            match after with
            | [] => some (v.events, .finished before.reverse)
            | b :: after =>
                match (⟨before, b :: after⟩ : Iter α).prev with
                | none => some (v.events, .beforeBegin)
                | some it =>
                    it.next.bind fun it => (eraseLoop visit fuel it).map fun r => (v.events ++ r.1, r.2)
          else (eraseLoop visit fuel ⟨v.value :: before, after⟩).map fun r => (v.events ++ r.1, r.2)

/-- The first of several entries is to be erased. -/
def firstErased (visit : α → Option (Visit α ε)) : List α → Bool
  | a :: _ :: _ => (visit a).any Visit.erased
  | _ => false

/-- What is seen of the round for an entry. -/
def eventsAt (visit : α → Option (Visit α ε)) (a : α) : List ε := (visit a).elim [] Visit.events

/-- What the round for an entry leaves of it. -/
def keptAt (visit : α → Option (Visit α ε)) (a : α) : Option α :=
  (visit a).bind fun v => if v.erased then none else some v.value

/-- The entries that the loop comes to, if all calls return. -/
def reached (visit : α → Option (Visit α ε)) (l : List α) : List α :=
  if firstErased visit l then l.take 1 else l

variable {visit : α → Option (Visit α ε)} {before after l : List α} {a : α} {v : Visit α ε}

theorem eraseLoop_nil (fuel : ℕ) :
    eraseLoop visit (fuel + 1) ⟨before, []⟩ = some ([], .finished before.reverse) := rfl

theorem eraseLoop_noReturn (hv : visit a = none) (fuel : ℕ) :
    eraseLoop visit (fuel + 1) ⟨before, a :: after⟩ = some ([], .noReturn) := by
  rw [eraseLoop, hv]

theorem eraseLoop_kept (hv : visit a = some v) (he : v.erased = false) (fuel : ℕ) :
    eraseLoop visit (fuel + 1) ⟨before, a :: after⟩ =
      (eraseLoop visit fuel ⟨v.value :: before, after⟩).map fun r => (v.events ++ r.1, r.2) := by
  rw [eraseLoop, hv]
  simp only [he, Bool.false_eq_true, if_false]

/-- The last entry is erased. -/
theorem eraseLoop_last (hv : visit a = some v) (he : v.erased = true) (fuel : ℕ) :
    eraseLoop visit (fuel + 1) ⟨before, [a]⟩ = some (v.events, .finished before.reverse) := by
  rw [eraseLoop, hv]
  simp only [he, if_true]

/-- The first entry is erased, and others follow. -/
theorem eraseLoop_first (hv : visit a = some v) (he : v.erased = true) (hne : after ≠ [])
    (fuel : ℕ) : eraseLoop visit (fuel + 1) ⟨[], a :: after⟩ = some (v.events, .beforeBegin) := by
  obtain ⟨b, after, rfl⟩ := List.exists_cons_of_ne_nil hne
  rw [eraseLoop, hv]
  simp only [he, if_true, Iter.prev]

/-- An entry between others is erased: the step back and the step forward lead behind it. -/
theorem eraseLoop_between {b : α} (hv : visit a = some v) (he : v.erased = true) (hne : after ≠ [])
    (fuel : ℕ) : eraseLoop visit (fuel + 1) ⟨b :: before, a :: after⟩ =
      (eraseLoop visit fuel ⟨b :: before, after⟩).map fun r => (v.events ++ r.1, r.2) := by
  obtain ⟨c, after, rfl⟩ := List.exists_cons_of_ne_nil hne
  rw [eraseLoop, hv]
  simp only [he, if_true, Iter.prev, Iter.next, Option.bind_some]

theorem keptAt_eq (hv : visit a = some v) :
    keptAt visit a = if v.erased then none else some v.value := by
  rw [keptAt, hv, Option.bind_some]

theorem eventsAt_eq (hv : visit a = some v) : eventsAt visit a = v.events := by
  rw [eventsAt, hv, Option.elim_some]

/-- Behind the first position the loop comes to every entry. -/
theorem eraseLoop_behind {fuel : ℕ} (hb : before ≠ []) (hret : ∀ a ∈ after, (visit a).isSome)
    (hfuel : after.length < fuel) :
    eraseLoop visit fuel ⟨before, after⟩ = some (after.flatMap (eventsAt visit),
      .finished (before.reverse ++ after.filterMap (keptAt visit))) := by
  induction after generalizing before fuel with
  | nil =>
      obtain ⟨fuel, rfl⟩ := Nat.exists_eq_succ_of_ne_zero (Nat.ne_of_gt hfuel)
      rw [eraseLoop_nil, List.flatMap_nil, List.filterMap_nil, List.append_nil]
  | cons a after ih =>
      obtain ⟨fuel, rfl⟩ := Nat.exists_eq_succ_of_ne_zero (Nat.ne_of_gt (Nat.zero_lt_of_lt hfuel))
      obtain ⟨v, hv⟩ := Option.isSome_iff_exists.1 (hret a List.mem_cons_self)
      have hret' : ∀ a ∈ after, (visit a).isSome := fun a ha => hret a (List.mem_cons_of_mem _ ha)
      have hfuel' : after.length < fuel := Nat.lt_of_succ_lt_succ hfuel
      rw [List.flatMap_cons, List.filterMap_cons, eventsAt_eq hv, keptAt_eq hv]
      cases he : v.erased with
      | false =>
          rw [eraseLoop_kept hv he, ih (List.cons_ne_nil _ _) hret' hfuel']
          simp
      | true =>
          by_cases hnil : after = []
          · subst hnil
            rw [eraseLoop_last hv he]
            simp
          · obtain ⟨b, before, rfl⟩ := List.exists_cons_of_ne_nil hb
            rw [eraseLoop_between hv he hnil, ih hb hret' hfuel']
            simp

/-- **How the loop ends**, when all calls return: after a round for every entry, or in a step back
from the first position when the first of several entries is erased. -/
theorem eraseLoop_begin {fuel : ℕ} (hret : ∀ a ∈ l, (visit a).isSome) (hfuel : l.length < fuel) :
    eraseLoop visit fuel (.begin l) = some ((reached visit l).flatMap (eventsAt visit),
      if firstErased visit l then .beforeBegin else .finished (l.filterMap (keptAt visit))) := by
  obtain ⟨fuel, rfl⟩ := Nat.exists_eq_succ_of_ne_zero (Nat.ne_of_gt (Nat.zero_lt_of_lt hfuel))
  cases l with
  | nil => rfl
  | cons a l =>
      obtain ⟨v, hv⟩ := Option.isSome_iff_exists.1 (hret a List.mem_cons_self)
      cases he : v.erased with
      | false =>
          have hfirst : firstErased visit (a :: l) = false := by
            cases l with
            | nil => rfl
            | cons b l => rw [firstErased, hv, Option.any_some, he]
          have hret' : ∀ a ∈ l, (visit a).isSome := fun a ha => hret a (List.mem_cons_of_mem _ ha)
          rw [Iter.begin, eraseLoop_kept hv he,
            eraseLoop_behind (List.cons_ne_nil _ _) hret' (Nat.lt_of_succ_lt_succ hfuel)]
          simp [reached, hfirst, eventsAt_eq hv, keptAt_eq hv, he]
      | true =>
          cases l with
          | nil =>
              rw [Iter.begin, eraseLoop_last hv he]
              simp [reached, firstErased, eventsAt_eq hv, keptAt_eq hv, he]
          | cons b l =>
              have hfirst : firstErased visit (a :: b :: l) = true := by
                rw [firstErased, hv, Option.any_some, he]
              rw [Iter.begin, eraseLoop_first hv he (List.cons_ne_nil _ _)]
              simp [reached, hfirst, eventsAt_eq hv]

/-- A loop that ends well has called the function for every entry from its iterator on. -/
theorem returns_of_finished {fuel : ℕ} {es : List ε}
    (h : eraseLoop visit fuel ⟨before, after⟩ = some (es, .finished l)) :
    ∀ a ∈ after, (visit a).isSome := by
  induction fuel generalizing before after es with
  | zero => exact nomatch h
  | succ fuel ih =>
      cases after with
      | nil => exact fun a ha => absurd ha List.not_mem_nil
      | cons a after =>
          cases hv : visit a with
          | none =>
              rw [eraseLoop_noReturn hv] at h
              exact nomatch h
          | some v =>
              -- what the rest of the loop says of the entries behind
              have hrest : ∀ {before'}, (eraseLoop visit fuel ⟨before', after⟩).map
                  (fun r => (v.events ++ r.1, r.2)) = some (es, .finished l) →
                  ∀ b ∈ a :: after, (visit b).isSome := by
                intro before' h' b hb
                obtain ⟨⟨es', r⟩, hr, heq⟩ := Option.map_eq_some_iff.1 h'
                obtain ⟨-, rfl⟩ := Prod.mk.inj heq
                rcases List.mem_cons.1 hb with rfl | hb
                · rw [hv, Option.isSome_some]
                · exact ih hr b hb
              cases he : v.erased with
              | false => exact hrest (by rwa [eraseLoop_kept hv he] at h)
              | true =>
                  by_cases hnil : after = []
                  · subst hnil
                    intro b hb
                    rw [List.mem_singleton.1 hb, hv, Option.isSome_some]
                  · cases before with
                    | nil =>
                        rw [eraseLoop_first hv he hnil] at h
                        exact nomatch h
                    | cons b before => exact hrest (by rwa [eraseLoop_between hv he hnil] at h)

/-- More rounds change nothing. -/
theorem eraseLoop_mono {fuel : ℕ} {it : Iter α} {r : List ε × LoopEnd (List α)}
    (h : eraseLoop visit fuel it = some r) : eraseLoop visit (fuel + 1) it = some r := by
  induction fuel generalizing it r with
  | zero => exact nomatch h
  | succ fuel ih =>
      obtain ⟨before, after⟩ := it
      cases after with
      | nil => exact h
      | cons a after =>
          cases hv : visit a with
          | none => rwa [eraseLoop_noReturn hv] at h ⊢
          | some v =>
              cases he : v.erased with
              | false =>
                  rw [eraseLoop_kept hv he] at h ⊢
                  obtain ⟨r', hr', rfl⟩ := Option.map_eq_some_iff.1 h
                  rw [ih hr', Option.map_some]
              | true =>
                  by_cases hnil : after = []
                  · subst hnil
                    rwa [eraseLoop_last hv he] at h ⊢
                  · cases before with
                    | nil => rwa [eraseLoop_first hv he hnil] at h ⊢
                    | cons b before =>
                        rw [eraseLoop_between hv he hnil] at h ⊢
                        obtain ⟨r', hr', rfl⟩ := Option.map_eq_some_iff.1 h
                        rw [ih hr', Option.map_some]

theorem eraseLoop_mono_le {fuel fuel' : ℕ} (hle : fuel ≤ fuel') {it : Iter α}
    {r : List ε × LoopEnd (List α)} (h : eraseLoop visit fuel it = some r) :
    eraseLoop visit fuel' it = some r := by
  induction hle with
  | refl => exact h
  | step _ ih => exact eraseLoop_mono ih

/-- **A loop that ends well** has called the function for each entry, in order, has erased what it
was told to and nothing else, and the first of several entries was not erased. -/
theorem eraseLoop_finished {fuel : ℕ} {es : List ε} {l' : List α}
    (h : eraseLoop visit fuel (.begin l) = some (es, .finished l')) :
    (∀ a ∈ l, (visit a).isSome) ∧ firstErased visit l = false ∧
      es = l.flatMap (eventsAt visit) ∧ l' = l.filterMap (keptAt visit) := by
  have hret := returns_of_finished h
  have hmax := eraseLoop_mono_le (Nat.le_max_left fuel (l.length + 1)) h
  have hspec := eraseLoop_begin hret
    (Nat.lt_of_lt_of_le (Nat.lt_succ_self _) (Nat.le_max_right fuel (l.length + 1)))
  rw [hspec] at hmax
  obtain ⟨hes, hend⟩ := Prod.mk.inj (Option.some.inj hmax)
  cases hf : firstErased visit l with
  | true =>
      rw [hf] at hend
      exact nomatch hend
  | false =>
      rw [hf] at hend
      rw [reached, hf] at hes
      exact ⟨hret, rfl, hes.symm, (LoopEnd.finished.inj hend).symm⟩

end Loop

/-! ### The loop over a map -/

namespace OrderedMap

variable {κ β ε : Type*} [LinearOrder κ]

/-- The map with every value changed or taken out. -/
def filterMap (m : OrderedMap κ β) (f : κ → β → Option β) : OrderedMap κ β where
  entries := m.entries.filterMap fun a => (f a.1 a.2).map (Prod.mk a.1)
  sorted := by
    refine List.Pairwise.filterMap _ ?_ m.sorted
    intro a b hab a' ha b' hb
    obtain ⟨v, -, rfl⟩ := Option.map_eq_some_iff.1 ha
    obtain ⟨w, -, rfl⟩ := Option.map_eq_some_iff.1 hb
    exact hab

/-- A round of the loop for an entry, whose key stays. -/
def visitEntry (visit : κ → β → Option (Visit β ε)) (a : κ × β) : Option (Visit (κ × β) ε) :=
  (visit a.1 a.2).map fun v => ⟨(a.1, v.value), v.erased, v.events⟩

/-- What the round for a key leaves of its value. -/
def kept (visit : κ → β → Option (Visit β ε)) (k : κ) (v : β) : Option β := keptAt (visit k) v

omit [LinearOrder κ] in
theorem keptAt_visitEntry (visit : κ → β → Option (Visit β ε)) (a : κ × β) :
    keptAt (visitEntry visit) a = (kept visit a.1 a.2).map (Prod.mk a.1) := by
  unfold kept keptAt visitEntry
  cases visit a.1 a.2 with
  | none => rfl
  | some v =>
      cases he : v.erased with
      | false => simp [he]
      | true => simp [he]

theorem entries_filterMap_kept (m : OrderedMap κ β) (visit : κ → β → Option (Visit β ε)) :
    (m.filterMap (kept visit)).entries = m.entries.filterMap (keptAt (visitEntry visit)) :=
  List.filterMap_congr fun a _ => (keptAt_visitEntry visit a).symm

/-- At most `fuel` rounds of the loop over a map. -/
def eraseWhile (m : OrderedMap κ β) (visit : κ → β → Option (Visit β ε)) (fuel : ℕ) :
    Option (List ε × LoopEnd (OrderedMap κ β)) :=
  match h : eraseLoop (visitEntry visit) fuel (.begin m.entries) with
  | none => none
  | some (es, .noReturn) => some (es, .noReturn)
  | some (es, .beforeBegin) => some (es, .beforeBegin)
  | some (es, .finished l) => some (es, .finished
      { entries := l
        sorted := by
          rw [(eraseLoop_finished h).2.2.2, ← entries_filterMap_kept]
          exact (m.filterMap (kept visit)).sorted })

variable {m m' : OrderedMap κ β} {visit : κ → β → Option (Visit β ε)} {fuel : ℕ} {es : List ε}

omit [LinearOrder κ] in
theorem isSome_visitEntry {a : κ × β} : (visitEntry visit a).isSome = (visit a.1 a.2).isSome := by
  rw [visitEntry, Option.isSome_map]

/-- The loop over a map is that over its entries. -/
theorem map_eraseWhile : (m.eraseWhile visit fuel).map (fun r => (r.1, r.2.map entries)) =
    eraseLoop (visitEntry visit) fuel (.begin m.entries) := by
  unfold eraseWhile
  split <;> (rename_i h; exact h.symm)

theorem eraseWhile_eq_some {r : LoopEnd (OrderedMap κ β)} : m.eraseWhile visit fuel = some (es, r) ↔
    eraseLoop (visitEntry visit) fuel (.begin m.entries) = some (es, r.map entries) := by
  rw [← map_eraseWhile]
  constructor
  · intro h
    rw [h, Option.map_some]
  · intro h
    obtain ⟨⟨es', r'⟩, h', heq⟩ := Option.map_eq_some_iff.1 h
    obtain ⟨rfl, hr⟩ := Prod.mk.inj heq
    rw [h']
    cases r' with
    | finished m₁ =>
        cases r with
        | finished m₂ => rw [OrderedMap.ext (LoopEnd.finished.inj hr)]
        | _ => exact nomatch hr
    | beforeBegin =>
        cases r with
        | beforeBegin => rfl
        | _ => exact nomatch hr
    | noReturn =>
        cases r with
        | noReturn => rfl
        | _ => exact nomatch hr

/-- **How the loop over a map ends**, when all calls return. -/
theorem eraseWhile_eq (hret : ∀ a ∈ m.entries, (visit a.1 a.2).isSome)
    (hfuel : m.entries.length < fuel) :
    m.eraseWhile visit fuel = some
      ((reached (visitEntry visit) m.entries).flatMap (eventsAt (visitEntry visit)),
        if firstErased (visitEntry visit) m.entries then .beforeBegin
        else .finished (m.filterMap (kept visit))) := by
  rw [eraseWhile_eq_some, eraseLoop_begin
    (fun a ha => by rw [isSome_visitEntry]; exact hret a ha) hfuel]
  split
  · rfl
  · rw [LoopEnd.map, entries_filterMap_kept]

/-- **A loop over a map that ends well.** -/
theorem eraseWhile_finished (h : m.eraseWhile visit fuel = some (es, .finished m')) :
    (∀ a ∈ m.entries, (visit a.1 a.2).isSome) ∧
      firstErased (visitEntry visit) m.entries = false ∧
      es = m.entries.flatMap (eventsAt (visitEntry visit)) ∧ m' = m.filterMap (kept visit) := by
  obtain ⟨hret, hfirst, hes, hl⟩ := eraseLoop_finished (eraseWhile_eq_some.1 h)
  refine ⟨fun a ha => ?_, hfirst, hes, OrderedMap.ext ?_⟩
  · rw [← isSome_visitEntry]
    exact hret a ha
  · rw [entries_filterMap_kept]
    exact hl

end OrderedMap

/-
**Conveyors: what passes through a row of stages, in order.**

A conveyor is a list of stages, and a stage is a list of items.  The first stage holds what has come
out, the last one what has not started yet.  Items move from the front of one stage to the end of the
stage before it, any number at a time, between any two neighbours, and new ones are put at the end of the
last stage.  A pipeline of pipes and sockets is a conveyor, and so is a queue that is served in batches.

Nothing in this module mentions a particular pipeline.

Main definitions:

* `Conveyor.Move`, `Conveyor.Moves` — one piece moves on, or any number of them;
* `Conveyor.feed` — new items at the end of the last stage.

Main results:

* `Conveyor.Moves.flatten_eq` — **whatever moves, the items in all the stages stay the same, in order**;
* `Conveyor.flatten_feed` — what is fed comes last.
-/

import Mathlib.Data.List.Flatten
import Mathlib.Logic.Relation
import Mathlib.Tactic.Common

set_option relaxedAutoImplicit false
set_option autoImplicit false

namespace Conveyor

variable {α : Type*}

/-! ### Moving on -/

/-- A piece moves from the front of a stage to the end of the stage before it. -/
inductive Move : List (List α) → List (List α) → Prop
  | here (out piece rest : List α) (behind : List (List α)) :
      Move (out :: (piece ++ rest) :: behind) ((out ++ piece) :: rest :: behind)
  | later (front : List α) {a b : List (List α)} : Move a b → Move (front :: a) (front :: b)

/-- Any number of pieces move. -/
abbrev Moves : List (List α) → List (List α) → Prop := Relation.ReflTransGen Move

theorem Move.flatten_eq {a b : List (List α)} (h : Move a b) : b.flatten = a.flatten := by
  induction h with
  | here out piece rest behind => simp only [List.flatten_cons, List.append_assoc]
  | later front _ ih => rw [List.flatten_cons, List.flatten_cons, ih]

/-- **Whatever moves, the items in all the stages stay the same**, in order. -/
theorem Moves.flatten_eq {a b : List (List α)} (h : Moves a b) : b.flatten = a.flatten := by
  induction h with
  | refl => rfl
  | tail _ hm ih => rw [hm.flatten_eq, ih]

/-- The first items of a stage move on. -/
theorem Moves.take (out stage : List α) (behind : List (List α)) (n : ℕ) :
    Moves (out :: stage :: behind) ((out ++ stage.take n) :: stage.drop n :: behind) := by
  have h := Move.here out (stage.take n) (stage.drop n) behind
  rw [List.take_append_drop] at h
  exact .single h

theorem Moves.later (front : List α) {a b : List (List α)} (h : Moves a b) :
    Moves (front :: a) (front :: b) := by
  induction h with
  | refl => exact .refl
  | tail _ hm ih => exact ih.tail (.later front hm)

/-- Items pass through a stage: some come in behind its content, and some of it goes out. -/
theorem Moves.through (out stage behind : List α) (rest : List (List α)) (n k : ℕ) :
    Moves (out :: stage :: behind :: rest)
      ((out ++ (stage ++ behind.take n).take k) :: (stage ++ behind.take n).drop k ::
        behind.drop n :: rest) :=
  (Moves.later out (Moves.take stage behind rest n)).trans (Moves.take out _ _ k)

/-! ### Feeding -/

/-- New items are put at the end of the last stage. -/
def feed (xs : List α) : List (List α) → List (List α)
  | [] => [xs]
  | [stage] => [stage ++ xs]
  | stage :: rest => stage :: feed xs rest

theorem flatten_feed (xs : List α) (stages : List (List α)) :
    (feed xs stages).flatten = stages.flatten ++ xs := by
  induction stages with
  | nil => simp [feed]
  | cons stage rest ih =>
      cases rest with
      | nil => simp [feed]
      | cons next rest =>
          rw [feed, List.flatten_cons, ih, List.flatten_cons (l := stage), List.append_assoc]
          exact fun h => nomatch h

end Conveyor

/-
**Labelled transition systems: runs, guarded reachability and simulation.**

A system is an initial state and a partial step function: a label names which party moves and what
its environment answers, and the step is `none` when that move is not possible.  Because the step
is a function of the label, a run is nothing but the list of its labels, and a concrete run can be
evaluated.

Nothing in this module mentions a particular system.

Main definitions:

* `Lts`, `Lts.exec` — a system and the state a list of labels leads to;
* `Lts.Reach` — the states reached by runs all of whose steps satisfy a guard;
* `Lts.AllSteps` — every step of a given run satisfies a condition.

Main results:

* `Lts.Reach.invariant` — **the invariant rule** under a guard;
* `Lts.allSteps_iff` — two step conditions that agree on every state reached by steps satisfying
  the second one are satisfied by the same runs;
* `Lts.trace_iff` — the same for a property of the state reached, when an offending step spoils
  it for good;
* `Lts.since_iff` — a property that some steps bring about and others take away;
* `Lts.Reach.simulate` — **forward simulation** of a guarded system by a relation.
-/

import Mathlib.Data.List.Induction
import Mathlib.Logic.Relation
import Mathlib.Tactic.Common

set_option relaxedAutoImplicit false
set_option autoImplicit false

/-- A labelled transition system with a partial, deterministic step. -/
structure Lts (σ α : Type*) where
  /-- the initial state -/
  init : σ
  /-- the state after the move named by the label, if that move is possible -/
  step : σ → α → Option σ

namespace Lts

variable {σ α : Type*} (M : Lts σ α)

/-! ### Runs -/

/-- The state the run `as` leads to from `s`. -/
def exec : σ → List α → Option σ
  | s, [] => some s
  | s, a :: as => (M.step s a).bind fun s' => exec s' as

@[simp] theorem exec_nil (s : σ) : M.exec s [] = some s := rfl

theorem exec_cons (s : σ) (a : α) (as : List α) :
    M.exec s (a :: as) = (M.step s a).bind fun s' => M.exec s' as := rfl

theorem exec_cons_eq_some {s s'' : σ} {a : α} {as : List α} :
    M.exec s (a :: as) = some s'' ↔ ∃ s', M.step s a = some s' ∧ M.exec s' as = some s'' := by
  rw [exec_cons, Option.bind_eq_some_iff]

theorem exec_append (s : σ) (as bs : List α) :
    M.exec s (as ++ bs) = (M.exec s as).bind fun s' => M.exec s' bs := by
  induction as generalizing s with
  | nil => rfl
  | cons a as ih =>
      rw [List.cons_append, exec_cons, exec_cons, Option.bind_assoc]
      exact Option.bind_congr fun s' _ => ih s'

/-- The same move `n` times, along the states `f 0`, `f 1` and so on. -/
theorem exec_replicate {f : ℕ → σ} {a : α} {n : ℕ}
    (h : ∀ k < n, M.step (f k) a = some (f (k + 1))) :
    M.exec (f 0) (List.replicate n a) = some (f n) := by
  induction n with
  | zero => rfl
  | succ n ih =>
      rw [List.replicate_succ', exec_append, ih fun k hk => h k (Nat.lt_succ_of_lt hk),
        Option.bind_some, exec_cons, h n (Nat.lt_succ_self n)]
      rfl

/-- The states reached from the initial one by steps that all satisfy the guard `g`. -/
inductive Reach (g : σ → α → Prop) : σ → Prop
  | init : Reach g M.init
  | step {s s' : σ} {a : α} : Reach g s → g s a → M.step s a = some s' → Reach g s'

/-- Every step of the run `as` from `s` satisfies `P`. -/
def AllSteps (P : σ → α → Prop) : σ → List α → Prop
  | _, [] => True
  | s, a :: as => P s a ∧ ∀ s', M.step s a = some s' → AllSteps P s' as

variable {M}

/-- What a next state has to satisfy can be decided, since there is at most one. -/
instance decidableForallSome {β : Type*} (o : Option β) (P : β → Prop) [DecidablePred P] :
    Decidable (∀ b, o = some b → P b) :=
  match o with
  | none => .isTrue fun _ h => nomatch h
  | some b => decidable_of_iff (P b) ⟨fun h _ hb => Option.some.inj hb ▸ h, fun h => h b rfl⟩

instance decidableAllSteps {P : σ → α → Prop} [∀ s a, Decidable (P s a)] :
    (s : σ) → (as : List α) → Decidable (M.AllSteps P s as)
  | _, [] => .isTrue trivial
  | _, _ :: as =>
      have : DecidablePred fun s' => M.AllSteps P s' as := fun s' => decidableAllSteps s' as
      inferInstanceAs (Decidable (_ ∧ ∀ s', _ = some s' → _))

theorem AllSteps.mono {P Q : σ → α → Prop} (h : ∀ s a, P s a → Q s a) :
    ∀ {as : List α} {s : σ}, M.AllSteps P s as → M.AllSteps Q s as
  | [], _, _ => trivial
  | _ :: _, _, ⟨h₀, h₁⟩ => ⟨h _ _ h₀, fun s' hs => AllSteps.mono h (h₁ s' hs)⟩

theorem AllSteps.and {P Q : σ → α → Prop} :
    ∀ {as : List α} {s : σ}, M.AllSteps P s as → M.AllSteps Q s as →
      M.AllSteps (fun s a => P s a ∧ Q s a) s as
  | [], _, _, _ => trivial
  | _ :: _, _, ⟨hP, hP'⟩, ⟨hQ, hQ'⟩ => ⟨⟨hP, hQ⟩, fun s' hs => (hP' s' hs).and (hQ' s' hs)⟩

theorem allSteps_true : ∀ (s : σ) (as : List α), M.AllSteps (fun _ _ => True) s as
  | _, [] => trivial
  | _, _ :: as => ⟨trivial, fun s' _ => allSteps_true s' as⟩

/-- What holds of every step of a run holds of the step after its first part. -/
theorem AllSteps.after {P : σ → α → Prop} {a : α} {bs : List α} : ∀ {as : List α} {s s' : σ},
    M.AllSteps P s (as ++ a :: bs) → M.exec s as = some s' → P s' a := by
  intro as
  induction as with
  | nil =>
      intro s s' h he
      obtain rfl := Option.some.inj he
      exact h.1
  | cons b as ih =>
      intro s s' h he
      obtain ⟨s₁, h₁, h₂⟩ := (exec_cons_eq_some M).1 he
      exact ih (h.2 s₁ h₁) h₂

/-- A condition on the labels alone is satisfied throughout a run when every label satisfies it. -/
theorem allSteps_label_iff {P : α → Prop} : ∀ {as : List α} {s s' : σ}, M.exec s as = some s' →
    (M.AllSteps (fun _ a => P a) s as ↔ ∀ a ∈ as, P a) := by
  intro as
  induction as with
  | nil => intro s s' _; simp [AllSteps]
  | cons a as ih =>
      intro s s' he
      obtain ⟨s₁, h₁, h₂⟩ := (exec_cons_eq_some M).1 he
      simp only [AllSteps, List.forall_mem_cons]
      refine and_congr_right fun _ => ⟨fun h => (ih h₂).1 (h s₁ h₁), fun h t ht => ?_⟩
      obtain rfl : t = s₁ := Option.some.inj (ht.symm.trans h₁)
      exact (ih h₂).2 h

/-! ### Guarded reachability -/

namespace Reach

variable {g g' : σ → α → Prop}

theorem mono (h : ∀ s a, g s a → g' s a) {s : σ} (hs : M.Reach g s) : M.Reach g' s := by
  induction hs with
  | init => exact .init
  | step _ hg hstep ih => exact .step ih (h _ _ hg) hstep

/-- **The invariant rule.**  What holds initially and is preserved by the guarded steps out of
reachable states holds in every reachable state. -/
theorem invariant {I : σ → Prop} (h₀ : I M.init)
    (hstep : ∀ s a s', M.Reach g s → I s → g s a → M.step s a = some s' → I s')
    {s : σ} (hs : M.Reach g s) : I s := by
  induction hs with
  | init => exact h₀
  | step hr hg hst ih => exact hstep _ _ _ hr ih hg hst

/-- A run whose steps satisfy the guard stays inside the guarded reachable states. -/
theorem of_allSteps {as : List α} : ∀ {s s' : σ}, M.Reach g s → M.exec s as = some s' →
    M.AllSteps g s as → M.Reach g s' := by
  induction as with
  | nil =>
      intro s s' hs he _
      rw [exec_nil] at he
      exact Option.some.inj he ▸ hs
  | cons a as ih =>
      intro s s' hs he hall
      obtain ⟨s₁, h₁, h₂⟩ := (exec_cons_eq_some M).1 he
      exact ih (.step hs hall.1 h₁) h₂ (hall.2 s₁ h₁)

/-- **Forward simulation.**  If every guarded step is matched, from related states, by finitely
many steps of `A`, then every guarded reachable state is related to a state `A` reaches. -/
theorem simulate {τ : Type*} {A : τ → τ → Prop} {t₀ : τ} {R : σ → τ → Prop} (h₀ : R M.init t₀)
    (hstep : ∀ s a s' t, Relation.ReflTransGen A t₀ t → R s t → g s a → M.step s a = some s' →
      ∃ t', Relation.ReflTransGen A t t' ∧ R s' t')
    {s : σ} (hs : M.Reach g s) : ∃ t, Relation.ReflTransGen A t₀ t ∧ R s t := by
  induction hs with
  | init => exact ⟨t₀, .refl, h₀⟩
  | step _ hg hst ih =>
      obtain ⟨t, ht, hR⟩ := ih
      obtain ⟨t', ht', hR'⟩ := hstep _ _ _ t ht hR hg hst
      exact ⟨t', ht.trans ht', hR'⟩

end Reach

/-! ### Comparing step conditions along runs -/

/-- A run leaves a state reached under the guard with two equivalent step conditions: if `P` and
`Q` agree wherever the steps so far satisfied `g` and `Q`, the run satisfies `P` throughout exactly
when it satisfies `Q` throughout. -/
theorem allSteps_iff_from {g P Q : σ → α → Prop}
    (h : ∀ s a s', M.Reach (fun s a => g s a ∧ Q s a) s → g s a → M.step s a = some s' →
      (P s a ↔ Q s a)) :
    ∀ {as : List α} {s s' : σ}, M.Reach (fun s a => g s a ∧ Q s a) s → M.exec s as = some s' →
      M.AllSteps g s as → (M.AllSteps P s as ↔ M.AllSteps Q s as) := by
  intro as
  induction as with
  | nil => intro s s' _ _ _; simp [AllSteps]
  | cons a as ih =>
      intro s s' hr he hg
      obtain ⟨s₁, h₁, h₂⟩ := (exec_cons_eq_some M).1 he
      have hPQ : P s a ↔ Q s a := h s a s₁ hr hg.1 h₁
      -- the step is a function of the label, so the run has only one next state
      have hrest : Q s a → ((∀ t, M.step s a = some t → M.AllSteps P t as) ↔
          ∀ t, M.step s a = some t → M.AllSteps Q t as) := by
        intro hQ
        have hih := ih (.step hr ⟨hg.1, hQ⟩ h₁) h₂ (hg.2 s₁ h₁)
        constructor
        · intro hall t ht
          obtain rfl : t = s₁ := Option.some.inj (ht.symm.trans h₁)
          exact hih.1 (hall t ht)
        · intro hall t ht
          obtain rfl : t = s₁ := Option.some.inj (ht.symm.trans h₁)
          exact hih.2 (hall t ht)
      simp only [AllSteps]
      constructor
      · rintro ⟨hP, hall⟩
        exact ⟨hPQ.1 hP, (hrest (hPQ.1 hP)).1 hall⟩
      · rintro ⟨hQ, hall⟩
        exact ⟨hPQ.2 hQ, (hrest hQ).2 hall⟩

/-- **Two step conditions that agree are satisfied by the same runs.** -/
theorem allSteps_iff {g P Q : σ → α → Prop}
    (h : ∀ s a s', M.Reach (fun s a => g s a ∧ Q s a) s → g s a → M.step s a = some s' →
      (P s a ↔ Q s a))
    {as : List α} {s : σ} (he : M.exec M.init as = some s) (hg : M.AllSteps g M.init as) :
    M.AllSteps P M.init as ↔ M.AllSteps Q M.init as :=
  allSteps_iff_from h .init he hg

/-- **A property of the states reached against a condition on the steps.**  Suppose a step out of
a state that has the property keeps it exactly when it satisfies `Q`, and that no later step
restores it.  Then a run ends in a state with the property exactly when all its steps
satisfy `Q`. -/
theorem trace_iff {g Q : σ → α → Prop} {I : σ → Prop} (h₀ : I M.init)
    (hstep : ∀ s a s', M.Reach (fun s a => g s a ∧ Q s a) s → I s → g s a →
      M.step s a = some s' → (I s' ↔ Q s a))
    (hlost : ∀ s a s', M.Reach g s → M.step s a = some s' → I s' → I s)
    {as : List α} {s : σ} (he : M.exec M.init as = some s) (hg : M.AllSteps g M.init as) :
    I s ↔ M.AllSteps Q M.init as := by
  have hback : ∀ {as : List α} {s s' : σ}, M.Reach g s → M.exec s as = some s' →
      M.AllSteps g s as → I s' → I s := by
    intro as
    induction as with
    | nil =>
        intro s s' _ he _ hI
        rw [exec_nil] at he
        exact Option.some.inj he ▸ hI
    | cons a as ih =>
        intro s s' hr he hg hI
        obtain ⟨s₁, h₁, h₂⟩ := (exec_cons_eq_some M).1 he
        exact hlost s a s₁ hr h₁ (ih (.step hr hg.1 h₁) h₂ (hg.2 s₁ h₁) hI)
  have main : ∀ {as : List α} {s s' : σ}, M.Reach (fun s a => g s a ∧ Q s a) s → I s →
      M.exec s as = some s' → M.AllSteps g s as → (I s' ↔ M.AllSteps Q s as) := by
    intro as
    induction as with
    | nil =>
        intro s s' _ hI he _
        rw [exec_nil] at he
        obtain rfl := Option.some.inj he
        simpa [AllSteps] using hI
    | cons a as ih =>
        intro s s' hr hI he hg
        obtain ⟨s₁, h₁, h₂⟩ := (exec_cons_eq_some M).1 he
        have hkey : I s₁ ↔ Q s a := hstep s a s₁ hr hI hg.1 h₁
        have hr₁ : M.Reach g s₁ := .step (hr.mono fun _ _ h => h.1) hg.1 h₁
        simp only [AllSteps]
        constructor
        · intro hI'
          have hQ : Q s a := hkey.1 (hback hr₁ h₂ (hg.2 s₁ h₁) hI')
          refine ⟨hQ, fun t ht => ?_⟩
          obtain rfl : t = s₁ := Option.some.inj (ht.symm.trans h₁)
          exact (ih (.step hr ⟨hg.1, hQ⟩ ht) (hkey.2 hQ) h₂ (hg.2 t ht)).1 hI'
        · rintro ⟨hQ, hall⟩
          exact (ih (.step hr ⟨hg.1, hQ⟩ h₁) (hkey.2 hQ) h₂ (hg.2 s₁ h₁)).2 (hall s₁ h₁)
  exact main .init h₀ he hg

/-- **A property that holds since a step.**  Suppose a state has the property exactly when the step to it
brings it about, or the state before it has the property and the step does not take it away.  Then a run
ends with the property exactly when one of its steps brought it about and none took it away since. -/
theorem since_iff {P : σ → Prop} {S : σ → α → Prop} {C : α → Prop} (h₀ : ¬ P M.init)
    (hstep : ∀ s a s', M.Reach (fun _ _ => True) s → M.step s a = some s' →
      (P s' ↔ S s a ∨ P s ∧ ¬ C a))
    {as : List α} {s : σ} (he : M.exec M.init as = some s) :
    P s ↔ ∃ pre a post s₁, as = pre ++ a :: post ∧ M.exec M.init pre = some s₁ ∧ S s₁ a ∧
      ∀ b ∈ post, ¬ C b := by
  induction as using List.reverseRecOn generalizing s with
  | nil =>
      obtain rfl := Option.some.inj he
      refine iff_of_false h₀ ?_
      rintro ⟨pre, a, post, -, has, -⟩
      exact List.append_ne_nil_of_right_ne_nil pre (List.cons_ne_nil a post) has.symm
  | append_singleton as b ih =>
      rw [exec_append, Option.bind_eq_some_iff] at he
      obtain ⟨s₁, hs₁, he⟩ := he
      obtain ⟨s₂, hs₂, he⟩ := (exec_cons_eq_some M).1 he
      obtain rfl := Option.some.inj he
      have hr : M.Reach (fun _ _ => True) s₁ := .of_allSteps .init hs₁ (allSteps_true _ as)
      rw [hstep s₁ b s₂ hr hs₂, ih hs₁]
      constructor
      · rintro (hS | ⟨⟨pre, a, post, t, rfl, hpre, hS, hpost⟩, hC⟩)
        · exact ⟨as, b, [], s₁, rfl, hs₁, hS, fun _ h => absurd h List.not_mem_nil⟩
        · refine ⟨pre, a, post ++ [b], t, by simp, hpre, hS, fun c hc => ?_⟩
          rcases List.mem_append.1 hc with hc | hc
          · exact hpost c hc
          · rwa [List.mem_singleton.1 hc]
      · rintro ⟨pre, a, post, t, has, hpre, hS, hpost⟩
        rcases List.eq_nil_or_concat post with rfl | ⟨post, c, rfl⟩
        · -- the last step has brought it about
          obtain ⟨rfl, hab⟩ := List.append_inj' has rfl
          obtain rfl := (List.cons.inj hab).1
          obtain rfl := Option.some.inj (hs₁.symm.trans hpre)
          exact .inl hS
        · rw [List.concat_eq_append] at has hpost
          rw [← List.cons_append, ← List.append_assoc] at has
          obtain ⟨rfl, hbc⟩ := List.append_inj' has rfl
          obtain rfl := (List.cons.inj hbc).1
          refine .inr ⟨⟨pre, a, post, t, rfl, hpre, hS, fun d hd => ?_⟩, ?_⟩
          · exact hpost d (List.mem_append_left _ hd)
          · exact hpost b (List.mem_append_right _ (List.mem_singleton.2 rfl))

end Lts

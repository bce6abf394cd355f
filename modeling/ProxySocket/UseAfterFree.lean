/-
**Handlers of objects that were destroyed.**

The handlers of a channel are bound to plain pointers, and a channel lives on in `fd_channel_` when the
object is gone.  An event finds a `CtlConnect` that was destroyed when `ready_channels` had it before, and a
public connection finds a tunnel that was destroyed when the tunnel did not get into the map of its control.

Main definitions:

* `Lifetime.Dangles` — a handler is bound to an object that the containers do not keep;
* `SafeAct` — the ids are new, and no control is closed while `claimProxyConn` uses it.

Main results:

* `fault_step_iff` — only a handler that dangles spoils a run;
* `SafeInv.step` — the invariant of the runs that are safe;
* `no_use_after_free` — **no handler meets an object that was destroyed**, exactly when none dangles, as in
  the runs that are safe.
-/

import ProxySocket.Lifetime

set_option relaxedAutoImplicit false
set_option autoImplicit false

namespace ProxySocket

/-! ### Handlers that dangle -/

/-- The handler that is called is bound to an object that the containers do not keep. -/
def Lifetime.Dangles (s : Lifetime) : LifeAct → Prop
  | .handleEvents _ _ => ∃ j rest, s.todo = j :: rest ∧ ¬ s.Kept (.ctlConnect j)
  | .newPublicConn t => ¬ s.Mapped t
  | _ => False


/-- Only a handler that dangles spoils a run. -/
theorem fault_step_iff {s s' : Lifetime} {a : LifeAct} (h : LifetimeInv [] s)
    (hs : s.step a = some s') : s'.fault = false ↔ ¬ s.Dangles a := by
  obtain ⟨hf, hs⟩ := Option.ite_none_right_eq_some.1 hs
  cases a with
  | newCtlConn ctlId fd =>
      obtain ⟨-, hs⟩ := Option.ite_none_right_eq_some.1 hs
      obtain rfl := Option.some.inj hs
      exact iff_of_true hf id
  | waitChannels js =>
      obtain ⟨-, hs⟩ := Option.ite_none_right_eq_some.1 hs
      obtain rfl := Option.some.inj hs
      exact iff_of_true hf id
  | handleEvents req close =>
      simp only [Lifetime.stepLive] at hs
      split at hs
      case h_1 => cases hs
      case h_2 j rest htodo =>
        obtain ⟨-, hs⟩ := Option.ite_none_right_eq_some.1 hs
        have hdangles : s.Dangles (.handleEvents req close) ↔ ¬ .ctlConnect j ∈ s.heap.live := by
          rw [(h.mem_iff j 0).2.1, Lifetime.Dangles, htodo]
          constructor
          · rintro ⟨k, rest', heq, hk⟩
            rwa [(List.cons.inj heq).1]
          · exact fun hj => ⟨j, rest, rfl, hj⟩
        split at hs
        · next hj =>
          obtain rfl := Option.some.inj hs
          have hreq : (req.elim { s with todo := rest } fun c =>
              Lifetime.handleNewTunnelReq { s with todo := rest } j c.1 c.2).fault = false := by
            cases req with
            | none => exact hf
            | some c => exact (Lifetime.handleNewTunnelReq_frame _ j c.1 c.2).2.2.2.2.2.trans hf
          refine iff_of_true ?_ fun hd => hdangles.1 hd hj
          split
          · exact hreq
          · exact hreq
        · next hj =>
          obtain rfl := Option.some.inj hs
          exact iff_of_false Bool.false_ne_true.symm fun hd => hd (hdangles.2 hj)
  | newPublicConn t =>
      obtain ⟨-, hs⟩ := Option.ite_none_right_eq_some.1 hs
      obtain rfl := Option.some.inj hs
      split
      · next ht => exact iff_of_true hf fun hd => hd ((h.mem_iff 0 t).2.2.1 ht)
      · next ht =>
          exact iff_of_false Bool.false_ne_true.symm fun hd => hd fun hm => ht ((h.mem_iff 0 t).2.2.2 hm)
  | claim ctlId =>
      obtain ⟨j, -, rfl⟩ := Option.map_eq_some_iff.1 hs
      exact iff_of_true hf id
  | claimTunnel k tunId =>
      simp only [Lifetime.stepLive] at hs
      split at hs
      · split at hs
        · obtain rfl := Option.some.inj hs
          exact iff_of_true hf id
        · obtain rfl := Option.some.inj hs
          exact iff_of_true hf id
      · cases hs
  | claimEnd k =>
      simp only [Lifetime.stepLive] at hs
      split at hs
      · obtain rfl := Option.some.inj hs
        exact iff_of_true hf id
      · cases hs

/-! ### Safe runs -/

instance (s : Lifetime) (j : ℕ) : Decidable (s.Claimed j) :=
  inferInstanceAs (Decidable (∃ c ∈ s.claims, c.1 = j))

/-- The id of a control was not drawn before, that of a tunnel is not in the map of its control, and a
control is not closed while a call of `claimProxyConn` has it. -/
def SafeAct (s : Lifetime) : LifeAct → Prop
  | .newCtlConn ctlId _ => ∀ c ∈ s.controls, c.1 ≠ ctlId
  | .handleEvents req close => ∀ j ∈ s.todo.head?,
      (∀ c ∈ req, AList.lookup c.1 (s.tunnelMap j) = none) ∧ (close = true → ¬ s.Claimed j)
  | _ => True

instance instDecidableSafeAct (s : Lifetime) : (a : LifeAct) → Decidable (SafeAct s a)
  | .newCtlConn _ _ => inferInstanceAs (Decidable (∀ _ ∈ _, _))
  | .handleEvents _ _ => inferInstanceAs (Decidable (∀ _ ∈ _, _))
  | .waitChannels _ | .newPublicConn _ | .claim _ | .claimTunnel _ _ | .claimEnd _ => .isTrue trivial

/-- **The invariant of the safe runs**: who is needed is kept by a map. -/
structure SafeInv (s : Lifetime) : Prop extends LifetimeInv [] s where
  ids : (s.controls.map Prod.fst).Nodup
  named : ∀ ctlId (j : ℕ), AList.lookup ctlId s.controlMap = some j → ∃ fd, s.controls[j]? = some (ctlId, fd)
  todo : s.todo.Nodup
  todoKept : ∀ j ∈ s.todo, s.Listed j ∨ s.HasTunnel j
  claimsKept : ∀ c ∈ s.claims, s.Listed c.1 ∨ s.HasTunnel c.1
  allMapped : ∀ t < s.tunnels.length, s.Mapped t

namespace SafeInv

variable {s s' : Lifetime} {j t : ℕ}

theorem init : SafeInv lifetimeLts.init :=
  { LifetimeInv.init with
    ids := .nil
    named := fun ctlId j h => by simp [lifetimeLts] at h
    todo := .nil
    todoKept := nofun
    claimsKept := nofun
    allMapped := nofun }

/-- Two controls have different ids. -/
theorem eq_of_id (h : SafeInv s) {k : ℕ} {c c' : Str × ℕ} (hj : s.controls[j]? = some c)
    (hk : s.controls[k]? = some c') (hid : c.1 = c'.1) : j = k := by
  have hj' : (s.controls.map Prod.fst)[j]? = some c.1 := by rw [List.getElem?_map, hj, Option.map_some]
  have hk' : (s.controls.map Prod.fst)[k]? = some c.1 := by
    rw [List.getElem?_map, hk, Option.map_some, hid]
  obtain ⟨hlt, -⟩ := List.getElem?_eq_some_iff.1 hj'
  exact (List.getElem?_inj hlt h.ids).1 (hj'.trans hk'.symm)

/-- A new control. -/
theorem newCtlConn (h : SafeInv s) {ctlId : Str} {fd : ℕ} (hid : AList.lookup ctlId s.controlMap = none)
    (hfree : ¬ s.Opened fd) (hnew : ∀ c ∈ s.controls, c.1 ≠ ctlId) : SafeInv (s.newCtlConn ctlId fd) := by
  have hlook : ∀ id k, AList.lookup id (s.controlMap.add ctlId s.controls.length) = some k ↔
      id = ctlId ∧ k = s.controls.length ∨ AList.lookup id s.controlMap = some k := by
    intro id k
    rw [ConnMap.lookup_add]
    rcases eq_or_ne id ctlId with rfl | hne
    · rw [if_pos ⟨rfl, hid⟩, hid]
      simp [eq_comm]
    · rw [if_neg fun hc => hne hc.1]
      exact (or_iff_right fun hc => hne hc.1).symm
  have hkeep : ∀ k, s.Listed k ∨ s.HasTunnel k →
      (s.newCtlConn ctlId fd).Listed k ∨ (s.newCtlConn ctlId fd).HasTunnel k :=
    fun k hk => hk.imp_left fun ⟨id, hl⟩ => ⟨id, (hlook id k).2 (.inr hl)⟩
  exact { h.toLifetimeInv.newCtlConn hid hfree with
    ids := by
      simp only [Lifetime.newCtlConn, Lifetime.pollAdd, List.map_append, List.map_cons, List.map_nil]
      refine List.nodup_append.2 ⟨h.ids, List.nodup_singleton _, fun a ha b hb => ?_⟩
      obtain ⟨c, hc, rfl⟩ := List.mem_map.1 ha
      rw [List.mem_singleton.1 hb]
      exact hnew c hc
    named := fun id k hk => by
      simp only [Lifetime.newCtlConn, Lifetime.pollAdd] at hk ⊢
      rcases (hlook id k).1 hk with ⟨rfl, rfl⟩ | hk
      · exact ⟨fd, List.getElem?_concat_length⟩
      · obtain ⟨fd', hc⟩ := h.named id k hk
        exact ⟨fd', getElem?_concat_iff.2 (.inl hc)⟩
    todo := h.todo
    todoKept := fun k hk => hkeep k (h.todoKept k hk)
    claimsKept := fun c hc => hkeep c.1 (h.claimsKept c hc)
    allMapped := h.allMapped }

/-- A tunnel with a new id. -/
theorem handleNewTunnelReq (h : SafeInv s) {tunId : Str} {listen : Option ℕ}
    (hj : .control j ∈ s.heap.live) (hfree : ∀ fd ∈ listen, ¬ s.Opened fd)
    (hnew : AList.lookup tunId (s.tunnelMap j) = none) : SafeInv (s.handleNewTunnelReq j tunId listen) := by
  have hlook := s.lookup_handleNewTunnelReq j tunId listen
  obtain ⟨htunnels, hcontrols, hmap, hclaims, htodo, -⟩ := s.handleNewTunnelReq_frame j tunId listen
  have hkeep : ∀ k, s.Listed k ∨ s.HasTunnel k → (s.handleNewTunnelReq j tunId listen).Listed k ∨
      (s.handleNewTunnelReq j tunId listen).HasTunnel k := by
    rintro k (⟨id, hl⟩ | ⟨id, t, hl⟩)
    · exact .inl ⟨id, by rw [hmap]; exact hl⟩
    · exact .inr ⟨id, t, (hlook k id t).2 (.inl hl)⟩
  exact { h.toLifetimeInv.handleNewTunnelReq hj hfree tunId with
    ids := by rw [hcontrols]; exact h.ids
    named := by rw [hcontrols, hmap]; exact h.named
    todo := by rw [htodo]; exact h.todo
    todoKept := by rw [htodo]; exact fun k hk => hkeep k (h.todoKept k hk)
    claimsKept := by rw [hclaims]; exact fun c hc => hkeep c.1 (h.claimsKept c hc)
    allMapped := by
      rw [htunnels, List.length_append, List.length_singleton]
      intro t ht
      rcases Nat.lt_succ_iff_lt_or_eq.1 ht with ht | rfl
      · obtain ⟨k, id, hl⟩ := h.allMapped t ht
        exact ⟨k, id, (hlook k id t).2 (.inl hl)⟩
      · exact ⟨j, tunId, (hlook j tunId _).2 (.inr ⟨rfl, rfl, rfl, hnew⟩)⟩ }

/-- A control is closed that nothing needs. -/
theorem handleCtlConnClose (h : SafeInv s) (hj : .ctlConnect j ∈ s.heap.live) (htodo : j ∉ s.todo)
    (hclaimed : ¬ s.Claimed j) : SafeInv (s.handleCtlConnClose j) := by
  have hinv := h.toLifetimeInv.handleCtlConnClose hj
  cases hc : s.controls[j]? with
  | none =>
      simp only [Lifetime.handleCtlConnClose, hc, Option.elim_none] at hinv ⊢
      exact { hinv with
        ids := h.ids
        named := h.named
        todo := h.todo
        todoKept := h.todoKept
        claimsKept := h.claimsKept
        allMapped := h.allMapped }
  | some c =>
      simp only [Lifetime.handleCtlConnClose, hc, Option.elim_some] at hinv ⊢
      -- the id is that of the control itself
      have hself : ∀ k, AList.lookup c.1 s.controlMap = some k → k = j := by
        intro k hk
        obtain ⟨fd, hk⟩ := h.named c.1 k hk
        exact h.eq_of_id hk hc rfl
      have hkeep : ∀ k, k ≠ j → s.Listed k ∨ s.HasTunnel k →
          (∃ id, AList.lookup id (AList.erase c.1 s.controlMap) = some k) ∨ s.HasTunnel k := by
        rintro k hk (⟨id, hl⟩ | ht)
        · have hne : id ≠ c.1 := by
            rintro rfl
            exact hk (hself k hl)
          exact .inl ⟨id, by rw [AList.lookup_erase_ne hne]; exact hl⟩
        · exact .inr ht
      exact { hinv with
        ids := h.ids
        named := fun id k hk => by
          rcases eq_or_ne id c.1 with rfl | hne
          · rw [AList.lookup_erase] at hk
            cases hk
          · rw [AList.lookup_erase_ne hne] at hk
            exact h.named id k hk
        todo := h.todo
        todoKept := fun k hk => hkeep k (fun heq => htodo (heq ▸ hk)) (h.todoKept k hk)
        claimsKept := fun c' hc' => hkeep c'.1 (fun heq => hclaimed ⟨c', hc', heq⟩) (h.claimsKept c' hc')
        allMapped := h.allMapped }

/-- **One step of a safe run.** -/
theorem step (h : SafeInv s) {a : LifeAct} (hsafe : SafeAct s a) (hs : s.step a = some s') : SafeInv s' := by
  have hinv := h.toLifetimeInv.step hs
  obtain ⟨-, hs⟩ := Option.ite_none_right_eq_some.1 hs
  cases a with
  | newCtlConn ctlId fd =>
      obtain ⟨⟨hid, hfree⟩, hs⟩ := Option.ite_none_right_eq_some.1 hs
      obtain rfl := Option.some.inj hs
      exact h.newCtlConn hid hfree hsafe
  | waitChannels js =>
      obtain ⟨⟨-, hnodup, hjs⟩, hs⟩ := Option.ite_none_right_eq_some.1 hs
      obtain rfl := Option.some.inj hs
      refine { hinv with
        ids := h.ids
        named := h.named
        todo := hnodup
        todoKept := fun j hj => ?_
        claimsKept := h.claimsKept
        allMapped := h.allMapped }
      rcases (h.mem_iff j 0).2.1.1 (hjs j hj) with hl | ht | ⟨c, hc, rfl⟩
      · exact .inl hl
      · exact .inr ht
      · exact h.claimsKept c hc
  | handleEvents req close =>
      simp only [Lifetime.stepLive] at hs
      split at hs
      case h_1 => cases hs
      case h_2 j rest htodo =>
        obtain ⟨hfree, hs⟩ := Option.ite_none_right_eq_some.1 hs
        obtain ⟨hnew, hclaimed⟩ := hsafe j (by rw [htodo]; rfl)
        have hnodup := h.todo
        have hkept := h.todoKept
        rw [htodo, List.nodup_cons] at hnodup
        rw [htodo] at hkept
        have hrest : SafeInv { s with todo := rest } :=
          { h with
            todo := hnodup.2
            todoKept := fun k hk => hkept k (List.mem_cons_of_mem _ hk) }
        -- the control of the channel is kept by a map
        have hj : .ctlConnect j ∈ s.heap.live := by
          refine h.kept (.ctlConnect j) ?_
          rcases hkept j List.mem_cons_self with hl | ht
          · exact .inl hl
          · exact .inr (.inl ht)
        rw [if_pos hj] at hs
        obtain rfl := Option.some.inj hs
        cases req with
        | none =>
            rw [Option.elim_none]
            split
            · next hclose => exact hrest.handleCtlConnClose hj hnodup.1 (hclaimed hclose)
            · exact hrest
        | some c =>
            have hreq := hrest.handleNewTunnelReq ((h.ctlConnect_mem_iff j).1 hj) (hfree c rfl) (hnew c rfl)
            have hlive := hrest.ctlConnect_mem_handleNewTunnelReq hj (hfree c rfl) c.1
            obtain ⟨-, -, -, hclaims, htodo', -⟩ :=
              Lifetime.handleNewTunnelReq_frame { s with todo := rest } j c.1 c.2
            rw [Option.elim_some]
            split
            · next hclose =>
              refine hreq.handleCtlConnClose hlive ?_ ?_
              · rw [htodo']
                exact hnodup.1
              · rw [Lifetime.Claimed, hclaims]
                exact hclaimed hclose
            · exact hreq
  | newPublicConn t =>
      obtain ⟨⟨hsome, -⟩, hs⟩ := Option.ite_none_right_eq_some.1 hs
      have ht : .tunnel t ∈ s.heap.live := by
        refine h.kept (.tunnel t) (h.allMapped t ?_)
        by_contra hge
        rw [Lifetime.fd?, List.getElem?_eq_none (Nat.le_of_not_lt hge)] at hsome
        cases hsome
      rw [if_pos ht] at hs
      obtain rfl := Option.some.inj hs
      exact h
  | claim ctlId =>
      obtain ⟨j, hj, rfl⟩ := Option.map_eq_some_iff.1 hs
      refine { hinv with
        ids := h.ids
        named := h.named
        todo := h.todo
        todoKept := h.todoKept
        claimsKept := fun c hc => ?_
        allMapped := h.allMapped }
      rcases List.mem_append.1 hc with hc | hc
      · exact h.claimsKept c hc
      · rw [List.mem_singleton.1 hc]
        exact .inl ⟨ctlId, hj⟩
  | claimTunnel k tunId =>
      simp only [Lifetime.stepLive] at hs
      split at hs
      · next j hk =>
        split at hs
        · next t ht =>
          obtain rfl := Option.some.inj hs
          refine { hinv with
            ids := h.ids
            named := h.named
            todo := h.todo
            todoKept := h.todoKept
            claimsKept := fun c hc => ?_
            allMapped := h.allMapped }
          rcases List.mem_or_eq_of_mem_set hc with hc | rfl
          · exact h.claimsKept c hc
          · exact .inr ⟨tunId, t, ht⟩
        · obtain rfl := Option.some.inj hs
          exact { hinv with
            ids := h.ids
            named := h.named
            todo := h.todo
            todoKept := h.todoKept
            claimsKept := fun c hc => h.claimsKept c (List.mem_of_mem_eraseIdx hc)
            allMapped := h.allMapped }
      · cases hs
  | claimEnd k =>
      simp only [Lifetime.stepLive] at hs
      split at hs
      · obtain rfl := Option.some.inj hs
        exact { hinv with
          ids := h.ids
          named := h.named
          todo := h.todo
          todoKept := h.todoKept
          claimsKept := fun c hc => h.claimsKept c (List.mem_of_mem_eraseIdx hc)
          allMapped := h.allMapped }
      · cases hs

/-- No handler dangles in a safe run. -/
theorem not_dangles (h : SafeInv s) {a : LifeAct} (hs : s.step a = some s') : ¬ s.Dangles a := by
  cases a with
  | handleEvents req close =>
      rintro ⟨j, rest, htodo, hno⟩
      refine hno ?_
      rcases h.todoKept j (by rw [htodo]; exact List.mem_cons_self) with hl | ht
      · exact .inl hl
      · exact .inr (.inl ht)
  | newPublicConn t =>
      obtain ⟨-, hs⟩ := Option.ite_none_right_eq_some.1 hs
      obtain ⟨⟨hsome, -⟩, -⟩ := Option.ite_none_right_eq_some.1 hs
      intro hno
      refine hno (h.allMapped t ?_)
      by_contra hge
      rw [Lifetime.fd?, List.getElem?_eq_none (Nat.le_of_not_lt hge)] at hsome
      cases hsome
  | newCtlConn ctlId fd => exact id
  | waitChannels js => exact id
  | claim ctlId => exact id
  | claimTunnel k tunId => exact id
  | claimEnd k => exact id

end SafeInv

/-- **No handler meets an object that was destroyed.**  A run is without such a fault exactly when no step
dangles: when no event of a connection comes to a control that is not listed, has no tunnel and is not used by
`claimProxyConn`, and no public connection to a tunnel that did not get into a map.  And no step dangles in
a run in which the ids that are drawn are new and no control is closed while `claimProxyConn` uses it. -/
theorem no_use_after_free {as : List LifeAct} {s : Lifetime}
    (he : lifetimeLts.exec lifetimeLts.init as = some s) :
    (s.fault = false ↔ lifetimeLts.AllSteps (fun s a => ¬ s.Dangles a) lifetimeLts.init as) ∧
      (lifetimeLts.AllSteps SafeAct lifetimeLts.init as → s.fault = false) := by
  have hiff : s.fault = false ↔ lifetimeLts.AllSteps (fun s a => ¬ s.Dangles a) lifetimeLts.init as :=
    Lts.trace_iff (g := fun _ _ => True) (I := fun s => s.fault = false) rfl
      (fun _ _ _ hr _ _ hst => fault_step_iff (LifetimeInv.of_reach hr) hst)
      (fun _ _ _ _ hst _ => (Option.ite_none_right_eq_some.1 hst).1) he (Lts.allSteps_true _ as)
  refine ⟨hiff, fun hsafe => ?_⟩
  have hs : lifetimeLts.Reach SafeAct s := .of_allSteps .init he hsafe
  have hboth : SafeInv s ∧ s.fault = false :=
    hs.invariant (I := fun s => SafeInv s ∧ s.fault = false) ⟨.init, rfl⟩
      fun _ _ _ _ hi hg hst =>
        ⟨hi.1.step hg hst, (fault_step_iff hi.1.toLifetimeInv hst).2 (hi.1.not_dangles hst)⟩
  exact hboth.2

theorem no_use_after_free_two :
    ∃ s, lifetimeLts.exec lifetimeLts.init twoClients = some s ∧ s.fault = false := by
  have he := (Option.some_get (x := lifetimeLts.exec lifetimeLts.init twoClients) (by decide +kernel)).symm
  exact ⟨_, he, (no_use_after_free he).2 (by decide +kernel)⟩

/-- A client goes away while a worker thread looks for a tunnel of its control, and the connection has an
event more before the thread returns. -/
example : (lifetimeLts.exec lifetimeLts.init
    [.newCtlConn [97] 5, .claim [97], .waitChannels [0], .handleEvents none true, .waitChannels [0],
      .claimTunnel 0 [116], .handleEvents none false]).map Lifetime.fault = some true := by
  decide +kernel

end ProxySocket

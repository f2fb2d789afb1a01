import Hfm.Int3Loop

/-!
# One loop with two sets of callbacks

`_int3_cb` shows its callbacks only what it hands to them. Two sets of callbacks that answer the
same lead through the same states of the VM.
-/

namespace Hfm

variable {κ ε σ τ : Type} [DecidableEq κ] [DecidableEq ε]

/-- Callbacks that answer the same as others as long as they come to an end: `lost` states have
no way back, and outside of them related states stay so. -/
structure Lockstep (cbs : Callbacks κ ε σ) (cbs' : Callbacks κ ε τ) (lost : σ → Prop)
    (R : σ → τ → Prop) : Prop where
  sticky : ∀ cb vm trap event base s, lost s → lost (cbs cb vm trap event (base, s)).2.2
  answers : ∀ cb vm trap event base s t, R s t → lost (cbs cb vm trap event (base, s)).2.2 ∨
    (cbs cb vm trap event (base, s)).1 = (cbs' cb vm trap event (base, t)).1 ∧
    (cbs cb vm trap event (base, s)).2.1 = (cbs' cb vm trap event (base, t)).2.1 ∧
    R (cbs cb vm trap event (base, s)).2.2 (cbs' cb vm trap event (base, t)).2.2

variable {cbs : Callbacks κ ε σ} {cbs' : Callbacks κ ε τ} {lost : σ → Prop} {R : σ → τ → Prop}

/-- What follows an answer of the callback. -/
def callRest (calls : VisitCalls) (trap : Trap κ ε) (vm : Vm κ ε) (extra : Option ε) :
    Except Fault (Vm κ ε × Option (Trap κ ε)) :=
  match extra, trap.retCb with
  | some extra, some _ => (plantReturn vm calls trap extra).map fun r =>
    (r.2, if r.1 = .success then some (returnTrap vm calls trap extra) else none)
  | _, _ => .ok (vm, none)

def visitRest (calls : VisitCalls) (trap : Trap κ ε) (vm : Vm κ ε) (extra : Option ε) :
    Except Fault (Vm κ ε × Option (Trap κ ε)) := do
  let (vm', planted) ← callRest calls trap vm extra
  let vm' ← if trap.selfDestroy then destroyTrap vm' calls.remove trap else .ok vm'
  return (vm', planted)

omit [DecidableEq κ] [DecidableEq ε] in
lemma callTrap_eq_rest (event : InterruptEvent) (calls : VisitCalls) (trap : Trap κ ε) (vm : Vm κ ε)
    (s : UInt64 × σ) : callTrap cbs event calls trap vm s =
      (callRest calls trap vm (trap.cb.bind fun cb => (cbs cb vm trap event s).1)).map fun r =>
        (r.1, (trap.cb.map fun cb => (cbs cb vm trap event s).2).getD s, r.2) := by
  unfold callTrap callRest
  cases trap.cb with
  | none => rfl
  | some cb =>
    simp only [bind, Except.bind, pure, Except.pure, Option.bind_some, Option.map_some]
    generalize cbs cb vm trap event s = answer
    obtain ⟨extra, s'⟩ := answer
    cases extra with
    | none => rfl
    | some extra =>
      cases trap.retCb with
      | none => rfl
      | some ret =>
        dsimp only
        cases plantReturn vm calls trap extra <;> rfl

lemma visitTrap_eq_rest (event : InterruptEvent) (calls : VisitCalls) (trap : Trap κ ε)
    (vm : Vm κ ε)
    (s : UInt64 × σ) : visitTrap cbs event calls trap vm s =
      (visitRest calls trap vm (trap.cb.bind fun cb => (cbs cb vm trap event s).1)).map fun r =>
        (r.1, (trap.cb.map fun cb => (cbs cb vm trap event s).2).getD s, r.2) := by
  unfold visitTrap visitRest
  rw [callTrap_eq_rest]
  cases callRest calls trap vm (trap.cb.bind fun cb => (cbs cb vm trap event s).1) with
  | error fault => rfl
  | ok r =>
    simp only [bind, Except.bind, pure, Except.pure, Except.map]
    by_cases hd : trap.selfDestroy = true
    · simp only [if_pos hd]
      cases destroyTrap r.1 calls.remove trap <;> rfl
    · simp only [if_neg hd]

/-- Where a run of the two loops comes to, from states that are lost or related. -/
def Together (lost : σ → Prop) (R : σ → τ → Prop) (x : Except Fault (Vm κ ε × (UInt64 × σ)))
    (y : τ → Except Fault (Vm κ ε × (UInt64 × τ))) (s : σ) : Prop :=
  ∀ vm base s', x = .ok (vm, (base, s')) → (lost s → lost s') ∧
    ∀ t, R s t → lost s' ∨ ∃ t', y t = .ok (vm, (base, t')) ∧ R s' t'

lemma Lockstep.visitTrap (h : Lockstep cbs cbs' lost R) (event : InterruptEvent)
    (calls : VisitCalls) (trap : Trap κ ε) {vm vm' : Vm κ ε} {base base' : UInt64} {s s' : σ}
    {planted : Option (Trap κ ε)}
    (hok : visitTrap cbs event calls trap vm (base, s) = .ok (vm', (base', s'), planted)) :
    (lost s → lost s') ∧ ∀ t, R s t → lost s' ∨ ∃ t',
      Hfm.visitTrap cbs' event calls trap vm (base, t) = .ok (vm', (base', t'), planted) ∧
        R s' t' := by
  rw [visitTrap_eq_rest] at hok
  obtain ⟨r, hrest, hok⟩ := map_eq_ok.mp hok
  cases hcb : trap.cb with
  | none =>
    rw [hcb] at hrest hok
    cases hok
    refine ⟨id, fun t hR => .inr ⟨t, ?_, hR⟩⟩
    rw [visitTrap_eq_rest, hcb]
    exact map_eq_ok.mpr ⟨r, hrest, rfl⟩
  | some cb =>
    rw [hcb, Option.bind_some] at hrest
    rw [hcb, Option.map_some, Option.getD_some] at hok
    obtain ⟨rfl, hstate, rfl⟩ : r.1 = vm' ∧ (cbs cb vm trap event (base, s)).2 = (base', s') ∧
      r.2 = planted := by simpa only [Prod.mk.injEq] using hok
    have hbase : (cbs cb vm trap event (base, s)).2.1 = base' := by rw [hstate]
    have hs' : (cbs cb vm trap event (base, s)).2.2 = s' := by rw [hstate]
    refine ⟨fun hlost => hs' ▸ h.sticky cb vm trap event base s hlost, fun t hR => ?_⟩
    rcases h.answers cb vm trap event base s t hR with hlost | ⟨hextra, hbase', hR'⟩
    · exact .inl (hs' ▸ hlost)
    · refine .inr ⟨(cbs' cb vm trap event (base, t)).2.2, ?_, hs' ▸ hR'⟩
      rw [visitTrap_eq_rest, hcb, Option.bind_some, Option.map_some, Option.getD_some, ← hextra]
      refine map_eq_ok.mpr ⟨r, hrest, ?_⟩
      rw [← hbase, hbase']

lemma Lockstep.int3Loop (h : Lockstep cbs cbs' lost R) (event : InterruptEvent) (fuel : Nat) :
    ∀ (p : Option Nat) (calls : Nat → VisitCalls) (vm : Vm κ ε) (base : UInt64) (s : σ),
      Together lost R (int3Loop cbs event fuel p calls vm (base, s))
        (fun t => Hfm.int3Loop cbs' event fuel p calls vm (base, t)) s := by
  induction fuel with
  | zero =>
    intro p calls vm base s vm' base' s' hok
    cases hok
  | succ fuel ih =>
    intro p calls vm base s vm' base' s' hok
    cases p with
    | none =>
      cases hok
      exact ⟨id, fun t hR => .inr ⟨t, rfl, hR⟩⟩
    | some loop =>
      rw [Hfm.int3Loop] at hok
      cases hnode : vm.tm.nodes.node loop with
      | none =>
        rw [hnode] at hok
        cases hok
      | some node =>
        obtain ⟨trap, next, live⟩ := node
        rw [hnode] at hok
        cases live with
        | false => cases hok
        | true =>
          obtain ⟨⟨vm₁, ⟨base₁, s₁⟩, planted⟩, hvisit, hok⟩ := bind_eq_ok.mp hok
          obtain ⟨next', hlink, hloop⟩ := bind_eq_ok.mp hok
          obtain ⟨hsticky, hrel⟩ := h.visitTrap event (calls 0) trap hvisit
          obtain ⟨hsticky', hrel'⟩ := ih _ _ _ _ _ _ _ _ hloop
          refine ⟨fun hlost => hsticky' (hsticky hlost), fun t hR => ?_⟩
          rcases hrel t hR with hlost | ⟨t₁, hvisit', hR₁⟩
          · exact .inl (hsticky' hlost)
          rcases hrel' t₁ hR₁ with hlost | ⟨t', hloop', hR'⟩
          · exact .inl hlost
          · refine .inr ⟨t', ?_, hR'⟩
            dsimp only
            rw [Hfm.int3Loop, hnode]
            dsimp only
            rw [hvisit']
            dsimp only [bind, Except.bind]
            rw [hlink]
            exact hloop'

/-- An INT3 event that does not end in a lost state has the same end with the other callbacks. -/
lemma Lockstep.int3Cb (h : Lockstep cbs cbs' lost R) {event : InterruptEvent} {calls : Int3Calls}
    {vm vm' : Vm κ ε} {s s' : σ} {handled : Handled}
    (hok : int3Cb cbs event calls vm s = .ok (handled, vm', s')) (hkept : ¬lost s') {t : τ}
    (hR : R s t) : ∃ t', Hfm.int3Cb cbs' event calls vm t = .ok (handled, vm', t') ∧ R s' t' := by
  unfold Hfm.int3Cb at hok ⊢
  cases htraps : tmInt3trapsAtPa vm.tm event.pa with
  | none =>
    rw [htraps] at hok
    dsimp only at hok ⊢
    split at hok
    · rename_i hread
      cases hok
      exact ⟨t, if_pos hread, hR⟩
    · rename_i hread
      cases hok
      exact ⟨t, if_neg hread, hR⟩
  | some int3traps =>
    rw [htraps] at hok
    obtain ⟨doubletrap, hcheck, hok⟩ := bind_eq_ok.mp hok
    obtain ⟨⟨vm₁, base, s₁⟩, hloop, hok⟩ := bind_eq_ok.mp hok
    cases hok
    rcases (h.int3Loop event (int3Fuel vm) (some int3traps) calls.visit vm 0 s _ _ _ hloop).2 t hR
      with hlost | ⟨t', hloop', hR'⟩
    · exact absurd hlost hkept
    · refine ⟨t', ?_, hR'⟩
      dsimp only at hloop' ⊢
      rw [hcheck]
      dsimp only [bind, Except.bind]
      rw [hloop']
      rfl

end Hfm

import Hfm.Int3Loop
import Hfm.ShadowPages
import Hfm.Support.Run

/-!
# Runs of injections and removals

From a handler with an empty trap manager, over any sequence of injected traps and of traps
that destroy themselves.
-/

namespace Hfm

open Support

variable {κ ε : Type} [DecidableEq κ] [DecidableEq ε]

/-- An injection of a newly allocated trap, with the frame Xen has to offer, or a removal. -/
inductive TrapStep (κ ε : Type) where
  | inject (trap : Trap κ ε) (calls : InjectCalls) (r : Nat)
  | destroy (trap : Trap κ ε) (calls : RemoveCalls)

/-- All calls succeed; a frame for a new shadow page is fresh, and the trap to remove is in
the list at its address. -/
def TrapStep.Succeeds (vm : Vm κ ε) : TrapStep κ ε → Prop
  | .inject trap calls r => calls.Succeed r ∧
      (tmFindRemapped vm.tm trap.gfn = none → FreshFrame vm trap.gfn r)
  | .destroy trap calls => calls.Succeed ∧ trap ∈ vm.tm.traps (tmInt3trapsAtPa vm.tm trap.pa)

def TrapStep.apply (vm : Vm κ ε) : TrapStep κ ε → Except Fault (HfmStatus × Vm κ ε)
  | .inject trap calls _ =>
    injectTrap { vm with brk := vm.brk + 1 } calls { trap with addr := vm.brk }
  | .destroy trap calls => do
    let vm ← destroyTrap vm calls trap
    return (.success, vm)

def TrapRun (vm : Vm κ ε) (step : TrapStep κ ε) (vm' : Vm κ ε) : Prop :=
  step.Succeeds vm ∧ step.apply vm = .ok (.success, vm')

/-- Everything agrees, and the tables hold what is registered. -/
structure InStep (vm : Vm κ ε) : Prop where
  coherent : Coherent vm
  mapped : Mapped vm
  registered : ∃ reg, Registered vm reg

omit [DecidableEq κ] [DecidableEq ε] in
lemma inStep_tmInit {vm : Vm κ ε} (h : vm.tm = tmInit) : InStep vm := by
  have hnone : ∀ g rm, tmFindRemapped vm.tm g ≠ some rm := by
    intro g rm hg
    rw [h] at hg
    simp [tmFindRemapped, tmInit] at hg
  have hexist : ∀ pa, tmTrapExist vm.tm pa ≠ true := by
    intro pa hpa
    rw [h] at hpa
    simp [tmTrapExist, tmInit] at hpa
  refine ⟨⟨?_, ?_, ?_, ?_⟩, ⟨?_, ?_, ?_⟩, [], ?_, ?_, ?_⟩
  · exact fun pa hpa => absurd hpa (hexist pa)
  · exact fun pa hpa => absurd hpa (hexist pa)
  · exact fun g rm hg => absurd hg (hnone g rm)
  · exact fun pa hpa => absurd hpa (hexist pa)
  · exact fun g rm hg => absurd hg (hnone g rm)
  · exact fun g _ rm _ hg => absurd hg (hnone g rm)
  · exact fun g _ rm _ hg => absurd hg (hnone g rm)
  · rw [h]
    exact indexed_tmInit
  · exact List.nodup_nil
  · simp

/-- A step whose calls succeed completes, reports success and keeps everything in step. -/
lemma TrapStep.inStep {vm : Vm κ ε} (h : InStep vm) {step : TrapStep κ ε} (hs : step.Succeeds vm) :
    ∃ vm', step.apply vm = .ok (.success, vm') ∧ InStep vm' ∧ Outside vm vm' ∧
      ∀ g rm, tmFindRemapped vm.tm g = some rm → tmFindRemapped vm'.tm g = some rm := by
  obtain ⟨hcoh, hmap, reg, hreg⟩ := h
  cases step with
  | inject trap calls r =>
    obtain ⟨hcalls, hfresh⟩ := hs
    have hc : Coherent { vm with brk := vm.brk + 1 } :=
      hcoh.congr rfl (fun _ h => h) rfl (fun _ => rfl) fun _ _ => rfl
    have hm : Mapped { vm with brk := vm.brk + 1 } := hmap.congr rfl rfl
    let trap' := { trap with addr := vm.brk }
    have haddr : trap'.addr = vm.brk := rfl
    have hf : tmFindRemapped vm.tm trap'.gfn = none →
        FreshFrame { vm with brk := vm.brk + 1 } trap'.gfn r :=
      fun hnone => ⟨(hfresh hnone).ne, (hfresh hnone).new⟩
    obtain ⟨vm', hok, hc', hm', hout⟩ := injectTrap_coherent hc hm hcalls hf
    obtain ⟨status, vm₁, hok₁, -, hreg'⟩ := hreg.inject calls haddr
    obtain ⟨status₂, vm₂, hok₂, -, hremapped, -⟩ :=
      injectTrap_spec { vm with brk := vm.brk + 1 } calls { trap with addr := vm.brk }
    rw [hok] at hok₁ hok₂
    cases hok₁
    cases hok₂
    exact ⟨vm', hok, ⟨hc', hm', _, hreg'⟩, hout, hremapped⟩
  | destroy trap calls =>
    obtain ⟨hcalls, hmem⟩ := hs
    have hex : tmTrapExist vm.tm trap.pa = true := by
      rw [hreg.indexed.trapExist_iff_traps]
      exact List.ne_nil_of_mem hmem
    obtain ⟨vm', hok, hc', hm', hout⟩ := destroyTrap_coherent hcoh hmap hreg.indexed hex hcalls
    refine ⟨vm', ?_, ⟨hc', hm', _, hreg.destroy hok⟩, hout, ?_⟩
    · rw [TrapStep.apply, hok]
      rfl
    · rcases destroyTrap_spec vm calls trap with ⟨vm₁, hok₁, -, htm⟩ | ⟨hfault, -⟩
      · rw [hok] at hok₁
        cases hok₁
        intro g rm hg
        rw [htm, tmFindRemapped_remove]
        exact hg
      · rw [hok] at hfault
        cases hfault

omit [DecidableEq κ] [DecidableEq ε] in
/-- An INT3 event gets the byte of the guest right, at any address. -/
lemma InStep.reinject {vm : Vm κ ε} (h : InStep vm) (event : InterruptEvent) {calls : Int3Calls}
    (hread : calls.read8 = true) :
    int3Reinject event calls vm = .ok (some (decide (vm.machine.mem event.pa = INT3_CHAR))) := by
  obtain ⟨hcoh, -, reg, hreg⟩ := h
  unfold int3Reinject
  cases htraps : tmInt3trapsAtPa vm.tm event.pa with
  | none =>
    dsimp only
    rw [if_pos hread]
  | some int3traps =>
    have hex : tmTrapExist vm.tm event.pa = true := by
      by_contra hex
      rw [(hreg.indexed.trapsAtPa_eq_none event.pa).mpr (Bool.eq_false_iff.mpr hex)] at htraps
      cases htraps
    dsimp only
    rw [hcoh.doubletrap _ hex]
    unfold doubletrapAt
    by_cases hcc : vm.machine.mem event.pa = INT3_CHAR
    · simp [hcc]
    · simp [hcc]

/-- The event is handled to its end with that answer, unless a link that is read in a released
node is overwritten. -/
lemma InStep.handled {vm : Vm κ ε} (h : InStep vm) {σ : Type} (cbs : Callbacks κ ε σ)
    (event : InterruptEvent) {calls : Int3Calls} (hread : calls.read8 = true) (s : σ) :
    match int3Cb cbs event calls vm s with
    | .error fault => fault = .useAfterFree ∧ ∃ i, (calls.visit i).freedLink = .overwritten
    | .ok (handled, _, _) =>
        handled.reinject = some (decide (vm.machine.mem event.pa = INT3_CHAR)) := by
  have hset := h.reinject event hread
  obtain ⟨hcoh, -, reg, hreg⟩ := h
  cases hok : int3Cb cbs event calls vm s with
  | ok result =>
    obtain ⟨handled, vm', s'⟩ := result
    rw [int3Cb_reinject hok] at hset
    exact Except.ok.inj hset
  | error fault =>
    cases hex : tmTrapExist vm.tm event.pa with
    | false =>
      rw [int3Cb_of_not_trapExist hreg cbs calls s hex, if_pos hread] at hok
      cases hok
    | true =>
      obtain ⟨doubletrap, -, hhandled⟩ :=
        int3Cb_handled hreg cbs calls s hex (hcoh.remapped _ hex)
      rw [hok] at hhandled
      exact hhandled

/-- What a run from `vm₀` owes the guest: pages with traps are shadowed and protected, the
shadow pages and the flags follow the traps and the bytes of the guest, which stay as they
were, the next step completes, and an INT3 event is set to be handed on exactly if it is the
guest's. It is handled to its end with that answer, but for the overwritten link of a trap that
destroyed itself. -/
structure TrapsInStep (vm₀ vm : Vm κ ε) : Prop where
  coherent : Coherent vm
  mapped : Mapped vm
  outside : Outside vm₀ vm
  progress : ∀ step : TrapStep κ ε, step.Succeeds vm → ∃ vm', TrapRun vm step vm'
  reinject : ∀ (event : InterruptEvent) (calls : Int3Calls), calls.read8 = true →
    int3Reinject event calls vm = .ok (some (decide (vm.machine.mem event.pa = INT3_CHAR)))
  handled : ∀ (σ : Type) (cbs : Callbacks κ ε σ) (event : InterruptEvent) (calls : Int3Calls)
    (s : σ), calls.read8 = true →
      match int3Cb cbs event calls vm s with
      | .error fault => fault = .useAfterFree ∧ ∃ i, (calls.visit i).freedLink = .overwritten
      | .ok (handled, _, _) =>
          handled.reinject = some (decide (vm.machine.mem event.pa = INT3_CHAR))

/-- Memory, tables and guest view stay in step over any sequence of injections and removals
whose calls succeed. -/
theorem traps_in_step {vm₀ : Vm κ ε} (h₀ : vm₀.tm = tmInit) {tr : List (TrapStep κ ε × Vm κ ε)}
    (hrun : IsRun TrapRun vm₀ tr) : Always (TrapsInStep vm₀) vm₀ tr := by
  have hstart : InStep vm₀ ∧ Outside vm₀ vm₀ := ⟨inStep_tmInit h₀, fun _ _ => rfl⟩
  have hstep : ∀ (vm : Vm κ ε) (step : TrapStep κ ε) (vm' : Vm κ ε),
      (InStep vm ∧ Outside vm₀ vm) → TrapRun vm step vm' → InStep vm' ∧ Outside vm₀ vm' := by
    rintro vm step vm' ⟨hin, hout⟩ ⟨hs, hok⟩
    obtain ⟨vm₁, hok₁, hin', hout', hremapped⟩ := TrapStep.inStep hin hs
    rw [hok] at hok₁
    cases hok₁
    refine ⟨hin', fun pa hpa => ?_⟩
    rw [hout' pa hpa]
    exact hout pa fun g rm hg => hpa g rm (hremapped g rm hg)
  refine (hrun.always hstep hstart).mono fun vm ⟨hin, hout⟩ => ?_
  refine ⟨hin.coherent, hin.mapped, hout, fun step hs => ?_, ?_, ?_⟩
  · obtain ⟨vm', hok, -⟩ := TrapStep.inStep hin hs
    exact ⟨vm', hs, hok⟩
  · intro event calls hread
    exact hin.reinject event hread
  · intro σ cbs event calls s hread
    exact hin.handled cbs event hread s

/-- A trap at offset 5 of page 1, whose bytes are all 0x90. -/
def oneTrap : TrapStep Unit Unit :=
  .inject ⟨0, [], none, none, 0x1005, true, none⟩ (.succeeding 0x500) 0x500

def oneTrapVm : Vm Unit Unit :=
  match TrapStep.apply (Vm.start fun _ => 0x90) oneTrap with
  | .ok (_, vm) => vm
  | .error _ => Vm.start fun _ => 0x90

lemma oneTrap_run : TrapRun (Vm.start fun _ => 0x90) oneTrap oneTrapVm := by
  refine ⟨⟨InjectCalls.succeeding_succeed (by decide), fun _ => ?_⟩, rfl⟩
  exact ⟨by decide, fun g rm hg => by cases hg⟩

lemma oneTrap_inStep : InStep oneTrapVm := by
  obtain ⟨vm, hok, hin, -⟩ := TrapStep.inStep (inStep_tmInit rfl) oneTrap_run.1
  have hvm := oneTrap_run.2.symm.trans hok
  rw [Except.ok.injEq, Prod.mk.injEq] at hvm
  rw [hvm.2]
  exact hin

theorem traps_in_step_inject_destroy : ∃ vm : Vm Unit Unit,
    Always (TrapsInStep (Vm.start fun _ => 0x90)) (Vm.start fun _ => 0x90)
      [(oneTrap, oneTrapVm),
        (.destroy ⟨0, [], none, none, 0x1005, true, none⟩ .succeeding, vm)] := by
  refine ⟨_, traps_in_step rfl ⟨oneTrap_run,
    ⟨⟨RemoveCalls.succeeding_succeed, List.mem_singleton.mpr rfl⟩, rfl⟩, trivial⟩⟩

end Hfm

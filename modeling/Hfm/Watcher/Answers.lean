import Hfm.Watcher.Multiwatch

/-!
# What the watcher answers

`wv_vmi_okay` looks for the VM it is asked for and answers with the flag of another one.
-/

namespace Hfm

open Support

/-- The events since the last one with `p`, or all of them. -/
def since (p : WvEvent → Bool) (log : List WvEvent) : List WvEvent := log.takeWhile (!p ·)

lemma since_cons_pos {p : WvEvent → Bool} {e : WvEvent} (h : p e = true) (log : List WvEvent) :
    since p (e :: log) = [] := by
  simp [since, h]

lemma since_cons_neg {p : WvEvent → Bool} {e : WvEvent} (h : p e = false) (log : List WvEvent) :
    since p (e :: log) = e :: since p log := by
  simp [since, h]

/-- A call of the callback that brought the VM back. -/
def WvEvent.revives : WvEvent → Bool
  | .restartCb _ result => result = 0
  | _ => false

/-- No ping failed since the VM was registered or last brought back. -/
def Healthy (vm : WatchedVm) : Prop := .pingFailed ∉ since WvEvent.revives vm.log

lemma healthy_cons {vm vm' : WatchedVm} {e : WvEvent} (hlog : vm'.log = e :: vm.log) :
    Healthy vm' ↔ e ≠ .pingFailed ∧ (e.revives = true ∨ Healthy vm) := by
  unfold Healthy
  rw [hlog]
  cases hrev : e.revives with
  | true =>
    have hne : e ≠ .pingFailed := by
      rintro rfl
      cases hrev
    simp [since_cons_pos hrev, hne]
  | false => simp [since_cons_neg hrev, eq_comm]

/-- The flag tells whether the VM is healthy. -/
def OkayRight (vm : WatchedVm) : Prop := vm.hdlr.okay = true ↔ Healthy vm

lemma okayRight_registered (r : Registration) : OkayRight r.vm := by
  simp [OkayRight, Healthy, Registration.vm, since]

/-- An event that neither fails nor revives the VM, and leaves the flag. -/
lemma OkayRight.cons {vm vm' : WatchedVm} (h : OkayRight vm) {e : WvEvent}
    (hlog : vm'.log = e :: vm.log) (hokay : vm'.hdlr.okay = vm.hdlr.okay)
    (hfail : e ≠ .pingFailed) (hrev : e.revives = false) : OkayRight vm' := by
  unfold OkayRight at h ⊢
  rw [healthy_cons hlog, hokay, h]
  simp [hfail, hrev]

lemma okayRight_visit {vm : WatchedVm} (h : OkayRight vm) (ans : VisitAnswers) :
    OkayRight (visitVm vm ans) := by
  cases hstate : vm.hdlr.state with
  | shutdown =>
    rw [visitVm_shutdown vm ans hstate]
    split
    · exact h
    · exact h.cons rfl rfl (by simp) rfl
  | booting =>
    cases hdone : vm.hdlr.bootDone with
    | false =>
      rw [visitVm_booting vm ans hstate hdone]
      exact h
    | true =>
      rw [visitVm_booted vm ans hstate hdone]
      dsimp only
      split
      · by_cases hzero : ans.restartCb = 0
        · unfold OkayRight
          rw [healthy_cons rfl]
          simp [hzero, WvEvent.revives]
        · exact h.cons rfl (if_neg hzero) (by simp) (by simp [WvEvent.revives, hzero])
      · exact h
  | running =>
    rw [visitVm_running vm ans hstate]
    split
    · exact h
    · unfold OkayRight
      rw [healthy_cons rfl]
      simp
  | destroy =>
    rw [visitVm_destroy vm ans hstate]
    exact h.cons rfl rfl (by simp) rfl
  | restarted =>
    rw [visitVm_restarted vm ans hstate]
    exact h.cons rfl rfl (by simp) rfl

lemma okayRight_step (vm : WatchedVm) (a : VmAction) (vm' : WatchedVm) (h : OkayRight vm)
    (hstep : VmStep vm a vm') : OkayRight vm' := by
  cases a with
  | visit ans =>
    rw [show vm' = visitVm vm ans from hstep]
    exact okayRight_visit h ans
  | bootThread n vmi =>
    rw [hstep.2]
    cases vmi with
    | true => exact h.cons rfl rfl (by simp) rfl
    | false => exact h

/-- The answer about the VM numbered `i` is 1 exactly if that VM is healthy. -/
def AnswersFor (wv : Watcher) (i : Nat) : Prop :=
  wvVmiOkay wv (wv.hdlr i).hdlr.vmi = 1 ↔ Healthy (wv.hdlr i)

/-- A registered VM is always found, and the first VM answers for it. -/
lemma wvVmiOkay_registered {wv : Watcher} {i : Nat} (hi : i < wv.size) :
    wvVmiOkay wv (wv.hdlr i).hdlr.vmi = 1 ↔ (wv.hdlr 0).hdlr.okay = true := by
  unfold wvVmiOkay
  cases hfind : (List.range wv.size).find? (fun j => (wv.hdlr j).hdlr.vmi = (wv.hdlr i).hdlr.vmi) with
  | none =>
    rw [List.find?_eq_none] at hfind
    have hother := hfind i (List.mem_range.mpr hi)
    simp at hother
  | some j => cases (wv.hdlr 0).hdlr.okay <;> simp

/-- In every state the answer about a VM is right exactly if the VM and the first one are both
healthy, or both are not. -/
theorem answers_iff_like_first {regs : List Registration} {wv : Watcher}
    (hadd : addVms wvInit regs = .ok wv) {tr : List ((Nat × VmAction) × (Watcher × Nat))}
    (hrun : IsRun WatchStep (wv, 0) tr) :
    Always (fun s => ∀ i < s.1.size,
      AnswersFor s.1 i ↔ (Healthy (s.1.hdlr i) ↔ Healthy (s.1.hdlr 0))) (wv, 0) tr := by
  refine (watch_always okayRight_registered okayRight_step hadd hrun).mono fun s hokay i hi => ?_
  have hfirst : (s.1.hdlr 0).hdlr.okay = true ↔ Healthy (s.1.hdlr 0) := hokay 0
  unfold AnswersFor
  rw [wvVmiOkay_registered hi, hfirst]
  exact iff_comm

/-- Two VMs, the second with the callback at 1. -/
def twoRegistered : List Registration :=
  [⟨100, cstr "a", some 1, 0⟩, ⟨200, cstr "b", some 1, 1⟩]

def twoVms : Watcher := (addVms wvInit twoRegistered).toOption.getD wvInit

/-- A visit in which the ping finds the register as given, and all else goes well. -/
def pinged (vcpureg : Option UInt64) : VisitAnswers := ⟨vcpureg, true, true, 0⟩

/-- The first VM answers its ping, the second does not. -/
def secondDown : Watcher :=
  (twoVms.set 0 (visitVm (twoVms.hdlr 0) (pinged (some 1)))).set 1
    (visitVm (twoVms.hdlr 1) (pinged none))

lemma run_secondDown : IsRun WatchStep (twoVms, 0)
    [((0, VmAction.visit (pinged (some 1))), (twoVms.set 0 (visitVm (twoVms.hdlr 0) (pinged (some 1))), 1)),
      ((1, VmAction.visit (pinged none)), (secondDown, 0))] :=
  ⟨⟨by decide, _, rfl, rfl, rfl, rfl⟩, ⟨by decide, _, rfl, rfl, rfl, rfl⟩, trivial⟩

/-- The state behind an action. -/
def watchNext (s : Watcher × Nat) (a : Nat × VmAction) : Watcher × Nat :=
  match a.2 with
  | .visit ans => (s.1.set a.1 (visitVm (s.1.hdlr a.1) ans), if s.2 + 1 < s.1.size then s.2 + 1 else 0)
  | .bootThread n vmi => (s.1.set a.1 (waitBootFc (s.1.hdlr a.1) n vmi), s.2)

/-- The watcher can do these actions, one after the other. -/
def watchable (s : Watcher × Nat) : List (Nat × VmAction) → Bool
  | [] => true
  | a :: actions => decide (a.1 < s.1.size) &&
    (match a.2 with
      | .visit _ => decide (a.1 = s.2)
      | .bootThread n _ => (s.1.hdlr a.1).threads.contains n) && watchable (watchNext s a) actions

def watchTrace (s : Watcher × Nat) : List (Nat × VmAction) → List ((Nat × VmAction) × (Watcher × Nat))
  | [] => []
  | a :: actions => (a, watchNext s a) :: watchTrace (watchNext s a) actions

lemma run_watchTrace {s : Watcher × Nat} {actions : List (Nat × VmAction)}
    (h : watchable s actions = true) : IsRun WatchStep s (watchTrace s actions) := by
  induction actions generalizing s with
  | nil => trivial
  | cons a actions ih =>
    obtain ⟨i, a⟩ := a
    unfold watchable at h
    rw [Bool.and_eq_true, Bool.and_eq_true, decide_eq_true_eq] at h
    obtain ⟨⟨hi, ha⟩, hrest⟩ := h
    refine ⟨⟨hi, ?_⟩, ih hrest⟩
    cases a with
    | visit ans => exact ⟨_, rfl, rfl, of_decide_eq_true ha, rfl⟩
    | bootThread n vmi => exact ⟨_, ⟨List.contains_iff_mem.mp ha, rfl⟩, rfl, rfl⟩

/-- The second VM fails its ping, is destroyed, booted and restarted, and runs again. -/
def secondRestarted : List (Nat × VmAction) :=
  let round (vcpureg : Option UInt64) : List (Nat × VmAction) :=
    [(0, .visit (pinged (some 1))), (1, .visit (pinged vcpureg))]
  round none ++ round none ++ round none ++ [(1, .bootThread 1 true)] ++ round none ++ round none ++
    round (some 1)

theorem answers_iff_like_first_two : Always (fun s => ∀ i < s.1.size,
      AnswersFor s.1 i ↔ (Healthy (s.1.hdlr i) ↔ Healthy (s.1.hdlr 0))) (twoVms, 0)
    [((0, VmAction.visit (pinged (some 1))), (twoVms.set 0 (visitVm (twoVms.hdlr 0) (pinged (some 1))), 1)),
      ((1, VmAction.visit (pinged none)), (secondDown, 0))] :=
  answers_iff_like_first (rfl : addVms wvInit twoRegistered = .ok twoVms) run_secondDown

/-- The second VM is reported as fine, since the first one is. -/
theorem second_vm_reported_fine : ∃ tr s, IsRun WatchStep (twoVms, 0) (tr ++ [s]) ∧
    ¬AnswersFor s.2.1 1 := by
  refine ⟨[_], _, run_secondDown, fun h => ?_⟩
  have hfine : wvVmiOkay secondDown (secondDown.hdlr 1).hdlr.vmi = 1 := by decide
  exact (h.mp hfine) (by decide)

end Hfm

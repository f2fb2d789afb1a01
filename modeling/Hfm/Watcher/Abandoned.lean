import Hfm.Watcher.RestartProtocol

/-!
# Abandoned VMs

Three failures are never tried again: of the callback, of `pthread_create` and of the
`vmi_init` of a boot thread.
-/

namespace Hfm

open Support

/-- The VM is down, and stays down whatever happens to it. -/
def Abandoned (vm : WatchedVm) : Prop :=
  vm.hdlr.okay = false ∧ ∀ tr, IsRun VmStep vm tr → Always (fun vm => vm.hdlr.okay = false) vm tr

/-- Nothing that can bring the VM back is left. -/
def Stuck (vm : WatchedVm) : Prop :=
  vm.hdlr.okay = false ∧ (vm.hdlr.restartCb = none ∨ vm.hdlr.state = .running ∨
    vm.hdlr.state = .restarted ∨
    vm.hdlr.state = .booting ∧ vm.hdlr.bootDone = false ∧ vm.threads = [])

/-- The step is none of the failures that the watcher gives up at. -/
def Retried (vm : WatchedVm) : VmAction → Prop
  | .visit ans =>
    match vm.hdlr.state with
    | .shutdown => ans.vmiInit = true → ans.pthreadCreate = true
    | .booting => vm.hdlr.bootDone = true → ans.restartCb = 0
    | .running => vm.hdlr.okay = true → pingVm ans.vcpureg = false → vm.hdlr.restartCb.isSome = true
    | .destroy => True
    | .restarted => True
  | .bootThread _ vmi => vmi = true

/-! ### Stuck VMs are abandoned -/

lemma stuck_visit {vm : WatchedVm} (h : Stuck vm) (ans : VisitAnswers) : Stuck (visitVm vm ans) := by
  obtain ⟨hokay, hwhy⟩ := h
  cases hstate : vm.hdlr.state with
  | shutdown =>
    rw [visitVm_shutdown vm ans hstate]
    simp only [hstate, reduceCtorEq, false_and, or_false] at hwhy
    split
    · exact ⟨hokay, .inl hwhy⟩
    · exact ⟨hokay, .inl hwhy⟩
  | booting =>
    simp only [hstate, reduceCtorEq, true_and, false_or] at hwhy
    cases hdone : vm.hdlr.bootDone with
    | false =>
      rw [visitVm_booting vm ans hstate hdone]
      exact ⟨hokay, hwhy.imp id fun h => .inr (.inr ⟨hstate, h⟩)⟩
    | true =>
      have hcb : vm.hdlr.restartCb = none := by
        rcases hwhy with hcb | ⟨hfalse, -⟩
        · exact hcb
        · rw [hdone] at hfalse
          cases hfalse
      rw [visitVm_booted vm ans hstate hdone]
      dsimp only
      rw [if_neg (by simp [hcb])]
      exact ⟨hokay, .inl hcb⟩
  | running =>
    rw [visitVm_running vm ans hstate, if_pos (.inl hokay)]
    exact ⟨hokay, hwhy⟩
  | destroy =>
    rw [visitVm_destroy vm ans hstate]
    simp only [hstate, reduceCtorEq, false_and, or_false] at hwhy
    exact ⟨hokay, .inl hwhy⟩
  | restarted =>
    rw [visitVm_restarted vm ans hstate]
    exact ⟨hokay, .inr (.inl rfl)⟩

lemma BootThread.booting {vm : WatchedVm} (h : BootThread vm) {n : Nat} (hn : n ∈ vm.threads) :
    vm.hdlr.state = .booting ∧ vm.hdlr.bootDone = false ∧ vm.threads = [n] := by
  rcases h.one with hnone | ⟨hthreads, hdone⟩
  · rw [hnone] at hn
    cases hn
  · have hstate : vm.hdlr.state = .booting := by
      by_contra hne
      rw [h.idle hne] at hn
      cases hn
    rw [hthreads, List.mem_singleton] at hn
    rw [hn]
    exact ⟨hstate, hdone, hthreads⟩

lemma stuck_bootThread {vm : WatchedVm} (h : Stuck vm) (hthread : BootThread vm) {n : Nat}
    (hn : n ∈ vm.threads) (vmi : Bool) : Stuck (waitBootFc vm n vmi) := by
  obtain ⟨hokay, hwhy⟩ := h
  obtain ⟨hstate, -, hthreads⟩ := hthread.booting hn
  have hcb : vm.hdlr.restartCb = none := by simpa [hstate, hthreads] using hwhy
  unfold waitBootFc
  dsimp only
  split
  · exact ⟨hokay, .inl hcb⟩
  · exact ⟨hokay, .inl hcb⟩

lemma stuck_abandoned {vm : WatchedVm} (h : Stuck vm) (hfollowed : Followed vm) : Abandoned vm := by
  refine ⟨h.1, fun tr hrun => ?_⟩
  have hstep : ∀ vm a vm', Stuck vm ∧ Followed vm → VmStep vm a vm' → Stuck vm' ∧ Followed vm' := by
    intro vm a vm' ⟨hstuck, hfollowed⟩ hstep
    refine ⟨?_, followed_step vm a vm' hfollowed hstep⟩
    cases a with
    | visit ans =>
      rw [show vm' = visitVm vm ans from hstep]
      exact stuck_visit hstuck ans
    | bootThread n vmi =>
      rw [hstep.2]
      exact stuck_bootThread hstuck hfollowed.thread hstep.1 vmi
  exact (hrun.always hstep ⟨h, hfollowed⟩).mono fun _ h => h.1.1

/-! ### All others can come back -/

/-- All that a visit asks for goes well. -/
def VisitAnswers.good : VisitAnswers := ⟨some 1, true, true, 0⟩

/-- Some run brings the VM back. -/
def CanReturn (vm : WatchedVm) : Prop :=
  ∃ tr, IsRun VmStep vm tr ∧ ¬Always (fun vm => vm.hdlr.okay = false) vm tr

lemma canReturn_okay {vm : WatchedVm} (h : vm.hdlr.okay = true) : CanReturn vm :=
  ⟨[], trivial, fun hdown => by
    rw [show vm.hdlr.okay = false from hdown] at h
    cases h⟩

lemma CanReturn.of_step {vm vm' : WatchedVm} (a : VmAction) (hstep : VmStep vm a vm')
    (h : CanReturn vm') : CanReturn vm := by
  obtain ⟨tr, hrun, hup⟩ := h
  exact ⟨(a, vm') :: tr, ⟨hstep, hrun⟩, fun hdown => hup hdown.2⟩

lemma canReturn_booted {vm : WatchedVm} (hcb : vm.hdlr.restartCb.isSome = true)
    (hstate : vm.hdlr.state = .booting) (hdone : vm.hdlr.bootDone = true) : CanReturn vm := by
  apply CanReturn.of_step (.visit .good) rfl
  apply canReturn_okay
  rw [visitVm_booted vm _ hstate hdone]
  dsimp only
  rw [if_pos hcb]
  rfl

lemma canReturn_booting {vm : WatchedVm} (hcb : vm.hdlr.restartCb.isSome = true)
    (hstate : vm.hdlr.state = .booting) {n : Nat} (hn : n ∈ vm.threads) : CanReturn vm := by
  apply CanReturn.of_step (.bootThread n true) ⟨hn, rfl⟩
  exact canReturn_booted hcb hstate rfl

lemma canReturn_shutdown {vm : WatchedVm} (hcb : vm.hdlr.restartCb.isSome = true)
    (hstate : vm.hdlr.state = .shutdown) : CanReturn vm := by
  apply CanReturn.of_step (.visit .good) rfl
  rw [visitVm_shutdown vm _ hstate]
  exact canReturn_booting hcb rfl List.mem_cons_self

lemma canReturn_destroy {vm : WatchedVm} (hcb : vm.hdlr.restartCb.isSome = true)
    (hstate : vm.hdlr.state = .destroy) : CanReturn vm := by
  apply CanReturn.of_step (.visit .good) rfl
  rw [visitVm_destroy vm _ hstate]
  exact canReturn_shutdown hcb rfl

lemma canReturn_of_not_stuck {vm : WatchedVm} (h : ¬Stuck vm) : CanReturn vm := by
  cases hokay : vm.hdlr.okay with
  | true => exact canReturn_okay hokay
  | false =>
    simp only [Stuck, hokay, true_and, not_or, not_and] at h
    obtain ⟨hcb, hrunning, hrestarted, hbooting⟩ := h
    have hcb : vm.hdlr.restartCb.isSome = true := Option.isSome_iff_ne_none.mpr hcb
    cases hstate : vm.hdlr.state with
    | shutdown => exact canReturn_shutdown hcb hstate
    | booting =>
      cases hdone : vm.hdlr.bootDone with
      | true => exact canReturn_booted hcb hstate hdone
      | false =>
        obtain ⟨n, hn⟩ := List.exists_mem_of_ne_nil _ (hbooting hstate hdone)
        exact canReturn_booting hcb hstate hn
    | running => exact absurd hstate hrunning
    | destroy => exact canReturn_destroy hcb hstate
    | restarted => exact absurd hstate hrestarted

lemma abandoned_iff_stuck {vm : WatchedVm} (hfollowed : Followed vm) : Abandoned vm ↔ Stuck vm := by
  constructor
  · intro h
    by_contra hstuck
    obtain ⟨tr, hrun, hup⟩ := canReturn_of_not_stuck hstuck
    exact hup (h.2 tr hrun)
  · exact fun h => stuck_abandoned h hfollowed

/-! ### When a VM gets stuck -/

lemma stuck_visit_iff {vm : WatchedVm} (h : ¬Stuck vm) (hfollowed : Followed vm)
    (ans : VisitAnswers) : ¬Stuck (visitVm vm ans) ↔ Retried vm (.visit ans) := by
  have hphase := hfollowed.phase
  have hthread := hfollowed.thread
  unfold InPhase at hphase
  unfold Retried
  dsimp only
  cases hstate : vm.hdlr.state with
  | shutdown =>
    rw [hstate] at hphase
    have hcb : vm.hdlr.restartCb ≠ none := fun hcb => h ⟨hphase.1, .inl hcb⟩
    have hnone : vm.threads = [] := hthread.idle (by simp [hstate])
    rw [visitVm_shutdown vm ans hstate]
    dsimp only
    split
    · rename_i hinit
      simp [h, hinit]
    · rename_i hinit
      simp [Stuck, hphase.1, hcb, hnone, hinit]
  | booting =>
    rw [hstate] at hphase
    have hcb : vm.hdlr.restartCb ≠ none := fun hcb => h ⟨hphase.1, .inl hcb⟩
    dsimp only
    cases hdone : vm.hdlr.bootDone with
    | false =>
      rw [visitVm_booting vm ans hstate hdone]
      simp [h]
    | true =>
      rw [visitVm_booted vm ans hstate hdone]
      dsimp only
      rw [if_pos (Option.isSome_iff_ne_none.mpr hcb)]
      simp [Stuck, hphase.1]
  | running =>
    have hokay : vm.hdlr.okay = true := by
      cases hokay : vm.hdlr.okay with
      | true => rfl
      | false => exact absurd ⟨hokay, .inr (.inl hstate)⟩ h
    rw [visitVm_running vm ans hstate]
    dsimp only
    split
    · rename_i hping
      simp [h, hokay] at hping ⊢
      simp [hping]
    · rename_i hping
      simp [hokay] at hping ⊢
      simp [Stuck, hping, Option.isSome_iff_ne_none]
  | destroy =>
    rw [hstate] at hphase
    have hcb : vm.hdlr.restartCb ≠ none := fun hcb => h ⟨hphase.1, .inl hcb⟩
    rw [visitVm_destroy vm ans hstate]
    simp [Stuck, hcb]
  | restarted =>
    have hokay : vm.hdlr.okay = true := by
      cases hokay : vm.hdlr.okay with
      | true => rfl
      | false => exact absurd ⟨hokay, .inr (.inr (.inl hstate))⟩ h
    rw [visitVm_restarted vm ans hstate]
    simp [Stuck, hokay]

/-- A VM gets stuck by exactly the failures that are not tried again. -/
lemma stuck_step_iff {vm vm' : WatchedVm} {a : VmAction} (hstep : VmStep vm a vm')
    (h : ¬Stuck vm) (hfollowed : Followed vm) : ¬Stuck vm' ↔ Retried vm a := by
  cases a with
  | visit ans =>
    rw [show vm' = visitVm vm ans from hstep]
    exact stuck_visit_iff h hfollowed ans
  | bootThread n vmi =>
    obtain ⟨hn, rfl⟩ := hstep
    obtain ⟨hstate, hdone, hthreads⟩ := hfollowed.thread.booting hn
    have hphase := hfollowed.phase
    unfold InPhase at hphase
    rw [hstate] at hphase
    have hcb : vm.hdlr.restartCb ≠ none := fun hcb => h ⟨hphase.1, .inl hcb⟩
    cases vmi with
    | true => simp [Stuck, Retried, waitBootFc, hcb, hstate]
    | false => simp [Stuck, Retried, waitBootFc, hstate, hdone, hthreads, hphase.1]

/-- The step of the watcher is retried, on the VM it is a step of. -/
def WatchRetried (s : Watcher × Nat) (a : Nat × VmAction) : Prop := Retried (s.1.hdlr a.1) a.2

/-- In a run no VM is ever abandoned exactly if every failure in it is tried again. -/
theorem never_abandoned_iff {regs : List Registration} {wv : Watcher}
    (hadd : addVms wvInit regs = .ok wv) {tr : List ((Nat × VmAction) × (Watcher × Nat))}
    (hrun : IsRun WatchStep (wv, 0) tr) :
    Always (fun s => ∀ i, ¬Abandoned (s.1.hdlr i)) (wv, 0) tr ↔ Meets WatchRetried (wv, 0) tr := by
  refine hrun.always_iff_meets (J := fun s => ∀ i, Followed (s.1.hdlr i))
    (fun s a s' hJ _ hstep => hstep.keeps followed_step hJ) ?_
    (addVms_keeps followed_registered regs hadd fun _ => followed_registered _) ?_
  · intro s a s' hJ hP hstep
    have hJ' := hstep.keeps followed_step hJ
    simp only [fun i => abandoned_iff_stuck (hJ i)] at hP
    simp only [fun i => abandoned_iff_stuck (hJ' i)]
    constructor
    · intro hP'
      rcases hstep.vm a.1 with ⟨-, hvm⟩ | ⟨hne, -⟩
      · exact (stuck_step_iff hvm (hP a.1) (hJ a.1)).mp (hP' a.1)
      · exact absurd rfl hne
    · intro hretried i
      rcases hstep.vm i with ⟨rfl, hvm⟩ | ⟨-, hvm⟩
      · exact (stuck_step_iff hvm (hP _) (hJ _)).mpr hretried
      · rw [hvm]
        exact hP i
  · intro i h
    have hup : (wv.hdlr i).hdlr.okay = true :=
      addVms_keeps (P := fun vm => vm.hdlr.okay = true) (fun _ => rfl) regs hadd (fun _ => rfl) i
    rw [h.1] at hup
    cases hup

theorem never_abandoned_two : Always (fun s => ∀ i, ¬Abandoned (s.1.hdlr i)) (twoVms, 0)
    (watchTrace (twoVms, 0) secondRestarted) := by
  refine (never_abandoned_iff (rfl : addVms wvInit twoRegistered = .ok twoVms)
    (run_watchTrace (by decide))).mpr ?_
  exact ⟨fun _ _ => rfl, fun _ _ => rfl, fun _ _ => rfl, trivial, fun _ _ => rfl, fun _ => rfl, rfl,
    fun _ _ => rfl, fun _ => rfl, fun _ _ => rfl, trivial, fun _ _ => rfl, fun _ _ => rfl, trivial⟩

/-- One VM, with the callback at 1. -/
def oneVm : Watcher := (addVms wvInit [⟨100, cstr "a", some 1, 0⟩]).toOption.getD wvInit

def visitFirst (wv : Watcher) : Watcher := wv.set 0 (visitVm (wv.hdlr 0) (pinged none))

/-- After a failed ping and two more visits the VM boots. -/
def oneBooting : Watcher := visitFirst (visitFirst (visitFirst oneVm))

/-- The boot thread got no instance: the watcher waits for it forever. -/
theorem abandoned_without_instance : ∃ tr s, IsRun WatchStep (oneVm, 0) (tr ++ [s]) ∧
    Abandoned (s.2.1.hdlr 0) := by
  refine ⟨[((0, .visit (pinged none)), (visitFirst oneVm, 0)),
    ((0, .visit (pinged none)), (visitFirst (visitFirst oneVm), 0)),
    ((0, .visit (pinged none)), (oneBooting, 0))],
    ((0, .bootThread 1 false), (oneBooting.set 0 (waitBootFc (oneBooting.hdlr 0) 1 false), 0)), ?_, ?_⟩
  · have hvisit : ∀ wv : Watcher, wv.size = 1 →
        WatchStep (wv, 0) (0, .visit (pinged none)) (visitFirst wv, 0) := by
      intro wv hsize
      refine ⟨by simp [hsize], _, rfl, rfl, rfl, ?_⟩
      simp [hsize]
    refine ⟨hvisit _ rfl, hvisit _ rfl, hvisit _ rfl, ⟨by decide, _, ⟨?_, rfl⟩, rfl, rfl⟩, trivial⟩
    decide
  · have hreg : Followed (oneVm.hdlr 0) := followed_registered ⟨100, cstr "a", some 1, 0⟩
    have hbooting : Followed (oneBooting.hdlr 0) :=
      followed_visit (followed_visit (followed_visit hreg (pinged none)) (pinged none)) (pinged none)
    refine stuck_abandoned ⟨rfl, .inr (.inr (.inr ⟨rfl, rfl, rfl⟩))⟩ ?_
    exact followed_bootThread hbooting (by decide) false

end Hfm

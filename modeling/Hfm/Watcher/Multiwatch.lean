import Hfm.Basic
import Hfm.Support.Run
import Mathlib.Logic.Function.Basic

/-!
# The watcher

`src/multiwatch.c`: one thread visits the VMs in turn and brings a VM that stopped answering
back through a machine of five states. A boot thread of its own waits for each new boot.
-/

namespace Hfm

open Support

/-- `state_t`. -/
inductive WvState where
  | shutdown
  | booting
  | running
  | destroy
  | restarted
  deriving DecidableEq, Repr

/-- `vm_hdlr_t`. Pointers are numbers; the `int` flags are truth values. -/
structure VmHdlr where
  vmi : Nat
  name : CStr
  state : WvState
  restartCb : Option Nat
  intData : Nat
  bootDone : Bool
  okay : Bool
  deriving DecidableEq

/-- What happened to a VM. A boot cycle has a number, and so has its boot thread; the call of
`vmi_destroy` is kept with the flag `okay` it found. -/
inductive WvEvent where
  | pingFailed
  | destroy (okay : Bool)
  | bootCycle (n : Nat)
  | bootDone (n : Nat)
  | restartCb (data : Nat) (result : Int)
  | running
  deriving DecidableEq

/-- A VM of the watcher, with the boot threads that have not ended, by their cycle, and all
that happened to it, the last first. -/
structure WatchedVm where
  hdlr : VmHdlr
  cycles : Nat
  threads : List Nat
  log : List WvEvent

/-- What the calls of a visit answer: the register `MSR_LSTAR`, whether `vmi_init` and
`pthread_create` succeed, and the result of the callback. -/
structure VisitAnswers where
  vcpureg : Option UInt64
  vmiInit : Bool
  pthreadCreate : Bool
  restartCb : Int

def pingVm (vcpureg : Option UInt64) : Bool :=
  match vcpureg with
  | none => false
  | some lstar => lstar ≠ 0

def getVmState (vm : WatchedVm) (ans : VisitAnswers) : WatchedVm :=
  let hdlr := vm.hdlr
  match hdlr.state with
  | .shutdown =>
    if ans.vmiInit = false then vm
    else
      { hdlr := { hdlr with bootDone := false, state := .booting }
        cycles := vm.cycles + 1
        threads := if ans.pthreadCreate then (vm.cycles + 1) :: vm.threads else vm.threads
        log := .bootCycle (vm.cycles + 1) :: vm.log }
  | .booting => if hdlr.bootDone then { vm with hdlr := { hdlr with state := .restarted } } else vm
  | .running =>
    if hdlr.okay = false then vm
    else if pingVm ans.vcpureg then vm
    else
      { vm with
        hdlr := { hdlr with okay := false, state := .destroy }
        log := .pingFailed :: vm.log }
  | .destroy =>
    { vm with hdlr := { hdlr with state := .shutdown }, log := .destroy hdlr.okay :: vm.log }
  | .restarted => { vm with hdlr := { hdlr with state := .running }, log := .running :: vm.log }

/-- The body of the inner loop of `_monitor_fc`. -/
def visitVm (vm : WatchedVm) (ans : VisitAnswers) : WatchedVm :=
  let vm := getVmState vm ans
  if vm.hdlr.state = .restarted ∧ vm.hdlr.restartCb.isSome = true then
    let vm := { vm with log := .restartCb vm.hdlr.intData ans.restartCb :: vm.log }
    if ans.restartCb = 0 then { vm with hdlr := { vm.hdlr with okay := true } } else vm
  else vm

/-- The end of the boot thread of cycle `n`; `vmi` tells whether its `vmi_init` left an
instance. -/
def waitBootFc (vm : WatchedVm) (n : Nat) (vmi : Bool) : WatchedVm :=
  let vm := { vm with threads := vm.threads.erase n }
  if vmi then
    { vm with hdlr := { vm.hdlr with bootDone := true }, log := .bootDone n :: vm.log }
  else vm

inductive VmAction where
  | visit (ans : VisitAnswers)
  | bootThread (n : Nat) (vmi : Bool)

def VmStep (vm : WatchedVm) : VmAction → WatchedVm → Prop
  | .visit ans, vm' => vm' = visitVm vm ans
  | .bootThread n vmi, vm' => n ∈ vm.threads ∧ vm' = waitBootFc vm n vmi

/-! ### All VMs -/

/-- `MAX`. -/
def WV_MAX : Nat := 10

/-- `struct _watcher_t`: the VMs numbered below `size` are registered. -/
structure Watcher where
  hdlr : Nat → WatchedVm
  size : Nat
  size_le : size ≤ WV_MAX

/-- The arguments of `wv_add_vm`, with the name that `vmi_get_name` has for the VM. -/
structure Registration where
  vmi : Nat
  name : CStr
  cb : Option Nat
  data : Nat

/-- A VM as `wv_add_vm` leaves it; nothing happened to it yet. -/
def Registration.vm (r : Registration) : WatchedVm :=
  ⟨⟨r.vmi, r.name, .running, r.cb, r.data, false, true⟩, 0, [], []⟩

/-- The entries from `size` on are not used. -/
def wvInit : Watcher := ⟨fun _ => (Registration.mk 0 [] none 0).vm, 0, Nat.zero_le _⟩

def wvAddVm (wv : Watcher) (r : Registration) : Except Fault Watcher :=
  if h : wv.size < WV_MAX then .ok ⟨Function.update wv.hdlr wv.size r.vm, wv.size + 1, h⟩
  else .error .outOfBounds

def addVms : Watcher → List Registration → Except Fault Watcher
  | wv, [] => .ok wv
  | wv, r :: regs => do
    let wv ← wvAddVm wv r
    addVms wv regs

/-- The answer is the flag of the first VM, whatever VM was asked for. -/
def wvVmiOkay (wv : Watcher) (vmi : Nat) : Int :=
  match (List.range wv.size).find? (fun i => (wv.hdlr i).hdlr.vmi = vmi) with
  | some _ => if (wv.hdlr 0).hdlr.okay then 1 else 0
  | none => 0

def Watcher.set (wv : Watcher) (i : Nat) (vm : WatchedVm) : Watcher :=
  { wv with hdlr := Function.update wv.hdlr i vm }

/-- A step of the program on the VM numbered `i`. The loop of `_monitor_fc` is at the VM
numbered by the second component; boot threads end at any time. -/
def WatchStep (s : Watcher × Nat) (a : Nat × VmAction) (s' : Watcher × Nat) : Prop :=
  a.1 < s.1.size ∧ ∃ vm, VmStep (s.1.hdlr a.1) a.2 vm ∧ s'.1 = s.1.set a.1 vm ∧
    match a.2 with
    | .visit _ => a.1 = s.2 ∧ s'.2 = if s.2 + 1 < s.1.size then s.2 + 1 else 0
    | .bootThread _ _ => s'.2 = s.2

/-- What a step does to the VM numbered `i`. -/
lemma WatchStep.vm {s s' : Watcher × Nat} {a : Nat × VmAction} (h : WatchStep s a s') (i : Nat) :
    (i = a.1 ∧ VmStep (s.1.hdlr i) a.2 (s'.1.hdlr i)) ∨ (i ≠ a.1 ∧ s'.1.hdlr i = s.1.hdlr i) := by
  obtain ⟨-, vm, hstep, hset, -⟩ := h
  rw [hset]
  by_cases hi : i = a.1
  · left
    subst hi
    refine ⟨rfl, ?_⟩
    dsimp only [Watcher.set]
    rwa [Function.update_self]
  · right
    refine ⟨hi, ?_⟩
    dsimp only [Watcher.set]
    rw [Function.update_of_ne hi]

/-- What every step of a VM keeps, every step of the watcher keeps for each VM. -/
lemma WatchStep.keeps {P : WatchedVm → Prop} (hstep : ∀ vm a vm', P vm → VmStep vm a vm' → P vm')
    {s s' : Watcher × Nat} {a : Nat × VmAction} (h : WatchStep s a s') (hP : ∀ i, P (s.1.hdlr i)) :
    ∀ i, P (s'.1.hdlr i) := by
  intro i
  rcases h.vm i with ⟨-, hvm⟩ | ⟨-, hvm⟩
  · exact hstep _ _ _ (hP i) hvm
  · rw [hvm]
    exact hP i

lemma addVms_keeps {P : WatchedVm → Prop} (hP : ∀ r : Registration, P r.vm)
    (regs : List Registration) : ∀ {wv wv' : Watcher}, addVms wv regs = .ok wv' →
      (∀ i, P (wv.hdlr i)) → ∀ i, P (wv'.hdlr i) := by
  induction regs with
  | nil =>
    intro wv wv' h hwv
    cases h
    exact hwv
  | cons r regs ih =>
    intro wv wv' h hwv
    obtain ⟨wv₁, hadd, h⟩ := bind_eq_ok.mp h
    refine ih h fun i => ?_
    unfold wvAddVm at hadd
    split at hadd
    · cases hadd
      dsimp only
      by_cases hi : i = wv.size
      · subst hi
        rw [Function.update_self]
        exact hP r
      · rw [Function.update_of_ne hi]
        exact hwv i
    · cases hadd

/-- What registered VMs have and every step of a VM keeps, all VMs have along every run. -/
lemma watch_always {P : WatchedVm → Prop} (hP : ∀ r : Registration, P r.vm)
    (hstep : ∀ vm a vm', P vm → VmStep vm a vm' → P vm') {regs : List Registration} {wv : Watcher}
    (hadd : addVms wvInit regs = .ok wv) {tr : List ((Nat × VmAction) × (Watcher × Nat))}
    (hrun : IsRun WatchStep (wv, 0) tr) : Always (fun s => ∀ i, P (s.1.hdlr i)) (wv, 0) tr :=
  hrun.always (fun _ _ _ hs h => h.keeps hstep hs) (addVms_keeps hP regs hadd fun _ => hP _)

/-! ### What a visit does -/

section Visit

variable (vm : WatchedVm) (ans : VisitAnswers)

lemma visitVm_shutdown (h : vm.hdlr.state = .shutdown) : visitVm vm ans =
    if ans.vmiInit = false then vm
    else
      { hdlr := { vm.hdlr with bootDone := false, state := .booting }
        cycles := vm.cycles + 1
        threads := if ans.pthreadCreate then (vm.cycles + 1) :: vm.threads else vm.threads
        log := .bootCycle (vm.cycles + 1) :: vm.log } := by
  unfold visitVm getVmState
  dsimp only
  rw [h]
  dsimp only
  split
  · rw [if_neg (by simp [h])]
  · rw [if_neg (by simp)]

lemma visitVm_booting (h : vm.hdlr.state = .booting) (hdone : vm.hdlr.bootDone = false) :
    visitVm vm ans = vm := by
  unfold visitVm getVmState
  dsimp only
  rw [h]
  dsimp only
  rw [hdone, if_neg Bool.false_ne_true, if_neg (by simp [h])]

lemma visitVm_booted (h : vm.hdlr.state = .booting) (hdone : vm.hdlr.bootDone = true) :
    visitVm vm ans =
      let hdlr := { vm.hdlr with state := .restarted }
      if vm.hdlr.restartCb.isSome = true then
        { vm with
          hdlr := { hdlr with okay := if ans.restartCb = 0 then true else hdlr.okay }
          log := .restartCb vm.hdlr.intData ans.restartCb :: vm.log }
      else { vm with hdlr } := by
  unfold visitVm getVmState
  dsimp only
  rw [h]
  dsimp only
  rw [hdone, if_pos rfl]
  dsimp only
  by_cases hcb : vm.hdlr.restartCb.isSome = true
  · rw [if_pos ⟨rfl, hcb⟩, if_pos hcb]
    split
    · rfl
    · rfl
  · rw [if_neg (fun h => hcb h.2), if_neg hcb]

lemma visitVm_running (h : vm.hdlr.state = .running) : visitVm vm ans =
    if vm.hdlr.okay = false ∨ pingVm ans.vcpureg = true then vm
    else
      { vm with
        hdlr := { vm.hdlr with okay := false, state := .destroy }
        log := .pingFailed :: vm.log } := by
  unfold visitVm getVmState
  dsimp only
  rw [h]
  by_cases hokay : vm.hdlr.okay = false
  · simp [h, hokay]
  · by_cases hping : pingVm ans.vcpureg = true
    · simp [h, hokay, hping]
    · simp [hokay, hping]

lemma visitVm_destroy (h : vm.hdlr.state = .destroy) : visitVm vm ans =
    { vm with
      hdlr := { vm.hdlr with state := .shutdown }
      log := .destroy vm.hdlr.okay :: vm.log } := by
  unfold visitVm getVmState
  dsimp only
  rw [h]
  dsimp only
  rw [if_neg (by simp)]

lemma visitVm_restarted (h : vm.hdlr.state = .restarted) : visitVm vm ans =
    { vm with hdlr := { vm.hdlr with state := .running }, log := .running :: vm.log } := by
  unfold visitVm getVmState
  dsimp only
  rw [h]
  dsimp only
  rw [if_neg (by simp)]

end Visit

end Hfm

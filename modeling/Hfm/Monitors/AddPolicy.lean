import Hfm.Int3Loop
import Hfm.InjectFailure
import Hfm.Monitors.FileFilter

/-!
# Adding policies

`src/monitors/monitor.c` hands a policy to the `*_add_policy` function of its monitor. The
first policy for a VM puts traps at the system calls of the monitor, by
`hfm_monitor_syscall` of `src/hfm.c`; every policy adds its path to the monitor's filter.
-/

namespace Hfm

namespace FileCreated

inductive Cb where
  | createfileCb
  | createfileRetCb
  | setinformationCb
  | setinformationRetCb
  deriving DecidableEq

end FileCreated

namespace FileDeleted

inductive Cb where
  | setinformationCb
  | createfileCb
  | setinformationRetCb
  deriving DecidableEq

end FileDeleted

namespace FileModified

inductive Cb where
  | writefileCb
  | writefileRetCb
  deriving DecidableEq

end FileModified

namespace AttrChanged

inductive Cb where
  | setinformationCb
  | setinformationRetCb
  deriving DecidableEq

end AttrChanged

namespace AccessChanged

inductive Cb where
  | setsecurityCb
  | setsecurityRetCb
  deriving DecidableEq

end AccessChanged

/-- The callbacks of the five monitors, each a static function of its file. -/
inductive MonCb where
  | fileCreated (cb : FileCreated.Cb)
  | fileDeleted (cb : FileDeleted.Cb)
  | fileModified (cb : FileModified.Cb)
  | attrChanged (cb : AttrChanged.Cb)
  | accessChanged (cb : AccessChanged.Cb)
  deriving DecidableEq

/-- The arguments of a call of `hfm_monitor_syscall`. -/
structure SyscallHook where
  funcName : CStr
  sysCb : MonCb
  retCb : Option MonCb
  deriving DecidableEq

/-- The calls of `hfm_monitor_syscall` that a monitor makes. -/
def Plugin.hooks (winver : WinVer) : Plugin → List SyscallHook
  | .fileCreated =>
    let createfile := (MonCb.fileCreated .createfileCb, some (MonCb.fileCreated .createfileRetCb))
    let setinformation :=
      (MonCb.fileCreated .setinformationCb, some (MonCb.fileCreated .setinformationRetCb))
    [⟨cstr "NtOpenFile", createfile.1, createfile.2⟩,
      ⟨cstr "NtCreateFile", createfile.1, createfile.2⟩,
      ⟨cstr "NtSetInformationFile", setinformation.1, setinformation.2⟩,
      ⟨cstr "ZwSetInformationFile", setinformation.1, setinformation.2⟩]
  | .fileDeleted =>
    if winver = .windows8 then
      [⟨cstr "NtCreateFile", .fileDeleted .createfileCb, none⟩,
        ⟨cstr "ZwCreateFile", .fileDeleted .createfileCb, none⟩]
    else
      [⟨cstr "NtSetInformationFile", .fileDeleted .setinformationCb,
          some (.fileDeleted .setinformationRetCb)⟩,
        ⟨cstr "ZwSetInformationFile", .fileDeleted .setinformationCb,
          some (.fileDeleted .setinformationRetCb)⟩]
  | .fileModified =>
    [⟨cstr "NtWriteFile", .fileModified .writefileCb, some (.fileModified .writefileRetCb)⟩,
      ⟨cstr "ZwWriteFile", .fileModified .writefileCb, some (.fileModified .writefileRetCb)⟩]
  | .attrChanged =>
    [⟨cstr "NtSetInformationFile", .attrChanged .setinformationCb,
        some (.attrChanged .setinformationRetCb)⟩,
      ⟨cstr "ZwSetInformationFile", .attrChanged .setinformationCb,
        some (.attrChanged .setinformationRetCb)⟩]
  | .accessChanged =>
    [⟨cstr "NtSetSecurityObject", .accessChanged .setsecurityCb,
        some (.accessChanged .setsecurityRetCb)⟩,
      ⟨cstr "ZwSetSecurityObject", .accessChanged .setsecurityCb,
        some (.accessChanged .setsecurityRetCb)⟩]

/-- The answers to one call of `hfm_monitor_syscall`; a failed translation answers 0. -/
structure SyscallCalls where
  translateKsym2v : UInt64
  translateKv2p : UInt64 → Nat
  inject : InjectCalls

variable {ε : Type}

/-- The trap at the entry of a system call. Every name fits into the trap. -/
def SyscallHook.trap (hook : SyscallHook) (addr pa : Nat) : Trap MonCb ε where
  addr := addr
  name := hook.funcName
  cb := some hook.sysCb
  retCb := hook.retCb
  pa := pa
  selfDestroy := false
  extra := none

/-- The status is `SUCCESS` also where the code jumps to `done`, and the status of
`_inject_trap` is dropped. -/
def hfmMonitorSyscall (vm : Vm MonCb ε) (calls : SyscallCalls) (hook : SyscallHook) :
    Except Fault (HfmStatus × Vm MonCb ε) :=
  let funcAddr := calls.translateKsym2v
  if funcAddr = 0 then .ok (.success, vm)
  else
    let pa := calls.translateKv2p funcAddr
    if pa = 0 then .ok (.success, vm)
    else do
      let (_, vm) ← injectTrap { vm with brk := vm.brk + 1 } calls.inject (hook.trap vm.brk pa)
      return (.success, vm)

/-- The calls of `hfm_monitor_syscall` one after the other, with the answers by name. -/
def monitorSyscalls (calls : CStr → SyscallCalls) :
    Vm MonCb ε → List SyscallHook → Except Fault (Vm MonCb ε)
  | vm, [] => .ok vm
  | vm, hook :: hooks => do
    let (_, vm) ← hfmMonitorSyscall vm (calls hook.funcName) hook
    monitorSyscalls calls vm hooks

/-- The static variables `filter` of the five files, shared by all VMs. -/
abbrev Filters := Plugin → Option Filter

def Vm.setInit (vm : Vm MonCb ε) (plugin : Plugin) : Vm MonCb ε :=
  { vm with hdlr := { vm.hdlr with init := Function.update vm.hdlr.init plugin 1 } }

/-- The flag is set whatever became of the hooks. -/
def initMonitor (plugin : Plugin) (vm : Vm MonCb ε) (calls : CStr → SyscallCalls) :
    Except Fault (Vm MonCb ε) :=
  if vm.hdlr.init plugin = 0 then do
    let vm ← monitorSyscalls calls vm (plugin.hooks vm.hdlr.winver)
    return vm.setInit plugin
  else .ok vm

/-- What the `*_add_policy` functions have in common. -/
def addPolicy (plugin : Plugin) (filters : Filters) (vm : Vm MonCb ε)
    (calls : CStr → SyscallCalls) (policy : Policy) :
    Except Fault (HfmStatus × Filters × Vm MonCb ε) := do
  let filter := (filters plugin).getD filterInit
  let vm ← initMonitor plugin vm calls
  let (_, filter) ← filterAdd filter policy.path policy.id
  return (.success, Function.update filters plugin (some filter), vm)

def fileCreatedAddPolicy (filters : Filters) (vm : Vm MonCb ε) (calls : CStr → SyscallCalls)
    (policy : Policy) := addPolicy .fileCreated filters vm calls policy

def fileDeletedAddPolicy (filters : Filters) (vm : Vm MonCb ε) (calls : CStr → SyscallCalls)
    (policy : Policy) := addPolicy .fileDeleted filters vm calls policy

def fileModifiedAddPolicy (filters : Filters) (vm : Vm MonCb ε) (calls : CStr → SyscallCalls)
    (policy : Policy) := addPolicy .fileModified filters vm calls policy

def attrChangedAddPolicy (filters : Filters) (vm : Vm MonCb ε) (calls : CStr → SyscallCalls)
    (policy : Policy) := addPolicy .attrChanged filters vm calls policy

def accessChangedAddPolicy (filters : Filters) (vm : Vm MonCb ε) (calls : CStr → SyscallCalls)
    (policy : Policy) := addPolicy .accessChanged filters vm calls policy

/-- The status of the monitor is dropped. -/
def monAddPolicy (filters : Filters) (vm : Vm MonCb ε) (calls : CStr → SyscallCalls)
    (policy : Policy) : Except Fault (HfmStatus × Filters × Vm MonCb ε) := do
  let (_, filters, vm) ←
    match policy.type with
    | .create => fileCreatedAddPolicy filters vm calls policy
    | .delete => fileDeletedAddPolicy filters vm calls policy
    | .modifyContent => fileModifiedAddPolicy filters vm calls policy
    | .changeAttr => attrChangedAddPolicy filters vm calls policy
    | .changeAccess => accessChangedAddPolicy filters vm calls policy
    | _ => .ok (.success, filters, vm)
  return (.success, filters, vm)

/-- The monitor that a policy goes to. -/
def Monitor.plugin : Monitor → Option Plugin
  | .create => some .fileCreated
  | .delete => some .fileDeleted
  | .modifyContent => some .fileModified
  | .changeAttr => some .attrChanged
  | .changeAccess => some .accessChanged
  | _ => none

lemma monAddPolicy_eq (filters : Filters) (vm : Vm MonCb ε) (calls : CStr → SyscallCalls)
    (policy : Policy) : monAddPolicy filters vm calls policy =
      match policy.type.plugin with
      | some plugin => addPolicy plugin filters vm calls policy
      | none => .ok (.success, filters, vm) := by
  have hstatus : ∀ plugin, (do
      let (_, filters, vm) ← addPolicy plugin filters vm calls policy
      return (HfmStatus.success, filters, vm)) = addPolicy plugin filters vm calls policy := by
    intro plugin
    unfold addPolicy
    cases initMonitor plugin vm calls with
    | error fault => rfl
    | ok vm =>
      simp only [bind, Except.bind]
      cases filterAdd ((filters plugin).getD filterInit) policy.path policy.id with
      | error fault => rfl
      | ok r => rfl
  unfold monAddPolicy
  cases policy.type with
  | create => exact hstatus .fileCreated
  | delete => exact hstatus .fileDeleted
  | modifyContent => exact hstatus .fileModified
  | changeAttr => exact hstatus .attrChanged
  | changeAccess => exact hstatus .accessChanged
  | _ => rfl

/-! ### What is installed -/

section Inject

variable {κ ε : Type}

lemma createShadowPage_mem (vm : Vm κ ε) (calls : ShadowCalls) (pa : Nat) :
    (createShadowPage vm calls (pa >>> PAGE_OFFSET_BITS)).2.machine.mem pa = vm.machine.mem pa := by
  unfold createShadowPage
  dsimp only
  generalize vm.hdlr.memsize + 4096 = proposedMemsize
  have hmem := (xenAllocShadowFrame_machine vm.machine calls proposedMemsize.toUInt64).1
  generalize xenAllocShadowFrame vm.machine calls proposedMemsize.toUInt64 = alloc at hmem ⊢
  obtain ⟨remapped, m⟩ := alloc
  dsimp only at hmem ⊢
  have hcopy : (({ m with slat := Function.update m.slat (pa >>> PAGE_OFFSET_BITS) remapped }).write
      (remapped <<< PAGE_OFFSET_BITS) (fun i => m.mem (pa >>> PAGE_OFFSET_BITS <<< PAGE_OFFSET_BITS + i))
        (min calls.writePa PAGESIZE)).mem pa = vm.machine.mem pa := by
    by_cases hr : pa >>> PAGE_OFFSET_BITS = remapped
    · -- a frame copied onto itself
      subst hr
      rw [Machine.write]
      dsimp only
      split
      · rename_i hin
        rw [Nat.add_sub_cancel' hin.1, hmem]
      · rw [hmem]
    · rw [write_outside _ _ _ (Nat.min_le_right _ _) hr, ← hmem]
  split
  · exact congrFun hmem pa
  · split
    · exact congrFun hmem pa
    · split
      · exact congrFun hmem pa
      · split
        · exact hcopy
        · exact hcopy

lemma shadowOf_mem (vm : Vm κ ε) (calls : InjectCalls) (pa : Nat) :
    (shadowOf vm calls (pa >>> PAGE_OFFSET_BITS)).2.machine.mem pa = vm.machine.mem pa := by
  unfold shadowOf
  split
  · rfl
  · have hmem := createShadowPage_mem vm calls.shadow pa
    dsimp only
    split
    · exact hmem
    · exact hmem

/-- `_inject_trap` succeeds at an address in use, or where it can set the byte. -/
lemma injectTrap_status {vm vm' : Vm κ ε} {calls : InjectCalls} {trap : Trap κ ε}
    {status : HfmStatus} (h : injectTrap vm calls trap = .ok (status, vm')) :
    status = .success ↔ tmTrapExist vm.tm trap.pa = true ∨ ¬ByteFails vm calls trap.pa := by
  have hmem := shadowOf_mem vm calls trap.pa
  rw [← congrFun (protectFrame_keeps _ calls (trap.pa >>> PAGE_OFFSET_BITS)).1 trap.pa] at hmem
  have hnone := (setInt3_eq vm calls trap.pa).1
  unfold ByteFails at hnone ⊢
  rw [hmem] at hnone
  unfold injectTrap at h
  split at h
  · rename_i hex
    cases h
    simp [hex]
  · rename_i hex
    rw [Bool.not_eq_true] at hex
    split at h
    · rename_i vm₁ heq
      cases h
      simp [hex, hnone.mp (by rw [heq])]
    · rename_i doubletrap vm₁ heq
      obtain ⟨tm, -, h⟩ := bind_eq_ok.mp h
      cases h
      have hok : ¬(setInt3 vm calls trap.pa).1 = none := by rw [heq]; simp
      rw [hnone] at hok
      simp only [hok, not_false_eq_true, or_true]

end Inject

/-- Neither translation fails, and `_inject_trap` can put its trap at the address. -/
def SyscallCalls.Install (calls : SyscallCalls) (vm : Vm MonCb ε) : Prop :=
  let pa := calls.translateKv2p calls.translateKsym2v
  calls.translateKsym2v ≠ 0 ∧ pa ≠ 0 ∧
    (tmTrapExist vm.tm pa = true ∨ ¬ByteFails vm calls.inject pa)

/-- One of the calls for `hooks` installs `hook`. -/
def Installs (calls : CStr → SyscallCalls) (hook : SyscallHook) :
    Vm MonCb ε → List SyscallHook → Prop
  | _, [] => False
  | vm, h :: hooks => h = hook ∧ (calls h.funcName).Install vm ∨
      ∃ status vm', hfmMonitorSyscall vm (calls h.funcName) h = .ok (status, vm') ∧
        Installs calls hook vm' hooks

/-- The trap was made by `hfm_monitor_syscall` for `hook`. -/
def SyscallHook.Made (hook : SyscallHook) (t : Trap MonCb ε) : Prop := t = hook.trap t.addr t.pa

instance (hook : SyscallHook) (t : Trap MonCb ε) : Decidable (hook.Made t) :=
  decidable_of_iff (t.name = hook.funcName ∧ t.cb = some hook.sysCb ∧ t.retCb = hook.retCb ∧
      t.selfDestroy = false ∧ t.extra = none) (by
    cases t
    simp only [SyscallHook.Made, SyscallHook.trap, Trap.mk.injEq, true_and])

lemma SyscallHook.Made.unique {hook hook' : SyscallHook} {t : Trap MonCb ε} (h : hook.Made t)
    (h' : hook'.Made t) : hook = hook' := by
  have htrap : hook.trap t.addr t.pa = hook'.trap t.addr t.pa := h.symm.trans h'
  simp only [SyscallHook.trap, Trap.mk.injEq, Option.some.injEq] at htrap
  obtain ⟨-, hname, hcb, hret, -⟩ := htrap
  cases hook
  cases hook'
  simp_all

/-- The trap made, if any, is the only one more than before. -/
lemma hfmMonitorSyscall_spec (vm : Vm MonCb ε) (calls : SyscallCalls) (hook : SyscallHook) :
    ∃ (vm' : Vm MonCb ε) (made : Option (Trap MonCb ε)),
      hfmMonitorSyscall vm calls hook = .ok (.success, vm') ∧ Aside vm vm' ∧
      (∀ reg, Registered vm reg → Registered vm' (reg ++ made.toList)) ∧
      (∀ t, made = some t → hook.Made t) ∧ (made.isSome = true ↔ calls.Install vm) := by
  unfold hfmMonitorSyscall SyscallCalls.Install
  dsimp only
  by_cases hsym : calls.translateKsym2v = 0
  · refine ⟨vm, none, if_pos hsym, Aside.refl vm, fun reg h => ?_, by simp, by simp [hsym]⟩
    simpa using h
  rw [if_neg hsym]
  by_cases hpa : calls.translateKv2p calls.translateKsym2v = 0
  · refine ⟨vm, none, if_pos hpa, Aside.refl vm, fun reg h => ?_, by simp, by simp [hpa]⟩
    simpa using h
  rw [if_neg hpa]
  generalize calls.translateKv2p calls.translateKsym2v = pa at hpa ⊢
  obtain ⟨status, vm', hok, haside, -⟩ :=
    injectTrap_spec { vm with brk := vm.brk + 1 } calls.inject (hook.trap vm.brk pa)
  have hbrk : Aside vm { vm with brk := vm.brk + 1 } := ⟨rfl, rfl, rfl, rfl, Nat.le_succ _⟩
  have hstatus := injectTrap_status hok
  refine ⟨vm', if status = .success then some (hook.trap vm.brk pa) else none, ?_,
    hbrk.trans haside, ?_, ?_, ?_⟩
  · rw [hok]
    rfl
  · intro reg hreg
    obtain ⟨status', vm₁, hok', -, hreg'⟩ :=
      hreg.inject calls.inject (rfl : (hook.trap vm.brk pa).addr = vm.brk)
    rw [hok] at hok'
    cases hok'
    split
    · rename_i hs
      rw [if_pos hs] at hreg'
      exact hreg'
    · rename_i hs
      rw [if_neg hs] at hreg'
      simpa using hreg'
  · intro t ht
    split at ht
    · cases ht
      rfl
    · cases ht
  · rw [show (tmTrapExist vm.tm pa = true ∨ ¬ByteFails vm calls.inject pa) ↔ status = .success from
      hstatus.symm]
    by_cases hs : status = .success
    · simp [hs, hsym, hpa]
    · simp [hs]

lemma monitorSyscalls_spec (calls : CStr → SyscallCalls) (hooks : List SyscallHook) :
    ∀ vm : Vm MonCb ε, ∃ vm' made, monitorSyscalls calls vm hooks = .ok vm' ∧ Aside vm vm' ∧
      (∀ reg, Registered vm reg → Registered vm' (reg ++ made)) ∧
      (∀ t ∈ made, ∃ hook ∈ hooks, hook.Made t) ∧
      (∀ hook, made.countP (hook.Made ·) ≤ hooks.count hook) ∧
      ∀ hook, (∃ t ∈ made, hook.Made t) ↔ Installs calls hook vm hooks := by
  induction hooks with
  | nil =>
    intro vm
    refine ⟨vm, [], rfl, Aside.refl vm, fun reg h => ?_, by simp, by simp, by simp [Installs]⟩
    simpa using h
  | cons h hooks ih =>
    intro vm
    obtain ⟨vm₁, first, hok₁, haside₁, hreg₁, hmade₁, hinst₁⟩ :=
      hfmMonitorSyscall_spec vm (calls h.funcName) h
    obtain ⟨vm₂, rest, hok₂, haside₂, hreg₂, hmade₂, hcount₂, hinst₂⟩ := ih vm₁
    refine ⟨vm₂, first.toList ++ rest, ?_, haside₁.trans haside₂, fun reg hreg => ?_, ?_, ?_, ?_⟩
    · rw [monitorSyscalls, hok₁]
      exact hok₂
    · rw [← List.append_assoc]
      exact hreg₂ _ (hreg₁ reg hreg)
    · intro t ht
      rcases List.mem_append.mp ht with ht | ht
      · exact ⟨h, List.mem_cons_self, hmade₁ t (by simpa using ht)⟩
      · obtain ⟨hook, hmem, hmade⟩ := hmade₂ t ht
        exact ⟨hook, List.mem_cons_of_mem _ hmem, hmade⟩
    · intro hook
      have hrest := hcount₂ hook
      rw [List.countP_append, List.count_cons]
      cases first with
      | none =>
        simp only [Option.toList_none, List.countP_nil]
        omega
      | some t =>
        by_cases hmade : hook.Made t
        · obtain rfl := hmade.unique (hmade₁ t rfl)
          simp only [Option.toList_some, List.countP_singleton, hmade, decide_true, if_true, beq_self_eq_true]
          omega
        · simp only [Option.toList_some, List.countP_singleton, hmade, decide_false,
            Bool.false_eq_true, if_false]
          omega
    · intro hook
      rw [Installs, ← hinst₁]
      constructor
      · rintro ⟨t, ht, hmade⟩
        rcases List.mem_append.mp ht with ht | ht
        · left
          have ht : first = some t := by simpa using ht
          exact ⟨(hmade₁ t ht).unique hmade, by rw [ht]; rfl⟩
        · right
          exact ⟨_, vm₁, hok₁, (hinst₂ hook).mp ⟨t, ht, hmade⟩⟩
      · rintro (⟨rfl, hsome⟩ | ⟨status, vm', hok, hinst⟩)
        · obtain ⟨t, ht⟩ := Option.isSome_iff_exists.mp hsome
          exact ⟨t, by simp [ht], hmade₁ t ht⟩
        · rw [hok₁] at hok
          cases hok
          obtain ⟨t, ht, hmade⟩ := (hinst₂ hook).mpr hinst
          exact ⟨t, List.mem_append_right _ ht, hmade⟩

/-- What `initMonitor` may change of a handler. -/
structure Initialised (plugin : Plugin) (vm vm' : Vm MonCb ε) : Prop where
  hdlr : vm'.hdlr = { vm.hdlr with
    trapManager := vm'.hdlr.trapManager
    memsize := vm'.hdlr.memsize
    interrupted := vm'.hdlr.interrupted
    init := vm'.hdlr.init }
  init : vm'.hdlr.init =
    if vm.hdlr.init plugin = 0 then Function.update vm.hdlr.init plugin 1 else vm.hdlr.init

lemma initMonitor_spec (plugin : Plugin) (vm : Vm MonCb ε) (calls : CStr → SyscallCalls) :
    ∃ vm' made, initMonitor plugin vm calls = .ok vm' ∧ Initialised plugin vm vm' ∧
      (∀ reg, Registered vm reg → Registered vm' (reg ++ made)) ∧
      (∀ t ∈ made, ∃ hook ∈ plugin.hooks vm.hdlr.winver, hook.Made t) ∧
      (∀ hook, made.countP (hook.Made ·) ≤ (plugin.hooks vm.hdlr.winver).count hook) ∧
      ∀ hook, (∃ t ∈ made, hook.Made t) ↔
        vm.hdlr.init plugin = 0 ∧ Installs calls hook vm (plugin.hooks vm.hdlr.winver) := by
  unfold initMonitor
  by_cases hinit : vm.hdlr.init plugin = 0
  · obtain ⟨vm', made, hok, haside, hreg, hmade, hcount, hinst⟩ :=
      monitorSyscalls_spec calls (plugin.hooks vm.hdlr.winver) vm
    have hsame : vm'.hdlr.init = vm.hdlr.init := by rw [haside.hdlr]
    refine ⟨vm'.setInit plugin, made, ?_, ⟨?_, ?_⟩, fun reg h => ?_, hmade, hcount, fun hook => ?_⟩
    · rw [if_pos hinit, hok]
      rfl
    · exact congrArg (fun h : Vmhdlr MonCb ε =>
        { h with init := Function.update vm'.hdlr.init plugin 1 }) haside.hdlr
    · rw [if_pos hinit, ← hsame]
      rfl
    · exact (hreg reg h).congr rfl (Nat.le_refl _)
    · rw [hinst]
      simp [hinit]
  · refine ⟨vm, [], if_neg hinit, ⟨rfl, by rw [if_neg hinit]⟩, fun reg h => ?_, by simp, by simp,
      by simp [hinit]⟩
    simpa using h

lemma addPolicy_ok {plugin : Plugin} {filters filters' : Filters} {vm vm' : Vm MonCb ε}
    {calls : CStr → SyscallCalls} {policy : Policy} {status : HfmStatus}
    (h : addPolicy plugin filters vm calls policy = .ok (status, filters', vm')) :
    status = .success ∧ initMonitor plugin vm calls = .ok vm' ∧ ∃ added filter',
      filterAdd ((filters plugin).getD filterInit) policy.path policy.id = .ok (added, filter') ∧
      filters' = Function.update filters plugin (some filter') := by
  obtain ⟨vm₁, hinit, h⟩ := bind_eq_ok.mp h
  obtain ⟨⟨added, filter'⟩, hadd, h⟩ := bind_eq_ok.mp h
  cases h
  exact ⟨rfl, hinit, added, filter', hadd, rfl⟩

end Hfm

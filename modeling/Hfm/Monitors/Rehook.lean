import Hfm.Monitors.Activation
import Hfm.Monitors.Restarts

/-!
# The hooks of a VM over its restarts

The flag of a monitor says that its system calls are hooked. A restart starts over with an
empty trap manager and cleared flags.
-/

namespace Hfm

open Support

variable {ε : Type}

/-- The traps that the tables hold for the entry of a system call are at most one. -/
structure AtMostOnce (vm : Vm MonCb ε) (hook : SyscallHook) : Prop where
  count : ∀ pa, (vm.tm.traps (tmInt3trapsAtPa vm.tm pa)).countP (hook.Made ·) ≤ 1
  same : ∀ pa pa', ∀ t ∈ vm.tm.traps (tmInt3trapsAtPa vm.tm pa),
    ∀ t' ∈ vm.tm.traps (tmInt3trapsAtPa vm.tm pa'), hook.Made t → hook.Made t' → t = t'

/-- The pairs of a callback and the system call it is hooked to. -/
def hookedPairs (vm : Vm MonCb ε) : Set (MonCb × CStr) :=
  fun pair => ∃ pa, ∃ t ∈ vm.tm.traps (tmInt3trapsAtPa vm.tm pa),
    t.cb = some pair.1 ∧ t.name = pair.2

def HasAction (policies : List Policy) (plugin : Plugin) : Prop :=
  ∃ policy ∈ policies, policy.type.plugin = some plugin

/-- Each system call of a monitor is hooked once at most, and all of them are exactly if a
policy for the monitor was added. -/
structure HooksExact (vm : Vm MonCb ε) (added : List Policy) : Prop where
  once : ∀ plugin, ∀ hook ∈ Plugin.hooks vm.hdlr.winver plugin, AtMostOnce vm hook
  all : ∀ plugin, (∀ hook ∈ Plugin.hooks vm.hdlr.winver plugin, Hooked vm hook) ↔
    HasAction added plugin

/-! ### The monitors share no hook -/

def MonCb.plugin : MonCb → Plugin
  | .fileCreated _ => .fileCreated
  | .fileDeleted _ => .fileDeleted
  | .fileModified _ => .fileModified
  | .attrChanged _ => .attrChanged
  | .accessChanged _ => .accessChanged

lemma hooks_plugin {winver : WinVer} {plugin : Plugin} {hook : SyscallHook}
    (h : hook ∈ Plugin.hooks winver plugin) : hook.sysCb.plugin = plugin := by
  cases plugin with
  | fileDeleted =>
    rw [Plugin.hooks] at h
    split at h <;>
    · simp only [List.mem_cons, List.not_mem_nil, or_false] at h
      rcases h with rfl | rfl <;> rfl
  | fileCreated =>
    simp only [Plugin.hooks, List.mem_cons, List.not_mem_nil, or_false] at h
    rcases h with rfl | rfl | rfl | rfl <;> rfl
  | _ =>
    simp only [Plugin.hooks, List.mem_cons, List.not_mem_nil, or_false] at h
    rcases h with rfl | rfl <;> rfl

lemma hooks_nodup (winver : WinVer) (plugin : Plugin) : (Plugin.hooks winver plugin).Nodup := by
  cases plugin with
  | fileDeleted =>
    rw [Plugin.hooks]
    split <;> decide
  | _ =>
    rw [Plugin.hooks]
    decide

lemma hooks_ne_nil (winver : WinVer) (plugin : Plugin) : Plugin.hooks winver plugin ≠ [] := by
  cases plugin with
  | fileDeleted =>
    rw [Plugin.hooks]
    split <;> simp
  | _ => simp [Plugin.hooks]

/-! ### The flags tell what is hooked -/

/-- The tables hold one trap for each system call of the monitors whose flag is set, and
nothing else. -/
structure Flagged (vm : Vm MonCb ε) (reg : List (Trap MonCb ε)) : Prop where
  registered : Registered vm reg
  count : ∀ plugin, ∀ hook ∈ Plugin.hooks vm.hdlr.winver plugin,
    reg.countP (hook.Made ·) = if vm.hdlr.init plugin = 0 then 0 else 1
  made : ∀ t ∈ reg, ∃ plugin, vm.hdlr.init plugin ≠ 0 ∧
    ∃ hook ∈ Plugin.hooks vm.hdlr.winver plugin, hook.Made t

lemma flagged_start {vm : Vm MonCb ε} (htm : vm.tm = tmInit) (hinit : ∀ plugin, vm.hdlr.init plugin = 0) :
    Flagged vm [] := by
  refine ⟨⟨?_, List.nodup_nil, by simp⟩, fun plugin hook _ => by simp [hinit], by simp⟩
  rw [htm]
  exact indexed_tmInit

lemma eq_of_countP_le_one {α : Type} {p : α → Bool} {l : List α} (h : l.countP p ≤ 1) {x y : α}
    (hx : x ∈ l) (hy : y ∈ l) (hpx : p x = true) (hpy : p y = true) : x = y := by
  rw [List.countP_eq_length_filter] at h
  have hx' : x ∈ l.filter p := List.mem_filter.mpr ⟨hx, hpx⟩
  have hy' : y ∈ l.filter p := List.mem_filter.mpr ⟨hy, hpy⟩
  match hl : l.filter p, h with
  | [], _ =>
    rw [hl] at hx'
    cases hx'
  | [z], _ =>
    rw [hl, List.mem_singleton] at hx' hy'
    rw [hx', hy']
  | _ :: _ :: _, h =>
    simp only [List.length_cons] at h
    omega

section Flagged

variable {vm : Vm MonCb ε} {reg : List (Trap MonCb ε)}

lemma Flagged.traps (h : Flagged vm reg) (pa : Nat) :
    vm.tm.traps (tmInt3trapsAtPa vm.tm pa) = reg.filter (belongs · (.inl pa)) :=
  h.registered.indexed.traps_head (.inl pa)

lemma Flagged.hooked_iff (h : Flagged vm reg) {plugin : Plugin} {hook : SyscallHook}
    (hmem : hook ∈ Plugin.hooks vm.hdlr.winver plugin) : Hooked vm hook ↔ vm.hdlr.init plugin ≠ 0 := by
  rw [h.registered.hooked_iff]
  have hcount := h.count plugin hook hmem
  have hpos : 0 < reg.countP (hook.Made ·) ↔ ∃ t ∈ reg, hook.Made t := by
    simp [List.countP_pos_iff]
  rw [← hpos, hcount]
  by_cases hinit : vm.hdlr.init plugin = 0
  · simp [hinit]
  · simp [hinit]

lemma Flagged.atMostOnce (h : Flagged vm reg) {plugin : Plugin} {hook : SyscallHook}
    (hmem : hook ∈ Plugin.hooks vm.hdlr.winver plugin) : AtMostOnce vm hook := by
  have hcount : reg.countP (hook.Made ·) ≤ 1 := by
    rw [h.count plugin hook hmem]
    split <;> omega
  refine ⟨fun pa => ?_, fun pa pa' t ht t' ht' hmade hmade' => ?_⟩
  · rw [h.traps]
    exact Nat.le_trans (List.Sublist.countP_le List.filter_sublist) hcount
  · rw [h.traps] at ht ht'
    exact eq_of_countP_le_one hcount (List.mem_filter.mp ht).1 (List.mem_filter.mp ht').1
      (by simpa using hmade) (by simpa using hmade')

lemma Flagged.mem_hookedPairs (h : Flagged vm reg) (pair : MonCb × CStr) :
    pair ∈ hookedPairs vm ↔ ∃ plugin, vm.hdlr.init plugin ≠ 0 ∧
      ∃ hook ∈ Plugin.hooks vm.hdlr.winver plugin, (hook.sysCb, hook.funcName) = pair := by
  constructor
  · rintro ⟨pa, t, ht, hcb, hname⟩
    rw [h.traps] at ht
    obtain ⟨plugin, hinit, hook, hmem, hmade⟩ := h.made t (List.mem_filter.mp ht).1
    refine ⟨plugin, hinit, hook, hmem, ?_⟩
    rw [hmade] at hcb hname
    simp only [SyscallHook.trap, Option.some.injEq] at hcb hname
    rw [hcb, hname]
  · rintro ⟨plugin, hinit, hook, hmem, rfl⟩
    obtain ⟨addr, pa, htrap⟩ := (h.hooked_iff hmem).mpr hinit
    exact ⟨pa, _, htrap, rfl, rfl⟩

end Flagged

/-! ### Adding policies and restarting -/

section Initialised

variable {vm vm' : Vm MonCb ε} {plugin : Plugin}

lemma Initialised.self (h : Initialised plugin vm vm') : vm'.hdlr.init plugin ≠ 0 := by
  rw [h.init]
  by_cases hinit : vm.hdlr.init plugin = 0
  · rw [if_pos hinit, Function.update_self]
    decide
  · rwa [if_neg hinit]

lemma Initialised.other (h : Initialised plugin vm vm') {other : Plugin} (hother : other ≠ plugin) :
    vm'.hdlr.init other = vm.hdlr.init other := by
  rw [h.init]
  split
  · rw [Function.update_of_ne hother]
  · rfl

end Initialised

lemma Flagged.initMonitor {vm : Vm MonCb ε} {reg : List (Trap MonCb ε)} (h : Flagged vm reg)
    {plugin : Plugin} {calls : CStr → SyscallCalls}
    (hinstall : vm.hdlr.init plugin = 0 → ∀ hook ∈ plugin.hooks vm.hdlr.winver,
      Installs calls hook vm (plugin.hooks vm.hdlr.winver)) :
    ∃ vm' reg', initMonitor plugin vm calls = .ok vm' ∧ Initialised plugin vm vm' ∧
      Flagged vm' reg' := by
  obtain ⟨vm', made, hok, hinitialised, hreg, hmade, hcount, hinst⟩ := initMonitor_spec plugin vm calls
  have hwinver : vm'.hdlr.winver = vm.hdlr.winver := by rw [hinitialised.hdlr]
  refine ⟨vm', reg ++ made, hok, hinitialised, hreg reg h.registered, ?_, ?_⟩
  · intro other hook hmem
    rw [hwinver] at hmem
    have hbefore := h.count other hook hmem
    rw [List.countP_append, hbefore]
    by_cases hother : other = plugin
    · subst hother
      rw [if_neg hinitialised.self]
      by_cases hinit : vm.hdlr.init other = 0
      · have hle := Nat.le_trans (hcount hook) (List.nodup_iff_count_le_one.mp (hooks_nodup _ _) hook)
        have hpos : 0 < made.countP (hook.Made ·) := by
          obtain ⟨t, ht, htmade⟩ := (hinst hook).mpr ⟨hinit, hinstall hinit hook hmem⟩
          exact List.countP_pos_iff.mpr ⟨t, ht, by simpa using htmade⟩
        rw [if_pos hinit]
        omega
      · have hzero : made.countP (hook.Made ·) = 0 := by
          rw [List.countP_eq_zero]
          intro t ht htmade
          exact hinit ((hinst hook).mp ⟨t, ht, by simpa using htmade⟩).1
        rw [if_neg hinit, hzero]
    · have hzero : made.countP (hook.Made ·) = 0 := by
        rw [List.countP_eq_zero]
        intro t ht htmade
        obtain ⟨hook', hmem', hmade'⟩ := hmade t ht
        have hsame := SyscallHook.Made.unique (by simpa using htmade) hmade'
        exact hother (by rw [← hooks_plugin hmem, hsame, hooks_plugin hmem'])
      rw [hzero, Nat.add_zero, hinitialised.other hother]
  · have hkeep : ∀ other, vm.hdlr.init other ≠ 0 → vm'.hdlr.init other ≠ 0 := by
      intro other hne
      by_cases hother : other = plugin
      · subst hother
        exact hinitialised.self
      · rwa [hinitialised.other hother]
    intro t ht
    rw [hwinver]
    rcases List.mem_append.mp ht with ht | ht
    · obtain ⟨other, hne, hook, hmem, htmade⟩ := h.made t ht
      exact ⟨other, hkeep other hne, hook, hmem, htmade⟩
    · obtain ⟨hook, hmem, htmade⟩ := hmade t ht
      exact ⟨plugin, hinitialised.self, hook, hmem, htmade⟩

/-- The hooks that the call makes, if any, are all made. -/
def AddCall.HooksSucceed (call : AddCall) (m : Monitored ε) : Prop :=
  let vm := m.vms call.vm
  ∀ plugin, call.policy.type.plugin = some plugin → vm.hdlr.init plugin = 0 →
    ∀ hook ∈ plugin.hooks vm.hdlr.winver,
      Installs call.calls hook vm (plugin.hooks vm.hdlr.winver)

def HooksSucceed : Monitored ε → List AddCall → Prop
  | _, [] => True
  | m, call :: rest => call.HooksSucceed m ∧ ∀ m', m.add call = .ok m' → HooksSucceed m' rest

/-- The flags say which monitors got a policy. -/
structure Managed (vm : Vm MonCb ε) (added : List Policy) : Prop where
  flagged : ∃ reg, Flagged vm reg
  action : ∀ plugin, vm.hdlr.init plugin ≠ 0 ↔ HasAction added plugin

lemma hasAction_append {added added' : List Policy} {plugin : Plugin} :
    HasAction (added ++ added') plugin ↔ HasAction added plugin ∨ HasAction added' plugin := by
  unfold HasAction
  simp only [List.mem_append, or_and_right, exists_or]

lemma Managed.exact {vm : Vm MonCb ε} {added : List Policy} (h : Managed vm added) :
    HooksExact vm added := by
  obtain ⟨⟨reg, hflagged⟩, haction⟩ := h
  refine ⟨fun plugin hook hmem => hflagged.atMostOnce hmem, fun plugin => ?_⟩
  rw [← haction]
  constructor
  · intro hall
    obtain ⟨hook, hmem⟩ := List.exists_mem_of_ne_nil _ (hooks_ne_nil vm.hdlr.winver plugin)
    exact (hflagged.hooked_iff hmem).mp (hall hook hmem)
  · exact fun hinit hook hmem => (hflagged.hooked_iff hmem).mpr hinit

/-- The version of Windows and the policies added decide what is hooked. -/
lemma Managed.mem_hookedPairs {vm : Vm MonCb ε} {added : List Policy} (h : Managed vm added)
    (pair : MonCb × CStr) : pair ∈ hookedPairs vm ↔ ∃ plugin, HasAction added plugin ∧
      ∃ hook ∈ Plugin.hooks vm.hdlr.winver plugin, (hook.sysCb, hook.funcName) = pair := by
  obtain ⟨⟨reg, hflagged⟩, haction⟩ := h
  rw [hflagged.mem_hookedPairs]
  simp only [haction]

lemma Managed.add {m m' : Monitored ε} {call : AddCall} {added : List Policy}
    (h : Managed (m.vms call.vm) added) (hsucceed : call.HooksSucceed m) (hok : m.add call = .ok m') :
    Managed (m'.vms call.vm) (added ++ [call.policy]) ∧
      (m'.vms call.vm).hdlr.winver = (m.vms call.vm).hdlr.winver := by
  obtain ⟨⟨status, filters', vm'⟩, hmon, hok⟩ := bind_eq_ok.mp hok
  cases hok
  dsimp only
  rw [Function.update_self]
  rw [monAddPolicy_eq] at hmon
  have hlast : ∀ plugin, HasAction [call.policy] plugin ↔ call.policy.type.plugin = some plugin := by
    intro plugin
    simp [HasAction]
  cases hplugin : call.policy.type.plugin with
  | none =>
    rw [hplugin] at hmon
    cases hmon
    refine ⟨⟨h.flagged, fun plugin => ?_⟩, rfl⟩
    rw [h.action, hasAction_append, hlast, hplugin]
    simp
  | some target =>
    rw [hplugin] at hmon
    obtain ⟨-, hinit, -⟩ := addPolicy_ok hmon
    obtain ⟨reg, hflagged⟩ := h.flagged
    obtain ⟨vm₁, reg', hinit₁, hinitialised, hflagged'⟩ :=
      hflagged.initMonitor (hsucceed target hplugin)
    rw [hinit] at hinit₁
    cases hinit₁
    refine ⟨⟨⟨reg', hflagged'⟩, fun plugin => ?_⟩, by rw [hinitialised.hdlr]⟩
    rw [hasAction_append, hlast, hplugin, ← h.action, Option.some_inj]
    by_cases hp : plugin = target
    · subst hp
      simp [hinitialised.self]
    · rw [hinitialised.other hp]
      simp [Ne.symm hp]

lemma Managed.addAll {i : Nat} (adds : List AddCall) : ∀ {m m' : Monitored ε} {added : List Policy},
    (∀ call ∈ adds, call.vm = i) → Managed (m.vms i) added → HooksSucceed m adds →
      m.addAll adds = .ok m' → Managed (m'.vms i) (added ++ adds.map AddCall.policy) ∧
        (m'.vms i).hdlr.winver = (m.vms i).hdlr.winver := by
  induction adds with
  | nil =>
    intro m m' added _ h _ hok
    cases hok
    simpa using h
  | cons call rest ih =>
    intro m m' added hvm h hsucceed hok
    obtain ⟨m₁, hadd, hok⟩ := bind_eq_ok.mp hok
    obtain rfl := hvm call (by simp)
    obtain ⟨hmanaged, hwinver⟩ := h.add hsucceed.1 hadd
    have := ih (fun c hc => hvm c (List.mem_cons_of_mem _ hc)) hmanaged (hsucceed.2 m₁ hadd) hok
    rw [List.append_assoc, hwinver] at this
    exact this

/-- What is done with one VM: a policy is added, or the VM is restarted. -/
inductive HookOp where
  | add (call : AddCall)
  | restart (restart : Restart)

/-- The policies that a restart adds anew. -/
def Restart.policies (restart : Restart) (m : Monitored ε) : List Policy :=
  ((m.vms restart.vm).hdlr.policies.map restart.order.values).getD []

def Restart.reset (restart : Restart) (m : Monitored ε) : Monitored ε :=
  ⟨m.filters, Function.update m.vms restart.vm
    ((m.vms restart.vm).restarted restart.machine restart.altp2mIdx)⟩

def Restart.adds (restart : Restart) (m : Monitored ε) : List AddCall :=
  ((m.vms restart.vm).hdlr.policies.map (addCalls restart.vm restart.order restart.calls)).getD []

/-- A step on the VM numbered `i` in which all hooks succeed, with the policies added so far. -/
inductive HookStep (i : Nat) : Monitored ε × List Policy → HookOp → Monitored ε × List Policy → Prop
  | add {m m' : Monitored ε} {added : List Policy} {call : AddCall} (hvm : call.vm = i)
      (hsucceed : call.HooksSucceed m) (hok : m.add call = .ok m') :
      HookStep i (m, added) (.add call) (m', added ++ [call.policy])
  | restart {m m' : Monitored ε} {added : List Policy} {restart : Restart} (hvm : restart.vm = i)
      (hsucceed : HooksSucceed (restart.reset m) (restart.adds m))
      (hok : hfmRestartVmi m restart = .ok m') :
      HookStep i (m, added) (.restart restart) (m', added ++ restart.policies m)

/-- At a restart the table of the VM has policies for exactly the monitors that got one. -/
def TableComplete (s : Monitored ε × List Policy) : HookOp → Prop
  | .add _ => True
  | .restart restart => ∀ plugin, HasAction (restart.policies s.1) plugin ↔ HasAction s.2 plugin

lemma hfmRestartVmi_eq (m : Monitored ε) (restart : Restart) :
    hfmRestartVmi m restart = (restart.reset m).addAll (restart.adds m) := by
  have hset : hfmRestartVmi m restart = hfmSetPolicies (restart.reset m) restart.vm restart.order
      restart.calls (m.vms restart.vm).hdlr.policies := rfl
  rw [hset]
  unfold Restart.adds
  cases (m.vms restart.vm).hdlr.policies with
  | none => rfl
  | some policies => rfl

lemma Managed.restart {m m' : Monitored ε} {restart : Restart} {added : List Policy}
    (h : Managed (m.vms restart.vm) added)
    (hsucceed : HooksSucceed (restart.reset m) (restart.adds m))
    (hok : hfmRestartVmi m restart = .ok m')
    (hcomplete : TableComplete (m, added) (.restart restart)) :
    Managed (m'.vms restart.vm) (added ++ restart.policies m) ∧
      hookedPairs (m'.vms restart.vm) = hookedPairs (m.vms restart.vm) := by
  have hvm : (restart.reset m).vms restart.vm =
      (m.vms restart.vm).restarted restart.machine restart.altp2mIdx := Function.update_self ..
  have hfresh : Managed ((restart.reset m).vms restart.vm) [] := by
    rw [hvm]
    exact ⟨⟨[], flagged_start rfl fun _ => rfl⟩, by simp [HasAction, Vm.restarted]⟩
  have hmem : ∀ call ∈ restart.adds m, call.vm = restart.vm := by
    unfold Restart.adds
    cases (m.vms restart.vm).hdlr.policies with
    | none => simp
    | some policies => exact fun call hcall => addCalls_vm hcall
  have hpolicies : (restart.adds m).map AddCall.policy = restart.policies m := by
    unfold Restart.adds Restart.policies
    cases (m.vms restart.vm).hdlr.policies with
    | none => rfl
    | some policies => exact addCalls_policy ..
  rw [hfmRestartVmi_eq] at hok
  obtain ⟨hmanaged, hwinver⟩ := hfresh.addAll _ hmem hsucceed hok
  rw [List.nil_append, hpolicies] at hmanaged
  rw [hvm] at hwinver
  refine ⟨⟨hmanaged.flagged, fun plugin => ?_⟩, ?_⟩
  · rw [hmanaged.action, hasAction_append, hcomplete plugin, or_self]
  · ext pair
    rw [hmanaged.mem_hookedPairs, h.mem_hookedPairs, hwinver]
    simp only [hcomplete _]
    rfl

/-- The hooks are exact, and every restart with a complete table brings back the same ones. -/
def HooksSurvive (i : Nat) (s : Monitored ε × List Policy) : Prop :=
  HooksExact (s.1.vms i) s.2 ∧ ∀ restart s', HookStep i s (.restart restart) s' →
    TableComplete s (.restart restart) → hookedPairs (s'.1.vms i) = hookedPairs (s.1.vms i)

lemma Managed.survive {i : Nat} {s : Monitored ε × List Policy} (h : Managed (s.1.vms i) s.2) :
    HooksSurvive i s := by
  refine ⟨h.exact, ?_⟩
  intro restart s' hstep hcomplete
  cases hstep with
  | restart hvm hsucceed hok =>
    subst hvm
    exact (h.restart hsucceed hok hcomplete).2

lemma managed_run {i : Nat} {tr : List (HookOp × (Monitored ε × List Policy))} :
    ∀ {s : Monitored ε × List Policy}, Managed (s.1.vms i) s.2 → IsRun (HookStep i) s tr →
      Meets TableComplete s tr → Always (fun s => Managed (s.1.vms i) s.2) s tr := by
  induction tr with
  | nil => exact fun h _ _ => h
  | cons x tr ih =>
    intro s h hrun hmeets
    obtain ⟨hstep, hrun⟩ := hrun
    obtain ⟨hcomplete, hmeets⟩ := hmeets
    refine ⟨h, ih ?_ hrun hmeets⟩
    obtain ⟨op, s'⟩ := x
    cases hstep with
    | add hvm hsucceed hok =>
      subst hvm
      exact (h.add hsucceed hok).1
    | restart hvm hsucceed hok =>
      subst hvm
      exact (h.restart hsucceed hok hcomplete).1

/-- From a handler without hooks, every state of a run has its hooks exact. -/
theorem hooks_survive {i : Nat} {m : Monitored ε} (htm : (m.vms i).tm = tmInit)
    (hinit : ∀ plugin, (m.vms i).hdlr.init plugin = 0)
    {tr : List (HookOp × (Monitored ε × List Policy))} (hrun : IsRun (HookStep i) (m, []) tr)
    (hmeets : Meets TableComplete (m, []) tr) : Always (HooksSurvive i) (m, []) tr := by
  have hstart : Managed (m.vms i) [] :=
    ⟨⟨[], flagged_start htm hinit⟩, fun plugin => by simp [hinit, HasAction]⟩
  exact (managed_run hstart hrun hmeets).mono fun s h => h.survive

lemma resolvedCalls_succeed {call : AddCall} (hcalls : call.calls = resolvedCalls)
    (htype : call.policy.type = .changeAccess) (m : Monitored ε) : call.HooksSucceed m := by
  intro plugin hplugin _
  rw [htype] at hplugin
  cases hplugin
  rw [hcalls]
  exact resolvedCalls_install _ _

/-- The policy of the line `7 WARNING CHANGE_ACCESS /a`. -/
def accessPolicy : Policy := ⟨7, cstr "/a", .changeAccess, 0, .warning⟩

/-- A fresh VM with a table of policies. -/
def withTable (policies : Option (GHashTable Int Policy)) : Monitored Unit :=
  let vm : Vm MonCb Unit := Vm.start fun _ => 0x90
  .start fun _ => { vm with hdlr := { vm.hdlr with policies := policies } }

def accessCall : AddCall := ⟨0, accessPolicy, resolvedCalls⟩

def accessRestart : Restart :=
  ⟨0, (Vm.start fun _ => 0x90 : Vm MonCb Unit).machine, 1, .listed, fun _ => resolvedCalls⟩

/-- The handler after the policy is added. -/
def accessAdded (policies : Option (GHashTable Int Policy)) : Monitored Unit :=
  ((withTable policies).add accessCall).toOption.getD (withTable policies)

def accessRestarted (policies : Option (GHashTable Int Policy)) : Monitored Unit :=
  (hfmRestartVmi (accessAdded policies) accessRestart).toOption.getD (withTable policies)

def accessTable : GHashTable Int Policy := (∅ : GHashTable Int Policy).insert 7 accessPolicy

theorem hooks_survive_access : Always (HooksSurvive 0) (withTable (some accessTable), [])
    [(HookOp.add accessCall, (accessAdded (some accessTable), [accessPolicy])),
      (HookOp.restart accessRestart,
        (accessRestarted (some accessTable), [accessPolicy, accessPolicy]))] := by
  refine hooks_survive rfl (fun _ => rfl) ⟨?_, ?_, trivial⟩ ⟨trivial, ?_, trivial⟩
  · exact .add rfl (resolvedCalls_succeed rfl rfl _) rfl
  · refine HookStep.restart rfl ?_ rfl
    exact ⟨resolvedCalls_succeed rfl rfl _, fun _ _ => trivial⟩
  · intro plugin
    exact Iff.rfl

/-- The policy is not in the table of its VM, and the restart loses the hooks. -/
theorem hooks_lost_without_table : ∃ s s' : Monitored Unit × List Policy,
    HookStep 0 (withTable none, []) (.add accessCall) s ∧
      HookStep 0 s (.restart accessRestart) s' ∧ ¬HooksExact (s'.1.vms 0) s'.2 ∧
      hookedPairs (s'.1.vms 0) ≠ hookedPairs (s.1.vms 0) := by
  have hsucceed : accessCall.HooksSucceed (withTable none) := resolvedCalls_succeed rfl rfl _
  have hok : (withTable none).add accessCall = .ok (accessAdded none) := rfl
  have hadd : HookStep 0 (withTable none, []) (.add accessCall) (accessAdded none, [accessPolicy]) :=
    .add rfl hsucceed hok
  have hrestart : HookStep 0 (accessAdded none, [accessPolicy]) (.restart accessRestart)
      (accessRestarted none, [accessPolicy]) := .restart rfl trivial rfl
  have hfresh : Managed ((withTable none).vms accessCall.vm) [] :=
    ⟨⟨[], flagged_start rfl fun _ => rfl⟩, by simp [HasAction, withTable, Monitored.start, Vm.start]⟩
  have hmanaged := (hfresh.add hsucceed hok).1
  refine ⟨_, _, hadd, hrestart, fun hexact => ?_, fun hpairs => ?_⟩
  · have haction : HasAction [accessPolicy] .accessChanged := ⟨accessPolicy, by simp, rfl⟩
    obtain ⟨addr, pa, hmem⟩ := (hexact.all .accessChanged).mpr haction _ List.mem_cons_self
    cases hmem
  · have hbefore : (MonCb.accessChanged .setsecurityCb, cstr "NtSetSecurityObject") ∈
        hookedPairs ((accessAdded none).vms 0) :=
      (hmanaged.mem_hookedPairs _).mpr
        ⟨.accessChanged, ⟨accessPolicy, by simp [accessCall], rfl⟩, _, List.mem_cons_self, rfl⟩
    rw [← hpairs] at hbefore
    obtain ⟨pa, t, hmem, -⟩ := hbefore
    cases hmem

end Hfm

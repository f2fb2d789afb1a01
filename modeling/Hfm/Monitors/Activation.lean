import Hfm.Monitors.AddPolicy

/-!
# What an added policy has to rely on

Every layer below the `*_add_policy` functions has a status, and none of them is looked at.
-/

namespace Hfm

variable {ε : Type}

/-- A trap for the entry of the system call is in the tables. -/
def Hooked (vm : Vm MonCb ε) (hook : SyscallHook) : Prop :=
  ∃ addr pa, hook.trap addr pa ∈ vm.tm.traps (tmInt3trapsAtPa vm.tm pa)

/-- The pattern of the policy is in the filter, with its identifier. -/
def Filter.Has (filter : Filter) (policy : Policy) : Prop :=
  ∃ nodes, fnTranslate policy.path true = .ok (some nodes) ∧ (nodes, policy.id) ∈ filter.entries

/-- The call has an end. Where it reports success the policy is in the filter and all system
calls of the monitor are hooked, and a missing hook leaves the flag as it was at first. -/
def ReportsFailures (plugin : Plugin) (filters : Filters) (vm : Vm MonCb ε)
    (calls : CStr → SyscallCalls) (policy : Policy) : Prop :=
  ∃ status filters' vm', addPolicy plugin filters vm calls policy = .ok (status, filters', vm') ∧
    (status = .success → (∃ filter, filters' plugin = some filter ∧ filter.Has policy) ∧
      ∀ hook ∈ plugin.hooks vm.hdlr.winver, Hooked vm' hook) ∧
    ((∃ hook ∈ plugin.hooks vm.hdlr.winver, ¬Hooked vm' hook) → vm'.hdlr.init plugin = 0)

/-- Nothing goes wrong: the pattern can be translated and has room in the filter, and each
system call is hooked already or is hooked by this call. -/
structure NothingFails (plugin : Plugin) (filters : Filters) (vm : Vm MonCb ε)
    (calls : CStr → SyscallCalls) (policy : Policy) : Prop where
  translates : ∃ nodes, fnTranslate policy.path true = .ok (some nodes)
  room : ((filters plugin).getD filterInit).patterns.length < MAX_PATTERNS
  hooks : ∀ hook ∈ plugin.hooks vm.hdlr.winver, Hooked vm hook ∨
    vm.hdlr.init plugin = 0 ∧ Installs calls hook vm (plugin.hooks vm.hdlr.winver)

lemma Registered.hooked_iff {vm : Vm MonCb ε} {reg : List (Trap MonCb ε)} (h : Registered vm reg)
    (hook : SyscallHook) : Hooked vm hook ↔ ∃ t ∈ reg, hook.Made t := by
  have htraps : ∀ pa, vm.tm.traps (tmInt3trapsAtPa vm.tm pa) = reg.filter (belongs · (.inl pa)) :=
    fun pa => h.indexed.traps_head (.inl pa)
  unfold Hooked
  constructor
  · rintro ⟨addr, pa, hmem⟩
    rw [htraps] at hmem
    exact ⟨_, (List.mem_filter.mp hmem).1, rfl⟩
  · rintro ⟨t, ht, hmade⟩
    refine ⟨t.addr, t.pa, ?_⟩
    rw [htraps, ← hmade, List.mem_filter]
    exact ⟨ht, by simp [belongs]⟩

/-- Adding a policy reports its failures exactly if there are none. -/
theorem addPolicy_reportsFailures_iff {vm : Vm MonCb ε} {reg : List (Trap MonCb ε)}
    (hreg : Registered vm reg) (plugin : Plugin) (filters : Filters) (calls : CStr → SyscallCalls)
    (policy : Policy) : ReportsFailures plugin filters vm calls policy ↔
      NothingFails plugin filters vm calls policy := by
  obtain ⟨vm', made, hinit, -, hreg', -, -, hmade⟩ := initMonitor_spec plugin vm calls
  have hhooked : ∀ hook, Hooked vm' hook ↔ Hooked vm hook ∨
      vm.hdlr.init plugin = 0 ∧ Installs calls hook vm (plugin.hooks vm.hdlr.winver) := by
    intro hook
    rw [(hreg' reg hreg).hooked_iff, hreg.hooked_iff, ← hmade]
    simp only [List.mem_append, or_and_right, exists_or]
  constructor
  · rintro ⟨status, filters', vm₁, hok, hsuccess, -⟩
    obtain ⟨rfl, hinit₁, added, filter', hadd, rfl⟩ := addPolicy_ok hok
    rw [hinit] at hinit₁
    cases hinit₁
    obtain ⟨⟨filter, hfilter, nodes, htr, -⟩, hall⟩ := hsuccess rfl
    refine ⟨⟨nodes, htr⟩, ?_, fun hook hmem => (hhooked hook).mp (hall hook hmem)⟩
    rcases filterAdd_ok hadd with ⟨nodes', -, hroom, -⟩ | ⟨hnone, -⟩
    · exact hroom
    · rw [htr] at hnone
      cases hnone
  · rintro ⟨⟨nodes, htr⟩, hroom, hhooks⟩
    obtain ⟨filter', hadd, hentries⟩ := filterAdd_translated _ htr hroom policy.id
    have hall : ∀ hook ∈ plugin.hooks vm.hdlr.winver, Hooked vm' hook :=
      fun hook hmem => (hhooked hook).mpr (hhooks hook hmem)
    refine ⟨.success, Function.update filters plugin (some filter'), vm', ?_, fun _ => ⟨?_, hall⟩, ?_⟩
    · unfold addPolicy
      rw [hinit]
      simp only [bind, Except.bind, hadd, pure, Except.pure]
    · refine ⟨filter', Function.update_self .., nodes, htr, ?_⟩
      rw [hentries]
      simp
    · rintro ⟨hook, hmem, hnot⟩
      exact absurd (hall hook hmem) hnot

/-- Every symbol resolves, to an address by its first letter, and everything succeeds. -/
def resolvedCalls (name : CStr) : SyscallCalls where
  translateKsym2v := (name.headD 0).toUInt64
  translateKv2p va := va.toNat <<< PAGE_OFFSET_BITS
  inject := .succeeding 0x500

lemma installs_of_install {calls : CStr → SyscallCalls} (hooks : List SyscallHook)
    (hcalls : ∀ hook ∈ hooks, ∀ vm : Vm MonCb ε, (calls hook.funcName).Install vm) :
    ∀ vm : Vm MonCb ε, ∀ hook ∈ hooks, Installs calls hook vm hooks := by
  induction hooks with
  | nil => simp
  | cons first hooks ih =>
    intro vm hook hmem
    rcases List.mem_cons.mp hmem with rfl | hmem
    · exact .inl ⟨rfl, hcalls hook hmem vm⟩
    · obtain ⟨vm', -, hok, -⟩ := hfmMonitorSyscall_spec vm (calls first.funcName) first
      exact .inr ⟨.success, vm', hok, ih (fun h hh => hcalls h (List.mem_cons_of_mem _ hh)) vm' hook hmem⟩

lemma resolvedCalls_install (vm : Vm MonCb ε) (winver : WinVer) :
    ∀ hook ∈ Plugin.hooks winver .accessChanged,
      Installs resolvedCalls hook vm (Plugin.hooks winver .accessChanged) := by
  refine installs_of_install _ (fun hook hmem vm => ?_) vm
  have hbyte : ∀ pa, ¬ByteFails vm (InjectCalls.succeeding 0x500) pa := by
    simp [ByteFails, InjectCalls.succeeding]
  rcases List.mem_cons.mp hmem with rfl | hmem
  · exact ⟨by decide, by decide, .inr (hbyte _)⟩
  · obtain rfl := List.mem_singleton.mp hmem
    exact ⟨by decide, by decide, .inr (hbyte _)⟩

theorem addPolicy_reportsFailures_access : ReportsFailures .accessChanged (fun _ => none)
    (Vm.start (fun _ => 0x90) : Vm MonCb Unit) resolvedCalls
    ⟨7, cstr "/a", .changeAccess, 0, .warning⟩ := by
  have hreg : Registered (Vm.start (fun _ => 0x90) : Vm MonCb Unit) [] :=
    ⟨indexed_tmInit, List.nodup_nil, by simp⟩
  refine (addPolicy_reportsFailures_iff hreg _ _ _ _).mpr ⟨⟨_, rfl⟩, by decide, ?_⟩
  exact fun hook hmem => .inr ⟨rfl, resolvedCalls_install _ _ hook hmem⟩

/-- No symbol resolves: the call reports success, and will not try again. -/
theorem addPolicy_unresolved : ¬ReportsFailures .accessChanged (fun _ => none)
    (Vm.start (fun _ => 0x90) : Vm MonCb Unit) (fun _ => ⟨0, fun _ => 0, .succeeding 0x500⟩)
    ⟨7, cstr "/a", .changeAccess, 0, .warning⟩ := by
  rintro ⟨status, filters', vm', hok, hsuccess, -⟩
  cases hok
  obtain ⟨addr, pa, hmem⟩ := (hsuccess rfl).2 _ List.mem_cons_self
  cases hmem

end Hfm

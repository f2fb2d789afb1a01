import Hfm.Monitors.Invocations

/-!
# Every record has its policy

A record is justified if the policy of its identifier has the action of the record and of
the monitor it is from, and accepts its path. `send_output` writes `MON_CREATE` for every
monitor, and `createfile_cb` may hand over less of a path than its filter has matched. In a run
without calls of the guest that show one of the two, all records are justified.
-/

namespace Hfm

open Support

/-! ### Events -/

/-- The VMs by number, with the state of the callbacks that they share. -/
structure Monitoring where
  vms : Nat → Vm MonCb Extra
  mon : MonState

/-- What `main` has set up; nothing was reported yet. -/
def Monitoring.start (m : Monitored Extra) : Monitoring := ⟨m.vms, ⟨0, 0⟩, m.filters, []⟩

/-- An INT3 event of a VM, whose guest and other events have left its machine as `machine`, and
the answer to it. -/
structure MonEvent where
  vm : Nat
  machine : Machine
  event : InterruptEvent
  calls : Int3Calls
  context : ContextCalls
  handled : Handled

/-- The event is handed to `_int3_cb` of its VM, and LibVMI follows the response. -/
def Monitoring.handle (config : Config) (s : Monitoring) (e : MonEvent) :
    Except Fault (Handled × Monitoring) := do
  let (handled, vm, mon) ← int3Cb (monCallbacks ⟨e.vm, config, e.context⟩) e.event e.calls
    ((s.vms e.vm).setMachine e.machine) (.ok s.mon)
  let mon ← mon
  return (handled, ⟨Function.update s.vms e.vm (vm.respond e.event.vcpuId handled), mon⟩)

/-- A step, which has no fault. -/
def MonStep (config : Config) (vmnum : Nat) (s : Monitoring) (e : MonEvent) (s' : Monitoring) :
    Prop :=
  e.vm < vmnum ∧ s.handle config e = .ok (e.handled, s')

/-- The callbacks that are called for the event. -/
def Monitoring.invocations (config : Config) (s : Monitoring) (e : MonEvent) : List Invocation :=
  match int3Cb (loggedCallbacks ⟨e.vm, config, e.context⟩) e.event e.calls
    ((s.vms e.vm).setMachine e.machine) (.ok s.mon, []) with
  | .ok (_, _, _, log) => log
  | .error _ => []

/-- In none of them the guest asks for a change that is reported wrongly. -/
def Blameless (config : Config) (s : Monitoring) (e : MonEvent) : Prop :=
  ∀ i ∈ s.invocations config e, i.blameless = true

/-- The record has the identifier of a policy in the table of its VM, the action of that
policy and of the monitor that raised it, and a path that the policy accepts. -/
def Justified (s : Monitoring) (r : MonReport) : Prop :=
  ∃ table policy, (s.vms r.vm).hdlr.policies = some table ∧
    table.lookup r.info.policyId.toInt = some policy ∧ r.info.action = policy.type.code ∧
    r.info.action = r.call.plugin.action.code ∧ accepts policy.path r.info.filepath.str = true

def AllJustified (s : Monitoring) : Prop := ∀ r ∈ s.mon.reports, Justified s r

/-! ### The log -/

/-- All calls in the log are blameless. -/
def Clean (log : List Invocation) : Prop := ∀ i ∈ log, i.blameless = true

lemma Clean.left {log log' : List Invocation} (h : Clean (log ++ log')) : Clean log :=
  fun i hi => h i (List.mem_append_left _ hi)

section Event

variable {vmnum : Nat} {table : GHashTable Int Policy} {env : MonEnv}

/-- Parameters behind the calls of a log. -/
def Extra.FineAfter (table : GHashTable Int Policy) (log : List Invocation) (e : Extra) : Prop :=
  e.Fine table ∧ (Clean log → e.Whole)

/-- A state behind the calls of a log, unless one of them ended in a fault. -/
def SoundAfter (vmnum : Nat) (table : GHashTable Int Policy)
    (s : Except Fault MonState × List Invocation) : Prop :=
  ∀ mon, s.1 = .ok mon → mon.Sound vmnum table ∧
    (Clean s.2 → ∀ r ∈ mon.reports, r.call.Whole)

lemma Extra.FineAfter.append {log : List Invocation} {e : Extra} (h : e.FineAfter table log)
    (called : List Invocation) : e.FineAfter table (log ++ called) :=
  ⟨h.1, fun hclean => h.2 hclean.left⟩

lemma soundAfter_error (fault : Fault) (log : List Invocation) :
    SoundAfter vmnum table (.error fault, log) := by
  intro mon hmon
  cases hmon

lemma loggedCallbacks_keeps (hvm : env.vm < vmnum) {trap : Trap MonCb Extra}
    {s : UInt64 × Except Fault MonState × List Invocation}
    (htrap : ∀ e, trap.extra = some e → e.FineAfter table s.2.2)
    (hs : SoundAfter vmnum table s.2) (cb : MonCb) (vm : Vm MonCb Extra) (event : InterruptEvent) :
    SoundAfter vmnum table (loggedCallbacks env cb vm trap event s).2.2 ∧
      (∀ e, (loggedCallbacks env cb vm trap event s).1 = some e →
        e.FineAfter table (loggedCallbacks env cb vm trap event s).2.2.2) ∧
      ∃ called, (loggedCallbacks env cb vm trap event s).2.2.2 = s.2.2 ++ called := by
  obtain ⟨base, s, log⟩ := s
  unfold loggedCallbacks monCallbacks
  dsimp only
  cases s with
  | error fault => exact ⟨soundAfter_error fault _, by simp [Except.bind], _, rfl⟩
  | ok s =>
    obtain ⟨hsound, hwhole⟩ := hs s rfl
    set s₁ : MonState := { s with context := { s.context with processBase := base } } with hs₁
    set ctx : MonContext := ⟨event.regs, trap, vm.hdlr, env.calls⟩ with hctx
    have hsound₁ : s₁.Sound vmnum table := ⟨hsound.filters, hsound.reports⟩
    have hkeeps : Keeps vmnum table (callback env ctx cb) :=
      callback_keeps hvm (fun e he => (htrap e he).1) cb
    rw [Except.bind]
    split
    · rename_i extra s' heq
      obtain ⟨hs', hfine⟩ := hkeeps _ hsound₁ extra s' heq
      obtain ⟨history, hholding, -⟩ := hsound₁.filters
      have hleaves (hclean : Clean (log ++ [⟨cb, ctx, s₁⟩])) :
          (∀ r ∈ s'.reports, r ∈ s₁.reports ∨ r.call.Whole) ∧ ∀ e, extra = some e → e.Whole := by
        have hblameless := hclean _ (List.mem_append_right _ (List.mem_singleton_self _))
        exact callback_leaves hholding (fun e he => (htrap e he).2 hclean.left) hblameless extra s' heq
      refine ⟨fun mon hmon => ?_, fun e he => ⟨hfine e he, fun hclean => ?_⟩, _, rfl⟩
      · cases hmon
        refine ⟨hs', fun hclean r hr => ?_⟩
        exact ((hleaves hclean).1 r hr).elim (hwhole hclean.left r) id
      · exact (hleaves hclean).2 e he
    · exact ⟨soundAfter_error _ _, by simp, _, rfl⟩

/-- An INT3 event keeps the table of the VM, its traps and the state of the callbacks. -/
lemma int3Cb_keeps (hvm : env.vm < vmnum) {vm vm' : Vm MonCb Extra} {event : InterruptEvent}
    {calls : Int3Calls} {s s' : Except Fault MonState × List Invocation}
    (htraps : TrapsFine (Extra.FineAfter table s.2) vm) (hs : SoundAfter vmnum table s)
    {handled : Handled}
    (hok : int3Cb (loggedCallbacks env) event calls vm s = .ok (handled, vm', s')) :
    vm'.hdlr.policies = vm.hdlr.policies ∧ TrapsFine (Extra.FineAfter table s'.2) vm' ∧
      SoundAfter vmnum table s' := by
  obtain ⟨reg, hreg, hfine⟩ := htraps
  cases hex : tmTrapExist vm.tm event.pa with
  | false =>
    rw [int3Cb_of_not_trapExist hreg _ _ _ hex] at hok
    split at hok
    · cases hok
      exact ⟨rfl, ⟨reg, hreg, hfine⟩, hs⟩
    · cases hok
      exact ⟨rfl, ⟨reg, hreg.congr rfl (Nat.le_refl _), hfine⟩, hs⟩
  | true =>
    let I : List (Trap MonCb Extra) → Vm MonCb Extra →
        UInt64 × Except Fault MonState × List Invocation → Prop :=
      fun queue vm₁ s => vm₁.hdlr.policies = vm.hdlr.policies ∧
        TrapsFine (Extra.FineAfter table s.2.2) vm₁ ∧
        (∀ t ∈ queue, ∀ e, t.extra = some e → e.FineAfter table s.2.2) ∧ SoundAfter vmnum table s.2
    have hvisit : ∀ trap queue (vm₁ : Vm MonCb Extra) s calls, True → I (trap :: queue) vm₁ s →
        AfterVisit event (fun _ => True) I queue
          (visitTrap (loggedCallbacks env) event calls trap vm₁ s) := by
      rintro trap queue vm₁ s calls - ⟨hpolicies, ⟨reg₁, hreg₁, hfine₁⟩, hqueue, hs⟩
      rcases visitTrap_spec (loggedCallbacks env) event calls trap vm₁ s with
        ⟨vm₂, s₂, planted, tm, hok, hv⟩ | ⟨hfault, -, -⟩
      · have hanswer : SoundAfter vmnum table s₂.2 ∧
            (∀ t ∈ planted.toList, ∀ e, t.extra = some e → e.FineAfter table s₂.2.2) ∧
            ∃ called, s₂.2.2 = s.2.2 ++ called := by
          rcases visitTrap_answer hok with ⟨rfl, rfl⟩ | ⟨cb, -, rfl, hplanted⟩
          · exact ⟨hs, by simp, [], (List.append_nil _).symm⟩
          · obtain ⟨hs', hextra, hcalled⟩ :=
              loggedCallbacks_keeps hvm (hqueue trap List.mem_cons_self) hs cb vm₁ event
            refine ⟨hs', fun t ht e he => hextra e ?_, hcalled⟩
            rw [← hplanted t (by simpa using ht), he]
        obtain ⟨hsound, hplanted, called, hcalled⟩ := hanswer
        have hmono (e : Extra) (he : e.FineAfter table s.2.2) : e.FineAfter table s₂.2.2 :=
          hcalled ▸ he.append called
        rw [hok]
        refine ⟨?_, ⟨_, hv.registered hreg₁, fun t ht => ?_⟩, fun t ht => ?_, hsound⟩
        · rw [hv.aside.hdlr]
          exact hpolicies
        · have ht : t ∈ reg₁ ++ planted.toList := by
            unfold visited at ht
            split at ht
            · exact List.mem_of_mem_erase ht
            · exact ht
          rcases List.mem_append.mp ht with ht | ht
          · exact fun e he => hmono e (hfine₁ t ht e he)
          · exact hplanted t ht
        · rcases List.mem_append.mp ht with ht | ht
          · exact fun e he => hmono e (hqueue t (List.mem_cons_of_mem _ ht) e he)
          · exact hplanted t (List.mem_filter.mp ht).1
      · rw [hfault]
        trivial
    have hqueue : I (reg.filter (·.pa = event.pa)) vm (0, s) :=
      ⟨rfl, ⟨reg, hreg, hfine⟩, fun t ht => hfine t (List.mem_filter.mp ht).1, hs⟩
    obtain ⟨doubletrap, -, hrule⟩ := int3Cb_rule hreg (fun _ _ _ => trivial) hvisit calls
      (fun _ => trivial) hex hqueue
    rw [hok] at hrule
    obtain ⟨-, _, vm₁, base, ⟨hpolicies, htraps, -, hsound⟩, rfl⟩ := hrule
    exact ⟨hpolicies, htraps.congr rfl (Nat.le_refl _), hsound⟩

/-- The log changes nothing. -/
lemma loggedCallbacks_lockstep (env : MonEnv) :
    Lockstep (monCallbacks env) (loggedCallbacks env) (fun _ => False) fun s t => t.1 = s where
  sticky _ _ _ _ _ _ hlost := hlost
  answers := by
    rintro cb vm trap event base _ ⟨s, log⟩ rfl
    exact .inr ⟨rfl, rfl, rfl⟩

end Event

/-! ### Runs -/

/-- All VMs have the same table, and everything in them and in the callbacks goes by it. -/
structure Monitoring.Fine (vmnum : Nat) (table : GHashTable Int Policy) (s : Monitoring) :
    Prop where
  mon : s.mon.Sound vmnum table
  whole : ∀ r ∈ s.mon.reports, r.call.Whole
  policies : ∀ i < vmnum, (s.vms i).hdlr.policies = some table
  traps : ∀ i, TrapsFine (fun e => e.Fine table ∧ e.Whole) (s.vms i)

section Runs

variable {vmnum : Nat} {table : GHashTable Int Policy} {config : Config} {s s' : Monitoring}
  {e : MonEvent}

lemma Monitoring.fine_start {file : Option (List UInt8)} {policies : PolicyTable}
    (hfile : getPolicies file = .ok (some policies)) {vms : Nat → Vm MonCb Extra}
    (hvms : ∀ i, (vms i).tm = tmInit) {order : Nat → ValueOrder} {calls : Nat → SetCalls}
    {m : Monitored Extra}
    (hset : mainSetPolicies (some policies.table) order calls vmnum (Monitored.start vms) = .ok m) :
    (Monitoring.start m).Fine vmnum policies.table := by
  have htraps : ∀ i, TrapsFine (fun e => e.Fine policies.table ∧ e.Whole) (vms i) := by
    intro i
    refine ⟨[], ⟨?_, List.nodup_nil, by simp⟩, by simp⟩
    rw [hvms]
    exact indexed_tmInit
  obtain ⟨history, hrounds, hholding, hpolicies⟩ := mainSetPolicies_rounds vmnum hset
  refine ⟨⟨⟨history, hholding, fun policy hmem => ?_⟩, by simp [Monitoring.start]⟩,
    by simp [Monitoring.start], hpolicies, mainSetPolicies_trapsFine htraps vmnum hset⟩
  obtain ⟨rounds, -, rfl, hperm⟩ := hrounds
  obtain ⟨round, hround, hmem⟩ := List.mem_flatten.mp hmem
  obtain ⟨⟨id, policy'⟩, hentry, rfl⟩ := List.mem_map.mp ((hperm round hround).mem_iff.mp hmem)
  have hlook : policies.table.lookup id = some policy' := AList.mem_lookup_iff.mpr hentry
  rw [(getPolicies_accepted hfile id policy' hlook).2]
  exact hlook

lemma MonStep.fine (h : MonStep config vmnum s e s') (hblameless : Blameless config s e)
    (hs : s.Fine vmnum table) : s'.Fine vmnum table := by
  obtain ⟨hvm, hhandle⟩ := h
  obtain ⟨⟨handled, vm, mon?⟩, hok, hhandle⟩ := bind_eq_ok.mp hhandle
  obtain ⟨mon, rfl, hhandle⟩ := bind_eq_ok.mp hhandle
  cases hhandle
  obtain ⟨⟨_, log⟩, hlogged, rfl⟩ := (loggedCallbacks_lockstep ⟨e.vm, config, e.context⟩).int3Cb hok
    (fun h => h) (t := (.ok s.mon, [])) rfl
  have hclean : Clean log := by
    unfold Blameless Monitoring.invocations at hblameless
    rw [hlogged] at hblameless
    exact hblameless
  have hmachine : TrapsFine (fun e => e.Fine table ∧ e.Whole) ((s.vms e.vm).setMachine e.machine) :=
    (hs.traps e.vm).congr rfl (Nat.le_refl _)
  have htraps : TrapsFine (Extra.FineAfter table []) ((s.vms e.vm).setMachine e.machine) :=
    hmachine.mono fun e he => ⟨he.1, fun _ => he.2⟩
  have hsound : SoundAfter vmnum table (.ok s.mon, []) := by
    intro mon hmon
    cases hmon
    exact ⟨hs.mon, fun _ => hs.whole⟩
  obtain ⟨hpolicies, htraps', hsound'⟩ :=
    int3Cb_keeps (show (⟨e.vm, config, e.context⟩ : MonEnv).vm < vmnum from hvm) htraps hsound hlogged
  obtain ⟨hmon, hwhole⟩ := hsound' mon rfl
  refine ⟨hmon, hwhole hclean, ?_, ?_⟩
  · apply (Function.forall_update_iff s.vms fun i vm =>
      i < vmnum → vm.hdlr.policies = some table).mpr
    exact ⟨fun _ => hpolicies.trans (hs.policies _ hvm), fun i _ => hs.policies i⟩
  · apply (Function.forall_update_iff s.vms fun _ =>
      TrapsFine fun e => e.Fine table ∧ e.Whole).mpr
    have hend : TrapsFine (fun e => e.Fine table ∧ e.Whole) vm :=
      htraps'.mono fun e he => ⟨he.1, he.2 hclean⟩
    exact ⟨hend.congr rfl (Nat.le_refl _), fun i _ => hs.traps i⟩

/-- Records of whole creations are justified. -/
lemma Monitoring.Fine.allJustified (hs : s.Fine vmnum table)
    (hids : ∀ id policy, table.lookup id = some policy → -2 ^ 31 ≤ id ∧ id < 2 ^ 31) :
    AllJustified s := by
  intro r hr
  have hsound := hs.mon.reports r hr
  obtain ⟨haction, hpath⟩ := hs.whole r hr
  obtain ⟨policy, hlook, hplugin, haccepts⟩ := hsound.covers
  rw [Monitor.plugin_eq_some, ← hsound.action] at hplugin
  have hid : r.info.policyId.toInt = r.call.policyId := by
    rw [hsound.policyId]
    exact Int32.toInt_ofInt_of_le (hids _ _ hlook).1 (hids _ _ hlook).2
  refine ⟨table, policy, hs.policies _ hsound.vm, by rw [hid, hlook], ?_, ?_, ?_⟩
  · rw [hsound.code, hplugin, haction]
  · rw [hsound.code, ← hsound.action, haction]
  · rw [hsound.filepath, hpath]
    exact haccepts

/-- Every record is justified in a run in which the guest asks for no change that is to be reported
but creations, and those are kept with their whole paths. -/
theorem reports_justified {file : Option (List UInt8)} {policies : PolicyTable}
    (hfile : getPolicies file = .ok (some policies)) {vms : Nat → Vm MonCb Extra}
    (hvms : ∀ i, (vms i).tm = tmInit) {order : Nat → ValueOrder} {calls : Nat → SetCalls}
    {m : Monitored Extra}
    (hset : mainSetPolicies (some policies.table) order calls vmnum (Monitored.start vms) = .ok m)
    {tr : List (MonEvent × Monitoring)}
    (hrun : IsRun (MonStep config vmnum) (Monitoring.start m) tr)
    (hblameless : Meets (Blameless config) (Monitoring.start m) tr) :
    Always AllJustified (Monitoring.start m) tr := by
  have hids : ∀ id policy, policies.table.lookup id = some policy → -2 ^ 31 ≤ id ∧ id < 2 ^ 31 :=
    fun id policy hlook => getPolicies_id hfile hlook
  have hfine : Always (Monitoring.Fine vmnum policies.table) (Monitoring.start m) tr :=
    hrun.always_of_meets (fun _ _ _ hs hblameless h => h.fine hblameless hs) hblameless
      (Monitoring.fine_start hfile hvms hset)
  exact hfine.mono fun _ hs => hs.allJustified hids

end Runs

/-! ### Two runs -/

/-- Words in the memory of a guest. The process 4 runs as `S-1-5-18`. The file object of
its handle 4 is on the device `Vol2`, with the name `\a`. -/
def guestWords : List (UInt64 × UInt64) :=
  [(0x1000, 0x2000), (0x2000, 0x3000), (0x3008, 4), (0x3010, 0x4000), (0x3020, 0xb000),
    (0x4000, 0x5000), (0x4008, 1), (0x5010, 0x6000), (0x6030, 0x7030), (0x6038, 4), (0x6040, 0x8100),
    (0x6fe0, 8), (0x6fe8, 0x8000), (0xb000, 0xc000), (0xc000, 0xd000), (0xd000, 1), (0xd001, 1),
    (0xd007, 5), (0xd008, 18),
    -- a request to delete the file of the handle
    (0x9000, 1), (0xa028, 13),
    -- the attributes and the status block of an object to create, and its name
    (0xe000, 0), (0xe008, 0x6100), (0x6100, 16), (0x6108, 0x8200), (0xf000, 0), (0xf008, 0)]

def guestStrings : List (UInt64 × CStr) :=
  [(0x8000, cstr "Vol2"), (0x8100, cstr "\\a"), (0x8200, cstr "\\??\\C:\\a")]

/-- ASCII characters from UTF-16. -/
def narrow : List UInt8 → List UInt8
  | c :: _ :: rest => c :: narrow rest
  | _ => []

def guestCalls : ContextCalls where
  read _ addr := guestWords.lookup addr
  readBytes _ addr _ := ((guestStrings.lookup addr).getD []).flatMap fun c => [c, 0]
  convertStrEncoding str := some (narrow str)
  gettimeofday _ := (0, 0)
  fopen _ := false
  indeterminate _ := 0

def guestOffsets : WinOffset → UInt64
  | .handleTableHandleCount | .unicodeStringBuffer | .eprocessUniqueProcessId
  | .objectAttributesObjectName | .fileObjectFileName | .ioStatusBlockInformation => 0x8
  | .eprocessObjectTable => 0x10
  | .eprocessToken => 0x20
  | .objectHeaderBody => 0x30
  | _ => 0

def guestVm : Vm MonCb Extra :=
  let vm : Vm MonCb Extra := Vm.start fun _ => 0x90
  { vm with hdlr :=
    { vm.hdlr with
      offsets := guestOffsets
      sizes := fun size => if size = .handleTableEntry then 0x10 else 0x20
      drives := [⟨cstr "C:", cstr "Vol2", 0⟩] } }

/-- One kernel symbol resolves, to the start of frame `0x4e`. -/
def oneSymbol (symbol name : CStr) : SyscallCalls :=
  ⟨if name = symbol then 0x4e else 0, fun va => va.toNat <<< PAGE_OFFSET_BITS, .succeeding 0x500⟩

/-- The VM 0, whose machine is as it was left, gets to the address `pa`. -/
def guestEvent (s : Monitoring) (pa : Nat) (r8 : UInt64) : MonEvent where
  vm := 0
  machine := (s.vms 0).machine
  event := ⟨vcpu0, pa >>> PAGE_OFFSET_BITS, pa % PAGESIZE, 1,
    { rax := 0, rcx := 4, rdx := 0, r8, r9 := 0xf000, rsp := 0xa000, cr3 := 0, fsBase := 0
      gsBase := 0x1000 }⟩
  calls := ⟨true, fun _ => ⟨none, 0, fun _ => 0x2007, .succeeding 0x501, .succeeding, .cleared⟩⟩
  context := guestCalls
  handled := ⟨.none, 0, none⟩

/-- The event, with the answer to it, and the state behind it. -/
def Monitoring.next (config : Config) (s : Monitoring) (e : MonEvent) :
    Except Fault (MonEvent × Monitoring) := do
  let (handled, s') ← s.handle config e
  return ({ e with handled }, s')

lemma Monitoring.monStep_next {config : Config} {vmnum : Nat} {s s' : Monitoring} {e e' : MonEvent}
    (hvm : e.vm < vmnum) (h : s.next config e = .ok (e', s')) : MonStep config vmnum s e' s' := by
  obtain ⟨⟨handled, s₁⟩, hhandle, h⟩ := bind_eq_ok.mp h
  cases h
  exact ⟨hvm, hhandle⟩

def noExtract : Config := ⟨0, none⟩

/-- One VM with the policies of a file, and one of its system calls hooked. -/
def setUp (file : List UInt8) (symbol : CStr) : Except Fault (PolicyTable × Monitored Extra) :=
  match getPolicies (some file) with
  | .ok (some policies) => do
    let m ← mainSetPolicies (some policies.table) (fun _ => .listed) (fun _ _ => oneSymbol symbol) 1
      (Monitored.start fun _ => guestVm)
    return (policies, m)
  | _ => .error .nullPointer

lemma setUp_ok {file : List UInt8} {symbol : CStr} {policies : PolicyTable} {m : Monitored Extra}
    (h : setUp file symbol = .ok (policies, m)) : getPolicies (some file) = .ok (some policies) ∧
      mainSetPolicies (some policies.table) (fun _ => .listed) (fun _ _ => oneSymbol symbol) 1
        (Monitored.start fun _ => guestVm) = .ok m := by
  unfold setUp at h
  split at h
  · rename_i policies' hfile
    obtain ⟨m', hset, h⟩ := bind_eq_ok.mp h
    cases h
    exact ⟨hfile, hset⟩
  · cases h

/-- `NtCreateFile` on a path that is to be reported, and its return. -/
def creation : Except Fault (PolicyTable × Monitored Extra × List (MonEvent × Monitoring)) := do
  let (policies, m) ← setUp (cstr "7 WARNING CREATE C:\\a\n") (cstr "NtCreateFile")
  let (e, s) ← (Monitoring.start m).next noExtract (guestEvent (.start m) 0x4e000 0xe000)
  let (e', s') ← s.next noExtract (guestEvent s 0x2007 0)
  return (policies, m, [(e, s), (e', s')])

lemma creation_run {policies : PolicyTable} {m : Monitored Extra}
    {tr : List (MonEvent × Monitoring)} (h : creation = .ok (policies, m, tr)) :
    getPolicies (some (cstr "7 WARNING CREATE C:\\a\n")) = .ok (some policies) ∧
      mainSetPolicies (some policies.table) (fun _ => .listed)
        (fun _ _ => oneSymbol (cstr "NtCreateFile")) 1 (Monitored.start fun _ => guestVm) = .ok m ∧
      IsRun (MonStep noExtract 1) (Monitoring.start m) tr := by
  obtain ⟨⟨policies', m'⟩, hsetUp, h⟩ := bind_eq_ok.mp h
  obtain ⟨⟨e, s⟩, hfirst, h⟩ := bind_eq_ok.mp h
  obtain ⟨⟨e', s'⟩, hsecond, h⟩ := bind_eq_ok.mp h
  cases h
  obtain ⟨hfile, hset⟩ := setUp_ok hsetUp
  exact ⟨hfile, hset, Monitoring.monStep_next Nat.zero_lt_one hfirst,
    Monitoring.monStep_next Nat.zero_lt_one hsecond, trivial⟩

/-- Whether the calls of the callbacks for the events of a run are blameless. -/
def blamelessRun (s : Monitoring) : List (MonEvent × Monitoring) → Bool
  | [] => true
  | (e, s') :: tr => (s.invocations noExtract e).all Invocation.blameless && blamelessRun s' tr

lemma meets_of_blamelessRun {s : Monitoring} {tr : List (MonEvent × Monitoring)}
    (h : blamelessRun s tr = true) : Meets (Blameless noExtract) s tr := by
  induction tr generalizing s with
  | nil => trivial
  | cons step tr ih =>
    obtain ⟨hfirst, hrest⟩ := Bool.and_eq_true_iff.mp h
    exact ⟨List.all_eq_true.mp hfirst, ih hrest⟩

theorem reports_justified_creation : ∃ policies m tr,
    getPolicies (some (cstr "7 WARNING CREATE C:\\a\n")) = .ok (some policies) ∧
    mainSetPolicies (some policies.table) (fun _ => .listed)
      (fun _ _ => oneSymbol (cstr "NtCreateFile")) 1 (Monitored.start fun _ => guestVm) = .ok m ∧
    IsRun (MonStep noExtract 1) (Monitoring.start m) tr ∧
    tr.map (fun step => step.2.mon.reports.length) = [0, 1] ∧
    Always AllJustified (Monitoring.start m) tr := by
  obtain ⟨⟨policies, m, tr⟩, hcreation, hobs⟩ := exists_ok (x := creation)
    (f := fun r => (r.2.2.map fun step => step.2.mon.reports.length, blamelessRun (.start r.2.1) r.2.2))
    (b := ([0, 1], true)) (by decide +kernel)
  obtain ⟨hlen, hblameless⟩ := Prod.mk.injEq .. ▸ hobs
  obtain ⟨hfile, hset, htr⟩ := creation_run hcreation
  exact ⟨policies, m, tr, hfile, hset, htr, hlen,
    reports_justified hfile (fun _ => rfl) hset htr (meets_of_blamelessRun hblameless)⟩

/-- A request to delete a file that is to be reported. -/
def deletion : Except Fault (PolicyTable × Monitored Extra × MonEvent × Monitoring) := do
  let (policies, m) ← setUp (cstr "7 WARNING DELETE C:\\a\n") (cstr "NtSetInformationFile")
  let (e, s) ← (Monitoring.start m).next noExtract (guestEvent (.start m) 0x4e000 0x9000)
  return (policies, m, e, s)

/-- The record of a deletion has the action of a creation. -/
theorem deletion_recorded_as_creation : ∃ policies m tr,
    getPolicies (some (cstr "7 WARNING DELETE C:\\a\n")) = .ok (some policies) ∧
    mainSetPolicies (some policies.table) (fun _ => .listed)
      (fun _ _ => oneSymbol (cstr "NtSetInformationFile")) 1 (Monitored.start fun _ => guestVm) = .ok m ∧
    IsRun (MonStep noExtract 1) (Monitoring.start m) tr ∧
    ¬Always AllJustified (Monitoring.start m) tr := by
  obtain ⟨⟨policies, m, e, s⟩, hrun, hreports⟩ := exists_ok (x := deletion)
    (f := fun r => r.2.2.2.mon.reports.map fun r => (r.call.plugin, r.info.action))
    (b := [(.fileDeleted, 1)]) (by decide +kernel)
  obtain ⟨⟨policies', m'⟩, hsetUp, hrun⟩ := bind_eq_ok.mp hrun
  obtain ⟨⟨e₁, s₁⟩, hnext, hrun⟩ := bind_eq_ok.mp hrun
  cases hrun
  obtain ⟨hfile, hset⟩ := setUp_ok hsetUp
  refine ⟨policies, m, [(e, s)], hfile, hset,
    ⟨Monitoring.monStep_next Nat.zero_lt_one hnext, trivial⟩, ?_⟩
  rintro ⟨-, hall⟩
  obtain ⟨r, hr, hobs⟩ : ∃ r ∈ s.mon.reports, (r.call.plugin, r.info.action) = (.fileDeleted, 1) := by
    have hmem : (Plugin.fileDeleted, (1 : Int32)) ∈
        s.mon.reports.map fun r => (r.call.plugin, r.info.action) := by
      rw [hreports]
      exact List.mem_cons_self
    simpa using hmem
  obtain ⟨hplugin, hone⟩ := Prod.mk.injEq .. ▸ hobs
  obtain ⟨table, policy, -, -, -, haction, -⟩ := hall r hr
  rw [hone, hplugin] at haction
  exact absurd haction (by decide)

end Hfm

import Hfm.Footprint

/-!
# Transparency

The guest runs on vCPUs that each use the altp2m view or the original one, and is stopped by
breakpoints, memory accesses and single steps. What it sees is set against a machine without
traps and views: first the data of its instructions, whatever the calls answer, and then also
their bytes and its breakpoints.
-/

namespace Hfm

open Support

/-! ### The guest by itself -/

/-- The data of an instruction: where it reads which values, and what it writes where. -/
structure DataAccess where
  vcpuId : Fin 16
  reads : List Nat
  values : List UInt8
  writes : List (Nat × UInt8)

def DataAccess.addresses (data : DataAccess) : List Nat := data.reads ++ data.writes.map Prod.fst

/-- The bytes are written in their order. -/
def storeAll (mem : Nat → UInt8) : List (Nat × UInt8) → Nat → UInt8
  | [] => mem
  | w :: writes => storeAll (Function.update mem w.1 w.2) writes

def DataStep (mem : Nat → UInt8) (data : DataAccess) (mem' : Nat → UInt8) : Prop :=
  data.values = data.reads.map mem ∧ mem' = storeAll mem data.writes

/-- An instruction with its bytes, or a breakpoint of the guest. -/
inductive GuestAction where
  | execute (fetch : List Nat) (bytes : List UInt8) (data : DataAccess)
  | breakpoint (vcpuId : Fin 16) (pa : Nat)

def GuestStep (mem : Nat → UInt8) (action : GuestAction) (mem' : Nat → UInt8) : Prop :=
  match action with
  | .execute fetch bytes data => bytes = fetch.map mem ∧ bytes.head? ≠ some INT3_CHAR ∧
      DataStep mem data mem'
  | .breakpoint _ pa => mem pa = INT3_CHAR ∧ mem' = mem

lemma storeAll_congr {mem mem' : Nat → UInt8} {a : Nat} (h : mem a = mem' a)
    (writes : List (Nat × UInt8)) : storeAll mem writes a = storeAll mem' writes a := by
  induction writes generalizing mem mem' with
  | nil => exact h
  | cons w writes ih =>
    apply ih
    by_cases ha : a = w.1
    · rw [ha, Function.update_self, Function.update_self]
    · rw [Function.update_of_ne ha, Function.update_of_ne ha, h]

lemma storeAll_cases (mem : Nat → UInt8) (writes : List (Nat × UInt8)) (a : Nat) :
    storeAll mem writes a = mem a ∨ (a, storeAll mem writes a) ∈ writes := by
  induction writes generalizing mem with
  | nil => exact .inl rfl
  | cons w writes ih =>
    rcases ih (Function.update mem w.1 w.2) with hsame | hmem
    · by_cases ha : a = w.1
      · right
        have hlast : storeAll mem (w :: writes) a = w.2 := by
          rw [ha] at hsame ⊢
          exact hsame.trans (Function.update_self _ _ _)
        rw [hlast, ha]
        exact List.mem_cons_self
      · exact .inl (hsame.trans (Function.update_of_ne ha _ _))
    · exact .inr (List.mem_cons_of_mem _ hmem)

/-! ### A session -/

/-- Where a vCPU finds a physical address of the guest. -/
def Machine.addrOf (m : Machine) (v : Fin 16) (pa : Nat) : Nat :=
  if (m.vcpu v).slatId = ORIGIN_IDX then pa
  else pageAddr (m.slat (pa >>> PAGE_OFFSET_BITS)) (pa % PAGESIZE)

def Machine.seen (m : Machine) (v : Fin 16) (pa : Nat) : UInt8 := m.mem (m.addrOf v pa)

/-- Data of a page that raises events is accessed in the original view only. -/
def Machine.Permits (m : Machine) (data : DataAccess) : Prop :=
  (m.vcpu data.vcpuId).slatId = ORIGIN_IDX ∨
    ∀ pa ∈ data.addresses, m.memEvent (pa >>> PAGE_OFFSET_BITS) = false

def Machine.access (m : Machine) (data : DataAccess) : Machine :=
  { m with mem := storeAll m.mem (data.writes.map fun w => (m.addrOf data.vcpuId w.1, w.2)) }

variable {κ ε σ : Type}

/-- A breakpoint is hit where the vCPU sees an INT3. -/
def VmEvent.Arises (vm : Vm κ ε) : VmEvent → Prop
  | int3 event _ => vm.machine.seen event.vcpuId event.pa = INT3_CHAR
  | _ => True

inductive SessionMove (κ ε : Type) where
  | inject (trap : Trap κ ε) (calls : InjectCalls)
  | event (event : VmEvent) (handled : Handled)
  | execute (fetch : List Nat) (bytes : List UInt8) (data : DataAccess)

section Session

variable [DecidableEq κ] [DecidableEq ε]

/-- The program injects a trap, LibVMI calls back, or a vCPU executes an instruction with its
bytes and data in the frames `G` of the guest. -/
def SessionStep (G : Nat → Prop) (cbs : Callbacks κ ε σ) (w : Vm κ ε × σ)
    (action : SessionMove κ ε) (w' : Vm κ ε × σ) : Prop :=
  match action with
  | .inject trap calls => ∃ status vm, injectTrap { w.1 with brk := w.1.brk + 1 } calls
      { trap with addr := w.1.brk } = .ok (status, vm) ∧ w' = (vm, w.2)
  | .event event handled => event.Arises w.1 ∧ ∃ vm user,
      event.handle cbs w.1 w.2 = .ok (handled, vm, user) ∧
        w' = (vm.respond event.vcpuId handled, user)
  | .execute fetch bytes data => (∀ pa ∈ fetch ++ data.addresses, G (pa >>> PAGE_OFFSET_BITS)) ∧
      w.1.machine.Permits data ∧ bytes = fetch.map (w.1.machine.seen data.vcpuId) ∧
      bytes.head? ≠ some INT3_CHAR ∧ data.values = data.reads.map (w.1.machine.seen data.vcpuId) ∧
      w' = (w.1.setMachine (w.1.machine.access data), w.2)

end Session

/-- What the data of a session are. -/
def SessionMove.data : SessionMove κ ε → Option DataAccess
  | execute _ _ data => some data
  | _ => none

/-- What the guest notices of an action: its instructions, and breakpoints handed on to it. -/
def SessionMove.noticed : SessionMove κ ε → Option GuestAction
  | execute fetch bytes data => some (.execute fetch bytes data)
  | event (.int3 e _) handled =>
    if handled.reinject = some true then some (.breakpoint e.vcpuId e.pa) else none
  | _ => none

/-! ### The views -/

/-- Where a page raises no events, both views show the same frame. -/
def Shielded (vm : Vm κ ε) : Prop := ∀ g, vm.machine.memEvent g = false → vm.machine.slat g = g

lemma Shielded.addrOf {vm : Vm κ ε} (h : Shielded vm) {v : Fin 16} {pa : Nat}
    (hpa : (vm.machine.vcpu v).slatId = ORIGIN_IDX ∨
      vm.machine.memEvent (pa >>> PAGE_OFFSET_BITS) = false) : vm.machine.addrOf v pa = pa := by
  unfold Machine.addrOf
  split
  · rfl
  · rename_i hview
    rw [h _ (hpa.resolve_left hview), pageAddr_split]

/-- An instruction that is permitted reads and writes where its addresses say. -/
lemma Shielded.access {vm : Vm κ ε} (h : Shielded vm) {data : DataAccess}
    (hpermits : vm.machine.Permits data) :
    data.reads.map (vm.machine.seen data.vcpuId) = data.reads.map vm.machine.mem ∧
      vm.machine.access data = { vm.machine with mem := storeAll vm.machine.mem data.writes } := by
  have haddr : ∀ pa ∈ data.addresses, vm.machine.addrOf data.vcpuId pa = pa := fun pa hpa =>
    h.addrOf (hpermits.imp_right fun hall => hall pa hpa)
  constructor
  · apply List.map_congr_left
    intro pa hpa
    exact congrArg vm.machine.mem (haddr pa (List.mem_append_left _ hpa))
  · have hsame : data.writes.map (fun w => (vm.machine.addrOf data.vcpuId w.1, w.2)) =
        data.writes := by
      apply (List.map_congr_left fun w hw => ?_).trans (List.map_id _)
      rw [haddr w.1 (List.mem_append_right _ (List.mem_map_of_mem hw))]
      rfl
    unfold Machine.access
    rw [hsame]

/-- As long as pages with traps can be protected, the views keep showing one frame elsewhere. -/
lemma shielded_invariant :
    PageInvariant (·.setMemEvent = true) (fun vm : Vm κ ε => Shielded vm) := by
  constructor
  case same =>
    intro vm vm' hpages h g hg
    rw [hpages.memEvent] at hg
    rw [hpages.slat]
    exact h g hg
  case frame =>
    intro vm calls frame hset h g hg
    obtain ⟨hother, hframe⟩ := shadowFrame_views vm calls frame
    by_cases heq : g = frame
    · rw [heq, hframe hset] at hg
      cases hg
    · obtain ⟨hslat, hevent⟩ := hother g heq
      rw [hevent] at hg
      rw [hslat]
      exact h g hg

section Hooks

variable [DecidableEq κ] [DecidableEq ε]

/-! ### The data -/

/-- What the program does in an action. -/
def SessionMove.hook : SessionMove κ ε → Option (HookAction κ ε)
  | inject trap calls => some (.inject trap calls)
  | event e _ => some (.event e)
  | execute .. => none

/-- Pages with traps are protected, and the frame 0 is not the guest's or all shadow pages are
created. -/
def SessionMove.Shields (G : Nat → Prop) (vm : Vm κ ε) (action : SessionMove κ ε) : Prop :=
  ∀ hook, action.hook = some hook →
    hook.Asks (·.setMemEvent = true) ∧ (¬G 0 ∨ hook.Creates vm)

/-- The frames that Xen handed out are not the guest's. -/
def Apart (G : Nat → Prop) (vm : Vm κ ε) : Prop := ∀ r ∈ vm.machine.reserved, ¬G r

/-- A session as the hooks see it, next to a memory. -/
def beside (w : Vm κ ε × σ) (mem : Nat → UInt8) : Beside κ ε σ := ⟨w.1, w.2, mem⟩

omit [DecidableEq κ] [DecidableEq ε] in
lemma Untainted.agree {G S : Nat → Prop} {w : Vm κ ε × σ} {mem : Nat → UInt8}
    (h : Untainted S (beside w mem)) (hG : Apart G w.1) (hS : ∀ g, S g → ¬G g) {pa : Nat}
    (hpa : G (pa >>> PAGE_OFFSET_BITS)) : w.1.machine.mem pa = mem pa :=
  h.mem pa (fun hs => hS _ hs hpa) fun hr => hG _ hr hpa

omit [DecidableEq κ] [DecidableEq ε] in
/-- An instruction with its data in the memory of the guest. -/
lemma DataStep.follow {G S : Nat → Prop} {w : Vm κ ε × σ} {mem : Nat → UInt8}
    (hhook : Steady (beside w mem)) (h : Untainted S (beside w mem)) (hshielded : Shielded w.1)
    (hG : Apart G w.1) (hS : ∀ g, S g → ¬G g) {data : DataAccess}
    (hin : ∀ pa ∈ data.addresses, G (pa >>> PAGE_OFFSET_BITS))
    (hpermits : w.1.machine.Permits data)
    (hvalues : data.values = data.reads.map (w.1.machine.seen data.vcpuId)) :
    DataStep mem data (storeAll mem data.writes) ∧
      Steady (beside (w.1.setMachine (w.1.machine.access data), w.2) (storeAll mem data.writes)) ∧
      Untainted S
        (beside (w.1.setMachine (w.1.machine.access data), w.2) (storeAll mem data.writes)) := by
  obtain ⟨hreads, haccess⟩ := hshielded.access hpermits
  obtain ⟨⟨reg, hreg⟩, hpasses⟩ := hhook
  refine ⟨⟨?_, rfl⟩, ⟨⟨reg, hreg.congr rfl le_rfl⟩, hpasses⟩, ⟨?_, fun pa hs hr => ?_⟩⟩
  · rw [hvalues, hreads]
    exact List.map_congr_left fun pa hpa => h.agree hG hS (hin pa (List.mem_append_left _ hpa))
  · exact fun g rm hg => h.placed g rm hg
  · change (w.1.machine.access data).mem pa = _
    rw [haccess]
    exact storeAll_congr (h.mem pa hs hr) data.writes

/-- The program does nothing else to a session than its hooks do. -/
lemma SessionStep.hookRun {G : Nat → Prop} {cbs : Callbacks κ ε σ} {w w' : Vm κ ε × σ}
    {action : SessionMove κ ε} (hstep : SessionStep G cbs w action w') {hook : HookAction κ ε}
    (hhook : action.hook = some hook) (mem : Nat → UInt8) :
    HookRun cbs (beside w mem) hook (beside w' mem) := by
  cases action with
  | inject trap calls =>
    cases hhook
    obtain ⟨status, vm, hok, rfl⟩ := hstep
    exact ⟨status, vm, hok, rfl⟩
  | event event handled =>
    cases hhook
    obtain ⟨-, vm, user, hok, rfl⟩ := hstep
    exact ⟨handled, vm, user, hok, rfl⟩
  | execute fetch bytes data => cases hhook

/-- A session and the memory of the guest by itself. -/
structure Follow (G S : Nat → Prop) (w : Vm κ ε × σ) (mem : Nat → UInt8) : Prop where
  steady : Steady (beside w mem)
  untainted : Untainted S (beside w mem)
  shielded : Shielded w.1
  apart : Apart G w.1

omit [DecidableEq κ] [DecidableEq ε] in
lemma Started.follow {G : Nat → Prop} {w : Vm κ ε × σ} (h : Started w.1) (hG : Apart G w.1)
    (S : Nat → Prop) : Follow G S w w.1.machine.mem := by
  exact ⟨steady_tmInit h.tm h.passes, untainted_tmInit h.tm rfl, fun g _ => h.slat g, hG⟩

lemma Follow.hook {G S : Nat → Prop} {cbs : Callbacks κ ε σ} {w w' : Vm κ ε × σ}
    {mem : Nat → UInt8} (h : Follow G S w mem) {action : SessionMove κ ε}
    (hstep : SessionStep G cbs w action w') {hook : HookAction κ ε}
    (hhook : action.hook = some hook) (hasks : hook.Asks (·.setMemEvent = true))
    (hS : S 0 ∨ hook.Creates w.1) (hG : Apart G w'.1) : Follow G S w' mem := by
  have hrun := hstep.hookRun hhook mem
  exact ⟨h.steady.step hrun, h.untainted.hook h.steady hrun hS,
    shielded_invariant.step h.shielded h.steady hrun hasks, hG⟩

/-- Whatever the calls answer other than those that protect the pages, the guest reads and
writes the same data as without the program. -/
theorem data_transparent {G : Nat → Prop} {cbs : Callbacks κ ε σ} {w₀ : Vm κ ε × σ}
    (h₀ : Started w₀.1) {tr : List (SessionMove κ ε × (Vm κ ε × σ))}
    (hrun : IsRun (SessionStep G cbs) w₀ tr) (hxen : Always (fun w => Apart G w.1) w₀ tr)
    (hcalls : Meets (fun w action => action.Shields G w.1) w₀ tr) :
    ∃ tr', IsRun DataStep w₀.1.machine.mem tr' ∧
      tr'.map Prod.fst = shown SessionMove.data tr ∧
      ∀ pa, G (pa >>> PAGE_OFFSET_BITS) →
        (final w₀ tr).1.machine.mem pa = final w₀.1.machine.mem tr' pa := by
  let S : Nat → Prop := fun g => g = 0 ∧ ¬G 0
  have hS : ∀ g, S g → ¬G g := by
    rintro g ⟨rfl, hzero⟩
    exact hzero
  have hsim : Simulates (fun w action w' => Apart G w'.1 ∧ action.Shields G w.1 ∧
      SessionStep G cbs w action w') DataStep SessionMove.data
        fun (w : Vm κ ε × σ) mem => Follow G S w mem := by
    rintro w action w' mem h ⟨hG, hshields, hstep⟩
    have hhook : ∀ hook, action.hook = some hook → Follow G S w' mem := by
      intro hook heq
      obtain ⟨hasks, hzero⟩ := hshields hook heq
      exact h.hook hstep heq hasks (hzero.imp_left fun hnot => ⟨rfl, hnot⟩) hG
    cases action with
    | inject trap calls => exact hhook _ rfl
    | event event handled => exact hhook _ rfl
    | execute fetch bytes data =>
      obtain ⟨hin, hpermits, -, -, hvalues, rfl⟩ := hstep
      obtain ⟨hdata, hsteady, huntainted⟩ := DataStep.follow h.steady h.untainted h.shielded h.apart
        hS (fun pa hpa => hin pa (List.mem_append_right _ hpa)) hpermits hvalues
      exact ⟨_, hdata, hsteady, huntainted, h.shielded, hG⟩
  obtain ⟨tr', hrun', hshown, hfinal⟩ :=
    hsim.run ((hrun.meets hcalls).leads hxen) (h₀.follow hxen.head S)
  exact ⟨tr', hrun', hshown, fun pa hpa => hfinal.untainted.agree hfinal.apart hS hpa⟩

end Hooks

def aByte : DataAccess := ⟨vcpu0, [0x3000], [0x90], [(0x3000, 0x12)]⟩

def noAnswer : Callbacks Unit Unit Unit := fun _ _ _ _ s => (none, s)

def sessionStart : Vm Unit Unit × Unit := (Vm.start fun _ => 0x90, ())

/-- A trap is injected, and an instruction writes a byte to another page. -/
def sessionRun : List (SessionMove Unit Unit × (Vm Unit Unit × Unit)) :=
  [(.inject ⟨0, [], none, none, 0x1005, true, none⟩ (.succeeding 0x500), (oneTrapVm, ())),
    (.execute [0x1000, 0x1001] [0x90, 0x90] aByte,
      (oneTrapVm.setMachine (oneTrapVm.machine.access aByte), ()))]

lemma sessionStart_started : Started sessionStart.1 :=
  ⟨untouched_start _, fun _ => rfl, fun _ => rfl⟩

lemma sessionRun_run : IsRun (SessionStep (· < 0x500) noAnswer) sessionStart sessionRun := by
  have hin : ∀ pa ∈ [0x1000, 0x1001] ++ aByte.addresses, pa >>> PAGE_OFFSET_BITS < 0x500 := by
    decide
  have hpermits : oneTrapVm.machine.Permits aByte := by
    refine .inr fun pa hpa => ?_
    have hpage : pa = 0x3000 := by simpa [aByte, DataAccess.addresses] using hpa
    rw [hpage]
    rfl
  exact ⟨⟨.success, oneTrapVm, oneTrap_run.2, rfl⟩, ⟨hin, hpermits, rfl, by decide, rfl, rfl⟩,
    trivial⟩

lemma apart_of_one {vm : Vm Unit Unit} (h : vm.machine.reserved = [0x500]) :
    Apart (· < 0x500) vm := by
  intro r hr
  rw [h, List.mem_singleton] at hr
  omega

lemma apart_start : Apart (· < 0x500) sessionStart.1 := by
  intro r hr
  cases hr

theorem data_transparent_aByte : ∃ tr', IsRun DataStep (fun _ => 0x90) tr' ∧
    tr'.map Prod.fst = [aByte] := by
  have hshields : Meets (fun w action => action.Shields (· < 0x500) w.1) sessionStart
      sessionRun := by
    refine ⟨fun hook heq => ?_, ⟨fun hook heq => ?_, trivial⟩⟩
    · cases heq
      exact ⟨rfl, .inr (.inr ⟨0x500, (InjectCalls.succeeding_succeed (by decide)).shadow⟩)⟩
    · cases heq
  obtain ⟨tr', hrun, hshown, -⟩ := data_transparent sessionStart_started sessionRun_run
    ⟨apart_start, apart_of_one rfl, apart_of_one rfl⟩ hshields
  exact ⟨tr', hrun, hshown⟩

section Hooks

variable [DecidableEq κ] [DecidableEq ε]

/-! ### The bytes of the instructions -/

/-- Xen hands out no frame of the guest, and none twice. -/
structure Honest (G : Nat → Prop) (vm : Vm κ ε) : Prop where
  apart : Apart G vm
  nodup : vm.machine.reserved.Nodup

/-- Tables, memory and views agree, and only frames of the guest raise events. -/
structure Veiled (G : Nat → Prop) (vm : Vm κ ε) : Prop where
  inStep : InStep vm
  prot : Protected vm
  guest : ∀ g, vm.machine.memEvent g = true → G g

variable {G : Nat → Prop} {vm vm' : Vm κ ε}

omit [DecidableEq κ] [DecidableEq ε] in
lemma Honest.of_suffix (h : Honest G vm')
    (hreserved : vm.machine.reserved <:+ vm'.machine.reserved) : Honest G vm :=
  ⟨fun r hr => h.apart r (hreserved.subset hr), h.nodup.sublist hreserved.sublist⟩

omit [DecidableEq κ] [DecidableEq ε] in
lemma Veiled.congr (h : Veiled G vm) (htm : vm'.tm = vm.tm)
    (hmem : vm'.machine.mem = vm.machine.mem) (hslat : vm'.machine.slat = vm.machine.slat)
    (hevent : vm'.machine.memEvent = vm.machine.memEvent) (hbrk : vm.brk ≤ vm'.brk) :
    Veiled G vm' := by
  obtain ⟨⟨hcoh, hmapped, reg, hreg⟩, ⟨hmemtrap, hprot⟩, hguest⟩ := h
  refine ⟨⟨hcoh.congr (by rw [htm]) (fun g hg => by rw [htm]; exact hg) hmem
    (fun pa => by rw [htm]) fun pa _ => by rw [htm], hmapped.congr (by rw [htm]) hslat, reg,
    hreg.congr htm hbrk⟩, ⟨?_, ?_⟩, ?_⟩
  · rw [htm]
    exact hmemtrap
  · rw [htm, hevent]
    exact hprot
  · rw [hevent]
    exact hguest

omit [DecidableEq κ] [DecidableEq ε] in
/-- The frame for a new shadow page is added to those that were handed out. -/
lemma shadowFrame_reserved {calls : InjectCalls} {frame r : Nat} (hcalls : calls.Succeed r)
    (hnone : tmFindRemapped vm.tm frame = none) :
    (vm.shadowFrame calls frame).machine.reserved = r :: vm.machine.reserved := by
  have hcreate : (createShadowPage vm calls.shadow frame).2.machine.reserved =
      r :: vm.machine.reserved := by
    have hshadow := hcalls.shadow
    unfold createShadowPage
    dsimp only
    generalize vm.hdlr.memsize + 4096 = proposedMemsize
    rw [xenAllocShadowFrame_succeed vm.machine hshadow proposedMemsize.toUInt64]
    simp only [if_neg hshadow.ne_zero, hshadow.changeGfn, hshadow.readPa, hshadow.writePa,
      Bool.not_true, Bool.false_eq_true, if_false, ne_eq, not_true_eq_false]
    rfl
  unfold Vm.shadowFrame
  rw [protectFrame_reserved]
  unfold shadowOf
  rw [hnone]
  dsimp only
  split
  · exact hcreate
  · exact hcreate

/-- An honest Xen hands out fresh frames. -/
lemma Veiled.inject (h : Veiled G vm) (hplaced : Placed vm) {calls : InjectCalls} {r : Nat}
    (hcalls : calls.Succeed r) {trap : Trap κ ε} (hgfn : G trap.gfn) (haddr : trap.addr = vm.brk)
    {status : HfmStatus}
    (hok : injectTrap { vm with brk := vm.brk + 1 } calls trap = .ok (status, vm'))
    (hxen : Honest G vm') : Veiled G vm' := by
  have hfresh : tmFindRemapped vm.tm trap.gfn = none → FreshFrame vm trap.gfn r := by
    intro hnone
    have hex : tmTrapExist vm.tm trap.pa = false := by
      rw [← Bool.not_eq_true]
      intro hex
      have hsome := h.inStep.coherent.remapped trap.pa hex
      change (tmFindRemapped vm.tm trap.gfn).isSome = true at hsome
      rw [hnone] at hsome
      cases hsome
    have hpages := injectTrap_pages hok
    have hnot : ¬tmTrapExist { vm with brk := vm.brk + 1 }.tm trap.pa = true :=
      Bool.eq_false_iff.mp hex
    rw [if_neg hnot] at hpages
    have hbefore : tmFindRemapped { vm with brk := vm.brk + 1 }.tm trap.gfn = none := hnone
    have hreserved := hpages.reserved.trans (shadowFrame_reserved hcalls hbefore)
    change vm'.machine.reserved = r :: vm.machine.reserved at hreserved
    have hr : ¬G r := hxen.apart r (hreserved ▸ List.mem_cons_self)
    have hnodup := hxen.nodup
    rw [hreserved, List.nodup_cons] at hnodup
    refine ⟨fun heq => hr (heq ▸ hgfn), fun g rm hg => ⟨?_, ?_, ?_⟩⟩
    · rintro rfl
      apply hr
      apply h.guest
      rw [h.prot.memEvent, hg]
      rfl
    · rintro rfl
      exact hnodup.1 (hplaced g rm hg).2
    · intro heq
      have hmem : rm.r ∈ vm'.machine.reserved := hreserved ▸ List.mem_cons_of_mem _ (hplaced g rm hg).2
      exact hxen.apart rm.r hmem (heq ▸ hgfn)
  have hsucceeds : (TrapStep.inject trap calls r).Succeeds vm := ⟨hcalls, hfresh⟩
  obtain ⟨vm₁, hok₁, hin, -⟩ := TrapStep.inStep h.inStep hsucceeds
  have hsame : { trap with addr := vm.brk } = trap := by rw [← haddr]
  rw [TrapStep.apply, hsame, hok] at hok₁
  cases hok₁
  have hbefore : Protected { vm with brk := vm.brk + 1 } := ⟨h.prot.memtrap, h.prot.memEvent⟩
  refine ⟨hin, injectTrap_protected hbefore hcalls hok, fun g hg => ?_⟩
  by_cases heq : g = trap.gfn
  · rw [heq]
    exact hgfn
  · rw [(injectTrap_pages hok).memEvent] at hg
    split at hg
    · exact h.guest g hg
    · rw [((shadowFrame_views { vm with brk := vm.brk + 1 } calls trap.gfn).1 g heq).2] at hg
      exact h.guest g hg

lemma Veiled.destroy (h : Veiled G vm) {calls : RemoveCalls} (hcalls : calls.Succeed)
    {trap : Trap κ ε} {reg : List (Trap κ ε)} (hreg : Registered vm reg) (htrap : trap ∈ reg)
    (hok : destroyTrap vm calls trap = .ok vm') : Veiled G vm' := by
  have hlisted : trap ∈ vm.tm.traps (tmInt3trapsAtPa vm.tm trap.pa) := by
    have htraps := hreg.indexed.traps_head (.inl trap.pa)
    change vm.tm.traps (tmInt3trapsAtPa vm.tm trap.pa) = _ at htraps
    rw [htraps]
    simpa [belongs] using htrap
  have hsucceeds : (TrapStep.destroy trap calls).Succeeds vm := ⟨hcalls, hlisted⟩
  obtain ⟨vm₁, hok₁, hin, -⟩ := TrapStep.inStep h.inStep hsucceeds
  rw [TrapStep.apply, hok] at hok₁
  cases hok₁
  refine ⟨hin, destroyTrap_protected h.prot hcalls hok, fun g hg => ?_⟩
  rw [(destroyTrap_pages hok).memEvent] at hg
  exact h.guest g hg

/-- All answers while a trap is visited are successes, and the return address is the guest's. -/
structure VisitCalls.Succeed (G : Nat → Prop) (calls : VisitCalls) : Prop where
  inject : ∃ r, calls.inject.Succeed r
  remove : calls.remove.Succeed
  lookup : G (calls.pagetableLookup (calls.readAddr.getD calls.ret) >>> PAGE_OFFSET_BITS)

lemma visitTrap_veiled (hplaced : Placed vm) (h : Honest G vm → Veiled G vm)
    {cbs : Callbacks κ ε σ} {event : InterruptEvent} {calls : VisitCalls} (hcalls : calls.Succeed G)
    {trap : Trap κ ε} {reg : List (Trap κ ε)} (hreg : Registered vm reg) (htrap : trap ∈ reg)
    {s s' : UInt64 × σ} {planted : Option (Trap κ ε)}
    (hok : visitTrap cbs event calls trap vm s = .ok (vm', s', planted)) :
    Placed vm' ∧ (Honest G vm' → Veiled G vm') := by
  obtain ⟨⟨r, hinject⟩, hremove, hlookup⟩ := hcalls
  let P : Vm κ ε → Prop := fun vm => (Placed vm ∧ (Honest G vm → Veiled G vm)) ∧
    ∃ reg, Registered vm reg ∧ trap ∈ reg
  let Q : Vm κ ε → Prop := fun vm => Placed vm ∧ (Honest G vm → Veiled G vm)
  refine visitTrap_halves (P := P) (Q := Q) ?plant ⟨⟨hplaced, h⟩, reg, hreg, htrap⟩
    (fun _ hP => hP.1) ?destroy hok
  case plant =>
    intro extra status vm₁ hplant
    have hbefore : Placed { vm with brk := vm.brk + 1 } := hplaced
    have hconfined : Confined (fun _ => False) { vm with brk := vm.brk + 1 } vm₁ :=
      injectTrap_confined hbefore hplant
        (.inr (getsShadow_of_created hbefore (.inr ⟨r, hinject.shadow⟩)))
    have hgfn : G (returnTrap vm calls trap extra).gfn := hlookup
    have haddr : (returnTrap vm calls trap extra).addr = vm.brk := rfl
    refine ⟨⟨hconfined.placed, fun hxen => ?_⟩, ?_⟩
    · exact (h (hxen.of_suffix hconfined.reserved)).inject hplaced hinject hgfn haddr hplant hxen
    · obtain ⟨status', vm₂, hok₂, -, hreg₂⟩ := hreg.inject calls.inject haddr
      rw [hplant] at hok₂
      cases hok₂
      refine ⟨_, hreg₂, ?_⟩
      split
      · exact List.mem_append_left _ htrap
      · exact htrap
  case destroy =>
    rintro vm₁ vm₂ ⟨⟨hplaced₁, h₁⟩, reg₁, hreg₁, htrap₁⟩ hdestroy
    have hconfined := destroyTrap_confined hplaced₁ (fun _ => False) hdestroy
    exact ⟨hconfined.placed, fun hxen =>
      (h₁ (hxen.of_suffix hconfined.reserved)).destroy hremove hreg₁ htrap₁ hdestroy⟩

/-- The traps still to visit stay registered. -/
lemma Visit.queue {trap : Trap κ ε} {planted : Option (Trap κ ε)} {tm : Trapmngr κ ε}
    (hv : Visit trap planted vm vm' tm) {reg queue : List (Trap κ ε)} (hreg : Registered vm reg)
    (hnodup : (trap :: queue).Nodup) (hsub : ∀ t ∈ trap :: queue, t ∈ reg) (pa : Nat) :
    (queue ++ planted.toList.filter (·.pa = pa)).Nodup ∧
      ∀ t ∈ queue ++ planted.toList.filter (·.pa = pa), t ∈ visited reg trap planted := by
  obtain ⟨hfirst, hqueue⟩ := List.nodup_cons.mp hnodup
  have hnew : ∀ t, planted = some t → t ∉ reg := by
    intro t ht hmem
    have haddr := (hv.plants t ht).addr
    have hlt := hreg.addr_lt t hmem
    omega
  have hplanted : ∀ t ∈ planted.toList.filter (·.pa = pa), planted = some t := fun t ht =>
    Option.mem_toList.mp (List.mem_filter.mp ht).1
  constructor
  · rw [List.nodup_append]
    refine ⟨hqueue, ?_, fun t ht t' ht' heq => ?_⟩
    · cases planted with
      | none => exact List.nodup_nil
      | some t => exact (List.nodup_singleton t).filter _
    · exact hnew t' (hplanted t' ht') (heq ▸ hsub t (List.mem_cons_of_mem _ ht))
  · intro t ht
    have hmem : t ∈ reg ++ planted.toList ∧ t ≠ trap := by
      rcases List.mem_append.mp ht with ht | ht
      · refine ⟨List.mem_append_left _ (hsub t (List.mem_cons_of_mem _ ht)), ?_⟩
        rintro rfl
        exact hfirst ht
      · refine ⟨List.mem_append_right _ (List.mem_filter.mp ht).1, ?_⟩
        rintro rfl
        exact hnew t (hplanted t ht) (hsub t List.mem_cons_self)
    unfold visited
    split
    · exact (List.mem_erase_of_ne hmem.2).mpr hmem.1
    · exact hmem.1

lemma Veiled.int3 (h : Veiled G vm) (hplaced : Placed vm) {reg : List (Trap κ ε)}
    (hreg : Registered vm reg) {cbs : Callbacks κ ε σ} {event : InterruptEvent} {calls : Int3Calls}
    (hread : calls.read8 = true) (hcalls : ∀ i, (calls.visit i).Succeed G) {s s' : σ}
    {handled : Handled} (hok : int3Cb cbs event calls vm s = .ok (handled, vm', s'))
    (hxen : Honest G vm') : Veiled G vm' := by
  cases hex : tmTrapExist vm.tm event.pa with
  | false =>
    rw [int3Cb_of_not_trapExist hreg cbs calls s hex, if_pos hread] at hok
    cases hok
    exact h
  | true =>
    let I : List (Trap κ ε) → Vm κ ε → UInt64 × σ → Prop := fun queue vm _ =>
      (Placed vm ∧ (Honest G vm → Veiled G vm)) ∧
        ∃ reg, Registered vm reg ∧ queue.Nodup ∧ ∀ t ∈ queue, t ∈ reg
    have hvisit : ∀ trap queue vm s (calls : VisitCalls), calls.Succeed G →
        I (trap :: queue) vm s →
        AfterVisit event (fun _ => True) I queue (visitTrap cbs event calls trap vm s) := by
      rintro trap queue vm s calls hcalls ⟨⟨hplaced, h⟩, reg, hreg, hnodup, hsub⟩
      cases hvisited : visitTrap cbs event calls trap vm s with
      | error fault => trivial
      | ok result =>
        obtain ⟨vm₁, s₁, planted⟩ := result
        obtain ⟨tm, hv⟩ := visitTrap_visit hvisited
        exact ⟨visitTrap_veiled hplaced h hcalls hreg (hsub trap List.mem_cons_self) hvisited,
          _, hv.registered hreg, hv.queue hreg hnodup hsub event.pa⟩
    have hstart : I (reg.filter (·.pa = event.pa)) vm (0, s) :=
      ⟨⟨hplaced, fun _ => h⟩, reg, hreg, hreg.nodup.filter _, fun t ht => (List.mem_filter.mp ht).1⟩
    obtain ⟨doubletrap, -, hrule⟩ := int3Cb_rule hreg (fun _ _ _ => trivial) hvisit calls hcalls
      hex hstart
    rw [hok] at hrule
    obtain ⟨-, _, vm₁, base, ⟨⟨-, hveiled⟩, -⟩, rfl⟩ := hrule
    have hxen₁ : Honest G vm₁ := ⟨hxen.apart, hxen.nodup⟩
    exact (hveiled hxen₁).congr rfl rfl rfl rfl le_rfl

/-! ### What the guest executes -/

/-- What is written to pages with shadow pages changes nothing there, other than from one
byte that is not an INT3 to another one where a trap is. -/
def DataAccess.Harmless (vm : Vm κ ε) (data : DataAccess) : Prop :=
  ∀ w ∈ data.writes, (tmFindRemapped vm.tm (w.1 >>> PAGE_OFFSET_BITS)).isSome = true →
    if tmTrapExist vm.tm w.1 then (w.2 = INT3_CHAR ↔ vm.machine.mem w.1 = INT3_CHAR)
    else w.2 = vm.machine.mem w.1

/-- All calls succeed, traps lie in frames of the guest, and at most on the first byte of an
instruction; writes of the guest are harmless. -/
def SessionMove.Answered (G : Nat → Prop) (vm : Vm κ ε) : SessionMove κ ε → Prop
  | inject trap calls => (∃ r, calls.Succeed r) ∧ G trap.gfn
  | event (.int3 e calls) _ => calls.read8 = true ∧ G (e.pa >>> PAGE_OFFSET_BITS) ∧
      ∀ i, (calls.visit i).Succeed G
  | event _ _ => True
  | execute fetch _ data => data.Harmless vm ∧ ∀ pa ∈ fetch.tail, tmTrapExist vm.tm pa = false

omit [DecidableEq κ] [DecidableEq ε] in
lemma SessionMove.Answered.shields {action : SessionMove κ ε} (h : action.Answered G vm)
    {hook : HookAction κ ε} (hhook : action.hook = some hook) :
    hook.Asks (·.setMemEvent = true) ∧ hook.Creates vm := by
  cases action with
  | inject trap calls =>
    cases hhook
    obtain ⟨⟨r, hr⟩, -⟩ := h
    exact ⟨hr.setMemEvent, .inr ⟨r, hr.shadow⟩⟩
  | event event handled =>
    cases hhook
    cases event with
    | int3 event calls =>
      obtain ⟨-, -, hvisit⟩ := h
      refine ⟨fun i => ?_, fun i => ?_⟩
      · obtain ⟨r, hr⟩ := (hvisit i).inject
        exact hr.setMemEvent
      · obtain ⟨r, hr⟩ := (hvisit i).inject
        exact ⟨r, hr.shadow⟩
    | mem event => exact ⟨trivial, trivial⟩
    | step vcpuId calls => exact ⟨trivial, trivial⟩
  | execute fetch bytes data => cases hhook

omit [DecidableEq κ] [DecidableEq ε] in
/-- In the altp2m view a vCPU sees the INT3s of the traps and else the memory. -/
lemma Veiled.seen (h : Veiled G vm) (hshielded : Shielded vm) (v : Fin 16) (pa : Nat) :
    vm.machine.seen v pa = if (vm.machine.vcpu v).slatId = ORIGIN_IDX then vm.machine.mem pa
      else shadowByte vm pa := by
  unfold Machine.seen Machine.addrOf
  split
  · rfl
  · obtain ⟨hcoh, hmapped, -⟩ := h.inStep
    cases hrm : tmFindRemapped vm.tm (pa >>> PAGE_OFFSET_BITS) with
    | some rm =>
      rw [hmapped.view _ rm hrm, hcoh.shadow _ rm hrm _ (mod_lt_pageSize pa), pageAddr_split]
    | none =>
      have hevent : vm.machine.memEvent (pa >>> PAGE_OFFSET_BITS) = false := by
        rw [h.prot.memEvent, hrm]
        rfl
      have hno : tmTrapExist vm.tm pa ≠ true := by
        intro hex
        have hsome := hcoh.remapped pa hex
        rw [hrm] at hsome
        cases hsome
      rw [hshielded _ hevent, pageAddr_split, shadowByte, if_neg hno]

omit [DecidableEq κ] [DecidableEq ε] in
/-- The bytes of an instruction that executes are those of the guest. -/
lemma Veiled.fetch (h : Veiled G vm) (hshielded : Shielded vm) (v : Fin 16) {fetch : List Nat}
    (haligned : ∀ pa ∈ fetch.tail, tmTrapExist vm.tm pa = false)
    (hfirst : (fetch.map (vm.machine.seen v)).head? ≠ some INT3_CHAR) :
    fetch.map (vm.machine.seen v) = fetch.map vm.machine.mem := by
  have hsame : ∀ pa, tmTrapExist vm.tm pa = false ∨ vm.machine.seen v pa ≠ INT3_CHAR →
      vm.machine.seen v pa = vm.machine.mem pa := by
    intro pa hpa
    rw [h.seen hshielded] at hpa ⊢
    split
    · rfl
    · rename_i hview
      rw [if_neg hview] at hpa
      unfold shadowByte at hpa ⊢
      cases hex : tmTrapExist vm.tm pa with
      | false => rfl
      | true =>
        rw [hex] at hpa
        simp at hpa
  cases fetch with
  | nil => rfl
  | cons pa fetch =>
    have hhead : vm.machine.seen v pa ≠ INT3_CHAR := fun heq => hfirst (congrArg some heq)
    rw [List.map_cons, List.map_cons, hsame pa (.inr hhead)]
    exact congrArg _ (List.map_congr_left fun a ha => hsame a (.inl (haligned a ha)))

omit [DecidableEq κ] [DecidableEq ε] in
/-- Shadow pages stay right when the guest writes to its own frames and changes nothing there
that they show. -/
lemma Veiled.access (h : Veiled G vm) (hplaced : Placed vm) (hG : Apart G vm) {data : DataAccess}
    (hin : ∀ pa ∈ data.addresses, G (pa >>> PAGE_OFFSET_BITS)) (hharmless : data.Harmless vm) :
    Veiled G (vm.setMachine { vm.machine with mem := storeAll vm.machine.mem data.writes }) := by
  obtain ⟨⟨hcoh, hmapped, reg, hreg⟩, ⟨hmemtrap, hevent⟩, hguest⟩ := h
  have hbyte : ∀ pa, (tmFindRemapped vm.tm (pa >>> PAGE_OFFSET_BITS)).isSome = true →
      if tmTrapExist vm.tm pa then
        (storeAll vm.machine.mem data.writes pa = INT3_CHAR ↔ vm.machine.mem pa = INT3_CHAR)
      else storeAll vm.machine.mem data.writes pa = vm.machine.mem pa := by
    intro pa hpa
    rcases storeAll_cases vm.machine.mem data.writes pa with hsame | hmem
    · rw [hsame]
      simp
    · exact hharmless _ hmem hpa
  refine ⟨⟨⟨hcoh.remapped, hcoh.memtrap, fun g rm hg off hoff => ?shadow, fun pa hpa => ?flag⟩,
    hmapped.congr rfl rfl, reg, hreg.congr rfl le_rfl⟩, ⟨hmemtrap, hevent⟩, hguest⟩
  case shadow =>
    change tmFindRemapped vm.tm g = some rm at hg
    have hkept : storeAll vm.machine.mem data.writes (pageAddr rm.r off) =
        vm.machine.mem (pageAddr rm.r off) := by
      rcases storeAll_cases vm.machine.mem data.writes (pageAddr rm.r off) with hsame | hmem
      · exact hsame
      · have hguest := hin _ (List.mem_append_right _ (List.mem_map_of_mem hmem))
        rw [pageAddr_shift hoff] at hguest
        exact absurd hguest (hG _ (hplaced g rm hg).2)
    have hcopy := hbyte (pageAddr g off) (by rw [pageAddr_shift hoff, hg]; rfl)
    change storeAll vm.machine.mem data.writes (pageAddr rm.r off) = _
    rw [hkept, hcoh.shadow g rm hg off hoff]
    unfold shadowByte
    change _ = if tmTrapExist vm.tm (pageAddr g off) then INT3_CHAR
      else storeAll vm.machine.mem data.writes (pageAddr g off)
    split
    · rfl
    · rename_i hex
      rw [if_neg hex] at hcopy
      exact hcopy.symm
  case flag =>
    have hflag := hbyte pa (hcoh.remapped pa hpa)
    change tmTrapExist vm.tm pa = true at hpa
    rw [if_pos hpa] at hflag
    change tmCheckDoubletrap vm.tm pa = _
    rw [hcoh.doubletrap pa hpa]
    unfold doubletrapAt
    change _ = Except.ok (if storeAll vm.machine.mem data.writes pa = INT3_CHAR then 1 else 0)
    simp only [hflag]

/-- The hooks of an answered action keep the veil. -/
lemma Veiled.hook {cbs : Callbacks κ ε σ} {w w' : Vm κ ε × σ} {mem : Nat → UInt8}
    (h : Veiled G w.1) (hhook : Steady (beside w mem)) (hplaced : Placed w.1)
    (hshielded : Shielded w.1) (hG : Apart G w.1)
    {action : SessionMove κ ε} (hstep : SessionStep G cbs w action w')
    (hanswered : action.Answered G w.1) (hxen : Honest G w'.1) : Veiled G w'.1 := by
  obtain ⟨⟨reg, hreg⟩, hpasses⟩ := hhook
  cases action with
  | inject trap calls =>
    obtain ⟨⟨r, hr⟩, hgfn⟩ := hanswered
    obtain ⟨status, vm, hok, rfl⟩ := hstep
    have hframe : G { trap with addr := w.1.brk }.gfn := hgfn
    exact h.inject hplaced hr hframe rfl hok hxen
  | event event handled =>
    obtain ⟨-, vm, user, hok, rfl⟩ := hstep
    have hxen' : Honest G vm := ⟨hxen.apart, hxen.nodup⟩
    suffices hvm : Veiled G vm from hvm.congr rfl rfl rfl rfl le_rfl
    cases event with
    | int3 event calls =>
      obtain ⟨hread, -, hvisit⟩ := hanswered
      exact h.int3 hplaced hreg hread hvisit hok hxen'
    | mem event =>
      cases hok
      obtain ⟨hmachine, htm, hbrk, -⟩ := preMemCb_keeps w.1 event
      exact h.congr htm (congrArg Machine.mem hmachine) (congrArg Machine.slat hmachine)
        (congrArg Machine.memEvent hmachine) hbrk
    | step vcpuId calls =>
      obtain ⟨⟨handled', vm'⟩, hok', hok⟩ := bind_eq_ok.mp hok
      cases hok
      obtain ⟨hmachine, htm, hbrk, -⟩ := stepCb_keeps hpasses hok'
      exact h.congr htm (congrArg Machine.mem hmachine) (congrArg Machine.slat hmachine)
        (congrArg Machine.memEvent hmachine) hbrk.ge
  | execute fetch bytes data =>
    obtain ⟨hin, hpermits, -, -, -, rfl⟩ := hstep
    have hdata := h.access hplaced hG (fun pa hpa => hin pa (List.mem_append_right _ hpa))
      hanswered.1
    rw [← (hshielded.access hpermits).2] at hdata
    exact hdata

/-- A breakpoint is handed on to the guest exactly if it is the guest's. -/
lemma Veiled.reinject {cbs : Callbacks κ ε σ} {w w' : Vm κ ε × σ} (h : Veiled G w.1)
    {event : InterruptEvent} {calls : Int3Calls} {handled : Handled} (hread : calls.read8 = true)
    (hstep : SessionStep G cbs w (.event (.int3 event calls) handled) w') :
    handled.reinject = some (decide (w.1.machine.mem event.pa = INT3_CHAR)) := by
  obtain ⟨-, vm, user, hok, -⟩ := hstep
  have hreinject := h.inStep.reinject event hread
  rw [int3Cb_reinject hok] at hreinject
  exact Except.ok.inj hreinject

/-- The guest by itself follows a session. -/
lemma session_follows {cbs : Callbacks κ ε σ} {w₀ : Vm κ ε × σ} (h₀ : Started w₀.1)
    {tr : List (SessionMove κ ε × (Vm κ ε × σ))} (hrun : IsRun (SessionStep G cbs) w₀ tr)
    (hxen : Always (fun w => Honest G w.1) w₀ tr)
    (hcalls : Meets (fun w action => action.Answered G w.1) w₀ tr) :
    ∃ tr', IsRun GuestStep w₀.1.machine.mem tr' ∧
      tr'.map Prod.fst = shown SessionMove.noticed tr ∧
      Follow G (fun _ => False) (final w₀ tr) (final w₀.1.machine.mem tr') ∧
      Veiled G (final w₀ tr).1 := by
  let S : Nat → Prop := fun _ => False
  have hS : ∀ g, S g → ¬G g := fun g hg => hg.elim
  have hsim : Simulates (fun w action w' => Honest G w'.1 ∧ action.Answered G w.1 ∧
      SessionStep G cbs w action w') GuestStep SessionMove.noticed
        fun (w : Vm κ ε × σ) mem => Follow G S w mem ∧ Veiled G w.1 := by
    rintro w action w' mem ⟨h, hveiled⟩ ⟨hxen', hanswered, hstep⟩
    have hveiled' : Veiled G w'.1 :=
      hveiled.hook h.steady h.untainted.placed h.shielded h.apart hstep hanswered hxen'
    have hhook : ∀ hook, action.hook = some hook → Follow G S w' mem ∧ Veiled G w'.1 := by
      intro hook heq
      obtain ⟨hasks, hcreates⟩ := hanswered.shields heq
      exact ⟨h.hook hstep heq hasks (.inr hcreates) hxen'.apart, hveiled'⟩
    cases action with
    | inject trap calls => exact hhook _ rfl
    | event event handled =>
      cases event with
      | int3 event calls =>
        have hreinject := hveiled.reinject hanswered.1 hstep
        by_cases hcc : w.1.machine.mem event.pa = INT3_CHAR
        · have hnoticed : (.event (.int3 event calls) handled : SessionMove κ ε).noticed =
              some (.breakpoint event.vcpuId event.pa) := by
            apply if_pos
            rw [hreinject, decide_eq_true hcc]
          rw [hnoticed]
          rw [h.untainted.agree h.apart hS hanswered.2.1] at hcc
          exact ⟨mem, ⟨hcc, rfl⟩, hhook _ rfl⟩
        · have hnoticed : (.event (.int3 event calls) handled : SessionMove κ ε).noticed =
              none := by
            apply if_neg
            rw [hreinject, decide_eq_false hcc]
            simp
          rw [hnoticed]
          exact hhook _ rfl
      | mem event => exact hhook _ rfl
      | step vcpuId calls => exact hhook _ rfl
    | execute fetch bytes data =>
      obtain ⟨hin, hpermits, hbytes, hfirst, hvalues, rfl⟩ := hstep
      obtain ⟨hdata, hsteady, huntainted⟩ := DataStep.follow h.steady h.untainted h.shielded h.apart
        hS (fun pa hpa => hin pa (List.mem_append_right _ hpa)) hpermits hvalues
      have hfetch : bytes = fetch.map mem := by
        have hfirst' := hfirst
        rw [hbytes] at hfirst'
        rw [hbytes, hveiled.fetch h.shielded data.vcpuId hanswered.2 hfirst']
        exact List.map_congr_left fun pa hpa =>
          h.untainted.agree h.apart hS (hin pa (List.mem_append_left _ hpa))
      exact ⟨_, ⟨hfetch, hfirst, hdata⟩, ⟨hsteady, huntainted, h.shielded, hxen'.apart⟩, hveiled'⟩
  have hstart : Veiled G w₀.1 := by
    refine ⟨inStep_tmInit h₀.tm, h₀.toUntouched.protected, fun g hg => ?_⟩
    rw [h₀.memEvent] at hg
    cases hg
  exact hsim.run ((hrun.meets hcalls).leads hxen) ⟨h₀.follow hxen.head.apart S, hstart⟩

/-- As long as the calls succeed, Xen hands out new frames and the guest changes no byte of the
pages with traps that would have to be copied, all that the guest notices is what it would do
without the program. -/
theorem session_transparent {cbs : Callbacks κ ε σ} {w₀ : Vm κ ε × σ} (h₀ : Started w₀.1)
    {tr : List (SessionMove κ ε × (Vm κ ε × σ))} (hrun : IsRun (SessionStep G cbs) w₀ tr)
    (hxen : Always (fun w => Honest G w.1) w₀ tr)
    (hcalls : Meets (fun w action => action.Answered G w.1) w₀ tr) :
    ∃ tr', IsRun GuestStep w₀.1.machine.mem tr' ∧
      tr'.map Prod.fst = shown SessionMove.noticed tr ∧
      ∀ pa, G (pa >>> PAGE_OFFSET_BITS) →
        (final w₀ tr).1.machine.mem pa = final w₀.1.machine.mem tr' pa := by
  obtain ⟨tr', hrun', hshown, hfinal, -⟩ := session_follows h₀ hrun hxen hcalls
  exact ⟨tr', hrun', hshown, fun pa hpa =>
    hfinal.untainted.agree hfinal.apart (fun _ h => h.elim) hpa⟩

end Hooks

def atTrap : InterruptEvent := ⟨vcpu0, 1, 5, 1, ⟨0, 0, 0, 0, 0, 0, 0, 0, 0⟩⟩

def atTrapCalls : Int3Calls :=
  ⟨true, fun _ => ⟨some 0, 0, fun _ => 0x1008, .succeeding 0x600, .succeeding, .cleared⟩⟩

lemma honest_of_one {vm : Vm Unit Unit} (h : vm.machine.reserved = [0x500]) :
    Honest (· < 0x500) vm := by
  refine ⟨apart_of_one h, ?_⟩
  rw [h]
  exact List.nodup_singleton _

lemma sessionRun_honest : Always (fun w => Honest (· < 0x500) w.1) sessionStart sessionRun :=
  ⟨⟨apart_start, List.nodup_nil⟩, honest_of_one rfl, honest_of_one rfl⟩

lemma sessionRun_answered :
    Meets (fun w action => action.Answered (· < 0x500) w.1) sessionStart sessionRun := by
  have hharmless : aByte.Harmless oneTrapVm := by
    intro w hw hsome
    obtain rfl := List.mem_singleton.mp hw
    cases hsome
  have haligned : ∀ pa ∈ [0x1000, 0x1001].tail, tmTrapExist oneTrapVm.tm pa = false := by
    intro pa hpa
    obtain rfl := List.mem_singleton.mp hpa
    rfl
  exact ⟨⟨⟨0x500, InjectCalls.succeeding_succeed (by decide)⟩, (by decide : 0x1005 >>> 12 < 0x500)⟩,
    ⟨hharmless, haligned⟩, trivial⟩

/-- The trap is hit after the instruction; the guest notices the instruction only. -/
theorem session_transparent_trap : ∃ tr', IsRun GuestStep (fun _ => 0x90) tr' ∧
    tr'.map Prod.fst = [.execute [0x1000, 0x1001] [0x90, 0x90] aByte] := by
  obtain ⟨vm, user, hok, hreserved⟩ : ∃ vm user, int3Cb noAnswer atTrap atTrapCalls
      (oneTrapVm.setMachine (oneTrapVm.machine.access aByte)) () =
        .ok (⟨.switch, ORIGIN_IDX, some false⟩, vm, user) ∧ vm.machine.reserved = [0x500] :=
    ⟨_, _, rfl, rfl⟩
  let action : SessionMove Unit Unit :=
    .event (.int3 atTrap atTrapCalls) ⟨.switch, ORIGIN_IDX, some false⟩
  let tr := sessionRun ++ [(action, (vm.respond vcpu0 ⟨.switch, ORIGIN_IDX, some false⟩, user))]
  have hrun : IsRun (SessionStep (· < 0x500) noAnswer) sessionStart tr :=
    ⟨sessionRun_run.1, sessionRun_run.2.1, ⟨rfl, vm, user, hok, rfl⟩, trivial⟩
  have hvisit : ∀ i, (atTrapCalls.visit i).Succeed (· < 0x500) := fun _ =>
    ⟨⟨0x600, InjectCalls.succeeding_succeed (by decide)⟩, RemoveCalls.succeeding_succeed,
      (by decide : 0x1008 >>> 12 < 0x500)⟩
  obtain ⟨hstart, hone, htwo⟩ := sessionRun_honest
  obtain ⟨hinject, hexecute, -⟩ := sessionRun_answered
  obtain ⟨tr', hrun', hshown, -⟩ := session_transparent sessionStart_started hrun
    ⟨hstart, hone, htwo, honest_of_one hreserved⟩
    ⟨hinject, hexecute, ⟨rfl, (by decide : 0x1005 >>> 12 < 0x500), hvisit⟩, trivial⟩
  exact ⟨tr', hrun', hshown⟩

/-! ### Progress of the guest -/

section Hooks

variable [DecidableEq κ] [DecidableEq ε] {G : Nat → Prop}

end Hooks

end Hfm

import Hfm.Inject

/-!
# Event handlers

`_int3_cb`, `_pre_mem_cb`, `_post_mem_cb` and `_singlestep_cb` of `src/hfm.c`, with what
LibVMI does on their response.
-/

namespace Hfm

open Support

structure InterruptEvent where
  vcpuId : Fin 16
  gfn : Nat
  offset : Nat
  insnLength : Nat
  regs : X86Registers

def InterruptEvent.pa (event : InterruptEvent) : Nat :=
  event.gfn <<< PAGE_OFFSET_BITS + event.offset + event.insnLength - 1

/-- The first of the vCPUs. -/
def vcpu0 : Fin 16 := 0

structure MemEvent where
  vcpuId : Fin 16
  gfn : Nat
  outAccess : UInt8

/-- The bits of an `event_response_t` that the handlers set. -/
structure EventResponse where
  toggleSinglestep : Bool
  vmmPagetableId : Bool
  deriving DecidableEq

def EventResponse.none : EventResponse := ⟨false, false⟩

/-- `VMI_EVENT_RESPONSE_TOGGLE_SINGLESTEP | VMI_EVENT_RESPONSE_VMM_PAGETABLE_ID`. -/
def EventResponse.switch : EventResponse := ⟨true, true⟩

/-- What a handler leaves in the event: its response, the view to switch to, and for an
interrupt whether it is handed on to the guest, if the handler said so. -/
structure Handled where
  rsp : EventResponse
  slatId : UInt16
  reinject : Option Bool

/-- The callbacks behind the pointers in a trap. They see the handler, the trap and the
event; they keep `process_base` of the context and a state of their own. -/
abbrev Callbacks (κ ε σ : Type) :=
  κ → Vm κ ε → Trap κ ε → InterruptEvent → UInt64 × σ → Option ε × (UInt64 × σ)

/-- What the link of a list node reads as after the node was released: as before, as NULL,
or as something else. -/
inductive FreedLink
  | kept
  | cleared
  | overwritten
  deriving DecidableEq

/-- The answers while one trap is visited. `ret` is what the local variable holds if no
return address is read into it; a failed lookup answers 0. -/
structure VisitCalls where
  readAddr : Option Nat
  ret : Nat
  pagetableLookup : Nat → Nat
  inject : InjectCalls
  remove : RemoveCalls
  freedLink : FreedLink

structure Int3Calls where
  read8 : Bool
  visit : Nat → VisitCalls

variable {κ ε σ : Type}

/-! ### Breakpoints -/

/-- The trap that catches the return of a call, with the data its entry callback left. -/
def returnTrap (vm : Vm κ ε) (calls : VisitCalls) (trap : Trap κ ε) (extra : ε) : Trap κ ε where
  addr := vm.brk
  name := trap.name ++ cstr "_return"
  cb := trap.retCb
  retCb := none
  pa := calls.pagetableLookup (calls.readAddr.getD calls.ret)
  selfDestroy := true
  extra := some extra

/-- The status of the injection is dropped by the caller. -/
def plantReturn (vm : Vm κ ε) (calls : VisitCalls) (trap : Trap κ ε) (extra : ε) :
    Except Fault (HfmStatus × Vm κ ε) :=
  injectTrap { vm with brk := vm.brk + 1 } calls.inject (returnTrap vm calls trap extra)

/-- The first half of a visit. The trap returned is the return trap, if it was registered. -/
def callTrap (cbs : Callbacks κ ε σ) (event : InterruptEvent) (calls : VisitCalls)
    (trap : Trap κ ε) (vm : Vm κ ε) (s : UInt64 × σ) :
    Except Fault (Vm κ ε × (UInt64 × σ) × Option (Trap κ ε)) :=
  match trap.cb with
  | none => .ok (vm, s, none)
  | some cb =>
    let (extra, s) := cbs cb vm trap event s
    match extra, trap.retCb with
    | some extra, some _ => do
      let (status, vm') ← plantReturn vm calls trap extra
      return (vm', s, if status = .success then some (returnTrap vm calls trap extra) else none)
    | _, _ => .ok (vm, s, none)

section Breakpoints

variable [DecidableEq κ] [DecidableEq ε]

/-- The body of the loop of `_int3_cb`. -/
def visitTrap (cbs : Callbacks κ ε σ) (event : InterruptEvent) (calls : VisitCalls)
    (trap : Trap κ ε) (vm : Vm κ ε) (s : UInt64 × σ) :
    Except Fault (Vm κ ε × (UInt64 × σ) × Option (Trap κ ε)) := do
  let (vm, s, planted) ← callTrap cbs event calls trap vm s
  let vm ← if trap.selfDestroy then destroyTrap vm calls.remove trap else .ok vm
  return (vm, s, planted)

/-- `loop = loop->next`, which reads the node also where the removal has just released it.
A link that then is neither the old one nor NULL leads outside of the lists. -/
def nextTrap (nodes : NodeHeap (Trap κ ε)) (loop : Nat) (freedLink : FreedLink) :
    Except Fault (Option Nat) :=
  match nodes.node loop, freedLink with
  | some ⟨_, next, true⟩, _ => .ok next
  | some ⟨_, next, false⟩, .kept => .ok next
  | some ⟨_, _, false⟩, .cleared => .ok none
  | _, _ => .error .useAfterFree

/-- The loop of `_int3_cb`. -/
def int3Loop (cbs : Callbacks κ ε σ) (event : InterruptEvent) :
    Nat → Option Nat → (Nat → VisitCalls) → Vm κ ε → UInt64 × σ →
      Except Fault (Vm κ ε × (UInt64 × σ))
  | 0, _, _, _, _ => .error .diverges
  | _ + 1, none, _, vm, s => .ok (vm, s)
  | fuel + 1, some loop, calls, vm, s =>
    match vm.tm.nodes.node loop with
    | some ⟨trap, _, true⟩ => do
      let (vm, s, _) ← visitTrap cbs event (calls 0) trap vm s
      let next ← nextTrap vm.tm.nodes loop (calls 0).freedLink
      int3Loop cbs event fuel next (fun i => calls (i + 1)) vm s
    | _ => .error .useAfterFree

/-- Points the step event of a vCPU to another handler and its data. -/
def Vm.setStep (vm : Vm κ ε) (vcpuId : Fin 16) (event : StepEvent) : Vm κ ε :=
  { vm with hdlr := { vm.hdlr with stepEvent := Function.update vm.hdlr.stepEvent vcpuId event } }

/-- Every visited trap was in the list at first or is the return trap of one that was. -/
def int3Fuel (vm : Vm κ ε) : Nat := 2 * vm.tm.nodes.fresh + 1

def int3Cb (cbs : Callbacks κ ε σ) (event : InterruptEvent) (calls : Int3Calls) (vm : Vm κ ε)
    (s : σ) : Except Fault (Handled × Vm κ ε × σ) :=
  let view := (vm.machine.vcpu event.vcpuId).slatId
  match tmInt3trapsAtPa vm.tm event.pa with
  | none =>
    if !calls.read8 then .ok (⟨.none, view, none⟩, vm.interrupt, s)
    else .ok (⟨.none, view, some (vm.machine.mem event.pa = INT3_CHAR)⟩, vm, s)
  | some int3traps => do
    let doubletrap ← tmCheckDoubletrap vm.tm event.pa
    let (vm, s) ← int3Loop cbs event (int3Fuel vm) (some int3traps) calls.visit vm (0, s)
    let vm := vm.setStep event.vcpuId ⟨.singlestepCb, .handler⟩
    return (⟨.switch, ORIGIN_IDX, some (doubletrap ≠ 0)⟩, vm, s.2)

end Breakpoints

/-! ### Memory accesses and single steps -/

/-- The pass record is zeroed; the assignment of its `traps` is commented out in the
source, so that the record never has any. -/
def newPass (tm : Trapmngr κ ε) (event : MemEvent) : MemcbPass :=
  let pass : MemcbPass := { remapped := none, access := event.outAccess, traps := none }
  if event.outAccess &&& VMI_MEMACCESS_W ≠ 0 then
    if pass.traps.isSome then { pass with remapped := tmFindRemapped tm event.gfn } else pass
  else pass

def preMemCb (event : MemEvent) (vm : Vm κ ε) : Handled × Vm κ ε :=
  match tmFindMemtrap vm.tm event.gfn with
  | none => (⟨.none, (vm.machine.vcpu event.vcpuId).slatId, none⟩, vm)
  | some _ =>
    let pass := newPass vm.tm event
    let vm := { vm with passes := Function.update vm.passes vm.brk (some pass), brk := vm.brk + 1 }
    (⟨.switch, ORIGIN_IDX, none⟩, vm.setStep event.vcpuId ⟨.postMemCb, .pass (vm.brk - 1)⟩)

/-- The answers while the page is copied again; the last two are by trap. -/
structure RecopyCalls where
  readPa : Bool
  writePa : Bool
  read8 : Nat → Bool
  write8 : Nat → Bool

/-- `*(uint64_t *)trap`: the first bytes of a trap are those of its name. -/
def firstWord (trap : Trap κ ε) : Nat :=
  (List.range 8).foldr (fun i n => 256 * n + (trap.name.getD i 0).toNat) 0

/-- The loop of `_post_mem_cb`; false is an early return. -/
def reapplyTraps (calls : RecopyCalls) (r : Nat) :
    Nat → List (Trap κ ε) → Vm κ ε → Except Fault (Bool × Vm κ ε)
  | _, [], vm => .ok (true, vm)
  | i, trap :: traps, vm =>
    let pa := firstWord trap
    if !calls.read8 i then .ok (false, vm.interrupt)
    else if vm.machine.mem pa = INT3_CHAR then do
      let tm ← tmSetDoubletrap vm.tm pa 1
      reapplyTraps calls r (i + 1) traps (vm.setTm tm)
    else do
      let tm ← tmSetDoubletrap vm.tm pa 0
      let vm := vm.setTm tm
      if !calls.write8 i then .ok (false, vm.interrupt)
      else
        let m := vm.machine.write8 (r <<< PAGE_OFFSET_BITS + pa % PAGESIZE) INT3_CHAR
        reapplyTraps calls r (i + 1) traps (vm.setMachine m)

/-- Copies the written page to its shadow page and applies the traps again. -/
def recopy (calls : RecopyCalls) (pass : MemcbPass) (vm : Vm κ ε) : Except Fault (Bool × Vm κ ε) :=
  match pass.traps, pass.remapped with
  | none, _ => .ok (true, vm)
  | some _, none => .error .nullPointer
  | some traps, some remapped =>
    if !calls.readPa || !calls.writePa then .ok (false, vm.interrupt)
    else
      let buff := fun i => vm.machine.mem (remapped.o <<< PAGE_OFFSET_BITS + i)
      let m := vm.machine.write (remapped.r <<< PAGE_OFFSET_BITS) buff PAGESIZE
      reapplyTraps calls remapped.r 0 (vm.tm.traps (some traps)) (vm.setMachine m)

def postMemCb (vcpuId : Fin 16) (data : StepData) (calls : RecopyCalls) (vm : Vm κ ε) :
    Except Fault (Handled × Vm κ ε) :=
  match data with
  | .handler => .error .badCast
  | .pass addr =>
    match vm.passes addr with
    | none => .error .useAfterFree
    | some pass => do
      let (done, vm) ← recopy calls pass vm
      if !done then return (⟨.none, (vm.machine.vcpu vcpuId).slatId, none⟩, vm)
      else
        let vm := { vm with passes := Function.update vm.passes addr none, freed := addr :: vm.freed }
        return (⟨.switch, vm.hdlr.altp2mIdx, none⟩, vm.setStep vcpuId ⟨.singlestepCb, .handler⟩)

def singlestepCb (data : StepData) (vm : Vm κ ε) : Except Fault (Handled × Vm κ ε) :=
  match data with
  | .pass _ => .error .badCast
  | .handler => .ok (⟨.switch, vm.hdlr.altp2mIdx, none⟩, vm)

/-- The single-step event of a vCPU goes to the handler its step event holds. -/
def stepCb (vcpuId : Fin 16) (calls : RecopyCalls) (vm : Vm κ ε) :
    Except Fault (Handled × Vm κ ε) :=
  let event := vm.hdlr.stepEvent vcpuId
  match event.callback with
  | .singlestepCb => singlestepCb event.data vm
  | .postMemCb => postMemCb vcpuId event.data calls vm

lemma newPass_traps (tm : Trapmngr κ ε) (event : MemEvent) : (newPass tm event).traps = none := by
  unfold newPass
  by_cases hw : event.outAccess &&& VMI_MEMACCESS_W ≠ 0
  · simp [hw]
  · simp [hw]

/-- The handler after a pass record was allocated for the next step. -/
def Vm.beginPass (vm : Vm κ ε) (vcpuId : Fin 16) (pass : MemcbPass) : Vm κ ε :=
  let vm' := { vm with passes := Function.update vm.passes vm.brk (some pass), brk := vm.brk + 1 }
  vm'.setStep vcpuId ⟨.postMemCb, .pass vm.brk⟩

/-- The handler after a pass record was released. -/
def Vm.releasePass (vm : Vm κ ε) (vcpuId : Fin 16) (addr : Nat) : Vm κ ε :=
  let vm' := { vm with passes := Function.update vm.passes addr none, freed := addr :: vm.freed }
  vm'.setStep vcpuId ⟨.singlestepCb, .handler⟩

lemma preMemCb_of_memtrap {vm : Vm κ ε} {event : MemEvent}
    (h : (tmFindMemtrap vm.tm event.gfn).isSome = true) :
    preMemCb event vm =
      (⟨.switch, ORIGIN_IDX, none⟩, vm.beginPass event.vcpuId (newPass vm.tm event)) := by
  obtain ⟨w, hw⟩ := Option.isSome_iff_exists.mp h
  unfold preMemCb
  rw [hw]
  rfl

/-- A record without traps is released, and nothing is copied. -/
lemma postMemCb_of_traps_none {vm : Vm κ ε} {addr : Nat} {pass : MemcbPass}
    (hpass : vm.passes addr = some pass) (htraps : pass.traps = none) (vcpuId : Fin 16)
    (calls : RecopyCalls) : postMemCb vcpuId (.pass addr) calls vm =
      .ok (⟨.switch, vm.hdlr.altp2mIdx, none⟩, vm.releasePass vcpuId addr) := by
  have hcopy : recopy calls pass vm = .ok (true, vm) := by
    unfold recopy
    rw [htraps]
  unfold postMemCb
  simp only [hpass, hcopy]
  rfl

/-! ### Responses -/

/-- LibVMI switches the view of the vCPU, and its single stepping, as the response says. -/
def Machine.respond (m : Machine) (vcpuId : Fin 16) (handled : Handled) : Machine :=
  let vcpu := m.vcpu vcpuId
  let vcpu : Vcpu :=
    { slatId := if handled.rsp.vmmPagetableId then handled.slatId else vcpu.slatId
      singlestep := vcpu.singlestep ^^ handled.rsp.toggleSinglestep }
  { m with vcpu := Function.update m.vcpu vcpuId vcpu }

def Vm.respond (vm : Vm κ ε) (vcpuId : Fin 16) (handled : Handled) : Vm κ ε :=
  vm.setMachine (vm.machine.respond vcpuId handled)

end Hfm

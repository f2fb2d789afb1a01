import Hfm.Vmhdlr

/-!
# Injecting and removing breakpoints

`_inject_trap`, `_create_shadow_page` and `_remove_int3` of `src/hfm.c`, with
`xen_alloc_shadow_frame` of `src/xen_helper.c`. Each function is given the answers of the
calls it makes to LibVMI and Xen.
-/

namespace Hfm

/-- The answers while a shadow page is created. The two counts are of bytes moved. -/
structure ShadowCalls where
  setmaxmem : Bool
  increaseReservation : Option Nat
  populatePhysmap : Bool
  changeGfn : Bool
  readPa : Nat
  writePa : Nat

structure InjectCalls where
  shadow : ShadowCalls
  setMemEvent : Bool
  read8 : Bool
  write8 : Bool

/-- `backup` is what the local variable holds if nothing is read into it. -/
structure RemoveCalls where
  read8 : Bool
  backup : UInt8
  write8 : Bool

variable {κ ε : Type}

def xenAllocShadowFrame (m : Machine) (calls : ShadowCalls) (proposedMemsize : UInt64) :
    Nat × Machine :=
  if !calls.setmaxmem then (0, m)
  else
    let m := { m with maxmem := proposedMemsize }
    match calls.increaseReservation with
    | none => (0, m)
    | some gfn =>
      let m := { m with reserved := gfn :: m.reserved }
      if !calls.populatePhysmap then (0, m) else (gfn, m)

def createShadowPage (vm : Vm κ ε) (calls : ShadowCalls) (frame : Nat) : Nat × Vm κ ε :=
  let proposedMemsize := vm.hdlr.memsize + 4096
  let (remapped, m) := xenAllocShadowFrame vm.machine calls proposedMemsize.toUInt64
  let vm := vm.setMachine m
  if remapped = 0 then (0, vm)
  else
    let vm := { vm with hdlr := { vm.hdlr with memsize := proposedMemsize } }
    if !calls.changeGfn then (0, vm)
    else
      let m := { m with slat := Function.update m.slat frame remapped }
      let vm := vm.setMachine m
      if calls.readPa ≠ PAGESIZE then (0, vm)
      else
        let buff := fun i => m.mem (frame <<< PAGE_OFFSET_BITS + i)
        let m := m.write (remapped <<< PAGE_OFFSET_BITS) buff (min calls.writePa PAGESIZE)
        let vm := vm.setMachine m
        if calls.writePa ≠ PAGESIZE then (0, vm) else (remapped, vm)

/-- `remapped->r` for the frame of the trap; a shadow page that could not be created has the
frame number 0, and no entry. -/
def shadowOf (vm : Vm κ ε) (calls : InjectCalls) (frame : Nat) : Nat × Vm κ ε :=
  match tmFindRemapped vm.tm frame with
  | some remapped => (remapped.r, vm)
  | none =>
    let (r, vm) := createShadowPage vm calls.shadow frame
    (r, if r ≠ 0 then vm.setTm (tmAddRemapped vm.tm ⟨frame, r⟩) else vm)

def protectFrame (vm : Vm κ ε) (calls : InjectCalls) (frame : Nat) : Vm κ ε :=
  let vm :=
    match tmFindMemtrap vm.tm frame with
    | some _ => vm
    | none => vm.setTm (tmAddMemtrap vm.tm frame ⟨⟩)
  if calls.setMemEvent then
    vm.setMachine { vm.machine with memEvent := Function.update vm.machine.memEvent frame true }
  else vm

/-- The part of `_inject_trap` for the first trap at an address. The result is the local
`doubletrap`, or nothing where the code jumps to `done`. -/
def setInt3 (vm : Vm κ ε) (calls : InjectCalls) (pa : Nat) : Option UInt8 × Vm κ ε :=
  let frame := pa >>> PAGE_OFFSET_BITS
  let (r, vm) := shadowOf vm calls frame
  let vm := protectFrame vm calls frame
  let rpa := r <<< PAGE_OFFSET_BITS + pa % PAGESIZE
  if !calls.read8 then (none, vm)
  else if vm.machine.mem pa = INT3_CHAR then (some 1, vm)
  else if !calls.write8 then (none, vm)
  else (some 0, vm.setMachine (vm.machine.write8 rpa INT3_CHAR))

def injectTrap (vm : Vm κ ε) (calls : InjectCalls) (trap : Trap κ ε) :
    Except Fault (HfmStatus × Vm κ ε) :=
  if tmTrapExist vm.tm trap.pa then
    .ok (.success, vm.setTm (tmAddInt3trap vm.tm trap))
  else
    match setInt3 vm calls trap.pa with
    | (none, vm) => .ok (.fail, vm)
    | (some doubletrap, vm) => do
      let tm ← tmSetDoubletrap (tmAddInt3trap vm.tm trap) trap.pa doubletrap
      return (.success, vm.setTm tm)

/-- Both failures are only noted; the entry of the frame is used without a check. -/
def removeInt3 (vm : Vm κ ε) (calls : RemoveCalls) (pa : Nat) : Except Fault (Vm κ ε) :=
  let backup := if calls.read8 then vm.machine.mem pa else calls.backup
  let vm := if calls.read8 then vm else vm.interrupt
  match tmFindRemapped vm.tm (pa >>> PAGE_OFFSET_BITS) with
  | none => .error .nullPointer
  | some remapped =>
    if calls.write8 then
      .ok (vm.setMachine
        (vm.machine.write8 (remapped.r <<< PAGE_OFFSET_BITS + pa % PAGESIZE) backup))
    else .ok vm.interrupt

section Destroy

variable [DecidableEq κ] [DecidableEq ε]

/-- What `_int3_cb` does with a trap marked `self_destroy`. -/
def destroyTrap (vm : Vm κ ε) (calls : RemoveCalls) (trap : Trap κ ε) : Except Fault (Vm κ ε) :=
  let (trapRemains, tm) := tmRemoveInt3trap vm.tm trap
  let vm := vm.setTm tm
  if trapRemains = 0 then removeInt3 vm calls trap.pa else .ok vm

end Destroy

/-! ### What injecting leaves alone -/

/-- Only the trap manager, the size of the memory, the interrupted flag and the state of
the machine other than its vCPUs may differ. -/
structure Aside (vm vm' : Vm κ ε) : Prop where
  hdlr : vm'.hdlr = { vm.hdlr with
    trapManager := vm'.hdlr.trapManager
    memsize := vm'.hdlr.memsize
    interrupted := vm'.hdlr.interrupted }
  vcpu : vm'.machine.vcpu = vm.machine.vcpu
  passes : vm'.passes = vm.passes
  freed : vm'.freed = vm.freed
  brk : vm.brk ≤ vm'.brk

lemma Aside.refl (vm : Vm κ ε) : Aside vm vm := ⟨rfl, rfl, rfl, rfl, Nat.le_refl _⟩

lemma Aside.trans {vm₁ vm₂ vm₃ : Vm κ ε} (h : Aside vm₁ vm₂) (h' : Aside vm₂ vm₃) :
    Aside vm₁ vm₃ := by
  refine ⟨?_, h'.vcpu.trans h.vcpu, h'.passes.trans h.passes, h'.freed.trans h.freed,
    Nat.le_trans h.brk h'.brk⟩
  rw [h'.hdlr, h.hdlr]

lemma aside_setTm (vm : Vm κ ε) (tm : Trapmngr κ ε) : Aside vm (vm.setTm tm) :=
  ⟨rfl, rfl, rfl, rfl, Nat.le_refl _⟩

lemma aside_setMachine (vm : Vm κ ε) {m : Machine} (h : m.vcpu = vm.machine.vcpu) :
    Aside vm (vm.setMachine m) := ⟨rfl, h, rfl, rfl, Nat.le_refl _⟩

lemma aside_interrupt (vm : Vm κ ε) : Aside vm vm.interrupt :=
  ⟨rfl, rfl, rfl, rfl, Nat.le_refl _⟩

/-- The breakpoint tables agree, and every frame with a shadow page keeps it. -/
structure SameTraps (tm tm' : Trapmngr κ ε) : Prop where
  nodes : tm'.nodes = tm.nodes
  breakpointTbl : tm'.breakpointTbl = tm.breakpointTbl
  breakpointGfnTbl : tm'.breakpointGfnTbl = tm.breakpointGfnTbl
  remapped : ∀ g rm, tmFindRemapped tm g = some rm → tmFindRemapped tm' g = some rm

lemma SameTraps.refl (tm : Trapmngr κ ε) : SameTraps tm tm := ⟨rfl, rfl, rfl, fun _ _ h => h⟩

lemma SameTraps.trans {tm₁ tm₂ tm₃ : Trapmngr κ ε} (h : SameTraps tm₁ tm₂)
    (h' : SameTraps tm₂ tm₃) : SameTraps tm₁ tm₃ :=
  ⟨h'.nodes.trans h.nodes, h'.breakpointTbl.trans h.breakpointTbl,
    h'.breakpointGfnTbl.trans h.breakpointGfnTbl,
    fun g rm hg => h'.remapped g rm (h.remapped g rm hg)⟩

lemma SameTraps.trapExist {tm tm' : Trapmngr κ ε} (h : SameTraps tm tm') :
    tmTrapExist tm' = tmTrapExist tm := by
  unfold tmTrapExist
  rw [h.breakpointTbl]

lemma SameTraps.checkDoubletrap {tm tm' : Trapmngr κ ε} (h : SameTraps tm tm') :
    tmCheckDoubletrap tm' = tmCheckDoubletrap tm := by
  unfold tmCheckDoubletrap
  rw [h.breakpointTbl]

lemma SameTraps.head {tm tm' : Trapmngr κ ε} (h : SameTraps tm tm') : tm'.head = tm.head := by
  funext k
  cases k with
  | inl pa =>
    simp only [Trapmngr.head, tmInt3trapsAtPa]
    rw [h.breakpointTbl]
  | inr gfn =>
    simp only [Trapmngr.head, tmInt3trapsAtGfn]
    rw [h.breakpointGfnTbl]

lemma SameTraps.indexed {tm tm' : Trapmngr κ ε} (h : SameTraps tm tm') {reg : List (Trap κ ε)}
    {cells : Nat ⊕ Nat → List (Nat × Trap κ ε)} (hreg : IndexedBy tm reg cells) :
    IndexedBy tm' reg cells := by
  apply hreg.congr
  · exact h.nodes
  · exact h.head
  · intro pa
    rw [h.trapExist]

lemma tmFindRemapped_addRemapped (tm : Trapmngr κ ε) (r : Remapped) (g : Nat) :
    tmFindRemapped (tmAddRemapped tm r) g = if g = r.o then some r else tmFindRemapped tm g := by
  unfold tmFindRemapped tmAddRemapped
  by_cases hg : g = r.o
  · subst hg
    simp
  · simp [AList.lookup_insert_ne hg, hg]

lemma sameTraps_addRemapped {tm : Trapmngr κ ε} {r : Remapped}
    (h : tmFindRemapped tm r.o = none) : SameTraps tm (tmAddRemapped tm r) := by
  refine ⟨rfl, rfl, rfl, fun g rm hg => ?_⟩
  rw [tmFindRemapped_addRemapped, if_neg, hg]
  rintro rfl
  rw [h] at hg
  cases hg

lemma xenAllocShadowFrame_machine (m : Machine) (calls : ShadowCalls) (proposedMemsize : UInt64) :
    let m' := (xenAllocShadowFrame m calls proposedMemsize).2
    m'.mem = m.mem ∧ m'.slat = m.slat ∧ m'.memEvent = m.memEvent ∧ m'.vcpu = m.vcpu := by
  unfold xenAllocShadowFrame
  split
  · exact ⟨rfl, rfl, rfl, rfl⟩
  · split
    · exact ⟨rfl, rfl, rfl, rfl⟩
    · split
      · exact ⟨rfl, rfl, rfl, rfl⟩
      · exact ⟨rfl, rfl, rfl, rfl⟩

lemma aside_memsize (vm : Vm κ ε) (memsize : UInt32) :
    Aside vm { vm with hdlr := { vm.hdlr with memsize } } :=
  ⟨rfl, rfl, rfl, rfl, Nat.le_refl _⟩

lemma createShadowPage_aside (vm : Vm κ ε) (calls : ShadowCalls) (frame : Nat) :
    Aside vm (createShadowPage vm calls frame).2 ∧ (createShadowPage vm calls frame).2.tm = vm.tm := by
  unfold createShadowPage
  dsimp only
  generalize vm.hdlr.memsize + 4096 = proposedMemsize
  have hvcpu := (xenAllocShadowFrame_machine vm.machine calls proposedMemsize.toUInt64).2.2.2
  generalize xenAllocShadowFrame vm.machine calls proposedMemsize.toUInt64 = alloc at hvcpu ⊢
  have halloc : Aside vm (vm.setMachine alloc.2) := aside_setMachine vm hvcpu
  have hmem := halloc.trans (aside_memsize _ proposedMemsize)
  split
  · exact ⟨halloc, rfl⟩
  · split
    · exact ⟨hmem, rfl⟩
    · split
      · exact ⟨hmem.trans (aside_setMachine _ rfl), rfl⟩
      · split
        · exact ⟨hmem.trans (aside_setMachine _ (Machine.write_vcpu _ _ _ _)), rfl⟩
        · exact ⟨hmem.trans (aside_setMachine _ (Machine.write_vcpu _ _ _ _)), rfl⟩

lemma shadowOf_aside (vm : Vm κ ε) (calls : InjectCalls) (frame : Nat) :
    Aside vm (shadowOf vm calls frame).2 ∧ SameTraps vm.tm (shadowOf vm calls frame).2.tm := by
  unfold shadowOf
  split
  · exact ⟨Aside.refl vm, SameTraps.refl vm.tm⟩
  · rename_i hnone
    obtain ⟨haside, htm⟩ := createShadowPage_aside vm calls.shadow frame
    dsimp only
    split
    · refine ⟨haside.trans (aside_setTm _ _), ?_⟩
      rw [Vm.setTm_tm, htm]
      exact sameTraps_addRemapped hnone
    · rw [htm]
      exact ⟨haside, SameTraps.refl vm.tm⟩

lemma protectFrame_aside (vm : Vm κ ε) (calls : InjectCalls) (frame : Nat) :
    Aside vm (protectFrame vm calls frame) ∧ SameTraps vm.tm (protectFrame vm calls frame).tm := by
  unfold protectFrame
  cases tmFindMemtrap vm.tm frame with
  | some memw =>
    dsimp only
    split
    · exact ⟨aside_setMachine vm rfl, SameTraps.refl vm.tm⟩
    · exact ⟨Aside.refl vm, SameTraps.refl vm.tm⟩
  | none =>
    have htm := aside_setTm vm (tmAddMemtrap vm.tm frame ⟨⟩)
    have htraps : SameTraps vm.tm (tmAddMemtrap vm.tm frame ⟨⟩) := ⟨rfl, rfl, rfl, fun _ _ h => h⟩
    dsimp only
    split
    · exact ⟨htm.trans (aside_setMachine _ rfl), htraps⟩
    · exact ⟨htm, htraps⟩

lemma setInt3_aside (vm : Vm κ ε) (calls : InjectCalls) (pa : Nat) :
    Aside vm (setInt3 vm calls pa).2 ∧ SameTraps vm.tm (setInt3 vm calls pa).2.tm := by
  obtain ⟨h₁, ht₁⟩ := shadowOf_aside vm calls (pa >>> PAGE_OFFSET_BITS)
  obtain ⟨h₂, ht₂⟩ := protectFrame_aside (shadowOf vm calls (pa >>> PAGE_OFFSET_BITS)).2 calls
    (pa >>> PAGE_OFFSET_BITS)
  have h := h₁.trans h₂
  have ht := ht₁.trans ht₂
  unfold setInt3
  dsimp only
  split
  · exact ⟨h, ht⟩
  · split
    · exact ⟨h, ht⟩
    · split
      · exact ⟨h, ht⟩
      · exact ⟨h.trans (aside_setMachine _ rfl), ht⟩

/-! ### What injecting registers -/

/-- Injecting never faults; it registers the trap exactly if it reports success. -/
theorem injectTrap_spec (vm : Vm κ ε) (calls : InjectCalls) (trap : Trap κ ε) :
    ∃ status vm', injectTrap vm calls trap = .ok (status, vm') ∧ Aside vm vm' ∧
      (∀ g rm, tmFindRemapped vm.tm g = some rm → tmFindRemapped vm'.tm g = some rm) ∧
      ∀ reg cells, IndexedBy vm.tm reg cells → if status = .success
        then IndexedBy vm'.tm (reg ++ [trap]) (addCells vm.tm.nodes.fresh cells trap)
        else IndexedBy vm'.tm reg cells := by
  unfold injectTrap
  split
  · refine ⟨_, _, rfl, aside_setTm _ _, ?_, fun reg cells hreg => hreg.add trap⟩
    intro g rm hg
    rw [Vm.setTm_tm, tmFindRemapped_add]
    exact hg
  · obtain ⟨haside, htraps⟩ := setInt3_aside vm calls trap.pa
    split
    · rename_i vm' heq
      rw [heq] at haside htraps
      exact ⟨_, _, rfl, haside, htraps.remapped, fun reg cells hreg => htraps.indexed hreg⟩
    · rename_i doubletrap vm' heq
      rw [heq] at haside htraps
      have hex : tmTrapExist (tmAddInt3trap vm'.tm trap) trap.pa = true := by simp
      rw [tmSetDoubletrap_eq hex]
      refine ⟨_, _, rfl, haside.trans (aside_setTm _ _), ?_, fun reg cells hreg => ?_⟩
      · intro g rm hg
        have := htraps.remapped g rm hg
        rw [← tmFindRemapped_add vm'.tm trap] at this
        exact this
      · rw [← htraps.nodes]
        exact ((htraps.indexed hreg).add trap).withDoubletrap hex doubletrap

/-! ### What removing leaves alone -/

/-- A removal on a page with a shadow page completes, whatever its calls answer. -/
lemma removeInt3_some (vm : Vm κ ε) (calls : RemoveCalls) {pa : Nat} {rm : Remapped}
    (h : tmFindRemapped vm.tm (pa >>> PAGE_OFFSET_BITS) = some rm) :
    ∃ vm', removeInt3 vm calls pa = .ok vm' ∧ Aside vm vm' ∧ vm'.tm = vm.tm := by
  have hread : Aside vm (if calls.read8 then vm else vm.interrupt) ∧
      (if calls.read8 then vm else vm.interrupt).tm = vm.tm := by
    split
    · exact ⟨Aside.refl vm, rfl⟩
    · exact ⟨aside_interrupt vm, rfl⟩
  unfold removeInt3
  dsimp only
  generalize (if calls.read8 = true then vm else vm.interrupt) = vm₁ at hread ⊢
  rw [hread.2, h]
  dsimp only
  split
  · exact ⟨_, rfl, hread.1.trans (aside_setMachine vm₁ rfl), hread.2⟩
  · exact ⟨_, rfl, hread.1.trans (aside_interrupt vm₁), hread.2⟩

lemma removeInt3_none (vm : Vm κ ε) (calls : RemoveCalls) {pa : Nat}
    (h : tmFindRemapped vm.tm (pa >>> PAGE_OFFSET_BITS) = none) :
    removeInt3 vm calls pa = .error .nullPointer := by
  unfold removeInt3
  dsimp only
  have htm : (if calls.read8 then vm else vm.interrupt).tm = vm.tm := by
    split
    · rfl
    · rfl
  rw [htm, h]

section Destroy

variable [DecidableEq κ] [DecidableEq ε]

/-- Destroying a trap completes, or stops at the missing shadow page of its frame. -/
theorem destroyTrap_spec (vm : Vm κ ε) (calls : RemoveCalls) (trap : Trap κ ε) :
    (∃ vm', destroyTrap vm calls trap = .ok vm' ∧ Aside vm vm' ∧
      vm'.tm = (tmRemoveInt3trap vm.tm trap).2) ∨
    (destroyTrap vm calls trap = .error .nullPointer ∧ tmFindRemapped vm.tm trap.gfn = none) := by
  have hfind := tmFindRemapped_remove vm.tm trap
  have haside := aside_setTm vm (tmRemoveInt3trap vm.tm trap).2
  unfold destroyTrap
  dsimp only
  split
  · cases hrm : tmFindRemapped vm.tm trap.gfn with
    | none =>
      right
      refine ⟨removeInt3_none _ calls ?_, rfl⟩
      rw [Vm.setTm_tm, hfind]
      exact hrm
    | some rm =>
      left
      have hrm' : tmFindRemapped (vm.setTm (tmRemoveInt3trap vm.tm trap).2).tm
          (trap.pa >>> PAGE_OFFSET_BITS) = some rm := by
        rw [Vm.setTm_tm, hfind]
        exact hrm
      obtain ⟨vm', hok, haside', htm⟩ := removeInt3_some _ calls hrm'
      exact ⟨vm', hok, haside.trans haside', htm⟩
  · left
    exact ⟨_, rfl, haside, rfl⟩

end Destroy

end Hfm

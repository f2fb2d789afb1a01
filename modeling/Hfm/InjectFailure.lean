import Hfm.Events
import Hfm.ShadowPages

/-!
# Failures while a trap is installed

What is left behind where a call fails on the way through `_inject_trap`, or through the
part of `_int3_cb` that plants a return trap.
-/

namespace Hfm

variable {κ ε : Type}

/-- Two ways to install a trap: directly, or as the return trap of a visited trap. -/
inductive Attempt (κ ε : Type) where
  | inject (trap : Trap κ ε) (calls : InjectCalls)
  | plantReturn (trap : Trap κ ε) (extra : ε) (calls : VisitCalls)

namespace Attempt

def run (vm : Vm κ ε) : Attempt κ ε → Except Fault (HfmStatus × Vm κ ε)
  | inject trap calls => injectTrap vm calls trap
  | plantReturn trap extra calls => Hfm.plantReturn vm calls trap extra

def calls : Attempt κ ε → InjectCalls
  | inject _ calls => calls
  | plantReturn _ _ calls => calls.inject

/-- The address the trap is put at. -/
def pa : Attempt κ ε → Nat
  | inject trap _ => trap.pa
  | plantReturn _ _ calls => calls.pagetableLookup (calls.readAddr.getD calls.ret)

def frame (attempt : Attempt κ ε) : Nat := attempt.pa >>> PAGE_OFFSET_BITS

end Attempt

/-- Every call on the way to a new shadow page succeeds. -/
structure ShadowCalls.Complete (calls : ShadowCalls) : Prop where
  setmaxmem : calls.setmaxmem = true
  increaseReservation : calls.increaseReservation.isSome = true
  populatePhysmap : calls.populatePhysmap = true
  changeGfn : calls.changeGfn = true
  readPa : calls.readPa = PAGESIZE
  writePa : calls.writePa = PAGESIZE

/-- The byte cannot be read, or is no INT3 and the INT3 cannot be written. -/
def ByteFails (vm : Vm κ ε) (calls : InjectCalls) (pa : Nat) : Prop :=
  calls.read8 = false ∨ vm.machine.mem pa ≠ INT3_CHAR ∧ calls.write8 = false

/-- A call made by `_inject_trap` for an address fails. -/
def InjectFails (vm : Vm κ ε) (calls : InjectCalls) (pa : Nat) : Prop :=
  tmTrapExist vm.tm pa = false ∧
    (tmFindRemapped vm.tm (pa >>> PAGE_OFFSET_BITS) = none ∧ ¬ calls.shadow.Complete ∨
      ByteFails vm calls pa)

/-- A call made on the way fails; a lookup that fails answers 0. -/
def Attempt.Fails (vm : Vm κ ε) (attempt : Attempt κ ε) : Prop :=
  InjectFails vm attempt.calls attempt.pa ∨
    match attempt with
    | .inject _ _ => False
    | .plantReturn _ _ calls => calls.readAddr = none ∨
        calls.pagetableLookup (calls.readAddr.getD calls.ret) = 0

/-- Xen hands out a frame that was not in use. -/
structure NewFrame (vm : Vm κ ε) (frame r : Nat) : Prop extends FreshFrame vm frame r where
  notReserved : r ∉ vm.machine.reserved

/-- Failure is reported, and nothing is left behind outside the page's own shadow frame. -/
structure AllOrNothing (vm : Vm κ ε) (pa : Nat) (status : HfmStatus) (vm' : Vm κ ε) : Prop where
  status : status = .fail
  trapExist : tmTrapExist vm'.tm pa = false
  view : ∀ off < PAGESIZE, vm'.machine.view (pageAddr (pa >>> PAGE_OFFSET_BITS) off) =
    vm.machine.view (pageAddr (pa >>> PAGE_OFFSET_BITS) off)
  memsize : vm'.hdlr.memsize = vm.hdlr.memsize
  reserved : ∀ r ∈ vm'.machine.reserved, r ∈ vm.machine.reserved ∨
    ∃ g rm, tmFindRemapped vm'.tm g = some rm ∧ rm.r = r
  mem : ∀ a, vm'.machine.mem a ≠ vm.machine.mem a →
    ∃ rm, tmFindRemapped vm'.tm (pa >>> PAGE_OFFSET_BITS) = some rm ∧
      a >>> PAGE_OFFSET_BITS = rm.r

/-- The page has its shadow page already, or no frame was reserved for one. -/
def NothingReserved (vm : Vm κ ε) (calls : InjectCalls) (frame : Nat) : Prop :=
  (tmFindRemapped vm.tm frame).isSome = true ∨ calls.shadow.setmaxmem = false ∨
    calls.shadow.increaseReservation = none

/-- No trap is at the address, no frame is reserved, and the last call fails. -/
structure FailsClean (vm : Vm κ ε) (calls : InjectCalls) (pa : Nat) : Prop where
  trapExist : tmTrapExist vm.tm pa = false
  reserved : NothingReserved vm calls (pa >>> PAGE_OFFSET_BITS)
  byteFails : ByteFails vm calls pa

/-! ### The shadow page -/

/-- What an attempt for a shadow page changes if no frame is reserved. -/
lemma shadowOf_of_nothingReserved {vm : Vm κ ε} {calls : InjectCalls} {frame : Nat}
    (h : NothingReserved vm calls frame) :
    ∃ maxmem, (shadowOf vm calls frame).2 = vm.setMachine { vm.machine with maxmem } := by
  unfold shadowOf
  cases hrm : tmFindRemapped vm.tm frame with
  | some rm => exact ⟨vm.machine.maxmem, rfl⟩
  | none =>
    unfold createShadowPage xenAllocShadowFrame
    dsimp only
    cases hset : calls.shadow.setmaxmem with
    | false => exact ⟨vm.machine.maxmem, rfl⟩
    | true =>
      have hinc : calls.shadow.increaseReservation = none := by
        simpa [NothingReserved, hrm, hset] using h
      simp only [hinc]
      exact ⟨_, rfl⟩

lemma write_outside (m : Machine) (r : Nat) (buff : Nat → UInt8) {count : Nat}
    (hcount : count ≤ PAGESIZE) {a : Nat} (ha : a >>> PAGE_OFFSET_BITS ≠ r) :
    (m.write (r <<< PAGE_OFFSET_BITS) buff count).mem a = m.mem a := by
  apply if_neg
  simp only [PAGE_OFFSET_BITS, PAGESIZE, Nat.shiftLeft_eq, Nat.shiftRight_eq_div_pow] at *
  omega

lemma xenAllocShadowFrame_fst (m : Machine) (calls : ShadowCalls) (size : UInt64) :
    (xenAllocShadowFrame m calls size).1 = 0 ∨
      ∀ r, calls.increaseReservation = some r → (xenAllocShadowFrame m calls size).1 = r := by
  unfold xenAllocShadowFrame
  split
  · exact .inl rfl
  · split
    · exact .inl rfl
    · rename_i gfn hgfn
      dsimp only
      split
      · exact .inl rfl
      · right
        intro r hr
        rw [hgfn] at hr
        exact Option.some_inj.mp hr

/-- Once a frame is reserved, either it stays in no table or the size of the memory changes. -/
lemma createShadowPage_of_reserved (vm : Vm κ ε) {calls : ShadowCalls} {r : Nat} (frame : Nat)
    (hset : calls.setmaxmem = true) (hinc : calls.increaseReservation = some r) :
    let vm' := (createShadowPage vm calls frame).2
    (vm'.hdlr.memsize = vm.hdlr.memsize + 4096 ∨
      (createShadowPage vm calls frame).1 = 0 ∧ r ∈ vm'.machine.reserved) ∧
      ∀ a, a >>> PAGE_OFFSET_BITS ≠ r → vm'.machine.mem a = vm.machine.mem a := by
  have hreserved : ∀ size, r ∈ (xenAllocShadowFrame vm.machine calls size).2.reserved := by
    intro size
    unfold xenAllocShadowFrame
    cases calls.populatePhysmap <;> simp [hset, hinc]
  unfold createShadowPage
  dsimp only
  generalize vm.hdlr.memsize + 4096 = proposedMemsize
  have hmem := (xenAllocShadowFrame_machine vm.machine calls proposedMemsize.toUInt64).1
  have hfirst := xenAllocShadowFrame_fst vm.machine calls proposedMemsize.toUInt64
  specialize hreserved proposedMemsize.toUInt64
  generalize xenAllocShadowFrame vm.machine calls proposedMemsize.toUInt64 = alloc
    at hmem hreserved hfirst ⊢
  have hkeep : ∀ a, a >>> PAGE_OFFSET_BITS ≠ r → alloc.2.mem a = vm.machine.mem a := by
    intro a _
    rw [hmem]
  split
  · exact ⟨.inr ⟨rfl, hreserved⟩, hkeep⟩
  · rename_i hne
    obtain rfl : alloc.1 = r := hfirst.resolve_left hne r hinc
    split
    · exact ⟨.inl rfl, hkeep⟩
    · split
      · exact ⟨.inl rfl, hkeep⟩
      · have hcount : min calls.writePa PAGESIZE ≤ PAGESIZE := Nat.min_le_right _ _
        have hwrite : ∀ a, a >>> PAGE_OFFSET_BITS ≠ alloc.1 → _ = vm.machine.mem a := fun a ha =>
          (write_outside { alloc.2 with slat := Function.update alloc.2.slat frame alloc.1 } alloc.1
            (fun i => alloc.2.mem (frame <<< PAGE_OFFSET_BITS + i)) hcount ha).trans (hkeep a ha)
        split
        · exact ⟨.inl rfl, hwrite⟩
        · exact ⟨.inl rfl, hwrite⟩

lemma shadowOf_of_reserved {vm : Vm κ ε} {calls : InjectCalls} {frame r : Nat}
    (hnone : tmFindRemapped vm.tm frame = none) (hset : calls.shadow.setmaxmem = true)
    (hinc : calls.shadow.increaseReservation = some r) :
    let vm' := (shadowOf vm calls frame).2
    (vm'.hdlr.memsize = vm.hdlr.memsize + 4096 ∨
      r ∈ vm'.machine.reserved ∧ tmFindRemapped vm'.tm = tmFindRemapped vm.tm) ∧
      ∀ a, a >>> PAGE_OFFSET_BITS ≠ r → vm'.machine.mem a = vm.machine.mem a := by
  have hcreate := createShadowPage_of_reserved vm frame hset hinc
  obtain ⟨-, htm⟩ := createShadowPage_aside vm calls.shadow frame
  unfold shadowOf
  rw [hnone]
  dsimp only at hcreate ⊢
  generalize createShadowPage vm calls.shadow frame = created at hcreate htm ⊢
  obtain ⟨hleft, hmem⟩ := hcreate
  split
  · rename_i hne
    exact ⟨.inl (hleft.resolve_right fun h => hne h.1), hmem⟩
  · rw [htm]
    exact ⟨hleft.imp id fun h => ⟨h.2, rfl⟩, hmem⟩

/-! ### The INT3 -/

/-- Where the byte cannot be set, nothing but the protection of the page changes. -/
lemma setInt3_eq (vm : Vm κ ε) (calls : InjectCalls) (pa : Nat) :
    let vm' := protectFrame (shadowOf vm calls (pa >>> PAGE_OFFSET_BITS)).2 calls
      (pa >>> PAGE_OFFSET_BITS)
    ((setInt3 vm calls pa).1 = none ↔ ByteFails vm' calls pa) ∧
      (ByteFails vm' calls pa → (setInt3 vm calls pa).2 = vm') ∧
      (setInt3 vm calls pa).2.hdlr = vm'.hdlr ∧
      (setInt3 vm calls pa).2.machine.reserved = vm'.machine.reserved := by
  unfold setInt3 ByteFails
  dsimp only
  generalize protectFrame (shadowOf vm calls (pa >>> PAGE_OFFSET_BITS)).2 calls
    (pa >>> PAGE_OFFSET_BITS) = vm'
  cases hread : calls.read8 with
  | false => simp
  | true =>
    by_cases hcc : vm'.machine.mem pa = INT3_CHAR
    · simp [hcc]
    · cases hwrite : calls.write8 with
      | false => simp [hcc]
      | true =>
        simp only [hcc, Bool.not_true, Bool.false_eq_true, if_false]
        exact ⟨by simp, by simp, rfl, rfl⟩

lemma protectFrame_rest (vm : Vm κ ε) (calls : InjectCalls) (frame : Nat) :
    let vm' := protectFrame vm calls frame
    vm'.hdlr.memsize = vm.hdlr.memsize ∧ vm'.machine.reserved = vm.machine.reserved := by
  unfold protectFrame
  cases tmFindMemtrap vm.tm frame <;> dsimp only <;> split <;> exact ⟨rfl, rfl⟩

/-! ### What is left behind -/

section

variable {vm : Vm κ ε} {calls : InjectCalls} {pa : Nat}

/-- The byte of the guest is still the same when it is read. -/
lemma protectFrame_shadowOf_mem (hnew : ∀ r, calls.shadow.increaseReservation = some r →
      NewFrame vm (pa >>> PAGE_OFFSET_BITS) r) :
    (protectFrame (shadowOf vm calls (pa >>> PAGE_OFFSET_BITS)).2 calls
      (pa >>> PAGE_OFFSET_BITS)).machine.mem pa = vm.machine.mem pa := by
  rw [(protectFrame_keeps _ calls _).1]
  by_cases hnothing : NothingReserved vm calls (pa >>> PAGE_OFFSET_BITS)
  · obtain ⟨maxmem, hvm⟩ := shadowOf_of_nothingReserved hnothing
    rw [hvm]
    rfl
  · simp only [NothingReserved, not_or, Bool.not_eq_true, Option.isSome_eq_false_iff,
      Option.isNone_iff_eq_none, Bool.not_eq_false] at hnothing
    obtain ⟨hnone, hset, hinc⟩ := hnothing
    obtain ⟨r, hinc⟩ := Option.ne_none_iff_exists'.mp hinc
    exact (shadowOf_of_reserved hnone hset hinc).2 pa (hnew r hinc).ne.symm

/-- Nothing reserved: only the protection of the page has changed. -/
lemma allOrNothing_of_nothingReserved (hex : tmTrapExist vm.tm pa = false)
    (hnothing : NothingReserved vm calls (pa >>> PAGE_OFFSET_BITS)) :
    AllOrNothing vm pa .fail (protectFrame (shadowOf vm calls (pa >>> PAGE_OFFSET_BITS)).2 calls
      (pa >>> PAGE_OFFSET_BITS)) := by
  obtain ⟨maxmem, hvm⟩ := shadowOf_of_nothingReserved hnothing
  rw [hvm]
  generalize hvm₁ : vm.setMachine { vm.machine with maxmem } = vm₁
  obtain ⟨hmem, hslat, -⟩ := protectFrame_keeps vm₁ calls (pa >>> PAGE_OFFSET_BITS)
  obtain ⟨hmemsize, hreserved⟩ := protectFrame_rest vm₁ calls (pa >>> PAGE_OFFSET_BITS)
  obtain ⟨-, htraps⟩ := protectFrame_aside vm₁ calls (pa >>> PAGE_OFFSET_BITS)
  generalize protectFrame vm₁ calls (pa >>> PAGE_OFFSET_BITS) = vm₂
    at hmem hslat hmemsize hreserved htraps ⊢
  subst hvm₁
  refine ⟨rfl, ?_, ?_, hmemsize, ?_, ?_⟩
  · rw [htraps.trapExist]
    exact hex
  · intro off _
    unfold Machine.view
    rw [hmem, hslat]
    rfl
  · intro r hr
    rw [hreserved] at hr
    exact .inl hr
  · intro a ha
    rw [hmem] at ha
    exact absurd rfl ha

/-- A frame was reserved: it stays unrecorded or the size of the memory has changed. -/
lemma not_allOrNothing_of_reserved (hnew : ∀ r, calls.shadow.increaseReservation = some r →
      NewFrame vm (pa >>> PAGE_OFFSET_BITS) r)
    (hreserved : ¬ NothingReserved vm calls (pa >>> PAGE_OFFSET_BITS)) (status : HfmStatus) :
    ¬ AllOrNothing vm pa status (protectFrame (shadowOf vm calls (pa >>> PAGE_OFFSET_BITS)).2 calls
      (pa >>> PAGE_OFFSET_BITS)) := by
  intro h
  simp only [NothingReserved, not_or, Bool.not_eq_true, Option.isSome_eq_false_iff,
    Option.isNone_iff_eq_none, Bool.not_eq_false] at hreserved
  obtain ⟨hnone, hset, hinc⟩ := hreserved
  obtain ⟨r, hinc⟩ := Option.ne_none_iff_exists'.mp hinc
  obtain ⟨hleft, -⟩ := shadowOf_of_reserved hnone hset hinc
  obtain ⟨hmemsize, hsame⟩ := protectFrame_rest
    (shadowOf vm calls (pa >>> PAGE_OFFSET_BITS)).2 calls (pa >>> PAGE_OFFSET_BITS)
  obtain ⟨-, -, hfind, -⟩ := protectFrame_keeps
    (shadowOf vm calls (pa >>> PAGE_OFFSET_BITS)).2 calls (pa >>> PAGE_OFFSET_BITS)
  rcases hleft with hgrown | ⟨hmem, htables⟩
  · have hback := h.memsize
    rw [hmemsize, hgrown] at hback
    simp at hback
  · rw [← hsame] at hmem
    rcases h.reserved r hmem with hold | ⟨g, rm, hg, hr⟩
    · exact (hnew r hinc).notReserved hold
    · rw [hfind, htables] at hg
      exact ((hnew r hinc).new g rm hg).2.1 hr.symm

end

/-- Injecting a trap is all or nothing in one case only. -/
lemma injectTrap_allOrNothing_iff (vm : Vm κ ε) (calls : InjectCalls) (trap : Trap κ ε)
    (hnew : ∀ r, calls.shadow.increaseReservation = some r → NewFrame vm trap.gfn r) :
    ∃ status vm', injectTrap vm calls trap = .ok (status, vm') ∧
      (AllOrNothing vm trap.pa status vm' ↔ FailsClean vm calls trap.pa) := by
  unfold injectTrap
  cases hex : tmTrapExist vm.tm trap.pa with
  | true =>
    refine ⟨_, _, rfl, fun h => ?_, fun h => ?_⟩
    · cases h.status
    · have hnone := h.trapExist
      rw [hex] at hnone
      cases hnone
  | false =>
    obtain ⟨hfirst, hsecond, -⟩ := setInt3_eq vm calls trap.pa
    have hbyte : ByteFails (protectFrame (shadowOf vm calls (trap.pa >>> PAGE_OFFSET_BITS)).2 calls
        (trap.pa >>> PAGE_OFFSET_BITS)) calls trap.pa ↔ ByteFails vm calls trap.pa := by
      unfold ByteFails
      rw [protectFrame_shadowOf_mem hnew]
    rw [hbyte] at hfirst hsecond
    simp only [Bool.false_eq_true, if_false]
    generalize setInt3 vm calls trap.pa = set at hfirst hsecond ⊢
    obtain ⟨doubletrap, vm₁⟩ := set
    cases doubletrap with
    | none =>
      have hfails : ByteFails vm calls trap.pa := hfirst.mp rfl
      obtain rfl : vm₁ = _ := hsecond hfails
      refine ⟨_, _, rfl, fun h => ⟨hex, ?_, hfails⟩, fun h => ?_⟩
      · by_contra hreserved
        exact not_allOrNothing_of_reserved hnew hreserved .fail h
      · exact allOrNothing_of_nothingReserved hex h.reserved
    | some doubletrap =>
      have hset : tmTrapExist (tmAddInt3trap vm₁.tm trap) trap.pa = true := by simp
      simp only [tmSetDoubletrap_eq hset]
      refine ⟨_, _, rfl, fun h => ?_, fun h => ?_⟩
      · cases h.status
      · cases hfirst.mpr h.byteFails

/-- If a call fails while a trap is installed, the installation is all or nothing, exactly if
no trap is at the address, no frame is reserved for a new shadow page, and the byte cannot
be read or the INT3 not be written. -/
theorem attempt_allOrNothing_iff {vm : Vm κ ε} {attempt : Attempt κ ε}
    (hnew : ∀ r, attempt.calls.shadow.increaseReservation = some r → NewFrame vm attempt.frame r) :
    ∃ status vm', attempt.run vm = .ok (status, vm') ∧
      ((attempt.Fails vm → AllOrNothing vm attempt.pa status vm') ↔
        (attempt.Fails vm → FailsClean vm attempt.calls attempt.pa)) := by
  cases attempt with
  | inject trap calls =>
    obtain ⟨status, vm', hok, hiff⟩ := injectTrap_allOrNothing_iff vm calls trap hnew
    exact ⟨status, vm', hok, imp_congr_right fun _ => hiff⟩
  | plantReturn trap extra calls =>
    have hnew' : ∀ r, calls.inject.shadow.increaseReservation = some r →
        NewFrame { vm with brk := vm.brk + 1 } (returnTrap vm calls trap extra).gfn r :=
      fun r hr => ⟨⟨(hnew r hr).ne, (hnew r hr).new⟩, (hnew r hr).notReserved⟩
    obtain ⟨status, vm', hok, hiff⟩ := injectTrap_allOrNothing_iff { vm with brk := vm.brk + 1 }
      calls.inject (returnTrap vm calls trap extra) hnew'
    refine ⟨status, vm', hok, imp_congr_right fun _ => ⟨fun h => ?_, fun h => ?_⟩⟩
    · obtain ⟨hex, hreserved, hbyte⟩ :=
        hiff.mp ⟨h.status, h.trapExist, h.view, h.memsize, h.reserved, h.mem⟩
      exact ⟨hex, hreserved, hbyte⟩
    · obtain ⟨hstatus, hex, hview, hmemsize, hreserved, hmem⟩ :=
        hiff.mpr ⟨h.trapExist, h.reserved, h.byteFails⟩
      exact ⟨hstatus, hex, hview, hmemsize, hreserved, hmem⟩

/-- An INT3 that cannot be written to the shadow page leaves nothing behind if there is no
memory for a shadow page either. -/
theorem attempt_allOrNothing_unwritten :
    let calls : InjectCalls := ⟨⟨false, none, false, false, 0, 0⟩, true, true, false⟩
    let vm : Vm Unit Unit := Vm.start fun _ => 0x90
    ∃ status vm', injectTrap vm calls ⟨0, [], none, none, 0x1005, false, none⟩ = .ok (status, vm') ∧
      AllOrNothing vm 0x1005 status vm' := by
  intro calls vm
  let attempt : Attempt Unit Unit := .inject ⟨0, [], none, none, 0x1005, false, none⟩ calls
  have hnew : ∀ r, attempt.calls.shadow.increaseReservation = some r →
      NewFrame vm attempt.frame r := by
    intro r hr
    cases hr
  obtain ⟨status, vm', hok, hiff⟩ := attempt_allOrNothing_iff hnew
  have hbyte : ByteFails vm calls 0x1005 := .inr ⟨by decide, rfl⟩
  exact ⟨status, vm', hok, hiff.mpr (fun _ => ⟨rfl, .inr (.inl rfl), hbyte⟩) (.inl ⟨rfl, .inr hbyte⟩)⟩

/-- Without memory for the shadow page the INT3 goes to frame 0, and the trap is registered. -/
theorem inject_without_memory :
    let calls : InjectCalls := ⟨⟨false, none, false, false, 0, 0⟩, true, true, true⟩
    let vm : Vm Unit Unit := Vm.start fun _ => 0x90
    let attempt : Attempt Unit Unit := .inject ⟨0, [], none, none, 0x1005, false, none⟩ calls
    attempt.Fails vm ∧ ∃ status vm', attempt.run vm = .ok (status, vm') ∧
      vm'.machine.mem 5 = INT3_CHAR ∧ ¬ AllOrNothing vm attempt.pa status vm' := by
  refine ⟨.inl ⟨rfl, .inl ⟨rfl, fun h => ?_⟩⟩, _, _, rfl, rfl, fun h => ?_⟩
  · cases h.setmaxmem
  · cases h.status

end Hfm

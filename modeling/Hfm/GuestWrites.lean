import Hfm.TrapRuns

/-!
# Guest writes to monitored pages

A write of the guest to a page with a shadow copy raises a memory event; `_pre_mem_cb`
lets the instruction run in the original view, `_post_mem_cb` is to bring the shadow copy
up to date. The record that passes between the two never names any traps.
-/

namespace Hfm

open Support

variable {κ ε : Type}

/-- A write of the guest, within one page. -/
structure GuestWrite where
  vcpuId : Fin 16
  pa : Nat
  bytes : List UInt8
  outAccess : UInt8

def GuestWrite.gfn (w : GuestWrite) : Nat := w.pa >>> PAGE_OFFSET_BITS

/-- The instruction of the guest. -/
def GuestWrite.store (w : GuestWrite) (vm : Vm κ ε) : Vm κ ε :=
  vm.setMachine (vm.machine.write w.pa (fun i => w.bytes.getD i 0) w.bytes.length)

/-- The write with the events around it; the instruction is stepped in the original view. -/
def guestWrite (vm : Vm κ ε) (w : GuestWrite) (calls : RecopyCalls) : Except Fault (Vm κ ε) :=
  if !vm.machine.memEvent w.gfn then .ok (w.store vm)
  else do
    let (handled, vm) := preMemCb ⟨w.vcpuId, w.gfn, w.outAccess⟩ vm
    let vm := w.store (vm.respond w.vcpuId handled)
    let (handled, vm) ← stepCb w.vcpuId calls vm
    return vm.respond w.vcpuId handled

/-! ### Protected pages -/

/-- Accesses raise an event exactly on the pages with a shadow copy, and there is an entry
for each of them. -/
structure Protected (vm : Vm κ ε) : Prop where
  memtrap : ∀ g, (tmFindRemapped vm.tm g).isSome = true → (tmFindMemtrap vm.tm g).isSome = true
  memEvent : ∀ g, vm.machine.memEvent g = (tmFindRemapped vm.tm g).isSome

lemma protectFrame_memEvent (vm : Vm κ ε) {calls : InjectCalls} (h : calls.setMemEvent = true)
    (frame : Nat) : (protectFrame vm calls frame).machine.memEvent =
      Function.update vm.machine.memEvent frame true := by
  unfold protectFrame
  cases tmFindMemtrap vm.tm frame with
  | none => simp only [h, if_true, Vm.setMachine_machine, Vm.setTm_machine]
  | some w => simp only [h, if_true, Vm.setMachine_machine]

lemma injectTrap_protected {vm vm' : Vm κ ε} (h : Protected vm) {trap : Trap κ ε}
    {calls : InjectCalls} {r : Nat} (hcalls : calls.Succeed r)
    (hok : injectTrap vm calls trap = .ok (.success, vm')) : Protected vm' := by
  unfold injectTrap at hok
  split at hok
  · cases hok
    refine ⟨fun g hg => ?_, fun g => ?_⟩
    · rw [Vm.setTm_tm, tmFindRemapped_add] at hg
      rw [Vm.setTm_tm, tmFindMemtrap_add]
      exact h.memtrap g hg
    · rw [Vm.setTm_tm, tmFindRemapped_add]
      exact h.memEvent g
  · have hframe : trap.pa >>> PAGE_OFFSET_BITS = trap.gfn := rfl
    rw [setInt3_succeed vm hcalls.read8 hcalls.write8 hframe] at hok
    obtain ⟨hevent₁, hmemtrap₁, hfind₁⟩ := shadowOf_frames vm hcalls trap.gfn
    generalize shadowOf vm calls trap.gfn = shadowed at hok hevent₁ hmemtrap₁ hfind₁
    obtain ⟨-, -, hfind₂, hnew, hold⟩ := protectFrame_keeps shadowed.2 calls trap.gfn
    have hevent₂ := protectFrame_memEvent shadowed.2 hcalls.setMemEvent trap.gfn
    generalize protectFrame shadowed.2 calls trap.gfn = vm₂ at hok hfind₂ hnew hold hevent₂
    have hset : tmSetDoubletrap (tmAddInt3trap vm₂.tm trap) trap.pa (doubletrapAt vm₂ trap.pa) =
        .ok _ := tmSetDoubletrap_eq (by simp) _
    simp only [Vm.setMachine_tm, hset] at hok
    cases hok
    refine ⟨fun g hg => ?_, fun g => ?_⟩
    · change (tmFindRemapped (tmAddInt3trap vm₂.tm trap) g).isSome = true at hg
      change (tmFindMemtrap (tmAddInt3trap vm₂.tm trap) g).isSome = true
      rw [tmFindRemapped_add, hfind₂, hfind₁, Bool.or_eq_true, decide_eq_true_iff] at hg
      rw [tmFindMemtrap_add]
      rcases hg with rfl | hg
      · exact hnew
      · apply hold
        rw [hmemtrap₁]
        exact h.memtrap g hg
    · change vm₂.machine.memEvent g = (tmFindRemapped (tmAddInt3trap vm₂.tm trap) g).isSome
      rw [tmFindRemapped_add, hfind₂, hfind₁, hevent₂, hevent₁]
      by_cases hg : g = trap.gfn
      · simp [hg]
      · simp [hg, h.memEvent]

section Runs

variable [DecidableEq κ] [DecidableEq ε]

lemma destroyTrap_protected {vm vm' : Vm κ ε} (h : Protected vm) {trap : Trap κ ε}
    {calls : RemoveCalls} (hcalls : calls.Succeed) (hok : destroyTrap vm calls trap = .ok vm') :
    Protected vm' := by
  have hevent : vm'.machine.memEvent = vm.machine.memEvent := by
    unfold destroyTrap removeInt3 at hok
    simp only [hcalls.read8, hcalls.write8, if_true] at hok
    split at hok
    · split at hok
      · cases hok
      · cases hok
        rfl
    · cases hok
      rfl
  rcases destroyTrap_spec vm calls trap with ⟨vm₁, hok₁, -, htm⟩ | ⟨hfault, -⟩
  · rw [hok] at hok₁
    cases hok₁
    refine ⟨fun g hg => ?_, fun g => ?_⟩
    · rw [htm, tmFindRemapped_remove] at hg
      rw [htm, tmFindMemtrap_remove]
      exact h.memtrap g hg
    · rw [htm, tmFindRemapped_remove, hevent]
      exact h.memEvent g
  · rw [hok] at hfault
    cases hfault

end Runs

/-! ### The effect of a write -/

/-- The two events around a write change no memory and no table. -/
lemma guestWrite_completes {vm : Vm κ ε} (h : Protected vm) (w : GuestWrite) (calls : RecopyCalls)
    (hrm : (tmFindRemapped vm.tm w.gfn).isSome = true) :
    ∃ vm', guestWrite vm w calls = .ok vm' ∧ vm'.tm = vm.tm ∧
      vm'.machine.mem = (w.store vm).machine.mem ∧ vm'.machine.slat = vm.machine.slat ∧
      vm'.machine.memEvent = vm.machine.memEvent ∧ vm.brk ≤ vm'.brk := by
  have hevent : vm.machine.memEvent w.gfn = true := by rw [h.memEvent, hrm]
  have hpre : preMemCb ⟨w.vcpuId, w.gfn, w.outAccess⟩ vm = _ :=
    preMemCb_of_memtrap (h.memtrap _ hrm)
  unfold guestWrite
  rw [hevent, hpre]
  simp only [Bool.not_true, Bool.false_eq_true, if_false]
  have htraps := newPass_traps vm.tm ⟨w.vcpuId, w.gfn, w.outAccess⟩
  generalize newPass vm.tm ⟨w.vcpuId, w.gfn, w.outAccess⟩ = pass at htraps ⊢
  obtain ⟨vm₁, hvm₁⟩ : ∃ vm₁, vm₁ = w.store ((vm.beginPass w.vcpuId pass).respond w.vcpuId
    ⟨.switch, ORIGIN_IDX, none⟩) := ⟨_, rfl⟩
  rw [← hvm₁]
  have hstep : vm₁.hdlr.stepEvent w.vcpuId = ⟨.postMemCb, .pass vm.brk⟩ := by
    rw [hvm₁]
    exact Function.update_self _ _ _
  have hpass : vm₁.passes vm.brk = some pass := by
    rw [hvm₁]
    exact Function.update_self _ _ _
  unfold stepCb
  simp only [hstep, postMemCb_of_traps_none hpass htraps]
  refine ⟨_, rfl, ?_, ?_, ?_, ?_, ?_⟩
  all_goals rw [hvm₁]
  · rfl
  · rfl
  · rfl
  · rfl
  · exact Nat.le_succ _

/-- A write is harmless if no byte of a page with a shadow copy changes, other than from one
that is not an INT3 to another one where a trap is. -/
def GuestWrite.Harmless (vm : Vm κ ε) (w : GuestWrite) : Prop :=
  (tmFindRemapped vm.tm w.gfn).isSome = true → ∀ i < w.bytes.length,
    if tmTrapExist vm.tm (w.pa + i) then
      w.bytes.getD i 0 = INT3_CHAR ↔ vm.machine.mem (w.pa + i) = INT3_CHAR
    else w.bytes.getD i 0 = vm.machine.mem (w.pa + i)

/-- The write stays in one frame, which is not a shadow frame. -/
structure GuestWrite.InGuest (vm : Vm κ ε) (w : GuestWrite) : Prop where
  page : w.pa % PAGESIZE + w.bytes.length ≤ PAGESIZE
  frame : ∀ g rm, tmFindRemapped vm.tm g = some rm → rm.r ≠ w.gfn

lemma GuestWrite.store_mem (w : GuestWrite) (vm : Vm κ ε) (a : Nat) :
    (w.store vm).machine.mem a =
      if w.pa ≤ a ∧ a < w.pa + w.bytes.length then w.bytes.getD (a - w.pa) 0
      else vm.machine.mem a := rfl

/-- The addresses of a write lie in its frame. -/
lemma GuestWrite.InGuest.shift {vm : Vm κ ε} {w : GuestWrite} (h : w.InGuest vm) {i : Nat}
    (hi : i < w.bytes.length) : (w.pa + i) >>> PAGE_OFFSET_BITS = w.gfn := by
  have hpage := h.page
  simp only [GuestWrite.gfn, PAGESIZE, PAGE_OFFSET_BITS, Nat.shiftRight_eq_div_pow] at *
  omega

lemma GuestWrite.InGuest.store_outside {vm : Vm κ ε} {w : GuestWrite} (h : w.InGuest vm) {a : Nat}
    (ha : a >>> PAGE_OFFSET_BITS ≠ w.gfn) : (w.store vm).machine.mem a = vm.machine.mem a := by
  rw [GuestWrite.store_mem, if_neg]
  rintro ⟨hle, hlt⟩
  have hshift := h.shift (i := a - w.pa) (by omega)
  rw [Nat.add_sub_cancel' hle] at hshift
  exact ha hshift

/-- After a write the shadow copy is right exactly if there was nothing to copy. -/
lemma guestWrite_coherent_iff {vm vm' : Vm κ ε} (h : Coherent vm) {w : GuestWrite}
    (hw : w.InGuest vm) (htm : vm'.tm = vm.tm)
    (hmem : vm'.machine.mem = (w.store vm).machine.mem) : Coherent vm' ↔ w.Harmless vm := by
  have hshadow : ∀ g rm, tmFindRemapped vm.tm g = some rm → ∀ off < PAGESIZE,
      vm'.machine.mem (pageAddr rm.r off) = shadowByte vm (pageAddr g off) := by
    intro g rm hg off hoff
    rw [hmem, hw.store_outside]
    · exact h.shadow g rm hg off hoff
    · rw [pageAddr_shift hoff]
      exact hw.frame g rm hg
  have hwritten : ∀ i < w.bytes.length, vm'.machine.mem (w.pa + i) = w.bytes.getD i 0 := by
    intro i hi
    rw [hmem, GuestWrite.store_mem, if_pos ⟨by omega, by omega⟩, Nat.add_sub_cancel_left]
  constructor
  · intro h' hsome i hi
    obtain ⟨rm, hrm⟩ := Option.isSome_iff_exists.mp hsome
    rw [← hwritten i hi]
    split
    · rename_i hex
      have hnew := h'.doubletrap (w.pa + i) (by rw [htm, hex])
      rw [htm, h.doubletrap _ hex, Except.ok.injEq] at hnew
      unfold doubletrapAt at hnew
      split at hnew
      · split at hnew
        · simp_all
        · cases hnew
      · split at hnew
        · cases hnew
        · simp_all
    · rename_i hex
      have hnew := h'.shadow w.gfn rm (by rw [htm, hrm]) _ (mod_lt_pageSize (w.pa + i))
      rw [hshadow w.gfn rm hrm _ (mod_lt_pageSize (w.pa + i)), ← hw.shift hi, pageAddr_split] at hnew
      unfold shadowByte at hnew
      rw [htm, if_neg hex, if_neg hex] at hnew
      exact hnew.symm
  · intro hharm
    have hbyte : ∀ pa, (tmFindRemapped vm.tm (pa >>> PAGE_OFFSET_BITS)).isSome = true →
        if tmTrapExist vm.tm pa then
          vm'.machine.mem pa = INT3_CHAR ↔ vm.machine.mem pa = INT3_CHAR
        else vm'.machine.mem pa = vm.machine.mem pa := by
      intro pa hsome
      by_cases hin : w.pa ≤ pa ∧ pa < w.pa + w.bytes.length
      · obtain ⟨i, rfl⟩ := Nat.exists_eq_add_of_le hin.1
        have hi : i < w.bytes.length := by omega
        rw [hw.shift hi] at hsome
        rw [hwritten i hi]
        exact hharm hsome i hi
      · have hsame : vm'.machine.mem pa = vm.machine.mem pa := by
          rw [hmem, GuestWrite.store_mem, if_neg hin]
        simp [hsame]
    refine ⟨?_, ?_, fun g rm hg off hoff => ?_, fun pa hpa => ?_⟩
    · rw [htm]
      exact h.remapped
    · rw [htm]
      exact h.memtrap
    · rw [htm] at hg
      have hcopy := hbyte (pageAddr g off) (by rw [pageAddr_shift hoff, hg]; rfl)
      rw [hshadow g rm hg off hoff]
      unfold shadowByte
      rw [htm]
      split
      · rfl
      · rename_i hex
        rw [if_neg hex] at hcopy
        exact hcopy.symm
    · rw [htm] at hpa ⊢
      have hflag := hbyte pa (h.remapped pa hpa)
      rw [if_pos hpa] at hflag
      rw [h.doubletrap pa hpa]
      unfold doubletrapAt
      simp only [hflag]

section Runs

variable [DecidableEq κ] [DecidableEq ε]

/-- A trap is injected or removed, or the guest writes. -/
inductive WriteStep (κ ε : Type) where
  | trap (step : TrapStep κ ε)
  | write (w : GuestWrite) (calls : RecopyCalls)

def WriteRun (vm : Vm κ ε) (step : WriteStep κ ε) (vm' : Vm κ ε) : Prop :=
  match step with
  | .trap step => TrapRun vm step vm'
  | .write w calls => w.InGuest vm ∧ guestWrite vm w calls = .ok vm'

def WriteStep.Harmless (vm : Vm κ ε) : WriteStep κ ε → Prop
  | .trap _ => True
  | .write w _ => w.Harmless vm

/-- A handler before its first trap. -/
structure Untouched (vm : Vm κ ε) : Prop where
  tm : vm.tm = tmInit
  memEvent : ∀ g, vm.machine.memEvent g = false

omit [DecidableEq κ] [DecidableEq ε] in
lemma Untouched.protected {vm : Vm κ ε} (h : Untouched vm) : Protected vm := by
  have hnone : ∀ g, tmFindRemapped vm.tm g = none := by
    intro g
    rw [h.tm]
    rfl
  refine ⟨fun g hg => ?_, fun g => ?_⟩
  · rw [hnone] at hg
    cases hg
  · rw [hnone]
    exact h.memEvent g

/-- What holds whether or not the shadow pages are up to date. -/
structure Tracked (vm : Vm κ ε) : Prop where
  mapped : Mapped vm
  registered : ∃ reg, Registered vm reg
  prot : Protected vm

lemma WriteRun.trap {vm vm' : Vm κ ε} (h : Tracked vm) (hc : Coherent vm) {step : TrapStep κ ε}
    (hrun : TrapRun vm step vm') : Tracked vm' ∧ Coherent vm' := by
  obtain ⟨hs, hok⟩ := hrun
  obtain ⟨vm₁, hok₁, hin, -⟩ := TrapStep.inStep ⟨hc, h.mapped, h.registered⟩ hs
  rw [hok] at hok₁
  cases hok₁
  refine ⟨⟨hin.mapped, hin.registered, ?_⟩, hin.coherent⟩
  cases step with
  | inject trap calls r =>
    have hprot : Protected { vm with brk := vm.brk + 1 } := ⟨h.prot.memtrap, h.prot.memEvent⟩
    exact injectTrap_protected hprot hs.1 hok
  | destroy trap calls =>
    rw [TrapStep.apply, bind_eq_ok] at hok
    obtain ⟨vm₁, hdestroy, hok⟩ := hok
    cases hok
    exact destroyTrap_protected h.prot hs.1 hdestroy

omit [DecidableEq κ] [DecidableEq ε] in
/-- A write changes the memory as the instruction does, and no table. -/
lemma guestWrite_keeps {vm vm' : Vm κ ε} (h : Tracked vm) {w : GuestWrite} {calls : RecopyCalls}
    (hok : guestWrite vm w calls = .ok vm') :
    Tracked vm' ∧ vm'.tm = vm.tm ∧ vm'.machine.mem = (w.store vm).machine.mem := by
  have hkeep : vm'.tm = vm.tm ∧ vm'.machine.mem = (w.store vm).machine.mem ∧
      vm'.machine.slat = vm.machine.slat ∧ vm'.machine.memEvent = vm.machine.memEvent ∧
      vm.brk ≤ vm'.brk := by
    cases hsome : (tmFindRemapped vm.tm w.gfn).isSome with
    | true =>
      obtain ⟨vm₁, hok₁, hrest⟩ := guestWrite_completes h.prot w calls hsome
      rw [hok] at hok₁
      cases hok₁
      exact hrest
    | false =>
      unfold guestWrite at hok
      rw [h.prot.memEvent, hsome] at hok
      cases hok
      exact ⟨rfl, rfl, rfl, rfl, Nat.le_refl _⟩
  obtain ⟨htm, hmem, hslat, hevent, hbrk⟩ := hkeep
  obtain ⟨hmapped, ⟨reg, hreg⟩, hprot⟩ := h
  refine ⟨⟨hmapped.congr (by rw [htm]) hslat, ⟨reg, hreg.congr htm hbrk⟩, ?_⟩, htm, hmem⟩
  refine ⟨?_, fun g => ?_⟩
  · rw [htm]
    exact hprot.memtrap
  · rw [htm, hevent]
    exact hprot.memEvent g

/-- The shadow pages stay right over a run exactly as long as no write of the guest would
have had to be copied. -/
theorem shadow_pages_right_iff_harmless {vm₀ : Vm κ ε} (h₀ : Untouched vm₀)
    {tr : List (WriteStep κ ε × Vm κ ε)} (hrun : IsRun WriteRun vm₀ tr) :
    Always Coherent vm₀ tr ↔ Meets WriteStep.Harmless vm₀ tr := by
  have hstart := inStep_tmInit h₀.tm
  apply hrun.always_iff_meets (J := Tracked)
  case hkeep =>
    intro vm step vm' htr hc hstep
    cases step with
    | trap step => exact (WriteRun.trap htr hc hstep).1
    | write w calls => exact (guestWrite_keeps htr hstep.2).1
  case hstep =>
    intro vm step vm' htr hc hstep
    cases step with
    | trap step => exact ⟨fun _ => trivial, fun _ => (WriteRun.trap htr hc hstep).2⟩
    | write w calls =>
      obtain ⟨-, htm, hmem⟩ := guestWrite_keeps htr hstep.2
      exact guestWrite_coherent_iff hc hstep.1 htm hmem
  case hJ => exact ⟨hstart.mapped, hstart.registered, h₀.protected⟩
  case hP => exact hstart.coherent

omit [DecidableEq κ] [DecidableEq ε] in
/-- Every write of the guest gets through. -/
lemma guestWrite_total {vm : Vm κ ε} (h : Tracked vm) (w : GuestWrite) (calls : RecopyCalls) :
    ∃ vm', guestWrite vm w calls = .ok vm' := by
  cases hsome : (tmFindRemapped vm.tm w.gfn).isSome with
  | true =>
    obtain ⟨vm', hok, -⟩ := guestWrite_completes h.prot w calls hsome
    exact ⟨vm', hok⟩
  | false =>
    unfold guestWrite
    rw [h.prot.memEvent, hsome]
    exact ⟨_, rfl⟩

end Runs

/-- A byte is written at offset 16 of the page. -/
def oneByte (b : UInt8) : GuestWrite := ⟨vcpu0, 0x1010, [b], VMI_MEMACCESS_W⟩

def oneByteCalls : RecopyCalls := ⟨true, true, fun _ => true, fun _ => true⟩

lemma untouched_start (mem : Nat → UInt8) : Untouched (Vm.start mem : Vm Unit Unit) :=
  ⟨rfl, fun _ => rfl⟩

lemma oneByte_run (b : UInt8) : ∃ vm : Vm Unit Unit,
    IsRun WriteRun (Vm.start fun _ => 0x90)
      [(.trap oneTrap, oneTrapVm), (.write (oneByte b) oneByteCalls, vm)] ∧
      (Coherent vm ↔ (oneByte b).Harmless oneTrapVm) := by
  have hstart := inStep_tmInit (untouched_start fun _ => 0x90).tm
  obtain ⟨htr, hc⟩ := WriteRun.trap
    ⟨hstart.mapped, hstart.registered, (untouched_start _).protected⟩ hstart.coherent oneTrap_run
  obtain ⟨vm, hok⟩ := guestWrite_total htr (oneByte b) oneByteCalls
  have hin : (oneByte b).InGuest oneTrapVm := by
    refine ⟨(by decide : 0x1010 % 4096 + 1 ≤ 4096), fun g rm hg => ?_⟩
    have hgfn : (oneByte b).gfn = 1 := (rfl : 0x1010 >>> 12 = 1)
    have hpage : tmFindRemapped oneTrapVm.tm 1 = some ⟨1, 0x500⟩ := rfl
    rw [hgfn]
    exact htr.mapped.apart _ _ rm _ hg hpage
  obtain ⟨-, htm, hmem⟩ := guestWrite_keeps htr hok
  exact ⟨vm, ⟨oneTrap_run, ⟨hin, hok⟩, trivial⟩, guestWrite_coherent_iff hc hin htm hmem⟩

/-- Writing the byte that is there already leaves the shadow page right. -/
theorem shadow_pages_right_same_byte : ∃ vm : Vm Unit Unit,
    Always Coherent (Vm.start fun _ => 0x90)
      [(WriteStep.trap oneTrap, oneTrapVm), (.write (oneByte 0x90) oneByteCalls, vm)] := by
  obtain ⟨vm, hrun, -⟩ := oneByte_run 0x90
  refine ⟨vm, (shadow_pages_right_iff_harmless (untouched_start _) hrun).mpr
    ⟨trivial, fun _ i hi => ?_, trivial⟩⟩
  obtain rfl : i = 0 := Nat.lt_one_iff.mp hi
  rfl

/-- Another byte does not: the shadow page still shows the old one. -/
theorem shadow_page_stale : ∃ vm : Vm Unit Unit,
    IsRun WriteRun (Vm.start fun _ => 0x90)
      [(.trap oneTrap, oneTrapVm), (.write (oneByte 0x12) oneByteCalls, vm)] ∧ ¬ Coherent vm := by
  obtain ⟨vm, hrun, hiff⟩ := oneByte_run 0x12
  refine ⟨vm, hrun, fun hc => ?_⟩
  have hsame : (0x12 : UInt8) = 0x90 := hiff.mp hc rfl 0 Nat.one_pos
  exact absurd hsame (by decide)

end Hfm

import Hfm.GuestWrites
import Hfm.Support.Simulation
import Hfm.ViewSwitch

/-!
# Runs of the hooks

Traps are injected, events arrive and the guest writes, in any order and with any answers of the
calls. What the program does to the pages of the guest on the way is what it does for one frame
at a time: it gets a shadow page, and then its protection.
-/

namespace Hfm

open Support

variable {κ ε σ : Type} {vm vm' : Vm κ ε}

/-! ### Memory accesses and single steps -/

/-- A memory access is recorded, and nothing else. -/
lemma preMemCb_keeps (vm : Vm κ ε) (event : MemEvent) :
    (preMemCb event vm).2.machine = vm.machine ∧ (preMemCb event vm).2.tm = vm.tm ∧
      vm.brk ≤ (preMemCb event vm).2.brk ∧ ((preMemCb event vm).2.passes = vm.passes ∨
        (preMemCb event vm).2.passes =
          Function.update vm.passes vm.brk (some (newPass vm.tm event))) := by
  unfold preMemCb
  split
  · exact ⟨rfl, rfl, le_rfl, .inl rfl⟩
  · exact ⟨rfl, rfl, Nat.le_succ _, .inr rfl⟩

/-- As no record has traps, nothing is copied after a step. -/
lemma stepCb_keeps (hpasses : ∀ addr pass, vm.passes addr = some pass → pass.traps = none)
    {vcpuId : Fin 16} {calls : RecopyCalls} {handled : Handled}
    (hok : stepCb vcpuId calls vm = .ok (handled, vm')) :
    vm'.machine = vm.machine ∧ vm'.tm = vm.tm ∧ vm'.brk = vm.brk ∧
      ∀ addr pass, vm'.passes addr = some pass → vm.passes addr = some pass := by
  unfold stepCb at hok
  dsimp only at hok
  split at hok
  · unfold singlestepCb at hok
    split at hok
    · cases hok
    · cases hok
      exact ⟨rfl, rfl, rfl, fun _ _ h => h⟩
  · cases hdata : (vm.hdlr.stepEvent vcpuId).data with
    | handler =>
      rw [hdata] at hok
      cases hok
    | pass addr =>
      rw [hdata] at hok
      cases hpass : vm.passes addr with
      | none =>
        unfold postMemCb at hok
        simp only [hpass] at hok
        cases hok
      | some pass =>
        rw [postMemCb_of_traps_none hpass (hpasses addr pass hpass)] at hok
        cases hok
        refine ⟨rfl, rfl, rfl, fun a p ha => ?_⟩
        change Function.update vm.passes addr none a = some p at ha
        by_cases haddr : a = addr
        · rw [haddr, Function.update_self] at ha
          cases ha
        · rw [Function.update_of_ne haddr] at ha
          exact ha

/-! ### Pages -/

/-- The view, the events and the shadow pages are the same. -/
structure SamePages (vm vm' : Vm κ ε) : Prop where
  slat : vm'.machine.slat = vm.machine.slat
  memEvent : vm'.machine.memEvent = vm.machine.memEvent
  reserved : vm'.machine.reserved = vm.machine.reserved
  remappedTbl : vm'.tm.remappedTbl = vm.tm.remappedTbl
  memaccessTbl : vm'.tm.memaccessTbl = vm.tm.memaccessTbl

lemma SamePages.refl (vm : Vm κ ε) : SamePages vm vm := ⟨rfl, rfl, rfl, rfl, rfl⟩

lemma SamePages.trans {vm'' : Vm κ ε} (h : SamePages vm vm') (h' : SamePages vm' vm'') :
    SamePages vm vm'' :=
  ⟨h'.slat.trans h.slat, h'.memEvent.trans h.memEvent, h'.reserved.trans h.reserved,
    h'.remappedTbl.trans h.remappedTbl, h'.memaccessTbl.trans h.memaccessTbl⟩

lemma SamePages.of_eq (htm : vm'.tm = vm.tm) (hmachine : vm'.machine = vm.machine) :
    SamePages vm vm' := by
  refine ⟨?_, ?_, ?_, ?_, ?_⟩
  · rw [hmachine]
  · rw [hmachine]
  · rw [hmachine]
  · rw [htm]
  · rw [htm]

lemma tmAddInt3trap_pages (tm : Trapmngr κ ε) (trap : Trap κ ε) :
    (tmAddInt3trap tm trap).remappedTbl = tm.remappedTbl ∧
      (tmAddInt3trap tm trap).memaccessTbl = tm.memaccessTbl := by
  unfold tmAddInt3trap
  dsimp only
  split
  · exact ⟨rfl, rfl⟩
  · exact ⟨rfl, rfl⟩

/-- The frame of a trap gets its shadow page and is protected. -/
def Vm.shadowFrame (vm : Vm κ ε) (calls : InjectCalls) (frame : Nat) : Vm κ ε :=
  protectFrame (shadowOf vm calls frame).2 calls frame

/-- Creating a shadow page changes the view for its frame only. -/
lemma createShadowPage_slat (vm : Vm κ ε) (calls : ShadowCalls) (frame : Nat) {g : Nat}
    (hg : g ≠ frame) :
    (createShadowPage vm calls frame).2.machine.slat g = vm.machine.slat g := by
  unfold createShadowPage
  dsimp only
  generalize vm.hdlr.memsize + 4096 = proposedMemsize
  have halloc := (xenAllocShadowFrame_machine vm.machine calls proposedMemsize.toUInt64).2.1
  generalize xenAllocShadowFrame vm.machine calls proposedMemsize.toUInt64 = alloc at halloc ⊢
  have hupdate : Function.update alloc.2.slat frame alloc.1 g = vm.machine.slat g := by
    rw [Function.update_of_ne hg, halloc]
  split
  · exact congrFun halloc g
  · split
    · exact congrFun halloc g
    · split
      · exact hupdate
      · split
        · exact hupdate
        · exact hupdate

/-- Shadowing a frame leaves the views and the events of other frames, and accesses of the frame
raise events if it could be protected. -/
lemma shadowFrame_views (vm : Vm κ ε) (calls : InjectCalls) (frame : Nat) :
    (∀ g ≠ frame, (vm.shadowFrame calls frame).machine.slat g = vm.machine.slat g ∧
      (vm.shadowFrame calls frame).machine.memEvent g = vm.machine.memEvent g) ∧
    (calls.setMemEvent = true → (vm.shadowFrame calls frame).machine.memEvent frame = true) := by
  have hshadow : ∀ g ≠ frame, (shadowOf vm calls frame).2.machine.slat g = vm.machine.slat g ∧
      (shadowOf vm calls frame).2.machine.memEvent g = vm.machine.memEvent g := by
    intro g hg
    unfold shadowOf
    split
    · exact ⟨rfl, rfl⟩
    · have hslat := createShadowPage_slat vm calls.shadow _ hg
      have hevent := congrFun (createShadowPage_memEvent vm calls.shadow frame) g
      dsimp only
      split
      · exact ⟨hslat, hevent⟩
      · exact ⟨hslat, hevent⟩
  unfold Vm.shadowFrame
  generalize shadowOf vm calls frame = shadowed at hshadow
  obtain ⟨-, hslat, -⟩ := protectFrame_keeps shadowed.2 calls frame
  have hevent : (protectFrame shadowed.2 calls frame).machine.memEvent =
      if calls.setMemEvent then Function.update shadowed.2.machine.memEvent frame true
      else shadowed.2.machine.memEvent := by
    cases hset : calls.setMemEvent with
    | true => exact protectFrame_memEvent shadowed.2 hset _
    | false =>
      unfold protectFrame
      rw [hset]
      cases tmFindMemtrap shadowed.2.tm frame <;> rfl
  rw [hslat, hevent]
  refine ⟨fun g hg => ⟨(hshadow g hg).1, ?_⟩, fun hset => ?_⟩
  · split
    · rw [Function.update_of_ne hg]
      exact (hshadow g hg).2
    · exact (hshadow g hg).2
  · rw [if_pos hset]
    exact Function.update_self _ _ _

lemma setInt3_pages (vm : Vm κ ε) (calls : InjectCalls) (pa : Nat) :
    SamePages (vm.shadowFrame calls (pa >>> PAGE_OFFSET_BITS)) (setInt3 vm calls pa).2 := by
  unfold setInt3 Vm.shadowFrame
  dsimp only
  generalize protectFrame (shadowOf vm calls (pa >>> PAGE_OFFSET_BITS)).2 calls
    (pa >>> PAGE_OFFSET_BITS) = vm₁
  split
  · exact SamePages.refl vm₁
  · split
    · exact SamePages.refl vm₁
    · split
      · exact SamePages.refl vm₁
      · exact ⟨rfl, rfl, rfl, rfl, rfl⟩

/-- The first trap at an address changes the pages, and only there. -/
lemma injectTrap_pages {calls : InjectCalls} {trap : Trap κ ε} {status : HfmStatus}
    (hok : injectTrap vm calls trap = .ok (status, vm')) :
    SamePages (if tmTrapExist vm.tm trap.pa then vm else vm.shadowFrame calls trap.gfn) vm' := by
  unfold injectTrap at hok
  split at hok
  · rename_i hex
    obtain ⟨hremapped, hmemaccess⟩ := tmAddInt3trap_pages vm.tm trap
    cases hok
    rw [if_pos hex]
    exact ⟨rfl, rfl, rfl, hremapped, hmemaccess⟩
  · rename_i hex
    rw [if_neg hex]
    have hpages := setInt3_pages vm calls trap.pa
    generalize setInt3 vm calls trap.pa = outcome at hok hpages
    obtain ⟨doubletrap, vm₁⟩ := outcome
    cases doubletrap with
    | none =>
      cases hok
      exact hpages
    | some doubletrap =>
      have hexist : tmTrapExist (tmAddInt3trap vm₁.tm trap) trap.pa = true := by simp
      obtain ⟨hremapped, hmemaccess⟩ := tmAddInt3trap_pages vm₁.tm trap
      dsimp only at hok
      rw [tmSetDoubletrap_eq hexist] at hok
      cases hok
      exact hpages.trans ⟨rfl, rfl, rfl, hremapped, hmemaccess⟩

section Hooks

variable [DecidableEq κ] [DecidableEq ε]

lemma destroyTrap_pages {calls : RemoveCalls} {trap : Trap κ ε}
    (hok : destroyTrap vm calls trap = .ok vm') : SamePages vm vm' := by
  have hremove : SamePages vm (vm.setTm (tmRemoveInt3trap vm.tm trap).2) := by
    refine ⟨rfl, rfl, rfl, ?_, ?_⟩
    · change (tmRemoveInt3trap vm.tm trap).2.remappedTbl = vm.tm.remappedTbl
      unfold tmRemoveInt3trap
      cases vm.tm.breakpointTbl.lookup trap.pa <;> rfl
    · change (tmRemoveInt3trap vm.tm trap).2.memaccessTbl = vm.tm.memaccessTbl
      unfold tmRemoveInt3trap
      cases vm.tm.breakpointTbl.lookup trap.pa <;> rfl
  unfold destroyTrap at hok
  dsimp only at hok
  split at hok
  · generalize vm.setTm (tmRemoveInt3trap vm.tm trap).2 = vm₁ at hok hremove
    unfold removeInt3 at hok
    dsimp only at hok
    have hread : SamePages vm₁ (if calls.read8 then vm₁ else vm₁.interrupt) := by
      split
      · exact SamePages.refl vm₁
      · exact ⟨rfl, rfl, rfl, rfl, rfl⟩
    generalize (if calls.read8 = true then vm₁ else vm₁.interrupt) = vm₂ at hok hread
    split at hok
    · cases hok
    · split at hok
      · cases hok
        exact (hremove.trans hread).trans ⟨rfl, rfl, rfl, rfl, rfl⟩
      · cases hok
        exact (hremove.trans hread).trans ⟨rfl, rfl, rfl, rfl, rfl⟩
  · cases hok
    exact hremove

/-- The halves of a visit: `P` holds after the return trap is planted, and from it follows `Q`
whether or not the visited trap is removed. -/
lemma visitTrap_halves {P Q : Vm κ ε → Prop} {cbs : Callbacks κ ε σ} {event : InterruptEvent}
    {calls : VisitCalls} {trap : Trap κ ε} {s s' : UInt64 × σ} {planted : Option (Trap κ ε)}
    (hplant : ∀ extra status vm', injectTrap { vm with brk := vm.brk + 1 } calls.inject
      (returnTrap vm calls trap extra) = .ok (status, vm') → P vm')
    (hnone : P vm) (hstay : ∀ vm, P vm → Q vm)
    (hdestroy : ∀ vm vm', P vm → destroyTrap vm calls.remove trap = .ok vm' → Q vm')
    (hok : visitTrap cbs event calls trap vm s = .ok (vm', s', planted)) : Q vm' := by
  obtain ⟨⟨vm₁, s₁, planted₁⟩, hcall, hok⟩ := bind_eq_ok.mp hok
  have hcalled : P vm₁ := by
    unfold callTrap at hcall
    split at hcall
    · cases hcall
      exact hnone
    · dsimp only at hcall
      split at hcall
      · obtain ⟨⟨status, vm₂⟩, hinject, hcall⟩ := bind_eq_ok.mp hcall
        cases hcall
        exact hplant _ status _ hinject
      · cases hcall
        exact hnone
  dsimp only at hok
  split at hok
  · obtain ⟨vm₃, hremove, hok⟩ := bind_eq_ok.mp hok
    cases hok
    exact hdestroy vm₁ _ hcalled hremove
  · cases hok
    exact hstay _ hcalled

/-! ### Runs -/

/-- A trap is injected, LibVMI calls back, or the guest changes a byte. -/
inductive HookAction (κ ε : Type) where
  | inject (trap : Trap κ ε) (calls : InjectCalls)
  | event (event : VmEvent)
  | guest (pa : Nat) (b : UInt8)

/-- A VM with the state of the callbacks, next to the memory as the guest alone leaves it. -/
structure Beside (κ ε σ : Type) where
  vm : Vm κ ε
  user : σ
  mem : Nat → UInt8

/-- Any answers of the calls, any events in any order. -/
def HookRun (cbs : Callbacks κ ε σ) (w : Beside κ ε σ) (action : HookAction κ ε)
    (w' : Beside κ ε σ) : Prop :=
  match action with
  | .inject trap calls => ∃ status vm, injectTrap { w.vm with brk := w.vm.brk + 1 } calls
      { trap with addr := w.vm.brk } = .ok (status, vm) ∧ w' = ⟨vm, w.user, w.mem⟩
  | .event event => ∃ handled vm user, event.handle cbs w.vm w.user = .ok (handled, vm, user) ∧
      w' = ⟨vm.respond event.vcpuId handled, user, w.mem⟩
  | .guest pa b =>
      w' = ⟨w.vm.setMachine (w.vm.machine.write8 pa b), w.user, Function.update w.mem pa b⟩

/-! ### The tables and the records -/

/-- A handler before its first trap, on a machine whose altp2m view is as the original one. -/
structure Started (vm : Vm κ ε) : Prop extends Untouched vm where
  slat : ∀ g, vm.machine.slat g = g
  passes : ∀ addr, vm.passes addr = none

/-- No pass record has traps. -/
structure Steady (w : Beside κ ε σ) : Prop where
  registered : ∃ reg, Registered w.vm reg
  passes : ∀ addr pass, w.vm.passes addr = some pass → pass.traps = none

/-- A breakpoint changes no pass record. -/
lemma int3Cb_registered {reg : List (Trap κ ε)} (hreg : Registered vm reg) {cbs : Callbacks κ ε σ}
    {event : InterruptEvent} {calls : Int3Calls} {s s' : σ} {handled : Handled}
    (hok : int3Cb cbs event calls vm s = .ok (handled, vm', s')) :
    (∃ reg', Registered vm' reg') ∧ vm'.passes = vm.passes := by
  cases hex : tmTrapExist vm.tm event.pa with
  | false =>
    rw [int3Cb_of_not_trapExist hreg cbs calls s hex] at hok
    split at hok
    · cases hok
      exact ⟨⟨reg, hreg⟩, rfl⟩
    · cases hok
      exact ⟨⟨reg, hreg.congr rfl le_rfl⟩, rfl⟩
  | true =>
    let I : List (Trap κ ε) → Vm κ ε → UInt64 × σ → Prop := fun _ vm' _ =>
      (∃ reg', Registered vm' reg') ∧ vm'.passes = vm.passes
    have hvisit : ∀ trap queue vm' s (calls : VisitCalls), True → I (trap :: queue) vm' s →
        AfterVisit event (fun _ => True) I queue (visitTrap cbs event calls trap vm' s) := by
      rintro trap queue vm₁ s₁ calls - ⟨⟨reg₁, hreg₁⟩, hpasses⟩
      cases hvisited : visitTrap cbs event calls trap vm₁ s₁ with
      | error fault => trivial
      | ok result =>
        obtain ⟨tm, hv⟩ := visitTrap_visit hvisited
        exact ⟨⟨_, hv.registered hreg₁⟩, hv.aside.passes.trans hpasses⟩
    obtain ⟨doubletrap, -, hrule⟩ := int3Cb_rule hreg (fun _ _ _ => trivial) hvisit calls
      (fun _ => trivial) hex (⟨⟨reg, hreg⟩, rfl⟩ : I _ vm (0, s))
    rw [hok] at hrule
    obtain ⟨-, _, vm₁, base, ⟨⟨reg₁, hreg₁⟩, hpasses⟩, rfl⟩ := hrule
    exact ⟨⟨reg₁, hreg₁.congr rfl le_rfl⟩, hpasses⟩

lemma Steady.step {w : Beside κ ε σ} (hhook : Steady w) {cbs : Callbacks κ ε σ}
    {action : HookAction κ ε} {w' : Beside κ ε σ} (hrun : HookRun cbs w action w') : Steady w' := by
  obtain ⟨⟨reg, hreg⟩, hpasses⟩ := hhook
  cases action with
  | inject trap calls =>
    obtain ⟨status, vm, hok, rfl⟩ := hrun
    obtain ⟨status', vm', hok', haside, hreg'⟩ :=
      hreg.inject calls (rfl : { trap with addr := w.vm.brk }.addr = w.vm.brk)
    rw [hok] at hok'
    cases hok'
    refine ⟨⟨_, hreg'⟩, ?_⟩
    change ∀ addr pass, vm.passes addr = some pass → pass.traps = none
    rw [haside.passes]
    exact hpasses
  | event event =>
    obtain ⟨handled, vm, user, hok, rfl⟩ := hrun
    suffices hvm : (∃ reg', Registered vm reg') ∧
        ∀ addr pass, vm.passes addr = some pass → pass.traps = none by
      obtain ⟨⟨reg', hreg'⟩, hpasses'⟩ := hvm
      exact ⟨⟨reg', hreg'.congr rfl le_rfl⟩, hpasses'⟩
    cases event with
    | int3 event calls =>
      obtain ⟨hreg', hsame⟩ := int3Cb_registered hreg hok
      refine ⟨hreg', ?_⟩
      rw [hsame]
      exact hpasses
    | mem event =>
      cases hok
      obtain ⟨-, htm, hbrk, hnew⟩ := preMemCb_keeps w.vm event
      refine ⟨⟨reg, hreg.congr htm hbrk⟩, fun addr pass hpass => ?_⟩
      rcases hnew with hsame | hsame
      · rw [hsame] at hpass
        exact hpasses addr pass hpass
      · rw [hsame] at hpass
        by_cases haddr : addr = w.vm.brk
        · rw [haddr, Function.update_self, Option.some_inj] at hpass
          rw [← hpass]
          exact newPass_traps w.vm.tm event
        · rw [Function.update_of_ne haddr] at hpass
          exact hpasses addr pass hpass
    | step vcpuId calls =>
      obtain ⟨⟨handled', vm'⟩, hstep, hok⟩ := bind_eq_ok.mp hok
      cases hok
      obtain ⟨-, htm, hbrk, hsub⟩ := stepCb_keeps hpasses hstep
      exact ⟨⟨reg, hreg.congr htm hbrk.ge⟩, fun addr pass hpass =>
        hpasses addr pass (hsub addr pass hpass)⟩
  | guest pa b =>
    obtain rfl := hrun
    exact ⟨⟨reg, hreg.congr rfl le_rfl⟩, hpasses⟩

omit [DecidableEq κ] [DecidableEq ε] in
/-- A handler before its first trap. -/
lemma steady_tmInit {w : Beside κ ε σ} (htm : w.vm.tm = tmInit)
    (hpasses : ∀ addr, w.vm.passes addr = none) : Steady w := by
  refine ⟨⟨[], ?_, List.nodup_nil, by simp⟩, fun addr pass hpass => ?_⟩
  · rw [htm]
    exact indexed_tmInit
  · rw [hpasses] at hpass
    cases hpass

/-! ### Invariants of the pages -/

/-- What `A` says of the answers to all injections of an action. -/
def HookAction.Asks (A : InjectCalls → Prop) : HookAction κ ε → Prop
  | inject _ calls => A calls
  | event (.int3 _ calls) => ∀ i, A (calls.visit i).inject
  | _ => True

/-- A property of the pages that shadowing one frame keeps if its answers meet `A`. -/
structure PageInvariant (A : InjectCalls → Prop) (P : Vm κ ε → Prop) : Prop where
  same : ∀ vm vm', SamePages vm vm' → P vm → P vm'
  frame : ∀ vm calls frame, A calls → P vm → P (vm.shadowFrame calls frame)

section Invariant

variable {A : InjectCalls → Prop} {P : Vm κ ε → Prop}

omit [DecidableEq κ] [DecidableEq ε] in
lemma PageInvariant.inject (hinv : PageInvariant A P) {calls : InjectCalls} (hA : A calls) (h : P vm)
    {trap : Trap κ ε} {status : HfmStatus} (hok : injectTrap vm calls trap = .ok (status, vm')) :
    P vm' := by
  refine hinv.same _ _ (injectTrap_pages hok) ?_
  split
  · exact h
  · exact hinv.frame vm calls trap.gfn hA h

lemma PageInvariant.int3 (hinv : PageInvariant A P) (h : P vm) {reg : List (Trap κ ε)}
    (hreg : Registered vm reg) {cbs : Callbacks κ ε σ} {event : InterruptEvent} {calls : Int3Calls}
    {s s' : σ} {handled : Handled} (hok : int3Cb cbs event calls vm s = .ok (handled, vm', s'))
    (hcalls : ∀ i, A (calls.visit i).inject) : P vm' := by
  cases hex : tmTrapExist vm.tm event.pa with
  | false =>
    rw [int3Cb_of_not_trapExist hreg cbs calls s hex] at hok
    split at hok
    · cases hok
      exact h
    · cases hok
      exact hinv.same vm _ ⟨rfl, rfl, rfl, rfl, rfl⟩ h
  | true =>
    let I : List (Trap κ ε) → Vm κ ε → UInt64 × σ → Prop := fun _ vm _ => P vm
    have hvisit : ∀ trap queue (vm : Vm κ ε) (s : UInt64 × σ) (calls : VisitCalls),
        A calls.inject → I (trap :: queue) vm s →
        AfterVisit event (fun _ => True) I queue (visitTrap cbs event calls trap vm s) := by
      intro trap queue vm s calls hA hP
      cases hvisited : visitTrap cbs event calls trap vm s with
      | error fault => trivial
      | ok result =>
        change P result.1
        refine visitTrap_halves (fun extra status vm' hplant => ?_) hP (fun _ h => h)
          (fun vm vm' h hdestroy => hinv.same vm vm' (destroyTrap_pages hdestroy) h) hvisited
        have hbefore : P { vm with brk := vm.brk + 1 } :=
          hinv.same vm _ ⟨rfl, rfl, rfl, rfl, rfl⟩ hP
        exact hinv.inject hA hbefore hplant
    obtain ⟨doubletrap, -, hrule⟩ := int3Cb_rule hreg (fun _ _ _ => trivial) hvisit calls hcalls hex
      (h : I _ vm (0, s))
    rw [hok] at hrule
    obtain ⟨-, _, vm₁, base, hvm₁, rfl⟩ := hrule
    exact hinv.same vm₁ _ ⟨rfl, rfl, rfl, rfl, rfl⟩ hvm₁

/-- It holds after any action of a run. -/
lemma PageInvariant.step (hinv : PageInvariant A P) {cbs : Callbacks κ ε σ} {w w' : Beside κ ε σ}
    (h : P w.vm) (hhook : Steady w) {action : HookAction κ ε} (hrun : HookRun cbs w action w')
    (hasks : action.Asks A) : P w'.vm := by
  obtain ⟨⟨reg, hreg⟩, hpasses⟩ := hhook
  cases action with
  | inject trap calls =>
    obtain ⟨status, vm, hok, rfl⟩ := hrun
    have hbefore : P { w.vm with brk := w.vm.brk + 1 } :=
      hinv.same w.vm _ ⟨rfl, rfl, rfl, rfl, rfl⟩ h
    exact hinv.inject hasks hbefore hok
  | event event =>
    obtain ⟨handled, vm, user, hok, rfl⟩ := hrun
    suffices hvm : P vm from hinv.same vm _ ⟨rfl, rfl, rfl, rfl, rfl⟩ hvm
    cases event with
    | int3 event calls => exact hinv.int3 h hreg hok hasks
    | mem event =>
      cases hok
      obtain ⟨hmachine, htm, -⟩ := preMemCb_keeps w.vm event
      exact hinv.same w.vm _ (.of_eq htm hmachine) h
    | step vcpuId calls =>
      obtain ⟨⟨handled', vm'⟩, hstep, hok⟩ := bind_eq_ok.mp hok
      cases hok
      obtain ⟨hmachine, htm, -⟩ := stepCb_keeps hpasses hstep
      exact hinv.same w.vm _ (.of_eq htm hmachine) h
  | guest pa b =>
    obtain rfl := hrun
    exact hinv.same w.vm _ ⟨rfl, rfl, rfl, rfl, rfl⟩ h

end Invariant

end Hooks

end Hfm

import Hfm.HookRuns
import Hfm.InjectFailure

/-!
# The footprint in the memory of the guest

Which bytes the program may change while it injects and removes traps and serves events, whatever
its calls answer: those in frames that Xen handed out to it. A shadow page that could not be
created has the frame number 0, and the INT3 then goes to that frame.
-/

namespace Hfm

open Support

variable {κ ε σ : Type}

/-- All shadow frames were handed out by Xen. -/
def Placed (vm : Vm κ ε) : Prop :=
  ∀ g rm, tmFindRemapped vm.tm g = some rm → rm.r ≠ 0 ∧ rm.r ∈ vm.machine.reserved

/-- Frames that were handed out stay so; apart from them only the frames `S` may change. -/
structure Confined (S : Nat → Prop) (vm vm' : Vm κ ε) : Prop where
  placed : Placed vm'
  reserved : vm.machine.reserved <:+ vm'.machine.reserved
  mem : ∀ pa, ¬S (pa >>> PAGE_OFFSET_BITS) → pa >>> PAGE_OFFSET_BITS ∉ vm'.machine.reserved →
    vm'.machine.mem pa = vm.machine.mem pa

variable {S : Nat → Prop} {vm vm' : Vm κ ε}

lemma Placed.refl (h : Placed vm) (S : Nat → Prop) : Confined S vm vm :=
  ⟨h, List.suffix_refl _, fun _ _ _ => rfl⟩

lemma Confined.trans {vm'' : Vm κ ε} (h : Confined S vm vm') (h' : Confined S vm' vm'') :
    Confined S vm vm'' := by
  refine ⟨h'.placed, h.reserved.trans h'.reserved, fun pa hS hpa => ?_⟩
  have hpa' : pa >>> PAGE_OFFSET_BITS ∉ vm'.machine.reserved := fun hmem =>
    hpa (h'.reserved.subset hmem)
  exact (h'.mem pa hS hpa).trans (h.mem pa hS hpa')

/-- The tables and the memory may change in other respects. -/
lemma Confined.congr {vm₁ vm₁' : Vm κ ε} (h : Confined S vm vm')
    (hreserved : vm₁.machine.reserved = vm.machine.reserved)
    (hmem : vm₁.machine.mem = vm.machine.mem) (hfind : tmFindRemapped vm₁'.tm = tmFindRemapped vm'.tm)
    (hreserved' : vm₁'.machine.reserved = vm'.machine.reserved)
    (hmem' : vm₁'.machine.mem = vm'.machine.mem) : Confined S vm₁ vm₁' := by
  refine ⟨?_, ?_, ?_⟩
  · unfold Placed
    rw [hfind, hreserved']
    exact h.placed
  · rw [hreserved, hreserved']
    exact h.reserved
  · rw [hmem, hmem', hreserved']
    exact h.mem

/-- A byte of a shadow frame is written. -/
lemma Confined.write8 (h : Confined S vm vm') {r off : Nat} (hr : S r ∨ r ∈ vm'.machine.reserved)
    (hoff : off < PAGESIZE) (b : UInt8) :
    Confined S vm (vm'.setMachine (vm'.machine.write8 (pageAddr r off) b)) := by
  refine ⟨h.placed, h.reserved, fun pa hS hpa => ?_⟩
  have hne : pa ≠ pageAddr r off := by
    rintro rfl
    rw [pageAddr_shift hoff] at hS hpa
    exact hr.elim hS hpa
  exact (Function.update_of_ne hne _ _).trans (h.mem pa hS hpa)

/-! ### Injecting -/

lemma Machine.write_reserved (m : Machine) (pa : Nat) (buff : Nat → UInt8) (count : Nat) :
    (m.write pa buff count).reserved = m.reserved := rfl

lemma xenAllocShadowFrame_reserved (m : Machine) (calls : ShadowCalls) (size : UInt64) :
    m.reserved <:+ (xenAllocShadowFrame m calls size).2.reserved ∧
      ((xenAllocShadowFrame m calls size).1 ≠ 0 →
        (xenAllocShadowFrame m calls size).1 ∈ (xenAllocShadowFrame m calls size).2.reserved) := by
  unfold xenAllocShadowFrame
  split
  · exact ⟨List.suffix_refl _, fun h => absurd rfl h⟩
  · split
    · exact ⟨List.suffix_refl _, fun h => absurd rfl h⟩
    · dsimp only
      split
      · exact ⟨List.suffix_cons _ _, fun h => absurd rfl h⟩
      · exact ⟨List.suffix_cons _ _, fun _ => List.mem_cons_self⟩

/-- Whatever fails, the new page is in a frame that was handed out, or has the number 0. -/
lemma createShadowPage_confined (h : Placed vm) (S : Nat → Prop) (calls : ShadowCalls) (frame : Nat) :
    Confined S vm (createShadowPage vm calls frame).2 ∧ ((createShadowPage vm calls frame).1 ≠ 0 →
      (createShadowPage vm calls frame).1 ∈ (createShadowPage vm calls frame).2.machine.reserved) := by
  have hplaced : ∀ vm' : Vm κ ε, vm'.tm = vm.tm →
      vm.machine.reserved <:+ vm'.machine.reserved → Placed vm' := by
    intro vm' htm hreserved g rm hg
    rw [htm] at hg
    exact (h g rm hg).imp_right fun hmem => hreserved.subset hmem
  unfold createShadowPage
  dsimp only
  generalize vm.hdlr.memsize + 4096 = proposedMemsize
  have hmem := (xenAllocShadowFrame_machine vm.machine calls proposedMemsize.toUInt64).1
  have halloc := xenAllocShadowFrame_reserved vm.machine calls proposedMemsize.toUInt64
  generalize xenAllocShadowFrame vm.machine calls proposedMemsize.toUInt64 = alloc at hmem halloc ⊢
  obtain ⟨hreserved, hfirst⟩ := halloc
  have hkeep : ∀ pa, alloc.2.mem pa = vm.machine.mem pa := fun pa => congrFun hmem pa
  split
  · exact ⟨⟨hplaced _ rfl hreserved, hreserved, fun pa _ _ => hkeep pa⟩, fun hne => absurd rfl hne⟩
  · rename_i hne
    split
    · exact ⟨⟨hplaced _ rfl hreserved, hreserved, fun pa _ _ => hkeep pa⟩, fun hne => absurd rfl hne⟩
    · split
      · exact ⟨⟨hplaced _ rfl hreserved, hreserved, fun pa _ _ => hkeep pa⟩,
          fun hne => absurd rfl hne⟩
      · have hwritten : ∀ pa, pa >>> PAGE_OFFSET_BITS ∉ alloc.2.reserved → _ = vm.machine.mem pa :=
          fun pa hpa => (write_outside { alloc.2 with slat := Function.update alloc.2.slat frame alloc.1 }
            alloc.1 (fun i => alloc.2.mem (frame <<< PAGE_OFFSET_BITS + i))
            (Nat.min_le_right calls.writePa PAGESIZE)
            (fun heq => hpa (heq ▸ hfirst hne))).trans (hkeep pa)
        have hsame := Machine.write_reserved
          { alloc.2 with slat := Function.update alloc.2.slat frame alloc.1 }
          (alloc.1 <<< PAGE_OFFSET_BITS) (fun i => alloc.2.mem (frame <<< PAGE_OFFSET_BITS + i))
          (min calls.writePa PAGESIZE)
        generalize Machine.write { alloc.2 with slat := Function.update alloc.2.slat frame alloc.1 }
          (alloc.1 <<< PAGE_OFFSET_BITS) (fun i => alloc.2.mem (frame <<< PAGE_OFFSET_BITS + i))
          (min calls.writePa PAGESIZE) = m at hwritten hsame ⊢
        change m.reserved = alloc.2.reserved at hsame
        rw [← hsame] at hreserved hfirst hwritten
        split
        · exact ⟨⟨hplaced _ rfl hreserved, hreserved, fun pa _ hpa => hwritten pa hpa⟩,
            fun hne => absurd rfl hne⟩
        · exact ⟨⟨hplaced _ rfl hreserved, hreserved, fun pa _ hpa => hwritten pa hpa⟩,
            fun _ => hfirst hne⟩

lemma shadowOf_confined (h : Placed vm) (S : Nat → Prop) (calls : InjectCalls) (frame : Nat) :
    Confined S vm (shadowOf vm calls frame).2 ∧ ((shadowOf vm calls frame).1 = 0 ∨
      (shadowOf vm calls frame).1 ∈ (shadowOf vm calls frame).2.machine.reserved) := by
  unfold shadowOf
  cases hrm : tmFindRemapped vm.tm frame with
  | some rm => exact ⟨h.refl S, .inr (h frame rm hrm).2⟩
  | none =>
    obtain ⟨hconfined, hreserved⟩ := createShadowPage_confined h S calls.shadow frame
    dsimp only
    split
    · rename_i hne
      refine ⟨⟨fun g rm hg => ?_, hconfined.reserved, hconfined.mem⟩, .inr (hreserved hne)⟩
      rw [Vm.setTm_tm, tmFindRemapped_addRemapped] at hg
      split at hg
      · cases hg
        exact ⟨hne, hreserved hne⟩
      · exact hconfined.placed g rm hg
    · rename_i hzero
      exact ⟨hconfined, .inl (not_not.mp hzero)⟩

lemma protectFrame_reserved (vm : Vm κ ε) (calls : InjectCalls) (frame : Nat) :
    (protectFrame vm calls frame).machine.reserved = vm.machine.reserved := by
  unfold protectFrame
  cases tmFindMemtrap vm.tm frame with
  | none => cases calls.setMemEvent <;> rfl
  | some memw => cases calls.setMemEvent <;> rfl

/-- An injection writes to shadow frames only, or to the frame 0 where there is none. -/
lemma setInt3_confined (h : Placed vm) (calls : InjectCalls) {pa : Nat}
    (hS : S 0 ∨ (shadowOf vm calls (pa >>> PAGE_OFFSET_BITS)).1 ≠ 0) :
    Confined S vm (setInt3 vm calls pa).2 := by
  obtain ⟨hconfined, hr⟩ := shadowOf_confined h S calls (pa >>> PAGE_OFFSET_BITS)
  unfold setInt3
  dsimp only
  generalize shadowOf vm calls (pa >>> PAGE_OFFSET_BITS) = shadowed at hconfined hr hS ⊢
  obtain ⟨hmem, -, hfind, -⟩ := protectFrame_keeps shadowed.2 calls (pa >>> PAGE_OFFSET_BITS)
  have hreserved := protectFrame_reserved shadowed.2 calls (pa >>> PAGE_OFFSET_BITS)
  have hprot : Confined S vm (protectFrame shadowed.2 calls (pa >>> PAGE_OFFSET_BITS)) :=
    hconfined.congr rfl rfl hfind hreserved hmem
  split
  · exact hprot
  · split
    · exact hprot
    · split
      · exact hprot
      · refine hprot.write8 ?_ (mod_lt_pageSize pa) INT3_CHAR
        rw [hreserved]
        rcases hr with hzero | hmem
        · rw [hzero] at hS ⊢
          exact .inl (hS.resolve_right fun hne => hne rfl)
        · exact .inr hmem

/-- The page of a trap has a shadow page, or gets one. -/
def GetsShadow (vm : Vm κ ε) (calls : InjectCalls) (pa : Nat) : Prop :=
  tmTrapExist vm.tm pa = false → (shadowOf vm calls (pa >>> PAGE_OFFSET_BITS)).1 ≠ 0

lemma injectTrap_confined (h : Placed vm) {calls : InjectCalls} {trap : Trap κ ε} {status : HfmStatus}
    (hok : injectTrap vm calls trap = .ok (status, vm')) (hS : S 0 ∨ GetsShadow vm calls trap.pa) :
    Confined S vm vm' := by
  unfold injectTrap at hok
  cases hex : tmTrapExist vm.tm trap.pa with
  | true =>
    rw [hex, if_pos rfl] at hok
    cases hok
    exact (h.refl S).congr rfl rfl (tmFindRemapped_add vm.tm trap) rfl rfl
  | false =>
    rw [hex, if_neg (by simp)] at hok
    have hconfined := setInt3_confined h calls (hS.imp_right fun hshadow => hshadow hex)
    generalize setInt3 vm calls trap.pa = outcome at hok hconfined
    obtain ⟨doubletrap, vm₁⟩ := outcome
    cases doubletrap with
    | none =>
      cases hok
      exact hconfined
    | some doubletrap =>
      have hexist : tmTrapExist (tmAddInt3trap vm₁.tm trap) trap.pa = true := by simp
      dsimp only at hok
      rw [tmSetDoubletrap_eq hexist] at hok
      cases hok
      exact hconfined.congr rfl rfl (tmFindRemapped_add vm₁.tm trap) rfl rfl

/-- All calls for a new shadow page succeed. -/
def PageCreated (calls : InjectCalls) : Prop := ∃ r, calls.shadow.Succeed r

lemma getsShadow_of_created (h : Placed vm) {calls : InjectCalls} {pa : Nat}
    (hcalls : (tmFindRemapped vm.tm (pa >>> PAGE_OFFSET_BITS)).isSome = true ∨ PageCreated calls) :
    GetsShadow vm calls pa := by
  intro _
  unfold shadowOf
  cases hrm : tmFindRemapped vm.tm (pa >>> PAGE_OFFSET_BITS) with
  | some rm => exact (h _ rm hrm).1
  | none =>
    obtain ⟨r, hr⟩ := hcalls.resolve_left (by simp [hrm])
    change (createShadowPage vm calls.shadow (pa >>> PAGE_OFFSET_BITS)).1 ≠ 0
    rw [(createShadowPage_succeed vm hr _).1]
    exact hr.ne_zero

lemma Placed.same (h : Placed vm) (S : Nat → Prop) (htm : vm'.tm = vm.tm)
    (hmachine : vm'.machine = vm.machine) : Confined S vm vm' :=
  (h.refl S).congr rfl rfl (by rw [htm]) (by rw [hmachine]) (by rw [hmachine])

/-! ### Removing -/

section Hooks

variable [DecidableEq κ] [DecidableEq ε]

lemma destroyTrap_confined (h : Placed vm) (S : Nat → Prop) {calls : RemoveCalls} {trap : Trap κ ε}
    (hok : destroyTrap vm calls trap = .ok vm') : Confined S vm vm' := by
  have hfind := tmFindRemapped_remove vm.tm trap
  have hremoved : Confined S vm (vm.setTm (tmRemoveInt3trap vm.tm trap).2) :=
    (h.refl S).congr rfl rfl hfind rfl rfl
  unfold destroyTrap at hok
  dsimp only at hok
  split at hok
  · generalize vm.setTm (tmRemoveInt3trap vm.tm trap).2 = vm₁ at hok hremoved
    unfold removeInt3 at hok
    dsimp only at hok
    generalize (if calls.read8 = true then vm₁.machine.mem trap.pa else calls.backup) = backup at hok
    have hread : Confined S vm (if calls.read8 then vm₁ else vm₁.interrupt) := by
      split
      · exact hremoved
      · exact hremoved.congr rfl rfl rfl rfl rfl
    generalize (if calls.read8 = true then vm₁ else vm₁.interrupt) = vm₂ at hok hread
    cases hrm : tmFindRemapped vm₂.tm (trap.pa >>> PAGE_OFFSET_BITS) with
    | none =>
      rw [hrm] at hok
      cases hok
    | some rm =>
      rw [hrm] at hok
      dsimp only at hok
      split at hok
      · cases hok
        exact hread.write8 (.inr (hread.placed _ rm hrm).2) (mod_lt_pageSize trap.pa) backup
      · cases hok
        exact hread.congr rfl rfl rfl rfl rfl
  · cases hok
    exact hremoved

lemma visitTrap_confined (h : Placed vm) {cbs : Callbacks κ ε σ} {event : InterruptEvent}
    {calls : VisitCalls} {trap : Trap κ ε} {s s' : UInt64 × σ} {planted : Option (Trap κ ε)}
    (hok : visitTrap cbs event calls trap vm s = .ok (vm', s', planted))
    (hS : S 0 ∨ PageCreated calls.inject) : Confined S vm vm' := by
  refine visitTrap_halves (P := Confined S vm) (fun extra status vm₁ hplant => ?_) (h.refl S)
    (fun _ h => h) (fun vm₁ vm₂ h₁ hdestroy => ?_) hok
  · have hplaced : Placed { vm with brk := vm.brk + 1 } := h
    have hshadow := hS.imp_right fun hcreated =>
      (getsShadow_of_created hplaced (.inr hcreated) :
        GetsShadow _ calls.inject (returnTrap vm calls trap extra).pa)
    exact (injectTrap_confined hplaced hplant hshadow).congr rfl rfl rfl rfl rfl
  · exact h₁.trans (destroyTrap_confined h₁.placed S hdestroy)

lemma int3Cb_confined (h : Placed vm) {reg : List (Trap κ ε)} (hreg : Registered vm reg)
    {cbs : Callbacks κ ε σ} {event : InterruptEvent} {calls : Int3Calls} {s s' : σ}
    {handled : Handled} (hok : int3Cb cbs event calls vm s = .ok (handled, vm', s'))
    (hS : S 0 ∨ ∀ i, PageCreated (calls.visit i).inject) : Confined S vm vm' := by
  cases hex : tmTrapExist vm.tm event.pa with
  | false =>
    rw [int3Cb_of_not_trapExist hreg cbs calls s hex] at hok
    split at hok
    · cases hok
      exact h.refl S
    · cases hok
      exact (h.refl S).congr rfl rfl rfl rfl rfl
  | true =>
    let I : List (Trap κ ε) → Vm κ ε → UInt64 × σ → Prop := fun _ vm' _ => Confined S vm vm'
    have hvisit : ∀ trap queue vm' s (calls : VisitCalls), (S 0 ∨ PageCreated calls.inject) →
        I (trap :: queue) vm' s →
        AfterVisit event (fun _ => True) I queue (visitTrap cbs event calls trap vm' s) := by
      intro trap queue vm₁ s₁ calls hcalls hconfined
      cases hvisited : visitTrap cbs event calls trap vm₁ s₁ with
      | error fault => trivial
      | ok result =>
        exact Confined.trans hconfined (visitTrap_confined hconfined.placed hvisited hcalls)
    have hA : ∀ i, S 0 ∨ PageCreated (calls.visit i).inject := fun i => hS.imp_right fun h => h i
    obtain ⟨doubletrap, -, hrule⟩ := int3Cb_rule hreg (fun _ _ _ => trivial) hvisit calls hA hex
      (h.refl S : I _ vm (0, s))
    rw [hok] at hrule
    obtain ⟨-, _, vm₁, base, hconfined, rfl⟩ := hrule
    exact Confined.congr hconfined rfl rfl rfl rfl rfl

/-! ### Runs -/

/-- A page that gets a trap has a shadow page, or gets one. -/
def HookAction.Creates (vm : Vm κ ε) : HookAction κ ε → Prop
  | .inject trap calls => (tmFindRemapped vm.tm trap.gfn).isSome = true ∨ PageCreated calls
  | .event (.int3 _ calls) => ∀ i, PageCreated (calls.visit i).inject
  | _ => True

/-- Outside of the frames that were handed out, and of the frames `S`, the memory is as the
guest alone leaves it. -/
structure Untainted (S : Nat → Prop) (w : Beside κ ε σ) : Prop where
  placed : Placed w.vm
  mem : ∀ pa, ¬S (pa >>> PAGE_OFFSET_BITS) →
    pa >>> PAGE_OFFSET_BITS ∉ w.vm.machine.reserved → w.vm.machine.mem pa = w.mem pa

omit [DecidableEq κ] [DecidableEq ε] in
lemma Untainted.step {w : Beside κ ε σ} (h : Untainted S w) {vm : Vm κ ε}
    (hvm : Confined S w.vm vm) (user : σ) : Untainted S ⟨vm, user, w.mem⟩ := by
  refine ⟨hvm.placed, fun pa hS hpa => (hvm.mem pa hS hpa).trans (h.mem pa hS fun hmem => ?_)⟩
  exact hpa (hvm.reserved.subset hmem)

lemma Untainted.hook {w w' : Beside κ ε σ} (h : Untainted S w) (hhook : Steady w)
    {cbs : Callbacks κ ε σ} {action : HookAction κ ε} (hrun : HookRun cbs w action w')
    (hS : S 0 ∨ action.Creates w.vm) : Untainted S w' := by
  have hplaced := h.placed
  obtain ⟨⟨reg, hreg⟩, hpasses⟩ := hhook
  cases action with
  | inject trap calls =>
    obtain ⟨status, vm, hok, rfl⟩ := hrun
    have hbefore : Placed { w.vm with brk := w.vm.brk + 1 } := hplaced
    have hshadow := hS.imp_right fun h =>
      (getsShadow_of_created hbefore h : GetsShadow _ calls trap.pa)
    exact h.step ((injectTrap_confined hbefore hok hshadow).congr rfl rfl rfl rfl rfl) w.user
  | event event =>
    obtain ⟨handled, vm, user, hok, rfl⟩ := hrun
    suffices hvm : Confined S w.vm vm by
      have hresponded : Confined S w.vm (vm.respond event.vcpuId handled) :=
        hvm.congr rfl rfl rfl rfl rfl
      exact h.step hresponded user
    cases event with
    | int3 event calls => exact int3Cb_confined hplaced hreg hok hS
    | mem event =>
      cases hok
      obtain ⟨hmachine, htm, -⟩ := preMemCb_keeps w.vm event
      exact hplaced.same S htm hmachine
    | step vcpuId calls =>
      obtain ⟨⟨handled', vm'⟩, hstep, hok⟩ := bind_eq_ok.mp hok
      cases hok
      obtain ⟨hmachine, htm, -⟩ := stepCb_keeps hpasses hstep
      exact hplaced.same S htm hmachine
  | guest pa b =>
    obtain rfl := hrun
    refine ⟨h.placed, fun a hS' ha => ?_⟩
    change Function.update w.vm.machine.mem pa b a = Function.update w.mem pa b a
    by_cases hpa : a = pa
    · rw [hpa, Function.update_self, Function.update_self]
    · rw [Function.update_of_ne hpa, Function.update_of_ne hpa]
      exact h.mem a hS' ha

omit [DecidableEq κ] [DecidableEq ε] in
lemma untainted_tmInit {w : Beside κ ε σ} (htm : w.vm.tm = tmInit)
    (hmem : w.mem = w.vm.machine.mem) : Untainted S w := by
  refine ⟨fun g rm hg => ?_, fun pa _ _ => by rw [hmem]⟩
  rw [htm] at hg
  cases hg

/-- Whatever the calls answer and whatever happens in between, the program changes no byte
outside of the frames that Xen handed out to it, but for the frame 0; nor that one, as long as
every shadow page asked for is created. -/
theorem guest_memory_untainted (cbs : Callbacks κ ε σ) {w₀ : Beside κ ε σ}
    (htm : w₀.vm.tm = tmInit) (hpasses : ∀ addr, w₀.vm.passes addr = none)
    (hmem : w₀.mem = w₀.vm.machine.mem) {tr : List (HookAction κ ε × Beside κ ε σ)}
    (hrun : IsRun (HookRun cbs) w₀ tr) :
    Always (Untainted (· = 0)) w₀ tr ∧
      (Meets (fun w action => action.Creates w.vm) w₀ tr →
        Always (Untainted fun _ => False) w₀ tr) := by
  have hhook := steady_tmInit htm hpasses
  constructor
  · have hstep : ∀ w action w', Steady w ∧ Untainted (· = 0) w → HookRun cbs w action w' →
        Steady w' ∧ Untainted (· = 0) w' :=
      fun w action w' ⟨hsteady, h⟩ hw => ⟨hsteady.step hw, h.hook hsteady hw (.inl rfl)⟩
    exact (hrun.always hstep ⟨hhook, untainted_tmInit htm hmem⟩).mono fun _ h => h.2
  · intro hcreates
    have hstep : ∀ w action w', Steady w ∧ Untainted (fun _ => False) w →
        action.Creates w.vm ∧ HookRun cbs w action w' →
        Steady w' ∧ Untainted (fun _ => False) w' :=
      fun w action w' ⟨hsteady, h⟩ ⟨hcreated, hw⟩ =>
        ⟨hsteady.step hw, h.hook hsteady hw (.inr hcreated)⟩
    exact ((hrun.meets hcreates).always hstep ⟨hhook, untainted_tmInit htm hmem⟩).mono
      fun _ h => h.2

end Hooks

/-- A trap gets its shadow page, and then the guest writes an INT3 of its own. -/
theorem guest_memory_untainted_oneTrap :
    let w : Beside Unit Unit Unit := ⟨oneTrapVm, (), fun _ => 0x90⟩
    let tr : List (HookAction Unit Unit × Beside Unit Unit Unit) :=
      [(.inject ⟨0, [], none, none, 0x1005, true, none⟩ (.succeeding 0x500), w),
        (.guest 0x1010 INT3_CHAR, ⟨w.vm.setMachine (w.vm.machine.write8 0x1010 INT3_CHAR), (),
          Function.update w.mem 0x1010 INT3_CHAR⟩)]
    Always (Untainted fun _ => False) ⟨Vm.start fun _ => 0x90, (), fun _ => 0x90⟩ tr := by
  intro w tr
  let cbs : Callbacks Unit Unit Unit := fun _ _ _ _ s => (none, s)
  have hrun : IsRun (HookRun cbs) ⟨Vm.start fun _ => 0x90, (), fun _ => 0x90⟩ tr :=
    ⟨⟨.success, oneTrapVm, oneTrap_run.2, rfl⟩, rfl, trivial⟩
  apply (guest_memory_untainted cbs rfl (fun _ => rfl) rfl hrun).2
  exact ⟨.inr ⟨0x500, (InjectCalls.succeeding_succeed (by decide)).shadow⟩, trivial, trivial⟩

end Hfm

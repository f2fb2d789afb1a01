import Hfm.TrapRuns

/-!
# The view switching protocol

Each vCPU is in the altp2m view, or steps one instruction in the original view. The protocol
is stated on its own, and then the event handlers follow it.
-/

namespace Hfm

open Support

/-! ### The protocol -/

/-- A vCPU that steps may have a pass record to hand over. -/
inductive Phase where
  | watched
  | stepping (pass : Option Nat)
  deriving DecidableEq

def Phase.vcpu (altp2mIdx : UInt16) : Phase → Vcpu
  | watched => ⟨altp2mIdx, false⟩
  | stepping _ => ⟨ORIGIN_IDX, true⟩

def Phase.stepEvent : Phase → StepEvent
  | stepping (some addr) => ⟨.postMemCb, .pass addr⟩
  | _ => ⟨.singlestepCb, .handler⟩

/-- Where each vCPU is, the record its last memory access allocated, how often it was
stopped and has stepped; and the records allocated and freed. -/
structure Protocol where
  phase : Fin 16 → Phase
  lastPass : Fin 16 → Option Nat
  stopped : Fin 16 → Nat
  stepped : Fin 16 → Nat
  allocated : List Nat
  freed : List Nat

namespace Protocol

def start : Protocol := ⟨fun _ => .watched, fun _ => none, fun _ => 0, fun _ => 0, [], []⟩

/-- The vCPU goes to the original view. -/
def stop (p : Protocol) (v : Fin 16) (pass : Option Nat) : Protocol :=
  { p with
    phase := Function.update p.phase v (.stepping pass)
    stopped := Function.update p.stopped v (p.stopped v + 1)
    allocated := pass.toList ++ p.allocated }

/-- The vCPU comes back; its record is freed. -/
def resume (p : Protocol) (v : Fin 16) : Protocol :=
  match p.phase v with
  | .watched => p
  | .stepping pass =>
    { p with
      phase := Function.update p.phase v .watched
      stepped := Function.update p.stepped v (p.stepped v + 1)
      freed := pass.toList ++ p.freed }

/-- Every record is held by one vCPU that steps, and freed once when that comes back. -/
structure Inv (p : Protocol) : Prop where
  allocated : p.allocated.Nodup
  freed : p.freed.Nodup
  sub : ∀ addr ∈ p.freed, addr ∈ p.allocated
  live : ∀ addr ∈ p.allocated, addr ∉ p.freed ↔ ∃ v, p.phase v = .stepping (some addr)
  held : ∀ v addr, p.phase v = .stepping (some addr) → addr ∈ p.allocated
  inj : ∀ v v' addr, p.phase v = .stepping (some addr) → p.phase v' = .stepping (some addr) → v = v'
  last : ∀ v addr, p.phase v = .stepping (some addr) → p.lastPass v = some addr
  once : ∀ v, p.stopped v = p.stepped v + if p.phase v = .watched then 0 else 1

lemma inv_start : start.Inv := by
  refine ⟨List.nodup_nil, List.nodup_nil, ?_, ?_, ?_, ?_, ?_, fun v => rfl⟩
  · simp [start]
  · simp [start]
  · intro v addr h
    cases h
  · intro v v' addr h
    cases h
  · intro v addr h
    cases h

/-- A memory access is recorded while its vCPU does not hold a record. -/
lemma Inv.record {p : Protocol} (h : p.Inv) {v : Fin 16} (hv : p.phase v = .watched)
    (pass : Option Nat) : { p with lastPass := Function.update p.lastPass v pass }.Inv := by
  refine ⟨h.allocated, h.freed, h.sub, h.live, h.held, h.inj, fun u addr hu => ?_, h.once⟩
  have hne : u ≠ v := by
    rintro rfl
    rw [hv] at hu
    cases hu
  exact (Function.update_of_ne hne _ _).trans (h.last u addr hu)

lemma Inv.stop {p : Protocol} (h : p.Inv) {v : Fin 16} (hv : p.phase v = .watched)
    {pass : Option Nat} (hnew : ∀ addr ∈ pass, addr ∉ p.allocated ∧ p.lastPass v = some addr) :
    (p.stop v pass).Inv := by
  have hphase : ∀ u addr, (p.stop v pass).phase u = .stepping (some addr) ↔
      u = v ∧ pass = some addr ∨ p.phase u = .stepping (some addr) := by
    intro u addr
    by_cases hu : u = v
    · subst hu
      simp [Protocol.stop, hv]
    · simp [Protocol.stop, hu]
  have hmem : ∀ addr, addr ∈ (p.stop v pass).allocated ↔ pass = some addr ∨ addr ∈ p.allocated := by
    intro addr
    simp [Protocol.stop]
  refine ⟨?allocated, h.freed, ?sub, ?live, ?held, ?inj, ?last, ?once⟩
  case allocated =>
    cases pass with
    | none => exact h.allocated
    | some addr => exact List.nodup_cons.mpr ⟨(hnew addr rfl).1, h.allocated⟩
  case sub =>
    intro addr haddr
    rw [hmem]
    exact .inr (h.sub addr haddr)
  case live =>
    intro addr haddr
    change addr ∉ p.freed ↔ _
    simp only [hphase, exists_or, exists_eq_left]
    rw [hmem] at haddr
    rcases haddr with rfl | haddr
    · have hfresh : addr ∉ p.freed := fun hfreed => (hnew addr rfl).1 (h.sub addr hfreed)
      simpa using hfresh
    · have hne : pass ≠ some addr := by
        rintro rfl
        exact (hnew addr rfl).1 haddr
      simpa [hne] using h.live addr haddr
  case held =>
    intro u addr hu
    rw [hmem]
    rcases (hphase u addr).mp hu with ⟨-, hpass⟩ | hu
    · exact .inl hpass
    · exact .inr (h.held u addr hu)
  case inj =>
    intro u u' addr hu hu'
    rw [hphase] at hu hu'
    rcases hu with ⟨rfl, hpass⟩ | hu
    · rcases hu' with ⟨rfl, -⟩ | hu'
      · rfl
      · exact absurd (h.held u' addr hu') (hnew addr hpass).1
    · rcases hu' with ⟨rfl, hpass⟩ | hu'
      · exact absurd (h.held u addr hu) (hnew addr hpass).1
      · exact h.inj u u' addr hu hu'
  case last =>
    intro u addr hu
    rcases (hphase u addr).mp hu with ⟨rfl, hpass⟩ | hu
    · exact (hnew addr hpass).2
    · exact h.last u addr hu
  case once =>
    intro u
    have honce := h.once u
    by_cases hu : u = v
    · subst hu
      simp_all [Protocol.stop]
    · simpa [Protocol.stop, hu] using honce

lemma resume_phase (p : Protocol) (v : Fin 16) : (p.resume v).phase v = .watched := by
  unfold Protocol.resume
  cases hv : p.phase v with
  | watched => exact hv
  | stepping pass => exact Function.update_self _ _ _

lemma Inv.resume {p : Protocol} (h : p.Inv) (v : Fin 16) : (p.resume v).Inv := by
  unfold Protocol.resume
  cases hv : p.phase v with
  | watched => exact h
  | stepping pass =>
    have hphase : ∀ u addr, Function.update p.phase v .watched u = .stepping (some addr) ↔
        u ≠ v ∧ p.phase u = .stepping (some addr) := by
      intro u addr
      by_cases hu : u = v
      · simp [hu]
      · simp [hu]
    have hheld : ∀ addr, pass = some addr → p.phase v = .stepping (some addr) := by
      rintro addr rfl
      exact hv
    refine ⟨h.allocated, ?freed, ?sub, ?live, ?held, ?inj, ?last, ?once⟩
    case freed =>
      cases pass with
      | none => exact h.freed
      | some addr =>
        have hfresh := (h.live addr (h.held v addr hv)).mpr ⟨v, hv⟩
        exact List.nodup_cons.mpr ⟨hfresh, h.freed⟩
    case sub =>
      intro addr haddr
      rcases List.mem_append.mp haddr with haddr | haddr
      · exact h.held v addr (hheld addr (by simpa using haddr))
      · exact h.sub addr haddr
    case live =>
      intro addr haddr
      have hlive := h.live addr haddr
      simp only [hphase, List.mem_append, Option.mem_toList, not_or, hlive]
      constructor
      · rintro ⟨hne, u, hu⟩
        refine ⟨u, ?_, hu⟩
        rintro rfl
        rw [hv] at hu
        cases hu
        exact hne rfl
      · rintro ⟨u, hne, hu⟩
        exact ⟨fun hpass => hne (h.inj u v addr hu (hheld addr hpass)), u, hu⟩
    case held => exact fun u addr hu => h.held u addr ((hphase u addr).mp hu).2
    case inj =>
      intro u u' addr hu hu'
      exact h.inj u u' addr ((hphase u addr).mp hu).2 ((hphase u' addr).mp hu').2
    case last => exact fun u addr hu => h.last u addr ((hphase u addr).mp hu).2
    case once =>
      intro u
      have honce := h.once u
      by_cases hu : u = v
      · subst hu
        simp_all
      · simpa [hu] using honce

end Protocol

/-! ### Events -/

inductive VmEvent where
  | int3 (event : InterruptEvent) (calls : Int3Calls)
  | mem (event : MemEvent)
  | step (vcpuId : Fin 16) (calls : RecopyCalls)

def VmEvent.vcpuId : VmEvent → Fin 16
  | int3 event _ => event.vcpuId
  | mem event => event.vcpuId
  | step vcpuId _ => vcpuId

variable {κ ε σ : Type}

/-- A breakpoint or a memory access is trapped only in the altp2m view, and a step is
reported only while stepping is on. -/
def VmEvent.Delivered (vm : Vm κ ε) : VmEvent → Prop
  | int3 event _ => tmTrapExist vm.tm event.pa = true →
      (vm.machine.vcpu event.vcpuId).slatId = vm.hdlr.altp2mIdx
  | mem event => (vm.machine.vcpu event.vcpuId).slatId = vm.hdlr.altp2mIdx
  | step vcpuId _ => (vm.machine.vcpu vcpuId).singlestep = true

/-- What an event does to the protocol. -/
def Protocol.next (p : Protocol) (vm : Vm κ ε) : VmEvent → Protocol
  | .int3 event _ => if tmTrapExist vm.tm event.pa then p.stop event.vcpuId none else p
  | .mem event =>
    let pass := if (tmFindMemtrap vm.tm event.gfn).isSome then some vm.brk else none
    let p := { p with lastPass := Function.update p.lastPass event.vcpuId pass }
    if pass.isSome then p.stop event.vcpuId pass else p
  | .step vcpuId _ => p.resume vcpuId

/-- A VM with the state of the callbacks, and the protocol it is to follow. -/
structure Watched (κ ε σ : Type) where
  vm : Vm κ ε
  user : σ
  protocol : Protocol

/-! ### Following the protocol -/

/-- The vCPUs, their step events and the records are as the protocol has them. -/
structure Follows (w : Watched κ ε σ) : Prop where
  altp2m : w.vm.hdlr.altp2mIdx ≠ ORIGIN_IDX
  registered : ∃ reg, Registered w.vm reg
  vcpu : ∀ v, w.vm.machine.vcpu v = (w.protocol.phase v).vcpu w.vm.hdlr.altp2mIdx
  stepEvent : ∀ v, w.vm.hdlr.stepEvent v = (w.protocol.phase v).stepEvent
  passes : ∀ v addr, w.protocol.phase v = .stepping (some addr) →
    ∃ pass, w.vm.passes addr = some pass ∧ pass.traps = none
  freed : w.vm.freed = w.protocol.freed
  brk : ∀ addr ∈ w.protocol.allocated, addr < w.vm.brk
  inv : w.protocol.Inv

lemma respond_none (vm : Vm κ ε) (vcpuId : Fin 16) {handled : Handled} (h : handled.rsp = .none) :
    (vm.respond vcpuId handled).machine.vcpu = vm.machine.vcpu := by
  funext u
  by_cases hu : u = vcpuId
  · subst hu
    simp [Vm.respond, Machine.respond, h, EventResponse.none]
  · simp [Vm.respond, Machine.respond, hu]

lemma respond_switch (vm : Vm κ ε) (vcpuId : Fin 16) (slatId : UInt16) (reinject : Option Bool) :
    (vm.respond vcpuId ⟨.switch, slatId, reinject⟩).machine.vcpu = Function.update vm.machine.vcpu
      vcpuId ⟨slatId, !(vm.machine.vcpu vcpuId).singlestep⟩ := by
  simp [Vm.respond, Machine.respond, EventResponse.switch]

/-- A vCPU in the altp2m view does not step. -/
lemma Follows.watched {w : Watched κ ε σ} (h : Follows w) {v : Fin 16}
    (hv : (w.vm.machine.vcpu v).slatId = w.vm.hdlr.altp2mIdx) : w.protocol.phase v = .watched := by
  cases hphase : w.protocol.phase v with
  | watched => rfl
  | stepping pass =>
    rw [h.vcpu, hphase] at hv
    exact absurd hv.symm h.altp2m

lemma Follows.record {w : Watched κ ε σ} (h : Follows w) {v : Fin 16}
    (hv : w.protocol.phase v = .watched) (pass : Option Nat) :
    Follows { w with protocol :=
      { w.protocol with lastPass := Function.update w.protocol.lastPass v pass } } :=
  ⟨h.altp2m, h.registered, h.vcpu, h.stepEvent, h.passes, h.freed, h.brk, h.inv.record hv pass⟩

/-- Events that answer nothing. -/
lemma Follows.ignore {w : Watched κ ε σ} (h : Follows w) (v : Fin 16) {handled : Handled}
    (hrsp : handled.rsp = .none) (s : σ) : Follows ⟨w.vm.respond v handled, s, w.protocol⟩ := by
  obtain ⟨reg, hreg⟩ := h.registered
  refine ⟨h.altp2m, ⟨reg, hreg.congr rfl (Nat.le_refl _)⟩, fun u => ?_, h.stepEvent, h.passes,
    h.freed, h.brk, h.inv⟩
  dsimp only
  rw [respond_none w.vm v hrsp]
  exact h.vcpu u

lemma Follows.interrupt {w : Watched κ ε σ} (h : Follows w) :
    Follows { w with vm := w.vm.interrupt } := by
  obtain ⟨reg, hreg⟩ := h.registered
  exact ⟨h.altp2m, ⟨reg, hreg.congr rfl (Nat.le_refl _)⟩, h.vcpu, h.stepEvent, h.passes, h.freed,
    h.brk, h.inv⟩

/-- A handler stops a vCPU: it leaves the other vCPUs and their records alone. -/
lemma Follows.stop {w : Watched κ ε σ} (h : Follows w) {v : Fin 16} {pass : Option Nat}
    (hv : w.protocol.phase v = .watched)
    (hnew : ∀ addr ∈ pass, addr ∉ w.protocol.allocated ∧ w.protocol.lastPass v = some addr)
    {vm : Vm κ ε} (hreg : ∃ reg, Registered vm reg)
    (hidx : vm.hdlr.altp2mIdx = w.vm.hdlr.altp2mIdx)
    (hvcpu : vm.machine.vcpu = w.vm.machine.vcpu)
    (hstep : vm.hdlr.stepEvent =
      Function.update w.vm.hdlr.stepEvent v (Phase.stepping pass).stepEvent)
    (hpasses : ∀ addr ∈ w.protocol.allocated, vm.passes addr = w.vm.passes addr)
    (hpass : ∀ addr, pass = some addr → ∃ r, vm.passes addr = some r ∧ r.traps = none)
    (hfreed : vm.freed = w.vm.freed) (hbrk : w.vm.brk ≤ vm.brk)
    (hpassBrk : ∀ addr ∈ pass, addr < vm.brk) (reinject : Option Bool) (s : σ) :
    Follows ⟨vm.respond v ⟨.switch, ORIGIN_IDX, reinject⟩, s, w.protocol.stop v pass⟩ := by
  obtain ⟨reg, hreg⟩ := hreg
  refine ⟨?altp2m, ⟨reg, hreg.congr rfl (Nat.le_refl _)⟩, ?vcpu, ?stepEvent, ?passes, ?freed, ?brk,
    h.inv.stop hv hnew⟩
  case altp2m =>
    change vm.hdlr.altp2mIdx ≠ ORIGIN_IDX
    rw [hidx]
    exact h.altp2m
  case vcpu =>
    intro u
    dsimp only
    rw [respond_switch, hvcpu]
    by_cases hu : u = v
    · subst hu
      rw [Function.update_self, h.vcpu, hv]
      simp [Protocol.stop, Phase.vcpu]
    · rw [Function.update_of_ne hu, h.vcpu]
      simp only [Protocol.stop, Function.update_of_ne hu]
      rw [← hidx]
      rfl
  case stepEvent =>
    intro u
    change vm.hdlr.stepEvent u = _
    rw [hstep]
    by_cases hu : u = v
    · subst hu
      simp [Protocol.stop]
    · simp only [Protocol.stop, Function.update_of_ne hu]
      exact h.stepEvent u
  case passes =>
    intro u addr hu
    change ∃ r, vm.passes addr = some r ∧ r.traps = none
    by_cases huv : u = v
    · subst huv
      simp only [Protocol.stop, Function.update_self, Phase.stepping.injEq] at hu
      exact hpass addr hu
    · simp only [Protocol.stop, Function.update_of_ne huv] at hu
      rw [hpasses addr (h.inv.held u addr hu)]
      exact h.passes u addr hu
  case freed => exact hfreed.trans h.freed
  case brk =>
    intro addr haddr
    rcases List.mem_append.mp haddr with haddr | haddr
    · exact hpassBrk addr (Option.mem_toList.mp haddr)
    · exact Nat.lt_of_lt_of_le (h.brk addr haddr) hbrk

lemma Follows.mem {w : Watched κ ε σ} (h : Follows w) {event : MemEvent}
    (hd : (w.vm.machine.vcpu event.vcpuId).slatId = w.vm.hdlr.altp2mIdx) (s : σ) :
    Follows ⟨(preMemCb event w.vm).2.respond event.vcpuId (preMemCb event w.vm).1, s,
      w.protocol.next w.vm (.mem event)⟩ := by
  have hv := h.watched hd
  unfold Protocol.next
  cases hw : (tmFindMemtrap w.vm.tm event.gfn).isSome with
  | false =>
    have hnone : tmFindMemtrap w.vm.tm event.gfn = none := by simpa using hw
    unfold preMemCb
    simp only [hnone, Bool.false_eq_true, if_false, Option.isSome_none]
    exact (h.record hv none).ignore event.vcpuId rfl s
  | true =>
    rw [preMemCb_of_memtrap hw]
    simp only [hw, if_true, Option.isSome_some]
    obtain ⟨reg, hreg⟩ := h.registered
    have hfresh : w.vm.brk ∉ w.protocol.allocated :=
      fun hmem => Nat.lt_irrefl _ (h.brk _ hmem)
    apply (h.record hv (some w.vm.brk)).stop hv
    case hnew =>
      intro addr haddr
      obtain rfl := Option.mem_some.mp haddr
      exact ⟨hfresh, Function.update_self _ _ _⟩
    case hreg => exact ⟨reg, hreg.congr rfl (Nat.le_succ _)⟩
    case hidx => rfl
    case hvcpu => rfl
    case hstep => rfl
    case hpasses =>
      intro addr haddr
      apply Function.update_of_ne
      rintro rfl
      exact hfresh haddr
    case hpass =>
      intro addr haddr
      cases haddr
      exact ⟨_, Function.update_self _ _ _, newPass_traps _ _⟩
    case hfreed => rfl
    case hbrk => exact Nat.le_succ _
    case hpassBrk =>
      intro addr haddr
      obtain rfl := Option.mem_some.mp haddr
      exact Nat.lt_succ_self _

/-- What the handler of a single step does, by the phase of the vCPU. -/
lemma Follows.stepCb_eq {w : Watched κ ε σ} (h : Follows w) {v : Fin 16} {pass : Option Nat}
    (hphase : w.protocol.phase v = .stepping pass) (calls : RecopyCalls) :
    ∃ vm, stepCb v calls w.vm = .ok (⟨.switch, w.vm.hdlr.altp2mIdx, none⟩, vm) ∧
      vm.hdlr.altp2mIdx = w.vm.hdlr.altp2mIdx ∧ vm.tm = w.vm.tm ∧ vm.brk = w.vm.brk ∧
      vm.machine.vcpu = w.vm.machine.vcpu ∧
      vm.hdlr.stepEvent =
        Function.update w.vm.hdlr.stepEvent v ⟨.singlestepCb, .handler⟩ ∧
      (∀ addr, pass ≠ some addr → vm.passes addr = w.vm.passes addr) ∧
      vm.freed = pass.toList ++ w.vm.freed := by
  have hev := h.stepEvent v
  rw [hphase] at hev
  unfold stepCb
  rw [hev]
  cases pass with
  | none =>
    refine ⟨w.vm, rfl, rfl, rfl, rfl, rfl, ?_, fun _ _ => rfl, rfl⟩
    exact (Function.update_eq_self_iff.mpr hev.symm).symm
  | some addr =>
    obtain ⟨r, hr, htraps⟩ := h.passes v addr hphase
    refine ⟨_, postMemCb_of_traps_none hr htraps v calls, rfl, rfl, rfl, rfl, rfl, ?_, rfl⟩
    intro a ha
    apply Function.update_of_ne
    rintro rfl
    exact ha rfl

/-- The next single step brings a vCPU back. -/
lemma Follows.step {w : Watched κ ε σ} (h : Follows w) {v : Fin 16}
    (hd : (w.vm.machine.vcpu v).singlestep = true) (calls : RecopyCalls) (s : σ) :
    ∃ vm, stepCb v calls w.vm = .ok (⟨.switch, w.vm.hdlr.altp2mIdx, none⟩, vm) ∧
      vm.hdlr.altp2mIdx = w.vm.hdlr.altp2mIdx ∧
      Follows ⟨vm.respond v ⟨.switch, w.vm.hdlr.altp2mIdx, none⟩, s, w.protocol.resume v⟩ := by
  cases hphase : w.protocol.phase v with
  | watched =>
    rw [h.vcpu, hphase] at hd
    cases hd
  | stepping pass =>
    obtain ⟨vm, hok, hidx, htm, hbrk, hvcpu, hstep, hpasses, hfreed⟩ := h.stepCb_eq hphase calls
    obtain ⟨reg, hreg⟩ := h.registered
    have hinv := h.inv.resume v
    refine ⟨vm, hok, hidx, ?_⟩
    unfold Protocol.resume at hinv ⊢
    rw [hphase] at hinv ⊢
    refine ⟨?altp2m, ⟨reg, hreg.congr htm (Nat.le_of_eq hbrk.symm)⟩, ?vcpu, ?stepEvent, ?passes, ?freed, ?brk, hinv⟩
    case altp2m =>
      change vm.hdlr.altp2mIdx ≠ ORIGIN_IDX
      rw [hidx]
      exact h.altp2m
    case vcpu =>
      intro u
      dsimp only
      rw [respond_switch, hvcpu]
      by_cases hu : u = v
      · subst hu
        rw [Function.update_self, Function.update_self, hd]
        exact congrArg (Vcpu.mk · false) hidx.symm
      · rw [Function.update_of_ne hu, Function.update_of_ne hu, h.vcpu, ← hidx]
        rfl
    case stepEvent =>
      intro u
      change vm.hdlr.stepEvent u = (Function.update w.protocol.phase v .watched u).stepEvent
      rw [hstep]
      by_cases hu : u = v
      · subst hu
        rw [Function.update_self, Function.update_self]
        rfl
      · rw [Function.update_of_ne hu, Function.update_of_ne hu]
        exact h.stepEvent u
    case passes =>
      intro u addr hu
      change ∃ r, vm.passes addr = some r ∧ r.traps = none
      change Function.update w.protocol.phase v .watched u = .stepping (some addr) at hu
      by_cases huv : u = v
      · subst huv
        rw [Function.update_self] at hu
        cases hu
      · rw [Function.update_of_ne huv] at hu
        rw [hpasses addr]
        · exact h.passes u addr hu
        · rintro rfl
          exact huv (h.inv.inj u v addr hu hphase)
    case freed =>
      change vm.freed = pass.toList ++ w.protocol.freed
      rw [hfreed, h.freed]
    case brk =>
      intro addr haddr
      exact Nat.lt_of_lt_of_le (h.brk addr haddr) (Nat.le_of_eq hbrk.symm)

section Runs

variable [DecidableEq κ] [DecidableEq ε]

/-- A breakpoint: whatever its callbacks do, the vCPU is stopped without a record, unless the
page has no shadow page or the link of a released node is overwritten. -/
lemma Follows.int3 {w : Watched κ ε σ} (h : Follows w) (cbs : Callbacks κ ε σ)
    {event : InterruptEvent} (calls : Int3Calls)
    (hd : (w.vm.machine.vcpu event.vcpuId).slatId = w.vm.hdlr.altp2mIdx)
    (hex : tmTrapExist w.vm.tm event.pa = true) :
    match int3Cb cbs event calls w.vm w.user with
    | .error _ => tmFindRemapped w.vm.tm (event.pa >>> PAGE_OFFSET_BITS) = none ∨
        ∃ i, (calls.visit i).freedLink = .overwritten
    | .ok (handled, vm, s) =>
        Follows ⟨vm.respond event.vcpuId handled, s, w.protocol.stop event.vcpuId none⟩ := by
  let I : List (Trap κ ε) → Vm κ ε → UInt64 × σ → Prop := fun queue vm _ =>
    (∀ t ∈ queue, t.pa = event.pa) ∧ Aside w.vm vm ∧ (∃ reg, Registered vm reg) ∧
      ∀ g rm, tmFindRemapped w.vm.tm g = some rm → tmFindRemapped vm.tm g = some rm
  let A : VisitCalls → Prop := fun answers => ∃ i, calls.visit i = answers
  let F : Fault → Prop := fun _ =>
    tmFindRemapped w.vm.tm (event.pa >>> PAGE_OFFSET_BITS) = none ∨
      ∃ i, (calls.visit i).freedLink = .overwritten
  have hlink : ∀ answers, A answers → answers.freedLink = .overwritten → F .useAfterFree := by
    rintro _ ⟨i, rfl⟩ hover
    exact .inr ⟨i, hover⟩
  have hvisit : ∀ trap queue vm s calls, A calls → I (trap :: queue) vm s →
      AfterVisit event F I queue (visitTrap cbs event calls trap vm s) := by
    rintro trap queue vm s calls - ⟨hpa, haside, ⟨reg, hreg⟩, hremapped⟩
    rcases visitTrap_spec cbs event calls trap vm s with
      ⟨vm', s', planted, tm, hok, hv⟩ | ⟨hfault, -, hnone⟩
    · rw [hok]
      refine ⟨fun t ht => ?_, haside.trans hv.aside, ⟨_, hv.registered hreg⟩, fun g rm hg => ?_⟩
      · rcases List.mem_append.mp ht with ht | ht
        · exact hpa t (List.mem_cons_of_mem _ ht)
        · simpa using (List.mem_filter.mp ht).2
      · exact hv.remapped g rm (hremapped g rm hg)
    · rw [hfault]
      left
      have hgfn : trap.gfn = event.pa >>> PAGE_OFFSET_BITS := by
        rw [← hpa trap List.mem_cons_self]
        rfl
      cases hrm : tmFindRemapped w.vm.tm (event.pa >>> PAGE_OFFSET_BITS) with
      | none => rfl
      | some rm =>
        rw [hgfn, hremapped _ rm hrm] at hnone
        cases hnone
  obtain ⟨reg, hreg⟩ := h.registered
  have hstart : I (reg.filter (·.pa = event.pa)) w.vm (0, w.user) :=
    ⟨fun t ht => by simpa using (List.mem_filter.mp ht).2, Aside.refl _, ⟨reg, hreg⟩, fun _ _ h => h⟩
  obtain ⟨doubletrap, -, hrule⟩ := int3Cb_rule hreg hlink hvisit calls (fun i => ⟨i, rfl⟩) hex
    hstart
  split at hrule
  · rename_i fault hfault
    rw [hfault]
    exact hrule
  · rename_i handled vm s hok
    obtain ⟨rfl, _, vm₁, base, ⟨-, haside, ⟨reg', hreg'⟩, -⟩, rfl⟩ := hrule
    rw [hok]
    have hhdlr := haside.hdlr
    apply h.stop (h.watched hd)
    case hnew => simp
    case hreg => exact ⟨reg', hreg'.congr rfl (Nat.le_refl _)⟩
    case hidx =>
      change vm₁.hdlr.altp2mIdx = w.vm.hdlr.altp2mIdx
      rw [hhdlr]
    case hvcpu => exact haside.vcpu
    case hstep =>
      change Function.update vm₁.hdlr.stepEvent event.vcpuId ⟨.singlestepCb, .handler⟩ = _
      rw [hhdlr]
      rfl
    case hpasses => exact fun addr _ => congrFun haside.passes addr
    case hpass => simp
    case hfreed => exact haside.freed
    case hbrk => exact haside.brk
    case hpassBrk => simp

/-! ### Runs -/

/-- The callback of an event, with the state of the callbacks behind the traps. -/
def VmEvent.handle (cbs : Callbacks κ ε σ) (vm : Vm κ ε) (s : σ) :
    VmEvent → Except Fault (Handled × Vm κ ε × σ)
  | int3 event calls => int3Cb cbs event calls vm s
  | mem event => .ok ((preMemCb event vm).1, (preMemCb event vm).2, s)
  | step vcpuId calls => do
    let (handled, vm) ← stepCb vcpuId calls vm
    return (handled, vm, s)

/-- An event is delivered, its callback runs to its end, and LibVMI does what it answers. -/
def EventRun (cbs : Callbacks κ ε σ) (w : Watched κ ε σ) (event : VmEvent) (w' : Watched κ ε σ) :
    Prop :=
  event.Delivered w.vm ∧ ∃ handled vm s, event.handle cbs w.vm w.user = .ok (handled, vm, s) ∧
    w' = ⟨vm.respond event.vcpuId handled, s, w.protocol.next w.vm event⟩

/-- A breakpoint on a page without a shadow page, which an earlier failure has left. -/
def VmEvent.Unshadowed (vm : Vm κ ε) : VmEvent → Prop
  | int3 event _ => tmTrapExist vm.tm event.pa = true ∧
      tmFindRemapped vm.tm (event.pa >>> PAGE_OFFSET_BITS) = none
  | _ => False

/-- On the way of a breakpoint the link of a released node reads as neither what it was nor
NULL. -/
def VmEvent.LinkLost : VmEvent → Prop
  | int3 _ calls => ∃ i, (calls.visit i).freedLink = .overwritten
  | _ => False

/-- Every other event delivered is handled to its end, and the protocol is followed. -/
lemma Follows.event {w : Watched κ ε σ} (h : Follows w) (cbs : Callbacks κ ε σ) {event : VmEvent}
    (hd : event.Delivered w.vm) :
    match event.handle cbs w.vm w.user with
    | .error _ => event.Unshadowed w.vm ∨ event.LinkLost
    | .ok (handled, vm, s) =>
        Follows ⟨vm.respond event.vcpuId handled, s, w.protocol.next w.vm event⟩ := by
  cases event with
  | int3 event calls =>
    simp only [VmEvent.handle, VmEvent.vcpuId, Protocol.next]
    cases hex : tmTrapExist w.vm.tm event.pa with
    | false =>
      obtain ⟨reg, hreg⟩ := h.registered
      rw [int3Cb_of_not_trapExist hreg cbs calls w.user hex]
      cases calls.read8 with
      | true => exact h.ignore event.vcpuId rfl w.user
      | false => exact h.interrupt.ignore event.vcpuId rfl w.user
    | true =>
      have hint3 := h.int3 cbs calls (hd hex) hex
      generalize int3Cb cbs event calls w.vm w.user = outcome at hint3 ⊢
      cases outcome with
      | error fault => exact hint3.imp_left fun hnone => ⟨hex, hnone⟩
      | ok result => exact hint3
  | mem event => exact h.mem hd w.user
  | step vcpuId calls =>
    obtain ⟨vm, hok, -, hfollows⟩ := h.step hd calls w.user
    simp only [VmEvent.handle, hok]
    exact hfollows

/-- The state when the loop over the events begins. -/
structure Ready (w : Watched κ ε σ) : Prop where
  registered : ∃ reg, Registered w.vm reg
  altp2m : w.vm.hdlr.altp2mIdx ≠ ORIGIN_IDX
  vcpu : ∀ v, w.vm.machine.vcpu v = ⟨w.vm.hdlr.altp2mIdx, false⟩
  stepEvent : ∀ v, w.vm.hdlr.stepEvent v = ⟨.singlestepCb, .handler⟩
  freed : w.vm.freed = []
  protocol : w.protocol = .start

omit [DecidableEq κ] [DecidableEq ε] in
lemma Ready.follows {w : Watched κ ε σ} (h : Ready w) : Follows w := by
  have hphase : ∀ v, w.protocol.phase v = .watched := fun v => by rw [h.protocol]; rfl
  refine ⟨h.altp2m, h.registered, fun v => ?_, fun v => ?_, fun v addr hv => ?_, ?_, ?_, ?_⟩
  · rw [hphase]
    exact h.vcpu v
  · rw [hphase]
    exact h.stepEvent v
  · rw [hphase] at hv
    cases hv
  · rw [h.freed, h.protocol]
    rfl
  · rw [h.protocol]
    simp [Protocol.start]
  · rw [h.protocol]
    exact Protocol.inv_start

/-- The vCPU steps with a record its last memory access allocated, or with none. -/
structure Steps (w : Watched κ ε σ) (v : Fin 16) : Prop where
  vcpu : w.vm.machine.vcpu v = ⟨ORIGIN_IDX, true⟩
  stepEvent : w.vm.hdlr.stepEvent v = ⟨.singlestepCb, .handler⟩ ∨
    ∃ addr, w.vm.hdlr.stepEvent v = ⟨.postMemCb, .pass addr⟩ ∧
      w.protocol.lastPass v = some addr ∧ (w.vm.passes addr).isSome = true ∧ addr ∉ w.vm.freed

/-- What holds between any two events. -/
structure ViewSwitching (cbs : Callbacks κ ε σ) (w : Watched κ ε σ) : Prop where
  view : ∀ v, w.vm.machine.vcpu v = ⟨w.vm.hdlr.altp2mIdx, false⟩ ∨ Steps w v
  returns : ∀ v calls w', EventRun cbs w (.step v calls) w' →
    w'.vm.machine.vcpu v = ⟨w.vm.hdlr.altp2mIdx, false⟩
  once : ∀ v, w.protocol.stopped v =
    w.protocol.stepped v + if (w.vm.machine.vcpu v).singlestep then 1 else 0
  freed : w.vm.freed.Nodup ∧ ∀ addr ∈ w.protocol.allocated, addr ∉ w.vm.freed ↔
    ∃ v, Steps w v ∧ w.vm.hdlr.stepEvent v = ⟨.postMemCb, .pass addr⟩
  progress : ∀ event : VmEvent, event.Delivered w.vm → ¬ event.Unshadowed w.vm →
    ¬ event.LinkLost → ∃ w', EventRun cbs w event w'

lemma Follows.viewSwitching {w : Watched κ ε σ} (h : Follows w) (cbs : Callbacks κ ε σ) :
    ViewSwitching cbs w := by
  have hsteps : ∀ v pass, w.protocol.phase v = .stepping pass → Steps w v := by
    intro v pass hphase
    have hvcpu := h.vcpu v
    have hev := h.stepEvent v
    rw [hphase] at hvcpu hev
    refine ⟨hvcpu, ?_⟩
    cases pass with
    | none => exact .inl hev
    | some addr =>
      obtain ⟨r, hr, -⟩ := h.passes v addr hphase
      have hlive := (h.inv.live addr (h.inv.held v addr hphase)).mpr ⟨v, hphase⟩
      rw [← h.freed] at hlive
      exact .inr ⟨addr, hev, h.inv.last v addr hphase, by rw [hr]; rfl, hlive⟩
  refine ⟨fun v => ?view, fun v calls w' hrun => ?returns, fun v => ?once, ⟨?nodup, ?live⟩, ?progress⟩
  case view =>
    cases hphase : w.protocol.phase v with
    | watched =>
      left
      rw [h.vcpu, hphase]
      rfl
    | stepping pass => exact .inr (hsteps v pass hphase)
  case returns =>
    obtain ⟨hd, handled, vm, s, hok, rfl⟩ := hrun
    obtain ⟨vm', hok', hidx, hfollows⟩ := h.step hd calls w.user
    simp only [VmEvent.handle, hok'] at hok
    cases hok
    have hback := hfollows.vcpu v
    rw [Protocol.resume_phase] at hback
    change _ = Vcpu.mk vm'.hdlr.altp2mIdx false at hback
    rw [hidx] at hback
    exact hback
  case once =>
    rw [h.inv.once v, h.vcpu]
    cases w.protocol.phase v <;> rfl
  case nodup =>
    rw [h.freed]
    exact h.inv.freed
  case live =>
    intro addr haddr
    rw [h.freed, h.inv.live addr haddr]
    constructor
    · rintro ⟨v, hphase⟩
      have hev := h.stepEvent v
      rw [hphase] at hev
      exact ⟨v, hsteps v _ hphase, hev⟩
    · rintro ⟨v, -, hev⟩
      rw [h.stepEvent] at hev
      refine ⟨v, ?_⟩
      cases hphase : w.protocol.phase v with
      | watched =>
        rw [hphase] at hev
        cases hev
      | stepping pass =>
        rw [hphase] at hev
        cases pass with
        | none => cases hev
        | some a =>
          cases hev
          rfl
  case progress =>
    intro event hd hshadow hlink
    have hevent := h.event cbs hd
    cases hok : event.handle cbs w.vm w.user with
    | error fault =>
      rw [hok] at hevent
      exact (hevent.elim hshadow hlink).elim
    | ok result => exact ⟨_, hd, _, _, _, hok, rfl⟩

/-- The protocol is followed over any events, whatever the callbacks behind the traps and
the calls they make answer. -/
theorem view_switching {cbs : Callbacks κ ε σ} {w₀ : Watched κ ε σ} (h₀ : Ready w₀)
    {tr : List (VmEvent × Watched κ ε σ)} (hrun : IsRun (EventRun cbs) w₀ tr) :
    Always (ViewSwitching cbs) w₀ tr := by
  have hstep : ∀ (w : Watched κ ε σ) (event : VmEvent) (w' : Watched κ ε σ),
      Follows w → EventRun cbs w event w' → Follows w' := by
    rintro w event w' h ⟨hd, handled, vm, s, hok, rfl⟩
    have hevent := h.event cbs hd
    rw [hok] at hevent
    exact hevent
  exact (hrun.always hstep h₀.follows).mono fun w h => h.viewSwitching cbs

end Runs

/-- One vCPU hits the breakpoint of `oneTrap` while another one reads its page; then the
first one steps. -/
theorem view_switching_two_vcpus :
    let cbs : Callbacks Unit Unit Unit := fun _ _ _ _ s => (none, s)
    let visit : VisitCalls := ⟨none, 0, fun _ => 0, .succeeding 0x501, .succeeding, .cleared⟩
    let hit : InterruptEvent := ⟨0, 1, 5, 1, ⟨0, 0, 0, 0, 0, 0, 0, 0, 0⟩⟩
    let w₀ : Watched Unit Unit Unit := ⟨oneTrapVm, (), .start⟩
    ∃ w₁ w₂ w₃, Always (ViewSwitching cbs) w₀
      [(VmEvent.int3 hit ⟨true, fun _ => visit⟩, w₁), (.mem ⟨1, 1, 1⟩, w₂),
        (.step 0 ⟨true, true, fun _ => true, fun _ => true⟩, w₃)] := by
  intro cbs visit hit w₀
  have hready : Ready w₀ :=
    ⟨oneTrap_inStep.registered, by decide, fun v => rfl, fun v => rfl, rfl, rfl⟩
  refine ⟨_, _, _, view_switching hready ⟨⟨fun _ => rfl, _, _, _, rfl, rfl⟩,
    ⟨rfl, _, _, _, rfl, rfl⟩, ⟨rfl, _, _, _, rfl, rfl⟩, trivial⟩⟩

end Hfm

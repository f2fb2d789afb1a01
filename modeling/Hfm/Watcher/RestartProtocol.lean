import Hfm.Support.Simulation
import Hfm.Watcher.Answers

/-!
# The restart protocol

A VM that stopped answering is destroyed, booted and brought back, in this order. The boot
thread of a cycle is the only one while the cycle waits for it.
-/

namespace Hfm

open Support

def WvEvent.isPingFailed (e : WvEvent) : Bool := e = .pingFailed

def WvEvent.isDestroy : WvEvent → Bool
  | .destroy _ => true
  | _ => false

def WvEvent.isBootCycle : WvEvent → Bool
  | .bootCycle _ => true
  | _ => false

def WvEvent.isRestartCb : WvEvent → Bool
  | .restartCb _ _ => true
  | _ => false

/-- The number of the boot cycle started last. -/
def currentCycle (log : List WvEvent) : Option Nat :=
  log.findSome? fun
    | .bootCycle n => some n
    | _ => none

/-- What has to come before an event; `cb` tells whether a callback is registered. -/
def Allowed (cb : Bool) (log : List WvEvent) : WvEvent → Prop
  | .destroy okay => okay = false ∧ .pingFailed ∈ log ∧
      (since WvEvent.isPingFailed log).countP WvEvent.isDestroy = 0
  | .bootCycle _ => (since WvEvent.isPingFailed log).countP WvEvent.isDestroy = 1
  | .restartCb _ _ => (since WvEvent.isBootCycle log).countP WvEvent.isRestartCb = 0 ∧
      ∃ n, currentCycle log = some n ∧ .bootDone n ∈ since WvEvent.isBootCycle log
  | .running => cb = true → (since WvEvent.isBootCycle log).countP WvEvent.isRestartCb = 1
  | .pingFailed => True
  | .bootDone _ => True

/-- Each event came when it was allowed. -/
def InOrder (cb : Bool) : List WvEvent → Prop
  | [] => True
  | e :: log => Allowed cb log e ∧ InOrder cb log

/-- The boot thread that has not ended, if any, is that of the current cycle, and the VM is
waiting for it. -/
structure BootThread (vm : WatchedVm) : Prop where
  idle : vm.hdlr.state ≠ .booting → vm.threads = []
  one : vm.threads = [] ∨ vm.threads = [vm.cycles] ∧ vm.hdlr.bootDone = false

/-- What the log holds in each of the states. -/
def InPhase (vm : WatchedVm) : Prop :=
  match vm.hdlr.state with
  | .running => True
  | .destroy => vm.hdlr.okay = false ∧ .pingFailed ∈ vm.log ∧
      (since WvEvent.isPingFailed vm.log).countP WvEvent.isDestroy = 0
  | .shutdown => vm.hdlr.okay = false ∧
      (since WvEvent.isPingFailed vm.log).countP WvEvent.isDestroy = 1
  | .booting => vm.hdlr.okay = false ∧ currentCycle vm.log = some vm.cycles ∧
      (since WvEvent.isBootCycle vm.log).countP WvEvent.isRestartCb = 0 ∧
      (vm.hdlr.bootDone = true → .bootDone vm.cycles ∈ since WvEvent.isBootCycle vm.log)
  | .restarted => vm.hdlr.restartCb.isSome = true →
      (since WvEvent.isBootCycle vm.log).countP WvEvent.isRestartCb = 1

structure Followed (vm : WatchedVm) : Prop where
  thread : BootThread vm
  phase : InPhase vm
  protocol : InOrder vm.hdlr.restartCb.isSome vm.log

lemma followed_registered (r : Registration) : Followed r.vm :=
  ⟨⟨fun _ => rfl, .inl rfl⟩, trivial, trivial⟩

/-- The phase of a state says what the next event of that state needs. -/
lemma followed_visit {vm : WatchedVm} (h : Followed vm) (ans : VisitAnswers) :
    Followed (visitVm vm ans) := by
  obtain ⟨⟨hidle, hone⟩, hphase, hprotocol⟩ := h
  unfold InPhase at hphase
  cases hstate : vm.hdlr.state with
  | shutdown =>
    rw [hstate] at hphase
    rw [visitVm_shutdown vm ans hstate]
    split
    · exact ⟨⟨hidle, hone⟩, by unfold InPhase; rwa [hstate], hprotocol⟩
    · have hnone : vm.threads = [] := hidle (by simp [hstate])
      refine ⟨⟨by simp, ?_⟩, ?_, hphase.2, hprotocol⟩
      · dsimp only
        rw [hnone]
        split
        · exact .inr ⟨rfl, rfl⟩
        · exact .inl rfl
      · refine ⟨hphase.1, rfl, ?_, by simp⟩
        rw [since_cons_pos rfl]
        rfl
  | booting =>
    rw [hstate] at hphase
    cases hdone : vm.hdlr.bootDone with
    | false =>
      rw [visitVm_booting vm ans hstate hdone]
      exact ⟨⟨hidle, hone⟩, by unfold InPhase; rwa [hstate], hprotocol⟩
    | true =>
      have hnone : vm.threads = [] := by
        rcases hone with hnone | ⟨-, hfalse⟩
        · exact hnone
        · rw [hdone] at hfalse
          cases hfalse
      obtain ⟨hokay, hcycle, hcount, hthread⟩ := hphase
      rw [visitVm_booted vm ans hstate hdone]
      dsimp only
      split
      · refine ⟨⟨fun _ => hnone, .inl hnone⟩, fun _ => ?_, ⟨hcount, _, hcycle, hthread hdone⟩, hprotocol⟩
        rw [since_cons_neg rfl, List.countP_cons, hcount]
        rfl
      · rename_i hcb
        exact ⟨⟨fun _ => hnone, .inl hnone⟩, fun h => absurd h hcb, hprotocol⟩
  | running =>
    rw [visitVm_running vm ans hstate]
    split
    · exact ⟨⟨hidle, hone⟩, by unfold InPhase; rw [hstate]; trivial, hprotocol⟩
    · have hnone : vm.threads = [] := hidle (by simp [hstate])
      refine ⟨⟨fun _ => hnone, .inl hnone⟩, ⟨rfl, List.mem_cons_self, ?_⟩, trivial, hprotocol⟩
      rw [since_cons_pos rfl]
      rfl
  | destroy =>
    rw [hstate] at hphase
    obtain ⟨hokay, hping, hcount⟩ := hphase
    have hnone : vm.threads = [] := hidle (by simp [hstate])
    rw [visitVm_destroy vm ans hstate]
    refine ⟨⟨fun _ => hnone, .inl hnone⟩, ⟨hokay, ?_⟩, ⟨hokay, hping, hcount⟩, hprotocol⟩
    rw [since_cons_neg rfl, List.countP_cons, hcount]
    rfl
  | restarted =>
    rw [hstate] at hphase
    have hnone : vm.threads = [] := hidle (by simp [hstate])
    rw [visitVm_restarted vm ans hstate]
    exact ⟨⟨fun _ => hnone, .inl hnone⟩, trivial, hphase, hprotocol⟩

/-- A boot thread that ends is the one of the current cycle. -/
lemma followed_bootThread {vm : WatchedVm} (h : Followed vm) {n : Nat} (hn : n ∈ vm.threads)
    (vmi : Bool) : Followed (waitBootFc vm n vmi) := by
  obtain ⟨⟨hidle, hone⟩, hphase, hprotocol⟩ := h
  have hstate : vm.hdlr.state = .booting := by
    by_contra hne
    rw [hidle hne] at hn
    cases hn
  have hthreads : vm.threads = [vm.cycles] := by
    rcases hone with hnone | ⟨hthreads, -⟩
    · rw [hnone] at hn
      cases hn
    · exact hthreads
  obtain rfl : n = vm.cycles := by
    rw [hthreads] at hn
    exact List.mem_singleton.mp hn
  have hnone : vm.threads.erase vm.cycles = [] := by rw [hthreads]; simp
  unfold InPhase at hphase
  rw [hstate] at hphase
  unfold waitBootFc
  dsimp only
  cases vmi with
  | false =>
    rw [if_neg Bool.false_ne_true]
    exact ⟨⟨fun _ => hnone, .inl hnone⟩, by unfold InPhase; rwa [hstate], hprotocol⟩
  | true =>
    rw [if_pos rfl]
    refine ⟨⟨fun _ => hnone, .inl hnone⟩, ?_, trivial, hprotocol⟩
    obtain ⟨hokay, hcycle, hcount, -⟩ := hphase
    unfold InPhase
    rw [hstate]
    refine ⟨hokay, hcycle, ?_, fun _ => ?_⟩
    · rw [since_cons_neg rfl, List.countP_cons, hcount]
      rfl
    · rw [since_cons_neg rfl]
      exact List.mem_cons_self

lemma followed_step (vm : WatchedVm) (a : VmAction) (vm' : WatchedVm) (h : Followed vm)
    (hstep : VmStep vm a vm') : Followed vm' := by
  cases a with
  | visit ans =>
    rw [show vm' = visitVm vm ans from hstep]
    exact followed_visit h ans
  | bootThread n vmi =>
    rw [hstep.2]
    exact followed_bootThread h hstep.1 vmi

/-- Only the callback of a visit gets a VM back. -/
lemma okay_rises {vm vm' : WatchedVm} {a : VmAction} (hstep : VmStep vm a vm')
    (hdown : vm.hdlr.okay = false) (hup : vm'.hdlr.okay = true) :
    ∃ data, vm'.log = .restartCb data 0 :: vm.log := by
  cases a with
  | bootThread n vmi =>
    rw [hstep.2] at hup
    unfold waitBootFc at hup
    dsimp only at hup
    split at hup
    · rw [hdown] at hup
      cases hup
    · rw [hdown] at hup
      cases hup
  | visit ans =>
    obtain rfl : vm' = visitVm vm ans := hstep
    by_cases hbooted : vm.hdlr.state = .booting ∧ vm.hdlr.bootDone = true ∧
        vm.hdlr.restartCb.isSome = true
    · obtain ⟨hstate, hdone, hcb⟩ := hbooted
      rw [visitVm_booted vm ans hstate hdone] at hup ⊢
      dsimp only at hup ⊢
      rw [if_pos hcb] at hup ⊢
      by_cases hzero : ans.restartCb = 0
      · rw [hzero]
        exact ⟨_, rfl⟩
      · dsimp only at hup
        rw [if_neg hzero, hdown] at hup
        cases hup
    · have hkeeps : (visitVm vm ans).hdlr.okay = false := by
        cases hstate : vm.hdlr.state with
        | shutdown =>
          rw [visitVm_shutdown vm ans hstate]
          split
          · exact hdown
          · exact hdown
        | booting =>
          cases hdone : vm.hdlr.bootDone with
          | false => rwa [visitVm_booting vm ans hstate hdone]
          | true =>
            rw [visitVm_booted vm ans hstate hdone]
            dsimp only
            rw [if_neg fun hcb => hbooted ⟨hstate, hdone, hcb⟩]
            exact hdown
        | running => rwa [visitVm_running vm ans hstate, if_pos (.inl hdown)]
        | destroy => rwa [visitVm_destroy vm ans hstate]
        | restarted => rwa [visitVm_restarted vm ans hstate]
      rw [hkeeps] at hup
      cases hup

/-- The VM numbered `i` follows the protocol, and its flag rises by its callback only. -/
def FollowsProtocol (i : Nat) (s : Watcher × Nat) : Prop :=
  InOrder (s.1.hdlr i).hdlr.restartCb.isSome (s.1.hdlr i).log ∧
    ∀ a s', WatchStep s a s' → (s.1.hdlr i).hdlr.okay = false → (s'.1.hdlr i).hdlr.okay = true →
      ∃ data, (s'.1.hdlr i).log = .restartCb data 0 :: (s.1.hdlr i).log

/-- In every run of the watcher every VM follows the protocol. -/
theorem restart_protocol {regs : List Registration} {wv : Watcher}
    (hadd : addVms wvInit regs = .ok wv) {tr : List ((Nat × VmAction) × (Watcher × Nat))}
    (hrun : IsRun WatchStep (wv, 0) tr) :
    Always (fun s => ∀ i, FollowsProtocol i s) (wv, 0) tr := by
  refine (watch_always followed_registered followed_step hadd hrun).mono fun s h i => ?_
  refine ⟨(h i).protocol, ?_⟩
  intro a s' hstep hdown hup
  rcases hstep.vm i with ⟨-, hvm⟩ | ⟨-, hvm⟩
  · exact okay_rises hvm hdown hup
  · rw [hvm, hdown] at hup
    cases hup

theorem restart_protocol_two :
    Always (fun s => ∀ i, FollowsProtocol i s) (twoVms, 0) (watchTrace (twoVms, 0) secondRestarted) ∧
      ((final (twoVms, 0) (watchTrace (twoVms, 0) secondRestarted)).1.hdlr 1).log =
        [.running, .restartCb 1 0, .bootDone 1, .bootCycle 1, .destroy false, .pingFailed] :=
  ⟨restart_protocol (rfl : addVms wvInit twoRegistered = .ok twoVms) (run_watchTrace (by decide)),
    by decide⟩

end Hfm

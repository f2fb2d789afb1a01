import Hfm.Support.Budget
import Hfm.Support.Simulation
import Hfm.Watcher.Abandoned

/-!
# How long an outage lasts

A VM that stopped answering is destroyed, booted and restarted in three visits. The watcher comes
to each VM once in a round, so that an outage without failures that are not tried again is over
after three rounds and those in which the VM could not be opened or had not booted.
-/

namespace Hfm

open Support

/-! ### Visits -/

/-- The step is a visit of some VM. -/
def visits (_ : Watcher × Nat) (a : Nat × VmAction) : Nat :=
  match a.2 with
  | .visit _ => 1
  | .bootThread _ _ => 0

/-- The visit finds no instance, or a boot that goes on. -/
def waitsVm (vm : WatchedVm) (ans : VisitAnswers) : Nat :=
  match vm.hdlr.state with
  | .shutdown => if ans.vmiInit then 0 else 1
  | .booting => if vm.hdlr.bootDone then 0 else 1
  | _ => 0

/-- The step is such a visit of the VM numbered `i`. -/
def waits (i : Nat) (s : Watcher × Nat) (a : Nat × VmAction) : Nat :=
  match a.2 with
  | .visit ans => if a.1 = i then waitsVm (s.1.hdlr i) ans else 0
  | .bootThread _ _ => 0

/-! ### The measure -/

/-- How many visits a VM that is down still needs. -/
def WvState.remaining : WvState → Nat
  | .destroy => 3
  | .shutdown => 2
  | .booting => 1
  | _ => 0

/-- How many visits of others come before the one of the VM numbered `i`. -/
def ahead (i size cursor : Nat) : Nat := if cursor ≤ i then i - cursor else i + size - cursor

lemma WvState.remaining_le (state : WvState) : state.remaining ≤ 3 := by
  cases state <;> decide

lemma ahead_lt {i size cursor : Nat} (hi : i < size) (hcursor : cursor < size) :
    ahead i size cursor < size := by
  unfold ahead
  split <;> omega

def outageLeft (i : Nat) (s : Watcher × Nat) : Nat :=
  ahead i s.1.size s.2 + s.1.size * (s.1.hdlr i).hdlr.state.remaining

/-- The watcher goes round its VMs, and has given up none. -/
structure Caring (size : Nat) (s : Watcher × Nat) : Prop where
  size_eq : s.1.size = size
  cursor : s.2 < s.1.size
  followed : ∀ j, Followed (s.1.hdlr j)
  alive : ∀ j, ¬Stuck (s.1.hdlr j)

/-- The VM numbered `i` is down. -/
structure Down (size i : Nat) (s : Watcher × Nat) : Prop extends Caring size s where
  down : (s.1.hdlr i).hdlr.okay = false

section Outage

variable {size i : Nat} {s s' : Watcher × Nat} {a : Nat × VmAction}

lemma Down.remaining_pos (h : Down size i s) : 1 ≤ (s.1.hdlr i).hdlr.state.remaining := by
  have halive := h.alive i
  unfold Stuck at halive
  simp only [h.down, true_and, not_or] at halive
  cases hstate : (s.1.hdlr i).hdlr.state with
  | shutdown => decide
  | booting => decide
  | running => exact absurd hstate halive.2.1
  | destroy => decide
  | restarted => exact absurd hstate halive.2.2.1

/-- A visit of a VM that stays down brings it forward, or is one that waits. -/
lemma remaining_visit {vm : WatchedVm} (ans : VisitAnswers) (hdown : vm.hdlr.okay = false)
    (hstuck : ¬Stuck vm) (hstuck' : ¬Stuck (visitVm vm ans))
    (hdown' : (visitVm vm ans).hdlr.okay = false) :
    (visitVm vm ans).hdlr.state.remaining + 1 ≤ vm.hdlr.state.remaining + waitsVm vm ans := by
  unfold waitsVm
  have halive := hstuck
  unfold Stuck at halive
  simp only [hdown, true_and, not_or] at halive
  cases hstate : vm.hdlr.state with
  | shutdown =>
    rw [visitVm_shutdown vm ans hstate]
    cases hinit : ans.vmiInit with
    | false =>
      rw [if_pos rfl, hstate]
      exact Nat.le_refl _
    | true =>
      rw [if_neg (by simp)]
      exact Nat.le_refl _
  | booting =>
    cases hdone : vm.hdlr.bootDone with
    | false =>
      rw [visitVm_booting vm ans hstate hdone, hstate]
      exact Nat.le_refl _
    | true =>
      -- the callback was called, and gave up
      rw [visitVm_booted vm ans hstate hdone] at hstuck' hdown'
      dsimp only at hstuck' hdown'
      rw [if_pos (Option.isSome_iff_ne_none.mpr halive.1)] at hstuck' hdown'
      exact absurd ⟨hdown', .inr (.inr (.inl rfl))⟩ hstuck'
  | running => exact absurd hstate halive.2.1
  | destroy =>
    rw [visitVm_destroy vm ans hstate]
    exact Nat.le_refl _
  | restarted => exact absurd hstate halive.2.2.1

/-- The watcher goes on to the next VM. -/
lemma ahead_next {cursor : Nat} (hi : i < size) (hcursor : cursor < size) :
    ahead i size (if cursor + 1 < size then cursor + 1 else 0) + 1 =
      if cursor = i then size else ahead i size cursor := by
  unfold ahead
  by_cases hlast : cursor + 1 < size
  · rw [if_pos hlast]
    by_cases heq : cursor = i
    · rw [if_neg (by omega), if_pos heq]
      omega
    · rw [if_neg heq]
      split <;> split <;> omega
  · rw [if_neg hlast, if_pos (Nat.zero_le i)]
    by_cases heq : cursor = i
    · rw [if_pos heq]
      omega
    · rw [if_neg heq, if_neg (by omega)]
      omega

/-- One step of an outage. -/
lemma outageLeft_step (h : Down size i s) (h' : Down size i s') (hi : i < size)
    (hstep : WatchStep s a s') :
    visits s a + outageLeft i s' ≤ outageLeft i s + size * waits i s a := by
  obtain ⟨j, action⟩ := a
  obtain ⟨hj, vm, hvm, hset, hcursor⟩ := hstep
  have hsize' := h'.size_eq
  have hsize := h.size_eq
  have hlt := h.cursor
  rw [hsize] at hlt
  unfold outageLeft visits waits
  rw [hsize, hsize']
  cases action with
  | bootThread n vmi =>
    obtain ⟨-, rfl⟩ := hvm
    have hstate : (s'.1.hdlr i).hdlr.state = (s.1.hdlr i).hdlr.state := by
      rw [hset]
      dsimp only [Watcher.set]
      by_cases hij : i = j
      · rw [hij, Function.update_self]
        unfold waitBootFc
        split <;> rfl
      · rw [Function.update_of_ne hij]
    dsimp only at hcursor ⊢
    rw [hstate, hcursor]
    omega
  | visit ans =>
    obtain ⟨hji, hnext⟩ := hcursor
    obtain rfl : vm = visitVm (s.1.hdlr j) ans := hvm
    dsimp only at hji hnext ⊢
    have hahead := ahead_next hi hlt
    rw [hnext, hsize]
    by_cases hij : s.2 = i
    · -- the visit of the VM itself
      rw [if_pos hij] at hahead
      have hvisited : s'.1.hdlr i = visitVm (s.1.hdlr i) ans := by
        rw [hset, ← hij, ← hji]
        exact Function.update_self _ _ _
      have hdown' := h'.down
      have halive' := h'.alive i
      rw [hvisited] at hdown' halive' ⊢
      rw [if_pos (hji.trans hij)]
      have hless := remaining_visit ans h.down (h.alive i) halive' hdown'
      have hpaid := Nat.mul_le_mul_left size hless
      rw [Nat.mul_add, Nat.mul_add, Nat.mul_one] at hpaid
      have hzero : ahead i size s.2 = 0 := by
        unfold ahead
        rw [if_pos hij.le]
        omega
      omega
    · rw [if_neg hij] at hahead
      have hother : s'.1.hdlr i = s.1.hdlr i := by
        rw [hset]
        exact Function.update_of_ne (fun h => hij (hji.symm.trans h.symm)) _ _
      rw [hother, if_neg fun h => hij (hji.symm.trans h)]
      omega

end Outage

lemma caring_step {size : Nat} (s : Watcher × Nat) (a : Nat × VmAction) (s' : Watcher × Nat)
    (h : Caring size s) (hstep : WatchRetried s a ∧ WatchStep s a s') : Caring size s' := by
  obtain ⟨hretried, hstep⟩ := hstep
  have hvms := hstep.vm
  obtain ⟨hj, vm, hvm, hset, hcursor⟩ := id hstep
  have hsize : s'.1.size = s.1.size := by
    rw [hset]
    rfl
  refine ⟨hsize.trans h.size_eq, ?_, hstep.keeps followed_step h.followed, fun j => ?_⟩
  · have hlt := h.cursor
    rw [hsize]
    cases haction : a.2 with
    | visit ans =>
      rw [haction] at hcursor
      rw [hcursor.2]
      split <;> omega
    | bootThread n vmi =>
      rw [haction] at hcursor
      rw [hcursor]
      exact hlt
  · rcases hvms j with ⟨rfl, hvm'⟩ | ⟨-, hsame⟩
    · exact (stuck_step_iff hvm' (h.alive _) (h.followed _)).mpr hretried
    · rw [hsame]
      exact h.alive j

/-- While a VM is down, in a run whose failures are all tried again, the watcher makes less than
three rounds over the VMs, not counting one for each visit of that VM which has to wait. -/
theorem outage_bounded {regs : List Registration} {wv : Watcher}
    (hadd : addVms wvInit regs = .ok wv) {tr outage : List ((Nat × VmAction) × (Watcher × Nat))}
    (hrun : IsRun WatchStep (wv, 0) tr) (hretried : Meets WatchRetried (wv, 0) tr)
    (hrun' : IsRun WatchStep (final (wv, 0) tr) outage)
    (hretried' : Meets WatchRetried (final (wv, 0) tr) outage) {i : Nat} (hi : i < wv.size)
    (hdown : Always (fun s => (s.1.hdlr i).hdlr.okay = false) (final (wv, 0) tr) outage) :
    total visits (final (wv, 0) tr) outage <
      wv.size * (3 + total (waits i) (final (wv, 0) tr) outage) := by
  have hup : ∀ j, (wv.hdlr j).hdlr.okay = true :=
    addVms_keeps (P := fun vm => vm.hdlr.okay = true) (fun _ => rfl) regs hadd fun _ => rfl
  have hstart : Caring wv.size (wv, 0) := by
    refine ⟨rfl, Nat.lt_of_le_of_lt (Nat.zero_le i) hi,
      addVms_keeps followed_registered regs hadd fun _ => followed_registered _, fun j h => ?_⟩
    exact absurd ((hup j).symm.trans h.1) (by decide)
  have hcaring := ((hrun.meets hretried).always caring_step hstart).final
  have hall := ((hrun'.meets hretried').always caring_step hcaring).and hdown
  have hbound : total visits (final (wv, 0) tr) outage + wv.size ≤
      outageLeft i (final (wv, 0) tr) +
        total (fun s a => wv.size * waits i s a) (final (wv, 0) tr) outage := by
    have hleast : ∀ s, Down wv.size i s → wv.size ≤ outageLeft i s := by
      intro s h
      have hpos := Nat.mul_le_mul_left wv.size h.remaining_pos
      unfold outageLeft
      rw [h.size_eq]
      omega
    have hpaid : ∀ s a s', Down wv.size i s → Down wv.size i s' → WatchStep s a s' →
        visits s a + outageLeft i s' ≤ outageLeft i s + wv.size * waits i s a :=
      fun s a s' h h' hstep => outageLeft_step h h' hi hstep
    exact hrun'.total_le hleast hpaid (hall.mono fun s h => ⟨h.1, h.2⟩)
  have hleft : outageLeft i (final (wv, 0) tr) < wv.size + wv.size * 3 := by
    have hmost := Nat.mul_le_mul_left wv.size
      (WvState.remaining_le ((final (wv, 0) tr).1.hdlr i).hdlr.state)
    have hahead := ahead_lt hi (hcaring.size_eq ▸ hcaring.cursor)
    unfold outageLeft
    rw [hcaring.size_eq]
    omega
  rw [total_mul] at hbound
  rw [Nat.mul_add]
  omega

/-- The next round after the second VM went down. -/
def outageRound : List ((Nat × VmAction) × (Watcher × Nat)) :=
  let first := secondDown.set 0 (visitVm (secondDown.hdlr 0) (pinged (some 1)))
  [((0, .visit (pinged (some 1))), (first, 1)),
    ((1, .visit (pinged none)), (first.set 1 (visitVm (first.hdlr 1) (pinged none)), 0))]

theorem outage_bounded_two : total visits (secondDown, 0) outageRound <
    twoVms.size * (3 + total (waits 1) (secondDown, 0) outageRound) := by
  have hrun : IsRun WatchStep (secondDown, 0) outageRound :=
    ⟨⟨by decide, _, rfl, rfl, rfl, rfl⟩, ⟨by decide, _, rfl, rfl, rfl, rfl⟩, trivial⟩
  have hretried : Meets WatchRetried (secondDown, 0) outageRound :=
    ⟨fun _ _ => rfl, trivial, trivial⟩
  have hdown : Always (fun s => (s.1.hdlr 1).hdlr.okay = false) (secondDown, 0) outageRound :=
    ⟨rfl, rfl, rfl⟩
  exact outage_bounded (rfl : addVms wvInit twoRegistered = .ok twoVms) run_secondDown
    ⟨fun _ _ => rfl, fun _ _ => rfl, trivial⟩ hrun hretried (by decide : 1 < twoVms.size) hdown

end Hfm

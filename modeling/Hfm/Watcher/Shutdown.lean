import Hfm.Support.Budget
import Hfm.Watcher.Exit
import Mathlib.Algebra.Order.BigOperators.Group.Finset

/-!
# How the program stops

After a signal each thread has a number of steps left: a VM is closed and freed, `main` joins the
threads and frees what they shared, and the watcher finishes its round once it has been closed.
None of them waits for a thread that cannot go on.
-/

namespace Hfm

open Support

/-! ### The steps that are left -/

def MonitorAt.toEnd : MonitorAt → Nat
  | .loop => 3
  | .listen => 4
  | .close => 2
  | .free => 1
  | .ended => 0

def MainAt.toEnd (vmnum size : Nat) : MainAt → Nat
  | .join i => vmnum - i + (size + 6)
  | .freePolicies => size + 6
  | .logClose => size + 5
  | .configClose => size + 4
  | .monClose => size + 3
  | .wvFree i => size - i + 2
  | .wvClosed => 2
  | .wvJoin => 1
  | .returned => 0

/-- For each VM of the round a visit takes up to three steps, and those of a restart. -/
def WatcherAt.toEnd (uses size : Nat) : WatcherAt → Nat
  | .head => 1
  | .visiting i => (3 + uses) * (size - i) + 1
  | .inVisit i => (3 + uses) * (size - i)
  | .restarting i left => (3 + uses) * (size - (i + 1)) + left + 2
  | .ended => 0

/-- A step of a VM's thread, of `main`, or of the watcher after it was closed. -/
def works (s : Program) : ProgramAction → Nat
  | .check _ | .listen _ _ _ | .close _ | .free _ | .main => 1
  | .round | .visit _ | .visited _ _ | .restart _ _ | .restarted _ _ => if s.closed then 1 else 0
  | .signal | .bootOpen _ _ | .bootThread _ _ _ => 0

namespace Program

variable (setup : Setup) (s : Program)

def monitorsToEnd : Nat := ∑ i ∈ Finset.range setup.vmnum, (s.monitor i).toEnd

def watcherToEnd : Nat :=
  if s.closed then s.watcher.toEnd setup.restartUses s.wv.size
  else (3 + setup.restartUses) * s.wv.size + 1

def toEnd : Nat :=
  s.monitorsToEnd setup + s.main.toEnd setup.vmnum s.wv.size + s.watcherToEnd setup

/-- A signal has come. -/
structure Stopping : Prop extends s.Placed setup where
  interrupted : ∀ i < setup.vmnum, s.interrupted i = true

variable {setup : Setup} {s : Program}

/-! ### Each step takes one away -/

lemma monitorsToEnd_goes {i : Nat} (hi : i < setup.vmnum) (pos : MonitorAt) :
    (s.goes i pos).monitorsToEnd setup + (s.monitor i).toEnd =
      s.monitorsToEnd setup + pos.toEnd := by
  have hmem : i ∈ Finset.range setup.vmnum := Finset.mem_range.mpr hi
  have hrest : ∑ j ∈ (Finset.range setup.vmnum).erase i, ((s.goes i pos).monitor j).toEnd =
      ∑ j ∈ (Finset.range setup.vmnum).erase i, (s.monitor j).toEnd := by
    apply Finset.sum_congr rfl
    intro j hj
    exact congrArg MonitorAt.toEnd (Function.update_of_ne (Finset.ne_of_mem_erase hj) _ _)
  have hself : (s.goes i pos).monitor i = pos := Function.update_self _ _ _
  have hafter := Finset.sum_erase_add (Finset.range setup.vmnum)
    (fun j => ((s.goes i pos).monitor j).toEnd) hmem
  have hbefore := Finset.sum_erase_add (Finset.range setup.vmnum)
    (fun j => (s.monitor j).toEnd) hmem
  rw [hrest, hself] at hafter
  unfold monitorsToEnd
  omega

lemma monitorsToEnd_le : s.monitorsToEnd setup ≤ 4 * setup.vmnum := by
  have hone : ∀ i ∈ Finset.range setup.vmnum, (s.monitor i).toEnd ≤ 4 := by
    intro i _
    cases s.monitor i <;> decide
  have hsum := Finset.sum_le_card_nsmul _ _ 4 hone
  rw [Finset.card_range, Nat.nsmul_eq_mul, Nat.mul_comm] at hsum
  exact hsum

lemma mainNext_toEnd (h : s.Placed setup) (ha : s.Enabled setup .main) :
    (s.mainNext setup).toEnd setup.vmnum s.wv.size + 1 ≤
      s.main.toEnd setup.vmnum s.wv.size := by
  cases hmain : s.main with
  | join i =>
    have hi := h.joining i hmain
    simp only [mainNext, hmain, MainAt.joining]
    split
    · simp only [MainAt.toEnd]
      omega
    · simp only [MainAt.toEnd]
      omega
  | monClose =>
    simp only [mainNext, hmain, MainAt.freeing]
    split
    · split
      · simp only [MainAt.toEnd]
        omega
      · simp only [MainAt.toEnd]
        omega
    · simp only [MainAt.toEnd]
      omega
  | wvFree i =>
    have hi := h.freeing i hmain
    simp only [mainNext, hmain, MainAt.freeing]
    split
    · simp only [MainAt.toEnd]
      omega
    · simp only [MainAt.toEnd]
      omega
  | returned =>
    unfold Enabled at ha
    rw [hmain] at ha
    exact ha.elim
  | _ =>
    simp only [mainNext, hmain, MainAt.toEnd]
    omega

/-- A visit takes away the steps of one VM. -/
lemma visit_steps (uses : Nat) {size i : Nat} (hi : i < size) :
    (3 + uses) * (size - i) = (3 + uses) * (size - (i + 1)) + (3 + uses) := by
  have hleft : size - i = size - (i + 1) + 1 := by omega
  rw [hleft, Nat.mul_succ]

lemma watcherToEnd_le (h : s.Placed setup) :
    s.watcherToEnd setup ≤ (3 + setup.restartUses) * s.wv.size + 1 := by
  have hsome (i : Nat) : (3 + setup.restartUses) * (s.wv.size - i) ≤
      (3 + setup.restartUses) * s.wv.size := Nat.mul_le_mul_left _ (Nat.sub_le _ i)
  unfold watcherToEnd
  split
  · cases hpos : s.watcher with
    | visiting i | inVisit i =>
      have := hsome i
      simp only [WatcherAt.toEnd]
      omega
    | restarting i left =>
      have hone := visit_steps setup.restartUses (h.watching i (by rw [hpos]; rfl))
      have hleft := h.uses i left hpos
      have := hsome i
      simp only [WatcherAt.toEnd]
      omega
    | head | ended =>
      simp only [WatcherAt.toEnd]
      omega
  · exact Nat.le_refl _

lemma afterVisit_toEnd (uses i : Nat) :
    (s.afterVisit i).toEnd uses s.wv.size ≤ (3 + uses) * (s.wv.size - (i + 1)) + 1 := by
  unfold afterVisit
  split
  · exact Nat.le_refl _
  · exact Nat.le_add_left _ _

/-- A step of the watcher takes one away only when it has been closed. -/
lemma watcher_works {s' : Program} (hmonitor : s'.monitor = s.monitor) (hmain : s'.main = s.main)
    (hclosed : s'.closed = s.closed) (hsize : s'.wv.size = s.wv.size)
    (hwatcher : s'.watcher.toEnd setup.restartUses s.wv.size + 1 ≤
      s.watcher.toEnd setup.restartUses s.wv.size) :
    (if s.closed then 1 else 0) + s'.toEnd setup ≤ s.toEnd setup := by
  unfold toEnd monitorsToEnd watcherToEnd
  rw [hmonitor, hmain, hclosed, hsize]
  split
  · omega
  · omega

/-- A step of the thread of a VM. -/
lemma monitor_works {i : Nat} (hi : i < setup.vmnum) {pos : MonitorAt}
    (hpos : pos.toEnd + 1 ≤ (s.monitor i).toEnd) :
    1 + (s.goes i pos).toEnd setup ≤ s.toEnd setup := by
  have hgoes := monitorsToEnd_goes (s := s) hi pos
  have hrest : (s.goes i pos).toEnd setup = (s.goes i pos).monitorsToEnd setup +
      s.main.toEnd setup.vmnum s.wv.size + s.watcherToEnd setup := rfl
  rw [hrest, toEnd]
  omega

lemma main_works (h : s.Placed setup) (ha : s.Enabled setup .main) :
    1 + (s.act setup .main).toEnd setup ≤ s.toEnd setup := by
  have hmain := mainNext_toEnd h ha
  have hwatcher : (s.act setup .main).watcherToEnd setup ≤ s.watcherToEnd setup := by
    cases hclosed : s.closed with
    | false =>
      have hopen : s.watcherToEnd setup = (3 + setup.restartUses) * s.wv.size + 1 := by
        simp [watcherToEnd, hclosed]
      rw [hopen]
      have hnext : (s.next setup .main).Placed setup := h.step ⟨ha, rfl⟩
      have hle := watcherToEnd_le hnext
      exact hle
    | true => simp [watcherToEnd, act, hclosed]
  have hrest : (s.act setup .main).toEnd setup = s.monitorsToEnd setup +
      (s.mainNext setup).toEnd setup.vmnum s.wv.size + (s.act setup .main).watcherToEnd setup := rfl
  rw [hrest, toEnd]
  omega

namespace Stopping

lemma works_toEnd (h : s.Stopping setup) {a : ProgramAction} (ha : s.Enabled setup a) :
    works s a + (s.act setup a).toEnd setup ≤ s.toEnd setup := by
  cases a with
  | signal | bootOpen | bootThread => exact (Nat.zero_add _).le
  | check i =>
    obtain ⟨-, hi, hloop⟩ := ha
    -- the thread leaves its loop
    have hact : s.act setup (.check i) = s.goes i .close := by
      simp only [act, h.interrupted i hi, if_true]
    rw [hact]
    exact monitor_works hi (by rw [hloop]; decide)
  | listen i calls interrupted =>
    obtain ⟨-, hi, hlisten, -⟩ := ha
    have hloop : MonitorAt.loop.toEnd + 1 ≤ (s.monitor i).toEnd := by rw [hlisten]; decide
    exact monitor_works hi hloop
  | close i =>
    obtain ⟨-, hi, hclose⟩ := ha
    have hfree : MonitorAt.free.toEnd + 1 ≤ (s.monitor i).toEnd := by rw [hclose]; decide
    exact monitor_works hi hfree
  | free i =>
    obtain ⟨-, hi, hfree⟩ := ha
    have hended : MonitorAt.ended.toEnd + 1 ≤ (s.monitor i).toEnd := by rw [hfree]; decide
    exact monitor_works hi hended
  | round =>
    cases hclosed : s.closed with
    | false => simp [works, toEnd, monitorsToEnd, watcherToEnd, act, hclosed]
    | true =>
      have hround : (s.act setup .round).watcher.toEnd setup.restartUses s.wv.size + 1 ≤
          s.watcher.toEnd setup.restartUses s.wv.size := by
        simp [act, hclosed, ha.2, WatcherAt.toEnd]
      exact watcher_works rfl rfl rfl rfl hround
  | visit i =>
    have hi := h.watching i (congrArg WatcherAt.vm ha.2)
    refine watcher_works rfl rfl rfl rfl ?_
    rw [ha.2]
    exact Nat.le_refl _
  | visited i ans =>
    have hi := h.watching i (congrArg WatcherAt.vm ha.2)
    have hone := visit_steps setup.restartUses hi
    simp only [act]
    split
    · refine watcher_works rfl rfl rfl rfl ?_
      rw [ha.2]
      simp only [WatcherAt.toEnd]
      omega
    · refine watcher_works rfl rfl rfl rfl ?_
      have hafter := s.afterVisit_toEnd setup.restartUses i
      rw [ha.2]
      refine (Nat.succ_le_succ hafter).trans ?_
      simp only [WatcherAt.toEnd]
      omega
  | restart i k =>
    obtain ⟨-, ⟨left, hrestarting⟩, -⟩ := ha
    refine watcher_works rfl rfl rfl rfl ?_
    simp only [act, hrestarting, WatcherAt.used, WatcherAt.toEnd]
    omega
  | restarted i result =>
    obtain ⟨-, left, hrestarting⟩ := ha
    refine watcher_works rfl rfl rfl rfl ?_
    have hafter := s.afterVisit_toEnd setup.restartUses i
    rw [hrestarting]
    refine (Nat.succ_le_succ hafter).trans ?_
    simp only [WatcherAt.toEnd]
    omega
  | main => exact main_works h.toPlaced ha

lemma step (h : s.Stopping setup) {a : ProgramAction} {s' : Program}
    (hstep : ProgramStep setup s a s') : s'.Stopping setup := by
  refine ⟨h.toPlaced.step hstep, ?_⟩
  obtain ⟨-, rfl⟩ := hstep
  intro i hi
  have hint := h.interrupted i hi
  change (s.act setup a).interrupted i = true
  cases a with
  | signal => exact if_pos hi
  | check j =>
    rcases act_check setup s j with hact | ⟨pos, -, hact⟩
    · rw [hact]
      exact hint
    · rw [hact]
      exact hint
  | listen j calls interrupted =>
    simp only [act]
    by_cases hij : i = j
    · subst hij
      simp [hint]
    · rw [Function.update_of_ne hij]
      exact hint
  | visited j ans =>
    simp only [act]
    split
    · exact hint
    · exact hint
  | _ => exact hint

lemma toEnd_le (h : s.Stopping setup) :
    s.toEnd setup ≤ (9 + setup.restartUses) * setup.vmnum + 7 := by
  have hmonitors : s.monitorsToEnd setup ≤ 4 * setup.vmnum := monitorsToEnd_le
  have hwatcher := watcherToEnd_le h.toPlaced
  have hsize : s.wv.size ≤ setup.vmnum := by
    rw [h.size_eq]
    split
    · exact Nat.le_refl _
    · exact Nat.zero_le _
  have hmain : s.main.toEnd setup.vmnum s.wv.size ≤ setup.vmnum + s.wv.size + 6 := by
    cases s.main <;> simp only [MainAt.toEnd] <;> omega
  have hround : (3 + setup.restartUses) * s.wv.size ≤ (3 + setup.restartUses) * setup.vmnum :=
    Nat.mul_le_mul_left _ hsize
  have hsplit : (9 + setup.restartUses) * setup.vmnum =
      6 * setup.vmnum + (3 + setup.restartUses) * setup.vmnum := by
    rw [← Nat.add_mul]
    congr 1
    omega
  unfold toEnd
  omega

end Stopping

/-- Until `main` has returned some thread can go on: the one that it waits for, or itself. -/
lemma Placed.goes_on (h : s.Placed setup) (hmain : s.main ≠ .returned) :
    ∃ a, s.Enabled setup a ∧ works s a = 1 := by
  cases hpos : s.main with
  | join i =>
    have hi := h.joining i hpos
    cases hmonitor : s.monitor i with
    | loop => exact ⟨.check i, ⟨hmain, hi, hmonitor⟩, rfl⟩
    | listen => exact ⟨.listen i [] false, ⟨hmain, hi, hmonitor, nofun⟩, rfl⟩
    | close => exact ⟨.close i, ⟨hmain, hi, hmonitor⟩, rfl⟩
    | free => exact ⟨.free i, ⟨hmain, hi, hmonitor⟩, rfl⟩
    | ended => exact ⟨.main, by simpa only [Enabled, hpos] using hmonitor, rfl⟩
  | wvJoin =>
    have hclosed : (if s.closed then 1 else 0) = 1 := if_pos (h.closing hpos)
    cases hwatcher : s.watcher with
    | head => exact ⟨.round, ⟨hmain, hwatcher⟩, hclosed⟩
    | visiting i => exact ⟨.visit i, ⟨hmain, hwatcher⟩, hclosed⟩
    | inVisit i => exact ⟨.visited i ⟨none, false, false, 0⟩, ⟨hmain, hwatcher⟩, hclosed⟩
    | restarting i left => exact ⟨.restarted i 0, ⟨hmain, left, hwatcher⟩, hclosed⟩
    | ended => exact ⟨.main, by simpa only [Enabled, hpos] using hwatcher, rfl⟩
  | returned => exact absurd hpos hmain
  | _ => exact ⟨.main, by simp only [Enabled, hpos], rfl⟩

end Program

/-- After a signal the threads of the VMs, `main`, and the watcher once it has been closed come to
nine steps for each VM and seven more in any run, and for each VM the uses of one call of
`hfm_restart_vmi`; until `main` has returned one of these steps can be taken. -/
theorem shutdown_bounded {setup : Setup} {names : Nat → CStr} {wv : Watcher}
    (hadd : addVms wvInit (Program.registrations setup names) = .ok wv)
    {tr : List (ProgramAction × Program)}
    (hrun : IsRun (ProgramStep setup) (Program.start setup wv) tr) {s : Program}
    (hsignal : ProgramStep setup (final (Program.start setup wv) tr) .signal s)
    {tr' : List (ProgramAction × Program)} (hrun' : IsRun (ProgramStep setup) s tr') :
    total works s tr' ≤ (9 + setup.restartUses) * setup.vmnum + 7 ∧
      ((final s tr').main = .returned ∨
        ∃ a s', ProgramStep setup (final s tr') a s' ∧ works (final s tr') a = 1) := by
  have hplaced : (final (Program.start setup wv) tr).Placed setup :=
    (hrun.always (fun _ _ _ h hstep => Program.Placed.step h hstep)
      (Program.start_placed hadd)).final
  have hstart : s.Stopping setup := by
    refine ⟨hplaced.step hsignal, fun i hi => ?_⟩
    rw [hsignal.2]
    exact if_pos hi
  have hstopping : Always (fun s => s.Stopping setup) s tr' :=
    hrun'.always (fun _ _ _ h hstep => h.step hstep) hstart
  refine ⟨?_, ?_⟩
  · have hpaid : ∀ s a s', s.Stopping setup → s'.Stopping setup → ProgramStep setup s a s' →
        works s a + s'.toEnd setup ≤ s.toEnd setup + 0 := by
      rintro s a s' h - ⟨ha, rfl⟩
      exact h.works_toEnd ha
    have hworks : total works s tr' + 0 ≤ s.toEnd setup + total (fun _ _ => 0) s tr' :=
      hrun'.total_le (fun _ _ => Nat.zero_le _) hpaid hstopping
    rw [total_zero] at hworks
    exact hworks.trans hstart.toEnd_le
  · rw [or_iff_not_imp_left]
    intro hmain
    obtain ⟨a, ha, hworks⟩ := hstopping.final.toPlaced.goes_on hmain
    exact ⟨a, _, ⟨ha, rfl⟩, hworks⟩

/-- The signal comes before anything else. -/
def signalled : Program := (Program.start oneVmSetup oneWatcher).next oneVmSetup .signal

/-- The watcher is in a visit when `main` comes to wait for it. -/
def stoppingRun : List (ProgramAction × Program) :=
  Program.trace oneVmSetup signalled
    [.check 0, .round, .close 0, .visit 0, .free 0, .main, .main, .main, .main, .main, .main,
      .main]

theorem shutdown_bounded_watcher :
    (final signalled stoppingRun).main = .wvJoin ∧ total works signalled stoppingRun = 10 ∧
      total works signalled stoppingRun ≤ 19 ∧
      ∃ a s', ProgramStep oneVmSetup (final signalled stoppingRun) a s' ∧
        works (final signalled stoppingRun) a = 1 := by
  have hadd : addVms wvInit (Program.registrations oneVmSetup fun _ => cstr "win7") =
      .ok oneWatcher := rfl
  have hrun : IsRun (ProgramStep oneVmSetup) (Program.start oneVmSetup oneWatcher) [] := trivial
  have hsignal : ProgramStep oneVmSetup (Program.start oneVmSetup oneWatcher) .signal signalled :=
    ⟨nofun, rfl⟩
  have hrun' : IsRun (ProgramStep oneVmSetup) signalled stoppingRun :=
    ⟨⟨⟨nofun, Nat.one_pos, rfl⟩, rfl⟩, ⟨⟨nofun, rfl⟩, rfl⟩, ⟨⟨nofun, Nat.one_pos, rfl⟩, rfl⟩,
      ⟨⟨nofun, rfl⟩, rfl⟩, ⟨⟨nofun, Nat.one_pos, rfl⟩, rfl⟩, ⟨rfl, rfl⟩, ⟨trivial, rfl⟩,
      ⟨trivial, rfl⟩, ⟨trivial, rfl⟩, ⟨trivial, rfl⟩, ⟨trivial, rfl⟩, ⟨trivial, rfl⟩, trivial⟩
  have hbounded := shutdown_bounded hadd hrun hsignal hrun'
  exact ⟨rfl, rfl, hbounded.1, hbounded.2.resolve_left nofun⟩

end Hfm

import Hfm.Support.Simulation
import Hfm.Watcher.Threads

/-!
# The end of the program

What is used and freed in the runs of the threads, from the start of them to the end of `main`.
-/

namespace Hfm

open Support

/-! ### What is there at each point -/

/-- How far `main` has come. -/
def MainAt.rank : MainAt → Nat
  | .join _ => 0
  | .freePolicies => 1
  | .logClose => 2
  | .configClose => 3
  | .monClose => 4
  | .wvFree _ => 5
  | .wvClosed => 6
  | .wvJoin => 7
  | .returned => 8

/-- The record of the VM has not been freed. -/
def MainAt.Keeps (i : Nat) (pos : MainAt) : Prop :=
  match pos with
  | .wvFree j => j ≤ i
  | pos => pos.rank < 5

namespace MainAt

lemma joining_rank (n i : Nat) : (joining n i).rank ≤ 1 := by
  unfold joining
  split
  · exact Nat.zero_le 1
  · exact Nat.le_refl 1

lemma joining_keeps (n i j : Nat) : (joining n i).Keeps j := by
  unfold joining
  split
  · exact Nat.succ_pos 4
  · exact Nat.succ_lt_succ (Nat.succ_pos 3)

lemma freeing_rank (size i : Nat) : 5 ≤ (freeing size i).rank := by
  unfold freeing
  split
  · exact Nat.le_refl 5
  · exact Nat.le_succ 5

lemma freeing_keeps {size j : Nat} (hj : j < size) (i : Nat) :
    (freeing size i).Keeps j ↔ i ≤ j := by
  unfold freeing
  split
  · exact Iff.rfl
  · refine iff_of_false (by simp [Keeps, rank]) (by omega)

end MainAt

namespace Program

variable (setup : Setup) (s : Program)

def Live : Shared → Prop
  | .policies => setup.policies = true ∧ s.main.rank ≤ 1
  | .log => s.main.rank ≤ 2
  | .config => s.main.rank ≤ 3
  | .patterns => s.main.rank ≤ 4
  | .vm i => i < setup.vmnum ∧ s.monitor i ≠ .ended
  | .watched i => setup.autoRestart = true ∧ i < setup.vmnum ∧ s.main.Keeps i

/-- The action comes before what it touches is freed. -/
def InTime : ProgramAction → Prop
  | .signal => ∀ i < setup.vmnum, s.monitor i ≠ .ended
  | .visit i => s.main.Keeps i ∧ (s.readsVmi i = true → s.monitor i ≠ .ended)
  | .visited i _ | .bootOpen i _ => s.main.Keeps i
  | .restart i .handler => s.monitor i ≠ .ended
  | .restart _ .policies => s.main.rank ≤ 1
  | .restart _ .log => s.main.rank ≤ 2
  | .restart _ .config => s.main.rank ≤ 3
  | .restarted i result => result = 0 → s.main.Keeps i
  | .bootThread i _ vmi => vmi = true → s.main.Keeps i
  | _ => True

/-- What holds at each point of a run whose actions came in time. -/
structure Exiting : Prop extends s.Placed setup where
  tracks : s.memory.Tracks (s.Live setup)

variable {setup : Setup} {s : Program}

namespace Exiting

lemma lt_size_iff (h : s.Exiting setup) (i : Nat) :
    i < s.wv.size ↔ setup.autoRestart = true ∧ i < setup.vmnum := by
  rw [h.size_eq]
  cases setup.autoRestart with
  | false => simp
  | true => simp

lemma watched (h : s.Exiting setup) {i : Nat} (hi : i < s.wv.size) :
    s.Live setup (.watched i) ↔ s.main.Keeps i := by
  obtain ⟨hauto, hi⟩ := (h.lt_size_iff i).mp hi
  exact ⟨fun hlive => hlive.2.2, fun hkeeps => ⟨hauto, hi, hkeeps⟩⟩

lemma vm (h : s.Exiting setup) {i : Nat} (hi : i < s.wv.size) :
    s.Live setup (.vm i) ↔ s.monitor i ≠ .ended :=
  and_iff_right ((h.lt_size_iff i).mp hi).2

/-- While the thread of a VM runs, `main` waits for it or for one in front of it. -/
lemma waits (h : s.Exiting setup) {i : Nat} (hi : i < setup.vmnum)
    (hmonitor : s.monitor i ≠ .ended) : ∃ j ≤ i, s.main = .join j := by
  have hnot : ¬s.main.Joined i := fun hjoined => hmonitor (h.joined i hi hjoined)
  cases hmain : s.main with
  | join j =>
    rw [hmain] at hnot
    exact ⟨j, Nat.not_lt.mp hnot, rfl⟩
  | _ =>
    rw [hmain] at hnot
    exact absurd trivial hnot

/-- What an action touches is there exactly if it comes in time; the threads of the VMs and `main`
are never late. -/
lemma touched_live_iff (h : s.Exiting setup) {a : ProgramAction} (ha : s.Enabled setup a) :
    (∀ k ∈ s.touched setup a, s.Live setup k) ↔ s.InTime setup a := by
  cases a with
  | signal =>
    simp only [touched, List.mem_map, List.mem_range, forall_exists_index, and_imp,
      forall_apply_eq_imp_iff₂, InTime, Live]
    exact ⟨fun hlive i hi => (hlive i hi).2, fun htime i hi => ⟨hi, htime i hi⟩⟩
  | check i =>
    obtain ⟨-, hi, hloop⟩ := ha
    have hmonitor : s.monitor i ≠ .ended := by rw [hloop]; decide
    obtain ⟨j, -, hmain⟩ := h.waits hi hmonitor
    refine iff_of_true (List.forall_mem_cons.mpr ⟨⟨hi, hmonitor⟩, fun k hk => ?_⟩) trivial
    split at hk
    · rename_i hauto
      have hkeeps (l : Nat) : s.main.Keeps l := by
        rw [hmain]
        exact Nat.succ_pos 4
      rcases List.mem_append.mp hk with hk | hk
      · obtain ⟨l, hl, rfl⟩ := List.mem_map.mp hk
        rw [List.mem_range] at hl
        exact ⟨hauto.2, by omega, hkeeps l⟩
      · rw [List.mem_singleton.mp hk]
        exact ⟨hauto.2, by omega, hkeeps 0⟩
    · cases hk
  | listen i calls interrupted =>
    obtain ⟨-, hi, hlisten, hpolicies⟩ := ha
    have hmonitor : s.monitor i ≠ .ended := by rw [hlisten]; decide
    obtain ⟨j, -, hmain⟩ := h.waits hi hmonitor
    refine iff_of_true (List.forall_mem_cons.mpr ⟨⟨hi, hmonitor⟩, fun k hk => ?_⟩) trivial
    obtain ⟨call, hcall, rfl⟩ := List.mem_map.mp hk
    -- `main` still waits for a thread, so that nothing has been freed
    cases call with
    | policies => exact ⟨hpolicies hcall, by simp [hmain, MainAt.rank]⟩
    | _ => simp [ListenUse.shared, Live, hmain, MainAt.rank]
  | close i =>
    obtain ⟨-, hi, hclose⟩ := ha
    have hmonitor : s.monitor i ≠ .ended := by rw [hclose]; decide
    obtain ⟨j, -, hmain⟩ := h.waits hi hmonitor
    refine iff_of_true ?_ trivial
    simp [touched, Live, hi, hmonitor, hmain, MainAt.rank]
  | free i => exact iff_of_true (fun k hk => absurd hk List.not_mem_nil) trivial
  | round => exact iff_of_true (fun k hk => absurd hk List.not_mem_nil) trivial
  | visit i =>
    have hi := h.watching i (congrArg WatcherAt.vm ha.2)
    rw [touched, List.forall_mem_cons, h.watched hi]
    refine and_congr_right fun _ => ?_
    cases s.readsVmi i with
    | false => simp
    | true => simp [h.vm hi]
  | visited i ans =>
    have hi := h.watching i (congrArg WatcherAt.vm ha.2)
    simp [touched, InTime, h.watched hi]
  | restart i k =>
    obtain ⟨-, ⟨left, hrestarting⟩, hpolicies⟩ := ha
    have hi := h.watching i (congrArg WatcherAt.vm hrestarting)
    rw [touched, List.forall_mem_singleton]
    cases k with
    | handler => exact h.vm hi
    | log => exact Iff.rfl
    | config => exact Iff.rfl
    | policies => exact and_iff_right (hpolicies rfl)
  | restarted i result =>
    obtain ⟨-, left, hrestarting⟩ := ha
    have hi := h.watching i (congrArg WatcherAt.vm hrestarting)
    by_cases hresult : result = 0
    · simp [touched, InTime, hresult, h.watched hi]
    · simp [touched, InTime, hresult]
  | bootOpen i n => simp [touched, InTime, h.watched ha.2.1]
  | bootThread i n vmi => cases vmi <;> simp [touched, InTime, h.watched ha.2.1]
  | main =>
    refine iff_of_true (fun k hk => ?_) trivial
    rw [touched] at hk
    split at hk
    · rename_i i hmain
      rw [List.mem_singleton.mp hk, h.watched (h.freeing i hmain), hmain]
      exact Nat.le_refl i
    · cases hk

/-- What is freed was there. -/
lemma freed_live (h : s.Exiting setup) {a : ProgramAction} (ha : s.Enabled setup a) {k : Shared}
    (hk : s.freed setup a = some k) : s.Live setup k := by
  cases a with
  | free i =>
    cases hk
    refine ⟨ha.2.1, ?_⟩
    rw [ha.2.2]
    decide
  | main =>
    unfold freed at hk
    cases hmain : s.main with
    | freePolicies =>
      simp only [hmain] at hk
      split at hk
      · rename_i hpolicies
        cases hk
        exact ⟨hpolicies, by simp [hmain, MainAt.rank]⟩
      · cases hk
    | wvFree i =>
      simp only [hmain] at hk
      cases hk
      rw [h.watched (h.freeing i hmain), hmain]
      exact Nat.le_refl i
    | logClose | configClose | monClose =>
      simp only [hmain] at hk
      cases hk
      simp [Live, hmain, MainAt.rank]
    | join | wvClosed | wvJoin | returned =>
      simp only [hmain] at hk
      cases hk
  | _ => cases hk

end Exiting

lemma live_congr {s' : Program} (hmonitor : ∀ i, s'.monitor i = .ended ↔ s.monitor i = .ended)
    (hmain : s'.main = s.main) (k : Shared) :
    s'.Live setup k ↔ s.Live setup k := by
  cases k with
  | vm i => simp [Live, hmonitor]
  | _ => simp [Live, hmain]

lemma goes_ended {i : Nat} (hfrom : s.monitor i ≠ .ended) {pos : MonitorAt} (hto : pos ≠ .ended)
    (j : Nat) : (s.goes i pos).monitor j = .ended ↔ s.monitor j = .ended := by
  unfold goes
  by_cases hj : j = i
  · subst hj
    simp [hfrom, hto]
  · simp [hj]

namespace Exiting

lemma live_main_iff (h : s.Exiting setup) (k : Shared) : (s.act setup .main).Live setup k ↔
    s.Live setup k ∧ s.freed setup .main ≠ some k := by
  cases hmain : s.main with
  | join i =>
    have hrank := MainAt.joining_rank setup.vmnum (i + 1)
    have hjoin : (MainAt.join i).rank = 0 := rfl
    have hnext : (s.act setup .main).main = .joining setup.vmnum (i + 1) := by
      simp only [act, mainNext, hmain]
    rw [and_iff_left (by simp [freed, hmain])]
    cases k with
    | vm j => exact Iff.rfl
    | watched j =>
      have hkeeps := MainAt.joining_keeps setup.vmnum (i + 1) j
      have hkeeps' : (MainAt.join i).Keeps j := Nat.succ_pos 4
      simp only [Live, hnext, hmain, hkeeps, hkeeps']
    | policies => simp only [Live, hnext, hmain, hjoin, hrank, Nat.zero_le]
    | log | config | patterns =>
      simp only [Live, hnext, hmain, hjoin]
      omega
  | monClose =>
    cases hauto : setup.autoRestart with
    | false => cases k <;> simp [Live, act, freed, mainNext, hmain, hauto, MainAt.rank]
    | true =>
      have hrank := MainAt.freeing_rank s.wv.size 0
      have hmon : MainAt.monClose.rank = 4 := rfl
      have hnext : (s.act setup .main).main = .freeing s.wv.size 0 := by
        simp only [act, mainNext, hmain, hauto, if_true]
      cases k with
      | vm j => simp [Live, act, freed, hmain]
      | watched j =>
        have hkeeps : MainAt.monClose.Keeps j := Nat.lt_succ_self 4
        simp only [Live, hnext, hmain, hkeeps, ← and_assoc, ← h.lt_size_iff, freed]
        rw [and_assoc]
        refine and_congr_right fun hj => ?_
        rw [MainAt.freeing_keeps hj]
        simp
      | policies =>
        simp only [Live, hnext, hmain, hmon]
        exact iff_of_false (fun hlive => absurd hlive.2 (by omega))
          fun hlive => absurd hlive.1.2 (by omega)
      | log | config =>
        simp only [Live, hnext, hmain, hmon]
        exact iff_of_false (by omega) fun hlive => absurd hlive.1 (by omega)
      | patterns =>
        simp only [Live, hnext, hmain, hmon, freed]
        exact iff_of_false (by omega) fun hlive => hlive.2 rfl
  | wvFree i =>
    have hrank := MainAt.freeing_rank s.wv.size (i + 1)
    have hfree : (MainAt.wvFree i).rank = 5 := rfl
    have hnext : (s.act setup .main).main = .freeing s.wv.size (i + 1) := by
      simp only [act, mainNext, hmain]
    cases k with
    | vm j => simp [Live, act, freed, hmain]
    | watched j =>
      have hkeeps : (MainAt.wvFree i).Keeps j ↔ i ≤ j := Iff.rfl
      simp only [Live, hnext, hmain, hkeeps, ← and_assoc, ← h.lt_size_iff, freed, ne_eq,
        Option.some.injEq, Shared.watched.injEq]
      rw [and_assoc]
      refine and_congr_right fun hj => ?_
      rw [MainAt.freeing_keeps hj]
      omega
    | policies =>
      simp only [Live, hnext, hmain, hfree]
      exact iff_of_false (fun hlive => absurd hlive.2 (by omega))
        fun hlive => absurd hlive.1.2 (by omega)
    | log | config | patterns =>
      simp only [Live, hnext, hmain, hfree]
      exact iff_of_false (by omega) fun hlive => absurd hlive.1 (by omega)
  | freePolicies =>
    cases k <;> simp [Live, act, freed, mainNext, hmain, MainAt.rank, MainAt.Keeps]
  | _ => cases k <;> simp [Live, act, freed, mainNext, hmain, MainAt.rank, MainAt.Keeps]

/-- After an action everything is there as before but for what it frees. -/
lemma live_act_iff (h : s.Exiting setup) {a : ProgramAction} (ha : s.Enabled setup a) (k : Shared) :
    (s.act setup a).Live setup k ↔ s.Live setup k ∧ s.freed setup a ≠ some k := by
  cases a with
  | free i =>
    cases k with
    | vm j =>
      by_cases hj : j = i
      · subst hj
        simp [act, goes, Live, freed]
      · simp [act, goes, Live, freed, hj, Ne.symm hj]
    | _ => simp [act, goes, Live, freed]
  | main => exact h.live_main_iff k
  | check i =>
    have hfrom : s.monitor i ≠ .ended := by rw [ha.2.2]; decide
    rw [and_iff_left (by simp [freed])]
    rcases act_check setup s i with hact | ⟨pos, hto, hact⟩
    · rw [hact]
    · rw [hact]
      exact live_congr (goes_ended hfrom hto) rfl k
  | listen i calls interrupted =>
    have hfrom : s.monitor i ≠ .ended := by rw [ha.2.2.1]; decide
    have hto : MonitorAt.loop ≠ .ended := by decide
    rw [and_iff_left (by simp [freed])]
    exact live_congr (goes_ended hfrom hto) rfl k
  | close i =>
    have hfrom : s.monitor i ≠ .ended := by rw [ha.2.2]; decide
    have hto : MonitorAt.free ≠ .ended := by decide
    rw [and_iff_left (by simp [freed])]
    exact live_congr (goes_ended hfrom hto) rfl k
  | visited i ans =>
    rw [and_iff_left (by simp [freed])]
    simp only [act]
    split
    · exact live_congr (fun _ => Iff.rfl) rfl k
    · exact live_congr (fun _ => Iff.rfl) rfl k
  | _ => exact (live_congr (fun _ => Iff.rfl) rfl k).trans (and_iff_left (by simp [freed])).symm

lemma step (h : s.Exiting setup) {a : ProgramAction} {s' : Program}
    (hstep : ProgramStep setup s a s') (htime : s.InTime setup a) : s'.Exiting setup := by
  refine ⟨h.toPlaced.step hstep, ?_⟩
  obtain ⟨ha, rfl⟩ := hstep
  have hused := h.tracks.uses ((h.touched_live_iff ha).mpr htime)
  unfold next
  cases hfreed : s.freed setup a with
  | none =>
    apply hused.congr
    intro k
    exact (h.live_act_iff ha k).trans (and_iff_left (by simp [hfreed]))
  | some k =>
    apply (hused.release (h.freed_live ha hfreed)).congr
    intro j
    rw [ne_comm, ← Option.some_inj.ne, ← hfreed]
    exact h.live_act_iff ha j

/-- A step uses and frees what is there exactly if its action comes in time. -/
lemma proper_iff (h : s.Exiting setup) {a : ProgramAction} {s' : Program}
    (hstep : ProgramStep setup s a s') : ProperUse s'.memory.log ↔ s.InTime setup a := by
  obtain ⟨ha, rfl⟩ := hstep
  rw [← h.touched_live_iff ha]
  have hused : ProperUse (s.memory.uses (s.touched setup a)).log ↔
      ∀ k ∈ s.touched setup a, s.Live setup k := h.tracks.proper_uses_iff
  unfold next
  cases hfreed : s.freed setup a with
  | none => exact hused
  | some k =>
    refine Iff.trans ⟨fun hproper => hproper.2, fun hproper => ?_⟩ hused
    have hlive := hused.mp hproper
    exact ((h.tracks.uses hlive).release (h.freed_live ha hfreed)).proper

/-- At the end nothing is left. -/
lemma returned (h : s.Exiting setup) (hreturned : s.main = .returned) (k : Shared) :
    ¬s.Live setup k := by
  cases k with
  | vm i =>
    rintro ⟨hi, hmonitor⟩
    refine hmonitor (h.joined i hi ?_)
    rw [hreturned]
    trivial
  | _ => simp [Live, hreturned, MainAt.Keeps, MainAt.rank]

end Exiting

lemma resources_nodup (setup : Setup) : (resources setup).Nodup := by
  have hvm : ((List.range setup.vmnum).map Shared.vm).Nodup :=
    List.nodup_range.map fun i j h => by cases h; rfl
  have hwatched : ((List.range setup.vmnum).map Shared.watched).Nodup :=
    List.nodup_range.map fun i j h => by cases h; rfl
  unfold resources
  cases setup.policies <;> cases setup.autoRestart <;>
    simp [List.nodup_append, hvm, hwatched]

lemma live_start_iff (wv : Watcher) (k : Shared) :
    (start setup wv).Live setup k ↔ k ∈ resources setup := by
  have hrank := MainAt.joining_rank setup.vmnum 0
  cases k with
  | policies => cases hpolicies : setup.policies <;> simp [Live, start, resources, hrank, hpolicies]
  | log | config | patterns =>
    simp only [Live, start, resources]
    simp
    omega
  | vm i => cases hauto : setup.autoRestart <;> simp [Live, start, resources, hauto]
  | watched i =>
    cases hauto : setup.autoRestart <;>
      simp [Live, start, resources, hauto, MainAt.joining_keeps]

lemma start_exiting {names : Nat → CStr} {wv : Watcher}
    (hadd : addVms wvInit (registrations setup names) = .ok wv) :
    (start setup wv).Exiting setup := by
  refine ⟨start_placed hadd, ?_⟩
  have hcreated : (Handles.empty.creates (resources setup)).Tracks fun k =>
      False ∨ k ∈ resources setup :=
    Handles.tracks_empty.creates (resources_nodup setup) fun _ _ h => h
  apply hcreated.congr
  intro k
  rw [false_or]
  exact live_start_iff wv k

end Program

/-- In every run nothing is used or freed after it was freed exactly if no signal arrives after
the thread of some VM has ended, and the watcher and its boot threads come in time. When `main`
returns then, everything has been freed once. -/
theorem exit_proper_iff {setup : Setup} {names : Nat → CStr} {wv : Watcher}
    (hadd : addVms wvInit (Program.registrations setup names) = .ok wv)
    {tr : List (ProgramAction × Program)}
    (hrun : IsRun (ProgramStep setup) (Program.start setup wv) tr) :
    (Always (fun s => ProperUse s.memory.log) (Program.start setup wv) tr ↔
      Meets (fun s => s.InTime setup) (Program.start setup wv) tr) ∧
    (Meets (fun s => s.InTime setup) (Program.start setup wv) tr →
      (final (Program.start setup wv) tr).main = .returned → ∀ k n,
        .create k n ∈ (final (Program.start setup wv) tr).memory.log →
          (final (Program.start setup wv) tr).memory.log.count (.release k n) = 1) := by
  have hstart := Program.start_exiting hadd
  refine ⟨?_, fun htime hreturned k n hcreate => ?_⟩
  · exact hrun.always_iff_meets_of (J := fun s => s.Exiting setup) (fun s h => h.tracks.proper)
      (fun s a s' h htime hstep => h.step hstep htime)
      (fun s a s' h hlate hstep hproper => hlate ((h.proper_iff hstep).mp hproper)) hstart
  · have hend := ((hrun.meets htime).always (P := fun s => s.Exiting setup)
      (fun s a s' h hstep => h.step hstep.2 hstep.1) hstart).final
    exact hend.tracks.released_once (hend.returned hreturned) hcreate

/-- The states that the actions lead through. -/
def Program.trace (setup : Setup) : Program → List ProgramAction → List (ProgramAction × Program)
  | _, [] => []
  | s, a :: actions => (a, s.next setup a) :: trace setup (s.next setup a) actions

def oneVmSetup : Setup := ⟨true, 1, true, 3⟩

def oneWatcher : Watcher :=
  (addVms wvInit (Program.registrations oneVmSetup fun _ => cstr "win7")).toOption.getD wvInit

/-- An event whose file is extracted, a signal, the end of the thread of the VM, and the rest of
`main`; the watcher comes to its loop when it has been closed. -/
def exitRun : List (ProgramAction × Program) :=
  Program.trace oneVmSetup (Program.start oneVmSetup oneWatcher)
    [.check 0, .listen 0 [.patterns, .config, .policies] false, .signal, .check 0, .close 0,
      .free 0, .main, .main, .main, .main, .main, .main, .main, .round, .main]

theorem exit_proper_signal :
    (final (Program.start oneVmSetup oneWatcher) exitRun).main = .returned ∧
      Always (fun s => ProperUse s.memory.log) (Program.start oneVmSetup oneWatcher) exitRun ∧
      ∀ k n, .create k n ∈ (final (Program.start oneVmSetup oneWatcher) exitRun).memory.log →
        (final (Program.start oneVmSetup oneWatcher) exitRun).memory.log.count (.release k n) = 1 := by
  have hadd : addVms wvInit (Program.registrations oneVmSetup fun _ => cstr "win7") =
      .ok oneWatcher := rfl
  have hrun : IsRun (ProgramStep oneVmSetup) (Program.start oneVmSetup oneWatcher) exitRun :=
    ⟨⟨⟨nofun, Nat.one_pos, rfl⟩, rfl⟩, ⟨⟨nofun, Nat.one_pos, rfl, fun _ => rfl⟩, rfl⟩,
      ⟨nofun, rfl⟩, ⟨⟨nofun, Nat.one_pos, rfl⟩, rfl⟩, ⟨⟨nofun, Nat.one_pos, rfl⟩, rfl⟩,
      ⟨⟨nofun, Nat.one_pos, rfl⟩, rfl⟩, ⟨rfl, rfl⟩, ⟨trivial, rfl⟩, ⟨trivial, rfl⟩,
      ⟨trivial, rfl⟩, ⟨trivial, rfl⟩, ⟨trivial, rfl⟩, ⟨trivial, rfl⟩, ⟨⟨nofun, rfl⟩, rfl⟩,
      ⟨rfl, rfl⟩, trivial⟩
  have hsignal : (final (Program.start oneVmSetup oneWatcher) (exitRun.take 2)).InTime oneVmSetup
      .signal := by
    intro i hi
    obtain rfl := Nat.lt_one_iff.mp hi
    exact nofun
  have htime : Meets (fun s => s.InTime oneVmSetup) (Program.start oneVmSetup oneWatcher) exitRun :=
    ⟨trivial, trivial, hsignal, trivial, trivial, trivial, trivial, trivial, trivial, trivial,
      trivial, trivial, trivial, trivial, trivial, trivial⟩
  have hproper := exit_proper_iff hadd hrun
  exact ⟨rfl, hproper.1.mpr htime, hproper.2 htime rfl⟩

end Hfm

import Hfm.Watcher.Abandoned

/-!
# Waiting for a boot

`src/multiwatch.c`: a boot thread runs `_wait_for_booting` in front of setting `boot_done`. Its
event callback keeps the last value of CR3 in a variable that all boot threads share.
-/

namespace Hfm

open Support

/-! ### A boot attempt -/

/-- A boot thread in `_wait_for_booting`: the reads of `MSR_LSTAR` it made, the writes of CR3 that
its event has seen since, `init`, and whether the event is registered. -/
structure BootWait where
  reads : List (Option UInt64)
  writes : List UInt64
  init : Bool
  registered : Bool

/-- The reads that the first loop makes of these answers; a failed one leaves `lstar`. -/
def lstarLoop (status : Bool) (lstar : UInt64) : List (Option UInt64) → List (Option UInt64)
  | [] => []
  | answer :: answers =>
    if status = true ∧ lstar ≠ 0 then
      answer :: lstarLoop answer.isSome (answer.getD lstar) answers
    else []

/-- `_wait_for_booting` up to its second loop. -/
def waitForBooting (answers : List (Option UInt64)) (registered : Bool) : BootWait where
  reads := lstarLoop false 0 answers
  writes := []
  init := false
  registered

/-- `cr3_cb`, with the static variable `prev`. -/
def cr3Cb (prev : UInt64) (w : BootWait) (cr3 : UInt64) : UInt64 × BootWait :=
  let w := { w with writes := w.writes ++ [cr3] }
  if prev ≠ 0 ∧ prev ≠ cr3 then (cr3, { w with init := true, registered := false }) else (cr3, w)

/-! ### All boot attempts -/

/-- The watcher with the boot threads that wait, by VM and cycle, and those that have set
`boot_done`, the last first. -/
structure BootState where
  watch : Watcher × Nat
  prev : UInt64
  waits : Nat → Nat → Option BootWait
  done : List BootWait

/-- `start` is the way of a boot thread to its second loop, `listen` the end of a call of
`vmi_events_listen` there. -/
inductive BootAction where
  | visit (i : Nat) (ans : VisitAnswers)
  | start (i n : Nat) (vmi : Bool) (answers : List (Option UInt64)) (registered : Bool)
  | cr3 (i n : Nat) (value : UInt64)
  | listen (i n : Nat) (ok : Bool)

namespace BootState

def setWait (s : BootState) (i n : Nat) (w : Option BootWait) : BootState :=
  { s with waits := Function.update s.waits i (Function.update (s.waits i) n w) }

/-- The boot thread of cycle `n` ends. -/
def endThread (s : BootState) (i n : Nat) (vmi : Bool) : BootState :=
  { s with watch := (s.watch.1.set i (waitBootFc (s.watch.1.hdlr i) n vmi), s.watch.2) }

/-- `_wait_for_booting` has returned. -/
def complete (s : BootState) (i n : Nat) (w : BootWait) : BootState :=
  { (s.setWait i n none).endThread i n true with done := w :: s.done }

/-- A boot thread runs that does not wait yet. -/
def Started (s : BootState) (i n : Nat) : Prop :=
  i < s.watch.1.size ∧ n ∈ (s.watch.1.hdlr i).threads

def Step (s : BootState) : BootAction → BootState → Prop
  | .visit i ans, s' => ∃ watch, WatchStep s.watch (i, .visit ans) watch ∧ s' = { s with watch }
  | .start i n vmi answers registered, s' => s.Started i n ∧ s.waits i n = none ∧
      s' = if vmi then s.setWait i n (some (waitForBooting answers registered))
        else s.endThread i n false
  | .cr3 i n value, s' => ∃ w, s.waits i n = some w ∧ w.registered = true ∧
      s' = { s.setWait i n (some (cr3Cb s.prev w value).2) with prev := (cr3Cb s.prev w value).1 }
  | .listen i n ok, s' => s.Started i n ∧ ∃ w, s.waits i n = some w ∧
      s' = if ok = true ∧ w.init = false then s else s.complete i n w

end BootState

/-- In the attempt `MSR_LSTAR` was read and not zero, and then two writes of CR3 were seen, with
different values that are not zero. -/
structure BootWait.Detected (w : BootWait) : Prop where
  lstar : ∃ lstar, some lstar ∈ w.reads ∧ lstar ≠ 0
  cr3 : ∃ a ∈ w.writes, ∃ b ∈ w.writes, a ≠ 0 ∧ b ≠ 0 ∧ a ≠ b

namespace BootState

/-- Every attempt that has set `boot_done` has detected the boot. -/
def AllDetected (s : BootState) : Prop := ∀ w ∈ s.done, w.Detected

/-- No call of `vmi_events_listen` fails, and none returns to a thread whose event has ended the
wait. -/
def KeepsWaiting (s : BootState) : BootAction → Prop
  | .listen i n ok => ∀ w, s.waits i n = some w → ok = true ∧ w.init = false
  | _ => True

/-- Nothing has been read of `MSR_LSTAR` by the threads that wait. -/
def Unread (s : BootState) : Prop := ∀ i n w, s.waits i n = some w → w.reads = []

/-! ### Steps -/

lemma setWait_waits (s : BootState) (i n : Nat) (w : Option BootWait) (j m : Nat) :
    (s.setWait i n w).waits j m = if j = i ∧ m = n then w else s.waits j m := by
  unfold setWait
  dsimp only
  by_cases hj : j = i
  · subst hj
    rw [Function.update_self]
    by_cases hm : m = n
    · subst hm
      rw [Function.update_self, if_pos ⟨rfl, rfl⟩]
    · rw [Function.update_of_ne hm, if_neg fun h => hm h.2]
  · rw [Function.update_of_ne hj, if_neg fun h => hj h.1]

/-- A thread that waits for the first time, or goes on, has read nothing. -/
lemma Unread.setWait {s : BootState} (h : s.Unread) {i n : Nat} {w : Option BootWait}
    (hw : ∀ w', w = some w' → w'.reads = []) : (s.setWait i n w).Unread := by
  intro j m w' hwait
  rw [setWait_waits] at hwait
  split at hwait
  · exact hw w' hwait
  · exact h j m w' hwait

/-- The first loop makes no read, since no read has succeeded before it. -/
lemma lstarLoop_eq_nil (answers : List (Option UInt64)) : lstarLoop false 0 answers = [] := by
  cases answers with
  | nil => rfl
  | cons answer answers => exact if_neg fun h => h.2 rfl

lemma cr3Cb_reads (prev : UInt64) (w : BootWait) (cr3 : UInt64) :
    (cr3Cb prev w cr3).2.reads = w.reads := by
  unfold cr3Cb
  dsimp only
  split
  · rfl
  · rfl

lemma Unread.step {s s' : BootState} {a : BootAction} (h : s.Unread) (hstep : s.Step a s') :
    s'.Unread := by
  cases a with
  | visit i ans =>
    obtain ⟨watch, -, rfl⟩ := hstep
    exact h
  | start i n vmi answers registered =>
    obtain ⟨-, -, rfl⟩ := hstep
    cases vmi with
    | false => exact h
    | true =>
      refine h.setWait fun w hw => ?_
      cases hw
      exact lstarLoop_eq_nil answers
  | cr3 i n value =>
    obtain ⟨w, hw, -, rfl⟩ := hstep
    refine h.setWait (s := s) (i := i) (n := n) fun w' hw' => ?_
    cases hw'
    rw [cr3Cb_reads]
    exact h i n w hw
  | listen i n ok =>
    obtain ⟨-, w, -, rfl⟩ := hstep
    split
    · exact h
    · exact h.setWait (s := s) (i := i) (n := n) fun w' hw' => by cases hw'

/-- A thread that completes has detected nothing. -/
lemma step_iff {s s' : BootState} {a : BootAction} (h : s.Unread) (hall : s.AllDetected)
    (hstep : s.Step a s') : s'.AllDetected ↔ s.KeepsWaiting a := by
  cases a with
  | visit i ans =>
    obtain ⟨watch, -, rfl⟩ := hstep
    exact iff_of_true hall trivial
  | start i n vmi answers registered =>
    obtain ⟨-, -, rfl⟩ := hstep
    cases vmi with
    | false => exact iff_of_true hall trivial
    | true => exact iff_of_true hall trivial
  | cr3 i n value =>
    obtain ⟨w, -, -, rfl⟩ := hstep
    exact iff_of_true hall trivial
  | listen i n ok =>
    obtain ⟨-, w, hw, rfl⟩ := hstep
    by_cases hwaits : ok = true ∧ w.init = false
    · rw [if_pos hwaits]
      refine iff_of_true hall fun w' hw' => ?_
      rw [hw] at hw'
      cases hw'
      exact hwaits
    · rw [if_neg hwaits]
      refine iff_of_false (fun hall' => ?_) fun hkeeps => hwaits (hkeeps w hw)
      obtain ⟨lstar, hread, -⟩ := (hall' w List.mem_cons_self).lstar
      rw [h i n w hw] at hread
      cases hread

/-! ### The watcher under the boot threads -/

/-- No boot thread waits yet. -/
def start (wv : Watcher) : BootState := ⟨(wv, 0), 0, fun _ _ => none, []⟩

end BootState

/-- Boots are detected from what is seen of them exactly as long as every attempt keeps waiting. -/
theorem boots_detected_iff {wv : Watcher} {tr : List (BootAction × BootState)}
    (h : IsRun BootState.Step (.start wv) tr) :
    Always BootState.AllDetected (.start wv) tr ↔ Meets BootState.KeepsWaiting (.start wv) tr := by
  have hunread : (BootState.start wv).Unread := fun i n w hw => by cases hw
  have hnone : (BootState.start wv).AllDetected := fun w hw => by cases hw
  refine h.always_iff_meets ?_ ?_ hunread hnone
  · exact fun _ _ _ hunread _ hstep => hunread.step hstep
  · exact fun _ _ _ hunread hall hstep => BootState.step_iff hunread hall hstep

def watching (wv : Watcher) : BootState := { BootState.start wv with watch := (wv, 0) }

/-- The thread of the first boot of a VM has got an instance, and waits. -/
def firstWait : BootState := (watching oneBooting).setWait 0 1 (some (waitForBooting [] true))

/-- The VM goes down and boots again. -/
def firstBoot : List (BootAction × BootState) :=
  [(.visit 0 (pinged none), watching (visitFirst oneVm)),
    (.visit 0 (pinged none), watching (visitFirst (visitFirst oneVm))),
    (.visit 0 (pinged none), watching oneBooting), (.start 0 1 true [] true, firstWait)]

lemma run_firstBoot {tr : List (BootAction × BootState)} (h : IsRun BootState.Step firstWait tr) :
    IsRun BootState.Step (.start oneVm) (firstBoot ++ tr) := by
  have hvisit (wv : Watcher) (hsize : wv.size = 1) :
      (watching wv).Step (.visit 0 (pinged none)) (watching (visitFirst wv)) := by
    refine ⟨(visitFirst wv, 0), ⟨by simp [watching, hsize], _, rfl, rfl, rfl, ?_⟩, rfl⟩
    simp [watching, hsize]
  have hstart : (watching oneBooting).Step (.start 0 1 true [] true) firstWait := by
    refine ⟨⟨by decide, ?_⟩, rfl, rfl⟩
    decide
  exact ⟨hvisit _ rfl, hvisit _ rfl, hvisit _ rfl, hstart, h⟩

/-- The wait of the first boot goes on after a write of CR3. -/
theorem boots_detected_iff_waiting :
    let w := waitForBooting [] true
    let s := { firstWait.setWait 0 1 (some (cr3Cb 0 w 0x187000).2) with prev := 0x187000 }
    Always BootState.AllDetected (.start oneVm)
        (firstBoot ++ [(.cr3 0 1 0x187000, s), (.listen 0 1 true, s)]) ↔
      Meets BootState.KeepsWaiting (.start oneVm)
        (firstBoot ++ [(.cr3 0 1 0x187000, s), (.listen 0 1 true, s)]) := by
  refine boots_detected_iff (run_firstBoot ⟨⟨waitForBooting [] true, rfl, rfl, rfl⟩, ?_, trivial⟩)
  refine ⟨⟨by decide, by decide⟩, _, rfl, ?_⟩
  rfl

/-- The first call of `vmi_events_listen` fails, and `boot_done` is set. -/
theorem boot_done_unseen :
    ∃ tr, IsRun BootState.Step (.start oneVm) tr ∧
      ¬Always BootState.AllDetected (.start oneVm) tr := by
  have hlisten : firstWait.Step (.listen 0 1 false)
      (firstWait.complete 0 1 (waitForBooting [] true)) :=
    ⟨⟨by decide, by decide⟩, _, rfl, rfl⟩
  have hrun : IsRun BootState.Step firstWait
      [(.listen 0 1 false, firstWait.complete 0 1 (waitForBooting [] true))] := ⟨hlisten, trivial⟩
  refine ⟨_, run_firstBoot hrun, fun h => ?_⟩
  obtain ⟨lstar, hread, -⟩ := (h.2.2.2.2.2 _ List.mem_cons_self).lstar
  cases hread

end Hfm

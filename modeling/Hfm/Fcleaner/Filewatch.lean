import Hfm.Basic
import Hfm.Support.Lines
import Hfm.Support.Run
import Mathlib.Data.List.TakeWhile

/-!
# The file watcher

`_watch_file` of `src/fcleaner/filewatch.c`, which polls a file that another program appends to.
The callback of `filewatch_set_cb` is called by nothing, and left out.
-/

namespace Hfm

open Support

def NEWLINE : UInt8 := 0x0a

/-- `getline` at a position with `rest` in front of it; `none` for -1. Without a newline it returns
all that there is. -/
def getline (rest : List UInt8) : Option (List UInt8) :=
  if rest = [] then none
  else some (rest.takeWhile (· ≠ NEWLINE) ++ (rest.dropWhile (· ≠ NEWLINE)).take 1)

/-- The file, the variables of `_watch_file`, and the strings that it has read as lines. -/
structure Filewatch where
  file : List UInt8
  stop : Bool
  latestPos : Nat
  consumed : List (List UInt8)

inductive WatchAction where
  | append (chunk : List UInt8)
  | poll
  | stop

namespace Filewatch

/-- `filewatch_init` and `filewatch_start` on a file. -/
def start (file : List UInt8) : Filewatch := ⟨file, false, 0, []⟩

/-- What `fseek` leaves in front of the position. -/
def unread (fw : Filewatch) : List UInt8 := fw.file.drop fw.latestPos

/-- A pass of the loop of `_watch_file`. -/
def poll (fw : Filewatch) : Filewatch :=
  match getline fw.unread with
  | none => fw
  | some line =>
    { fw with latestPos := fw.latestPos + line.length, consumed := fw.consumed ++ [line] }

def Step (fw : Filewatch) (a : WatchAction) (fw' : Filewatch) : Prop :=
  match a with
  | .append chunk => fw' = { fw with file := fw.file ++ chunk }
  | .poll => fw.stop = false ∧ fw' = fw.poll
  | .stop => fw' = { fw with stop := true }

/-- What was read as lines are the first lines of the file. -/
def WholeLines (fw : Filewatch) : Prop := fw.consumed <+: lines NEWLINE fw.file

/-- A poll does not come between the chunks of a line. -/
def Settled (fw : Filewatch) (a : WatchAction) : Prop :=
  a = .poll → fw.unread ≠ [] → NEWLINE ∈ fw.unread

/-- No byte in front of the position was lost or read twice. -/
structure InStep (fw : Filewatch) : Prop where
  consumed : fw.consumed.flatten ++ fw.unread = fw.file
  latestPos : fw.latestPos = fw.consumed.flatten.length

/-! ### A line -/

lemma getline_line {s : List UInt8} (hs : NEWLINE ∉ s) (t : List UInt8) :
    getline (s ++ NEWLINE :: t) = some (s ++ [NEWLINE]) := by
  have hall : ∀ c ∈ s, decide (c ≠ NEWLINE) = true := fun c hc =>
    decide_eq_true fun h => hs (h ▸ hc)
  unfold getline
  rw [if_neg (by simp), List.takeWhile_append_of_pos hall, List.dropWhile_append_of_pos hall,
    List.takeWhile_cons_of_neg (by simp), List.dropWhile_cons_of_neg (by simp), List.append_nil]
  rfl

lemma getline_unfinished {rest : List UInt8} (hne : rest ≠ []) (h : NEWLINE ∉ rest) :
    getline rest = some rest := by
  have hall : ∀ c ∈ rest, decide (c ≠ NEWLINE) = true := fun c hc =>
    decide_eq_true fun heq => h (heq ▸ hc)
  unfold getline
  rw [if_neg hne, List.takeWhile_eq_self_iff.mpr hall, List.dropWhile_eq_nil_iff.mpr hall,
    List.take_nil, List.append_nil]

/-- A line is a prefix of what is there. -/
lemma getline_prefix {rest line : List UInt8} (h : getline rest = some line) : line <+: rest := by
  unfold getline at h
  split at h
  · cases h
  · rw [← Option.some.inj h]
    refine ⟨(rest.dropWhile (· ≠ NEWLINE)).drop 1, ?_⟩
    rw [List.append_assoc, List.take_append_drop, List.takeWhile_append_dropWhile]

/-! ### A step -/

variable {fw fw' : Filewatch}

lemma start_inStep (file : List UInt8) : (start file).InStep := ⟨rfl, rfl⟩

lemma start_wholeLines (file : List UInt8) : (start file).WholeLines := List.nil_prefix

lemma InStep.append (h : fw.InStep) (chunk : List UInt8) :
    InStep { fw with file := fw.file ++ chunk } := by
  have hle : fw.latestPos ≤ fw.file.length := by
    rw [← h.consumed, List.length_append, h.latestPos]
    exact Nat.le_add_right _ _
  refine ⟨?_, h.latestPos⟩
  unfold unread
  rw [List.drop_append_of_le_length hle, ← List.append_assoc]
  exact congrArg (· ++ chunk) h.consumed

lemma InStep.poll (h : fw.InStep) : fw.poll.InStep := by
  unfold Filewatch.poll
  cases hline : getline fw.unread with
  | none => exact h
  | some line =>
    obtain ⟨rest, hrest⟩ := getline_prefix hline
    have hunread : fw.file.drop (fw.latestPos + line.length) = rest := by
      rw [← List.drop_drop]
      have := congrArg (List.drop line.length) hrest
      rwa [List.drop_left, eq_comm] at this
    constructor
    · dsimp only [unread]
      rw [hunread, List.flatten_append, List.flatten_singleton, List.append_assoc, hrest]
      exact h.consumed
    · dsimp only
      rw [List.flatten_append, List.flatten_singleton, List.length_append, ← h.latestPos]

lemma InStep.step {a : WatchAction} (h : fw.InStep) (hstep : fw.Step a fw') : fw'.InStep := by
  cases a with
  | append chunk =>
    cases hstep
    exact h.append chunk
  | poll =>
    obtain ⟨-, rfl⟩ := hstep
    exact h.poll
  | stop =>
    cases hstep
    exact ⟨h.consumed, h.latestPos⟩

lemma WholeLines.append (h : fw.WholeLines) (chunk : List UInt8) :
    WholeLines { fw with file := fw.file ++ chunk } :=
  h.trans (lines_grow NEWLINE fw.file chunk)

/-- Behind whole lines stand the other lines, and what is not finished. -/
lemma WholeLines.unread_eq (hin : fw.InStep) (h : fw.WholeLines) : ∃ more rest,
    lines NEWLINE fw.file = fw.consumed ++ more ∧ (∀ line ∈ more, IsLine NEWLINE line) ∧
      fw.unread = more.flatten ++ rest ∧ NEWLINE ∉ rest := by
  obtain ⟨more, hmore⟩ := h
  obtain ⟨rest, hsplit, hrest⟩ := lines_split NEWLINE fw.file
  refine ⟨more, rest, hmore.symm, fun line hline => ?_, ?_, hrest⟩
  · refine isLine_of_mem (?_ : _ ∈ lines NEWLINE fw.file)
    rw [← hmore]
    exact List.mem_append_right _ hline
  · rw [← hmore, List.flatten_append, List.append_assoc] at hsplit
    exact List.append_cancel_left (hin.consumed.trans hsplit)

/-- A poll keeps the lines whole exactly where a line is finished or nothing is left. -/
lemma WholeLines.poll_iff (hin : fw.InStep) (h : fw.WholeLines) :
    fw.poll.WholeLines ↔ fw.Settled .poll := by
  obtain ⟨more, rest, hlines, hmore, hunread, hrest⟩ := h.unread_eq hin
  cases more with
  | nil =>
    rw [List.flatten_nil, List.nil_append] at hunread
    by_cases hempty : rest = []
    · refine iff_of_true ?_ fun _ hne => absurd (hunread.trans hempty) hne
      have hpoll : fw.poll = fw := by
        unfold Filewatch.poll
        rw [hunread, hempty]
        rfl
      rw [hpoll]
      exact h
    · refine iff_of_false (fun hpoll => ?_) fun hsettled =>
        hrest (hunread ▸ hsettled rfl (hunread ▸ hempty))
      unfold Filewatch.poll WholeLines at hpoll
      rw [hunread, getline_unfinished hempty hrest] at hpoll
      have hmem := hpoll.subset (List.mem_append_right _ (List.mem_singleton_self rest))
      exact hrest (isLine_of_mem hmem).mem
  | cons line more =>
    obtain ⟨s, hs, rfl⟩ := hmore line List.mem_cons_self
    refine iff_of_true ?_ fun _ _ => ?_
    · unfold Filewatch.poll WholeLines
      rw [hunread, List.flatten_cons, List.append_assoc, List.append_assoc, List.singleton_append,
        getline_line hs]
      dsimp only
      rw [hlines]
      exact ⟨more, by rw [List.append_assoc]; rfl⟩
    · rw [hunread]
      simp

lemma wholeLines_step_iff {a : WatchAction} (hin : fw.InStep) (h : fw.WholeLines)
    (hstep : fw.Step a fw') : fw'.WholeLines ↔ fw.Settled a := by
  cases a with
  | append chunk =>
    cases hstep
    exact iff_of_true (h.append chunk) fun ha => by cases ha
  | poll =>
    obtain ⟨-, rfl⟩ := hstep
    exact h.poll_iff hin
  | stop =>
    cases hstep
    exact iff_of_true h fun ha => by cases ha

/-! ### Runs -/

/-- The lines stay whole in a run exactly if no poll of it comes between the chunks of a line. -/
theorem wholeLines_iff_settled (file : List UInt8) (tr : List (WatchAction × Filewatch))
    (hrun : IsRun Step (start file) tr) :
    Always WholeLines (start file) tr ↔ Meets Settled (start file) tr :=
  hrun.always_iff_meets (J := InStep) (C := Settled) (fun _ _ _ hin _ hstep => hin.step hstep)
    (fun _ _ _ hin h hstep => wholeLines_step_iff hin h hstep) (start_inStep file)
    (start_wholeLines file)

/-- A line that is there at first, and two that are appended between the polls. -/
def grownFile : List (WatchAction × Filewatch) :=
  let s₁ := (start (cstr "a\n")).poll
  let s₂ : Filewatch := { s₁ with file := s₁.file ++ cstr "b\nc\n" }
  [(.poll, s₁), (.append (cstr "b\nc\n"), s₂), (.poll, s₂.poll), (.poll, s₂.poll.poll)]

theorem wholeLines_iff_settled_grownFile : IsRun Step (start (cstr "a\n")) grownFile ∧
    (Always WholeLines (start (cstr "a\n")) grownFile ↔
      Meets Settled (start (cstr "a\n")) grownFile) :=
  have hrun : IsRun Step (start (cstr "a\n")) grownFile :=
    ⟨⟨rfl, rfl⟩, rfl, ⟨by decide, rfl⟩, ⟨by decide, rfl⟩, trivial⟩
  ⟨hrun, wholeLines_iff_settled _ _ hrun⟩

/-- A line in two chunks with a poll between them is read as two lines. -/
theorem line_split_by_poll :
    ∃ tr, IsRun Step (start []) tr ∧ ¬ Always WholeLines (start []) tr := by
  let s₁ : Filewatch := ⟨cstr "ab", false, 0, []⟩
  let s₂ : Filewatch := ⟨cstr "ab", false, 2, [cstr "ab"]⟩
  let s₃ : Filewatch := ⟨cstr "abc\n", false, 2, [cstr "ab"]⟩
  let s₄ : Filewatch := ⟨cstr "abc\n", false, 4, [cstr "ab", cstr "c\n"]⟩
  refine ⟨[(.append (cstr "ab"), s₁), (.poll, s₂), (.append (cstr "c\n"), s₃), (.poll, s₄)],
    ⟨rfl, ⟨rfl, rfl⟩, rfl, ⟨rfl, rfl⟩, trivial⟩, fun h => ?_⟩
  have h₂ : cstr "ab" ∈ lines NEWLINE (cstr "ab") := h.2.2.1.subset (List.mem_singleton_self _)
  revert h₂
  decide

end Filewatch

end Hfm

import Hfm.Monitors.FileFilter
import Hfm.Monitors.Translate

/-!
# The matcher step by step

`_match` as a machine: the two lists that all its frames share, and the number of callers that wait
for an answer. No frame has a variable that it reads after a call.
-/

namespace Hfm

/-- Whether a frame runs from its label on, or returns to its caller. -/
inductive MatchMode where
  | running
  | returned (isMatch : Bool)
  deriving DecidableEq

structure MatchState where
  pattern : Nodelist
  exp : Nodelist
  callers : Nat
  mode : MatchMode

namespace MatchState

/-- `fn_match` in front of its call. -/
def start (pattern exp : Nodelist) : MatchState := ⟨pattern.reset, exp.reset, 0, .running⟩

/-- A pass of the loop of `_match`, or a return to a caller; `none` behind the last return. -/
def step (s : MatchState) : Option MatchState :=
  match s.mode with
  | .running =>
    if s.exp.visittedAll && s.pattern.visittedAll then some { s with mode := .returned true }
    else if s.exp.visittedAll && !s.pattern.visittedAll then
      some { s with mode := .returned false }
    else if !s.exp.visittedAll && s.pattern.visittedAll then
      some { s with mode := .returned false }
    else if s.pattern.nodeType = .doubleStar then
      some { s with pattern := s.pattern.next, exp := s.exp.next, callers := s.callers + 1 }
    else if !matchCurNode s.pattern s.exp then some { s with mode := .returned false }
    else some { s with pattern := s.pattern.next, exp := s.exp.next }
  | .returned isMatch =>
    match s.callers with
    | 0 => none
    | callers + 1 =>
      if isMatch then some { s with callers }
      else some { s with pattern := s.pattern.back, callers, mode := .running }

def steps : Nat → MatchState → Option MatchState
  | 0, s => some s
  | n + 1, s => s.step.bind (steps n)

/-- The lists whose current node `_match_cur_node` reads. -/
def curNodeReads (pattern exp : Nodelist) : List Nodelist :=
  match pattern.nodeType with
  | .character => [pattern, exp]
  | .mixedStar => [pattern, exp]
  | _ => [pattern]

/-- The lists whose current node the next step reads, its type, its text or its length. -/
def reads (s : MatchState) : List Nodelist :=
  if s.mode ≠ .running ∨ s.exp.visittedAll = true ∨ s.pattern.visittedAll = true then []
  else if s.pattern.nodeType = .doubleStar then [s.pattern]
  else s.pattern :: curNodeReads s.pattern s.exp

/-- The next step is a `NODE_BACK`. -/
def GoesBack (s : MatchState) : Prop := s.mode = .returned false ∧ 0 < s.callers

end MatchState

/-- A star in the current node, at which the loops of `_match_cur_node` stop. -/
def Nodelist.HasStar (list : Nodelist) : Prop :=
  ∃ i, list.nodeAddr ≤ i ∧ i ≤ list.nodeEnd ∧ charAt list.str i = starChar

namespace MatchState

/-- Both cursors are in their lists, in front of the end where a node is read, and the pattern's is
not at 0 where it goes back. -/
structure InRange (s : MatchState) : Prop where
  pattern : s.pattern.curNode.toNat ≤ s.pattern.nodeCnt
  exp : s.exp.curNode.toNat ≤ s.exp.nodeCnt
  reads : ∀ list ∈ s.reads, list.curNode.toNat < list.nodeCnt
  back : s.GoesBack → 0 < s.pattern.curNode.toNat
  star : s.pattern ∈ s.reads → s.pattern.nodeType = .mixedStar → s.pattern.HasStar

/-- The state with the cursors on the nodes `i` and `j`. Each caller took the pattern's cursor one
node on. -/
structure At (pattern exp : Nodelist) (s : MatchState) (i j : Nat) : Prop where
  pattern_eq : s.pattern = pattern.cursorAt i
  exp_eq : s.exp = exp.cursorAt j
  pattern_le : i ≤ pattern.nodeCnt
  exp_le : j ≤ exp.nodeCnt
  callers : s.callers ≤ i

/-- The steps that are left at most: three for a path node, two for a caller. -/
def fuelLeft (m j : Nat) (s : MatchState) : Nat :=
  3 * (m - j) + 2 * s.callers + if s.mode = .running then 1 else 0

/-! ### A step -/

section Step

variable {pattern exp : Nodelist} {s s' : MatchState} {i j : Nat}

lemma toNat_cursorAt (list : Nodelist) {k : Nat} (hk : k ≤ list.nodeCnt) :
    (list.cursorAt k).curNode.toNat = k := by
  have hlt := list.cnt_lt
  unfold MAX_DIR_LEVEL at hlt
  unfold Nodelist.cursorAt
  simp only [Nat.toUInt8_eq, UInt8.toNat_ofNat']
  omega

lemma start_at (pattern exp : Nodelist) : At pattern exp (start pattern exp) 0 0 :=
  ⟨rfl, rfl, Nat.zero_le _, Nat.zero_le _, le_rfl⟩

/-- A pass of the loop, by what it finds at the cursors. -/
lemma step_running (h : At pattern exp s i j) (hmode : s.mode = .running) : s.step =
    if exp.nodeCnt ≤ j then
      some { s with mode := .returned (decide (pattern.nodeCnt ≤ i)) }
    else if pattern.nodeCnt ≤ i then some { s with mode := .returned false }
    else if (nodeGlob pattern exp).star i then
      some ⟨pattern.cursorAt (i + 1), exp.cursorAt (j + 1), s.callers + 1, .running⟩
    else if (nodeGlob pattern exp).accepts i j then
      some ⟨pattern.cursorAt (i + 1), exp.cursorAt (j + 1), s.callers, .running⟩
    else some { s with mode := .returned false } := by
  have hstar : (s.pattern.nodeType = .doubleStar) = ((nodeGlob pattern exp).star i = true) := by
    rw [h.pattern_eq]
    simp [nodeGlob]
  have haccepts : matchCurNode s.pattern s.exp = (nodeGlob pattern exp).accepts i j := by
    rw [h.pattern_eq, h.exp_eq]
    rfl
  unfold step
  rw [hmode]
  dsimp only
  simp only [hstar, haccepts]
  rw [h.pattern_eq, h.exp_eq, Nodelist.visittedAll_cursorAt _ h.pattern_le,
    Nodelist.visittedAll_cursorAt _ h.exp_le, Nodelist.next_cursorAt, Nodelist.next_cursorAt]
  by_cases hexp : exp.nodeCnt ≤ j
  · by_cases hpattern : pattern.nodeCnt ≤ i
    · simp [hexp, hpattern]
    · simp [hexp, hpattern]
  · by_cases hpattern : pattern.nodeCnt ≤ i
    · simp [hexp, hpattern]
    · cases ha : (nodeGlob pattern exp).accepts i j with
      | true => simp [hexp, hpattern]
      | false => simp [hexp, hpattern]

lemma step_returned {isMatch : Bool} (hmode : s.mode = .returned isMatch) : s.step =
    match s.callers with
    | 0 => none
    | callers + 1 =>
      if isMatch then some { s with callers }
      else some { s with pattern := s.pattern.back, callers, mode := .running } := by
  unfold step
  rw [hmode]

/-- A step keeps the cursors in their lists, and there are fewer left. -/
lemma At.step (h : At pattern exp s i j) (hstep : s.step = some s') :
    ∃ i' j', At pattern exp s' i' j' ∧ fuelLeft exp.nodeCnt j' s' < fuelLeft exp.nodeCnt j s := by
  have hi := h.pattern_le
  have hj := h.exp_le
  have hcallers := h.callers
  cases hmode : s.mode with
  | running =>
    have hleft : fuelLeft exp.nodeCnt j s = 3 * (exp.nodeCnt - j) + 2 * s.callers + 1 := by
      rw [fuelLeft, hmode, if_pos rfl]
    have hreturn : ∀ b, At pattern exp { s with mode := .returned b } i j ∧
        fuelLeft exp.nodeCnt j { s with mode := .returned b } < fuelLeft exp.nodeCnt j s := by
      intro b
      refine ⟨⟨h.pattern_eq, h.exp_eq, hi, hj, hcallers⟩, ?_⟩
      rw [hleft, fuelLeft, if_neg (fun hb => by cases hb)]
      exact Nat.lt_succ_self _
    have hnext : ∀ callers, callers ≤ s.callers + 1 → i < pattern.nodeCnt → j < exp.nodeCnt →
        At pattern exp ⟨pattern.cursorAt (i + 1), exp.cursorAt (j + 1), callers, .running⟩
            (i + 1) (j + 1) ∧
          fuelLeft exp.nodeCnt (j + 1)
            ⟨pattern.cursorAt (i + 1), exp.cursorAt (j + 1), callers, .running⟩ <
            fuelLeft exp.nodeCnt j s := by
      intro callers hle hi hj
      refine ⟨⟨rfl, rfl, hi, hj, hle.trans (Nat.succ_le_succ hcallers)⟩, ?_⟩
      rw [hleft, fuelLeft, if_pos rfl]
      dsimp only
      omega
    rw [step_running h hmode] at hstep
    split at hstep
    · cases hstep
      exact ⟨i, j, hreturn _⟩
    · rename_i hexp
      split at hstep
      · cases hstep
        exact ⟨i, j, hreturn _⟩
      · rename_i hpattern
        split at hstep
        · cases hstep
          exact ⟨i + 1, j + 1, hnext _ le_rfl (Nat.not_le.mp hpattern) (Nat.not_le.mp hexp)⟩
        · split at hstep
          · cases hstep
            exact ⟨i + 1, j + 1,
              hnext _ (Nat.le_succ _) (Nat.not_le.mp hpattern) (Nat.not_le.mp hexp)⟩
          · cases hstep
            exact ⟨i, j, hreturn _⟩
  | returned isMatch =>
    have hleft : fuelLeft exp.nodeCnt j s = 3 * (exp.nodeCnt - j) + 2 * s.callers := by
      rw [fuelLeft, hmode, if_neg (fun hb => by cases hb), Nat.add_zero]
    rw [step_returned hmode] at hstep
    cases hcall : s.callers with
    | zero =>
      rw [hcall] at hstep
      cases hstep
    | succ callers =>
      rw [hcall] at hstep hcallers hleft
      dsimp only at hstep
      cases isMatch with
      | true =>
        rw [if_pos rfl] at hstep
        cases hstep
        refine ⟨i, j, ⟨h.pattern_eq, h.exp_eq, hi, hj, Nat.le_of_succ_le hcallers⟩, ?_⟩
        rw [hleft, fuelLeft, if_neg (fun hb => by rw [hmode] at hb; cases hb)]
        dsimp only
        omega
      | false =>
        rw [if_neg Bool.false_ne_true] at hstep
        cases hstep
        obtain ⟨k, rfl⟩ : ∃ k, i = k + 1 := ⟨i - 1, by omega⟩
        refine ⟨k, j, ⟨?_, h.exp_eq, Nat.le_of_succ_le hi, hj, Nat.le_of_succ_le_succ hcallers⟩, ?_⟩
        · dsimp only
          rw [h.pattern_eq, Nodelist.back_cursorAt_succ]
        · rw [hleft, fuelLeft, if_pos rfl]
          dsimp only
          omega

end Step

/-! ### Runs -/

section Runs

variable {pattern exp : Nodelist} {s s' : MatchState} {i j n : Nat}

lemma steps_add (m n : Nat) (s : MatchState) : steps (m + n) s = (steps m s).bind (steps n) := by
  induction m generalizing s with
  | zero => rw [Nat.zero_add]; rfl
  | succ m ih =>
    rw [Nat.succ_add, steps, steps]
    cases s.step with
    | none => rfl
    | some s' => exact ih s'

lemma steps_succ {s₁ : MatchState} (hstep : s.step = some s₁) (n : Nat) :
    steps (n + 1) s = steps n s₁ := by
  rw [steps, hstep]
  rfl

lemma At.steps (h : At pattern exp s i j) (hsteps : steps n s = some s') :
    ∃ i' j', At pattern exp s' i' j' ∧
      n + fuelLeft exp.nodeCnt j' s' ≤ fuelLeft exp.nodeCnt j s := by
  induction n generalizing s i j with
  | zero =>
    cases hsteps
    exact ⟨i, j, h, by omega⟩
  | succ n ih =>
    rw [MatchState.steps] at hsteps
    obtain ⟨s₁, hstep, hsteps⟩ := Option.bind_eq_some_iff.mp hsteps
    obtain ⟨i₁, j₁, h₁, hless⟩ := h.step hstep
    obtain ⟨i', j', h', hle⟩ := ih h₁ hsteps
    exact ⟨i', j', h', by omega⟩

/-- The machine comes where the recursive search comes. -/
lemma walk_steps (fuel : Nat) : ∀ {i j i' j' : Nat} {b : Bool} (callers : Nat),
    i ≤ pattern.nodeCnt → j ≤ exp.nodeCnt → callers ≤ i →
    walk (nodeGlob pattern exp) pattern.nodeCnt exp.nodeCnt fuel i j = some (b, i', j') →
    ∃ n, MatchState.steps n ⟨pattern.cursorAt i, exp.cursorAt j, callers, .running⟩ =
      some ⟨pattern.cursorAt i', exp.cursorAt j', callers, .returned b⟩ := by
  induction fuel with
  | zero => exact fun _ _ _ _ h => by cases h
  | succ fuel ih =>
    intro i j i' j' b callers hi hj hcallers hwalk
    have hat : At pattern exp ⟨pattern.cursorAt i, exp.cursorAt j, callers, .running⟩ i j :=
      ⟨rfl, rfl, hi, hj, hcallers⟩
    have hstep := step_running hat rfl
    rw [walk] at hwalk
    by_cases hexp : exp.nodeCnt ≤ j
    · rw [if_pos hexp] at hwalk hstep
      cases hwalk
      exact ⟨1, steps_succ hstep 0⟩
    rw [if_neg hexp] at hwalk hstep
    by_cases hpattern : pattern.nodeCnt ≤ i
    · rw [if_pos hpattern] at hwalk hstep
      cases hwalk
      exact ⟨1, steps_succ hstep 0⟩
    rw [if_neg hpattern] at hwalk hstep
    cases hstar : (nodeGlob pattern exp).star i with
    | true =>
      rw [if_pos hstar] at hwalk hstep
      cases hcall : walk (nodeGlob pattern exp) pattern.nodeCnt exp.nodeCnt fuel (i + 1) (j + 1) with
      | none =>
        rw [hcall] at hwalk
        cases hwalk
      | some r =>
        obtain ⟨b₁, i₁, j₁⟩ := r
        obtain ⟨n, hn⟩ := ih (callers + 1) (by omega) (by omega) (by omega) hcall
        have hbounds := walk_bounds fuel (by omega) (by omega) hcall
        rw [hcall] at hwalk
        cases b₁ with
        | true =>
          -- the answer of the call is handed on
          cases hwalk
          refine ⟨n + 1 + 1, ?_⟩
          rw [steps_succ hstep, steps_add, hn]
          rfl
        | false =>
          -- back by one node of the pattern, from where the call left the cursors
          obtain ⟨k, rfl⟩ : ∃ k, i₁ = k + 1 := ⟨i₁ - 1, by omega⟩
          dsimp only at hwalk
          rw [Nat.add_sub_cancel] at hwalk
          obtain ⟨n', hn'⟩ := ih callers (by omega) (by omega) (by omega) hwalk
          have hback : (MatchState.mk (pattern.cursorAt (k + 1)) (exp.cursorAt j₁) (callers + 1)
              (.returned false)).step =
                some ⟨pattern.cursorAt k, exp.cursorAt j₁, callers, .running⟩ := by
            rw [step_returned rfl]
            dsimp only
            rw [if_neg Bool.false_ne_true, Nodelist.back_cursorAt_succ]
          refine ⟨n + (n' + 1) + 1, ?_⟩
          rw [steps_succ hstep, steps_add, hn, Option.bind_some, steps_succ hback, hn']
    | false =>
      rw [if_neg (by rw [hstar]; exact Bool.false_ne_true)] at hwalk hstep
      cases haccepts : (nodeGlob pattern exp).accepts i j with
      | true =>
        rw [if_pos haccepts] at hwalk hstep
        obtain ⟨n, hn⟩ := ih callers (by omega) (by omega) (by omega) hwalk
        exact ⟨n + 1, (steps_succ hstep n).trans hn⟩
      | false =>
        rw [if_neg (by rw [haccepts]; exact Bool.false_ne_true)] at hwalk hstep
        cases hwalk
        exact ⟨1, steps_succ hstep 0⟩

end Runs

/-! ### What is read -/

section Reads

variable {pattern exp : Nodelist} {s : MatchState} {i j : Nat}

lemma reads_subset (s : MatchState) : s.reads ⊆ [s.pattern, s.exp] := by
  unfold reads curNodeReads
  split
  · simp
  · split
    · simp
    · split
      · simp
      · simp
      · simp

/-- Nothing is read where a cursor is at the end. -/
lemma At.reads_lt (h : At pattern exp s i j) {list : Nodelist} (hlist : list ∈ s.reads) :
    i < pattern.nodeCnt ∧ j < exp.nodeCnt := by
  unfold reads at hlist
  split at hlist
  · cases hlist
  · rename_i hnot
    rw [not_or, not_or, h.pattern_eq, h.exp_eq, Nodelist.visittedAll_cursorAt _ h.pattern_le,
      Nodelist.visittedAll_cursorAt _ h.exp_le, decide_eq_true_iff, decide_eq_true_iff] at hnot
    exact ⟨Nat.not_le.mp hnot.2.2, Nat.not_le.mp hnot.2.1⟩

/-- A node of the type `NODE_MIXED_STAR` has a star in it. -/
def StarsInside (pattern : Nodelist) : Prop :=
  ∀ k < pattern.nodeCnt, (pattern.cursorAt k).nodeType = .mixedStar → (pattern.cursorAt k).HasStar

lemma At.inRange (h : At pattern exp s i j) (hstars : StarsInside pattern) : s.InRange := by
  have hpattern : s.pattern.curNode.toNat = i := by
    rw [h.pattern_eq]
    exact toNat_cursorAt pattern h.pattern_le
  have hexp : s.exp.curNode.toNat = j := by
    rw [h.exp_eq]
    exact toNat_cursorAt exp h.exp_le
  have hpatternCnt : s.pattern.nodeCnt = pattern.nodeCnt := by
    rw [h.pattern_eq]
    rfl
  have hexpCnt : s.exp.nodeCnt = exp.nodeCnt := by
    rw [h.exp_eq]
    rfl
  refine ⟨?_, ?_, fun list hlist => ?_, fun hback => ?_, fun hread htype => ?_⟩
  · rw [hpattern, hpatternCnt]
    exact h.pattern_le
  · rw [hexp, hexpCnt]
    exact h.exp_le
  · obtain ⟨hi, hj⟩ := h.reads_lt hlist
    have hmem := reads_subset s hlist
    rw [List.mem_cons, List.mem_singleton] at hmem
    rcases hmem with rfl | rfl
    · rwa [hpattern, hpatternCnt]
    · rwa [hexp, hexpCnt]
  · rw [hpattern]
    exact hback.2.trans_le h.callers
  · rw [h.pattern_eq] at htype ⊢
    exact hstars i (h.reads_lt hread).1 htype

end Reads

/-! ### Translated patterns -/

lemma findNodeType_star {str : Vector UInt8 MAX_PATH_LEN} {first last : UInt8}
    (h : findNodeType str first last = .mixedStar) :
    ∃ k : Nat, first.toNat ≤ k ∧ k < last.toNat ∧ charAt str k = starChar := by
  unfold findNodeType at h
  dsimp only at h
  split at h
  · cases h
  · split at h
    · cases h
    · split at h
      · rename_i hany
        obtain ⟨k, hk, hstar⟩ := List.any_eq_true.mp hany
        rw [List.mem_range'_1] at hk
        exact ⟨k, hk.1, by omega, of_decide_eq_true hstar⟩
      · cases h

lemma starsInside_of_lists {pattern : Nodelist} {comps : List CStr}
    (h : pattern.Lists comps true) : StarsInside pattern := by
  intro k hk htype
  have hcursor := toNat_cursorAt pattern hk.le
  have hcnt := h.nodeCnt
  unfold Nodelist.nodeType at htype
  rw [hcursor] at htype
  have hnode := h.nodetype k (by omega) rfl
  obtain ⟨i, hfirst, hlast, hstar⟩ := findNodeType_star (hnode.symm.trans htype)
  refine ⟨i, ?_, ?_, hstar⟩
  · unfold Nodelist.nodeAddr
    rw [hcursor]
    change ((pattern.offset k).toNat : Int) ≤ i
    omega
  · unfold Nodelist.nodeEnd
    rw [hcursor]
    change (i : Int) ≤ ((pattern.offset (k + 1)).toNat : Int) - 1
    omega

/-- The matcher on the nodes of a translated pattern and those of a path: each state that it comes
to is in range, it comes to an end, within three steps for a node of the path, and its answer is
that of `fn_match`. -/
theorem terminates_in_range {pattern : CStr} (hnul : 0 ∉ pattern) {pat : Nodelist}
    (hpattern : fnTranslate pattern true = .ok (some pat)) (exp : Nodelist) :
    (∀ n s, steps n (start pat exp) = some s → s.InRange ∧ n ≤ 3 * exp.nodeCnt + 1) ∧
      ∃ n s isMatch, steps n (start pat exp) = some s ∧ s.step = none ∧
        s.mode = .returned isMatch ∧
        fnMatch pat exp = .ok (if isMatch then MATCH else NO_MATCH, s.pattern, s.exp) := by
  constructor
  · intro n s hsteps
    obtain ⟨i, j, hat, hle⟩ := (start_at pat exp).steps hsteps
    refine ⟨hat.inRange (starsInside_of_lists (lists_of_fnTranslate hnul hpattern)), ?_⟩
    have hstart : fuelLeft exp.nodeCnt 0 (start pat exp) = 3 * exp.nodeCnt + 1 := rfl
    omega
  · obtain ⟨⟨b, i, j⟩, hwalk⟩ := @walk_total (nodeGlob pat exp) pat.nodeCnt exp.nodeCnt
      (exp.nodeCnt + 1) 0 0 (Nat.zero_le _) (Nat.zero_le _) (Nat.lt_succ_self _)
    obtain ⟨n, hn⟩ := walk_steps (exp.nodeCnt + 1) 0 (Nat.zero_le _) (Nat.zero_le _) le_rfl hwalk
    exact ⟨n, _, b, hn, rfl, rfl, fnMatch_walk pat exp hwalk⟩

theorem terminates_in_range_recursive : ∃ pat exp,
    fnTranslate (cstr "/**/a") true = .ok (some pat) ∧
    fnTranslate (cstr "/x/a/y/a") false = .ok (some exp) ∧
    (∀ n s, steps n (start pat exp) = some s → s.InRange ∧ n ≤ 3 * exp.nodeCnt + 1) ∧
    ∃ n s isMatch, steps n (start pat exp) = some s ∧ s.step = none ∧
      s.mode = .returned isMatch ∧
      fnMatch pat exp = .ok (if isMatch then MATCH else NO_MATCH, s.pattern, s.exp) :=
  ⟨_, _, rfl, rfl, @terminates_in_range (cstr "/**/a") (by decide) _ rfl _⟩

end MatchState

end Hfm

import Hfm.Support.Glob
import Hfm.Monitors.Fnmatch

/-!
# What the matcher decides

`matchNodes` keeps one pair of cursors for all its recursive calls. `walk` is the same
search over plain positions; it is compared with the declarative cut of the path.
-/

namespace Hfm

open Support

/-- `_match` over positions: `n` pattern nodes and `m` path nodes. -/
def walk (g : Glob Nat Nat) (n m : Nat) : Nat → Nat → Nat → Option (Bool × Nat × Nat)
  | 0, _, _ => none
  | fuel + 1, i, j =>
    if m ≤ j then some (decide (n ≤ i), i, j)
    else if n ≤ i then some (false, i, j)
    else if g.star i then
      match walk g n m fuel (i + 1) (j + 1) with
      | none => none
      | some (true, i, j) => some (true, i, j)
      | some (false, i, j) => walk g n m fuel (i - 1) j
    else if g.accepts i j then walk g n m fuel (i + 1) (j + 1)
    else some (false, i, j)

/-- The positions from `i` on. -/
def nodesFrom (n i : Nat) : List Nat := List.range' i (n - i)

lemma nodesFrom_cons {n i : Nat} (h : i < n) : nodesFrom n i = i :: nodesFrom n (i + 1) := by
  unfold nodesFrom
  obtain ⟨k, hk⟩ : ∃ k, n - i = k + 1 := ⟨n - i - 1, by omega⟩
  rw [hk, List.range'_succ, show n - (i + 1) = k by omega]

lemma nodesFrom_nil {n i : Nat} (h : n ≤ i) : nodesFrom n i = [] := by
  unfold nodesFrom
  rw [Nat.sub_eq_zero_of_le h]
  rfl

@[simp] lemma length_nodesFrom (n i : Nat) : (nodesFrom n i).length = n - i := by
  simp [nodesFrom]

section Walk

variable (g : Glob Nat Nat) (n m : Nat)

/-- A search that failed because the path ended: no later start would have succeeded. -/
def Exhausted (i j i' j' : Nat) : Prop :=
  j' = m ∧ i ≤ i' ∧ i' ≤ n ∧ g.Dead (nodesFrom n i) (nodesFrom m j)

/-- The pattern node at `i` does not fit at `j`, where the path goes on. -/
def Misfit (i j : Nat) : Prop :=
  j < m ∧ (i < n → g.star i = false ∧ g.accepts i j = false)

variable {g n m}

lemma Misfit.not_cut {i j : Nat} (h : Misfit g n m i j) :
    ¬g.Cut (nodesFrom n i) (nodesFrom m j) := by
  rw [nodesFrom_cons h.1]
  by_cases hi : i < n
  · obtain ⟨hs, ha⟩ := h.2 hi
    rw [nodesFrom_cons hi, g.cut_one hs, ha]
    simp
  · rw [nodesFrom_nil (by omega)]
    simp

lemma Misfit.fitsAfter {i j : Nat} (h : Misfit g n m i j) {tight : Bool}
    (hfit : g.fitsAfter tight (nodesFrom n i) (nodesFrom m j) = true) :
    tight = false ∧ g.fitsAfter false (nodesFrom n i) (nodesFrom m (j + 1)) = true := by
  rw [nodesFrom_cons h.1] at hfit
  by_cases hi : i < n
  · obtain ⟨hs, ha⟩ := h.2 hi
    rw [nodesFrom_cons hi] at hfit ⊢
    simpa [Glob.fitsAfter, hs, ha] using hfit
  · rw [nodesFrom_nil (by omega)] at hfit ⊢
    simpa [Glob.fitsAfter] using hfit

/-- The search at a recursive node, on paths where the first fit is enough. -/
def StarFits (g : Glob Nat Nat) (n m fuel : Nat) : Prop :=
  ∀ i j, i < n → j < m → m - j < fuel → g.star i = true →
    g.fitsAfter false (nodesFrom n (i + 1)) (nodesFrom m (j + 1)) = true →
    ∃ b i' j', walk g n m fuel i j = some (b, i', j') ∧
      (b = true → g.Cut (nodesFrom n i) (nodesFrom m j)) ∧
      (b = false → Exhausted g n m i j i' j')

/-- The search behind a recursive node may also fail at its very first node, and then leaves
both cursors where they were. -/
def BehindFits (g : Glob Nat Nat) (n m fuel : Nat) : Prop :=
  ∀ i j tight, i ≤ n → j ≤ m → m - j < fuel →
    g.fitsAfter tight (nodesFrom n i) (nodesFrom m j) = true →
    ∃ b i' j', walk g n m fuel i j = some (b, i', j') ∧
      (b = true → g.Cut (nodesFrom n i) (nodesFrom m j)) ∧
      (b = false → Exhausted g n m i j i' j' ∨
        tight = false ∧ i' = i ∧ j' = j ∧ Misfit g n m i j)

lemma StarFits.succ {fuel : Nat} (ihStar : StarFits g n m fuel) (ihBehind : BehindFits g n m fuel) :
    StarFits g n m (fuel + 1) := by
  intro i j hi hj hfuel hs hfit
  obtain ⟨b, i', j', hw, hcut, hfail⟩ :=
    ihBehind (i + 1) (j + 1) false (by omega) (by omega) (by omega) hfit
  rw [walk, if_neg (by omega), if_neg (by omega), if_pos hs, hw]
  rw [nodesFrom_cons hi, nodesFrom_cons hj]
  cases b with
  | true =>
    refine ⟨true, i', j', rfl, fun _ => ?_, by simp⟩
    exact (g.cut_star hs _ _ _).mpr (.inl (hcut rfl))
  | false =>
    rcases hfail rfl with ⟨rfl, hle, hn, hdead⟩ | ⟨-, rfl, rfl, hmis⟩
    · -- the path is exhausted, and so is every outer search
      obtain ⟨f, rfl⟩ : ∃ f, fuel = f + 1 := ⟨fuel - 1, by omega⟩
      refine ⟨false, i' - 1, j', ?_, by simp, fun _ => ⟨rfl, by omega, by omega, ?_⟩⟩
      · dsimp only
        rw [walk, if_pos (Nat.le_refl _), decide_eq_false (by omega)]
      · rw [nodesFrom_cons hi, nodesFrom_cons hj]
        exact g.dead_star hs hdead
    · -- the attempt failed at once: stepping back one node restores the split
      have hnext := (hmis.fitsAfter hfit).2
      obtain ⟨b, i', j', hw', hcut', hfail'⟩ := ihStar i (j + 1) hi hmis.1 (by omega) hs hnext
      rw [nodesFrom_cons hi] at hcut'
      refine ⟨b, i', j', by simpa using hw', ?_, fun hb => ?_⟩
      · exact fun hb => (g.cut_star hs _ _ _).mpr (.inr (hcut' hb))
      · obtain ⟨hj', hle, hn, hdead⟩ := hfail' hb
        rw [nodesFrom_cons hi] at hdead
        refine ⟨hj', hle, hn, ?_⟩
        rw [nodesFrom_cons hi, nodesFrom_cons hj]
        exact g.dead_star_of_not_cut hs hmis.not_cut hdead

lemma BehindFits.succ {fuel : Nat} (ihBehind : BehindFits g n m fuel)
    (hstar : StarFits g n m (fuel + 1)) : BehindFits g n m (fuel + 1) := by
  intro i j tight hi hj hfuel hfit
  by_cases hjm : m ≤ j
  · rw [walk, if_pos hjm]
    refine ⟨_, i, j, rfl, fun hb => ?_, fun hb => .inl ⟨by omega, le_rfl, hi, ?_⟩⟩
    · rw [nodesFrom_nil (of_decide_eq_true hb), nodesFrom_nil hjm]
      simp
    · have := of_decide_eq_false hb
      exact g.dead_of_length_lt (by simp only [length_nodesFrom]; omega)
  by_cases hin : n ≤ i
  · have hmis : Misfit g n m i j := ⟨by omega, fun h => by omega⟩
    rw [walk, if_neg hjm, if_pos hin]
    exact ⟨false, i, j, rfl, by simp, fun _ => .inr ⟨(hmis.fitsAfter hfit).1, rfl, rfl, hmis⟩⟩
  have hi : i < n := by omega
  have hj : j < m := by omega
  rw [nodesFrom_cons hi, nodesFrom_cons hj, Glob.fitsAfter] at hfit
  cases hs : g.star i with
  | true =>
    rw [if_pos hs] at hfit
    obtain ⟨b, i', j', hw, hcut, hfail⟩ := hstar i j hi hj hfuel hs hfit
    exact ⟨b, i', j', hw, hcut, fun hb => .inl (hfail hb)⟩
  | false =>
    rw [if_neg (by simp [hs])] at hfit
    cases ha : g.accepts i j with
    | true =>
      rw [if_pos ha] at hfit
      obtain ⟨b, i', j', hw, hcut, hfail⟩ :=
        ihBehind (i + 1) (j + 1) true (by omega) (by omega) (by omega) hfit
      rw [walk, if_neg hjm, if_neg hin, if_neg (by simp [hs]), if_pos ha]
      rw [nodesFrom_cons hi, nodesFrom_cons hj]
      refine ⟨b, i', j', hw, fun hb => (g.cut_one hs _ _ _).mpr ⟨ha, hcut hb⟩, fun hb => ?_⟩
      rcases hfail hb with ⟨hj', hle, hn, hdead⟩ | ⟨h, -⟩
      · refine .inl ⟨hj', by omega, hn, ?_⟩
        rw [nodesFrom_cons hi, nodesFrom_cons hj]
        exact g.dead_one hs hdead
      · cases h
    | false =>
      have hmis : Misfit g n m i j := ⟨by omega, fun _ => ⟨hs, ha⟩⟩
      rw [if_neg (by simp [ha])] at hfit
      rw [walk, if_neg hjm, if_neg hin, if_neg (by simp [hs]), if_neg (by simp [ha])]
      refine ⟨false, i, j, rfl, by simp, fun _ => .inr ⟨?_, rfl, rfl, hmis⟩⟩
      simpa using (Bool.and_eq_true_iff.mp hfit).1

lemma walk_fits (fuel : Nat) : StarFits g n m fuel ∧ BehindFits g n m fuel := by
  induction fuel with
  | zero => exact ⟨fun _ _ _ _ h => by omega, fun _ _ _ _ _ h => by omega⟩
  | succ fuel ih =>
    have hstar := ih.1.succ ih.2
    exact ⟨hstar, ih.2.succ hstar⟩

/-- On paths where the first fit is enough, the search decides the cut. -/
lemma walk_firstFit (fuel : Nat) : ∀ i j, i ≤ n → j ≤ m → m - j < fuel →
    g.firstFit (nodesFrom n i) (nodesFrom m j) = true →
    ∃ b i' j', walk g n m fuel i j = some (b, i', j') ∧
      (b = true ↔ g.Cut (nodesFrom n i) (nodesFrom m j)) := by
  induction fuel with
  | zero => exact fun _ _ _ _ h => by omega
  | succ fuel ih =>
    intro i j hi hj hfuel hfit
    by_cases hjm : m ≤ j
    · refine ⟨decide (n ≤ i), i, j, by rw [walk, if_pos hjm], ?_⟩
      rw [nodesFrom_nil hjm, decide_eq_true_iff]
      constructor
      · intro h
        rw [nodesFrom_nil h]
        simp
      · intro h
        have := g.cut_length h
        simp only [length_nodesFrom, List.length_nil] at this
        omega
    · by_cases hin : n ≤ i
      · refine ⟨false, i, j, by rw [walk, if_neg hjm, if_pos hin], ?_⟩
        rw [nodesFrom_nil hin, nodesFrom_cons (by omega : j < m)]
        simp
      · have hi' : i < n := by omega
        have hj' : j < m := by omega
        rw [nodesFrom_cons hi', nodesFrom_cons hj', Glob.firstFit] at hfit
        cases hs : g.star i with
        | true =>
          rw [if_pos hs] at hfit
          obtain ⟨b, i', j', hw, hcut, hfail⟩ := (walk_fits (fuel + 1)).1 i j hi' hj' hfuel hs hfit
          refine ⟨b, i', j', hw, hcut, fun h => ?_⟩
          cases b with
          | true => rfl
          | false => exact absurd h (hfail rfl).2.2.2.not_cut
        | false =>
          rw [if_neg (by simp [hs])] at hfit
          rw [walk, if_neg hjm, if_neg hin, if_neg (by simp [hs]), nodesFrom_cons hi',
            nodesFrom_cons hj', g.cut_one hs]
          cases ha : g.accepts i j with
          | true =>
            obtain ⟨b, i', j', hw, hcut⟩ := ih (i + 1) (j + 1) (by omega) (by omega) (by omega)
              (by simpa [ha] using hfit)
            exact ⟨b, i', j', by simpa using hw, by simpa using hcut⟩
          | false => exact ⟨false, i, j, by simp, by simp⟩

end Walk

/-- Both cursors only move forward over a whole call, and stay within the lists. -/
lemma walk_bounds {g : Glob Nat Nat} {n m : Nat} (fuel : Nat) : ∀ {i j i' j' : Nat} {b : Bool},
    i ≤ n → j ≤ m → walk g n m fuel i j = some (b, i', j') →
    (i ≤ i' ∧ i' ≤ n) ∧ (j ≤ j' ∧ j' ≤ m) := by
  induction fuel with
  | zero => exact fun _ _ h => by cases h
  | succ fuel ih =>
    intro i j i' j' b hi hj h
    rw [walk] at h
    split at h
    · cases h
      omega
    · split at h
      · cases h
        omega
      · split at h
        · split at h
          · cases h
          · rename_i hw
            cases h
            have := ih (by omega) (by omega) hw
            omega
          · rename_i i₁ j₁ hw
            have h₁ := ih (by omega) (by omega) hw
            have h₂ := ih (by omega) (by omega) h
            omega
        · split at h
          · have := ih (by omega) (by omega) h
            omega
          · cases h
            omega

/-! ### The matcher follows the walk -/

namespace Nodelist

/-- The list with its cursor on node `k`. -/
def cursorAt (list : Nodelist) (k : Nat) : Nodelist := { list with curNode := k.toUInt8 }

/-- The nodes of a list, by index. -/
def nodes (list : Nodelist) : List Nat := List.range list.nodeCnt

@[simp] lemma next_cursorAt (list : Nodelist) (k : Nat) :
    (list.cursorAt k).next = list.cursorAt (k + 1) := by
  simp [cursorAt, next]

@[simp] lemma back_cursorAt_succ (list : Nodelist) (k : Nat) :
    (list.cursorAt (k + 1)).back = list.cursorAt k := by
  simp [cursorAt, back]

lemma reset_eq_cursorAt (list : Nodelist) : list.reset = list.cursorAt 0 := rfl

lemma visittedAll_cursorAt (list : Nodelist) {k : Nat} (hk : k ≤ list.nodeCnt) :
    (list.cursorAt k).visittedAll = decide (list.nodeCnt ≤ k) := by
  have : k < 256 := by
    have := list.cnt_lt
    unfold MAX_DIR_LEVEL at this
    omega
  simp [cursorAt, visittedAll, Nat.mod_eq_of_lt this]

lemma nodes_eq (list : Nodelist) : list.nodes = nodesFrom list.nodeCnt 0 := by
  simp [nodes, nodesFrom, List.range_eq_range']

end Nodelist

/-- A pattern against a path: `**` is recursive, and `_match_cur_node` says which path
nodes every other pattern node accepts. -/
def nodeGlob (pattern exp : Nodelist) : Glob Nat Nat where
  star i := (pattern.cursorAt i).nodeType = .doubleStar
  accepts i j := matchCurNode (pattern.cursorAt i) (exp.cursorAt j)

lemma matchNodes_eq_walk (pattern exp : Nodelist) (fuel : Nat) : ∀ i j,
    i ≤ pattern.nodeCnt → j ≤ exp.nodeCnt →
    matchNodes fuel (pattern.cursorAt i) (exp.cursorAt j) =
      match walk (nodeGlob pattern exp) pattern.nodeCnt exp.nodeCnt fuel i j with
      | none => .error .diverges
      | some (b, i, j) => .ok (b, pattern.cursorAt i, exp.cursorAt j) := by
  induction fuel with
  | zero => exact fun _ _ _ _ => rfl
  | succ fuel ih =>
    intro i j hi hj
    rw [matchNodes, walk]
    simp only [Nodelist.visittedAll_cursorAt _ hi, Nodelist.visittedAll_cursorAt _ hj,
      Nodelist.next_cursorAt]
    by_cases hjm : exp.nodeCnt ≤ j
    · by_cases hin : pattern.nodeCnt ≤ i <;> simp [hjm, hin]
    · by_cases hin : pattern.nodeCnt ≤ i
      · simp [hjm, hin]
      · have hacc : matchCurNode (pattern.cursorAt i) (exp.cursorAt j) =
            (nodeGlob pattern exp).accepts i j := rfl
        have hstar : ((pattern.cursorAt i).nodeType = .doubleStar) =
            ((nodeGlob pattern exp).star i = true) := by simp [nodeGlob]
        simp only [hjm, hin, decide_false, Bool.and_false, Bool.false_and, Bool.false_eq_true,
          if_false, hstar, hacc]
        split
        · rw [ih (i + 1) (j + 1) (by omega) (by omega)]
          cases hw : walk (nodeGlob pattern exp) pattern.nodeCnt exp.nodeCnt fuel (i + 1) (j + 1) with
          | none => rfl
          | some r =>
            obtain ⟨b, i', j'⟩ := r
            have hb := walk_bounds fuel (by omega) (by omega) hw
            obtain ⟨k, rfl⟩ : ∃ k, i' = k + 1 := ⟨i' - 1, by omega⟩
            cases b with
            | true => rfl
            | false =>
              dsimp only
              rw [Nodelist.back_cursorAt_succ]
              exact ih k j' (by omega) (by omega)
        · cases ha : (nodeGlob pattern exp).accepts i j with
          | true =>
            simp only [Bool.not_true, Bool.false_eq_true, if_false, if_true]
            exact ih (i + 1) (j + 1) (by omega) (by omega)
          | false => simp

/-- The matcher always returns, and says what the walk over the two lists says. -/
lemma fnMatch_walk (pattern exp : Nodelist) {b : Bool} {i j : Nat}
    (h : walk (nodeGlob pattern exp) pattern.nodeCnt exp.nodeCnt (exp.nodeCnt + 1) 0 0 =
      some (b, i, j)) :
    fnMatch pattern exp =
      .ok (if b then MATCH else NO_MATCH, pattern.cursorAt i, exp.cursorAt j) := by
  unfold fnMatch
  rw [Nodelist.reset_eq_cursorAt, Nodelist.reset_eq_cursorAt,
    matchNodes_eq_walk _ _ _ _ _ (Nat.zero_le _) (Nat.zero_le _), h]
  rfl

/-- Where the first fit is enough, the matcher accepts exactly the paths that can be cut
along the pattern. -/
theorem fnMatch_iff_cut_of_firstFit {pattern path : CStr} {pat exp : Nodelist}
    (_hpat : fnTranslate pattern true = .ok (some pat))
    (_hexp : fnTranslate path false = .ok (some exp))
    (hfit : (nodeGlob pat exp).firstFit pat.nodes exp.nodes = true) :
    ∃ r pat' exp', fnMatch pat exp = .ok (r, pat', exp') ∧
      (r = MATCH ↔ (nodeGlob pat exp).Cut pat.nodes exp.nodes) := by
  rw [pat.nodes_eq, exp.nodes_eq] at hfit ⊢
  obtain ⟨b, i, j, hw, hcut⟩ := walk_firstFit (exp.nodeCnt + 1) 0 0 (Nat.zero_le _) (Nat.zero_le _)
    (by omega) hfit
  refine ⟨_, _, _, fnMatch_walk pat exp hw, ?_⟩
  rw [← hcut]
  cases b <;> simp [MATCH, NO_MATCH]

theorem fnMatch_iff_cut_three_nodes : ∃ pat exp,
    fnTranslate (cstr "/**/a") true = .ok (some pat) ∧
    fnTranslate (cstr "/x/y/a") false = .ok (some exp) ∧
    ∃ r pat' exp', fnMatch pat exp = .ok (r, pat', exp') ∧
      (r = MATCH ↔ (nodeGlob pat exp).Cut pat.nodes exp.nodes) :=
  ⟨_, _, rfl, rfl,
    @fnMatch_iff_cut_of_firstFit (cstr "/**/a") (cstr "/x/y/a") _ _ rfl rfl rfl⟩

/-- `**` can stand for `x/a/y`, but the attempt that stops at `y` leaves the cursors
behind the second `a` of the pattern and gives up there. -/
theorem fnMatch_misses_cut : ∃ pat exp,
    fnTranslate (cstr "/**/a") true = .ok (some pat) ∧
    fnTranslate (cstr "/x/a/y/a") false = .ok (some exp) ∧
    (∃ pat' exp', fnMatch pat exp = .ok (NO_MATCH, pat', exp')) ∧
    (nodeGlob pat exp).Cut pat.nodes exp.nodes := by
  refine ⟨_, _, rfl, rfl, ⟨_, _, rfl⟩, [[0, 1, 2], [3]], rfl, .cons ?_ (.cons ?_ .nil)⟩
  · exact List.cons_ne_nil _ _
  · exact ⟨3, rfl, rfl⟩

end Hfm

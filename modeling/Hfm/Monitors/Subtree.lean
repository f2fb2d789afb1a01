import Hfm.Monitors.FilterRuns
import Hfm.Monitors.Wildcards

/-!
# Policies for a directory and what is below it

The README gives `/root/**/*` as the policy for all files below `/root`. The search behind the
recursive node gives up after its second attempt, so that only two depths are found.
-/

namespace Hfm

open Support

/-! ### The search -/

section Walk

variable {g : Glob Nat Nat} {d m : Nat}

/-- The search from the recursive node on, with one node behind it that accepts everything. -/
lemma walk_star (hstar : g.star d = true) (hone : g.star (d + 1) = false)
    (hall : ∀ j < m, g.accepts (d + 1) j = true) {fuel : Nat} (hd : d ≤ m) (hfuel : m - d < fuel) :
    ∃ i' j', walk g (d + 2) m fuel d d = some (decide (m = d + 2 ∨ m = d + 3), i', j') := by
  obtain ⟨fuel, rfl⟩ : ∃ k, fuel = k + 1 := ⟨fuel - 1, by omega⟩
  have hfound : decide (d + 2 ≤ d) = false := decide_eq_false (by omega)
  have hfound' : decide (d + 2 ≤ d + 1) = false := decide_eq_false (by omega)
  rw [walk]
  by_cases h0 : m ≤ d
  · rw [if_pos h0, hfound, decide_eq_false (by omega)]
    exact ⟨_, _, rfl⟩
  obtain ⟨fuel, rfl⟩ : ∃ k, fuel = k + 1 := ⟨fuel - 1, by omega⟩
  rw [if_neg h0, if_neg (by omega), if_pos hstar, walk]
  by_cases h1 : m ≤ d + 1
  · -- one component is left, and `**` takes it
    rw [if_pos h1, hfound']
    dsimp only
    rw [Nat.add_sub_cancel, walk, if_pos h1, hfound, decide_eq_false (by omega)]
    exact ⟨_, _, rfl⟩
  obtain ⟨fuel, rfl⟩ : ∃ k, fuel = k + 1 := ⟨fuel - 1, by omega⟩
  rw [if_neg h1, if_neg (by omega), if_neg (by simp [hone]), if_pos (hall _ (by omega)), walk]
  by_cases h2 : m ≤ d + 1 + 1
  · rw [if_pos h2, decide_eq_true (by omega), decide_eq_true (by omega)]
    exact ⟨_, _, rfl⟩
  -- the pattern is used up before the path: the last node is tried once more
  rw [if_neg h2, if_pos (by omega)]
  dsimp only
  rw [Nat.add_sub_cancel, walk, if_neg h2, if_neg (by omega), if_neg (by simp [hone]),
    if_pos (hall _ (by omega)), walk]
  by_cases h3 : m ≤ d + 1 + 1 + 1
  · rw [if_pos h3, decide_eq_true (by omega), decide_eq_true (by omega)]
    exact ⟨_, _, rfl⟩
  · rw [if_neg h3, if_pos (by omega), decide_eq_false (by omega)]
    exact ⟨_, _, rfl⟩

/-- The search over the names in front of the recursive node. -/
lemma walk_names {D X : List CStr} (hd : D.length = d) (hm : X.length = m)
    (hname : ∀ i, (hi : i < D.length) → g.star i = false ∧
      ∀ j, (hj : j < X.length) → g.accepts i j = decide (D[i] = X[j]))
    (hstar : g.star d = true) (hone : g.star (d + 1) = false)
    (hall : ∀ j < m, g.accepts (d + 1) j = true) : ∀ r k, k + r = d → k ≤ m →
    ∃ b i' j', walk g (d + 2) m (m + 1 - k) k k = some (b, i', j') ∧
      (b = true ↔ D.drop k <+: X.drop k ∧ (m = d + 2 ∨ m = d + 3)) := by
  intro r
  induction r with
  | zero =>
    intro k hk hkm
    obtain rfl : k = d := by omega
    obtain ⟨i', j', hw⟩ := walk_star hstar hone hall hkm (show m - k < m + 1 - k by omega)
    refine ⟨_, i', j', hw, ?_⟩
    rw [decide_eq_true_iff, List.drop_of_length_le hd.le]
    simp
  | succ r ih =>
    intro k hk hkm
    obtain ⟨hnot, hacc⟩ := hname k (by omega)
    by_cases hkm' : k = m
    · refine ⟨false, k, k, ?_, ?_⟩
      · rw [show m + 1 - k = 0 + 1 by omega, walk, if_pos (by omega), decide_eq_false (by omega)]
      · constructor
        · exact fun h => absurd h Bool.false_ne_true
        · rintro ⟨-, hlen⟩
          omega
    · have hfuel : m + 1 - k = (m + 1 - (k + 1)) + 1 := by omega
      rw [hfuel, walk, if_neg (by omega), if_neg (by omega), if_neg (by simp [hnot]),
        hacc k (by omega), List.drop_eq_getElem_cons (by omega : k < D.length),
        List.drop_eq_getElem_cons (by omega : k < X.length), List.cons_prefix_cons]
      by_cases heq : D[k] = X[k]
      · obtain ⟨b, i', j', hw, hb⟩ := ih (k + 1) (by omega) (by omega)
        rw [if_pos (decide_eq_true heq)]
        refine ⟨b, i', j', hw, ?_⟩
        rw [hb]
        simp [heq]
      · rw [if_neg (by simp [heq])]
        refine ⟨false, k, k, rfl, ?_⟩
        simp [heq]

end Walk

/-! ### The nodes of the pattern -/

lemma kindOf_name {c : CStr} (h : starChar ∉ c) : kindOf c = .character := by
  unfold kindOf
  rw [if_neg, if_neg, if_neg h]
  · intro hc
    simp [hc] at h
  · intro hc
    simp [hc] at h

section Nodes

variable {pat exp : Nodelist} {comps path : List CStr} {flag : Bool} {i j : Nat}

lemma not_endsAtLimit (h : comps.flatten.length < MAX_PATH_LEN) (k : Nat) : ¬EndsAtLimit comps k := by
  intro hlimit
  have hle := startOf_le comps (k + 1)
  rw [show startOf comps (k + 1) = MAX_PATH_LEN from hlimit] at hle
  omega

/-- A name accepts exactly itself. -/
lemma matchCurNode_name (h : pat.Lists comps true) (he : exp.Lists path flag) (hi : i < comps.length)
    (hj : j < path.length) (hplim : ¬EndsAtLimit comps i) (helim : ¬EndsAtLimit path j)
    (hne : comps[i] ≠ []) (hne' : path[j] ≠ []) (hnul : 0 ∉ comps[i]) (hstar : starChar ∉ comps[i]) :
    matchCurNode (pat.cursorAt i) (exp.cursorAt j) = decide (comps[i] = path[j]) := by
  have htype := h.nodeType hi hne
  have hplen := h.nodeLen hi hne
  have helen := he.nodeLen hj hne'
  rw [if_neg hplim, kindOf_name hstar] at htype
  rw [if_neg hplim] at hplen
  rw [if_neg helim] at helen
  have hshort : comps[i].length ≤ MAX_PATH_LEN := by
    have hmax := h.startOf_le_max (i + 1)
    rw [startOf_succ comps hi] at hmax
    omega
  unfold MAX_PATH_LEN at hshort
  have hsize : ((comps[i].length : Int) % 2 ^ 64).toNat = comps[i].length := by omega
  have hcells := h.holdsFrom hi
  rw [← h.nodeAddr hi hne] at hcells
  unfold matchCurNode
  rw [htype]
  dsimp only
  rw [hplen, helen, hsize, Bool.eq_iff_iff, decide_eq_true_iff, Bool.and_eq_true, decide_eq_true_iff]
  have hstr : (pat.cursorAt i).str = pat.str := rfl
  rw [hstr, strncmpEq_eq_scan hnul hcells]
  constructor
  · rintro ⟨hlen, hscan⟩
    have hlen' : comps[i].length = path[j].length := by omega
    have hstop : ¬ProperPrefix path[j] comps[i] := fun hp => hp.2 (hp.1.eq_of_length hlen'.symm)
    exact ((scan_iff (front_scan he hj hne') hstop).mp hscan).eq_of_length hlen'
  · intro heq
    have hstop : ¬ProperPrefix path[j] comps[i] := fun hp => hp.2 heq.symm
    refine ⟨by rw [heq], (scan_iff (front_scan he hj hne') hstop).mpr ?_⟩
    rw [heq]

lemma nodeGlob_star (h : pat.Lists comps true) (hi : i < comps.length) (hplim : ¬EndsAtLimit comps i)
    (hne : comps[i] ≠ []) : (nodeGlob pat exp).star i = decide (kindOf comps[i] = .doubleStar) := by
  have htype := h.nodeType hi hne
  rw [if_neg hplim] at htype
  change decide ((pat.cursorAt i).nodeType = .doubleStar) = _
  rw [htype]

lemma matchCurNode_star (h : pat.Lists comps true) (hi : i < comps.length)
    (hplim : ¬EndsAtLimit comps i) (hc : comps[i] = [starChar]) (exp : Nodelist) :
    matchCurNode (pat.cursorAt i) exp = true := by
  have htype := h.nodeType hi (by rw [hc]; simp)
  rw [if_neg hplim, hc] at htype
  unfold matchCurNode
  rw [htype]
  rfl

end Nodes

/-- The nodes `**` and `*`. -/
def recursiveTail : List CStr := [[starChar, starChar], [starChar]]

section Subtree

variable {D : List CStr} {pattern path : CStr}

lemma WithinLimits.flatten_lt {str : CStr} (h : WithinLimits str) (hsep : Separated str) :
    (components str).flatten.length < MAX_PATH_LEN := by
  unfold WithinLimits at h
  rw [if_pos hsep] at h
  exact h.1

lemma WithinLimits.translated {str : CStr} (h : WithinLimits str) (hnul : 0 ∉ str)
    (hsep : Separated str) (isPattern : Bool) : ∃ nodes, fnTranslate str isPattern = .ok (some nodes) ∧
      nodes.Lists (components str) isPattern := by
  have hlim := h
  unfold WithinLimits at hlim
  rw [if_pos hsep] at hlim
  exact fnTranslate_lists hnul hsep h.room hlim.2 isPattern

/-- The pattern accepts the paths two and three components below the directory. -/
lemma accepts_subtree (hnul : 0 ∉ pattern) (hnul' : 0 ∉ path) (hsep : Separated pattern)
    (hsep' : Separated path) (hlim : WithinLimits pattern) (hlim' : WithinLimits path)
    (hplain : ∀ c ∈ D, starChar ∉ c) (hpattern : components pattern = D ++ recursiveTail) :
    accepts pattern path = true ↔ D <+: components path ∧
      ((components path).length = D.length + 2 ∨ (components path).length = D.length + 3) := by
  obtain ⟨pat, hpat, h⟩ := hlim.translated hnul hsep true
  obtain ⟨exp, hexp, he⟩ := hlim'.translated hnul' hsep' false
  have hplim := not_endsAtLimit (hlim.flatten_lt hsep)
  have helim := not_endsAtLimit (hlim'.flatten_lt hsep')
  have hne : ∀ i (hi : i < (components pattern).length), (components pattern)[i] ≠ [] := fun i hi =>
    ne_nil_of_mem_components (List.getElem_mem hi)
  have hcnt : (components pattern).length = D.length + 2 := by
    rw [hpattern, List.length_append]
    rfl
  have hD : ∀ i, (hi : i < D.length) → (components pattern)[i] = D[i] := by
    intro i hi
    simp only [hpattern]
    exact List.getElem_append_left hi
  have hdouble : (components pattern)[D.length] = [starChar, starChar] := by
    simp [hpattern, recursiveTail]
  have hlast : (components pattern)[D.length + 1] = [starChar] := by
    simp [hpattern, recursiveTail]
  have hname : ∀ i, (hi : i < D.length) → (nodeGlob pat exp).star i = false ∧
      ∀ j, (hj : j < (components path).length) →
        (nodeGlob pat exp).accepts i j = decide (D[i] = (components path)[j]) := by
    intro i hi
    have hstar : starChar ∉ (components pattern)[i] := by
      rw [hD i hi]
      exact hplain _ (List.getElem_mem hi)
    refine ⟨?_, fun j hj => ?_⟩
    · rw [nodeGlob_star h (by omega) (hplim i) (hne i _), kindOf_name hstar]
      rfl
    · rw [← hD i hi]
      exact matchCurNode_name h he (by omega) hj (hplim i) (helim j) (hne i _)
        (ne_nil_of_mem_components (List.getElem_mem hj))
        (nul_notMem_components hnul (List.getElem_mem _)) hstar
  have hstar : (nodeGlob pat exp).star D.length = true := by
    rw [nodeGlob_star h (by omega) (hplim _) (hne _ _), hdouble]
    rfl
  have hone : (nodeGlob pat exp).star (D.length + 1) = false := by
    rw [nodeGlob_star h (by omega) (hplim _) (hne _ _), hlast]
    rfl
  have hall : ∀ j < (components path).length, (nodeGlob pat exp).accepts (D.length + 1) j = true :=
    fun j _ => matchCurNode_star h (by omega) (hplim _) hlast _
  obtain ⟨b, i', j', hw, hb⟩ := walk_names rfl rfl hname hstar hone hall D.length 0 (by omega)
    (Nat.zero_le _)
  rw [Nat.sub_zero, ← hcnt, ← h.nodeCnt, ← he.nodeCnt] at hw
  rw [List.drop_zero, List.drop_zero] at hb
  have hmatch := fnMatch_walk pat exp hw
  unfold accepts
  rw [hpat, hexp]
  dsimp only
  unfold Nodelist.fits
  rw [hmatch, ← hb]
  cases b <;> simp [MATCH, NO_MATCH]

/-- A filter with only this pattern answers for everything below `D`, and for nothing else than
paths that start with `D`. -/
def CoversSubtree (D : List CStr) (pattern : CStr) (id : Int) (path : CStr) : Prop :=
  ∃ filter filter' answer, filterAdd filterInit pattern id = .ok (0, filter) ∧
    filterMatch filter path = .ok (answer, filter') ∧
    (Separated path → ∀ xs, xs ≠ [] → components path = D ++ xs → answer = id) ∧
    (¬D <+: components path → answer = -1)

/-- The policy covers a path exactly if it lies two or three components below the directory,
or not below it at all. -/
theorem coversSubtree_iff (hnul : 0 ∉ pattern) (hnul' : 0 ∉ path) (hsep : Separated pattern)
    (hlim : WithinLimits pattern) (hlim' : WithinLimits path) (hplain : ∀ c ∈ D, starChar ∉ c)
    (hpattern : components pattern = D ++ recursiveTail) {id : Int} (hid : 0 ≤ id) :
    CoversSubtree D pattern id path ↔ (Separated path → ∀ xs, xs ≠ [] → components path = D ++ xs →
      xs.length = 2 ∨ xs.length = 3) := by
  obtain ⟨nodes, htr, -⟩ := hlim.translated hnul hsep true
  obtain ⟨filter, hadd, -⟩ := filterAdd_translated filterInit htr (by decide) id
  have hkept : filter.entries = kept [(pattern, id)] :=
    filterAdd_kept (show filterInit.entries = kept [] from rfl) hadd
  obtain ⟨nodes?, hpath⟩ := fnTranslate_withinLimits hnul' hlim' false
  obtain ⟨filter', hmatch, -⟩ := filterMatch_eq filter hkept hpath
  have hanswer : firstId [(pattern, id)] path = if accepts pattern path then id else -1 := by
    unfold firstId
    cases hacc : accepts pattern path <;> simp [hacc]
  rw [hanswer] at hmatch
  constructor
  · rintro ⟨filter₁, filter₂, answer, hadd₁, hmatch₁, hbelow, -⟩ hsep' xs hxs hcomps
    rw [hadd] at hadd₁
    cases hadd₁
    rw [hmatch] at hmatch₁
    cases hmatch₁
    have heq := hbelow hsep' xs hxs hcomps
    split at heq
    · rename_i hacc
      have hdepth := ((accepts_subtree hnul hnul' hsep hsep' hlim hlim' hplain hpattern).mp hacc).2
      rw [hcomps, List.length_append] at hdepth
      omega
    · omega
  · intro hdepth
    refine ⟨filter, filter', _, hadd, hmatch, ?_, ?_⟩
    · intro hsep' xs hxs hcomps
      have hlen := hdepth hsep' xs hxs hcomps
      rw [if_pos]
      rw [accepts_subtree hnul hnul' hsep hsep' hlim hlim' hplain hpattern, hcomps, List.length_append]
      refine ⟨List.prefix_append _ _, ?_⟩
      omega
    · intro hbegins
      rw [if_neg]
      intro hacc
      by_cases hsep' : Separated path
      · exact hbegins
          ((accepts_subtree hnul hnul' hsep hsep' hlim hlim' hplain hpattern).mp hacc).1
      · obtain ⟨-, exp, -, hexp⟩ := translate_of_accepts hacc
        rw [fnTranslate_rejected hnul' hsep' hlim'.room] at hexp
        cases hexp

end Subtree

theorem coversSubtree_root : CoversSubtree [cstr "root"] (cstr "/root/**/*") 7 (cstr "/root/a/b") ↔
    (Separated (cstr "/root/a/b") → ∀ xs, xs ≠ [] →
      components (cstr "/root/a/b") = [cstr "root"] ++ xs → xs.length = 2 ∨ xs.length = 3) :=
  coversSubtree_iff (by decide) (by decide) (by decide) (by decide) (by decide) (by decide) (by decide)
    (by decide)

/-- A file directly in the directory is missed. -/
theorem subtree_misses_file :
    ¬CoversSubtree [cstr "root"] (cstr "/root/**/*") 7 (cstr "/root/a") := by
  rintro ⟨filter, filter', answer, hadd, hmatch, hbelow, -⟩
  have hrun : (filterAdd filterInit (cstr "/root/**/*") 7 >>= fun r =>
      filterMatch r.2 (cstr "/root/a")).map Prod.fst = .ok (-1) := by rfl
  rw [hadd] at hrun
  change (filterMatch filter (cstr "/root/a")).map Prod.fst = _ at hrun
  rw [hmatch] at hrun
  have hanswer : answer = -1 := Except.ok.inj hrun
  have hcovered := hbelow (by decide) [cstr "a"] (by decide) (by decide)
  omega

end Hfm

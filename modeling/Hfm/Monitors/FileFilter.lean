import Hfm.Monitors.FnmatchCut

/-!
# Filters

`src/monitors/file_filter.c`: each monitor keeps one filter, with the patterns of its
policies in the order in which they were added, and their identifiers in an array.
-/

namespace Hfm

def MAX_PATTERNS : Nat := 128

/-- `struct _filter` -/
structure Filter where
  patterns : List Nodelist
  ids : Vector Int MAX_PATTERNS
  length_le : patterns.length ≤ MAX_PATTERNS
  deriving DecidableEq

def filterInit : Filter := ⟨[], Vector.replicate _ 0, Nat.zero_le _⟩

/-- The status is 0, or -1 for a pattern that could not be translated. -/
def filterAdd (filter : Filter) (pattern : CStr) (id : Int) : Except Fault (Int × Filter) := do
  match ← fnTranslate pattern true with
  | none => .ok (-1, filter)
  | some nodes =>
    if h : filter.patterns.length < MAX_PATTERNS then
      .ok (0, ⟨filter.patterns ++ [nodes], filter.ids.set filter.patterns.length id,
        by rw [List.length_append]; exact h⟩)
    else .error .outOfBounds

/-- The loop of `filter_match` from the pattern numbered `i` on, with the patterns as it
leaves them: `fn_match` moves the cursors of both its lists. -/
def matchPatterns (ids : Vector Int MAX_PATTERNS) (nodes : Nodelist) :
    Nat → List Nodelist → Except Fault (Int × List Nodelist)
  | _, [] => .ok (-1, [])
  | i, pattern :: patterns => do
    let (res, pattern, nodes) ← fnMatch pattern nodes
    if res = MATCH then
      if h : i < MAX_PATTERNS then .ok (ids[i], pattern :: patterns) else .error .outOfBounds
    else do
      let (id, patterns) ← matchPatterns ids nodes (i + 1) patterns
      return (id, pattern :: patterns)

lemma matchPatterns_length {ids : Vector Int MAX_PATTERNS} : ∀ {patterns patterns' : List Nodelist}
    {nodes : Nodelist} {i : Nat} {id : Int},
    matchPatterns ids nodes i patterns = .ok (id, patterns') → patterns'.length = patterns.length := by
  intro patterns
  induction patterns with
  | nil =>
    intro patterns' nodes i id h
    cases h
    rfl
  | cons pattern patterns ih =>
    intro patterns' nodes i id h
    obtain ⟨⟨res, pattern', nodes'⟩, -, h⟩ := bind_eq_ok.mp h
    dsimp only at h
    split at h
    · split at h
      · cases h
        rfl
      · cases h
    · obtain ⟨⟨id', rest⟩, hrest, h⟩ := bind_eq_ok.mp h
      cases h
      rw [List.length_cons, List.length_cons, ih hrest]

/-- The identifier of the first pattern that matches, or -1. -/
def filterMatch (filter : Filter) (filepath : CStr) : Except Fault (Int × Filter) := do
  match ← fnTranslate filepath false with
  | none => .ok (-1, filter)
  | some nodes =>
    match h : matchPatterns filter.ids nodes 0 filter.patterns with
    | .error fault => .error fault
    | .ok (id, patterns) =>
      .ok (id, ⟨patterns, filter.ids, by rw [matchPatterns_length h]; exact filter.length_le⟩)

/-! ### What a pattern accepts -/

namespace Nodelist

/-- What `fn_match` decides; the cursors do not matter. -/
def fits (pattern exp : Nodelist) : Bool :=
  match fnMatch pattern exp with
  | .ok (res, _) => res = MATCH
  | .error _ => false

@[simp] lemma reset_reset (list : Nodelist) : list.reset.reset = list.reset := rfl

lemma fits_congr {pattern pattern' exp exp' : Nodelist} (hp : pattern.reset = pattern'.reset)
    (he : exp.reset = exp'.reset) : pattern.fits exp = pattern'.fits exp' := by
  have hcnt : exp.reset.nodeCnt = exp'.reset.nodeCnt := by rw [he]
  change exp.nodeCnt = exp'.nodeCnt at hcnt
  unfold fits fnMatch
  rw [hp, he, hcnt]

end Nodelist

/-- A search has enough fuel if it has more than there are path nodes left. -/
lemma walk_total {g : Support.Glob Nat Nat} {n m : Nat} (fuel : Nat) : ∀ {i j : Nat},
    i ≤ n → j ≤ m → m - j < fuel → ∃ r, walk g n m fuel i j = some r := by
  induction fuel with
  | zero =>
    intro i j _ _ hfuel
    omega
  | succ fuel ih =>
    intro i j hi hj hfuel
    rw [walk]
    by_cases hjm : m ≤ j
    · exact ⟨_, if_pos hjm⟩
    rw [if_neg hjm]
    by_cases hin : n ≤ i
    · exact ⟨_, if_pos hin⟩
    rw [if_neg hin]
    obtain ⟨⟨b, i', j'⟩, hw⟩ := ih (i := i + 1) (j := j + 1) (by omega) (by omega) (by omega)
    rw [hw]
    split
    · cases b with
      | true => exact ⟨_, rfl⟩
      | false =>
        have hb := walk_bounds fuel (by omega) (by omega) hw
        exact ih (by omega) (by omega) (by omega)
    · split
      · exact ⟨_, rfl⟩
      · exact ⟨_, rfl⟩

lemma fnMatch_fits (pattern exp : Nodelist) : ∃ i j, fnMatch pattern exp =
    .ok (if pattern.fits exp then MATCH else NO_MATCH, pattern.cursorAt i, exp.cursorAt j) := by
  obtain ⟨⟨b, i, j⟩, hw⟩ := walk_total (g := nodeGlob pattern exp) (n := pattern.nodeCnt)
    (exp.nodeCnt + 1) (Nat.zero_le _) (Nat.zero_le _) (Nat.lt_succ_self _)
  have hmatch := fnMatch_walk pattern exp hw
  have hfits : pattern.fits exp = b := by
    unfold Nodelist.fits
    rw [hmatch]
    cases b <;> rfl
  refine ⟨i, j, ?_⟩
  rw [hfits, hmatch]

/-- Whether the pattern of a policy accepts a path. -/
def accepts (pattern path : CStr) : Bool :=
  match fnTranslate pattern true, fnTranslate path false with
  | .ok (some pattern), .ok (some exp) => pattern.fits exp
  | _, _ => false

lemma translate_of_accepts {pattern path : CStr} (h : accepts pattern path = true) :
    ∃ nodes exp, fnTranslate pattern true = .ok (some nodes) ∧
      fnTranslate path false = .ok (some exp) := by
  unfold accepts at h
  split at h
  · rename_i nodes exp hpattern hpath
    exact ⟨nodes, exp, hpattern, hpath⟩
  · cases h

/-! ### The policies in a filter -/

/-- The patterns that were added to a filter with the identifiers of their policies, the
oldest first. -/
abbrev Added := List (CStr × Int)

/-- The identifier of the oldest pattern that accepts a path, or -1. -/
def firstId (added : Added) (path : CStr) : Int :=
  ((added.find? fun a => accepts a.1 path).map Prod.snd).getD (-1)

/-- The node list of a pattern, if it has one. -/
def translated (pattern : CStr) : Option Nodelist :=
  match fnTranslate pattern true with
  | .ok nodes => nodes
  | .error _ => none

/-- What the filter keeps of the patterns added to it. -/
def kept (added : Added) : List (Nodelist × Int) :=
  added.filterMap fun a => (translated a.1).map (·, a.2)

lemma mem_kept {added : Added} {pattern : CStr} {id : Int} (h : (pattern, id) ∈ added)
    {nodes : Nodelist} (htr : fnTranslate pattern true = .ok (some nodes)) :
    (nodes, id) ∈ kept added := by
  have htr' : translated pattern = some nodes := by
    unfold translated
    rw [htr]
  exact List.mem_filterMap.mpr ⟨_, h, by simp [htr']⟩

/-- The patterns of a filter, their cursors apart, with the identifiers of the array. -/
def Filter.entries (filter : Filter) : List (Nodelist × Int) :=
  (filter.patterns.map Nodelist.reset).zip filter.ids.toList

lemma fnTranslate_reset {str : CStr} {isPattern : Bool} {nodes : Nodelist}
    (h : fnTranslate str isPattern = .ok (some nodes)) : nodes.reset = nodes := by
  obtain ⟨st?, -, h⟩ := bind_eq_ok.mp h
  cases st? with
  | none => cases h
  | some st =>
    dsimp only at h
    split at h
    · cases h
      rfl
    · cases h

lemma length_entries (filter : Filter) : filter.entries.length = filter.patterns.length := by
  have := filter.length_le
  unfold Filter.entries
  rw [List.length_zip, List.length_map, Vector.length_toList]
  omega

lemma zip_set_concat {α β : Type} (l : List α) (ids : List β) (x : α) (id : β)
    (h : l.length < ids.length) : (l ++ [x]).zip (ids.set l.length id) = l.zip ids ++ [(x, id)] := by
  induction l generalizing ids with
  | nil =>
    cases ids with
    | nil => cases h
    | cons id' ids => simp
  | cons y l ih =>
    cases ids with
    | nil => cases h
    | cons id' ids =>
      simp only [List.cons_append, List.length_cons, List.set_cons_succ, List.zip_cons_cons]
      rw [ih ids (by simpa using h)]

/-- Adding a pattern appends an entry, as long as there is room in the array. -/
lemma filterAdd_translated (filter : Filter) {pattern : CStr} {nodes : Nodelist}
    (htr : fnTranslate pattern true = .ok (some nodes)) (hroom : filter.patterns.length < MAX_PATTERNS)
    (id : Int) : ∃ filter', filterAdd filter pattern id = .ok (0, filter') ∧
      filter'.entries = filter.entries ++ [(nodes, id)] := by
  refine ⟨⟨filter.patterns ++ [nodes], filter.ids.set filter.patterns.length id,
    by rw [List.length_append]; exact hroom⟩, ?_, ?_⟩
  · unfold filterAdd
    rw [htr]
    exact dif_pos hroom
  · have hzip := zip_set_concat (filter.patterns.map Nodelist.reset) filter.ids.toList nodes id
      (by simpa using hroom)
    unfold Filter.entries
    rw [← hzip, List.map_append, List.map_singleton, fnTranslate_reset htr, List.length_map,
      Vector.toList_set]

lemma filterAdd_rejected (filter : Filter) {pattern : CStr}
    (htr : fnTranslate pattern true = .ok none) (id : Int) :
    filterAdd filter pattern id = .ok (-1, filter) := by
  unfold filterAdd
  rw [htr]
  rfl

/-- What becomes of the filter if the call has a defined end. -/
lemma filterAdd_ok {filter filter' : Filter} {pattern : CStr} {id status : Int}
    (h : filterAdd filter pattern id = .ok (status, filter')) :
    (∃ nodes, fnTranslate pattern true = .ok (some nodes) ∧
      filter.patterns.length < MAX_PATTERNS ∧ filter'.entries = filter.entries ++ [(nodes, id)]) ∨
    (fnTranslate pattern true = .ok none ∧ filter' = filter) := by
  obtain ⟨nodes?, htr, hrest⟩ := bind_eq_ok.mp h
  cases nodes? with
  | none =>
    cases hrest
    exact .inr ⟨htr, rfl⟩
  | some nodes =>
    dsimp only at hrest
    split at hrest
    · rename_i hroom
      obtain ⟨filter₁, hok, hentries⟩ := filterAdd_translated filter htr hroom id
      rw [h] at hok
      cases hok
      exact .inl ⟨nodes, htr, hroom, hentries⟩
    · cases hrest

/-- Adding a pattern to what is kept of the patterns before. -/
lemma filterAdd_kept {filter filter' : Filter} {added : Added} (hf : filter.entries = kept added)
    {pattern : CStr} {id status : Int} (h : filterAdd filter pattern id = .ok (status, filter')) :
    filter'.entries = kept (added ++ [(pattern, id)]) := by
  unfold kept
  rw [List.filterMap_append]
  rcases filterAdd_ok h with ⟨nodes, htr, -, hentries⟩ | ⟨htr, rfl⟩
  · have htr' : translated pattern = some nodes := by
      unfold translated
      rw [htr]
    rw [hentries, hf]
    simp [kept, htr']
  · have htr' : translated pattern = none := by
      unfold translated
      rw [htr]
    rw [hf]
    simp [kept, htr']

/-- The loop of `filter_match` finds the first of the entries from `i` on that fits. -/
lemma matchPatterns_eq (ids : Vector Int MAX_PATTERNS) (nodes : Nodelist) :
    ∀ (patterns : List Nodelist) (exp : Nodelist) (i : Nat), exp.reset = nodes.reset →
      i + patterns.length ≤ MAX_PATTERNS → ∃ patterns',
      matchPatterns ids exp i patterns =
        .ok (((((patterns.map Nodelist.reset).zip (ids.toList.drop i)).find?
          fun e => e.1.fits nodes).map Prod.snd).getD (-1), patterns') ∧
      patterns'.map Nodelist.reset = patterns.map Nodelist.reset := by
  intro patterns
  induction patterns with
  | nil => exact fun _ _ _ _ => ⟨[], rfl, rfl⟩
  | cons pattern patterns ih =>
    intro exp i hexp hlen
    rw [List.length_cons] at hlen
    have hi : i < MAX_PATTERNS := by omega
    obtain ⟨k, l, hmatch⟩ := fnMatch_fits pattern exp
    rw [Nodelist.fits_congr (pattern.reset_reset).symm hexp] at hmatch
    have hdrop : ids.toList.drop i = ids[i] :: ids.toList.drop (i + 1) := by
      rw [List.drop_eq_getElem_cons (by simpa using hi), Vector.getElem_toList]
    rw [matchPatterns, hmatch, hdrop, List.map_cons, List.zip_cons_cons, List.find?_cons]
    simp only [bind, Except.bind]
    cases hfits : pattern.reset.fits nodes with
    | true =>
      rw [if_pos rfl, if_pos rfl, dif_pos hi]
      exact ⟨_, rfl, rfl⟩
    | false =>
      obtain ⟨patterns', hrest, hreset⟩ := ih (exp.cursorAt l) (i + 1) hexp (by omega)
      rw [if_neg Bool.false_ne_true, if_neg (by decide), hrest]
      refine ⟨_, rfl, ?_⟩
      rw [List.map_cons, hreset]
      rfl

lemma find_kept (nodes : Nodelist) {path : CStr} (hpath : fnTranslate path false = .ok (some nodes))
    (added : Added) : ((kept added).find? fun e => e.1.fits nodes).map Prod.snd =
      (added.find? fun a => accepts a.1 path).map Prod.snd := by
  induction added with
  | nil => rfl
  | cons a added ih =>
    have hacc : accepts a.1 path = (translated a.1).any (·.fits nodes) := by
      unfold accepts translated
      rw [hpath]
      cases fnTranslate a.1 true with
      | error fault => rfl
      | ok nodes? => cases nodes? <;> rfl
    rw [List.find?_cons, hacc]
    cases htr : translated a.1 with
    | none => simpa [kept, htr] using ih
    | some pattern =>
      cases hfits : pattern.fits nodes with
      | true => simp [kept, htr, hfits]
      | false => simpa [kept, htr, hfits] using ih

/-- `filter_match` gives the oldest added policy whose pattern accepts the path, and keeps
the policies in the filter. -/
theorem filterMatch_eq (filter : Filter) {added : Added} (hf : filter.entries = kept added)
    {path : CStr} {nodes? : Option Nodelist} (hpath : fnTranslate path false = .ok nodes?) :
    ∃ filter', filterMatch filter path = .ok (firstId added path, filter') ∧
      filter'.entries = kept added := by
  cases nodes? with
  | none =>
    have hnone : ∀ a ∈ added, ¬accepts a.1 path = true := by
      intro a _
      unfold accepts
      rw [hpath]
      simp
    refine ⟨filter, ?_, hf⟩
    unfold filterMatch firstId
    rw [hpath, List.find?_eq_none.mpr hnone]
    rfl
  | some nodes =>
    obtain ⟨patterns', hmatch, hreset⟩ := matchPatterns_eq filter.ids nodes filter.patterns nodes 0 rfl
      (by simpa using filter.length_le)
    have hfirst : ((((filter.patterns.map Nodelist.reset).zip (filter.ids.toList.drop 0)).find?
        fun e => e.1.fits nodes).map Prod.snd).getD (-1) = firstId added path := by
      rw [List.drop_zero]
      change ((filter.entries.find? _).map _).getD _ = _
      rw [hf, find_kept nodes hpath]
      rfl
    rw [hfirst] at hmatch
    refine ⟨⟨patterns', filter.ids, by rw [matchPatterns_length hmatch]; exact filter.length_le⟩,
      ?_, ?_⟩
    · unfold filterMatch
      rw [hpath]
      simp only [bind, Except.bind]
      split
      · rename_i fault hfault
        rw [hmatch] at hfault
        cases hfault
      · rename_i id patterns hok
        rw [hmatch] at hok
        cases hok
        rfl
    · rw [← hf]
      unfold Filter.entries
      rw [hreset]

end Hfm

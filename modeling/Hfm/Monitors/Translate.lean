import Mathlib.Data.List.TakeWhile
import Hfm.Monitors.Fnmatch

/-!
# What a translation holds

A path or a pattern stands for its components, the parts between its separators. The buffer
of a node list holds them back to back, and `offsets` where each of them starts; the arrays
are smaller than the strings that come in.
-/

namespace Hfm

/-- The string behind a separator in front. -/
def body (str : CStr) : CStr :=
  match str with
  | [] => []
  | ch :: rest => if isSlash ch then rest else str

/-- The parts between the separators, up to the first empty one. -/
def fullParts (s : CStr) : List CStr := (s.splitOnP isSlash).takeWhile (· ≠ [])

def components (str : CStr) : List CStr := fullParts (body str)

/-- No separator stands directly behind another. -/
def Separated (str : CStr) : Prop := [] ∉ ((body str).splitOnP isSlash).dropLast

instance decidableSeparated (str : CStr) : Decidable (Separated str) :=
  inferInstanceAs (Decidable (_ ∉ _))

/-- Where the component numbered `k` starts in the buffer. -/
def startOf (comps : List CStr) (k : Nat) : Nat := (comps.take k).flatten.length

/-- The components fit in the arrays. -/
def Room (comps : List CStr) : Prop :=
  comps.flatten.length ≤ MAX_PATH_LEN ∧ comps.length ≤ MAX_DIR_LEVEL

instance decidableRoom (comps : List CStr) : Decidable (Room comps) :=
  inferInstanceAs (Decidable (_ ∧ _))

/-! ### The loop -/

/-- The components written so far. -/
structure TranslateState.Holds (st : TranslateState) (comps : List CStr) : Prop where
  room : Room comps
  nodeCnt : st.nodeCnt = comps.length
  destPtr : st.destPtr = comps.flatten.length
  offset : ∀ k < comps.length, (st.offsets[k]?.getD 0).toNat = startOf comps k
  char : ∀ k : Nat, st.str[k]?.getD 0 = comps.flatten[k]?.getD 0

lemma startOf_append (comps more : List CStr) {k : Nat} (hk : k ≤ comps.length) :
    startOf (comps ++ more) k = startOf comps k := by
  unfold startOf
  rw [List.take_append_of_le_length hk]

lemma startOf_length (comps : List CStr) : startOf comps comps.length = comps.flatten.length := by
  unfold startOf
  rw [List.take_length]

lemma getD_concat {α : Type} (l : List α) (a d : α) (k : Nat) :
    (l ++ [a])[k]?.getD d = if k = l.length then a else l[k]?.getD d := by
  by_cases hlt : k < l.length
  · rw [List.getElem?_append_left hlt, if_neg (by omega)]
  · rw [List.getElem?_append_right (by omega)]
    by_cases heq : k = l.length
    · rw [if_pos heq, heq]
      simp
    · rw [if_neg heq, List.getElem?_eq_none (by simp; omega), List.getElem?_eq_none (by omega)]

lemma getD_set {α : Type} {n : Nat} (v : Vector α n) {i : Nat} (hi : i < n) (a d : α) (k : Nat) :
    (v.set i a)[k]?.getD d = if k = i then a else v[k]?.getD d := by
  rw [Vector.getElem?_set]
  by_cases heq : i = k
  · rw [if_pos heq, if_pos heq.symm]
    rfl
  · rw [if_neg heq, if_neg (Ne.symm heq)]

namespace TranslateState.Holds

variable {st : TranslateState} {comps : List CStr}

/-- The next character of the last component. -/
lemma putChar {c : CStr} (h : st.Holds (comps ++ [c])) (ch : UInt8) :
    if Room (comps ++ [c ++ [ch]]) then
      ∃ st', st.putChar ch = .ok st' ∧ st'.Holds (comps ++ [c ++ [ch]]) ∧
        st'.strPtr = st.strPtr ∧ st'.lastSlash = st.lastSlash
    else st.putChar ch = .error .outOfBounds := by
  have hflat : (comps ++ [c ++ [ch]]).flatten = (comps ++ [c]).flatten ++ [ch] := by simp
  have hroom := h.room
  have hdest := h.destPtr
  unfold Room at hroom
  have hiff : Room (comps ++ [c ++ [ch]]) ↔ st.destPtr < MAX_PATH_LEN := by
    unfold Room
    rw [hflat, hdest]
    simp only [List.length_append, List.length_singleton] at hroom ⊢
    omega
  unfold TranslateState.putChar
  split
  · rename_i hr
    have hlt := hiff.mp hr
    rw [dif_pos hlt]
    refine ⟨_, rfl, ⟨hr, ?_, ?_, ?_, ?_⟩, rfl, rfl⟩
    · have := h.nodeCnt
      simpa using this
    · rw [hflat, List.length_append, List.length_singleton, ← hdest]
    · intro k hk
      have := h.offset k (by simpa using hk)
      rw [startOf_append _ _ (by simp at hk; omega)] at this ⊢
      exact this
    · intro k
      rw [hflat, getD_concat, getD_set _ hlt, hdest, h.char]
  · rename_i hr
    rw [dif_neg (fun hlt => hr (hiff.mpr hlt))]

/-- The first character of a component. -/
lemma start (h : st.Holds comps) (ch : UInt8) :
    if Room (comps ++ [[ch]]) then
      ∃ st₁ st', st.markOffset = .ok st₁ ∧ st₁.putChar ch = .ok st' ∧
        { st' with nodeCnt := st'.nodeCnt + 1 }.Holds (comps ++ [[ch]]) ∧
        st'.strPtr = st.strPtr ∧ st'.lastSlash = st.lastSlash
    else (st.markOffset >>= fun st => st.putChar ch) = .error .outOfBounds := by
  have hflat : (comps ++ [[ch]]).flatten = comps.flatten ++ [ch] := by simp
  have hroom := h.room
  have hdest := h.destPtr
  have hcnt := h.nodeCnt
  unfold Room at hroom
  have hiff : Room (comps ++ [[ch]]) ↔ st.destPtr < MAX_PATH_LEN ∧ st.nodeCnt < MAX_DIR_LEVEL := by
    unfold Room
    rw [hflat, hdest, hcnt]
    simp only [List.length_append, List.length_singleton]
    omega
  unfold markOffset TranslateState.putChar
  split
  · rename_i hr
    obtain ⟨hlt, hnode⟩ := hiff.mp hr
    rw [dif_pos hnode]
    refine ⟨_, _, rfl, dif_pos hlt, ⟨hr, ?_, ?_, ?_, ?_⟩, rfl, rfl⟩
    · simp [hcnt]
    · rw [hflat, List.length_append, List.length_singleton, ← hdest]
    · intro k hk
      dsimp only
      rw [getD_set _ hnode, hcnt]
      rw [List.length_append, List.length_singleton] at hk
      rw [startOf_append _ _ (by omega)]
      split
      · rename_i heq
        rw [heq, startOf_length, ← hdest]
        unfold MAX_PATH_LEN at hlt
        simp
        omega
      · exact h.offset k (by omega)
    · intro k
      dsimp only
      rw [hflat, getD_concat, getD_set _ hlt, hdest, h.char]
  · rename_i hr
    by_cases hnode : st.nodeCnt < MAX_DIR_LEVEL
    · have hlt : ¬st.destPtr < MAX_PATH_LEN := fun hlt => hr (hiff.mpr ⟨hlt, hnode⟩)
      rw [dif_pos hnode]
      simp only [bind, Except.bind]
      exact dif_neg hlt
    · rw [dif_neg hnode]
      rfl

end TranslateState.Holds

/-- The components with the one that is being read. -/
def withCurrent (comps : List CStr) (c : CStr) : List CStr := comps ++ [c].takeWhile (· ≠ [])

/-- What the loop has to end with behind the components `comps`, if these are the parts of the
rest of the string. -/
def Outcome (comps parts : List CStr) (res : Except Fault (Option TranslateState)) : Prop :=
  if Room (comps ++ parts.takeWhile (· ≠ [])) then
    if [] ∈ parts.dropLast then res = .ok none
    else ∃ st, res = .ok (some st) ∧ st.Holds (comps ++ parts.takeWhile (· ≠ []))
  else res = .error .outOfBounds

section Outcome

variable {comps ps : List CStr} {c : CStr} {res : Except Fault (Option TranslateState)}

lemma withCurrent_nil : withCurrent comps [] = comps := by simp [withCurrent]

lemma withCurrent_of_ne (hc : c ≠ []) : withCurrent comps c = comps ++ [c] := by
  simp [withCurrent, hc]

lemma outcome_done {st : TranslateState} (h : st.Holds (withCurrent comps c)) :
    Outcome comps [c] (.ok (some st)) := by
  have hall : comps ++ [c].takeWhile (· ≠ []) = withCurrent comps c := rfl
  unfold Outcome
  rw [hall, if_pos h.room, if_neg (by simp)]
  exact ⟨st, rfl, h⟩

lemma outcome_rejected (h : Room comps) (hps : ps ≠ []) : Outcome comps ([] :: ps) (.ok none) := by
  obtain ⟨p, ps, rfl⟩ := List.exists_cons_of_ne_nil hps
  unfold Outcome
  rw [if_pos (by simpa using h), if_pos (by simp)]

lemma outcome_cons (hc : c ≠ []) (hps : ps ≠ []) :
    Outcome comps (c :: ps) res ↔ Outcome (comps ++ [c]) ps res := by
  obtain ⟨p, ps, rfl⟩ := List.exists_cons_of_ne_nil hps
  unfold Outcome
  simp only [List.takeWhile_cons_of_pos (p := fun l : CStr => decide (l ≠ [])) (decide_eq_true hc),
    List.dropLast_cons_cons, List.mem_cons, Ne.symm hc, false_or, List.append_assoc,
    List.singleton_append]

lemma outcome_full (hc : c ≠ []) (h : ¬Room (comps ++ [c])) (p : CStr) :
    Outcome comps ((c ++ p) :: ps) (.error .outOfBounds) := by
  unfold Outcome
  rw [if_neg]
  intro hroom
  apply h
  unfold Room at hroom ⊢
  simp only [List.takeWhile_cons, ne_eq, List.append_eq_nil_iff, hc, false_and, not_false_eq_true,
    decide_true, if_true, List.flatten_append, List.flatten_cons, List.length_append,
    List.length_cons, List.flatten_nil, List.append_nil, List.length_nil] at hroom ⊢
  omega

end Outcome

/-- What the loop makes of the rest of the string, with `c` read of the current component. -/
lemma translateLoop_outcome (rest : CStr) : ∀ {st : TranslateState} {comps : List CStr} {c : CStr},
    0 ∉ rest → st.Holds (withCurrent comps c) → st.strPtr - st.lastSlash = c.length + 1 →
      Outcome comps ((rest.splitOnP isSlash).modifyHead (c ++ ·)) (translateLoop rest st) := by
  induction rest with
  | nil =>
    intro st comps c _ hst _
    rw [List.splitOnP_nil, List.modifyHead_cons, List.append_nil]
    exact outcome_done hst
  | cons ch rest ih =>
    intro st comps c hnul hst hdiff
    rw [List.mem_cons, not_or] at hnul
    obtain ⟨p, ps, hsplit⟩ := List.exists_cons_of_ne_nil (List.splitOnP_ne_nil isSlash rest)
    rw [translateLoop, if_neg (Ne.symm hnul.1), List.splitOnP_cons_eq_if_modifyHead]
    cases hslash : isSlash ch with
    | true =>
      rw [if_pos rfl, if_pos rfl, List.modifyHead_cons, List.append_nil]
      by_cases hc : c = []
      · subst hc
        rw [withCurrent_nil] at hst
        rw [if_pos (by simpa using hdiff)]
        exact outcome_rejected hst.room (List.splitOnP_ne_nil _ _)
      · have hlen : 0 < c.length := List.length_pos_iff.mpr hc
        rw [withCurrent_of_ne hc] at hst
        rw [if_neg (by omega), outcome_cons hc (List.splitOnP_ne_nil _ _)]
        have hid : (rest.splitOnP isSlash).modifyHead (([] : CStr) ++ ·) = rest.splitOnP isSlash := by
          simp [hsplit]
        rw [← hid]
        apply ih hnul.2
        · rw [withCurrent_nil]
          exact ⟨hst.room, hst.nodeCnt, hst.destPtr, hst.offset, hst.char⟩
        · dsimp only [List.length_nil]
          omega
    | false =>
      rw [if_neg Bool.false_ne_true, if_neg Bool.false_ne_true]
      have hparts : ((rest.splitOnP isSlash).modifyHead (ch :: ·)).modifyHead (c ++ ·) =
          (rest.splitOnP isSlash).modifyHead ((c ++ [ch]) ++ ·) := by
        rw [List.modifyHead_modifyHead]
        congr 1
        funext l
        simp
      have hne : c ++ [ch] ≠ [] := by simp
      rw [hparts]
      by_cases hc : c = []
      · subst hc
        rw [withCurrent_nil] at hst
        have hstart := hst.start ch
        rw [if_pos (by simpa using hdiff)]
        split at hstart
        · obtain ⟨st₁, st', hmark, hput, hst', hptr, hlast⟩ := hstart
          simp only [hmark, hput, bind, Except.bind]
          apply ih hnul.2
          · rw [withCurrent_of_ne hne]
            exact ⟨hst'.room, hst'.nodeCnt, hst'.destPtr, hst'.offset, hst'.char⟩
          · simp only [hptr, hlast]
            simp at hdiff ⊢
            omega
        · rename_i hroom
          rw [← bind_assoc, hstart, hsplit]
          exact outcome_full hne hroom p
      · rw [withCurrent_of_ne hc] at hst
        have hput := hst.putChar ch
        have hlen : 0 < c.length := List.length_pos_iff.mpr hc
        rw [if_neg (by omega)]
        split at hput
        · obtain ⟨st', hput, hst', hptr, hlast⟩ := hput
          simp only [hput, bind, Except.bind]
          apply ih hnul.2
          · rw [withCurrent_of_ne hne]
            exact ⟨hst'.room, hst'.nodeCnt, hst'.destPtr, hst'.offset, hst'.char⟩
          · simp only [hptr, hlast, List.length_append, List.length_singleton]
            omega
        · rename_i hroom
          rw [hput, hsplit]
          exact outcome_full hne hroom p

/-! ### The whole translation -/

/-- The variables in front of the loop. -/
def translateStart (str : CStr) : TranslateState :=
  match str with
  | [] => ⟨0, -1, 0, 0, Vector.replicate _ 0, Vector.replicate _ 0⟩
  | ch :: _ =>
    if isSlash ch then ⟨1, 0, 0, 0, Vector.replicate _ 0, Vector.replicate _ 0⟩
    else ⟨0, -1, 0, 0, Vector.replicate _ 0, Vector.replicate _ 0⟩

/-- What is done behind the loop. -/
def markEnd (isPattern : Bool) (st : TranslateState) : Except Fault (Option Nodelist) :=
  if h : st.nodeCnt < MAX_DIR_LEVEL then
    let offsets := st.offsets.set st.nodeCnt st.destPtr.toUInt8
    let nodetypes := Vector.ofFn fun i : Fin MAX_DIR_LEVEL =>
      have hi := i.isLt
      if isPattern ∧ i.val < st.nodeCnt then
        findNodeType st.str offsets[i.val] (offsets[i.val + 1]?.getD 0)
      else .invalid
    .ok (some ⟨st.nodeCnt, 0, offsets, nodetypes, st.str, h⟩)
  else .error .outOfBounds

lemma fnTranslate_eq (str : CStr) (isPattern : Bool) : fnTranslate str isPattern =
    translateLoop (body str) (translateStart str) >>= fun st? =>
      match st? with
      | none => .ok none
      | some st => markEnd isPattern st := by
  unfold fnTranslate body translateStart
  cases str with
  | nil => rfl
  | cons ch rest =>
    dsimp only
    split
    · rfl
    · rfl

lemma translateStart_holds (str : CStr) :
    (translateStart str).Holds [] ∧ (translateStart str).strPtr - (translateStart str).lastSlash = 1 := by
  have hzero : ∀ k : Nat, (Vector.replicate MAX_PATH_LEN (0 : UInt8))[k]?.getD 0 = 0 := by
    intro k
    rw [Vector.getElem?_replicate]
    split <;> rfl
  unfold translateStart
  split
  · exact ⟨⟨by decide, rfl, rfl, by simp, by simpa using hzero⟩, rfl⟩
  · split
    · exact ⟨⟨by decide, rfl, rfl, by simp, by simpa using hzero⟩, rfl⟩
    · exact ⟨⟨by decide, rfl, rfl, by simp, by simpa using hzero⟩, rfl⟩

/-- The loop, run on a string without a separator in front. -/
lemma translateLoop_start (str : CStr) {s : CStr} (hnul : 0 ∉ s) :
    Outcome [] (s.splitOnP isSlash) (translateLoop s (translateStart str)) := by
  obtain ⟨hst, hdiff⟩ := translateStart_holds str
  have hid : (s.splitOnP isSlash).modifyHead (([] : CStr) ++ ·) = s.splitOnP isSlash := by
    obtain ⟨p, ps, hsplit⟩ := List.exists_cons_of_ne_nil (List.splitOnP_ne_nil isSlash s)
    simp [hsplit]
  rw [← hid]
  apply translateLoop_outcome s hnul
  · rw [withCurrent_nil]
    exact hst
  · simpa using hdiff

lemma body_nul {str : CStr} (hnul : 0 ∉ str) : 0 ∉ body str := by
  unfold body
  split
  · simp
  · split
    · exact fun h => hnul (List.mem_cons_of_mem _ h)
    · exact hnul

/-- The node list of a string with the components `comps`. The last offset may be the number
of a position behind the 8 bits. -/
structure Nodelist.Lists (nodes : Nodelist) (comps : List CStr) (isPattern : Bool) : Prop where
  room : Room comps
  nodeCnt : nodes.nodeCnt = comps.length
  offset : ∀ k ≤ comps.length, nodes.offset k = (startOf comps k).toUInt8
  char : ∀ k : Nat, charAt nodes.str k = comps.flatten[k]?.getD 0
  nodetype : ∀ k < comps.length, isPattern = true →
    nodes.nodetypes[k]?.getD .invalid = findNodeType nodes.str (nodes.offset k) (nodes.offset (k + 1))

lemma charAt_natCast (str : Vector UInt8 MAX_PATH_LEN) (k : Nat) :
    charAt str k = str[k]?.getD 0 := by
  unfold charAt
  rw [if_neg (by omega), Int.toNat_natCast]

lemma TranslateState.Holds.markEnd {st : TranslateState} {comps : List CStr} (h : st.Holds comps)
    (hlen : comps.length < MAX_DIR_LEVEL) (isPattern : Bool) :
    ∃ nodes, markEnd isPattern st = .ok (some nodes) ∧ nodes.Lists comps isPattern := by
  have hcnt : st.nodeCnt < MAX_DIR_LEVEL := by rw [h.nodeCnt]; exact hlen
  refine ⟨_, dif_pos hcnt, ⟨h.room, h.nodeCnt, ?_, ?_, ?_⟩⟩
  · intro k hk
    unfold Nodelist.offset
    dsimp only
    rw [getD_set _ hcnt, h.nodeCnt]
    split
    · rename_i heq
      rw [heq, startOf_length, h.destPtr]
    · rw [← h.offset k (by omega)]
      simp
  · intro k
    rw [charAt_natCast]
    exact h.char k
  · intro k hk hp
    have hlt : k < MAX_DIR_LEVEL := by omega
    dsimp only
    rw [Vector.getElem?_ofFn, dif_pos hlt, Option.getD_some,
      if_pos ⟨hp, by rw [h.nodeCnt]; exact hk⟩]
    unfold Nodelist.offset
    dsimp only
    rw [Vector.getElem?_eq_getElem hlt, Option.getD_some]

section

variable {str : CStr}

lemma translateLoop_body (hnul : 0 ∉ str) :
    if Room (components str) then
      if Separated str then
        ∃ st, translateLoop (body str) (translateStart str) = .ok (some st) ∧
          st.Holds (components str)
      else translateLoop (body str) (translateStart str) = .ok none
    else translateLoop (body str) (translateStart str) = .error .outOfBounds := by
  have hloop := translateLoop_start str (body_nul hnul)
  unfold Outcome at hloop
  rw [List.nil_append] at hloop
  split at hloop
  · rename_i hroom
    rw [if_pos (show Room (components str) from hroom)]
    split at hloop
    · rename_i hempty
      rw [if_neg (show ¬Separated str from not_not.mpr hempty)]
      exact hloop
    · rename_i hsep
      rw [if_pos (show Separated str from hsep)]
      exact hloop
  · rename_i hroom
    rw [if_neg (show ¬Room (components str) from hroom)]
    exact hloop

lemma fnTranslate_rejected (hnul : 0 ∉ str) (hsep : ¬Separated str) (hroom : Room (components str))
    (isPattern : Bool) : fnTranslate str isPattern = .ok none := by
  have hloop := translateLoop_body hnul
  rw [if_pos hroom, if_neg hsep] at hloop
  rw [fnTranslate_eq, hloop]
  rfl

lemma fnTranslate_full (hnul : 0 ∉ str) (hroom : ¬Room (components str)) (isPattern : Bool) :
    fnTranslate str isPattern = .error .outOfBounds := by
  have hloop := translateLoop_body hnul
  rw [if_neg hroom] at hloop
  rw [fnTranslate_eq, hloop]
  rfl

lemma translateLoop_separated (hnul : 0 ∉ str) (hsep : Separated str) (hroom : Room (components str)) :
    ∃ st, translateLoop (body str) (translateStart str) = .ok (some st) ∧ st.Holds (components str) := by
  have hloop := translateLoop_body hnul
  rw [if_pos hroom, if_pos hsep] at hloop
  exact hloop

lemma fnTranslate_lists (hnul : 0 ∉ str) (hsep : Separated str) (hroom : Room (components str))
    (hlen : (components str).length < MAX_DIR_LEVEL) (isPattern : Bool) :
    ∃ nodes, fnTranslate str isPattern = .ok (some nodes) ∧
      nodes.Lists (components str) isPattern := by
  obtain ⟨st, hloop, hst⟩ := translateLoop_separated hnul hsep hroom
  rw [fnTranslate_eq, hloop]
  exact hst.markEnd hlen isPattern

/-- The mark behind the last component has no slot of its own left. -/
lemma fnTranslate_noMark (hnul : 0 ∉ str) (hsep : Separated str)
    (hlen : MAX_DIR_LEVEL ≤ (components str).length) (isPattern : Bool) :
    fnTranslate str isPattern = .error .outOfBounds := by
  by_cases hroom : Room (components str)
  · obtain ⟨st, hloop, hst⟩ := translateLoop_separated hnul hsep hroom
    rw [fnTranslate_eq, hloop]
    have hcnt : ¬st.nodeCnt < MAX_DIR_LEVEL := by
      rw [hst.nodeCnt]
      omega
    exact dif_neg hcnt
  · exact fnTranslate_full hnul hroom isPattern

/-- What is known of a string that was translated. -/
lemma lists_of_fnTranslate (hnul : 0 ∉ str) {isPattern : Bool} {nodes : Nodelist}
    (h : fnTranslate str isPattern = .ok (some nodes)) : nodes.Lists (components str) isPattern := by
  have hroom : Room (components str) := by
    by_contra hfull
    rw [fnTranslate_full hnul hfull] at h
    cases h
  have hsep : Separated str := by
    by_contra hempty
    rw [fnTranslate_rejected hnul hempty hroom] at h
    cases h
  have hlen : (components str).length < MAX_DIR_LEVEL := by
    by_contra hge
    rw [fnTranslate_noMark hnul hsep (by omega)] at h
    cases h
  obtain ⟨nodes', hok, hlists⟩ := fnTranslate_lists hnul hsep hroom hlen isPattern
  rw [h] at hok
  cases hok
  exact hlists

end

lemma ne_nil_of_mem_components {str c : CStr} (h : c ∈ components str) : c ≠ [] := by
  have := List.mem_takeWhile_imp h
  simpa using this

/-! ### Strings that are translated inside the node list -/

/-- Every index written is in range, and every offset stored is the position meant. -/
structure TranslatesInside (str : CStr) (isPattern : Bool) : Prop where
  inRange : ∃ nodes?, fnTranslate str isPattern = .ok nodes?
  running : ∀ s st, s <+: body str → translateLoop s (translateStart str) = .ok (some st) →
    st.nodeCnt = (fullParts s).length ∧
      ∀ k < st.nodeCnt, (st.offsets[k]?.getD 0).toNat = startOf (fullParts s) k
  done : ∀ nodes, fnTranslate str isPattern = .ok (some nodes) →
    nodes.nodeCnt = (components str).length ∧
      ∀ k ≤ nodes.nodeCnt, (nodes.offset k).toNat = startOf (components str) k

/-- The limits: one component less than `offsets` has room for and one character less than
`str` has, unless the string is given up at two adjacent separators. -/
def WithinLimits (str : CStr) : Prop :=
  if Separated str then
    (components str).flatten.length < MAX_PATH_LEN ∧ (components str).length < MAX_DIR_LEVEL
  else Room (components str)

instance decidableWithinLimits (str : CStr) : Decidable (WithinLimits str) :=
  inferInstanceAs (Decidable (if Separated str then
    (components str).flatten.length < MAX_PATH_LEN ∧ (components str).length < MAX_DIR_LEVEL
    else Room (components str)))

lemma WithinLimits.room {str : CStr} (h : WithinLimits str) : Room (components str) := by
  unfold WithinLimits at h
  split at h
  · exact ⟨h.1.le, h.2.le⟩
  · exact h

/-- Every loop that comes to its end stored the offsets meant. -/
lemma translateLoop_running (str : CStr) {s : CStr} (hnul : 0 ∉ s) {st : TranslateState}
    (h : translateLoop s (translateStart str) = .ok (some st)) : st.Holds (fullParts s) := by
  have hloop := translateLoop_start str hnul
  unfold Outcome at hloop
  rw [h, List.nil_append] at hloop
  split at hloop
  · split at hloop
    · cases hloop
    · obtain ⟨st', heq, hst⟩ := hloop
      cases heq
      exact hst
  · cases hloop

lemma startOf_le (comps : List CStr) (k : Nat) : startOf comps k ≤ comps.flatten.length := by
  unfold startOf
  conv_rhs => rw [← List.take_append_drop k comps]
  rw [List.flatten_append, List.length_append]
  omega

/-- Exactly the strings within the limits are translated inside the node list. -/
theorem translatesInside_iff {str : CStr} (hnul : 0 ∉ str) (isPattern : Bool) :
    TranslatesInside str isPattern ↔ WithinLimits str := by
  constructor
  · intro h
    obtain ⟨nodes?, hin⟩ := h.inRange
    have hroom : Room (components str) := by
      by_contra hfull
      rw [fnTranslate_full hnul hfull] at hin
      cases hin
    unfold WithinLimits
    split
    · rename_i hsep
      have hlen : (components str).length < MAX_DIR_LEVEL := by
        by_contra hge
        rw [fnTranslate_noMark hnul hsep (by omega)] at hin
        cases hin
      obtain ⟨nodes, hok, hlists⟩ := fnTranslate_lists hnul hsep hroom hlen isPattern
      have hend := (h.done nodes hok).2 nodes.nodeCnt le_rfl
      rw [hlists.nodeCnt, hlists.offset _ le_rfl, startOf_length] at hend
      have hbyte := (components str).flatten.length.toUInt8.toNat_lt
      unfold MAX_PATH_LEN
      exact ⟨by omega, hlen⟩
    · exact hroom
  · intro h
    have hrun : ∀ s st, s <+: body str → translateLoop s (translateStart str) = .ok (some st) →
        st.nodeCnt = (fullParts s).length ∧
          ∀ k < st.nodeCnt, (st.offsets[k]?.getD 0).toNat = startOf (fullParts s) k := by
      intro s st hs hst
      have hholds := translateLoop_running str (fun h0 => body_nul hnul (hs.subset h0)) hst
      exact ⟨hholds.nodeCnt, fun k hk => hholds.offset k (by rw [← hholds.nodeCnt]; exact hk)⟩
    by_cases hsep : Separated str
    · have hlim := h
      unfold WithinLimits at hlim
      rw [if_pos hsep] at hlim
      obtain ⟨nodes, hok, hlists⟩ := fnTranslate_lists hnul hsep h.room hlim.2 isPattern
      refine ⟨⟨_, hok⟩, hrun, ?_⟩
      intro nodes' hok'
      rw [hok] at hok'
      cases hok'
      refine ⟨hlists.nodeCnt, fun k hk => ?_⟩
      have hle := startOf_le (components str) k
      have hlt := hlim.1
      unfold MAX_PATH_LEN at hlt
      rw [hlists.offset k (by rw [← hlists.nodeCnt]; exact hk)]
      simp only [Nat.toUInt8_eq, UInt8.toNat_ofNat']
      omega
    · have hok := fnTranslate_rejected hnul hsep h.room isPattern
      refine ⟨⟨_, hok⟩, hrun, ?_⟩
      intro nodes hsome
      rw [hok] at hsome
      cases hsome

theorem translatesInside_twelve :
    TranslatesInside (cstr "/a/a/a/a/a/a/a/a/a/a/a/a") true ↔
      WithinLimits (cstr "/a/a/a/a/a/a/a/a/a/a/a/a") :=
  translatesInside_iff (by decide) true

/-- Thirteen directory levels are the documented maximum, and one more than there is room for. -/
theorem thirteen_levels_overflow :
    fnTranslate (cstr "/a/a/a/a/a/a/a/a/a/a/a/a/a") false = .error .outOfBounds ∧
      ¬TranslatesInside (cstr "/a/a/a/a/a/a/a/a/a/a/a/a/a") false := by
  have hfull : fnTranslate (cstr "/a/a/a/a/a/a/a/a/a/a/a/a/a") false = .error .outOfBounds := rfl
  refine ⟨hfull, fun h => ?_⟩
  obtain ⟨nodes?, hok⟩ := h.inRange
  rw [hfull] at hok
  cases hok

end Hfm

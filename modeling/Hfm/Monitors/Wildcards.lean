import Hfm.Support.Scan
import Hfm.Monitors.FnmatchCut
import Hfm.Monitors.Translate

/-!
# Components with one star

The forms `abc*`, `*abc` and `a*b` are compared by loops that run over the characters of the
pattern only. They are followed here together with the positions of the path's buffer that
they read.
-/

namespace Hfm

open Support

/-! ### Positions read -/

section

variable (d : Int) (p f : Vector UInt8 MAX_PATH_LEN)

/-- What `cmpUp` (`d = 1`) and `cmpDown` (`d = -1`) read of the path. -/
def cmpReads (i j : Int) : Nat → List Int
  | 0 => []
  | n + 1 => j :: if charAt p i ≠ charAt f j then [] else cmpReads (i + d) (j + d) n

/-- What `cmpUpToStar` and `cmpDownToStar` read of the path. -/
def cmpToStarReads (i j : Int) : Nat → List Int
  | 0 => []
  | n + 1 =>
    if charAt p i = starChar then []
    else j :: if charAt p i ≠ charAt f j then [] else cmpToStarReads (i + d) (j + d) n

/-- What `strncmp` reads of the path. -/
def strncmpReads (i j : Int) : Nat → List Int
  | 0 => []
  | n + 1 =>
    j :: if charAt p i ≠ charAt f j then [] else if charAt p i = 0 then []
      else strncmpReads (i + 1) (j + 1) n

end

/-- The positions of the path's buffer that `_match_cur_node` reads. -/
def inspected (pattern exp : Nodelist) : List Int :=
  match pattern.nodeType with
  | .character =>
    if pattern.nodeLen = exp.nodeLen then
      strncmpReads pattern.str exp.str pattern.nodeAddr exp.nodeAddr
        (pattern.nodeLen % 2 ^ 64).toNat
    else []
  | .mixedStar =>
    let start := pattern.nodeAddr
    let stop := pattern.nodeEnd
    if charAt pattern.str start = starChar then
      cmpReads (-1) pattern.str exp.str stop exp.nodeEnd (stop - start).toNat
    else if charAt pattern.str stop = starChar then
      cmpReads 1 pattern.str exp.str start exp.nodeAddr (stop - start).toNat
    else
      cmpToStarReads 1 pattern.str exp.str start exp.nodeAddr MAX_PATH_LEN ++
        if cmpUpToStar pattern.str exp.str start exp.nodeAddr MAX_PATH_LEN then
          cmpToStarReads (-1) pattern.str exp.str stop exp.nodeEnd MAX_PATH_LEN
        else []
  | _ => []

section Scans

variable {p f f' : Vector UInt8 MAX_PATH_LEN}

lemma cmpUp_eq_scan : ∀ {ps : CStr} {i j : Int}, HoldsFrom (charAt p) 1 i ps →
    cmpUp p f i j ps.length = scan (charAt f) 1 ps j := by
  intro ps
  induction ps with
  | nil => exact fun _ => rfl
  | cons a ps ih =>
    intro i j h
    rw [List.length_cons, cmpUp, scan, h.head, ih h.tail]

lemma cmpDown_eq_scan : ∀ {ps : CStr} {i j : Int}, HoldsFrom (charAt p) (-1) i ps →
    cmpDown p f i j ps.length = scan (charAt f) (-1) ps j := by
  intro ps
  induction ps with
  | nil => exact fun _ => rfl
  | cons a ps ih =>
    intro i j h
    rw [List.length_cons, cmpDown, scan, h.head, Int.sub_eq_add_neg, Int.sub_eq_add_neg, ih h.tail]

lemma cmpReads_eq_scan {d : Int} : ∀ {ps : CStr} {i j : Int}, HoldsFrom (charAt p) d i ps →
    cmpReads d p f i j ps.length = scanReads (charAt f) d ps j := by
  intro ps
  induction ps with
  | nil => exact fun _ => rfl
  | cons a ps ih =>
    intro i j h
    rw [List.length_cons, cmpReads, scanReads, h.head, ih h.tail]

lemma cmpUpToStar_eq_scan : ∀ {ps : CStr} {i j : Int} {n : Nat}, starChar ∉ ps → ps.length < n →
    HoldsFrom (charAt p) 1 i (ps ++ [starChar]) →
    cmpUpToStar p f i j n = scan (charAt f) 1 ps j := by
  intro ps
  induction ps with
  | nil =>
    intro i j n _ hn h
    obtain ⟨n, rfl⟩ : ∃ k, n = k + 1 := ⟨n - 1, by simp at hn; omega⟩
    rw [cmpUpToStar, if_pos h.head, scan]
  | cons a ps ih =>
    intro i j n hstar hn h
    rw [List.mem_cons, not_or] at hstar
    rw [List.length_cons] at hn
    obtain ⟨n, rfl⟩ : ∃ k, n = k + 1 := ⟨n - 1, by omega⟩
    rw [cmpUpToStar, scan, h.head, if_neg (Ne.symm hstar.1), ih hstar.2 (by omega) h.tail]

lemma cmpDownToStar_eq_scan : ∀ {ps : CStr} {i j : Int} {n : Nat}, starChar ∉ ps → ps.length < n →
    HoldsFrom (charAt p) (-1) i (ps ++ [starChar]) →
    cmpDownToStar p f i j n = scan (charAt f) (-1) ps j := by
  intro ps
  induction ps with
  | nil =>
    intro i j n _ hn h
    obtain ⟨n, rfl⟩ : ∃ k, n = k + 1 := ⟨n - 1, by simp at hn; omega⟩
    rw [cmpDownToStar, if_pos h.head, scan]
  | cons a ps ih =>
    intro i j n hstar hn h
    rw [List.mem_cons, not_or] at hstar
    rw [List.length_cons] at hn
    obtain ⟨n, rfl⟩ : ∃ k, n = k + 1 := ⟨n - 1, by omega⟩
    rw [cmpDownToStar, scan, h.head, if_neg (Ne.symm hstar.1), Int.sub_eq_add_neg,
      Int.sub_eq_add_neg, ih hstar.2 (by omega) h.tail]

lemma cmpToStarReads_eq_scan {d : Int} : ∀ {ps : CStr} {i j : Int} {n : Nat}, starChar ∉ ps →
    ps.length < n → HoldsFrom (charAt p) d i (ps ++ [starChar]) →
    cmpToStarReads d p f i j n = scanReads (charAt f) d ps j := by
  intro ps
  induction ps with
  | nil =>
    intro i j n _ hn h
    obtain ⟨n, rfl⟩ : ∃ k, n = k + 1 := ⟨n - 1, by simp at hn; omega⟩
    rw [cmpToStarReads, if_pos h.head, scanReads]
  | cons a ps ih =>
    intro i j n hstar hn h
    rw [List.mem_cons, not_or] at hstar
    rw [List.length_cons] at hn
    obtain ⟨n, rfl⟩ : ∃ k, n = k + 1 := ⟨n - 1, by omega⟩
    rw [cmpToStarReads, scanReads, h.head, if_neg (Ne.symm hstar.1), ih hstar.2 (by omega) h.tail]

end Scans

/-! ### The decision depends on what is read -/

section Congr

variable {p f f' : Vector UInt8 MAX_PATH_LEN}

lemma cmpUp_congr (n : Nat) : ∀ {i j : Int},
    (∀ k ∈ cmpReads 1 p f i j n, charAt f' k = charAt f k) → cmpUp p f' i j n = cmpUp p f i j n := by
  induction n with
  | zero => exact fun _ => rfl
  | succ n ih =>
    intro i j h
    rw [cmpReads, List.forall_mem_cons] at h
    rw [cmpUp, cmpUp, h.1]
    split
    · rfl
    · rename_i heq
      rw [if_neg heq] at h
      exact ih h.2

lemma cmpDown_congr (n : Nat) : ∀ {i j : Int},
    (∀ k ∈ cmpReads (-1) p f i j n, charAt f' k = charAt f k) →
    cmpDown p f' i j n = cmpDown p f i j n := by
  induction n with
  | zero => exact fun _ => rfl
  | succ n ih =>
    intro i j h
    rw [cmpReads, List.forall_mem_cons] at h
    rw [cmpDown, cmpDown, h.1]
    split
    · rfl
    · rename_i heq
      rw [if_neg heq] at h
      exact ih h.2

lemma cmpUpToStar_congr (n : Nat) : ∀ {i j : Int},
    (∀ k ∈ cmpToStarReads 1 p f i j n, charAt f' k = charAt f k) →
    cmpUpToStar p f' i j n = cmpUpToStar p f i j n := by
  induction n with
  | zero => exact fun _ => rfl
  | succ n ih =>
    intro i j h
    rw [cmpToStarReads] at h
    rw [cmpUpToStar, cmpUpToStar]
    split
    · rfl
    · rename_i hstar
      rw [if_neg hstar, List.forall_mem_cons] at h
      rw [h.1]
      split
      · rfl
      · rename_i heq
        rw [if_neg heq] at h
        exact ih h.2

lemma cmpDownToStar_congr (n : Nat) : ∀ {i j : Int},
    (∀ k ∈ cmpToStarReads (-1) p f i j n, charAt f' k = charAt f k) →
    cmpDownToStar p f' i j n = cmpDownToStar p f i j n := by
  induction n with
  | zero => exact fun _ => rfl
  | succ n ih =>
    intro i j h
    rw [cmpToStarReads] at h
    rw [cmpDownToStar, cmpDownToStar]
    split
    · rfl
    · rename_i hstar
      rw [if_neg hstar, List.forall_mem_cons] at h
      rw [h.1]
      split
      · rfl
      · rename_i heq
        rw [if_neg heq] at h
        exact ih h.2

lemma strncmpEq_congr (n : Nat) : ∀ {i j : Int},
    (∀ k ∈ strncmpReads p f i j n, charAt f' k = charAt f k) →
    strncmpEq p f' i j n = strncmpEq p f i j n := by
  induction n with
  | zero => exact fun _ => rfl
  | succ n ih =>
    intro i j h
    rw [strncmpReads, List.forall_mem_cons] at h
    rw [strncmpEq, strncmpEq, h.1]
    split
    · rfl
    · rename_i heq
      rw [if_neg heq] at h
      split
      · rfl
      · rename_i hzero
        rw [if_neg hzero] at h
        exact ih h.2

/-- Two buffers that agree where the matcher reads are decided alike. -/
lemma matchCurNode_congr {pattern exp : Nodelist} {str : Vector UInt8 MAX_PATH_LEN}
    (h : ∀ k ∈ inspected pattern exp, charAt str k = charAt exp.str k) :
    matchCurNode pattern { exp with str := str } = matchCurNode pattern exp := by
  have haddr : ({ exp with str := str } : Nodelist).nodeAddr = exp.nodeAddr := rfl
  have hend : ({ exp with str := str } : Nodelist).nodeEnd = exp.nodeEnd := rfl
  have hlen : ({ exp with str := str } : Nodelist).nodeLen = exp.nodeLen := rfl
  unfold matchCurNode
  unfold inspected at h
  simp only [haddr, hend, hlen]
  split
  · rename_i htype
    rw [htype] at h
    dsimp only at h
    by_cases heq : pattern.nodeLen = exp.nodeLen
    · rw [if_pos heq] at h
      rw [strncmpEq_congr _ h]
    · simp [heq]
  · rfl
  · rename_i htype
    rw [htype] at h
    dsimp only at h
    split at h
    · rename_i hfront
      rw [if_pos hfront, if_pos hfront, cmpDown_congr _ h]
    · rename_i hfront
      rw [if_neg hfront, if_neg hfront]
      split at h
      · rename_i hback
        rw [if_pos hback, if_pos hback, cmpUp_congr _ h]
      · rename_i hback
        rw [if_neg hback, if_neg hback]
        rw [List.forall_mem_append] at h
        rw [cmpUpToStar_congr _ h.1]
        cases hup : cmpUpToStar pattern.str exp.str pattern.nodeAddr exp.nodeAddr MAX_PATH_LEN with
        | false => rfl
        | true =>
          rw [hup, if_pos rfl] at h
          rw [cmpDownToStar_congr _ h.2]
  · rfl

end Congr

/-! ### Components in the buffer -/

/-- The component whose end is behind the last position that an offset can name. -/
def EndsAtLimit (comps : List CStr) (k : Nat) : Prop := startOf comps (k + 1) = MAX_PATH_LEN

instance decidableEndsAtLimit (comps : List CStr) (k : Nat) : Decidable (EndsAtLimit comps k) :=
  inferInstanceAs (Decidable (_ = _))

lemma startOf_succ (comps : List CStr) {k : Nat} (hk : k < comps.length) :
    startOf comps (k + 1) = startOf comps k + comps[k].length := by
  unfold startOf
  rw [List.take_succ_eq_append_getElem hk, List.flatten_append, List.length_append]
  simp

namespace Nodelist.Lists

variable {nodes : Nodelist} {comps : List CStr} {isPattern : Bool}

/-- The characters of a component, in the buffer. -/
lemma holdsFrom (h : nodes.Lists comps isPattern) {k : Nat} (hk : k < comps.length) :
    HoldsFrom (charAt nodes.str) 1 (startOf comps k) comps[k] := by
  intro t ht
  have hpos : (startOf comps k : Int) + 1 * t = ((startOf comps k + t : Nat) : Int) := by
    push_cast
    omega
  have hflat : comps.flatten = (comps.take k).flatten ++ (comps[k] ++ (comps.drop (k + 1)).flatten) := by
    conv_lhs => rw [← List.take_append_drop k comps, List.drop_eq_getElem_cons hk]
    rw [List.flatten_append, List.flatten_cons]
  rw [hpos, h.char, hflat, List.getElem?_append_right (by unfold startOf; omega)]
  have hsub : startOf comps k + t - (comps.take k).flatten.length = t := by
    unfold startOf
    omega
  rw [hsub, List.getElem?_append_left ht, List.getElem?_eq_getElem ht]
  rfl

lemma toNat_cursor (h : nodes.Lists comps isPattern) {k : Nat} (hk : k ≤ comps.length) :
    (nodes.cursorAt k).curNode.toNat = k := by
  have hcnt := nodes.cnt_lt
  rw [h.nodeCnt] at hcnt
  unfold MAX_DIR_LEVEL at hcnt
  unfold cursorAt
  simp
  omega

lemma startOf_le_max (h : nodes.Lists comps isPattern) (k : Nat) :
    startOf comps k ≤ MAX_PATH_LEN := (startOf_le comps k).trans h.room.1

/-- A component does not start behind the 8 bits. -/
lemma nodeAddr (h : nodes.Lists comps isPattern) {k : Nat} (hk : k < comps.length)
    (hne : comps[k] ≠ []) : (nodes.cursorAt k).nodeAddr = startOf comps k := by
  have hpos := List.length_pos_iff.mpr hne
  have hmax := h.startOf_le_max (k + 1)
  rw [startOf_succ comps hk] at hmax
  unfold MAX_PATH_LEN at hmax
  have hoff : ((nodes.offset k).toNat : Int) = startOf comps k := by
    rw [h.offset k hk.le]
    simp
    omega
  unfold Nodelist.nodeAddr
  rw [h.toNat_cursor hk.le]
  exact hoff

lemma toNat_next (h : nodes.Lists comps isPattern) {k : Nat} (hk : k < comps.length) :
    ((nodes.offset (k + 1)).toNat : Int) =
      if EndsAtLimit comps k then 0 else (startOf comps (k + 1) : Int) := by
  have hmax := h.startOf_le_max (k + 1)
  rw [h.offset (k + 1) hk]
  split
  · rename_i hlimit
    rw [show startOf comps (k + 1) = MAX_PATH_LEN from hlimit]
    rfl
  · rename_i hlimit
    unfold EndsAtLimit at hlimit
    unfold MAX_PATH_LEN at *
    simp
    omega

lemma nodeEnd (h : nodes.Lists comps isPattern) {k : Nat} (hk : k < comps.length) :
    (nodes.cursorAt k).nodeEnd =
      if EndsAtLimit comps k then -1
      else (startOf comps k : Int) + comps[k].length - 1 := by
  unfold Nodelist.nodeEnd
  rw [h.toNat_cursor hk.le]
  change ((nodes.offset (k + 1)).toNat : Int) - 1 = _
  rw [h.toNat_next hk]
  split
  · rfl
  · rw [startOf_succ comps hk]
    push_cast
    omega

lemma nodeLen (h : nodes.Lists comps isPattern) {k : Nat} (hk : k < comps.length)
    (hne : comps[k] ≠ []) : (nodes.cursorAt k).nodeLen =
      if EndsAtLimit comps k then -(startOf comps k : Int)
      else (comps[k].length : Int) := by
  have hend := h.nodeEnd hk
  have haddr := h.nodeAddr hk hne
  unfold Nodelist.nodeEnd at hend
  unfold Nodelist.nodeAddr at haddr
  unfold Nodelist.nodeLen
  rw [haddr]
  by_cases hlimit : EndsAtLimit comps k
  · rw [if_pos hlimit] at hend ⊢
    omega
  · rw [if_neg hlimit] at hend ⊢
    omega

end Nodelist.Lists

/-! ### What a component is taken for -/

/-- What a component of a pattern means. -/
def kindOf (c : CStr) : NodeType :=
  if c = [starChar] then .star
  else if c = [starChar, starChar] then .doubleStar
  else if starChar ∈ c then .mixedStar
  else .character

/-- `_find_node_type` sees the component, if it lies in front of its end. -/
lemma findNodeType_eq {str : Vector UInt8 MAX_PATH_LEN} {start stop : UInt8} {c : CStr}
    (hc : HoldsFrom (charAt str) 1 start.toNat c) (hstop : stop.toNat = start.toNat + c.length) :
    findNodeType str start stop = kindOf c := by
  have hlen : (stop.toNat : Int) - start.toNat = c.length := by omega
  have hany : (List.range' start.toNat (stop.toNat - start.toNat)).any
      (fun i => charAt str i = starChar) = decide (starChar ∈ c) := by
    rw [hstop, Nat.add_sub_cancel_left, Bool.eq_iff_iff, List.any_eq_true, decide_eq_true_iff]
    constructor
    · rintro ⟨k, hk, hstar⟩
      rw [List.mem_range'_1] at hk
      have hcell := hc (k - start.toNat) (by omega)
      have hpos : (start.toNat : Int) + 1 * ((k - start.toNat : Nat) : Int) = k := by omega
      rw [hpos, of_decide_eq_true hstar] at hcell
      rw [hcell]
      exact List.getElem_mem _
    · intro hmem
      obtain ⟨t, ht, hstar⟩ := List.mem_iff_getElem.mp hmem
      refine ⟨start.toNat + t, List.mem_range'_1.mpr ⟨by omega, by omega⟩, ?_⟩
      have hcell := hc t ht
      rw [hstar] at hcell
      have hpos : ((start.toNat + t : Nat) : Int) = start.toNat + 1 * t := by omega
      rw [decide_eq_true_iff, hpos]
      exact hcell
  unfold findNodeType kindOf
  simp only [hlen, hany]
  match c, hc with
  | [], _ => simp [starChar]
  | [a], hc => simp [hc.head]
  | [a, b], hc =>
    have hfirst := hc.head
    have hsecond := hc.tail.head
    simp [hfirst, hsecond]
  | a :: b :: c :: rest, _ =>
    rw [List.length_cons, List.length_cons, List.length_cons, if_neg (by omega), if_neg (by omega)]
    simp

/-- A component whose end has the offset zero is taken for a name. -/
lemma findNodeType_zero (str : Vector UInt8 MAX_PATH_LEN) (start : UInt8) :
    findNodeType str start 0 = .character := by
  unfold findNodeType
  dsimp only
  rw [UInt8.toNat_zero, if_neg (by omega), if_neg (by omega)]
  simp

lemma Nodelist.Lists.nodeType {nodes : Nodelist} {comps : List CStr} (h : nodes.Lists comps true)
    {k : Nat} (hk : k < comps.length) (hne : comps[k] ≠ []) :
    (nodes.cursorAt k).nodeType =
      if EndsAtLimit comps k then .character else kindOf comps[k] := by
  have haddr := h.nodeAddr hk hne
  have hnext := h.toNat_next hk
  unfold Nodelist.nodeAddr at haddr
  rw [h.toNat_cursor hk.le] at haddr
  change ((nodes.offset k).toNat : Int) = _ at haddr
  unfold Nodelist.nodeType
  rw [h.toNat_cursor hk.le]
  change nodes.nodetypes[k]?.getD .invalid = _
  rw [h.nodetype k hk rfl]
  split
  · rename_i hlimit
    have hzero : nodes.offset (k + 1) = 0 := by
      rw [if_pos hlimit] at hnext
      apply UInt8.toNat_inj.mp
      simpa using hnext
    rw [hzero]
    exact findNodeType_zero _ _
  · rename_i hlimit
    rw [if_neg hlimit] at hnext
    have hstart : (nodes.offset k).toNat = startOf comps k := by omega
    apply findNodeType_eq
    · rw [hstart]
      exact h.holdsFrom hk
    · have := startOf_succ comps hk
      omega

/-! ### One star -/

section OneStar

variable {pre suf : CStr}

lemma kindOf_oneStar (hpre : starChar ∉ pre) (hsuf : starChar ∉ suf) (hform : pre ≠ [] ∨ suf ≠ []) :
    kindOf (pre ++ starChar :: suf) = .mixedStar := by
  have hmem : starChar ∈ pre ++ starChar :: suf := by simp
  unfold kindOf
  rw [if_neg, if_neg, if_pos hmem]
  · intro h
    cases pre with
    | nil =>
      simp at h
      simp [h] at hsuf
    | cons a pre =>
      simp at h
      simp [h.1] at hpre
  · intro h
    have hlen := congrArg List.length h
    simp only [List.length_append, List.length_cons, List.length_nil] at hlen
    have hpre' : pre = [] := List.eq_nil_of_length_eq_zero (by omega)
    have hsuf' : suf = [] := List.eq_nil_of_length_eq_zero (by omega)
    exact hform.elim (fun h => h hpre') (fun h => h hsuf')

variable {pat exp : Nodelist} {comps : List CStr} {i : Nat}

/-- The two parts of the component, read upwards and downwards. -/
lemma Nodelist.Lists.oneStar (h : pat.Lists comps true) (hi : i < comps.length)
    (hc : comps[i] = pre ++ starChar :: suf) :
    HoldsFrom (charAt pat.str) 1 (startOf comps i) (pre ++ [starChar]) ∧
      HoldsFrom (charAt pat.str) (-1) ((startOf comps i : Int) + comps[i].length - 1)
        (suf.reverse ++ [starChar]) := by
  have hall := h.holdsFrom hi
  have hrev := hall.reverse
  rw [hc] at hall hrev
  have hsplit : pre ++ starChar :: suf = (pre ++ [starChar]) ++ suf := by simp
  have hsplit' : (pre ++ starChar :: suf).reverse = (suf.reverse ++ [starChar]) ++ pre.reverse := by
    simp
  rw [hsplit] at hall
  rw [hsplit', ← hc] at hrev
  exact ⟨hall.left, hrev.left⟩

/-- The loops for the three forms compare the front upwards and then the back downwards. -/
lemma mixedStar_scan (h : pat.Lists comps true) (hi : i < comps.length)
    (hc : comps[i] = pre ++ starChar :: suf) (hpre : starChar ∉ pre) (hsuf : starChar ∉ suf)
    (hform : pre ≠ [] ∨ suf ≠ []) (hlimit : ¬EndsAtLimit comps i) (exp : Nodelist) :
    matchCurNode (pat.cursorAt i) exp =
        (scan (charAt exp.str) 1 pre exp.nodeAddr &&
          scan (charAt exp.str) (-1) suf.reverse exp.nodeEnd) ∧
      inspected (pat.cursorAt i) exp =
        scanReads (charAt exp.str) 1 pre exp.nodeAddr ++
          if scan (charAt exp.str) 1 pre exp.nodeAddr then
            scanReads (charAt exp.str) (-1) suf.reverse exp.nodeEnd
          else [] := by
  have hne : comps[i] ≠ [] := by rw [hc]; simp
  have htype : (pat.cursorAt i).nodeType = .mixedStar := by
    rw [h.nodeType hi hne, if_neg hlimit, hc]
    exact kindOf_oneStar hpre hsuf hform
  have hstart := h.nodeAddr hi hne
  have hstop := h.nodeEnd hi
  rw [if_neg hlimit] at hstop
  obtain ⟨hup, hdown⟩ := h.oneStar hi hc
  rw [← hstart] at hup
  rw [← hstop] at hdown
  have hlen : (pat.cursorAt i).nodeEnd - (pat.cursorAt i).nodeAddr = (pre.length + suf.length : Nat) := by
    rw [hstop, hstart, hc, List.length_append, List.length_cons]
    omega
  have hmax := h.startOf_le_max (i + 1)
  rw [startOf_succ comps hi, hc, List.length_append, List.length_cons] at hmax
  have hstr : (pat.cursorAt i).str = pat.str := rfl
  unfold matchCurNode inspected
  rw [htype]
  dsimp only
  rw [hlen, Int.toNat_natCast, hstr]
  cases pre with
  | nil =>
    have hdown' := hdown.left
    rw [if_pos hup.head, if_pos hup.head, List.length_nil, Nat.zero_add, ← List.length_reverse,
      cmpDown_eq_scan hdown', cmpReads_eq_scan hdown']
    simp [scan, scanReads]
  | cons a pre =>
    rw [List.mem_cons, not_or] at hpre
    have hfront : ¬charAt pat.str (pat.cursorAt i).nodeAddr = starChar := by
      rw [hup.head]
      exact Ne.symm hpre.1
    rw [if_neg hfront, if_neg hfront]
    cases hrev : suf.reverse with
    | nil =>
      have hnil : suf = [] := List.reverse_eq_nil_iff.mp hrev
      rw [hrev] at hdown
      have hup' := hup.left
      rw [if_pos hdown.head, if_pos hdown.head, hnil, List.length_nil, Nat.add_zero,
        cmpUp_eq_scan hup', cmpReads_eq_scan hup']
      simp [scan, scanReads]
    | cons b rest =>
      have hmem : starChar ∉ suf.reverse := by simpa using hsuf
      have hback : ¬charAt pat.str (pat.cursorAt i).nodeEnd = starChar := by
        rw [hrev] at hdown
        rw [hdown.head]
        rw [hrev, List.mem_cons, not_or] at hmem
        exact Ne.symm hmem.1
      have hshort : (a :: pre).length < MAX_PATH_LEN := by omega
      have hshort' : suf.reverse.length < MAX_PATH_LEN := by
        rw [List.length_reverse]
        omega
      rw [if_neg hback, if_neg hback, ← hrev,
        cmpUpToStar_eq_scan (by simpa using hpre) hshort hup,
        cmpDownToStar_eq_scan hmem hshort' hdown,
        cmpToStarReads_eq_scan (by simpa using hpre) hshort hup,
        cmpToStarReads_eq_scan hmem hshort' hdown]
      exact ⟨rfl, rfl⟩

end OneStar

/-! ### Exactly the components that fit -/

/-- The component can be written as the front, something, and the back. -/
def FitsAround (pre suf xc : CStr) : Prop := ∃ x, xc = pre ++ x ++ suf

/-- `_match_cur_node` accepts the components that fit and looks at no other characters than
those of the component `xc`, which begins at `start`. -/
structure WildcardExact (pattern exp : Nodelist) (pre suf xc : CStr) (start : Nat) : Prop where
  decides : matchCurNode pattern exp = true ↔ FitsAround pre suf xc
  inside : ∀ k ∈ inspected pattern exp, (start : Int) ≤ k ∧ k < start + xc.length
  ownOnly : ∀ str : Vector UInt8 MAX_PATH_LEN,
    (∀ k : Int, start ≤ k → k < start + xc.length → charAt str k = charAt exp.str k) →
    matchCurNode pattern { exp with str := str } = matchCurNode pattern exp

lemma wildcardExact_of {pattern exp : Nodelist} {pre suf xc : CStr} {start : Nat}
    (hdecides : matchCurNode pattern exp = true ↔ FitsAround pre suf xc)
    (hinside : ∀ k ∈ inspected pattern exp, (start : Int) ≤ k ∧ k < start + xc.length) :
    WildcardExact pattern exp pre suf xc start := by
  refine ⟨hdecides, hinside, fun str hstr => ?_⟩
  apply matchCurNode_congr
  intro k hk
  exact hstr k (hinside k hk).1 (hinside k hk).2

lemma wildcardExact_of_match {pattern exp : Nodelist} {pre suf xc : CStr} {start : Nat}
    (hmatch : matchCurNode pattern exp = true)
    (hinside : ∀ k ∈ inspected pattern exp, (start : Int) ≤ k ∧ k < start + xc.length) :
    WildcardExact pattern exp pre suf xc start ↔ FitsAround pre suf xc := by
  constructor
  · intro hexact
    exact hexact.decides.mp hmatch
  · intro hfits
    exact wildcardExact_of ⟨fun _ => hfits, fun _ => hmatch⟩ hinside

lemma wildcardExact_of_noMatch {pattern exp : Nodelist} {pre suf xc : CStr} {start : Nat}
    (hmatch : ¬matchCurNode pattern exp = true)
    (hinside : ∀ k ∈ inspected pattern exp, (start : Int) ≤ k ∧ k < start + xc.length) :
    WildcardExact pattern exp pre suf xc start ↔ ¬FitsAround pre suf xc := by
  constructor
  · intro hexact hfits
    exact hmatch (hexact.decides.mpr hfits)
  · intro hnot
    exact wildcardExact_of ⟨fun htrue => absurd htrue hmatch, fun hfits => absurd hfits hnot⟩ hinside

/-- No loop leaves the component: it is no proper part of what it is compared with, and the two
parts of the pattern do not meet on it. -/
def StaysInside (pre suf xc : CStr) (atLimit : Prop) : Prop :=
  ¬ProperPrefix xc pre ∧ (pre <+: xc →
    (suf ≠ [] → ¬atLimit) ∧ ¬ProperSuffix xc suf ∧
      (suf <:+ xc → pre.length + suf.length ≤ xc.length))

/-- The conditions for the component `i` of a pattern and the component `j` of a path. A pattern
component that ends at the limit is taken for a name, which is compared if both begin at the
same place, and accepted unseen if they are all of their strings. -/
def WildcardSafe (comps path : List CStr) (i j : Nat) (pre suf xc : CStr) : Prop :=
  if EndsAtLimit comps i then
    if startOf comps i = 0 ∧ startOf path j = 0 ∧ EndsAtLimit path j then FitsAround pre suf xc
    else ¬FitsAround pre suf xc
  else StaysInside pre suf xc (EndsAtLimit path j)

section Exact

variable {pat exp : Nodelist} {comps path : List CStr} {i j : Nat} {pre suf : CStr} {flag : Bool}

/-- The front of the pattern, compared with a component of a path. -/
lemma front_scan (he : exp.Lists path flag) (hj : j < path.length)
    (hne : path[j] ≠ []) : HoldsFrom (charAt exp.str) 1 (exp.cursorAt j).nodeAddr path[j] := by
  rw [he.nodeAddr hj hne]
  exact he.holdsFrom hj

lemma back_scan (he : exp.Lists path flag) (hj : j < path.length) (hlimit : ¬EndsAtLimit path j) :
    HoldsFrom (charAt exp.str) (-1) (exp.cursorAt j).nodeEnd path[j].reverse := by
  rw [he.nodeEnd hj, if_neg hlimit]
  exact (he.holdsFrom hj).reverse

lemma suffix_iff_reverse {suf xc : CStr} : suf.reverse <+: xc.reverse ↔ suf <:+ xc :=
  List.reverse_prefix

lemma exact_of_staysInside (h : pat.Lists comps true) (he : exp.Lists path flag)
    (hi : i < comps.length) (hj : j < path.length) (hne : path[j] ≠ [])
    (hc : comps[i] = pre ++ starChar :: suf) (hpre : starChar ∉ pre) (hsuf : starChar ∉ suf)
    (hform : pre ≠ [] ∨ suf ≠ []) (hlimit : ¬EndsAtLimit comps i)
    (hstay : StaysInside pre suf path[j] (EndsAtLimit path j)) :
    WildcardExact (pat.cursorAt i) (exp.cursorAt j) pre suf path[j] (startOf path j) := by
  obtain ⟨hmatch, hreads⟩ := mixedStar_scan h hi hc hpre hsuf hform hlimit (exp.cursorAt j)
  obtain ⟨hproper, hback⟩ := hstay
  have hfront := front_scan he hj hne
  have haddr := he.nodeAddr hj hne
  have hupIff := scan_iff hfront hproper
  have hupIn := scanReads_inside hfront hproper
  have hstr : (exp.cursorAt j).str = exp.str := rfl
  rw [hstr] at hmatch hreads
  by_cases hp : pre <+: path[j]
  · obtain ⟨hat, hsproper, hlen⟩ := hback hp
    have hdown : (scan (charAt exp.str) (-1) suf.reverse (exp.cursorAt j).nodeEnd = true ↔
        suf <:+ path[j]) ∧ ∀ k ∈ scanReads (charAt exp.str) (-1) suf.reverse (exp.cursorAt j).nodeEnd,
        (startOf path j : Int) ≤ k ∧ k < startOf path j + path[j].length := by
      by_cases hs : suf = []
      · simp [hs, scan, scanReads]
      · have hb := back_scan he hj (hat hs)
        rw [← properPrefix_reverse] at hsproper
        refine ⟨(scan_iff hb hsproper).trans suffix_iff_reverse, fun k hk => ?_⟩
        obtain ⟨t, ht, rfl⟩ := scanReads_inside hb hsproper k hk
        rw [List.length_reverse] at ht
        rw [he.nodeEnd hj, if_neg (hat hs)]
        omega
    apply wildcardExact_of
    · rw [hmatch, Bool.and_eq_true, hupIff, hdown.1]
      unfold FitsAround
      rw [exists_gap_iff]
      exact ⟨fun hh => ⟨hp, hh.2, hlen hh.2⟩, fun hh => ⟨hp, hh.2.1⟩⟩
    · intro k hk
      rw [hreads, if_pos (hupIff.mpr hp), List.mem_append] at hk
      rcases hk with hk | hk
      · obtain ⟨t, ht, rfl⟩ := hupIn k hk
        rw [haddr]
        omega
      · exact hdown.2 k hk
  · apply wildcardExact_of
    · rw [hmatch, Bool.and_eq_true, hupIff]
      unfold FitsAround
      rw [exists_gap_iff]
      exact ⟨fun hh => absurd hh.1 hp, fun hh => absurd hh.1 hp⟩
    · intro k hk
      rw [hreads, if_neg (fun hh => hp (hupIff.mp hh)), List.append_nil] at hk
      obtain ⟨t, ht, rfl⟩ := hupIn k hk
      rw [haddr]
      omega

lemma staysInside_of_exact (h : pat.Lists comps true) (he : exp.Lists path flag)
    (hi : i < comps.length) (hj : j < path.length) (hne : path[j] ≠ [])
    (hc : comps[i] = pre ++ starChar :: suf) (hpre : starChar ∉ pre) (hsuf : starChar ∉ suf)
    (hform : pre ≠ [] ∨ suf ≠ []) (hlimit : ¬EndsAtLimit comps i)
    (hexact : WildcardExact (pat.cursorAt i) (exp.cursorAt j) pre suf path[j] (startOf path j)) :
    StaysInside pre suf path[j] (EndsAtLimit path j) := by
  obtain ⟨hmatch, hreads⟩ := mixedStar_scan h hi hc hpre hsuf hform hlimit (exp.cursorAt j)
  have hfront := front_scan he hj hne
  have haddr := he.nodeAddr hj hne
  have hstr : (exp.cursorAt j).str = exp.str := rfl
  rw [hstr] at hmatch hreads
  have hproper : ¬ProperPrefix path[j] pre := by
    intro hproper
    have hout := scanReads_outside hfront hproper
    have hin := hexact.inside _ (hreads ▸ List.mem_append_left _ hout)
    rw [haddr] at hin
    omega
  have hupIff := scan_iff hfront hproper
  refine ⟨hproper, fun hp => ?_⟩
  rw [if_pos (hupIff.mpr hp)] at hreads
  have hdownIn : ∀ k ∈ scanReads (charAt exp.str) (-1) suf.reverse (exp.cursorAt j).nodeEnd,
      (startOf path j : Int) ≤ k ∧ k < startOf path j + path[j].length := fun k hk =>
    hexact.inside k (hreads ▸ List.mem_append_right _ hk)
  have hat : suf ≠ [] → ¬EndsAtLimit path j := by
    intro hs hat
    obtain ⟨b, rest, hrev⟩ := List.exists_cons_of_ne_nil (List.reverse_ne_nil_iff.mpr hs)
    have hend := he.nodeEnd hj
    rw [if_pos hat] at hend
    have hfirst := hdownIn (-1) (by rw [hrev, scanReads, hend]; simp)
    omega
  by_cases hs : suf = []
  · subst hs
    refine ⟨hat, ?_, fun _ => ?_⟩
    · rintro ⟨hsuffix, hnot⟩
      exact hnot (List.suffix_nil.mp hsuffix)
    · have := hp.length_le
      simpa using this
  · have hb := back_scan he hj (hat hs)
    have hsproper : ¬ProperSuffix path[j] suf := by
      intro hsproper
      have hout := scanReads_outside hb (properPrefix_reverse.mpr hsproper)
      have hin := hdownIn _ hout
      rw [he.nodeEnd hj, if_neg (hat hs), List.length_reverse] at hin
      omega
    refine ⟨hat, hsproper, fun hsuffix => ?_⟩
    rw [← properPrefix_reverse] at hsproper
    have hfits := hexact.decides.mp (by
      rw [hmatch, Bool.and_eq_true, hupIff, scan_iff hb hsproper, suffix_iff_reverse]
      exact ⟨hp, hsuffix⟩)
    exact (exists_gap_iff.mp hfits).2.2

end Exact

/-! ### A pattern component that ends at the limit -/

lemma nul_notMem_splitOnP : ∀ {s c : CStr}, 0 ∉ s → c ∈ s.splitOnP isSlash → 0 ∉ c := by
  intro s
  induction s with
  | nil =>
    intro c _ hc
    rw [List.splitOnP_nil, List.mem_singleton] at hc
    simp [hc]
  | cons ch rest ih =>
    intro c hnul hc
    rw [List.mem_cons, not_or] at hnul
    rw [List.splitOnP_cons_eq_if_modifyHead] at hc
    split at hc
    · rcases List.mem_cons.mp hc with rfl | hc
      · simp
      · exact ih hnul.2 hc
    · obtain ⟨p, ps, hsplit⟩ := List.exists_cons_of_ne_nil (List.splitOnP_ne_nil isSlash rest)
      rw [hsplit] at ih
      rw [hsplit, List.modifyHead_cons] at hc
      rcases List.mem_cons.mp hc with rfl | hc
      · rw [List.mem_cons, not_or]
        exact ⟨hnul.1, ih hnul.2 (by simp)⟩
      · exact ih hnul.2 (List.mem_cons_of_mem _ hc)

lemma nul_notMem_components {str c : CStr} (hnul : 0 ∉ str) (hc : c ∈ components str) : 0 ∉ c :=
  nul_notMem_splitOnP (body_nul hnul) ((List.takeWhile_prefix _).subset hc)

section AtLimit

variable {p f : Vector UInt8 MAX_PATH_LEN}

/-- `strncmp` on the whole of a name. -/
lemma strncmpEq_eq_scan : ∀ {ps : CStr} {i j : Int}, 0 ∉ ps → HoldsFrom (charAt p) 1 i ps →
    strncmpEq p f i j ps.length = scan (charAt f) 1 ps j := by
  intro ps
  induction ps with
  | nil => exact fun _ _ => rfl
  | cons a ps ih =>
    intro i j hnul h
    rw [List.mem_cons, not_or] at hnul
    rw [List.length_cons, strncmpEq, scan, h.head, if_neg (Ne.symm hnul.1), ih hnul.2 h.tail]

/-- `strncmp` with a length behind the end mark compares up to the mark. -/
lemma strncmpEq_long : ∀ {ps : CStr} {i j : Int} {n : Nat}, 0 ∉ ps → ps.length < n →
    HoldsFrom (charAt p) 1 i (ps ++ [0]) →
    strncmpEq p f i j n = scan (charAt f) 1 (ps ++ [0]) j ∧
      strncmpReads p f i j n = scanReads (charAt f) 1 (ps ++ [0]) j := by
  intro ps
  induction ps with
  | nil =>
    intro i j n _ hn h
    obtain ⟨n, rfl⟩ : ∃ k, n = k + 1 := ⟨n - 1, by simp at hn; omega⟩
    rw [strncmpEq, strncmpReads, h.head]
    simp [scan, scanReads]
  | cons a ps ih =>
    intro i j n hnul hn h
    rw [List.mem_cons, not_or] at hnul
    rw [List.length_cons] at hn
    obtain ⟨n, rfl⟩ : ∃ k, n = k + 1 := ⟨n - 1, by omega⟩
    obtain ⟨hcmp, hreads⟩ := ih (j := j + 1) hnul.2 (by omega : ps.length < n) h.tail
    rw [strncmpEq, strncmpReads, List.cons_append, scan, scanReads, h.head, if_neg (Ne.symm hnul.1),
      if_neg (Ne.symm hnul.1), hcmp, hreads]
    exact ⟨rfl, rfl⟩

end AtLimit

section Limit

variable {pat exp : Nodelist} {comps path : List CStr} {i j : Nat} {pre suf : CStr} {flag : Bool}

lemma Nodelist.Lists.holdsFrom_mark (h : pat.Lists comps flag) (hi : i < comps.length)
    (hlimit : EndsAtLimit comps i) :
    HoldsFrom (charAt pat.str) 1 (startOf comps i) (comps[i] ++ [0]) := by
  intro t ht
  rw [List.length_append, List.length_singleton] at ht
  by_cases hlt : t < comps[i].length
  · rw [List.getElem_append_left hlt]
    exact h.holdsFrom hi t hlt
  · have hend : startOf comps i + comps[i].length = MAX_PATH_LEN := by
      rw [← startOf_succ comps hi]
      exact hlimit
    have hpos : (startOf comps i : Int) + 1 * t = (MAX_PATH_LEN : Nat) := by omega
    have hroom := h.room.1
    rw [hpos, h.char, List.getElem?_eq_none hroom, List.getElem_append_right (by omega)]
    simp

/-- A pattern component at the limit is a name: `strncmp`, if the lengths agree. -/
lemma matchCurNode_atLimit (h : pat.Lists comps true) (hi : i < comps.length)
    (hcne : comps[i] ≠ []) (hlimit : EndsAtLimit comps i) (exp : Nodelist) :
    matchCurNode (pat.cursorAt i) exp =
      (decide ((pat.cursorAt i).nodeLen = exp.nodeLen) &&
        strncmpEq pat.str exp.str (pat.cursorAt i).nodeAddr exp.nodeAddr
          ((pat.cursorAt i).nodeLen % 2 ^ 64).toNat) := by
  unfold matchCurNode
  rw [h.nodeType hi hcne, if_pos hlimit]
  rfl

lemma inspected_atLimit (h : pat.Lists comps true) (hi : i < comps.length)
    (hcne : comps[i] ≠ []) (hlimit : EndsAtLimit comps i) (exp : Nodelist) :
    inspected (pat.cursorAt i) exp =
      if (pat.cursorAt i).nodeLen = exp.nodeLen then
        strncmpReads pat.str exp.str (pat.cursorAt i).nodeAddr exp.nodeAddr
          ((pat.cursorAt i).nodeLen % 2 ^ 64).toNat
      else [] := by
  unfold inspected
  rw [h.nodeType hi hcne, if_pos hlimit]
  rfl

/-- A name at the limit has its start, negated, for its length. -/
lemma nodeLen_atLimit_eq_iff (h : pat.Lists comps true) (he : exp.Lists path flag)
    (hi : i < comps.length) (hj : j < path.length) (hcne : comps[i] ≠ []) (hne : path[j] ≠ [])
    (hlimit : EndsAtLimit comps i) :
    (pat.cursorAt i).nodeLen = (exp.cursorAt j).nodeLen ↔
      EndsAtLimit path j ∧ startOf path j = startOf comps i := by
  have hplen := h.nodeLen hi hcne
  have hflen := he.nodeLen hj hne
  have hpos := List.length_pos_iff.mpr hne
  rw [if_pos hlimit] at hplen
  by_cases hat : EndsAtLimit path j
  · rw [if_pos hat] at hflen
    rw [hplen, hflen]
    constructor
    · intro hlen
      exact ⟨hat, by omega⟩
    · intro hsame
      rw [hsame.2]
  · rw [if_neg hat] at hflen
    constructor
    · intro hlen
      omega
    · intro hsame
      exact absurd hsame.1 hat

/-- `strncmp` is called with a negative length here, so it compares up to the end of the string
and, if the names are equal, behind the end of the buffer. -/
lemma exact_of_same_length (h : pat.Lists comps true) (he : exp.Lists path flag)
    (hi : i < comps.length) (hj : j < path.length) (hne : path[j] ≠ [])
    (hc : comps[i] = pre ++ starChar :: suf) (hnul : 0 ∉ comps[i]) (hlimit : EndsAtLimit comps i)
    (hlen : (pat.cursorAt i).nodeLen = (exp.cursorAt j).nodeLen) (hzero : startOf comps i ≠ 0) :
    WildcardExact (pat.cursorAt i) (exp.cursorAt j) pre suf path[j] (startOf path j) ↔
      ¬FitsAround pre suf path[j] := by
  have hcne : comps[i] ≠ [] := by rw [hc]; simp
  obtain ⟨hat, hsame⟩ := (nodeLen_atLimit_eq_iff h he hi hj hcne hne hlimit).mp hlen
  have hmatch := matchCurNode_atLimit h hi hcne hlimit (exp.cursorAt j)
  have hreads := inspected_atLimit h hi hcne hlimit (exp.cursorAt j)
  have hplen := h.nodeLen hi hcne
  rw [if_pos hlimit] at hplen
  rw [decide_eq_true hlen, Bool.true_and, hplen] at hmatch
  rw [if_pos hlen, hplen] at hreads
  have hmax := h.startOf_le_max i
  have hend := startOf_succ comps hi
  have hend' := startOf_succ path hj
  rw [show startOf comps (i + 1) = MAX_PATH_LEN from hlimit] at hend
  rw [show startOf path (j + 1) = MAX_PATH_LEN from hat] at hend'
  unfold MAX_PATH_LEN at hmax hend hend'
  have hbig : comps[i].length < (-(startOf comps i : Int) % 2 ^ 64).toNat := by omega
  obtain ⟨hcmp, hcmpReads⟩ := strncmpEq_long (f := exp.str) (j := (exp.cursorAt j).nodeAddr) hnul
    hbig (h.holdsFrom_mark hi hlimit)
  have hstr : (exp.cursorAt j).str = exp.str := rfl
  rw [h.nodeAddr hi hcne, hstr, hcmp] at hmatch
  rw [h.nodeAddr hi hcne, hstr, hcmpReads] at hreads
  have hcells := front_scan he hj hne
  by_cases heq : path[j] = comps[i]
  · -- equal names: the comparison goes on behind the end of the buffer
    have hfits : FitsAround pre suf path[j] := ⟨[starChar], by rw [heq, hc]; simp⟩
    have hproper : ProperPrefix path[j] (comps[i] ++ [0]) := by
      rw [heq]
      exact ⟨List.prefix_append _ _, by simp⟩
    refine ⟨fun hexact => ?_, fun hnot => absurd hfits hnot⟩
    have hin := hexact.inside _ (hreads ▸ scanReads_outside hcells hproper)
    rw [he.nodeAddr hj hne] at hin
    omega
  · have hstop : ¬ProperPrefix path[j] (comps[i] ++ [0]) := by
      rintro ⟨hbegins, -⟩
      have hbegins' : path[j] <+: comps[i] :=
        List.prefix_of_prefix_length_le hbegins (List.prefix_append _ _) (by omega)
      exact heq (hbegins'.eq_of_length (by omega))
    apply wildcardExact_of_noMatch
    · rw [hmatch, scan_iff hcells hstop]
      intro hbegins
      have := hbegins.length_le
      rw [List.length_append, List.length_singleton] at this
      omega
    · rw [hreads]
      intro k hk
      obtain ⟨t, ht, rfl⟩ := scanReads_inside hcells hstop k hk
      rw [he.nodeAddr hj hne]
      omega

lemma exact_at_limit_iff (h : pat.Lists comps true) (he : exp.Lists path flag)
    (hi : i < comps.length) (hj : j < path.length) (hne : path[j] ≠ [])
    (hc : comps[i] = pre ++ starChar :: suf) (hnul : 0 ∉ comps[i]) (hlimit : EndsAtLimit comps i) :
    WildcardExact (pat.cursorAt i) (exp.cursorAt j) pre suf path[j] (startOf path j) ↔
      if startOf comps i = 0 ∧ startOf path j = 0 ∧ EndsAtLimit path j then
        FitsAround pre suf path[j]
      else ¬FitsAround pre suf path[j] := by
  have hcne : comps[i] ≠ [] := by rw [hc]; simp
  have hsame := nodeLen_atLimit_eq_iff h he hi hj hcne hne hlimit
  have hmatch := matchCurNode_atLimit h hi hcne hlimit (exp.cursorAt j)
  have hreads := inspected_atLimit h hi hcne hlimit (exp.cursorAt j)
  by_cases hlen : (pat.cursorAt i).nodeLen = (exp.cursorAt j).nodeLen
  · by_cases hzero : startOf comps i = 0
    · -- all of both strings: the length is 0, and nothing is compared
      have hplen := h.nodeLen hi hcne
      rw [if_pos hlimit, hzero] at hplen
      rw [decide_eq_true hlen, Bool.true_and, hplen] at hmatch
      rw [if_pos hlen, hplen] at hreads
      rw [if_pos ⟨hzero, (hsame.mp hlen).2.trans hzero, (hsame.mp hlen).1⟩]
      apply wildcardExact_of_match hmatch
      rw [hreads]
      intro k hk
      cases hk
    · rw [if_neg (fun hall => hzero hall.1)]
      exact exact_of_same_length h he hi hj hne hc hnul hlimit hlen hzero
  · have hnot : ¬(startOf comps i = 0 ∧ startOf path j = 0 ∧ EndsAtLimit path j) := by
      rintro ⟨hzero, hzero', hat⟩
      exact hlen (hsame.mpr ⟨hat, hzero'.trans hzero.symm⟩)
    rw [decide_eq_false hlen, Bool.false_and] at hmatch
    rw [if_neg hlen] at hreads
    rw [if_neg hnot]
    apply wildcardExact_of_noMatch
    · rw [hmatch]
      exact Bool.false_ne_true
    · rw [hreads]
      intro k hk
      cases hk

end Limit

/-- Which components one star is decided exactly on. -/
theorem wildcardExact_iff {pattern path : CStr} (hnul : 0 ∉ pattern) (hnul' : 0 ∉ path)
    {pat exp : Nodelist} (hpat : fnTranslate pattern true = .ok (some pat))
    (hexp : fnTranslate path false = .ok (some exp)) {i j : Nat} {pre suf xc : CStr}
    (hi : (components pattern)[i]? = some (pre ++ starChar :: suf))
    (hj : (components path)[j]? = some xc) (hpre : starChar ∉ pre) (hsuf : starChar ∉ suf)
    (hform : pre ≠ [] ∨ suf ≠ []) :
    WildcardExact (pat.cursorAt i) (exp.cursorAt j) pre suf xc (startOf (components path) j) ↔
      WildcardSafe (components pattern) (components path) i j pre suf xc := by
  have h := lists_of_fnTranslate hnul hpat
  have he := lists_of_fnTranslate hnul' hexp
  obtain ⟨hil, hc⟩ := List.getElem?_eq_some_iff.mp hi
  obtain ⟨hjl, rfl⟩ := List.getElem?_eq_some_iff.mp hj
  have hne : (components path)[j] ≠ [] := ne_nil_of_mem_components (List.getElem_mem hjl)
  have hnulc : 0 ∉ (components pattern)[i] := nul_notMem_components hnul (List.getElem_mem hil)
  unfold WildcardSafe
  by_cases hlimit : EndsAtLimit (components pattern) i
  · rw [if_pos hlimit]
    exact exact_at_limit_iff h he hil hjl hne hc hnulc hlimit
  · rw [if_neg hlimit]
    exact ⟨staysInside_of_exact h he hil hjl hne hc hpre hsuf hform hlimit,
      exact_of_staysInside h he hil hjl hne hc hpre hsuf hform hlimit⟩

theorem wildcardExact_backup : ∃ pat exp,
    fnTranslate (cstr "/a*z") true = .ok (some pat) ∧
    fnTranslate (cstr "/abz/c") false = .ok (some exp) ∧
    (WildcardExact (pat.cursorAt 0) (exp.cursorAt 0) (cstr "a") (cstr "z") (cstr "abz")
        (startOf (components (cstr "/abz/c")) 0) ↔
      WildcardSafe (components (cstr "/a*z")) (components (cstr "/abz/c")) 0 0 (cstr "a") (cstr "z")
        (cstr "abz")) :=
  ⟨_, _, rfl, rfl, @wildcardExact_iff (cstr "/a*z") (cstr "/abz/c") (by decide) (by decide) _ _ rfl rfl
    0 0 (cstr "a") (cstr "z") (cstr "abz") (by decide) (by decide) (by decide) (by decide) (by decide)⟩

/-- The component `a` of the path is too short for `ab*`; its neighbour makes up for it. -/
theorem wildcard_reads_neighbour : ∃ pat exp,
    fnTranslate (cstr "/ab*") true = .ok (some pat) ∧
    fnTranslate (cstr "/a/b") false = .ok (some exp) ∧
    matchCurNode (pat.cursorAt 0) (exp.cursorAt 0) = true ∧
    ¬WildcardExact (pat.cursorAt 0) (exp.cursorAt 0) (cstr "ab") [] (cstr "a")
      (startOf (components (cstr "/a/b")) 0) := by
  refine ⟨_, _, rfl, rfl, by decide, fun h => ?_⟩
  obtain ⟨x, hx⟩ := h.decides.mp (by decide)
  have hlen := congrArg List.length hx
  simp [cstr] at hlen

end Hfm

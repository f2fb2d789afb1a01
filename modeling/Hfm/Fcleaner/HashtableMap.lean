import Hfm.Fcleaner.Hashtable

/-!
# The hash table as a map

`hsh_search`, `hsh_remove` and `hsh_replace` of `src/fcleaner/hashtable.c`.
-/

namespace Hfm

/-- `_free_node`, the data that it frees. -/
def freeNode (n : HshNode) : Option Nat := if n.data = 0 then none else some n.data

/-- The loop of `hsh_remove`, which looks at the node behind `ptr`. -/
def removeInner (key : CStr) : List HshNode → Option (HshNode × List HshNode)
  | ptr :: next :: rest =>
    if next.key = key then some (next, ptr :: rest)
    else (removeInner key (next :: rest)).map fun r => (r.1, ptr :: r.2)
  | _ => none

/-- The node to be removed, and the chain without it. -/
def removeChain (key : CStr) : List HshNode → Option (HshNode × List HshNode)
  | [] => none
  | n :: rest => if n.key = key then some (n, rest) else removeInner key (n :: rest)

def Hashtable.setChain (tbl : Hashtable) (i : Nat) (chain : List HshNode) : Hashtable :=
  { tbl with arr := Function.update tbl.arr i chain }

def hshRemove (tbl : Hashtable) (key : CStr) : Except Fault PutResult :=
  if tbl.size = 0 then .error .divisionByZero
  else
    let index := tbl.index key
    match removeChain key (tbl.arr index) with
    | some (toBeRemoved, chain) => .ok ⟨0, tbl.setChain index chain, freeNode toBeRemoved⟩
    | none => .ok ⟨-1, tbl, none⟩

/-- The loop of `hsh_replace`: the node as it was, and the chain. -/
def replaceChain (key : CStr) (newdata : Nat) :
    List HshNode → Option (HshNode × List HshNode)
  | [] => none
  | n :: rest =>
    if n.key = key then some (n, { n with data := newdata } :: rest)
    else (replaceChain key newdata rest).map fun r => (r.1, n :: r.2)

def hshReplace (tbl : Hashtable) (key : CStr) (newdata : Nat) : Except Fault PutResult :=
  if tbl.size = 0 then .error .divisionByZero
  else
    let index := tbl.index key
    match replaceChain key newdata (tbl.arr index) with
    | some (n, chain) => .ok ⟨0, tbl.setChain index chain, freeNode n⟩
    | none => .ok ⟨-1, tbl, if newdata = 0 then none else some newdata⟩

/-! ### The map -/

def chainData (key : CStr) (chain : List HshNode) : Option Nat :=
  (chain.find? (·.key = key)).map HshNode.data

/-- The map that a table stands for. -/
def Hashtable.lookup (tbl : Hashtable) (key : CStr) : Option Nat :=
  chainData key (tbl.arr (tbl.index key))

/-- The data of the node of the key, or `NULL`. -/
def SearchRight (tbl : Hashtable) (key : CStr) : Prop :=
  (∀ n ∈ tbl.arr (tbl.index key), n.key = key → hshSearch tbl key = .ok n.data) ∧
    (¬tbl.Present key → hshSearch tbl key = .ok 0)

/-- The binding of the key is removed, and no other; the rest of each chain stays as it is. -/
def RemoveRight (tbl : Hashtable) (key : CStr) : Prop :=
  ∃ r, hshRemove tbl key = .ok r ∧ (r.status = 0 ↔ tbl.Present key) ∧
    r.table.lookup = Function.update tbl.lookup key none ∧ r.table.size = tbl.size ∧
    (∀ i < tbl.size.toNat, r.table.arr i = (tbl.arr i).filter (·.key ≠ key)) ∧ r.table.WellFormed

/-- The data of the key is replaced, and nothing else. -/
def ReplaceRight (tbl : Hashtable) (key : CStr) (newdata : Nat) : Prop :=
  ∃ r, hshReplace tbl key newdata = .ok r ∧ (r.status = 0 ↔ tbl.Present key) ∧
    (tbl.Present key → r.table.lookup = Function.update tbl.lookup key (some newdata)) ∧
    (¬tbl.Present key → r.table = tbl) ∧ r.table.size = tbl.size ∧
    (∀ i < tbl.size.toNat, r.table.arr i =
      (tbl.arr i).map fun n => if n.key = key then { n with data := newdata } else n) ∧
    r.table.WellFormed

/-! ### A chain with its key taken out -/

section Chains

variable {key : CStr} {n : HshNode} {before after : List HshNode}

lemma chain_split {chain : List HshNode} (hnodup : (chain.map HshNode.key).Nodup)
    (h : key ∈ chain.map HshNode.key) : ∃ before n after, chain = before ++ n :: after ∧
      n.key = key ∧ key ∉ before.map HshNode.key ∧ key ∉ after.map HshNode.key := by
  obtain ⟨n, hn, hkey⟩ := List.mem_map.mp h
  obtain ⟨before, after, rfl⟩ := List.append_of_mem hn
  rw [List.map_append, List.map_cons, hkey, List.nodup_append, List.nodup_cons] at hnodup
  refine ⟨before, n, after, rfl, hkey, fun hin => ?_, hnodup.2.1.1⟩
  exact hnodup.2.2 key hin key List.mem_cons_self rfl

lemma removeInner_split (hkey : n.key = key) (hbefore : key ∉ before.map HshNode.key)
    (ptr : HshNode) :
    removeInner key (ptr :: (before ++ n :: after)) = some (n, ptr :: (before ++ after)) := by
  induction before generalizing ptr with
  | nil => exact if_pos hkey
  | cons m before ih =>
    rw [List.map_cons, List.mem_cons, not_or] at hbefore
    rw [List.cons_append, removeInner, if_neg (Ne.symm hbefore.1), ih hbefore.2]
    rfl

lemma removeChain_split (hkey : n.key = key) (hbefore : key ∉ before.map HshNode.key) :
    removeChain key (before ++ n :: after) = some (n, before ++ after) := by
  cases before with
  | nil => exact if_pos hkey
  | cons m before =>
    rw [List.map_cons, List.mem_cons, not_or] at hbefore
    rw [List.cons_append, removeChain, if_neg (Ne.symm hbefore.1), removeInner_split hkey hbefore.2]
    rfl

lemma removeInner_absent {chain : List HshNode} (h : key ∉ chain.map HshNode.key) (ptr : HshNode) :
    removeInner key (ptr :: chain) = none := by
  induction chain generalizing ptr with
  | nil => rfl
  | cons n chain ih =>
    rw [List.map_cons, List.mem_cons, not_or] at h
    rw [removeInner, if_neg (Ne.symm h.1), ih h.2]
    rfl

lemma removeChain_absent {chain : List HshNode} (h : key ∉ chain.map HshNode.key) :
    removeChain key chain = none := by
  cases chain with
  | nil => rfl
  | cons n chain =>
    rw [List.map_cons, List.mem_cons, not_or] at h
    rw [removeChain, if_neg (Ne.symm h.1), removeInner_absent h.2]

lemma replaceChain_split (hkey : n.key = key) (hbefore : key ∉ before.map HshNode.key)
    (newdata : Nat) : replaceChain key newdata (before ++ n :: after) =
      some (n, before ++ { n with data := newdata } :: after) := by
  induction before with
  | nil => exact if_pos hkey
  | cons m before ih =>
    rw [List.map_cons, List.mem_cons, not_or] at hbefore
    rw [List.cons_append, replaceChain, if_neg (Ne.symm hbefore.1), ih hbefore.2]
    rfl

lemma replaceChain_absent {chain : List HshNode} (h : key ∉ chain.map HshNode.key)
    (newdata : Nat) : replaceChain key newdata chain = none := by
  induction chain with
  | nil => rfl
  | cons n chain ih =>
    rw [List.map_cons, List.mem_cons, not_or] at h
    rw [replaceChain, if_neg (Ne.symm h.1), ih h.2]
    rfl

lemma searchChain_eq (key : CStr) (chain : List HshNode) :
    searchChain key chain = (chainData key chain).getD 0 := by
  induction chain with
  | nil => rfl
  | cons n chain ih =>
    unfold chainData at ih ⊢
    rw [searchChain, List.find?_cons, ih]
    by_cases hkey : n.key = key
    · simp [hkey]
    · simp [hkey]

lemma chainData_absent {chain : List HshNode} (h : key ∉ chain.map HshNode.key) :
    chainData key chain = none := by
  unfold chainData
  rw [Option.map_eq_none_iff, List.find?_eq_none]
  intro n hn hkey
  exact h (List.mem_map.mpr ⟨n, hn, of_decide_eq_true hkey⟩)

lemma chainData_append (key : CStr) (chain chain' : List HshNode) :
    chainData key (chain ++ chain') = (chainData key chain).or (chainData key chain') := by
  unfold chainData
  rw [List.find?_append, Option.map_or]

lemma chainData_cons (key : CStr) (n : HshNode) (chain : List HshNode) :
    chainData key (n :: chain) = if n.key = key then some n.data else chainData key chain := by
  unfold chainData
  rw [List.find?_cons]
  by_cases hkey : n.key = key
  · simp [hkey]
  · simp [hkey]

lemma filter_key_absent {chain : List HshNode} (h : key ∉ chain.map HshNode.key) :
    chain.filter (·.key ≠ key) = chain := by
  rw [List.filter_eq_self]
  intro n hn
  exact decide_eq_true fun hkey => h (List.mem_map.mpr ⟨n, hn, hkey⟩)

lemma map_key_absent {chain : List HshNode} (h : key ∉ chain.map HshNode.key) (newdata : Nat) :
    (chain.map fun n => if n.key = key then { n with data := newdata } else n) = chain := by
  refine (List.map_congr_left fun n hn => ?_).trans chain.map_id
  exact if_neg fun hkey => h (List.mem_map.mpr ⟨n, hn, hkey⟩)

end Chains

/-! ### A table with one chain changed -/

namespace Hashtable

variable {tbl : Hashtable} {key : CStr} {chain : List HshNode}

lemma lookup_setChain (tbl : Hashtable) (i : Nat) (chain : List HshNode) (k : CStr) :
    (tbl.setChain i chain).lookup k = if tbl.index k = i then chainData k chain else tbl.lookup k := by
  change chainData k (Function.update tbl.arr i chain (tbl.index k)) = _
  split
  · rename_i hi
    rw [hi, Function.update_self]
  · rename_i hi
    rw [Function.update_of_ne hi]
    rfl

/-- A chain that has other data only for one key changes the map there only. -/
lemma lookup_setChain_update (tbl : Hashtable) (key : CStr) (chain : List HshNode)
    (hother : ∀ k, k ≠ key → chainData k chain = chainData k (tbl.arr (tbl.index key))) :
    (tbl.setChain (tbl.index key) chain).lookup =
      Function.update tbl.lookup key (chainData key chain) := by
  funext k
  rw [lookup_setChain]
  by_cases hk : k = key
  · rw [hk, if_pos rfl, Function.update_self]
  · rw [Function.update_of_ne hk]
    split
    · rename_i hi
      rw [hother k hk, ← hi]
      rfl
    · rfl

/-- A chain without new keys keeps the table well formed. -/
lemma WellFormed.setChain (h : tbl.WellFormed) (i : Nat)
    (hsub : (chain.map HshNode.key).Sublist ((tbl.arr i).map HshNode.key)) :
    (tbl.setChain i chain).WellFormed := by
  have hself : (tbl.setChain i chain).arr i = chain := Function.update_self ..
  have hother : ∀ j, j ≠ i → (tbl.setChain i chain).arr j = tbl.arr j := fun j hj =>
    Function.update_of_ne hj ..
  refine ⟨h.pos, fun j hj n hn => ?_, fun j hj => ?_⟩
  · by_cases hji : j = i
    · rw [hji, hself] at hn
      obtain ⟨m, hm, hkey⟩ := List.mem_map.mp (hsub.subset (List.mem_map_of_mem hn))
      change tbl.index n.key = j
      rw [← hkey]
      exact h.placed j hj m (hji ▸ hm)
    · rw [hother j hji] at hn
      exact h.placed j hj n hn
  · by_cases hji : j = i
    · rw [hji, hself]
      exact hsub.nodup (h.nodup i (hji ▸ hj))
    · rw [hother j hji]
      exact h.nodup j hj

/-- A key is in no bucket but its own. -/
lemma WellFormed.absent_elsewhere (h : tbl.WellFormed) {i : Nat} (hi : i < tbl.size.toNat)
    (hne : i ≠ tbl.index key) : key ∉ (tbl.arr i).map HshNode.key := by
  intro hin
  obtain ⟨n, hn, rfl⟩ := List.mem_map.mp hin
  exact hne (h.placed i hi n hn).symm

/-! ### The operations -/

lemma WellFormed.searchRight (h : tbl.WellFormed) (key : CStr) : SearchRight tbl key := by
  have hsearch : hshSearch tbl key = .ok ((chainData key (tbl.arr (tbl.index key))).getD 0) := by
    rw [hshSearch, if_neg h.pos, searchChain_eq]
  rw [SearchRight, hsearch]
  refine ⟨fun n hn hkey => ?_, fun habsent => ?_⟩
  · have hnodup := h.nodup _ (index_lt h.pos key)
    obtain ⟨before, after, hchain⟩ := List.append_of_mem hn
    rw [hchain, List.map_append, List.map_cons, List.nodup_append] at hnodup
    have hbefore : key ∉ before.map HshNode.key := fun hin =>
      hnodup.2.2 key hin n.key List.mem_cons_self hkey.symm
    rw [hchain, chainData_append, chainData_absent hbefore, chainData_cons, if_pos hkey]
    rfl
  · rw [chainData_absent habsent]
    rfl

lemma WellFormed.removeRight (h : tbl.WellFormed) (key : CStr) : RemoveRight tbl key := by
  unfold RemoveRight hshRemove
  rw [if_neg h.pos]
  dsimp only
  by_cases hpresent : tbl.Present key
  · obtain ⟨before, n, after, hchain, hkey, hbefore, hafter⟩ :=
      chain_split (h.nodup _ (index_lt h.pos key)) hpresent
    rw [hchain, removeChain_split hkey hbefore]
    refine ⟨_, rfl, iff_of_true rfl hpresent, ?_, rfl, fun i hi => ?_, ?_⟩
    · have habsent : chainData key (before ++ after) = none := by
        rw [chainData_append, chainData_absent hbefore, chainData_absent hafter]
        rfl
      rw [← habsent]
      refine lookup_setChain_update tbl key _ fun k hk => ?_
      rw [hchain, chainData_append, chainData_append, chainData_cons,
        if_neg fun hnk => hk (hnk.symm.trans hkey)]
    · by_cases hindex : i = tbl.index key
      · rw [hindex, hchain, List.filter_append, List.filter_cons_of_neg (by simp [hkey]),
          filter_key_absent hbefore, filter_key_absent hafter]
        exact Function.update_self ..
      · rw [filter_key_absent (h.absent_elsewhere hi hindex)]
        exact Function.update_of_ne hindex ..
    · refine h.setChain _ ?_
      rw [hchain, List.map_append, List.map_append, List.map_cons]
      exact List.Sublist.append_left (List.sublist_cons_self _ _) _
  · rw [removeChain_absent hpresent]
    refine ⟨_, rfl, iff_of_false (by simp) hpresent, ?_, rfl, fun i hi => ?_, h⟩
    · have hnone : tbl.lookup key = none := chainData_absent hpresent
      rw [← hnone, Function.update_eq_self]
    · by_cases hindex : i = tbl.index key
      · rw [hindex, filter_key_absent hpresent]
      · rw [filter_key_absent (h.absent_elsewhere hi hindex)]

lemma WellFormed.replaceRight (h : tbl.WellFormed) (key : CStr) (newdata : Nat) :
    ReplaceRight tbl key newdata := by
  unfold ReplaceRight hshReplace
  rw [if_neg h.pos]
  dsimp only
  by_cases hpresent : tbl.Present key
  · obtain ⟨before, n, after, hchain, hkey, hbefore, hafter⟩ :=
      chain_split (h.nodup _ (index_lt h.pos key)) hpresent
    rw [hchain, replaceChain_split hkey hbefore]
    refine ⟨_, rfl, iff_of_true rfl hpresent, fun _ => ?_, fun hnot => absurd hpresent hnot, rfl,
      fun i hi => ?_, ?_⟩
    · have hdata : chainData key (before ++ { n with data := newdata } :: after) = some newdata := by
        rw [chainData_append, chainData_absent hbefore, chainData_cons, if_pos hkey]
        rfl
      rw [← hdata]
      refine lookup_setChain_update tbl key _ fun k hk => ?_
      rw [hchain, chainData_append, chainData_append, chainData_cons, chainData_cons,
        if_neg fun hnk => hk (hnk.symm.trans hkey), if_neg fun hnk => hk (hnk.symm.trans hkey)]
    · by_cases hindex : i = tbl.index key
      · rw [hindex, hchain, List.map_append, List.map_cons, if_pos hkey,
          map_key_absent hbefore, map_key_absent hafter]
        exact Function.update_self ..
      · rw [map_key_absent (h.absent_elsewhere hi hindex)]
        exact Function.update_of_ne hindex ..
    · refine h.setChain _ ?_
      rw [hchain, List.map_append, List.map_append, List.map_cons, List.map_cons]
  · rw [replaceChain_absent hpresent]
    refine ⟨_, rfl, iff_of_false (by simp) hpresent, fun hin => absurd hin hpresent, fun _ => rfl, rfl,
      fun i hi => ?_, h⟩
    by_cases hindex : i = tbl.index key
    · rw [hindex, map_key_absent hpresent]
    · rw [map_key_absent (h.absent_elsewhere hi hindex)]

end Hashtable

/-- Search, removal and replacement are those of a map, in every table that is well formed. -/
theorem hashtable_map_operations {tbl : Hashtable} (h : tbl.WellFormed) (key : CStr)
    (newdata : Nat) : SearchRight tbl key ∧ RemoveRight tbl key ∧ ReplaceRight tbl key newdata :=
  ⟨h.searchRight key, h.removeRight key, h.replaceRight key newdata⟩

theorem hashtable_map_operations_threeNodes : threeNodes.WellFormed ∧
    SearchRight threeNodes (cstr "b") ∧ RemoveRight threeNodes (cstr "b") ∧
      ReplaceRight threeNodes (cstr "b") 4 :=
  ⟨threeNodes_wellFormed, hashtable_map_operations threeNodes_wellFormed (cstr "b") 4⟩

end Hfm

import Hfm.Basic
import Mathlib.Data.List.Nodup
import Mathlib.Logic.Function.Basic

/-!
# The hash table of the cleaner

`src/fcleaner/hashtable.c`: an array of chains. The expiry that a node is given is read by
nothing, and left out.
-/

namespace Hfm

def KEY_LENGTH : Nat := 1024

/-- `node_t`, with a key that has room for its NUL. Data pointers are numbers, `NULL` is 0. -/
structure HshNode where
  key : CStr
  data : Nat
  key_lt : key.length < KEY_LENGTH

/-- `struct _hashtable_t`: the chains of the buckets below `size`. -/
structure Hashtable where
  size : UInt64
  arr : Nat → List HshNode

/-- `_hash`, where a `char` is signed. -/
def hshHash (str : CStr) : UInt64 :=
  str.foldl (fun hash c => ((hash <<< 5) + hash) + c.toInt8.toInt64.toUInt64) 5381

def Hashtable.index (tbl : Hashtable) (key : CStr) : Nat := (hshHash key % tbl.size).toNat

/-- The loop of `hsh_put` from a node on, `none` where it finds the key. A chain of one node
leaves it with a null pointer, whose `next` it reads. -/
def putChain (newnode : HshNode) : List HshNode → Except Fault (Option (List HshNode))
  | [] => .error .nullPointer
  | [n] => if n.key = newnode.key then .ok none else .error .nullPointer
  | [n, m] => if n.key = newnode.key then .ok none else .ok (some [n, m, newnode])
  | n :: m :: l :: rest =>
    if n.key = newnode.key then .ok none
    else do
      let chain ← putChain newnode (m :: l :: rest)
      return chain.map (n :: ·)

/-- The status, the table, and the data that was freed. -/
structure PutResult where
  status : Int
  table : Hashtable
  freed : Option Nat

/-- `alloc` tells whether there is memory for the node; without it the status is 0 as well. A
longer key leaves no NUL in its node. -/
def hshPut (tbl : Hashtable) (key : CStr) (data : Nat) (alloc : Bool) : Except Fault PutResult :=
  if alloc = false then .ok ⟨0, tbl, none⟩
  else if hkey : key.length < KEY_LENGTH then
    if tbl.size = 0 then .error .divisionByZero
    else
      let newnode : HshNode := ⟨key, data, hkey⟩
      let index := tbl.index key
      match tbl.arr index with
      | [] => .ok ⟨0, { tbl with arr := Function.update tbl.arr index [newnode] }, none⟩
      | n :: rest => do
        match ← putChain newnode (n :: rest) with
        | none => return ⟨-1, tbl, if data = 0 then none else some data⟩
        | some chain => return ⟨0, { tbl with arr := Function.update tbl.arr index chain }, none⟩
  else .error .outOfBounds

def searchChain (key : CStr) : List HshNode → Nat
  | [] => 0
  | n :: rest => if n.key = key then n.data else searchChain key rest

def hshSearch (tbl : Hashtable) (key : CStr) : Except Fault Nat :=
  if tbl.size = 0 then .error .divisionByZero
  else .ok (searchChain key (tbl.arr (tbl.index key)))

/-! ### Chains -/

/-- From two nodes on the loop looks at all of them but the last. -/
lemma putChain_two (newnode : HshNode) (chain : List HshNode) : 2 ≤ chain.length →
    putChain newnode chain = .ok (if newnode.key ∈ chain.dropLast.map HshNode.key then none
      else some (chain ++ [newnode])) := by
  fun_induction putChain newnode chain with
  | case1 => simp
  | case2 => simp
  | case3 => simp
  | case4 n m hkey => simp [hkey]
  | case5 n m hkey =>
    intro _
    simp [Ne.symm hkey]
  | case6 n m l rest hkey => simp [hkey]
  | case7 n m l rest hkey ih =>
    intro _
    rw [ih (by simp)]
    simp only [bind, Except.bind, pure, Except.pure, List.dropLast_cons_cons, List.map_cons,
      List.mem_cons, Ne.symm hkey, false_or]
    split
    · rfl
    · rfl

lemma searchChain_append (key : CStr) (chain : List HshNode) (n : HshNode) :
    searchChain key (chain ++ [n]) =
      if key ∈ chain.map HshNode.key then searchChain key chain
      else if n.key = key then n.data else 0 := by
  induction chain with
  | nil => rfl
  | cons m chain ih =>
    rw [List.cons_append, searchChain, searchChain, ih]
    by_cases hkey : m.key = key
    · simp [hkey]
    · simp [hkey, Ne.symm hkey]

lemma searchChain_absent {key : CStr} {chain : List HshNode} (h : key ∉ chain.map HshNode.key) :
    searchChain key chain = 0 := by
  induction chain with
  | nil => rfl
  | cons m chain ih =>
    rw [List.map_cons, List.mem_cons, not_or] at h
    rw [searchChain, if_neg (Ne.symm h.1), ih h.2]

/-! ### Insertion -/

/-- Each node is in the bucket of its key, and no key occurs twice. -/
structure Hashtable.WellFormed (tbl : Hashtable) : Prop where
  pos : tbl.size ≠ 0
  placed : ∀ i < tbl.size.toNat, ∀ n ∈ tbl.arr i, tbl.index n.key = i
  nodup : ∀ i < tbl.size.toNat, ((tbl.arr i).map HshNode.key).Nodup

def Hashtable.Present (tbl : Hashtable) (key : CStr) : Prop :=
  key ∈ (tbl.arr (tbl.index key)).map HshNode.key

/-- The insertion has a defined end. A key that is present is reported and nothing changes;
another one is bound to its data, all else is left as it was. -/
def PutRight (tbl : Hashtable) (key : CStr) (data : Nat) : Prop :=
  ∃ r, hshPut tbl key data true = .ok r ∧
    (tbl.Present key → r.status = -1 ∧ r.table = tbl) ∧
    (¬tbl.Present key → r.status = 0 ∧ hshSearch r.table key = .ok data ∧
      (∀ k, k ≠ key → hshSearch r.table k = hshSearch tbl k) ∧ r.table.WellFormed)

/-- The chain is empty, or its one node holds the key, or the key is not in the last of its
nodes. -/
def LoopSound (chain : List HshNode) (key : CStr) : Prop :=
  match chain with
  | [] => True
  | [n] => n.key = key
  | n :: m :: rest => ((m :: rest).getLast (by simp)).key ≠ key

lemma index_lt {tbl : Hashtable} (hpos : tbl.size ≠ 0) (key : CStr) :
    tbl.index key < tbl.size.toNat := by
  unfold Hashtable.index
  rw [UInt64.toNat_mod]
  apply Nat.mod_lt
  rw [Nat.pos_iff_ne_zero]
  intro h
  exact hpos (UInt64.toNat_inj.mp h)

/-- A new key at the end of its chain. -/
lemma Hashtable.WellFormed.append {tbl : Hashtable} (h : tbl.WellFormed) (newnode : HshNode)
    (habsent : ¬tbl.Present newnode.key) :
    let i := tbl.index newnode.key
    let tbl' : Hashtable :=
      { tbl with arr := Function.update tbl.arr i (tbl.arr i ++ [newnode]) }
    hshSearch tbl' newnode.key = .ok newnode.data ∧
      (∀ k, k ≠ newnode.key → hshSearch tbl' k = hshSearch tbl k) ∧ tbl'.WellFormed := by
  intro i tbl'
  have hindex : ∀ k, tbl'.index k = tbl.index k := fun _ => rfl
  have harr : ∀ j, j ≠ i → tbl'.arr j = tbl.arr j := fun j hj => Function.update_of_ne hj ..
  have hself : tbl'.arr i = tbl.arr i ++ [newnode] := Function.update_self ..
  refine ⟨?_, fun k hk => ?_, ⟨h.pos, fun j hj n hn => ?_, fun j hj => ?_⟩⟩
  · rw [hshSearch, if_neg h.pos, hindex]
    change Except.ok (searchChain newnode.key (tbl'.arr i)) = _
    have hnot : newnode.key ∉ (tbl.arr i).map HshNode.key := habsent
    rw [hself, searchChain_append, if_neg hnot, if_pos rfl]
  · rw [hshSearch, hshSearch, if_neg h.pos, if_neg h.pos, hindex]
    by_cases hki : tbl.index k = i
    · rw [hki, hself, searchChain_append, if_neg (Ne.symm hk)]
      split
      · rfl
      · rename_i hnot
        rw [searchChain_absent hnot]
    · rw [harr _ hki]
  · rw [hindex]
    by_cases hji : j = i
    · rw [hji, hself, List.mem_append, List.mem_singleton] at hn
      rcases hn with hn | rfl
      · rw [hji] at hj ⊢
        exact h.placed i hj n hn
      · rw [hji]
    · rw [harr _ hji] at hn
      exact h.placed j hj n hn
  · by_cases hji : j = i
    · rw [hji] at hj ⊢
      rw [hself, List.map_append, List.map_singleton, List.nodup_append]
      refine ⟨h.nodup i hj, List.nodup_singleton _, ?_⟩
      intro k hk k' hk' heq
      rw [List.mem_singleton] at hk'
      rw [heq, hk'] at hk
      exact habsent hk
    · rw [harr _ hji]
      exact h.nodup j hj

/-- Insertion is right exactly where its loop looks at what it has to look at. -/
theorem putRight_iff {tbl : Hashtable} (h : tbl.WellFormed) {key : CStr}
    (hkey : key.length < KEY_LENGTH) (data : Nat) :
    PutRight tbl key data ↔ LoopSound (tbl.arr (tbl.index key)) key := by
  unfold PutRight hshPut Hashtable.Present
  simp only [Bool.true_eq_false, if_false, hkey, dif_pos, h.pos]
  have happend := fun habsent => h.append ⟨key, data, hkey⟩ habsent
  unfold Hashtable.Present at happend
  dsimp only at happend
  match hchain : tbl.arr (tbl.index key) with
  | [] =>
    rw [hchain] at happend
    simp only [LoopSound, iff_true]
    exact ⟨_, rfl, by simp, fun habsent => ⟨rfl, happend habsent⟩⟩
  | [n] =>
    dsimp only [LoopSound, putChain]
    by_cases hn : n.key = key
    · rw [if_pos hn]
      simp only [hn, iff_true]
      exact ⟨_, rfl, fun _ => ⟨rfl, rfl⟩, fun habsent => absurd (by simp [hn]) habsent⟩
    · rw [if_neg hn]
      simp only [hn, iff_false]
      rintro ⟨r, hok, -⟩
      cases hok
  | n :: m :: rest =>
    have hloop := putChain_two ⟨key, data, hkey⟩ (n :: m :: rest) (by simp)
    dsimp only at hloop ⊢
    rw [hloop]
    have hlast : (n :: m :: rest).map HshNode.key = (n :: m :: rest).dropLast.map HshNode.key ++
        [((m :: rest).getLast (by simp)).key] := by
      conv_lhs => rw [← List.dropLast_append_getLast (List.cons_ne_nil n (m :: rest))]
      rw [List.map_append, List.map_singleton, List.getLast_cons]
    rw [hchain, hlast] at happend
    have hnodup := h.nodup _ (index_lt h.pos key)
    rw [hchain, hlast, List.nodup_append] at hnodup
    rw [hlast]
    dsimp only [LoopSound]
    generalize ((m :: rest).getLast (by simp)).key = last at happend hnodup ⊢
    by_cases hin : key ∈ (n :: m :: rest).dropLast.map HshNode.key
    · have hne : last ≠ key := fun heq => hnodup.2.2 key hin last (by simp) heq.symm
      rw [if_pos hin]
      simp only [hne, ne_eq, not_false_eq_true, iff_true]
      exact ⟨_, rfl, fun _ => ⟨rfl, rfl⟩, fun habsent => absurd (List.mem_append_left _ hin) habsent⟩
    · rw [if_neg hin]
      constructor
      · rintro ⟨r, hok, hpresent, -⟩ rfl
        cases hok
        have := (hpresent (by simp)).1
        cases this
      · intro hne
        have habsent : key ∉ (n :: m :: rest).dropLast.map HshNode.key ++ [last] := by
          simp only [List.mem_append, hin, List.mem_singleton, Ne.symm hne, or_false, not_false_eq_true]
        exact ⟨_, rfl, fun hpresent => absurd hpresent habsent, fun _ => ⟨rfl, happend habsent⟩⟩

/-- A table of one bucket. -/
def oneChain (chain : List HshNode) : Hashtable := ⟨1, fun _ => chain⟩

lemma oneChain_wellFormed {chain : List HshNode} (h : (chain.map HshNode.key).Nodup) :
    (oneChain chain).WellFormed := by
  refine ⟨by simp [oneChain], fun i hi n hn => ?_, fun i hi => h⟩
  have hlt : i < 1 := hi
  have := index_lt (by simp [oneChain] : (oneChain chain).size ≠ 0) n.key
  have hsize : (oneChain chain).size.toNat = 1 := rfl
  omega

def threeNodes : Hashtable :=
  oneChain [⟨cstr "a", 1, by decide⟩, ⟨cstr "b", 2, by decide⟩, ⟨cstr "c", 3, by decide⟩]

lemma threeNodes_wellFormed : threeNodes.WellFormed := oneChain_wellFormed (by decide)

/-- A key in the middle of the chain, and a key that is not there. -/
theorem putRight_threeNodes : PutRight threeNodes (cstr "b") 4 ∧ PutRight threeNodes (cstr "d") 4 :=
  ⟨(putRight_iff threeNodes_wellFormed (by decide) 4).mpr (by decide : cstr "c" ≠ cstr "b"),
    (putRight_iff threeNodes_wellFormed (by decide) 4).mpr (by decide : cstr "c" ≠ cstr "d")⟩

/-- A table of one bucket, with one node. -/
def oneNode (key : CStr) (hkey : key.length < KEY_LENGTH) : Hashtable := oneChain [⟨key, 1, hkey⟩]

lemma oneNode_wellFormed (key : CStr) (hkey : key.length < KEY_LENGTH) :
    (oneNode key hkey).WellFormed :=
  oneChain_wellFormed (List.nodup_singleton _)

/-- A second key in the only bucket: the loop runs off the chain. -/
theorem put_fails_second_key : (oneNode (cstr "a") (by decide)).WellFormed ∧
    ¬PutRight (oneNode (cstr "a") (by decide)) (cstr "b") 2 := by
  refine ⟨oneNode_wellFormed _ _, ?_⟩
  rintro ⟨r, hok, -⟩
  cases hok

end Hfm

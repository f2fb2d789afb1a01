import Hfm.Fcleaner.HashtableMap

/-!
# The life of a hash table

`hsh_init` and `hsh_destroy` of `src/fcleaner/hashtable.c`, with any calls between them. The
loop of `hsh_put` never gets past a first node with another key, so that no bucket comes to
hold two nodes.
-/

namespace Hfm

/-! ### From `hsh_init` to `hsh_destroy` -/

/-- What `hsh_init` returns. Without memory for the buckets the table is freed, and returned
all the same. -/
inductive HshInit where
  | null
  | freed
  | table (tbl : Hashtable)

def hshInit (size : UInt64) (alloc allocArr : Bool) : HshInit :=
  if alloc = false then .null
  else if allocArr = false then .freed
  else .table ⟨size, fun _ => []⟩

/-- The data that is freed, bucket by bucket. The counter is an `int`. -/
def hshDestroy (tbl : Hashtable) : Except Fault (List Nat) :=
  if 2 ^ 31 ≤ tbl.size.toNat then .error .outOfBounds
  else .ok ((List.range tbl.size.toNat).flatMap fun i => (tbl.arr i).filterMap freeNode)

/-- A call on a table. -/
inductive HshCall where
  | put (key : CStr) (data : Nat) (alloc : Bool)
  | search (key : CStr)
  | remove (key : CStr)
  | replace (key : CStr) (newdata : Nat)
  deriving DecidableEq

namespace HshCall

def key : HshCall → CStr
  | put key .. | search key | remove key | replace key _ => key

/-- The status or the data that is returned, the table, and the data that was freed. -/
def run (tbl : Hashtable) : HshCall → Except Fault (Int × Hashtable × Option Nat)
  | put key data alloc => (hshPut tbl key data alloc).map fun r => (r.status, r.table, r.freed)
  | search key => (hshSearch tbl key).map fun data => (Int.ofNat data, tbl, none)
  | remove key => (hshRemove tbl key).map fun r => (r.status, r.table, r.freed)
  | replace key newdata => (hshReplace tbl key newdata).map fun r => (r.status, r.table, r.freed)

end HshCall

/-- The answers of the calls, the table, and all data that was freed. -/
def hshRun : Hashtable → List HshCall → Except Fault (List Int × Hashtable × List Nat)
  | tbl, [] => .ok ([], tbl, [])
  | tbl, call :: calls => do
    let (answer, tbl, freed) ← call.run tbl
    let (answers, tbl, rest) ← hshRun tbl calls
    return (answer :: answers, tbl, freed.toList ++ rest)

/-! ### Calls on a map -/

namespace HshCall

variable (m : CStr → Option Nat)

def answer : HshCall → Int
  | put key _ alloc => if alloc = true ∧ (m key).isSome = true then -1 else 0
  | search key => (m key).getD 0
  | remove key | replace key _ => if (m key).isSome then 0 else -1

def next : HshCall → CStr → Option Nat
  | put key data alloc =>
    if alloc = true ∧ m key = none then Function.update m key (some data) else m
  | search _ => m
  | remove key => Function.update m key none
  | replace key newdata =>
    if (m key).isSome then Function.update m key (some newdata) else m

/-- The data that the table takes over, to be freed by it. -/
def given : HshCall → List Nat
  | put _ data alloc => if alloc = true ∧ data ≠ 0 then [data] else []
  | search _ | remove _ => []
  | replace _ newdata => if newdata ≠ 0 then [newdata] else []

/-- An insertion finds no other key in its bucket. -/
def Suits (size : UInt64) : HshCall → Prop
  | put key _ true => ∀ k, (m k).isSome = true → hshHash k % size = hshHash key % size → k = key
  | _ => True

end HshCall

/-- The answers of a map to the calls. -/
def mapAnswers : (CStr → Option Nat) → List HshCall → List Int
  | _, [] => []
  | m, call :: calls => call.answer m :: mapAnswers (call.next m) calls

def mapAfter (m : CStr → Option Nat) (calls : List HshCall) : CStr → Option Nat :=
  calls.foldl (fun m call => call.next m) m

def AllSuit (size : UInt64) : (CStr → Option Nat) → List HshCall → Prop
  | _, [] => True
  | m, call :: calls => call.Suits m size ∧ AllSuit size (call.next m) calls

/-! ### Tables with one node in a bucket -/

namespace Hashtable

/-- The data that the table has to free. -/
def owned (tbl : Hashtable) : List Nat :=
  (List.range tbl.size.toNat).flatMap fun i => (tbl.arr i).filterMap freeNode

structure Single (tbl : Hashtable) : Prop extends tbl.WellFormed where
  single : ∀ i < tbl.size.toNat, (tbl.arr i).length ≤ 1

variable {tbl : Hashtable} {key : CStr}

/-- What a table owns, with one of its chains apart. -/
lemma owned_setChain (tbl : Hashtable) {i : Nat} (hi : i < tbl.size.toNat) : ∃ others : List Nat,
    tbl.owned.Perm ((tbl.arr i).filterMap freeNode ++ others) ∧
    ∀ chain, (tbl.setChain i chain).owned.Perm (chain.filterMap freeNode ++ others) := by
  have hrange : (List.range tbl.size.toNat).Perm (i :: (List.range tbl.size.toNat).erase i) :=
    List.perm_cons_erase (List.mem_range.mpr hi)
  refine ⟨((List.range tbl.size.toNat).erase i).flatMap fun j => (tbl.arr j).filterMap freeNode,
    hrange.flatMap_right _, fun chain => ?_⟩
  have hself : (tbl.setChain i chain).arr i = chain := Function.update_self ..
  have hothers : (((List.range tbl.size.toNat).erase i).flatMap fun j =>
      ((tbl.setChain i chain).arr j).filterMap freeNode) =
      ((List.range tbl.size.toNat).erase i).flatMap fun j => (tbl.arr j).filterMap freeNode := by
    refine List.flatMap_congr fun j hj => ?_
    have hne : j ≠ i := (List.nodup_range.mem_erase_iff.mp hj).1
    exact congrArg (List.filterMap freeNode) (Function.update_of_ne hne ..)
  have hperm := hrange.flatMap_right fun j => ((tbl.setChain i chain).arr j).filterMap freeNode
  rw [List.flatMap_cons, hself, hothers] at hperm
  exact hperm

/-- The bucket of a key is empty, or has one node. -/
lemma Single.bucket (h : tbl.Single) (key : CStr) :
    tbl.arr (tbl.index key) = [] ∨ ∃ n, tbl.arr (tbl.index key) = [n] := by
  have hlen := h.single _ (index_lt h.pos key)
  match hchain : tbl.arr (tbl.index key) with
  | [] => exact .inl rfl
  | [n] => exact .inr ⟨n, rfl⟩
  | n :: m :: rest =>
    rw [hchain, List.length_cons, List.length_cons] at hlen
    omega

/-- A chain of at most one node, with the key of the bucket it is put into. -/
lemma Single.setChain (h : tbl.Single) {chain : List HshNode} (hlen : chain.length ≤ 1)
    (hkey : ∀ n ∈ chain, tbl.index n.key = tbl.index key) :
    (tbl.setChain (tbl.index key) chain).Single := by
  have hself : (tbl.setChain (tbl.index key) chain).arr (tbl.index key) = chain :=
    Function.update_self ..
  have hother : ∀ j, j ≠ tbl.index key → (tbl.setChain (tbl.index key) chain).arr j = tbl.arr j :=
    fun j hj => Function.update_of_ne hj ..
  refine ⟨⟨h.pos, fun j hj n hn => ?_, fun j hj => ?_⟩, fun j hj => ?_⟩
  · by_cases hji : j = tbl.index key
    · rw [hji, hself] at hn
      rw [hji]
      exact hkey n hn
    · rw [hother j hji] at hn
      exact h.placed j hj n hn
  · by_cases hji : j = tbl.index key
    · rw [hji, hself]
      match chain, hlen with
      | [], _ => exact List.nodup_nil
      | [n], _ => exact List.nodup_singleton _
    · rw [hother j hji]
      exact h.nodup j hj
  · by_cases hji : j = tbl.index key
    · rw [hji, hself]
      exact hlen
    · rw [hother j hji]
      exact h.single j hj

lemma index_eq_iff (tbl : Hashtable) (k key : CStr) :
    tbl.index k = tbl.index key ↔ hshHash k % tbl.size = hshHash key % tbl.size :=
  UInt64.toNat_inj

lemma lookup_empty (h : tbl.arr (tbl.index key) = []) : tbl.lookup key = none := by
  rw [lookup, h]
  rfl

lemma lookup_single {n : HshNode} (h : tbl.arr (tbl.index key) = [n]) :
    tbl.lookup key = if n.key = key then some n.data else none := by
  rw [lookup, h, chainData_cons]
  rfl

/-- With an empty bucket every insertion suits, with another key in it none does. -/
lemma Single.suits_iff (h : tbl.Single) (key : CStr) (data : Nat) :
    (HshCall.put key data true).Suits tbl.lookup tbl.size ↔
      ∀ n, tbl.arr (tbl.index key) = [n] → n.key = key := by
  constructor
  · intro hsuits n hn
    have hplaced := h.placed _ (index_lt h.pos key) n (by rw [hn]; exact List.mem_singleton_self n)
    refine hsuits n.key ?_ ((tbl.index_eq_iff n.key key).mp hplaced)
    rw [lookup_single (hplaced ▸ hn), if_pos rfl]
    rfl
  · intro hown k hk hindex
    have hindex := (tbl.index_eq_iff k key).mpr hindex
    rcases h.bucket k with hempty | ⟨n, hn⟩
    · rw [lookup_empty hempty] at hk
      cases hk
    · rw [lookup_single hn] at hk
      have hnk : n.key = k := by
        by_contra hne
        rw [if_neg hne] at hk
        cases hk
      exact hnk.symm.trans (hown n (hindex ▸ hn))

end Hashtable

/-! ### One call -/

/-- What one call does to a table with the map `m`. -/
structure HshCall.Done (call : HshCall) (tbl : Hashtable) (answer : Int) (tbl' : Hashtable)
    (freed : Option Nat) : Prop where
  answer : answer = call.answer tbl.lookup
  lookup : tbl'.lookup = call.next tbl.lookup
  size : tbl'.size = tbl.size
  single : tbl'.Single
  owned : (freed.toList ++ tbl'.owned).Perm (call.given ++ tbl.owned)

section Calls

variable {tbl : Hashtable} {key : CStr} {data : Nat}

lemma HshCall.Done.refl (h : tbl.Single) {call : HshCall} {answer : Int}
    (hanswer : answer = call.answer tbl.lookup) (hnext : call.next tbl.lookup = tbl.lookup)
    {freed : Option Nat} (hfreed : freed.toList = call.given) :
    call.Done tbl answer tbl freed :=
  ⟨hanswer, hnext.symm, rfl, h, by rw [hfreed]⟩

/-- A call that gives the bucket of its key another chain. -/
lemma HshCall.Done.setChain (h : tbl.Single) {call : HshCall} {chain : List HshNode}
    (hlen : chain.length ≤ 1) (hkey : ∀ n ∈ chain, n.key = key) {answer : Int}
    (hanswer : answer = call.answer tbl.lookup)
    (hother : ∀ k, k ≠ key → chainData k (tbl.arr (tbl.index key)) = none)
    (hnext : call.next tbl.lookup = Function.update tbl.lookup key (chainData key chain))
    {freed : Option Nat} (hfreed : (freed.toList ++ chain.filterMap freeNode).Perm
      (call.given ++ (tbl.arr (tbl.index key)).filterMap freeNode)) :
    call.Done tbl answer (tbl.setChain (tbl.index key) chain) freed := by
  refine ⟨hanswer, ?_, rfl, h.setChain hlen fun n hn => by rw [hkey n hn], ?_⟩
  · rw [hnext]
    refine Hashtable.lookup_setChain_update tbl key chain fun k hk => ?_
    rw [hother k hk]
    refine chainData_absent fun hmem => hk ?_
    obtain ⟨n, hn, rfl⟩ := List.mem_map.mp hmem
    exact hkey n hn
  · obtain ⟨others, howned, hset⟩ := tbl.owned_setChain (index_lt h.pos key)
    refine ((hset chain).append_left _).trans ?_
    rw [← List.append_assoc]
    refine (hfreed.append_right _).trans ?_
    rw [List.append_assoc]
    exact howned.symm.append_left _

lemma freeNode_toList (n : HshNode) :
    (freeNode n).toList = if n.data ≠ 0 then [n.data] else [] := by
  unfold freeNode
  by_cases hdata : n.data = 0 <;> simp [hdata]

lemma chainData_other {n : HshNode} {k : CStr} (hn : n.key = key) (hk : k ≠ key) :
    chainData k [n] = none := by
  rw [chainData_cons, if_neg fun hnk => hk (hnk.symm.trans hn)]
  rfl

lemma filterMap_single (n : HshNode) : [n].filterMap freeNode = (freeNode n).toList := by
  cases h : freeNode n <;> simp [h]

lemma put_done (h : tbl.Single) (hkey : key.length < KEY_LENGTH) (alloc : Bool)
    (hsuits : (HshCall.put key data alloc).Suits tbl.lookup tbl.size) :
    ∃ answer tbl' freed, (HshCall.put key data alloc).run tbl = .ok (answer, tbl', freed) ∧
      (HshCall.put key data alloc).Done tbl answer tbl' freed := by
  cases alloc with
  | false =>
    exact ⟨0, tbl, none, rfl, .refl h (by simp [HshCall.answer]) (by simp [HshCall.next]) rfl⟩
  | true =>
    rw [h.suits_iff] at hsuits
    unfold HshCall.run hshPut
    simp only [Bool.true_eq_false, if_false, hkey, dif_pos, h.pos]
    rcases h.bucket key with hempty | ⟨n, hn⟩
    · simp only [hempty]
      have hnone := Hashtable.lookup_empty hempty
      refine ⟨0, tbl.setChain (tbl.index key) [⟨key, data, hkey⟩], none, rfl,
        .setChain h (by simp) (by simp) ?_ ?_ ?_ ?_⟩
      · simp [HshCall.answer, hnone]
      · intro k _
        rw [hempty]
        rfl
      · rw [chainData_cons, if_pos rfl]
        simp [HshCall.next, hnone]
      · rw [hempty, filterMap_single, freeNode_toList]
        simp [HshCall.given]
    · have hown := hsuits n hn
      have hsome := Hashtable.lookup_single hn
      rw [if_pos hown] at hsome
      simp only [hn, putChain, if_pos hown, bind, Except.bind]
      refine ⟨-1, tbl, if data = 0 then none else some data, rfl, .refl h ?_ ?_ ?_⟩
      · simp [HshCall.answer, hsome]
      · simp [HshCall.next, hsome]
      · by_cases hdata : data = 0 <;> simp [HshCall.given, hdata]

lemma put_fault (h : tbl.Single) (hkey : key.length < KEY_LENGTH) {alloc : Bool}
    (hsuits : ¬(HshCall.put key data alloc).Suits tbl.lookup tbl.size) :
    (HshCall.put key data alloc).run tbl = .error .nullPointer := by
  cases alloc with
  | false => exact absurd trivial hsuits
  | true =>
    rw [h.suits_iff] at hsuits
    simp only [not_forall] at hsuits
    obtain ⟨n, hn, hne⟩ := hsuits
    unfold HshCall.run hshPut
    simp only [Bool.true_eq_false, if_false, hkey, dif_pos, h.pos, hn, putChain, if_neg hne]
    rfl

lemma search_done (h : tbl.Single) (key : CStr) :
    ∃ answer tbl' freed, (HshCall.search key).run tbl = .ok (answer, tbl', freed) ∧
      (HshCall.search key).Done tbl answer tbl' freed := by
  refine ⟨_, tbl, none, ?_, .refl h rfl rfl rfl⟩
  rw [HshCall.run, hshSearch, if_neg h.pos, searchChain_eq]
  rfl

lemma remove_done (h : tbl.Single) (key : CStr) :
    ∃ answer tbl' freed, (HshCall.remove key).run tbl = .ok (answer, tbl', freed) ∧
      (HshCall.remove key).Done tbl answer tbl' freed := by
  simp only [HshCall.run, hshRemove, if_neg h.pos]
  by_cases hpresent : tbl.Present key
  · rcases h.bucket key with hempty | ⟨n, hn⟩
    · rw [Hashtable.Present, hempty] at hpresent
      cases hpresent
    · have hown : n.key = key := by
        rw [Hashtable.Present, hn] at hpresent
        exact (List.mem_singleton.mp hpresent).symm
      have hsome := Hashtable.lookup_single hn
      rw [if_pos hown] at hsome
      simp only [hn, removeChain, if_pos hown]
      refine ⟨0, _, freeNode n, rfl, .setChain h (by simp) (by simp) ?_ ?_ rfl ?_⟩
      · simp [HshCall.answer, hsome]
      · intro k hk
        rw [hn]
        exact chainData_other hown hk
      · rw [hn, filterMap_single]
        simp [HshCall.given]
  · have hnone : tbl.lookup key = none := chainData_absent hpresent
    rw [removeChain_absent hpresent]
    refine ⟨-1, tbl, none, rfl, .refl h ?_ ?_ rfl⟩
    · simp [HshCall.answer, hnone]
    · change Function.update tbl.lookup key none = _
      rw [← hnone, Function.update_eq_self]

lemma replace_done (h : tbl.Single) (key : CStr) (newdata : Nat) :
    ∃ answer tbl' freed, (HshCall.replace key newdata).run tbl = .ok (answer, tbl', freed) ∧
      (HshCall.replace key newdata).Done tbl answer tbl' freed := by
  simp only [HshCall.run, hshReplace, if_neg h.pos]
  by_cases hpresent : tbl.Present key
  · rcases h.bucket key with hempty | ⟨n, hn⟩
    · rw [Hashtable.Present, hempty] at hpresent
      cases hpresent
    · have hown : n.key = key := by
        rw [Hashtable.Present, hn] at hpresent
        exact (List.mem_singleton.mp hpresent).symm
      have hsome := Hashtable.lookup_single hn
      rw [if_pos hown] at hsome
      simp only [hn, replaceChain, if_pos hown]
      refine ⟨0, _, freeNode n, rfl, .setChain h (by simp) (by simp [hown]) ?_ ?_ ?_ ?_⟩
      · simp [HshCall.answer, hsome]
      · intro k hk
        rw [hn]
        exact chainData_other hown hk
      · rw [chainData_cons, if_pos hown]
        simp [HshCall.next, hsome]
      · rw [hn, filterMap_single, filterMap_single, freeNode_toList, freeNode_toList]
        exact List.perm_append_comm
  · have hnone : tbl.lookup key = none := chainData_absent hpresent
    rw [replaceChain_absent hpresent]
    refine ⟨-1, tbl, if newdata = 0 then none else some newdata, rfl, .refl h ?_ ?_ ?_⟩
    · simp [HshCall.answer, hnone]
    · simp [HshCall.next, hnone]
    · by_cases hdata : newdata = 0 <;> simp [HshCall.given, hdata]

lemma HshCall.run_spec (h : tbl.Single) {call : HshCall} (hkey : call.key.length < KEY_LENGTH) :
    (call.Suits tbl.lookup tbl.size → ∃ answer tbl' freed,
      call.run tbl = .ok (answer, tbl', freed) ∧ call.Done tbl answer tbl' freed) ∧
    (¬call.Suits tbl.lookup tbl.size → call.run tbl = .error .nullPointer) := by
  cases call with
  | put key data alloc => exact ⟨put_done h hkey alloc, put_fault h hkey⟩
  | search key => exact ⟨fun _ => search_done h key, fun hsuits => absurd trivial hsuits⟩
  | remove key => exact ⟨fun _ => remove_done h key, fun hsuits => absurd trivial hsuits⟩
  | replace key newdata =>
    exact ⟨fun _ => replace_done h key newdata, fun hsuits => absurd trivial hsuits⟩

end Calls

/-! ### A whole life -/

lemma hshRun_spec (calls : List HshCall) : ∀ {tbl : Hashtable}, tbl.Single →
    (∀ call ∈ calls, call.key.length < KEY_LENGTH) →
    (AllSuit tbl.size tbl.lookup calls → ∃ tbl' freed,
      hshRun tbl calls = .ok (mapAnswers tbl.lookup calls, tbl', freed) ∧
      tbl'.lookup = mapAfter tbl.lookup calls ∧ tbl'.size = tbl.size ∧
      (freed ++ tbl'.owned).Perm (calls.flatMap HshCall.given ++ tbl.owned)) ∧
    (¬AllSuit tbl.size tbl.lookup calls → hshRun tbl calls = .error .nullPointer) := by
  induction calls with
  | nil => exact fun _ _ => ⟨fun _ => ⟨_, [], rfl, rfl, rfl, .refl _⟩, fun h => absurd trivial h⟩
  | cons call calls ih =>
    intro tbl h hkeys
    obtain ⟨hdone, hfault⟩ := HshCall.run_spec h (hkeys call List.mem_cons_self)
    have hrest : ∀ call ∈ calls, call.key.length < KEY_LENGTH :=
      fun c hc => hkeys c (List.mem_cons_of_mem _ hc)
    rw [hshRun]
    by_cases hsuits : call.Suits tbl.lookup tbl.size
    · obtain ⟨answer, tbl₁, freed, hrun, hone⟩ := hdone hsuits
      rw [hrun]
      simp only [bind, Except.bind]
      obtain ⟨hok, herror⟩ := ih hone.single hrest
      rw [hone.lookup, hone.size] at hok herror
      constructor
      · rintro ⟨-, hall⟩
        obtain ⟨tbl₂, more, hrun₂, hlookup, hsize, howned⟩ := hok hall
        rw [hrun₂]
        refine ⟨tbl₂, freed.toList ++ more, ?_, hlookup, hsize, ?_⟩
        · rw [hone.answer]
          rfl
        · rw [List.flatMap_cons, List.append_assoc, List.append_assoc]
          refine (howned.append_left _).trans ?_
          refine (List.perm_append_comm_assoc _ _ _).trans ?_
          refine (hone.owned.append_left _).trans ?_
          exact List.perm_append_comm_assoc _ _ _
      · intro hnot
        rw [herror fun hall => hnot ⟨hsuits, hall⟩]
    · rw [hfault hsuits]
      exact ⟨fun hall => absurd hall.1 hsuits, fun _ => rfl⟩

lemma hshInit_single {size : UInt64} (hpos : size ≠ 0) :
    (⟨size, fun _ => []⟩ : Hashtable).Single :=
  ⟨⟨hpos, by simp, by simp⟩, by simp⟩

/-- From `hsh_init` on the calls are answered as by a map, as long as no key is put into a
bucket that holds another one; at the first one that is, the program reads a null pointer.
After `hsh_destroy` all data that the table was given has been freed, once each. -/
theorem hashtable_life {size : UInt64} (hpos : size ≠ 0) (hsize : size.toNat < 2 ^ 31)
    {tbl : Hashtable} (hinit : hshInit size true true = .table tbl) {calls : List HshCall}
    (hkeys : ∀ call ∈ calls, call.key.length < KEY_LENGTH) :
    (AllSuit size (fun _ => none) calls → ∃ tbl' freed destroyed,
      hshRun tbl calls = .ok (mapAnswers (fun _ => none) calls, tbl', freed) ∧
      tbl'.lookup = mapAfter (fun _ => none) calls ∧ hshDestroy tbl' = .ok destroyed ∧
      (freed ++ destroyed).Perm (calls.flatMap HshCall.given)) ∧
    (¬AllSuit size (fun _ => none) calls → hshRun tbl calls = .error .nullPointer) := by
  cases hinit
  obtain ⟨hok, herror⟩ := hshRun_spec calls (hshInit_single hpos) hkeys
  refine ⟨fun hall => ?_, herror⟩
  obtain ⟨tbl', freed, hrun, hlookup, hsize', howned⟩ := hok hall
  refine ⟨tbl', freed, tbl'.owned, hrun, hlookup, ?_, ?_⟩
  · have hlt : ¬2 ^ 31 ≤ tbl'.size.toNat := by
      rw [hsize']
      exact Nat.not_le.mpr hsize
    rw [hshDestroy, if_neg hlt]
    rfl
  · have hnone : (⟨size, fun _ => []⟩ : Hashtable).owned = [] := by
      simp [Hashtable.owned]
    rwa [hnone, List.append_nil] at howned

/-- A second insertion of one key, and its replacement. -/
def oneKey : List HshCall :=
  [.put (cstr "Node1") 1 true, .put (cstr "Node1") 2 true, .replace (cstr "Node1") 3]

theorem hashtable_life_oneKey : ∃ tbl freed destroyed,
    hshRun ⟨203, fun _ => []⟩ oneKey = .ok ([0, -1, 0], tbl, freed) ∧
      tbl.lookup = mapAfter (fun _ => none) oneKey ∧ hshDestroy tbl = .ok destroyed ∧
      (freed ++ destroyed).Perm [1, 2, 3] := by
  have hall : AllSuit 203 (fun _ => none) oneKey := by
    refine ⟨fun k hk _ => ?_, fun k hk _ => ?_, trivial, trivial⟩
    · cases hk
    · by_contra hne
      rw [HshCall.next, if_pos ⟨rfl, rfl⟩, Function.update_of_ne hne] at hk
      cases hk
  exact (hashtable_life (by decide) (by decide) rfl (by decide)).1 hall

end Hfm

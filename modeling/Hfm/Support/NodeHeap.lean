import Mathlib.Data.List.Basic
import Mathlib.Data.List.Perm.Subperm
import Mathlib.Logic.Function.Basic

/-!
# Singly linked lists in a node heap

Nodes live in a heap and are reached through pointers; a list is known by the pointer to
its first node, and the empty list by the null pointer `none`. Appending keeps the head of
a nonempty list, removing may change it. A released node is no longer part of any list,
and keeps the link it had.
-/

namespace Hfm.Support

structure Node (α : Type) where
  data : α
  next : Option Nat
  live : Bool

/-- Nodes by address; addresses from `fresh` on have never been given out. -/
structure NodeHeap (α : Type) where
  node : Nat → Option (Node α)
  fresh : Nat

namespace NodeHeap

variable {α : Type}

def empty : NodeHeap α := ⟨fun _ => none, 0⟩

/-- The pointer `p` leads through these nodes, and to the end. -/
def Chain (h : NodeHeap α) : Option Nat → List (Nat × α) → Prop
  | p, [] => p = none
  | p, (n, x) :: cells => p = some n ∧ n < h.fresh ∧ n ∉ cells.map Prod.fst ∧
      ∃ q, h.node n = some ⟨x, q, true⟩ ∧ Chain h q cells

/-! ### Operations -/

def alloc (h : NodeHeap α) (x : α) : NodeHeap α :=
  ⟨Function.update h.node h.fresh (some ⟨x, none, true⟩), h.fresh + 1⟩

def setNext (h : NodeHeap α) (n : Nat) (q : Option Nat) : NodeHeap α :=
  { h with node := Function.update h.node n ((h.node n).map fun c => { c with next := q }) }

def release (h : NodeHeap α) (n : Nat) : NodeHeap α :=
  { h with node := Function.update h.node n ((h.node n).map fun c => { c with live := false }) }

/-- The last node of the list that starts at `n`. -/
def last (h : NodeHeap α) : Nat → Nat → Nat
  | 0, n => n
  | fuel + 1, n =>
    match (h.node n).bind Node.next with
    | none => n
    | some q => last h fuel q

/-- Appends a new node and returns the head of the list. -/
def append (h : NodeHeap α) (p : Option Nat) (x : α) : NodeHeap α × Option Nat :=
  match p with
  | none => (h.alloc x, some h.fresh)
  | some n => ((h.alloc x).setNext (h.last h.fresh n) (some h.fresh), some n)

/-- The first node holding `x`, with the node in front of it and the link behind it. -/
def find [DecidableEq α] (h : NodeHeap α) (x : α) :
    Nat → Option Nat → Option Nat → Option (Option Nat × Nat × Option Nat)
  | 0, _, _ => none
  | _ + 1, _, none => none
  | fuel + 1, prev, some n =>
    match h.node n with
    | none => none
    | some c => if c.data = x then some (prev, n, c.next) else find h x fuel (some n) c.next

/-- Unlinks and releases the first node holding `x`; returns the head of the list. -/
def remove [DecidableEq α] (h : NodeHeap α) (p : Option Nat) (x : α) : NodeHeap α × Option Nat :=
  match h.find x h.fresh none p with
  | none => (h, p)
  | some (none, n, q) => (h.release n, q)
  | some (some prev, n, q) => ((h.setNext prev q).release n, p)

/-- The data along a list. -/
def toList (h : NodeHeap α) : Nat → Option Nat → List α
  | 0, _ => []
  | _ + 1, none => []
  | fuel + 1, some n =>
    match h.node n with
    | none => []
    | some c => c.data :: toList h fuel c.next

/-- The data along the list at `p`; no list has more nodes than were ever allocated. -/
def read (h : NodeHeap α) (p : Option Nat) : List α := h.toList h.fresh p

/-! ### Chains -/

@[simp] lemma chain_nil (h : NodeHeap α) (p : Option Nat) : h.Chain p [] ↔ p = none := Iff.rfl

@[simp] lemma chain_cons (h : NodeHeap α) (p : Option Nat) (n : Nat) (x : α)
    (cells : List (Nat × α)) : h.Chain p ((n, x) :: cells) ↔
      p = some n ∧ n < h.fresh ∧ n ∉ cells.map Prod.fst ∧
        ∃ q, h.node n = some ⟨x, q, true⟩ ∧ h.Chain q cells := Iff.rfl

lemma Chain.nodup {h : NodeHeap α} {cells : List (Nat × α)} : ∀ {p}, h.Chain p cells →
    (cells.map Prod.fst).Nodup := by
  induction cells with
  | nil => simp
  | cons c cells ih =>
    rintro p ⟨-, -, hn, q, -, hq⟩
    exact List.nodup_cons.mpr ⟨hn, ih hq⟩

lemma Chain.lt_fresh {h : NodeHeap α} {cells : List (Nat × α)} : ∀ {p}, h.Chain p cells →
    ∀ n ∈ cells.map Prod.fst, n < h.fresh := by
  induction cells with
  | nil => simp
  | cons c cells ih =>
    rintro p ⟨-, hlt, -, q, -, hq⟩ n hn
    rcases List.mem_cons.mp hn with rfl | hn
    · exact hlt
    · exact ih hq n hn

lemma Chain.length_le {h : NodeHeap α} {p : Option Nat} {cells : List (Nat × α)}
    (hc : h.Chain p cells) : cells.length ≤ h.fresh := by
  have hsub : cells.map Prod.fst ⊆ List.range h.fresh :=
    fun n hn => List.mem_range.mpr (hc.lt_fresh n hn)
  simpa using (List.subperm_of_subset hc.nodup hsub).length_le

/-- A list is untouched by changes to other nodes. -/
lemma Chain.congr {h : NodeHeap α} (h' : NodeHeap α) {cells : List (Nat × α)}
    (hfresh : h.fresh ≤ h'.fresh) : ∀ {p}, (∀ n ∈ cells.map Prod.fst, h'.node n = h.node n) →
      h.Chain p cells → h'.Chain p cells := by
  induction cells with
  | nil => exact fun _ hc => hc
  | cons c cells ih =>
    rintro p hsame ⟨hp, hlt, hn, q, hq, hrest⟩
    refine ⟨hp, by omega, hn, q, ?_, ih (fun n hn => hsame n (List.mem_cons_of_mem _ hn)) hrest⟩
    rw [hsame c.1 List.mem_cons_self, hq]

lemma Chain.toList {h : NodeHeap α} {cells : List (Nat × α)} : ∀ {p fuel}, h.Chain p cells →
    cells.length ≤ fuel → h.toList fuel p = cells.map Prod.snd := by
  induction cells with
  | nil =>
    rintro p fuel rfl -
    cases fuel <;> rfl
  | cons c cells ih =>
    rintro p fuel ⟨rfl, -, -, q, hq, hrest⟩ hfuel
    obtain ⟨fuel, rfl⟩ : ∃ k, fuel = k + 1 := ⟨fuel - 1, by simp at hfuel; omega⟩
    rw [NodeHeap.toList, hq]
    simp only [List.map_cons]
    rw [ih hrest (by simpa using hfuel)]

lemma Chain.read {h : NodeHeap α} {p : Option Nat} {cells : List (Nat × α)}
    (hc : h.Chain p cells) : h.read p = cells.map Prod.snd :=
  hc.toList hc.length_le

/-- The pointer to the first of some nodes. -/
def ptr (cells : List (Nat × α)) : Option Nat := cells.head?.map Prod.fst

lemma Chain.eq_ptr {h : NodeHeap α} {p : Option Nat} {cells : List (Nat × α)}
    (hc : h.Chain p cells) : p = ptr cells := by
  cases cells with
  | nil => exact hc
  | cons c cells => exact hc.1

/-- The pointer in the middle of a list leads through the rest of it. -/
lemma Chain.suffix {h : NodeHeap α} {front back : List (Nat × α)} : ∀ {p},
    h.Chain p (front ++ back) → h.Chain (ptr back) back := by
  induction front with
  | nil =>
    intro p hc
    rw [List.nil_append] at hc
    rw [← hc.eq_ptr]
    exact hc
  | cons c front ih =>
    rintro p ⟨-, -, -, q, -, hrest⟩
    exact ih hrest

lemma Chain.node {h : NodeHeap α} {front back : List (Nat × α)} {n : Nat} {x : α} {p : Option Nat}
    (hc : h.Chain p (front ++ (n, x) :: back)) : h.node n = some ⟨x, ptr back, true⟩ := by
  obtain ⟨-, -, -, q, hq, hrest⟩ := hc.suffix
  rw [hq, hrest.eq_ptr]

/-! ### Appending -/

lemma chain_alloc (h : NodeHeap α) (x : α) : (h.alloc x).Chain (some h.fresh) [(h.fresh, x)] := by
  simp [alloc]

lemma Chain.last {h : NodeHeap α} {cells : List (Nat × α)} : ∀ {n x fuel},
    h.Chain (some n) ((n, x) :: cells) → cells.length < fuel →
    h.last fuel n = (((n, x) :: cells).getLast (List.cons_ne_nil _ _)).1 := by
  induction cells with
  | nil =>
    rintro n x fuel ⟨-, -, -, q, hq, rfl⟩ hfuel
    obtain ⟨fuel, rfl⟩ : ∃ k, fuel = k + 1 := ⟨fuel - 1, by omega⟩
    simp [NodeHeap.last, hq]
  | cons c cells ih =>
    rintro n x fuel ⟨-, -, -, q, hq, hrest⟩ hfuel
    obtain ⟨fuel, rfl⟩ : ∃ k, fuel = k + 1 := ⟨fuel - 1, by omega⟩
    obtain ⟨m, y⟩ := c
    have hqm : q = some m := hrest.1
    subst hqm
    rw [NodeHeap.last, hq]
    simp only [Option.bind_some, List.getLast_cons_cons]
    exact ih hrest (by simpa using hfuel)

/-- Linking a node behind the last one of a list. -/
lemma Chain.snoc {h : NodeHeap α} {cells : List (Nat × α)} {k : Nat} {y : α}
    (hk : h.Chain (some k) [(k, y)]) : ∀ {p} (hne : cells ≠ []), h.Chain p cells →
    k ∉ cells.map Prod.fst →
    (h.setNext (cells.getLast hne).1 (some k)).Chain p (cells ++ [(k, y)]) := by
  induction cells with
  | nil => exact fun hne => absurd rfl hne
  | cons c cells ih =>
    rintro p - ⟨rfl, hlt, hn, q, hq, hrest⟩ hkc
    obtain ⟨-, hkf, -, q', hkn, rfl⟩ := hk
    have hne : k ≠ c.1 := fun h => hkc (by simp [h])
    cases cells with
    | nil =>
      refine ⟨rfl, hlt, by simpa using hne.symm, some k, ?_, rfl, hkf, by simp, none, ?_, rfl⟩
      · simp [setNext, hq]
      · simpa [setNext, Function.update_of_ne hne] using hkn
    | cons d cells =>
      have hkd : k ∉ (d :: cells).map Prod.fst := fun h => hkc (List.mem_cons_of_mem _ h)
      have hlast : ((d :: cells).getLast (List.cons_ne_nil _ _)).1 ∈ (d :: cells).map Prod.fst :=
        List.mem_map_of_mem (List.getLast_mem _)
      have hn' : c.1 ∉ (d :: cells ++ [(k, y)]).map Prod.fst := by
        rw [List.map_append, List.mem_append, not_or]
        exact ⟨hn, by simpa using hne.symm⟩
      refine ⟨rfl, hlt, hn', q, ?_, ?_⟩
      · rw [List.getLast_cons_cons]
        have : c.1 ≠ ((d :: cells).getLast (List.cons_ne_nil _ _)).1 := fun he => hn (he ▸ hlast)
        simpa [setNext, Function.update_of_ne this] using hq
      · rw [List.getLast_cons_cons]
        exact ih (List.cons_ne_nil _ _) hrest hkd

lemma Chain.append {h : NodeHeap α} {p : Option Nat} {cells : List (Nat × α)}
    (hc : h.Chain p cells) (x : α) :
    (h.append p x).1.Chain (h.append p x).2 (cells ++ [(h.fresh, x)]) := by
  cases cells with
  | nil =>
    obtain rfl : p = none := hc
    exact h.chain_alloc x
  | cons c cells =>
    obtain ⟨n, y⟩ := c
    obtain rfl : p = some n := hc.1
    have hlen : cells.length < h.fresh := hc.length_le
    have hnew : h.fresh ∉ ((n, y) :: cells).map Prod.fst :=
      fun hmem => absurd (hc.lt_fresh _ hmem) (Nat.lt_irrefl _)
    have hc' : (h.alloc x).Chain (some n) ((n, y) :: cells) := by
      refine hc.congr _ (Nat.le_succ h.fresh) fun k hk => ?_
      exact Function.update_of_ne (fun he : k = h.fresh => hnew (he ▸ hk)) _ _
    have := Chain.snoc (h.chain_alloc x) (List.cons_ne_nil _ _) hc' hnew
    simpa only [NodeHeap.append, hc.last hlen] using this

lemma append_fresh (h : NodeHeap α) (p : Option Nat) (x : α) :
    (h.append p x).1.fresh = h.fresh + 1 := by
  cases p <;> rfl

/-- Appending to a nonempty list keeps its head. -/
lemma append_some (h : NodeHeap α) (n : Nat) (x : α) : (h.append (some n) x).2 = some n := rfl

lemma Chain.append_frame {h : NodeHeap α} {p : Option Nat} {cells : List (Nat × α)}
    (hc : h.Chain p cells) (x : α) {k : Nat} (hk : k ∉ cells.map Prod.fst) (hne : k ≠ h.fresh) :
    (h.append p x).1.node k = h.node k := by
  cases cells with
  | nil =>
    obtain rfl : p = none := hc
    exact Function.update_of_ne hne _ _
  | cons c cells =>
    obtain ⟨n, y⟩ := c
    obtain rfl : p = some n := hc.1
    have hlast : (((n, y) :: cells).getLast (List.cons_ne_nil _ _)).1 ∈
        ((n, y) :: cells).map Prod.fst := List.mem_map_of_mem (List.getLast_mem _)
    have hkl : k ≠ (((n, y) :: cells).getLast (List.cons_ne_nil _ _)).1 := fun he => hk (he ▸ hlast)
    have hlen : cells.length < h.fresh := hc.length_le
    simp only [NodeHeap.append, hc.last hlen, setNext, alloc]
    rw [Function.update_of_ne hkl, Function.update_of_ne hne]

/-! ### Removing -/

/-- Linking the last node of the front part to the back part. -/
lemma Chain.bypass {h : NodeHeap α} {front back mid : List (Nat × α)} {q : Option Nat}
    (hback : h.Chain q back) : ∀ {p} (hne : front ≠ []), h.Chain p (front ++ mid ++ back) →
    (h.setNext (front.getLast hne).1 q).Chain p (front ++ back) := by
  induction front with
  | nil => exact fun hne => absurd rfl hne
  | cons c front ih =>
    rintro p - ⟨rfl, hlt, hn, r, hr, hrest⟩
    have hn' : c.1 ∉ (front ++ back).map Prod.fst := by
      have hsub : front ++ back ⊆ front ++ mid ++ back := by simp
      exact fun hmem => hn (List.map_subset _ hsub hmem)
    cases front with
    | nil =>
      refine ⟨rfl, hlt, hn', q, by simp [setNext, hr],
        hback.congr (h.setNext c.1 q) (Nat.le_refl h.fresh) fun k hk => ?_⟩
      have : k ≠ c.1 := fun he => hn' (by simpa [he] using hk)
      simp [setNext, Function.update_of_ne this]
    | cons d front =>
      have hlast : ((d :: front).getLast (List.cons_ne_nil _ _)).1 ∈
          ((d :: front) ++ back).map Prod.fst :=
        List.mem_map_of_mem (List.mem_append_left _ (List.getLast_mem _))
      refine ⟨rfl, hlt, hn', r, ?_, ?_⟩
      · rw [List.getLast_cons_cons]
        have : c.1 ≠ ((d :: front).getLast (List.cons_ne_nil _ _)).1 := fun he => hn' (he ▸ hlast)
        simpa [setNext, Function.update_of_ne this] using hr
      · rw [List.getLast_cons_cons]
        exact ih (List.cons_ne_nil _ _) hrest

lemma Chain.release {h : NodeHeap α} {p : Option Nat} {cells : List (Nat × α)} {n : Nat}
    (hc : h.Chain p cells) (hn : n ∉ cells.map Prod.fst) : (h.release n).Chain p cells := by
  refine hc.congr (h.release n) (Nat.le_refl h.fresh) fun k hk => ?_
  exact Function.update_of_ne (fun he : k = n => hn (he ▸ hk)) _ _

section Remove

variable [DecidableEq α] (x : α)

/-- Removing from the part of a list behind `prev`. -/
lemma Chain.find {h : NodeHeap α} {cells : List (Nat × α)} : ∀ {p fuel} (prev : Option Nat),
    h.Chain p cells → cells.length ≤ fuel →
    match h.find x fuel prev p with
    | none => ∀ c ∈ cells, c.2 ≠ x
    | some (prev', n, q) => ∃ front back, cells = front ++ (n, x) :: back ∧
        (∀ c ∈ front, c.2 ≠ x) ∧ h.Chain q back ∧
        (front = [] → prev' = prev) ∧
        (∀ hne : front ≠ [], prev' = some (front.getLast hne).1) := by
  induction cells with
  | nil =>
    rintro p fuel prev rfl -
    cases fuel <;> simp [NodeHeap.find]
  | cons c cells ih =>
    obtain ⟨m, y⟩ := c
    rintro p fuel prev ⟨rfl, -, -, q, hq, hrest⟩ hfuel
    obtain ⟨fuel, rfl⟩ : ∃ k, fuel = k + 1 := ⟨fuel - 1, by simp at hfuel; omega⟩
    rw [NodeHeap.find, hq]
    by_cases hy : y = x
    · subst hy
      simp only [if_true]
      exact ⟨[], cells, rfl, by simp, hrest, fun _ => trivial, fun hne => absurd rfl hne⟩
    · simp only [if_neg hy]
      have := ih (some m) hrest (by simpa using hfuel : cells.length ≤ fuel)
      split at this
      · rename_i hf
        intro c hc
        rcases List.mem_cons.mp hc with rfl | hc
        · exact hy
        · exact this c hc
      · rename_i prev' n r hf
        obtain ⟨front, back, hcells, hfront, hback, hnil, hlast⟩ := this
        refine ⟨(m, y) :: front, back, by rw [hcells]; rfl, ?_, hback, by simp, fun _ => ?_⟩
        · intro c hc
          rcases List.mem_cons.mp hc with rfl | hc
          · exact hy
          · exact hfront c hc
        · by_cases hfr : front = []
          · subst hfr
            exact hnil rfl
          · rw [List.getLast_cons hfr]
            exact hlast hfr

lemma eraseP_of_first {front back : List (Nat × α)} {n : Nat} (hfront : ∀ c ∈ front, c.2 ≠ x) :
    (front ++ (n, x) :: back).eraseP (fun c => c.2 = x) = front ++ back := by
  rw [List.eraseP_append_right _ (by simpa using hfront)]
  simp

lemma Chain.remove {h : NodeHeap α} {p : Option Nat} {cells : List (Nat × α)}
    (hc : h.Chain p cells) :
    (h.remove p x).1.Chain (h.remove p x).2 (cells.eraseP (fun c => c.2 = x)) ∧
      (h.remove p x).1.fresh = h.fresh ∧
      ∀ k, k ∉ cells.map Prod.fst → (h.remove p x).1.node k = h.node k := by
  have hfind := hc.find x none hc.length_le
  unfold NodeHeap.remove
  split at hfind
  · rename_i hf
    rw [hf, List.eraseP_of_forall_not (by simpa using hfind)]
    exact ⟨hc, rfl, fun _ _ => rfl⟩
  · rename_i prev n q hf
    obtain ⟨front, back, rfl, hfront, hback, hnil, hlast⟩ := hfind
    rw [hf, eraseP_of_first x hfront]
    have hnodup := hc.nodup
    simp only [List.map_append, List.map_cons, List.nodup_append, List.nodup_cons] at hnodup
    have hn : n ∉ (front ++ back).map Prod.fst := by
      simp only [List.map_append, List.mem_append, not_or]
      exact ⟨fun hmem => hnodup.2.2 _ hmem n List.mem_cons_self rfl, hnodup.2.1.1⟩
    by_cases hfr : front = []
    · subst hfr
      obtain rfl := hnil rfl
      refine ⟨hback.release (by simpa using hn), rfl, fun k hk => ?_⟩
      have : k ≠ n := fun he => hk (by simp [he])
      exact Function.update_of_ne this _ _
    · obtain rfl := hlast hfr
      have hc' : h.Chain p (front ++ [(n, x)] ++ back) := by simpa using hc
      refine ⟨(Chain.bypass hback hfr hc').release hn, rfl, fun k hk => ?_⟩
      have hkn : k ≠ n := fun he => hk (by simp [he])
      have hkl : k ≠ (front.getLast hfr).1 := fun he => hk (by
        rw [he]
        exact List.mem_map_of_mem (List.mem_append_left _ (List.getLast_mem _)))
      simp only [NodeHeap.release, setNext]
      rw [Function.update_of_ne hkn, Function.update_of_ne hkl]

omit [DecidableEq α] in
lemma first_unique {front back back' : List (Nat × α)} {n n' : Nat}
    (hfront : ∀ c ∈ front, c.2 ≠ x) : ∀ {front' : List (Nat × α)}, (∀ c ∈ front', c.2 ≠ x) →
    front ++ (n, x) :: back = front' ++ (n', x) :: back' → n = n' ∧ back = back' ∧ front = front' := by
  induction front with
  | nil =>
    intro front' hfront' heq
    cases front' with
    | nil =>
      simp only [List.nil_append, List.cons.injEq, Prod.mk.injEq, and_true] at heq
      exact ⟨heq.1, heq.2, rfl⟩
    | cons c front' =>
      simp only [List.nil_append, List.cons_append, List.cons.injEq] at heq
      exact absurd (heq.1 ▸ rfl) (hfront' c List.mem_cons_self)
  | cons c front ih =>
    intro front' hfront' heq
    cases front' with
    | nil =>
      simp only [List.nil_append, List.cons_append, List.cons.injEq] at heq
      exact absurd (heq.1 ▸ rfl) (hfront c List.mem_cons_self)
    | cons d front' =>
      simp only [List.cons_append, List.cons.injEq] at heq
      obtain ⟨rfl, heq⟩ := heq
      obtain ⟨hn, hback, hrest⟩ := ih (fun c hc => hfront c (List.mem_cons_of_mem _ hc))
        (fun c hc => hfront' c (List.mem_cons_of_mem _ hc)) heq
      exact ⟨hn, hback, by rw [hrest]⟩

/-- The removed node still leads to the node that was behind it. -/
lemma Chain.remove_link {h : NodeHeap α} {p : Option Nat} {front back : List (Nat × α)} {n : Nat}
    (hc : h.Chain p (front ++ (n, x) :: back)) (hfront : ∀ c ∈ front, c.2 ≠ x) :
    (h.remove p x).1.node n = some ⟨x, ptr back, false⟩ := by
  have hnode := hc.node
  have hfind := hc.find x none hc.length_le
  unfold NodeHeap.remove
  split at hfind
  · exact absurd rfl (hfind (n, x) (by simp))
  · rename_i prev n' q hf
    obtain ⟨front', back', heq, hfront', -, hnil, hlast⟩ := hfind
    obtain ⟨rfl, rfl, rfl⟩ := first_unique x hfront hfront' heq
    rw [hf]
    by_cases hfr : front = []
    · obtain rfl := hnil hfr
      simp [NodeHeap.release, hnode]
    · obtain rfl := hlast hfr
      have hnodup := hc.nodup
      simp only [List.map_append, List.map_cons, List.nodup_append] at hnodup
      have hne : n ≠ (front.getLast hfr).1 := by
        have hmem : (front.getLast hfr).1 ∈ front.map Prod.fst :=
          List.mem_map_of_mem (List.getLast_mem _)
        exact fun he => hnodup.2.2 _ hmem n List.mem_cons_self he.symm
      simp [NodeHeap.release, setNext, Function.update_of_ne hne, hnode]

end Remove

/-! ### Families of lists -/

/-- Lists that share a heap and no node, one for each key. -/
structure Family {ι : Type} (h : NodeHeap α) (head : ι → Option Nat)
    (cells : ι → List (Nat × α)) : Prop where
  chain : ∀ k, h.Chain (head k) (cells k)
  apart : ∀ k k' n, n ∈ (cells k).map Prod.fst → n ∈ (cells k').map Prod.fst → k = k'

namespace Family

variable {ι : Type} [DecidableEq ι] {h : NodeHeap α} {head : ι → Option Nat}
  {cells : ι → List (Nat × α)}

omit [DecidableEq ι] in
lemma read (hf : Family h head cells) (k : ι) : h.read (head k) = (cells k).map Prod.snd :=
  (hf.chain k).read

lemma append (hf : Family h head cells) (k : ι) (x : α) :
    Family (h.append (head k) x).1 (Function.update head k (h.append (head k) x).2)
      (Function.update cells k (cells k ++ [(h.fresh, x)])) := by
  have hnew : ∀ k', h.fresh ∉ (cells k').map Prod.fst :=
    fun k' hmem => absurd ((hf.chain k').lt_fresh _ hmem) (Nat.lt_irrefl _)
  have hcase : ∀ k' n, n ∈ (Function.update cells k (cells k ++ [(h.fresh, x)]) k').map Prod.fst →
      n ∈ (cells k').map Prod.fst ∨ n = h.fresh ∧ k' = k := by
    intro k' n hn
    by_cases hk : k' = k
    · subst hk
      simpa using hn
    · rw [Function.update_of_ne hk] at hn
      exact .inl hn
  refine ⟨fun k' => ?_, fun k₁ k₂ n h₁ h₂ => ?_⟩
  · by_cases hk : k' = k
    · subst hk
      simpa using (hf.chain k').append x
    · rw [Function.update_of_ne hk, Function.update_of_ne hk]
      refine (hf.chain k').congr _ (by rw [append_fresh]; omega) fun n hn => ?_
      refine (hf.chain k).append_frame x (fun hn' => hk (hf.apart _ _ _ hn hn')) fun he => ?_
      exact hnew k' (he ▸ hn)
  · rcases hcase k₁ n h₁ with h₁ | ⟨he₁, hk₁⟩
    · rcases hcase k₂ n h₂ with h₂ | ⟨he₂, -⟩
      · exact hf.apart _ _ _ h₁ h₂
      · exact absurd (he₂ ▸ h₁) (hnew k₁)
    · rcases hcase k₂ n h₂ with h₂ | ⟨-, hk₂⟩
      · exact absurd (he₁ ▸ h₂) (hnew k₂)
      · exact hk₁.trans hk₂.symm

lemma remove [DecidableEq α] (hf : Family h head cells) (k : ι) (x : α) :
    Family (h.remove (head k) x).1 (Function.update head k (h.remove (head k) x).2)
      (Function.update cells k ((cells k).eraseP (fun c => c.2 = x))) := by
  obtain ⟨hchain, hfresh, hframe⟩ := (hf.chain k).remove x
  have hsub : ∀ k', (Function.update cells k ((cells k).eraseP (fun c => c.2 = x)) k').map Prod.fst ⊆
      (cells k').map Prod.fst := by
    intro k'
    by_cases hk : k' = k
    · subst hk
      rw [Function.update_self]
      exact List.map_subset _ List.eraseP_subset
    · rw [Function.update_of_ne hk]
      exact List.Subset.refl _
  refine ⟨fun k' => ?_, fun k₁ k₂ n h₁ h₂ => hf.apart _ _ _ (hsub k₁ h₁) (hsub k₂ h₂)⟩
  by_cases hk : k' = k
  · subst hk
    simpa using hchain
  · rw [Function.update_of_ne hk, Function.update_of_ne hk]
    refine (hf.chain k').congr _ (Nat.le_of_eq hfresh.symm) fun n hn => ?_
    exact hframe n fun hn' => hk (hf.apart _ _ _ hn hn')

end Family

end NodeHeap

end Hfm.Support

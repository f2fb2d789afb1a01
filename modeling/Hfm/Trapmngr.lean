import Hfm.Basic
import Hfm.Support.NodeHeap

/-!
# The trap manager

`src/trapmngr.c`: breakpoints are kept in a table by physical address and, in parallel, in
a table by frame. The first maps an address to a wrapper that owns the list of its traps,
the second maps a frame to the bare head of the list of its traps.
-/

namespace Hfm

open Support

def PAGE_OFFSET_BITS : Nat := 12
def PAGESIZE : Nat := 4096

/-- `trap_t`, generic in the callbacks and in the data an entry callback hands to its
return callback. A pointer to a trap is the trap together with its own address: nothing in
a trap changes after it was filled in. -/
structure Trap (κ ε : Type) where
  addr : Nat
  name : CStr
  cb : Option κ
  retCb : Option κ
  pa : Nat
  selfDestroy : Bool
  extra : Option ε
  deriving DecidableEq

/-- The frame a trap lies in. -/
def Trap.gfn {κ ε : Type} (trap : Trap κ ε) : Nat := trap.pa >>> PAGE_OFFSET_BITS

structure Int3Wrapper where
  pa : Nat
  doubletrap : UInt8
  traps : Option Nat
  deriving DecidableEq

structure Remapped where
  o : Nat
  r : Nat
  deriving DecidableEq

/-- `memtrap_t` has no members. -/
structure Memtrap where
  deriving DecidableEq

/-- `struct _trapmngr_t`. The list nodes of both breakpoint tables live in `nodes`. -/
structure Trapmngr (κ ε : Type) where
  remappedTbl : GHashTable Nat Remapped
  breakpointTbl : GHashTable Nat Int3Wrapper
  breakpointGfnTbl : GHashTable Nat (Option Nat)
  memaccessTbl : GHashTable Nat Memtrap
  nodes : NodeHeap (Trap κ ε)

variable {κ ε : Type}

def tmInit : Trapmngr κ ε := ⟨∅, ∅, ∅, ∅, .empty⟩

def tmAddRemapped (tm : Trapmngr κ ε) (r : Remapped) : Trapmngr κ ε :=
  { tm with remappedTbl := tm.remappedTbl.insert r.o r }

def tmFindRemapped (tm : Trapmngr κ ε) (original : Nat) : Option Remapped :=
  tm.remappedTbl.lookup original

def tmFindMemtrap (tm : Trapmngr κ ε) (gfn : Nat) : Option Memtrap :=
  tm.memaccessTbl.lookup gfn

def tmAddMemtrap (tm : Trapmngr κ ε) (gfn : Nat) (wrapper : Memtrap) : Trapmngr κ ε :=
  { tm with memaccessTbl := tm.memaccessTbl.insert gfn wrapper }

def tmInt3trapsAtPa (tm : Trapmngr κ ε) (pa : Nat) : Option Nat :=
  (tm.breakpointTbl.lookup pa).bind Int3Wrapper.traps

def tmInt3trapsAtGfn (tm : Trapmngr κ ε) (gfn : Nat) : Option Nat :=
  (tm.breakpointGfnTbl.lookup gfn).join

def tmTrapExist (tm : Trapmngr κ ε) (pa : Nat) : Bool :=
  (tm.breakpointTbl.lookup pa).isSome

def tmCheckDoubletrap (tm : Trapmngr κ ε) (pa : Nat) : Except Fault UInt8 :=
  match tm.breakpointTbl.lookup pa with
  | none => .error .nullPointer
  | some w => .ok w.doubletrap

def tmSetDoubletrap (tm : Trapmngr κ ε) (pa : Nat) (doubletrap : UInt8) :
    Except Fault (Trapmngr κ ε) :=
  match tm.breakpointTbl.lookup pa with
  | none => .error .nullPointer
  | some w => .ok { tm with breakpointTbl := tm.breakpointTbl.insert pa { w with doubletrap } }

/-- The wrapper at `pa`, or the one `tm_add_int3trap` creates. -/
def wrapperAt (tm : Trapmngr κ ε) (pa : Nat) : Int3Wrapper :=
  (tm.breakpointTbl.lookup pa).getD ⟨pa, 0, none⟩

def tmAddInt3trap (tm : Trapmngr κ ε) (trap : Trap κ ε) : Trapmngr κ ε :=
  let w := wrapperAt tm trap.pa
  let (nodes, traps) := tm.nodes.append w.traps trap
  let breakpointTbl := tm.breakpointTbl.insert trap.pa { w with traps }
  match tmInt3trapsAtGfn tm trap.gfn with
  | none =>
    let (nodes, head) := nodes.append none trap
    { tm with
      breakpointTbl, nodes, breakpointGfnTbl := tm.breakpointGfnTbl.insert trap.gfn head }
  | some head =>
    -- the table keeps the head it has: appending does not move it
    { tm with breakpointTbl, nodes := (nodes.append (some head) trap).1 }

/-- The number of traps left at the address of `trap`, and the manager without it. -/
def tmRemoveInt3trap [DecidableEq κ] [DecidableEq ε] (tm : Trapmngr κ ε) (trap : Trap κ ε) :
    Nat × Trapmngr κ ε :=
  match tm.breakpointTbl.lookup trap.pa with
  | none => (0, tm)
  | some w =>
    let (nodes, traps) := tm.nodes.remove w.traps trap
    let trapno := (nodes.read traps).length
    let breakpointTbl :=
      if trapno = 0 then tm.breakpointTbl.erase trap.pa
      else tm.breakpointTbl.insert trap.pa { w with traps }
    let (nodes, head) := nodes.remove (tmInt3trapsAtGfn tm trap.gfn) trap
    let breakpointGfnTbl :=
      match head with
      | none => tm.breakpointGfnTbl.erase trap.gfn
      | some n => (tm.breakpointGfnTbl.erase trap.gfn).insert trap.gfn (some n)
    (trapno, { tm with breakpointTbl, breakpointGfnTbl, nodes })

/-! ### Registered traps -/

/-- The traps a list of the manager holds. -/
def Trapmngr.traps (tm : Trapmngr κ ε) (head : Option Nat) : List (Trap κ ε) :=
  tm.nodes.read head

/-- The head of every list: by address on the left, by frame on the right. -/
def Trapmngr.head (tm : Trapmngr κ ε) : Nat ⊕ Nat → Option Nat
  | .inl pa => tmInt3trapsAtPa tm pa
  | .inr gfn => tmInt3trapsAtGfn tm gfn

/-- The list a trap belongs in. -/
def belongs (t : Trap κ ε) : Nat ⊕ Nat → Bool
  | .inl pa => t.pa = pa
  | .inr gfn => t.gfn = gfn

/-- Both tables hold the traps of `reg`, in its order and with its multiplicities. -/
structure IndexedBy (tm : Trapmngr κ ε) (reg : List (Trap κ ε))
    (cells : Nat ⊕ Nat → List (Nat × Trap κ ε)) : Prop where
  lists : NodeHeap.Family tm.nodes tm.head cells
  traps : ∀ k, (cells k).map Prod.snd = reg.filter (belongs · k)
  wrapper : ∀ pa, tmTrapExist tm pa = true ↔ cells (.inl pa) ≠ []

def Indexed (tm : Trapmngr κ ε) (reg : List (Trap κ ε)) : Prop := ∃ cells, IndexedBy tm reg cells

lemma indexed_tmInit : Indexed (tmInit : Trapmngr κ ε) [] := by
  refine ⟨fun _ => [], ⟨?_, ?_⟩, fun _ => rfl, fun pa => ?_⟩
  · intro k
    cases k <;> rfl
  · simp
  · simp [tmTrapExist, tmInit]

lemma Indexed.traps_head {tm : Trapmngr κ ε} {reg : List (Trap κ ε)} (h : Indexed tm reg)
    (k : Nat ⊕ Nat) : tm.traps (tm.head k) = reg.filter (belongs · k) := by
  obtain ⟨cells, hl, ht, -⟩ := h
  rw [← ht k]
  exact hl.read k

lemma Indexed.trapExist {tm : Trapmngr κ ε} {reg : List (Trap κ ε)} (h : Indexed tm reg) (pa : Nat) :
    tmTrapExist tm pa = true ↔ ∃ t ∈ reg, t.pa = pa := by
  obtain ⟨cells, -, ht, hw⟩ := h
  have hnil : cells (.inl pa) = [] ↔ reg.filter (belongs · (.inl pa)) = [] := by
    rw [← ht, List.map_eq_nil_iff]
  rw [hw pa, ne_eq, hnil, List.filter_eq_nil_iff]
  simp [belongs]

lemma Indexed.trapExist_iff_traps {tm : Trapmngr κ ε} {reg : List (Trap κ ε)} (h : Indexed tm reg)
    (pa : Nat) : tmTrapExist tm pa = true ↔ tm.traps (tmInt3trapsAtPa tm pa) ≠ [] := by
  have := h.traps_head (.inl pa)
  simp only [Trapmngr.head] at this
  rw [h.trapExist, this, ne_eq, List.filter_eq_nil_iff]
  simp [belongs]

lemma wrapperAt_traps (tm : Trapmngr κ ε) (pa : Nat) :
    (wrapperAt tm pa).traps = tmInt3trapsAtPa tm pa := by
  unfold wrapperAt tmInt3trapsAtPa
  cases tm.breakpointTbl.lookup pa <;> rfl

/-! ### Adding a trap -/

/-- The list at the trap's address with the trap appended, and its head. -/
def addAtPa (tm : Trapmngr κ ε) (trap : Trap κ ε) : NodeHeap (Trap κ ε) × Option Nat :=
  tm.nodes.append (tm.head (.inl trap.pa)) trap

/-- The list of the trap's frame with the trap appended, and its head. -/
def addAtGfn (tm : Trapmngr κ ε) (trap : Trap κ ε) : NodeHeap (Trap κ ε) × Option Nat :=
  (addAtPa tm trap).1.append (tm.head (.inr trap.gfn)) trap

lemma tmAddInt3trap_breakpointTbl (tm : Trapmngr κ ε) (trap : Trap κ ε) :
    (tmAddInt3trap tm trap).breakpointTbl = tm.breakpointTbl.insert trap.pa
      { wrapperAt tm trap.pa with traps := (addAtPa tm trap).2 } := by
  unfold tmAddInt3trap addAtPa
  simp only [wrapperAt_traps, Trapmngr.head]
  cases tmInt3trapsAtGfn tm trap.gfn <;> rfl

lemma tmAddInt3trap_nodes (tm : Trapmngr κ ε) (trap : Trap κ ε) :
    (tmAddInt3trap tm trap).nodes = (addAtGfn tm trap).1 := by
  unfold tmAddInt3trap addAtGfn addAtPa
  simp only [wrapperAt_traps, Trapmngr.head]
  cases tmInt3trapsAtGfn tm trap.gfn <;> rfl

/-- Not writing the head back is right, because appending to a nonempty list keeps it. -/
lemma tmAddInt3trap_gfnHead (tm : Trapmngr κ ε) (trap : Trap κ ε) (gfn : Nat) :
    tmInt3trapsAtGfn (tmAddInt3trap tm trap) gfn =
      if gfn = trap.gfn then (addAtGfn tm trap).2 else tmInt3trapsAtGfn tm gfn := by
  unfold tmAddInt3trap addAtGfn
  cases hg : tmInt3trapsAtGfn tm trap.gfn with
  | none =>
    simp only [Trapmngr.head, hg]
    split
    · rename_i he
      subst he
      rw [tmInt3trapsAtGfn, AList.lookup_insert, wrapperAt_traps]
      rfl
    · rename_i hne
      rw [tmInt3trapsAtGfn, AList.lookup_insert_ne hne, tmInt3trapsAtGfn]
  | some head =>
    simp only [Trapmngr.head, hg, NodeHeap.append_some]
    split
    · rename_i he
      subst he
      exact hg
    · rfl

lemma tmAddInt3trap_head (tm : Trapmngr κ ε) (trap : Trap κ ε) :
    (tmAddInt3trap tm trap).head =
      Function.update (Function.update tm.head (.inl trap.pa) (addAtPa tm trap).2)
        (.inr trap.gfn) (addAtGfn tm trap).2 := by
  funext k
  cases k with
  | inl pa =>
    rw [Function.update_of_ne (by simp)]
    simp only [Trapmngr.head, tmInt3trapsAtPa, tmAddInt3trap_breakpointTbl]
    by_cases hp : pa = trap.pa
    · subst hp
      simp
    · rw [Function.update_of_ne (by simpa using hp), AList.lookup_insert_ne hp]
      rfl
  | inr gfn =>
    simp only [Trapmngr.head, tmAddInt3trap_gfnHead]
    by_cases hg : gfn = trap.gfn
    · subst hg
      simp
    · rw [Function.update_of_ne (by simpa using hg), Function.update_of_ne (by simp), if_neg hg]
      rfl

@[simp] lemma tmTrapExist_add (tm : Trapmngr κ ε) (trap : Trap κ ε) (pa : Nat) :
    tmTrapExist (tmAddInt3trap tm trap) pa = (decide (pa = trap.pa) || tmTrapExist tm pa) := by
  unfold tmTrapExist
  rw [tmAddInt3trap_breakpointTbl]
  by_cases hp : pa = trap.pa
  · subst hp
    simp
  · simp [AList.lookup_insert_ne hp, hp]

/-- The nodes of the lists after the trap was registered. -/
def addCells (fresh : Nat) (cells : Nat ⊕ Nat → List (Nat × Trap κ ε)) (trap : Trap κ ε) :
    Nat ⊕ Nat → List (Nat × Trap κ ε) :=
  Function.update
    (Function.update cells (.inl trap.pa) (cells (.inl trap.pa) ++ [(fresh, trap)]))
    (.inr trap.gfn) (cells (.inr trap.gfn) ++ [(fresh + 1, trap)])

lemma addCells_inl (fresh : Nat) (cells : Nat ⊕ Nat → List (Nat × Trap κ ε)) (trap : Trap κ ε)
    (pa : Nat) : addCells fresh cells trap (.inl pa) =
      cells (.inl pa) ++ if trap.pa = pa then [(fresh, trap)] else [] := by
  unfold addCells
  rw [Function.update_of_ne (by simp)]
  by_cases hp : trap.pa = pa
  · subst hp
    simp
  · rw [Function.update_of_ne (by simpa using Ne.symm hp), if_neg hp, List.append_nil]

lemma addCells_inr (fresh : Nat) (cells : Nat ⊕ Nat → List (Nat × Trap κ ε)) (trap : Trap κ ε)
    (gfn : Nat) : addCells fresh cells trap (.inr gfn) =
      cells (.inr gfn) ++ if trap.gfn = gfn then [(fresh + 1, trap)] else [] := by
  unfold addCells
  by_cases hg : trap.gfn = gfn
  · subst hg
    simp
  · rw [Function.update_of_ne (by simpa using Ne.symm hg), Function.update_of_ne (by simp),
      if_neg hg, List.append_nil]

/-- Registering appends the trap to the list of registered traps. -/
lemma IndexedBy.add {tm : Trapmngr κ ε} {reg : List (Trap κ ε)}
    {cells : Nat ⊕ Nat → List (Nat × Trap κ ε)} (h : IndexedBy tm reg cells) (trap : Trap κ ε) :
    IndexedBy (tmAddInt3trap tm trap) (reg ++ [trap]) (addCells tm.nodes.fresh cells trap) := by
  obtain ⟨hl, ht, hw⟩ := h
  have hl₁ := hl.append (.inl trap.pa) trap
  have hl₂ := hl₁.append (.inr trap.gfn) trap
  rw [Function.update_of_ne (by simp), Function.update_of_ne (by simp),
    NodeHeap.append_fresh] at hl₂
  refine ⟨?lists, ?traps, ?wrapper⟩
  case lists =>
    rw [tmAddInt3trap_nodes, tmAddInt3trap_head]
    exact hl₂
  case traps =>
    intro k
    cases k with
    | inl pa =>
      rw [addCells_inl, List.filter_append, ← ht, List.map_append]
      by_cases hp : trap.pa = pa
      · simp [belongs, hp]
      · simp [belongs, hp]
    | inr gfn =>
      rw [addCells_inr, List.filter_append, ← ht, List.map_append]
      by_cases hg : trap.gfn = gfn
      · simp [belongs, hg]
      · simp [belongs, hg]
  case wrapper =>
    intro pa
    rw [addCells_inl, tmTrapExist_add]
    by_cases hp : pa = trap.pa
    · subst hp
      simp
    · simpa [hp, Ne.symm hp] using hw pa

lemma Indexed.add {tm : Trapmngr κ ε} {reg : List (Trap κ ε)} (h : Indexed tm reg)
    (trap : Trap κ ε) : Indexed (tmAddInt3trap tm trap) (reg ++ [trap]) := by
  obtain ⟨cells, hcells⟩ := h
  exact ⟨_, hcells.add trap⟩

/-! ### The doubletrap flag -/

/-- The manager with the flag at `pa` set. -/
def withDoubletrap (tm : Trapmngr κ ε) (pa : Nat) (doubletrap : UInt8) : Trapmngr κ ε :=
  { tm with breakpointTbl := tm.breakpointTbl.insert pa { wrapperAt tm pa with doubletrap } }

lemma tmSetDoubletrap_eq {tm : Trapmngr κ ε} {pa : Nat} (h : tmTrapExist tm pa = true)
    (doubletrap : UInt8) : tmSetDoubletrap tm pa doubletrap = .ok (withDoubletrap tm pa doubletrap) := by
  unfold tmTrapExist at h
  unfold tmSetDoubletrap withDoubletrap wrapperAt
  cases hw : tm.breakpointTbl.lookup pa with
  | none => simp [hw] at h
  | some w => rfl

lemma withDoubletrap_head (tm : Trapmngr κ ε) (pa : Nat) (doubletrap : UInt8) :
    (withDoubletrap tm pa doubletrap).head = tm.head := by
  funext k
  cases k with
  | inr gfn => rfl
  | inl p =>
    simp only [Trapmngr.head]
    by_cases hp : p = pa
    · subst hp
      rw [← wrapperAt_traps tm]
      simp [tmInt3trapsAtPa, withDoubletrap]
    · simp [tmInt3trapsAtPa, withDoubletrap, AList.lookup_insert_ne hp]

@[simp] lemma tmTrapExist_withDoubletrap {tm : Trapmngr κ ε} {pa : Nat}
    (h : tmTrapExist tm pa = true) (doubletrap : UInt8) (p : Nat) :
    tmTrapExist (withDoubletrap tm pa doubletrap) p = tmTrapExist tm p := by
  by_cases hp : p = pa
  · subst hp
    rw [h]
    simp [tmTrapExist, withDoubletrap]
  · simp [tmTrapExist, withDoubletrap, AList.lookup_insert_ne hp]

lemma tmCheckDoubletrap_withDoubletrap (tm : Trapmngr κ ε) (pa : Nat) (doubletrap : UInt8) (p : Nat) :
    tmCheckDoubletrap (withDoubletrap tm pa doubletrap) p =
      if p = pa then .ok doubletrap else tmCheckDoubletrap tm p := by
  by_cases hp : p = pa
  · subst hp
    simp [tmCheckDoubletrap, withDoubletrap]
  · simp [tmCheckDoubletrap, withDoubletrap, AList.lookup_insert_ne hp, hp]

/-- A trap at an address that has one already does not touch the flag there. -/
lemma tmCheckDoubletrap_add {tm : Trapmngr κ ε} (trap : Trap κ ε) {pa : Nat}
    (h : tmTrapExist tm pa = true) :
    tmCheckDoubletrap (tmAddInt3trap tm trap) pa = tmCheckDoubletrap tm pa := by
  unfold tmTrapExist at h
  unfold tmCheckDoubletrap
  rw [tmAddInt3trap_breakpointTbl]
  by_cases hp : pa = trap.pa
  · subst hp
    cases hw : tm.breakpointTbl.lookup trap.pa with
    | none => simp [hw] at h
    | some w => simp [wrapperAt, hw]
  · rw [AList.lookup_insert_ne hp]

lemma tmFindRemapped_add (tm : Trapmngr κ ε) (trap : Trap κ ε) :
    tmFindRemapped (tmAddInt3trap tm trap) = tmFindRemapped tm := by
  unfold tmAddInt3trap
  cases tmInt3trapsAtGfn tm trap.gfn <;> rfl

lemma tmFindMemtrap_add (tm : Trapmngr κ ε) (trap : Trap κ ε) :
    tmFindMemtrap (tmAddInt3trap tm trap) = tmFindMemtrap tm := by
  unfold tmAddInt3trap
  cases tmInt3trapsAtGfn tm trap.gfn <;> rfl

/-- Only the breakpoint tables and the nodes matter for what is registered. -/
lemma IndexedBy.congr {tm tm' : Trapmngr κ ε} {reg : List (Trap κ ε)}
    {cells : Nat ⊕ Nat → List (Nat × Trap κ ε)} (h : IndexedBy tm reg cells)
    (hnodes : tm'.nodes = tm.nodes) (hhead : tm'.head = tm.head)
    (hexist : ∀ pa, tmTrapExist tm' pa = tmTrapExist tm pa) : IndexedBy tm' reg cells := by
  obtain ⟨hl, ht, hw⟩ := h
  refine ⟨?_, ht, fun pa => ?_⟩
  · rw [hnodes, hhead]
    exact hl
  · rw [hexist]
    exact hw pa

lemma IndexedBy.withDoubletrap {tm : Trapmngr κ ε} {reg : List (Trap κ ε)}
    {cells : Nat ⊕ Nat → List (Nat × Trap κ ε)} (h : IndexedBy tm reg cells)
    {pa : Nat} (hpa : tmTrapExist tm pa = true) (doubletrap : UInt8) :
    IndexedBy (withDoubletrap tm pa doubletrap) reg cells := by
  apply h.congr
  · rfl
  · exact withDoubletrap_head tm pa doubletrap
  · exact tmTrapExist_withDoubletrap hpa doubletrap

/-! ### Removing a trap -/

section Remove

variable [DecidableEq κ] [DecidableEq ε]

/-- The list at the trap's address without the trap, and its head. -/
def removeAtPa (tm : Trapmngr κ ε) (trap : Trap κ ε) : NodeHeap (Trap κ ε) × Option Nat :=
  tm.nodes.remove (tm.head (.inl trap.pa)) trap

/-- The list of the trap's frame without the trap, and its head. -/
def removeAtGfn (tm : Trapmngr κ ε) (trap : Trap κ ε) : NodeHeap (Trap κ ε) × Option Nat :=
  (removeAtPa tm trap).1.remove (tm.head (.inr trap.gfn)) trap

lemma tmRemoveInt3trap_none {tm : Trapmngr κ ε} {trap : Trap κ ε}
    (h : tmTrapExist tm trap.pa = false) : tmRemoveInt3trap tm trap = (0, tm) := by
  unfold tmTrapExist at h
  unfold tmRemoveInt3trap
  rw [Option.isSome_eq_false_iff, Option.isNone_iff_eq_none] at h
  rw [h]

/-- The manager after removing a trap at an address that has a wrapper. -/
lemma tmRemoveInt3trap_some {tm : Trapmngr κ ε} {trap : Trap κ ε} {w : Int3Wrapper}
    (h : tm.breakpointTbl.lookup trap.pa = some w) :
    let n := ((removeAtPa tm trap).1.read (removeAtPa tm trap).2).length
    (tmRemoveInt3trap tm trap).1 = n ∧
      (tmRemoveInt3trap tm trap).2.nodes = (removeAtGfn tm trap).1 ∧
      (tmRemoveInt3trap tm trap).2.breakpointTbl =
        (if n = 0 then tm.breakpointTbl.erase trap.pa
          else tm.breakpointTbl.insert trap.pa { w with traps := (removeAtPa tm trap).2 }) ∧
      ∀ gfn, tmInt3trapsAtGfn (tmRemoveInt3trap tm trap).2 gfn =
        if gfn = trap.gfn then (removeAtGfn tm trap).2 else tmInt3trapsAtGfn tm gfn := by
  have hpa : tmInt3trapsAtPa tm trap.pa = w.traps := by simp [tmInt3trapsAtPa, h]
  unfold removeAtGfn removeAtPa tmRemoveInt3trap
  simp only [h, hpa, Trapmngr.head, true_and]
  intro gfn
  cases hhead : (NodeHeap.remove (tm.nodes.remove w.traps trap).1
      (tmInt3trapsAtGfn tm trap.gfn) trap).2 with
  | none =>
    by_cases hg : gfn = trap.gfn
    · subst hg
      simp [tmInt3trapsAtGfn]
    · simp [tmInt3trapsAtGfn, hg, AList.lookup_erase_ne hg]
  | some n =>
    by_cases hg : gfn = trap.gfn
    · subst hg
      simp [tmInt3trapsAtGfn]
    · simp [tmInt3trapsAtGfn, hg, AList.lookup_insert_ne hg, AList.lookup_erase_ne hg]

lemma tmFindRemapped_remove (tm : Trapmngr κ ε) (trap : Trap κ ε) :
    tmFindRemapped (tmRemoveInt3trap tm trap).2 = tmFindRemapped tm := by
  unfold tmRemoveInt3trap
  cases tm.breakpointTbl.lookup trap.pa <;> rfl

lemma tmFindMemtrap_remove (tm : Trapmngr κ ε) (trap : Trap κ ε) :
    tmFindMemtrap (tmRemoveInt3trap tm trap).2 = tmFindMemtrap tm := by
  unfold tmRemoveInt3trap
  cases tm.breakpointTbl.lookup trap.pa <;> rfl

/-- Where a trap is left, the flag is as it was. -/
lemma tmCheckDoubletrap_remove {tm : Trapmngr κ ε} (trap : Trap κ ε) {pa : Nat}
    (h : tmTrapExist (tmRemoveInt3trap tm trap).2 pa = true) :
    tmTrapExist tm pa = true ∧
      tmCheckDoubletrap (tmRemoveInt3trap tm trap).2 pa = tmCheckDoubletrap tm pa := by
  cases hw : tm.breakpointTbl.lookup trap.pa with
  | none =>
    have hex : tmTrapExist tm trap.pa = false := by simp [tmTrapExist, hw]
    rw [tmRemoveInt3trap_none hex] at h ⊢
    exact ⟨h, rfl⟩
  | some w =>
    obtain ⟨-, -, htbl, -⟩ := tmRemoveInt3trap_some hw
    unfold tmTrapExist at h ⊢
    unfold tmCheckDoubletrap
    rw [htbl] at h ⊢
    by_cases hp : pa = trap.pa
    · subst hp
      split at h
      · simp at h
      · rename_i hn
        simp [hn, hw]
    · split at h
      · rename_i hn
        rw [AList.lookup_erase_ne hp] at h
        simp [hn, AList.lookup_erase_ne hp, h]
      · rename_i hn
        rw [AList.lookup_insert_ne hp] at h
        simp [hn, AList.lookup_insert_ne hp, h]

/-- The nodes of the lists without the first one that holds the trap. -/
def removeCells (cells : Nat ⊕ Nat → List (Nat × Trap κ ε)) (trap : Trap κ ε) :
    Nat ⊕ Nat → List (Nat × Trap κ ε) := fun k => (cells k).eraseP fun c => c.2 = trap

section RemoveCells

variable {tm : Trapmngr κ ε} {reg : List (Trap κ ε)} {cells : Nat ⊕ Nat → List (Nat × Trap κ ε)}

omit [DecidableEq κ] [DecidableEq ε] in
lemma IndexedBy.mem (h : IndexedBy tm reg cells) {k : Nat ⊕ Nat} {c : Nat × Trap κ ε}
    (hc : c ∈ cells k) : c.2 ∈ reg ∧ belongs c.2 k = true := by
  have : c.2 ∈ reg.filter (belongs · k) := by
    rw [← h.traps k]
    exact List.mem_map_of_mem hc
  exact List.mem_filter.mp this

/-- A trap is in no list it does not belong in. -/
lemma IndexedBy.removeCells_of_not_belongs (h : IndexedBy tm reg cells) {trap : Trap κ ε}
    {k : Nat ⊕ Nat} (hk : trap ∉ reg ∨ belongs trap k = false) : removeCells cells trap k = cells k := by
  apply List.eraseP_of_forall_not
  intro c hc
  rw [decide_eq_true_iff]
  rintro rfl
  obtain ⟨hreg, hbelongs⟩ := h.mem hc
  rcases hk with hk | hk
  · exact hk hreg
  · rw [hbelongs] at hk
    cases hk

lemma IndexedBy.removeCells_traps (h : IndexedBy tm reg cells) (trap : Trap κ ε) (k : Nat ⊕ Nat) :
    (removeCells cells trap k).map Prod.snd = (reg.erase trap).filter (belongs · k) := by
  rw [← List.erase_filter, ← h.traps k, List.erase_eq_eraseP', List.eraseP_map]
  rfl

lemma IndexedBy.removeCells_update (h : IndexedBy tm reg cells) (trap : Trap κ ε) :
    Function.update (Function.update cells (.inl trap.pa) (removeCells cells trap (.inl trap.pa)))
      (.inr trap.gfn) (removeCells cells trap (.inr trap.gfn)) = removeCells cells trap := by
  funext k
  by_cases hr : k = .inr trap.gfn
  · subst hr
    rw [Function.update_self]
  · rw [Function.update_of_ne hr]
    by_cases hl : k = .inl trap.pa
    · subst hl
      rw [Function.update_self]
    · rw [Function.update_of_ne hl]
      apply (h.removeCells_of_not_belongs _).symm
      right
      cases k with
      | inl pa => simpa [belongs] using fun he => hl (by rw [he])
      | inr gfn => simpa [belongs] using fun he => hr (by rw [he])

/-- Removing a trap changes the head of the list at its address and of the list at its frame. -/
lemma tmRemoveInt3trap_head {tm : Trapmngr κ ε} {trap : Trap κ ε} {w : Int3Wrapper}
    (hlook : tm.breakpointTbl.lookup trap.pa = some w) {left : List (Nat × Trap κ ε)}
    (hcells : NodeHeap.Chain (removeAtPa tm trap).1 (removeAtPa tm trap).2 left) :
    (tmRemoveInt3trap tm trap).2.head =
      Function.update (Function.update tm.head (.inl trap.pa) (removeAtPa tm trap).2)
        (.inr trap.gfn) (removeAtGfn tm trap).2 := by
  obtain ⟨-, -, htbl, hgfn⟩ := tmRemoveInt3trap_some hlook
  funext k
  cases k with
  | inl pa =>
    rw [Function.update_of_ne (by simp)]
    simp only [Trapmngr.head, tmInt3trapsAtPa, htbl]
    by_cases hp : pa = trap.pa
    · subst hp
      rw [Function.update_self]
      split
      · rename_i hn
        rw [hcells.read, List.length_map, List.length_eq_zero_iff] at hn
        rw [hn] at hcells
        rw [AList.lookup_erase]
        exact hcells.symm
      · rw [AList.lookup_insert]
        rfl
    · rw [Function.update_of_ne (by simpa using hp)]
      split
      · rw [AList.lookup_erase_ne hp]
        rfl
      · rw [AList.lookup_insert_ne hp]
        rfl
  | inr gfn =>
    simp only [Trapmngr.head, hgfn]
    by_cases hg : gfn = trap.gfn
    · subst hg
      simp
    · rw [Function.update_of_ne (by simpa using hg), Function.update_of_ne (by simp), if_neg hg]
      rfl

/-- Removing takes the first occurrence of the trap out of the list of registered traps,
and counts what is left at its address. -/
lemma IndexedBy.remove (h : IndexedBy tm reg cells) (trap : Trap κ ε) :
    IndexedBy (tmRemoveInt3trap tm trap).2 (reg.erase trap) (removeCells cells trap) ∧
      (tmRemoveInt3trap tm trap).1 = ((reg.erase trap).filter (·.pa = trap.pa)).length := by
  cases hlook : tm.breakpointTbl.lookup trap.pa with
  | none =>
    have hex : tmTrapExist tm trap.pa = false := by simp [tmTrapExist, hlook]
    have hnone : ∀ t ∈ reg, t.pa ≠ trap.pa := by
      intro t ht he
      have : tmTrapExist tm trap.pa = true := (Indexed.trapExist ⟨cells, h⟩ _).mpr ⟨t, ht, he⟩
      rw [hex] at this
      cases this
    have hnot : trap ∉ reg := fun hmem => hnone trap hmem rfl
    have hcells : removeCells cells trap = cells := by
      funext k
      exact h.removeCells_of_not_belongs (.inl hnot)
    rw [tmRemoveInt3trap_none hex, List.erase_of_not_mem hnot, hcells]
    refine ⟨h, ?_⟩
    rw [List.filter_eq_nil_iff.mpr (by simpa using hnone)]
    rfl
  | some w =>
    obtain ⟨hno, hnodes, htbl, -⟩ := tmRemoveInt3trap_some hlook
    have hl₁ := h.lists.remove (.inl trap.pa) trap
    have hl₂ := hl₁.remove (.inr trap.gfn) trap
    rw [Function.update_of_ne (by simp), Function.update_of_ne (by simp)] at hl₂
    change NodeHeap.Family _ _ (Function.update (Function.update cells (.inl trap.pa)
      (removeCells cells trap (.inl trap.pa))) (.inr trap.gfn)
      (removeCells cells trap (.inr trap.gfn))) at hl₂
    rw [h.removeCells_update] at hl₂
    have hcells := hl₁.chain (.inl trap.pa)
    rw [Function.update_self, Function.update_self] at hcells
    change NodeHeap.Chain (removeAtPa tm trap).1 (removeAtPa tm trap).2
      (removeCells cells trap (.inl trap.pa)) at hcells
    have hread := hcells.read
    have hhead := tmRemoveInt3trap_head hlook hcells
    refine ⟨⟨?lists, h.removeCells_traps trap, ?wrapper⟩, ?left⟩
    case lists =>
      rw [hnodes, hhead]
      exact hl₂
    case wrapper =>
      intro pa
      unfold tmTrapExist
      rw [htbl, hread, List.length_map]
      by_cases hp : pa = trap.pa
      · subst hp
        by_cases hn : removeCells cells trap (.inl trap.pa) = []
        · simp [hn]
        · simp [hn]
      · have hsame : removeCells cells trap (.inl pa) = cells (.inl pa) :=
          h.removeCells_of_not_belongs (.inr (by simpa [belongs] using Ne.symm hp))
        rw [hsame]
        split
        · rw [AList.lookup_erase_ne hp]
          exact h.wrapper pa
        · rw [AList.lookup_insert_ne hp]
          exact h.wrapper pa
    case left =>
      rw [hno, hread, h.removeCells_traps]
      rfl

/-- The node of a removed trap still leads to the node that was behind it. -/
lemma IndexedBy.remove_link (h : IndexedBy tm reg cells) {trap : Trap κ ε} {n : Nat}
    {front back : List (Nat × Trap κ ε)} (hcells : cells (.inl trap.pa) = front ++ (n, trap) :: back)
    (hfront : ∀ c ∈ front, c.2 ≠ trap) :
    (tmRemoveInt3trap tm trap).2.nodes.node n = some ⟨trap, NodeHeap.ptr back, false⟩ := by
  have hchain := h.lists.chain (.inl trap.pa)
  have hn : n ∈ (cells (.inl trap.pa)).map Prod.fst := by simp [hcells]
  rw [hcells] at hchain
  obtain ⟨-, -, hframe⟩ := ((h.lists.remove (.inl trap.pa) trap).chain (.inr trap.gfn)).remove trap
  rw [Function.update_of_ne (by simp), Function.update_of_ne (by simp)] at hframe
  have hex : tmTrapExist tm trap.pa = true := by
    rw [h.wrapper, hcells]
    simp
  obtain ⟨w, hw⟩ := Option.isSome_iff_exists.mp hex
  rw [(tmRemoveInt3trap_some hw).2.1, removeAtGfn]
  refine (hframe n fun hmem => ?_).trans (hchain.remove_link trap hfront)
  cases h.lists.apart _ _ n hn hmem

end RemoveCells

lemma Indexed.remove {tm : Trapmngr κ ε} {reg : List (Trap κ ε)} (h : Indexed tm reg)
    (trap : Trap κ ε) :
    Indexed (tmRemoveInt3trap tm trap).2 (reg.erase trap) ∧
      (tmRemoveInt3trap tm trap).1 = ((reg.erase trap).filter (·.pa = trap.pa)).length := by
  obtain ⟨cells, hcells⟩ := h
  exact ⟨⟨_, (hcells.remove trap).1⟩, (hcells.remove trap).2⟩

/-- A removal leaves a trap at its own address exactly if it counts one there. -/
lemma Indexed.trapExist_remove {tm : Trapmngr κ ε} {reg : List (Trap κ ε)} (h : Indexed tm reg)
    (trap : Trap κ ε) (pa : Nat) : tmTrapExist (tmRemoveInt3trap tm trap).2 pa = true ↔
      if pa = trap.pa then (tmRemoveInt3trap tm trap).1 ≠ 0 else tmTrapExist tm pa = true := by
  obtain ⟨hleft, hno⟩ := h.remove trap
  rw [hleft.trapExist]
  split
  · rename_i hp
    subst hp
    rw [hno, ne_eq, List.length_eq_zero_iff, List.filter_eq_nil_iff]
    simp
  · rename_i hp
    rw [h.trapExist]
    constructor
    · rintro ⟨t, ht, rfl⟩
      exact ⟨t, List.mem_of_mem_erase ht, rfl⟩
    · rintro ⟨t, ht, rfl⟩
      have hne : t ≠ trap := fun he => hp (he ▸ rfl)
      exact ⟨t, (List.mem_erase_of_ne hne).mpr ht, rfl⟩

/-! ### Runs of the manager -/

/-- A call of `tm_add_int3trap` or of `tm_remove_int3trap`. -/
inductive TmOp (κ ε : Type) where
  | add (trap : Trap κ ε)
  | remove (trap : Trap κ ε)

def TmOp.apply (tm : Trapmngr κ ε) : TmOp κ ε → Trapmngr κ ε
  | .add trap => tmAddInt3trap tm trap
  | .remove trap => (tmRemoveInt3trap tm trap).2

/-- What a call does to the list of registered traps. -/
def TmOp.register (reg : List (Trap κ ε)) : TmOp κ ε → List (Trap κ ε)
  | .add trap => reg ++ [trap]
  | .remove trap => reg.erase trap

/-- The manager after a sequence of calls on a fresh one. -/
def tmRun (ops : List (TmOp κ ε)) : Trapmngr κ ε := ops.foldl TmOp.apply tmInit

/-- The traps registered after a sequence of calls, in insertion order. -/
def registered (ops : List (TmOp κ ε)) : List (Trap κ ε) := ops.foldl TmOp.register []

lemma TmOp.indexed {tm : Trapmngr κ ε} {reg : List (Trap κ ε)} (h : Indexed tm reg)
    (op : TmOp κ ε) : Indexed (op.apply tm) (op.register reg) := by
  cases op with
  | add trap => exact h.add trap
  | remove trap => exact (h.remove trap).1

lemma indexed_tmRun (ops : List (TmOp κ ε)) : Indexed (tmRun ops) (registered ops) := by
  unfold tmRun registered
  generalize hreg : ([] : List (Trap κ ε)) = reg
  have h : Indexed tmInit reg := hreg ▸ indexed_tmInit
  generalize tmInit = tm at h
  clear hreg
  induction ops generalizing tm reg with
  | nil => exact h
  | cons op ops ih => exact ih _ _ (op.indexed h)

/-- After any sequence of additions and removals both indexes list the registered traps in
insertion order and with their multiplicities, and removals report what they leave. -/
theorem trap_indexes_agree (ops : List (TmOp κ ε)) :
    let tm := tmRun ops
    (∀ gfn, tm.traps (tmInt3trapsAtGfn tm gfn) =
      (registered ops).filter (fun t => t.pa >>> PAGE_OFFSET_BITS = gfn)) ∧
    (∀ pa, tm.traps (tmInt3trapsAtPa tm pa) =
      (tm.traps (tmInt3trapsAtGfn tm (pa >>> PAGE_OFFSET_BITS))).filter (fun t => t.pa = pa)) ∧
    (∀ pa, tmTrapExist tm pa = true ↔ tm.traps (tmInt3trapsAtPa tm pa) ≠ []) ∧
    ∀ trap, (tmRemoveInt3trap tm trap).1 =
      ((tmRemoveInt3trap tm trap).2.traps
        (tmInt3trapsAtPa (tmRemoveInt3trap tm trap).2 trap.pa)).length := by
  have h := indexed_tmRun ops
  have hgfn : ∀ gfn, (tmRun ops).traps (tmInt3trapsAtGfn (tmRun ops) gfn) =
      (registered ops).filter (fun t => t.pa >>> PAGE_OFFSET_BITS = gfn) :=
    fun gfn => h.traps_head (.inr gfn)
  refine ⟨hgfn, fun pa => ?_, h.trapExist_iff_traps, fun trap => ?_⟩
  · have hpa := h.traps_head (.inl pa)
    simp only [Trapmngr.head, belongs] at hpa
    rw [hpa, hgfn, List.filter_filter]
    apply List.filter_congr
    intro t _
    by_cases ht : t.pa = pa
    · simp [ht]
    · simp [ht]
  · obtain ⟨hleft, hno⟩ := h.remove trap
    have hpa := hleft.traps_head (.inl trap.pa)
    simp only [Trapmngr.head, belongs] at hpa
    rw [hno, hpa]

end Remove

end Hfm

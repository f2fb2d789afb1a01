import Hfm.Win
import Hfm.Support.Radix

/-!
# The slot of a handle

The index of a handle, cut into digits, are the counters of the loops of `win_list_drives` at one
slot.
-/

namespace Hfm

open Support

variable {κ ε : Type}

/-! ### The slot that is read for a handle -/

/-- The slot at which `handleTableEntry` reads. -/
def handleSlot (ctx : Context κ ε) (tablecode handleIdx : UInt64) : ContextM (Option Slot) := do
  let tableBase := tablecode &&& ~~~EX_FAST_REF_MASK
  let entry := ctx.hdlr.sizes .handleTableEntry
  let objectOffset := 0
  let psize := pointerSize ctx.hdlr.pm
  match (tablecode &&& EX_FAST_REF_MASK).toNat with
  | 0 => return some ⟨[handleIdx.toNat], tableBase + handleIdx * entry + objectOffset⟩
  | 1 =>
    let lowestCount := (← divide VMI_PS_4KB entry).1.toUInt32.toUInt64
    let (j, i) ← divide handleIdx lowestCount
    let j := j.toUInt32.toUInt64
    let table ← hfmReadAddr ctx (tableBase + j * psize)
    if table = 0 then return none
    else return some ⟨[j.toNat, i.toNat], table + i * entry + objectOffset⟩
  | 2 =>
    let lowestCount := (← divide VMI_PS_4KB entry).1.toUInt32.toUInt64
    let midCount := VMI_PS_4KB / psize
    let (j, i) ← divide handleIdx lowestCount
    let (j, k) ← divide j.toUInt32.toUInt64 midCount
    let table ← hfmReadAddr ctx (tableBase + j * psize)
    let table2 ← if table = 0 then pure 0 else hfmReadAddr ctx (table + k * psize)
    if table2 = 0 then return none
    else return some ⟨[j.toNat, k.toNat, i.toNat], table2 + i * entry + objectOffset⟩
  | _ => return none

lemma handleTableEntry_eq (ctx : Context κ ε) (tablecode handleIdx : UInt64) :
    handleTableEntry ctx tablecode handleIdx = do
      match ← handleSlot ctx tablecode handleIdx with
      | some slot => hfmReadAddr ctx slot.addr
      | none => return 0 := by
  unfold handleTableEntry handleSlot
  generalize (tablecode &&& EX_FAST_REF_MASK).toNat = levels
  match levels with
  | 0 => rfl
  | 1 =>
    simp only [bind_assoc]
    apply bind_congr
    intro count
    apply bind_congr
    intro digits
    apply bind_congr
    intro table
    by_cases h : table = 0
    · rw [if_pos h, if_pos h]
      rfl
    · rw [if_neg h, if_neg h]
      rfl
  | 2 =>
    simp only [bind_assoc]
    apply bind_congr
    intro count
    apply bind_congr
    intro digits
    apply bind_congr
    intro digits2
    apply bind_congr
    intro table
    by_cases h : table = 0
    · rw [if_pos h, if_pos h]
      rfl
    · rw [if_neg h, if_neg h, bind_assoc]
      apply bind_congr
      intro table2
      by_cases h2 : table2 = 0
      · rw [if_pos h2, if_pos h2]
        rfl
      · rw [if_neg h2, if_neg h2]
        rfl
  | _ + 3 => rfl

/-- The code of the handle table of the current process, if all on the way to it is non-zero. -/
def foundTablecode (ctx : Context κ ε) : ContextM (Option UInt64) := do
  let offsets := ctx.hdlr.offsets
  let process ← hfmGetCurrentProcess ctx
  if process = 0 then return none
  else
    let handletable ← hfmReadAddr ctx (process + offsets .eprocessObjectTable)
    if handletable = 0 then return none
    else
      let tablecode ← hfmReadAddr ctx (handletable + offsets .handleTableTableCode)
      if tablecode = 0 then return none
      else
        let handlecount ← hfmRead32 ctx (handletable + offsets .handleTableHandleCount)
        if handlecount = 0 then return none else return some tablecode

/-- The slot at which `hfmFileobjFromHandle` reads. -/
def fileobjSlot (ctx : Context κ ε) (handle : UInt64) : ContextM (Option Slot) := do
  match ← foundTablecode ctx with
  | some tablecode => handleSlot ctx tablecode (handle / HANDLE_MULTIPLIER)
  | none => return none

lemma hfmFileobjFromHandle_eq (ctx : Context κ ε) (handle : UInt64) :
    hfmFileobjFromHandle ctx handle = do
      match ← foundTablecode ctx with
      | some tablecode =>
        let handleObj ← handleTableEntry ctx tablecode (handle / HANDLE_MULTIPLIER)
        return objectPointer ctx.hdlr.pm handleObj ctx.hdlr.winver +
          ctx.hdlr.offsets .objectHeaderBody
      | none => return 0 := by
  unfold hfmFileobjFromHandle foundTablecode
  simp only [bind_assoc]
  apply bind_congr
  intro process
  by_cases hp : process = 0
  · rw [if_pos hp, if_pos hp]
    rfl
  · rw [if_neg hp, if_neg hp, bind_assoc]
    apply bind_congr
    intro handletable
    by_cases ht : handletable = 0
    · rw [if_pos ht, if_pos ht]
      rfl
    · rw [if_neg ht, if_neg ht, bind_assoc]
      apply bind_congr
      intro tablecode
      by_cases hc : tablecode = 0
      · rw [if_pos hc, if_pos hc]
        rfl
      · rw [if_neg hc, if_neg hc, bind_assoc]
        apply bind_congr
        intro handlecount
        by_cases hn : handlecount = 0
        · rw [if_pos hn, if_pos hn]
          rfl
        · rw [if_neg hn, if_neg hn]
          rfl

/-- The entry of the handle is the one at `slot`. -/
def ReadsSlot (ctx : Context κ ε) (handle : UInt64) (s : ContextState) (slot : Slot) : Prop :=
  ∃ s', fileobjSlot ctx handle s = .ok (some slot, s') ∧
    hfmFileobjFromHandle ctx handle s =
      (do
        let handleObj ← hfmReadAddr ctx slot.addr
        return objectPointer ctx.hdlr.pm handleObj ctx.hdlr.winver +
          ctx.hdlr.offsets .objectHeaderBody : ContextM UInt64) s'

lemma readsSlot_of_run {ctx : Context κ ε} {handle : UInt64} {s s' : ContextState} {slot : Slot}
    (h : fileobjSlot ctx handle s = .ok (some slot, s')) : ReadsSlot ctx handle s slot := by
  apply Exists.intro s'
  apply And.intro h
  rw [hfmFileobjFromHandle_eq]
  unfold fileobjSlot at h
  cases htable : foundTablecode ctx s with
  | error fault =>
    simp only [bind, StateT.bind, Except.bind, htable] at h
    cases h
  | ok found =>
    obtain ⟨tablecode, s₁⟩ := found
    cases tablecode with
    | none =>
      simp only [bind, StateT.bind, Except.bind, htable] at h
      cases h
    | some tablecode =>
      have hslot : handleSlot ctx tablecode (handle / HANDLE_MULTIPLIER) s₁ =
          .ok (some slot, s') := by
        simpa only [bind, StateT.bind, Except.bind, htable] using h
      simp only [handleTableEntry_eq, bind, StateT.bind, Except.bind, htable, hslot]

/-! ### The shape of a table -/

/-- How many rounds the loops over a table of that many levels make, from the outermost on. -/
def tableRadices (hdlr : Vmhdlr κ ε) (levels : Nat) : List Nat :=
  List.replicate levels (0x1000 / (pointerSize hdlr.pm).toNat) ++
    [0x1000 / (hdlr.sizes .handleTableEntry).toNat]

/-- The tables below `base` can be read, and all pointers to the next ones are there. -/
def SubtablesPresent (hdlr : Vmhdlr κ ε) (mem : UInt64 → Option UInt64) : Nat → UInt64 → Prop
  | 0, _ => True
  | levels + 1, base => ∀ i < 0x1000 / (pointerSize hdlr.pm).toNat, ∃ table,
      mem (base + i.toUInt64 * pointerSize hdlr.pm) = some table ∧ table ≠ 0 ∧
        SubtablesPresent hdlr mem levels table

/-- The pointers to the tables below `base` can be read; a null pointer has nothing below it. -/
def SubtablesReadable (hdlr : Vmhdlr κ ε) (mem : UInt64 → Option UInt64) : Nat → UInt64 → Prop
  | 0, _ => True
  | levels + 1, base => ∀ i < 0x1000 / (pointerSize hdlr.pm).toNat, ∃ table,
      mem (base + i.toUInt64 * pointerSize hdlr.pm) = some table ∧
        (table ≠ 0 → SubtablesReadable hdlr mem levels table)

/-- The slots below `base` in their order, with the counters of the loops behind `counters`. Null
pointers are skipped. -/
def presentSlots (hdlr : Vmhdlr κ ε) (mem : UInt64 → Option UInt64) :
    Nat → List Nat → UInt64 → List Slot
  | 0, counters, base => (List.range (0x1000 / (hdlr.sizes .handleTableEntry).toNat)).map fun i =>
      ⟨counters ++ [i], base + i.toUInt64 * hdlr.sizes .handleTableEntry⟩
  | levels + 1, counters, base =>
    (List.range (0x1000 / (pointerSize hdlr.pm).toNat)).flatMap fun j =>
      let table := (mem (base + j.toUInt64 * pointerSize hdlr.pm)).getD 0
      if table = 0 then [] else presentSlots hdlr mem levels (counters ++ [j]) table

/-- Where the slot with these counters is, in a table of as many levels. -/
def slotAddr (hdlr : Vmhdlr κ ε) (mem : UInt64 → Option UInt64) : UInt64 → List Nat → UInt64
  | base, [] => base
  | base, [i] => base + i.toUInt64 * hdlr.sizes .handleTableEntry
  | base, j :: i :: path =>
    slotAddr hdlr mem ((mem (base + j.toUInt64 * pointerSize hdlr.pm)).getD 0) (i :: path)

section Walk

variable {hdlr : Vmhdlr κ ε} {mem : UInt64 → Option UInt64}

lemma pointerSize_cases (pm : PageMode) : pointerSize pm = 8 ∨ pointerSize pm = 4 := by
  unfold pointerSize
  by_cases h : pm = .ia32e
  · exact .inl (if_pos h)
  · exact .inr (if_neg h)

lemma toNat_tableNo (pm : PageMode) :
    (VMI_PS_4KB / pointerSize pm).toNat = 0x1000 / (pointerSize pm).toNat :=
  UInt64.toNat_div _ _

/-- The number of entries fits its `uint32_t`. -/
lemma toNat_lowestCount (entry : UInt64) :
    (VMI_PS_4KB / entry).toUInt32.toNat = 0x1000 / entry.toNat := by
  have hle : 0x1000 / entry.toNat ≤ 0x1000 := Nat.div_le_self _ _
  rw [UInt64.toNat_toUInt32, UInt64.toNat_div]
  exact Nat.mod_eq_of_lt (Nat.lt_of_le_of_lt hle (by decide))

/-- A loop each of whose rounds adds a row adds the rows. -/
lemma slots_foldl {visit : Walk → Nat → Walk} {row : Nat → List Slot} {n : Nat}
    (h : ∀ w i, i < n → (visit w i).slots = w.slots ++ row i) (w : Walk) :
    ((List.range n).foldl visit w).slots = w.slots ++ (List.range n).flatMap row := by
  induction n with
  | zero => exact (List.append_nil _).symm
  | succ n ih =>
    rw [List.range_succ, List.foldl_append, List.flatMap_append, List.foldl_cons, List.foldl_nil,
      h _ n (Nat.lt_succ_self n), ih (fun w i hi => h w i (Nat.lt_succ_of_lt hi)),
      List.flatMap_singleton, List.append_assoc]

/-- The slots below `base` in the order of the loops, which are at `counters`. -/
def walkRow (hdlr : Vmhdlr κ ε) (mem : UInt64 → Option UInt64) (counters : List Nat)
    (base : UInt64) (radices : List Nat) : List Slot :=
  (numerals radices).map fun path => ⟨counters ++ path, slotAddr hdlr mem base path⟩

/-- A table of pointers holds one row for each of them. -/
lemma walkRow_cons (counters : List Nat) (base : UInt64) (levels : Nat) :
    walkRow hdlr mem counters base (tableRadices hdlr (levels + 1)) =
      (List.range (0x1000 / (pointerSize hdlr.pm).toNat)).flatMap fun j =>
        walkRow hdlr mem (counters ++ [j])
          ((mem (base + j.toUInt64 * pointerSize hdlr.pm)).getD 0) (tableRadices hdlr levels) := by
  have hcons : ∀ path ∈ numerals (tableRadices hdlr levels), path ≠ [] := by
    intro path hpath hnil
    have hlen := length_of_mem_numerals hpath
    rw [hnil, tableRadices, List.length_append, List.length_cons] at hlen
    exact Nat.succ_ne_zero _ hlen.symm
  have hradices : tableRadices hdlr (levels + 1) =
      0x1000 / (pointerSize hdlr.pm).toNat :: tableRadices hdlr levels := rfl
  unfold walkRow
  rw [hradices, numerals, List.map_flatMap]
  congr 1
  funext j
  rw [List.map_map]
  apply List.map_congr_left
  intro path hpath
  obtain ⟨i, path, rfl⟩ := List.exists_cons_of_ne_nil (hcons path hpath)
  rw [Function.comp_apply, List.append_assoc]
  rfl

lemma slots_entries (counters : List Nat) (table : UInt64) (w : Walk) :
    (w.entries (hdlr.sizes .handleTableEntry) (0x1000 / (hdlr.sizes .handleTableEntry).toNat)
      counters table).slots = w.slots ++ presentSlots hdlr mem 0 counters table := by
  unfold presentSlots Walk.entries
  dsimp only
  congr 1
  apply List.map_congr_left
  intro i _
  rw [UInt64.add_zero]

lemma slots_level1 {base : UInt64} (hreadable : SubtablesReadable hdlr mem 1 base) (w : Walk)
    (i : Nat) (hi : i < 0x1000 / (pointerSize hdlr.pm).toNat) :
    (w.level1 mem (pointerSize hdlr.pm) (hdlr.sizes .handleTableEntry)
      (0x1000 / (hdlr.sizes .handleTableEntry).toNat) base i).slots =
      w.slots ++ (if (mem (base + i.toUInt64 * pointerSize hdlr.pm)).getD 0 = 0 then [] else
        presentSlots hdlr mem 0 [i] ((mem (base + i.toUInt64 * pointerSize hdlr.pm)).getD 0)) := by
  obtain ⟨table, hread, -⟩ := hreadable i hi
  unfold Walk.level1
  rw [hread, Option.getD_some, Option.getD_some]
  by_cases hnull : table = 0
  · rw [if_pos hnull, if_pos hnull, List.append_nil]
  · rw [if_neg hnull, if_neg hnull, slots_entries]

lemma slots_level2Inner {table : UInt64} (hreadable : SubtablesReadable hdlr mem 1 table) (i : Nat)
    (w : Walk) (j : Nat) (hj : j < 0x1000 / (pointerSize hdlr.pm).toNat) :
    (w.level2Inner mem (pointerSize hdlr.pm) (hdlr.sizes .handleTableEntry)
      (0x1000 / (hdlr.sizes .handleTableEntry).toNat) i table j).slots =
      w.slots ++ (if (mem (table + j.toUInt64 * pointerSize hdlr.pm)).getD 0 = 0 then [] else
        presentSlots hdlr mem 0 [i, j]
          ((mem (table + j.toUInt64 * pointerSize hdlr.pm)).getD 0)) := by
  obtain ⟨table2, hread, -⟩ := hreadable j hj
  unfold Walk.level2Inner
  rw [hread, Option.getD_some, Option.getD_some]
  by_cases hnull : table2 = 0
  · rw [if_pos hnull, if_pos hnull, List.append_nil]
  · rw [if_neg hnull, if_neg hnull, slots_entries]

lemma slots_level2 {base : UInt64} (hreadable : SubtablesReadable hdlr mem 2 base) (w : Walk)
    (i : Nat) (hi : i < 0x1000 / (pointerSize hdlr.pm).toNat) :
    (w.level2 mem (pointerSize hdlr.pm) (hdlr.sizes .handleTableEntry)
      (0x1000 / (hdlr.sizes .handleTableEntry).toNat) (0x1000 / (pointerSize hdlr.pm).toNat)
      base i).slots =
      w.slots ++ (if (mem (base + i.toUInt64 * pointerSize hdlr.pm)).getD 0 = 0 then [] else
        presentSlots hdlr mem 1 [i] ((mem (base + i.toUInt64 * pointerSize hdlr.pm)).getD 0)) := by
  obtain ⟨table, hread, hsub⟩ := hreadable i hi
  unfold Walk.level2
  rw [hread, Option.getD_some, Option.getD_some]
  by_cases hnull : table = 0
  · rw [if_pos hnull, if_pos hnull, List.append_nil]
  · rw [if_neg hnull, if_neg hnull, slots_foldl (slots_level2Inner (hsub hnull) i)]
    rfl

/-- The slots of the walk are those that are present. -/
theorem winTableSlots_present {tablecode : UInt64} {levels : Nat}
    (hlevels : (tablecode &&& EX_FAST_REF_MASK).toNat = levels) (hle : levels ≤ 2)
    (hentry : hdlr.sizes .handleTableEntry ≠ 0)
    (hreadable : SubtablesReadable hdlr mem levels (tablecode &&& ~~~EX_FAST_REF_MASK)) :
    winTableSlots hdlr mem tablecode =
      .ok (presentSlots hdlr mem levels [] (tablecode &&& ~~~EX_FAST_REF_MASK)) := by
  unfold winTableSlots
  dsimp only
  rw [hlevels, if_neg (fun h => hentry h.2), toNat_tableNo, toNat_lowestCount]
  match levels with
  | 0 => exact congrArg Except.ok (@slots_entries _ _ _ mem [] _ _)
  | 1 => exact congrArg Except.ok (slots_foldl (slots_level1 hreadable) _)
  | 2 => exact congrArg Except.ok (slots_foldl (slots_level2 hreadable) _)
  | levels + 3 => omega

lemma SubtablesPresent.readable {levels : Nat} {base : UInt64}
    (h : SubtablesPresent hdlr mem levels base) : SubtablesReadable hdlr mem levels base := by
  induction levels generalizing base with
  | zero => trivial
  | succ levels ih =>
    intro i hi
    obtain ⟨table, hread, -, hsub⟩ := h i hi
    exact ⟨table, hread, fun _ => ih hsub⟩

/-- Where no pointer is null, the slots are the numerals of the loops. -/
lemma presentSlots_eq {levels : Nat} {base : UInt64}
    (h : SubtablesPresent hdlr mem levels base) (counters : List Nat) :
    presentSlots hdlr mem levels counters base =
      walkRow hdlr mem counters base (tableRadices hdlr levels) := by
  induction levels generalizing base counters with
  | zero =>
    have hsingle : numerals (tableRadices hdlr 0) =
        (List.range (0x1000 / (hdlr.sizes .handleTableEntry).toNat)).map fun i => [i] :=
      List.flatMap_pure_eq_map _ _
    unfold walkRow
    rw [hsingle, List.map_map]
    rfl
  | succ levels ih =>
    rw [walkRow_cons, presentSlots]
    refine List.flatMap_congr fun j hj => ?_
    obtain ⟨table, hread, hne, hsub⟩ := h j (List.mem_range.mp hj)
    dsimp only
    rw [hread, Option.getD_some, if_neg hne]
    exact ih hsub _

/-- The slots of the walk are the numerals of its loops. -/
theorem winTableSlots_eq {tablecode : UInt64} {levels : Nat}
    (hlevels : (tablecode &&& EX_FAST_REF_MASK).toNat = levels) (hle : levels ≤ 2)
    (hentry : hdlr.sizes .handleTableEntry ≠ 0)
    (hpresent : SubtablesPresent hdlr mem levels (tablecode &&& ~~~EX_FAST_REF_MASK)) :
    winTableSlots hdlr mem tablecode =
      .ok (walkRow hdlr mem [] (tablecode &&& ~~~EX_FAST_REF_MASK) (tableRadices hdlr levels)) := by
  rw [winTableSlots_present hlevels hle hentry hpresent.readable, presentSlots_eq hpresent]

end Walk

/-! ### The lookup -/

/-- The memory `mem` of the guest, with a handle table in it all of whose pages can be read. -/
structure HasTable (ctx : Context κ ε) (mem : UInt64 → Option UInt64) (tablecode : UInt64)
    (levels : Nat) : Prop where
  reads : ∀ n addr, ctx.calls.read n addr = mem addr
  levels_eq : (tablecode &&& EX_FAST_REF_MASK).toNat = levels
  levels_le : levels ≤ 2
  entry_pos : 1 ≤ (ctx.hdlr.sizes .handleTableEntry).toNat
  entry_le : (ctx.hdlr.sizes .handleTableEntry).toNat ≤ 0x1000
  present : SubtablesPresent ctx.hdlr mem levels (tablecode &&& ~~~EX_FAST_REF_MASK)

/-- The slot with the counters `path`. -/
def slotAt (hdlr : Vmhdlr κ ε) (mem : UInt64 → Option UInt64) (tablecode : UInt64)
    (path : List Nat) : Slot :=
  ⟨path, slotAddr hdlr mem (tablecode &&& ~~~EX_FAST_REF_MASK) path⟩

section Lookup

variable {ctx : Context κ ε} {mem : UInt64 → Option UInt64} {s : ContextState}
  {tablecode idx : UInt64}

lemma divide_run {a b : UInt64} (hb : b ≠ 0) : divide a b s = .ok ((a / b, a % b), s) := by
  unfold divide
  rw [if_neg hb]
  rfl

lemma toUInt64_toNat (value : UInt64) : value.toNat.toUInt64 = value := UInt64.ofNat_toNat

namespace HasTable

variable {levels : Nat} (h : HasTable ctx mem tablecode levels)
include h

lemma readAddr_run (addr : UInt64) :
    hfmReadAddr ctx addr s = .ok ((mem addr).getD 0, { s with calls := s.calls + 1 }) := by
  rw [← h.reads s.calls addr]
  rfl

lemma read32_run (addr : UInt64) :
    hfmRead32 ctx addr s = .ok (((mem addr).getD 0).toUInt32, { s with calls := s.calls + 1 }) := by
  rw [← h.reads s.calls addr]
  rfl

lemma entry_ne : ctx.hdlr.sizes .handleTableEntry ≠ 0 := by
  intro hzero
  have hpos := h.entry_pos
  rw [hzero] at hpos
  exact absurd hpos (by decide)

lemma lowest_pos : 0 < 0x1000 / (ctx.hdlr.sizes .handleTableEntry).toNat :=
  Nat.div_pos h.entry_le h.entry_pos

end HasTable

/-- `lowest_count`, and that it is no zero. -/
lemma lowest_toNat (entry : UInt64) :
    (VMI_PS_4KB / entry).toUInt32.toUInt64.toNat = 0x1000 / entry.toNat := by
  rw [UInt32.toNat_toUInt64, toNat_lowestCount]

lemma ne_zero_of_toNat_pos {value : UInt64} (hpos : 0 < value.toNat) : value ≠ 0 := by
  intro hzero
  rw [hzero] at hpos
  exact absurd hpos (by decide)

lemma toNat_truncated {value : UInt64} (hlt : value.toNat < 2 ^ 32) :
    value.toUInt32.toUInt64 = value := by
  rw [← UInt64.toNat_inj, UInt32.toNat_toUInt64, UInt64.toNat_toUInt32]
  exact Nat.mod_eq_of_lt hlt

lemma tableNo_le (pm : PageMode) : 0x1000 / (pointerSize pm).toNat ≤ 1024 := by
  rcases pointerSize_cases pm with hsize | hsize <;> rw [hsize] <;> decide

/-- A table without levels. -/
lemma handleSlot_level0 (h : HasTable ctx mem tablecode 0) :
    handleSlot ctx tablecode idx s = .ok (some (slotAt ctx.hdlr mem tablecode
      (digits (tableRadices ctx.hdlr 0) idx.toNat)), s) := by
  have hdigits : digits (tableRadices ctx.hdlr 0) idx.toNat = [idx.toNat] := by
    change [idx.toNat / 1] = [idx.toNat]
    rw [Nat.div_one]
  unfold handleSlot
  rw [h.levels_eq, hdigits, slotAt, slotAddr, toUInt64_toNat]
  dsimp only
  rw [UInt64.add_zero]
  rfl

lemma handleSlot_level1 (h : HasTable ctx mem tablecode 1)
    (hidx : idx.toNat < (tableRadices ctx.hdlr 1).prod) :
    handleSlot ctx tablecode idx s = .ok (some (slotAt ctx.hdlr mem tablecode
      (digits (tableRadices ctx.hdlr 1) idx.toNat)), { s with calls := s.calls + 1 }) := by
  generalize hlowest : (VMI_PS_4KB / ctx.hdlr.sizes .handleTableEntry).toUInt32.toUInt64 = lowest
  have hcount := lowest_toNat (ctx.hdlr.sizes .handleTableEntry)
  rw [hlowest] at hcount
  have hpos : 0 < lowest.toNat := hcount ▸ h.lowest_pos
  have hradices : tableRadices ctx.hdlr 1 =
      [0x1000 / (pointerSize ctx.hdlr.pm).toNat, lowest.toNat] := by
    rw [hcount]
    rfl
  have hj : (idx / lowest).toNat < 0x1000 / (pointerSize ctx.hdlr.pm).toNat := by
    rw [hradices, List.prod_cons, List.prod_singleton] at hidx
    rw [UInt64.toNat_div]
    exact Nat.div_lt_of_lt_mul (Nat.mul_comm _ _ ▸ hidx)
  have hdigits : digits (tableRadices ctx.hdlr 1) idx.toNat =
      [(idx / lowest).toNat, (idx % lowest).toNat] := by
    rw [hradices, digits, digits, digits, List.prod_singleton, List.prod_nil, Nat.div_one,
      UInt64.toNat_div, UInt64.toNat_mod]
  have htrunc : (idx / lowest).toUInt32.toUInt64 = idx / lowest := by
    have := tableNo_le ctx.hdlr.pm
    exact toNat_truncated (by omega)
  obtain ⟨table, hread, hne, -⟩ := h.present _ hj
  rw [toUInt64_toNat] at hread
  unfold handleSlot
  rw [h.levels_eq, hdigits, slotAt, slotAddr, slotAddr, toUInt64_toNat, toUInt64_toNat, hread,
    Option.getD_some]
  simp only [bind, StateT.bind, Except.bind, divide_run h.entry_ne, hlowest,
    divide_run (ne_zero_of_toNat_pos hpos), htrunc, h.readAddr_run, hread, Option.getD_some,
    if_neg hne, UInt64.add_zero]
  rfl

lemma handleSlot_level2 (h : HasTable ctx mem tablecode 2)
    (hidx : idx.toNat < (tableRadices ctx.hdlr 2).prod) :
    handleSlot ctx tablecode idx s = .ok (some (slotAt ctx.hdlr mem tablecode
      (digits (tableRadices ctx.hdlr 2) idx.toNat)), { s with calls := s.calls + 2 }) := by
  generalize hlowest : (VMI_PS_4KB / ctx.hdlr.sizes .handleTableEntry).toUInt32.toUInt64 = lowest
  have hcount := lowest_toNat (ctx.hdlr.sizes .handleTableEntry)
  rw [hlowest] at hcount
  have hpos : 0 < lowest.toNat := hcount ▸ h.lowest_pos
  generalize hmid : VMI_PS_4KB / pointerSize ctx.hdlr.pm = mid
  have hmidNat := toNat_tableNo ctx.hdlr.pm
  rw [hmid] at hmidNat
  have hmidLe : mid.toNat ≤ 1024 := hmidNat ▸ tableNo_le ctx.hdlr.pm
  have hradices : tableRadices ctx.hdlr 2 = [mid.toNat, mid.toNat, lowest.toNat] := by
    rw [hcount, hmidNat]
    rfl
  rw [hradices, List.prod_cons, List.prod_cons, List.prod_singleton] at hidx
  have hmidPos : 0 < mid.toNat := Nat.pos_of_lt_mul_right hidx
  have hupper : (idx / lowest).toNat < mid.toNat * mid.toNat := by
    rw [UInt64.toNat_div]
    apply Nat.div_lt_of_lt_mul
    rwa [Nat.mul_comm, Nat.mul_assoc]
  have htrunc : (idx / lowest).toUInt32.toUInt64 = idx / lowest := by
    have := Nat.mul_le_mul hmidLe hmidLe
    exact toNat_truncated (by omega)
  have hj : (idx / lowest / mid).toNat < mid.toNat := by
    rw [UInt64.toNat_div]
    exact Nat.div_lt_of_lt_mul hupper
  have hk : (idx / lowest % mid).toNat < mid.toNat := by
    rw [UInt64.toNat_mod]
    exact Nat.mod_lt _ hmidPos
  have hdigits : digits (tableRadices ctx.hdlr 2) idx.toNat =
      [(idx / lowest / mid).toNat, (idx / lowest % mid).toNat, (idx % lowest).toNat] := by
    rw [hradices, digits, digits, digits, digits, List.prod_cons, List.prod_singleton,
      List.prod_nil, Nat.div_one, UInt64.toNat_div, UInt64.toNat_div, UInt64.toNat_mod,
      UInt64.toNat_mod, UInt64.toNat_div, Nat.mul_comm mid.toNat, Nat.mod_mul_right_div_self,
      Nat.mod_mul_right_mod, Nat.div_div_eq_div_mul]
  obtain ⟨table, hread, hne, hsub⟩ := h.present _ (hmidNat ▸ hj)
  obtain ⟨table2, hread2, hne2, -⟩ := hsub _ (hmidNat ▸ hk)
  rw [toUInt64_toNat] at hread hread2
  unfold handleSlot
  rw [h.levels_eq, hdigits, slotAt, slotAddr, slotAddr, slotAddr, toUInt64_toNat, toUInt64_toNat,
    toUInt64_toNat, hread, Option.getD_some, hread2, Option.getD_some]
  simp only [bind, StateT.bind, Except.bind, divide_run h.entry_ne, hlowest, hmid,
    divide_run (ne_zero_of_toNat_pos hpos), divide_run (ne_zero_of_toNat_pos hmidPos), htrunc,
    h.readAddr_run, hread, hread2, Option.getD_some, if_neg hne, if_neg hne2, UInt64.add_zero]
  rfl

/-- What is read for an index is the slot with its digits. -/
theorem handleSlot_run {levels : Nat} (h : HasTable ctx mem tablecode levels)
    (hidx : idx.toNat < (tableRadices ctx.hdlr levels).prod) :
    ∃ s', handleSlot ctx tablecode idx s = .ok (some (slotAt ctx.hdlr mem tablecode
      (digits (tableRadices ctx.hdlr levels) idx.toNat)), s') := by
  match levels, h.levels_le with
  | 0, _ => exact ⟨_, handleSlot_level0 h⟩
  | 1, _ => exact ⟨_, handleSlot_level1 h hidx⟩
  | 2, _ => exact ⟨_, handleSlot_level2 h hidx⟩

/-- The process has the table in its object table, and what is read on the way to it is not
zero. -/
structure OnTheWay (ctx : Context κ ε) (mem : UInt64 → Option UInt64) (s : ContextState)
    (process tablecode : UInt64) : Prop where
  process_eq : (hfmGetCurrentProcess ctx s).map Prod.fst = .ok process
  process_ne : process ≠ 0
  handletable_ne : handleTable ctx.hdlr mem process ≠ 0
  tablecode_eq : mem (handleTable ctx.hdlr mem process +
    ctx.hdlr.offsets .handleTableTableCode) = some tablecode
  tablecode_ne : tablecode ≠ 0
  handlecount_ne : ((mem (handleTable ctx.hdlr mem process +
    ctx.hdlr.offsets .handleTableHandleCount)).getD 0).toUInt32 ≠ 0

lemma OnTheWay.run {levels : Nat} {process : UInt64} (hway : OnTheWay ctx mem s process tablecode)
    (h : HasTable ctx mem tablecode levels) :
    ∃ s', foundTablecode ctx s = .ok (some tablecode, s') := by
  have hprocess := hway.process_eq
  cases hrun : hfmGetCurrentProcess ctx s with
  | error fault =>
    rw [hrun] at hprocess
    cases hprocess
  | ok found =>
    obtain ⟨found, s₁⟩ := found
    rw [hrun] at hprocess
    obtain rfl : found = process := Except.ok.inj hprocess
    have htable : (mem (found + ctx.hdlr.offsets .eprocessObjectTable)).getD 0 =
        handleTable ctx.hdlr mem found := rfl
    apply Exists.intro
    unfold foundTablecode
    simp only [bind, StateT.bind, Except.bind, hrun, if_neg hway.process_ne, h.readAddr_run, htable,
      if_neg hway.handletable_ne, hway.tablecode_eq, Option.getD_some, if_neg hway.tablecode_ne,
      h.read32_run, if_neg hway.handlecount_ne]
    rfl

lemma ReadsSlot.unique {handle : UInt64} {slot slot' : Slot} (h : ReadsSlot ctx handle s slot)
    (h' : ReadsSlot ctx handle s slot') : slot = slot' := by
  obtain ⟨s₁, h, -⟩ := h
  obtain ⟨s₂, h', -⟩ := h'
  rw [h] at h'
  exact Option.some.inj (congrArg Prod.fst (Except.ok.inj h'))

lemma prod_tableRadices_le (hdlr : Vmhdlr κ ε) {levels : Nat} (hle : levels ≤ 2) :
    (tableRadices hdlr levels).prod ≤ 2 ^ 32 := by
  have hlow : 0x1000 / (hdlr.sizes .handleTableEntry).toNat ≤ 2 ^ 12 := Nat.div_le_self _ _
  have hupper : (0x1000 / (pointerSize hdlr.pm).toNat) ^ levels ≤ 2 ^ 20 :=
    calc (0x1000 / (pointerSize hdlr.pm).toNat) ^ levels
        ≤ 1024 ^ levels := Nat.pow_le_pow_left (tableNo_le _) _
      _ ≤ 1024 ^ 2 := Nat.pow_le_pow_right (by decide) hle
      _ = 2 ^ 20 := by decide
  unfold tableRadices
  rw [List.prod_append, List.prod_replicate, List.prod_singleton]
  calc (0x1000 / (pointerSize hdlr.pm).toNat) ^ levels *
        (0x1000 / (hdlr.sizes .handleTableEntry).toNat)
      ≤ 2 ^ 20 * 2 ^ 12 := Nat.mul_le_mul hupper hlow
    _ = 2 ^ 32 := by decide

/-- Each index that a table can have is that of a handle. -/
lemma exists_handle {idx : Nat} (hlt : idx < 2 ^ 32) :
    ∃ handle : UInt64, (handle / HANDLE_MULTIPLIER).toNat = idx := by
  have htoNat : (idx * 4).toUInt64.toNat = idx * 4 := by
    apply UInt64.toNat_ofNat_of_lt'
    change idx * 4 < 2 ^ 64
    omega
  apply Exists.intro (idx * 4).toUInt64
  rw [UInt64.toNat_div, htoNat]
  exact Nat.mul_div_cancel idx (by decide)

section Reads

variable {levels : Nat} {process : UInt64} (h : HasTable ctx mem tablecode levels)
  (hway : OnTheWay ctx mem s process tablecode)

lemma getElem?_walkRow {idx : Nat} (hidx : idx < (tableRadices ctx.hdlr levels).prod) :
    (walkRow ctx.hdlr mem [] (tablecode &&& ~~~EX_FAST_REF_MASK)
      (tableRadices ctx.hdlr levels))[idx]? =
      some (slotAt ctx.hdlr mem tablecode (digits (tableRadices ctx.hdlr levels) idx)) := by
  rw [walkRow, List.getElem?_map, getElem?_numerals hidx]
  rfl

include h hway

lemma readsSlot_slotAt {handle : UInt64}
    (hidx : (handle / HANDLE_MULTIPLIER).toNat < (tableRadices ctx.hdlr levels).prod) :
    ReadsSlot ctx handle s (slotAt ctx.hdlr mem tablecode
      (digits (tableRadices ctx.hdlr levels) (handle / HANDLE_MULTIPLIER).toNat)) := by
  obtain ⟨s₁, htable⟩ := hway.run h
  obtain ⟨s₂, hrun⟩ := handleSlot_run (s := s₁) h hidx
  apply readsSlot_of_run
  unfold fileobjSlot
  simp only [bind, StateT.bind, Except.bind, htable]
  exact hrun

/-- The entry of a handle is read at the slot of the walk that the index of the handle counts, and
each slot is that of one index. -/
theorem handle_reads_walk :
    ∃ slots, winTableSlots ctx.hdlr mem tablecode = .ok slots ∧
      slots.length = (tableRadices ctx.hdlr levels).prod ∧
      (∀ handle : UInt64, (handle / HANDLE_MULTIPLIER).toNat < slots.length →
        ∃ slot, slots[(handle / HANDLE_MULTIPLIER).toNat]? = some slot ∧
          ReadsSlot ctx handle s slot) ∧
      ∀ slot ∈ slots, ∃! idx, idx < slots.length ∧
        ∃ handle : UInt64, (handle / HANDLE_MULTIPLIER).toNat = idx ∧
          ReadsSlot ctx handle s slot := by
  have hwalk := winTableSlots_eq h.levels_eq h.levels_le h.entry_ne h.present
  have hget : ∀ {idx}, idx < (tableRadices ctx.hdlr levels).prod →
      (walkRow ctx.hdlr mem [] (tablecode &&& ~~~EX_FAST_REF_MASK)
        (tableRadices ctx.hdlr levels))[idx]? =
      some (slotAt ctx.hdlr mem tablecode (digits (tableRadices ctx.hdlr levels) idx)) :=
    fun hidx => getElem?_walkRow hidx
  generalize hslots : walkRow ctx.hdlr mem [] (tablecode &&& ~~~EX_FAST_REF_MASK)
    (tableRadices ctx.hdlr levels) = slots at hwalk hget
  have hlen : slots.length = (tableRadices ctx.hdlr levels).prod := by
    rw [← hslots, walkRow, List.length_map, length_numerals]
  refine ⟨slots, hwalk, hlen, ?_, ?_⟩
  · intro handle hidx
    rw [hlen] at hidx
    exact ⟨_, hget hidx, readsSlot_slotAt h hway hidx⟩
  · intro slot hslot
    obtain ⟨idx, hat⟩ := List.mem_iff_getElem?.mp hslot
    have hidx : idx < slots.length := (List.getElem?_eq_some_iff.mp hat).1
    rw [hlen] at hidx
    rw [hget hidx, Option.some.injEq] at hat
    obtain ⟨handle, rfl⟩ := exists_handle
      (Nat.lt_of_lt_of_le hidx (prod_tableRadices_le ctx.hdlr h.levels_le))
    apply ExistsUnique.intro (handle / HANDLE_MULTIPLIER).toNat
    · rw [← hat, hlen]
      exact ⟨hidx, handle, rfl, readsSlot_slotAt h hway hidx⟩
    · rintro other ⟨hother, handle', rfl, hread⟩
      rw [hlen] at hother
      have hsame := (readsSlot_slotAt h hway hother).unique hread
      rw [← hat] at hsame
      exact digits_inj hother hidx (congrArg Slot.path hsame)

end Reads

end Lookup

/-- A guest with the same word everywhere: it is the process, the table of handles and its code,
and each pointer of its two levels. -/
def repeatedWord : Context Unit Unit where
  regs := ⟨0, 0, 0, 0, 0, 0, 0, 0, 0⟩
  trap := ⟨0, cstr "NtWriteFile", none, none, 0, false, none⟩
  hdlr := { (Vm.start fun _ => 0x90 : Vm Unit Unit).hdlr with sizes := fun _ => 16 }
  calls := ⟨fun _ _ => some 0x1002, fun _ _ _ => [], fun _ => none, fun _ => (0, 0),
    fun _ => false, fun _ => 0⟩

theorem handle_reads_walk_repeatedWord :
    ∃ slots, winTableSlots repeatedWord.hdlr (fun _ => some 0x1002) 0x1002 = .ok slots ∧
      slots.length = (tableRadices repeatedWord.hdlr 2).prod ∧
      (∀ handle : UInt64, (handle / HANDLE_MULTIPLIER).toNat < slots.length →
        ∃ slot, slots[(handle / HANDLE_MULTIPLIER).toNat]? = some slot ∧
          ReadsSlot repeatedWord handle ⟨0, 0⟩ slot) ∧
      ∀ slot ∈ slots, ∃! idx, idx < slots.length ∧
        ∃ handle : UInt64, (handle / HANDLE_MULTIPLIER).toNat = idx ∧
          ReadsSlot repeatedWord handle ⟨0, 0⟩ slot :=
  have hpresent : ∀ levels base,
      SubtablesPresent repeatedWord.hdlr (fun _ => some 0x1002) levels base := by
    intro levels
    induction levels with
    | zero => exact fun _ => trivial
    | succ levels ih => exact fun _ _ _ => ⟨0x1002, rfl, by decide, ih _⟩
  handle_reads_walk
    ⟨fun _ _ => rfl, rfl, Nat.le_refl 2, by decide, by decide, hpresent _ _⟩
    ⟨rfl, by decide, by decide, rfl, by decide, by decide⟩

end Hfm

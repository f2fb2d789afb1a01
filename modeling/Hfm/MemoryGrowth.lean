import Hfm.ShadowPages
import Hfm.Support.Run

/-!
# The size of the memory with shadow pages

`_init_vmi` keeps the size that LibVMI reports in 32 bits, and `_create_shadow_page` adds a page to
it for each frame that it gets.
-/

namespace Hfm

open Support

variable {κ ε : Type}

/-- The size of the memory that `_init_vmi` keeps in the handler; `vmi_get_memsize` has reported
`memsize`. -/
def Vm.initMemsize (vm : Vm κ ε) (memsize : UInt64) : Vm κ ε :=
  { vm with hdlr := { vm.hdlr with memsize := memsize.toUInt32 } }

/-- What a shadow page was created with: the size that was passed to `xen_alloc_shadow_frame`, and
the number of frames that had been added to the VM before. -/
structure PageSize where
  proposed : UInt64
  reserved : Nat

/-- A VM with the shadow pages that were created, and the number of frames that pages have got
which then failed. -/
structure Growth (κ ε : Type) where
  vm : Vm κ ε
  pages : List PageSize
  lost : Nat

/-- Between two pages the program may give frames back, but does not change the size. -/
inductive GrowthAction (κ ε : Type) where
  | create (calls : ShadowCalls) (frame : Nat)
  | between (vm : Vm κ ε)

namespace Growth

/-- The size passed for a page that was created is the new maximum of the memory. -/
def create (g : Growth κ ε) (calls : ShadowCalls) (frame : Nat) : Growth κ ε :=
  let (remapped, vm) := createShadowPage g.vm calls frame
  if remapped ≠ 0 then
    ⟨vm, g.pages ++ [⟨vm.machine.maxmem, g.vm.machine.reserved.length⟩], g.lost⟩
  else ⟨vm, g.pages, if vm.hdlr.memsize = g.vm.hdlr.memsize then g.lost else g.lost + 1⟩

def Step (g : Growth κ ε) : GrowthAction κ ε → Growth κ ε → Prop
  | .create calls frame, g' => g' = g.create calls frame
  | .between vm, g' => vm.hdlr.memsize = g.vm.hdlr.memsize ∧
      vm.machine.reserved.length ≤ g.vm.machine.reserved.length ∧ g' = { g with vm }

/-- The size passed for each page is what the VM had at first and one page for each page so far,
and not smaller than its memory at that time. -/
def SizesExact (init : UInt64) (g : Growth κ ε) : Prop :=
  ∀ n page, g.pages[n]? = some page →
    page.proposed.toNat = init.toNat + (n + 1) * PAGESIZE ∧
      init.toNat + page.reserved * PAGESIZE ≤ page.proposed.toNat

/-- A page that is going to be created has a size of 32 bits, no frames lost before it but a
multiple of 2^20, and no more frames added than there are pages with it. -/
def SizeFits (init : UInt64) (g : Growth κ ε) : GrowthAction κ ε → Prop
  | .create calls _ => (∃ r, calls.Succeed r) →
      init.toNat + (g.pages.length + 1) * PAGESIZE < 2 ^ 32 ∧ 2 ^ 20 ∣ g.lost ∧
        g.vm.machine.reserved.length ≤ g.pages.length + 1
  | .between _ => True

/-- The size in the handler counts the pages and the lost frames. -/
def Counted (init : UInt64) (g : Growth κ ε) : Prop :=
  g.vm.hdlr.memsize.toNat = (init.toNat + (g.pages.length + g.lost) * PAGESIZE) % 2 ^ 32

end Growth

/-! ### One page -/

lemma createShadowPage_size (vm : Vm κ ε) {calls : ShadowCalls} {r : Nat} (h : calls.Succeed r)
    (frame : Nat) :
    (createShadowPage vm calls frame).1 = r ∧
      (createShadowPage vm calls frame).2.hdlr.memsize = vm.hdlr.memsize + 4096 ∧
      (createShadowPage vm calls frame).2.machine.maxmem = (vm.hdlr.memsize + 4096).toUInt64 := by
  unfold createShadowPage
  dsimp only
  generalize vm.hdlr.memsize + 4096 = proposedMemsize
  rw [xenAllocShadowFrame_succeed vm.machine h proposedMemsize.toUInt64]
  simp only [if_neg h.ne_zero, h.changeGfn, h.readPa, h.writePa, Bool.not_true, Bool.false_eq_true,
    if_false, ne_eq, not_true_eq_false]
  exact ⟨trivial, rfl, rfl⟩

lemma xenAllocShadowFrame_ne_zero {m : Machine} {calls : ShadowCalls} {size : UInt64}
    (h : (xenAllocShadowFrame m calls size).1 ≠ 0) :
    calls.setmaxmem = true ∧
      calls.increaseReservation = some (xenAllocShadowFrame m calls size).1 ∧
      calls.populatePhysmap = true := by
  unfold xenAllocShadowFrame at h ⊢
  cases hset : calls.setmaxmem with
  | false => simp [hset] at h
  | true =>
    cases hinc : calls.increaseReservation with
    | none => simp [hset, hinc] at h
    | some gfn =>
      cases hpop : calls.populatePhysmap with
      | false => simp [hset, hinc, hpop] at h
      | true => exact ⟨rfl, rfl, rfl⟩

/-- A page that fails may still have added to the size. -/
lemma createShadowPage_fails (vm : Vm κ ε) {calls : ShadowCalls} (h : ¬∃ r, calls.Succeed r)
    (frame : Nat) :
    (createShadowPage vm calls frame).1 = 0 ∧
      ((createShadowPage vm calls frame).2.hdlr.memsize = vm.hdlr.memsize ∨
        (createShadowPage vm calls frame).2.hdlr.memsize = vm.hdlr.memsize + 4096) := by
  unfold createShadowPage
  dsimp only
  generalize vm.hdlr.memsize + 4096 = proposedMemsize
  have halloc := @xenAllocShadowFrame_ne_zero vm.machine calls proposedMemsize.toUInt64
  generalize xenAllocShadowFrame vm.machine calls proposedMemsize.toUInt64 = alloc at halloc ⊢
  split
  · exact ⟨rfl, .inl rfl⟩
  · rename_i hne
    obtain ⟨hset, hinc, hpop⟩ := halloc hne
    split
    · exact ⟨rfl, .inr rfl⟩
    · rename_i hgfn
      split
      · exact ⟨rfl, .inr rfl⟩
      · rename_i hread
        split
        · exact ⟨rfl, .inr rfl⟩
        · rename_i hwrite
          refine absurd ⟨alloc.1, hset, hinc, hne, hpop, ?_, not_not.mp hread, not_not.mp hwrite⟩ h
          simpa using hgfn

/-! ### Runs -/

namespace Growth

variable {init : UInt64}

lemma create_succeed (g : Growth κ ε) {calls : ShadowCalls} {r : Nat} (h : calls.Succeed r)
    (frame : Nat) :
    (g.create calls frame).vm.hdlr.memsize = g.vm.hdlr.memsize + 4096 ∧
      (g.create calls frame).pages = g.pages ++
        [⟨(g.vm.hdlr.memsize + 4096).toUInt64, g.vm.machine.reserved.length⟩] ∧
      (g.create calls frame).lost = g.lost := by
  obtain ⟨hremapped, hmemsize, hmaxmem⟩ := createShadowPage_size g.vm h frame
  have hne : (createShadowPage g.vm calls frame).1 ≠ 0 := hremapped ▸ h.ne_zero
  unfold create
  dsimp only
  rw [if_pos hne, hmaxmem]
  exact ⟨hmemsize, rfl, rfl⟩

lemma create_fail (g : Growth κ ε) {calls : ShadowCalls} (h : ¬∃ r, calls.Succeed r) (frame : Nat) :
    (g.create calls frame).pages = g.pages ∧
      ((g.create calls frame).vm.hdlr.memsize = g.vm.hdlr.memsize ∧
          (g.create calls frame).lost = g.lost ∨
        (g.create calls frame).vm.hdlr.memsize = g.vm.hdlr.memsize + 4096 ∧
          (g.create calls frame).lost = g.lost + 1) := by
  obtain ⟨hremapped, hmemsize⟩ := createShadowPage_fails g.vm h frame
  unfold create
  dsimp only
  rw [if_neg (not_not_intro hremapped)]
  refine ⟨rfl, ?_⟩
  rcases hmemsize with hmemsize | hmemsize
  · exact .inl ⟨hmemsize, if_pos hmemsize⟩
  · refine .inr ⟨hmemsize, if_neg ?_⟩
    rw [hmemsize]
    simp

/-- The size for the next page, in 32 bits. -/
lemma Counted.proposed {g : Growth κ ε} (h : g.Counted init) :
    (g.vm.hdlr.memsize + 4096).toNat =
      (init.toNat + (g.pages.length + g.lost + 1) * PAGESIZE) % 2 ^ 32 := by
  have hadd := UInt32.toNat_add g.vm.hdlr.memsize 4096
  unfold Counted at h
  simp only [PAGESIZE, UInt32.reduceToNat] at h hadd ⊢
  omega

/-- Every step keeps the count. -/
lemma Counted.step {g g' : Growth κ ε} {a : GrowthAction κ ε} (h : g.Counted init)
    (hstep : g.Step a g') : g'.Counted init := by
  have hgrow := h.proposed
  unfold Counted at h ⊢
  cases a with
  | between vm =>
    obtain ⟨hmemsize, -, rfl⟩ := hstep
    rw [← h]
    exact congrArg UInt32.toNat hmemsize
  | create calls frame =>
    obtain rfl := hstep
    by_cases hcalls : ∃ r, calls.Succeed r
    · obtain ⟨r, hr⟩ := hcalls
      obtain ⟨hmemsize, hpages, hlost⟩ := g.create_succeed hr frame
      rw [hmemsize, hpages, hlost, hgrow, List.length_append, List.length_singleton,
        Nat.add_right_comm]
    · obtain ⟨hpages, ⟨hmemsize, hlost⟩ | ⟨hmemsize, hlost⟩⟩ := g.create_fail hcalls frame
      · rw [hmemsize, hpages, hlost, h]
      · rw [hmemsize, hpages, hlost, hgrow, Nat.add_assoc]

/-- A size of 32 bits is the one without overflow exactly if that one fits, and the lost frames
are out of sight. -/
lemma proposed_exact_iff (size n lost : Nat) :
    (size + (n + lost + 1) * PAGESIZE) % 2 ^ 32 = size + (n + 1) * PAGESIZE ↔
      size + (n + 1) * PAGESIZE < 2 ^ 32 ∧ 2 ^ 20 ∣ lost := by
  simp only [PAGESIZE]
  omega

/-- A new page has the right size under the condition, and the pages before keep theirs. -/
lemma sizesExact_append {g g' : Growth κ ε} {page : PageSize} (h : g.SizesExact init)
    (hpages : g'.pages = g.pages ++ [page]) :
    g'.SizesExact init ↔
      page.proposed.toNat = init.toNat + (g.pages.length + 1) * PAGESIZE ∧
        init.toNat + page.reserved * PAGESIZE ≤ page.proposed.toNat := by
  unfold SizesExact at h ⊢
  rw [hpages]
  constructor
  · intro hall
    exact hall g.pages.length page List.getElem?_concat_length
  · intro hpage n other hn
    rcases Nat.lt_or_ge n g.pages.length with hlt | hge
    · rw [List.getElem?_append_left hlt] at hn
      exact h n other hn
    · rw [List.getElem?_append_right hge] at hn
      cases hk : n - g.pages.length with
      | zero =>
        rw [hk] at hn
        cases hn
        rw [Nat.le_antisymm (Nat.sub_eq_zero_iff_le.mp hk) hge]
        exact hpage
      | succ k =>
        rw [hk] at hn
        cases hn

/-- A step keeps the sizes right exactly if its size fits. -/
lemma step_iff {g g' : Growth κ ε} {a : GrowthAction κ ε} (hcount : g.Counted init)
    (h : g.SizesExact init) (hstep : g.Step a g') :
    g'.SizesExact init ↔ g.SizeFits init a := by
  cases a with
  | between vm =>
    obtain ⟨-, -, rfl⟩ := hstep
    exact iff_of_true h trivial
  | create calls frame =>
    obtain rfl := hstep
    by_cases hcalls : ∃ r, calls.Succeed r
    · obtain ⟨r, hr⟩ := hcalls
      obtain ⟨-, hpages, -⟩ := g.create_succeed hr frame
      rw [sizesExact_append h hpages]
      refine Iff.trans ?_ (forall_prop_of_true ⟨r, hr⟩).symm
      have hexact := proposed_exact_iff init.toNat g.pages.length g.lost
      dsimp only
      rw [UInt32.toNat_toUInt64, hcount.proposed]
      constructor
      · rintro ⟨hsize, hle⟩
        rw [hsize] at hle
        obtain ⟨hlt, hlost⟩ := hexact.mp hsize
        exact ⟨hlt, hlost, Nat.le_of_mul_le_mul_right (Nat.le_of_add_le_add_left hle) (by decide)⟩
      · rintro ⟨hlt, hlost, hreserved⟩
        have hsize := hexact.mpr ⟨hlt, hlost⟩
        refine ⟨hsize, ?_⟩
        rw [hsize]
        exact Nat.add_le_add_left (Nat.mul_le_mul_right _ hreserved) _
    · obtain ⟨hpages, -⟩ := g.create_fail hcalls frame
      refine iff_of_true ?_ fun hr => absurd hr hcalls
      unfold SizesExact at h ⊢
      rw [hpages]
      exact h

end Growth

/-- The VM after `_init_vmi`, with no frames added. -/
def Growth.start (vm : Vm κ ε) (init : UInt64) : Growth κ ε :=
  ⟨(vm.initMemsize init).setMachine { vm.machine with reserved := [] }, [], 0⟩

lemma Growth.counted_start (vm : Vm κ ε) (init : UInt64) : (Growth.start vm init).Counted init := by
  change init.toUInt32.toNat = (init.toNat + 0 * PAGESIZE) % 2 ^ 32
  rw [UInt64.toNat_toUInt32, Nat.zero_mul, Nat.add_zero]

/-- The size of the memory never wraps exactly if it fits in 32 bits with each page, where no
frame is lost and none added next to the pages. -/
theorem memory_sizes_exact_iff {vm : Vm κ ε} {init : UInt64}
    {tr : List (GrowthAction κ ε × Growth κ ε)} (h : IsRun Growth.Step (Growth.start vm init) tr) :
    Always (Growth.SizesExact init) (Growth.start vm init) tr ↔
      Meets (Growth.SizeFits init) (Growth.start vm init) tr := by
  have hempty : (Growth.start vm init).SizesExact init := fun n page hn => by cases hn
  refine h.always_iff_meets ?_ ?_ (Growth.counted_start vm init) hempty
  · exact fun _ _ _ hcount _ hstep => hcount.step hstep
  · exact fun _ _ _ hcount hsizes hstep => Growth.step_iff hcount hsizes hstep

/-- A VM of this size gets a shadow page for the frame 5. -/
def firstPage (init : UInt64) : List (GrowthAction Unit Unit × Growth Unit Unit) :=
  let calls : ShadowCalls := ⟨true, some 0x900000, true, true, PAGESIZE, PAGESIZE⟩
  [(.create calls 5, (Growth.start (Vm.start fun _ => 0x90) init).create calls 5)]

theorem memory_sizes_exact_iff_small :
    Always (Growth.SizesExact 0x40000000) (Growth.start (Vm.start fun _ => 0x90) 0x40000000)
        (firstPage 0x40000000) ↔
      Meets (Growth.SizeFits 0x40000000) (Growth.start (Vm.start fun _ => 0x90) 0x40000000)
        (firstPage 0x40000000) :=
  memory_sizes_exact_iff ⟨rfl, trivial⟩

/-- With 4 GiB the maximum of the memory is set to one page. -/
theorem large_memory_wraps :
    IsRun Growth.Step (Growth.start (Vm.start fun _ => 0x90) 0x100000000) (firstPage 0x100000000) ∧
      ¬Always (Growth.SizesExact 0x100000000)
        (Growth.start (Vm.start fun _ => 0x90) 0x100000000) (firstPage 0x100000000) := by
  refine ⟨⟨rfl, trivial⟩, fun h => ?_⟩
  have hpage := (h.2 0 ⟨4096, 0⟩ rfl).1
  exact absurd hpage (by decide)

end Hfm

import Hfm.Inject

/-!
# Memory, tables and guest view in step

The original memory, the shadow pages, the table of shadow pages and the breakpoint table
with its flags agree as long as calls succeed and Xen hands out fresh frames.
-/

namespace Hfm

variable {κ ε : Type}

structure ShadowCalls.Succeed (calls : ShadowCalls) (r : Nat) : Prop where
  setmaxmem : calls.setmaxmem = true
  increaseReservation : calls.increaseReservation = some r
  ne_zero : r ≠ 0
  populatePhysmap : calls.populatePhysmap = true
  changeGfn : calls.changeGfn = true
  readPa : calls.readPa = PAGESIZE
  writePa : calls.writePa = PAGESIZE

/-- Every call succeeds, and `r` is the frame Xen has to offer. -/
structure InjectCalls.Succeed (calls : InjectCalls) (r : Nat) : Prop where
  shadow : calls.shadow.Succeed r
  setMemEvent : calls.setMemEvent = true
  read8 : calls.read8 = true
  write8 : calls.write8 = true

structure RemoveCalls.Succeed (calls : RemoveCalls) : Prop where
  read8 : calls.read8 = true
  write8 : calls.write8 = true

/-- Answers that are successes throughout. -/
def InjectCalls.succeeding (r : Nat) : InjectCalls :=
  ⟨⟨true, some r, true, true, PAGESIZE, PAGESIZE⟩, true, true, true⟩

def RemoveCalls.succeeding : RemoveCalls := ⟨true, 0, true⟩

lemma InjectCalls.succeeding_succeed {r : Nat} (h : r ≠ 0) : (InjectCalls.succeeding r).Succeed r :=
  ⟨⟨rfl, rfl, h, rfl, rfl, rfl, rfl⟩, rfl, rfl, rfl⟩

lemma RemoveCalls.succeeding_succeed : RemoveCalls.succeeding.Succeed := ⟨rfl, rfl⟩

/-! ### Pages -/

def pageAddr (frame off : Nat) : Nat := frame <<< PAGE_OFFSET_BITS + off

lemma pageAddr_shift {frame off : Nat} (h : off < PAGESIZE) :
    pageAddr frame off >>> PAGE_OFFSET_BITS = frame := by
  simp only [pageAddr, PAGE_OFFSET_BITS, PAGESIZE, Nat.shiftLeft_eq, Nat.shiftRight_eq_div_pow] at *
  omega

lemma pageAddr_mod {frame off : Nat} (h : off < PAGESIZE) : pageAddr frame off % PAGESIZE = off := by
  simp only [pageAddr, PAGE_OFFSET_BITS, PAGESIZE, Nat.shiftLeft_eq] at *
  omega

lemma pageAddr_split (pa : Nat) : pageAddr (pa >>> PAGE_OFFSET_BITS) (pa % PAGESIZE) = pa := by
  simp only [pageAddr, PAGE_OFFSET_BITS, PAGESIZE, Nat.shiftLeft_eq, Nat.shiftRight_eq_div_pow]
  omega

lemma mod_lt_pageSize (pa : Nat) : pa % PAGESIZE < PAGESIZE := Nat.mod_lt _ (by decide)

lemma pageAddr_inj {frame frame' off off' : Nat} (h : off < PAGESIZE) (h' : off' < PAGESIZE) :
    pageAddr frame off = pageAddr frame' off' ↔ frame = frame' ∧ off = off' := by
  constructor
  · intro he
    have hframe := congrArg (· >>> PAGE_OFFSET_BITS) he
    have hoff := congrArg (· % PAGESIZE) he
    simp only [pageAddr_shift h, pageAddr_shift h', pageAddr_mod h, pageAddr_mod h'] at hframe hoff
    exact ⟨hframe, hoff⟩
  · rintro ⟨rfl, rfl⟩
    rfl

lemma pageAddr_eq_iff {frame off pa : Nat} (h : off < PAGESIZE) :
    pageAddr frame off = pa ↔ frame = pa >>> PAGE_OFFSET_BITS ∧ off = pa % PAGESIZE := by
  conv_lhs => rw [← pageAddr_split pa]
  exact pageAddr_inj h (mod_lt_pageSize pa)

/-! ### The invariants -/

/-- Each shadow frame stands for one frame, is shown in its place by the altp2m view, and
is itself not a frame with a shadow page. -/
structure Mapped (vm : Vm κ ε) : Prop where
  view : ∀ g rm, tmFindRemapped vm.tm g = some rm → vm.machine.slat g = rm.r
  inj : ∀ g g' rm rm', tmFindRemapped vm.tm g = some rm → tmFindRemapped vm.tm g' = some rm' →
    rm.r = rm'.r → g = g'
  apart : ∀ g g' rm rm', tmFindRemapped vm.tm g = some rm → tmFindRemapped vm.tm g' = some rm' →
    rm.r ≠ g'

/-- The byte the shadow page has to show for an address. -/
def shadowByte (vm : Vm κ ε) (pa : Nat) : UInt8 :=
  if tmTrapExist vm.tm pa then INT3_CHAR else vm.machine.mem pa

/-- The doubletrap flag an address has to have. -/
def doubletrapAt (vm : Vm κ ε) (pa : Nat) : UInt8 :=
  if vm.machine.mem pa = INT3_CHAR then 1 else 0

structure Coherent (vm : Vm κ ε) : Prop where
  remapped : ∀ pa, tmTrapExist vm.tm pa = true →
    (tmFindRemapped vm.tm (pa >>> PAGE_OFFSET_BITS)).isSome = true
  memtrap : ∀ pa, tmTrapExist vm.tm pa = true →
    (tmFindMemtrap vm.tm (pa >>> PAGE_OFFSET_BITS)).isSome = true
  shadow : ∀ g rm, tmFindRemapped vm.tm g = some rm → ∀ off < PAGESIZE,
    vm.machine.mem (pageAddr rm.r off) = shadowByte vm (pageAddr g off)
  doubletrap : ∀ pa, tmTrapExist vm.tm pa = true →
    tmCheckDoubletrap vm.tm pa = .ok (doubletrapAt vm pa)

/-- A frame `r` that Xen may hand out for `frame`: neither is a frame in use for something
else. -/
structure FreshFrame (vm : Vm κ ε) (frame r : Nat) : Prop where
  ne : r ≠ frame
  new : ∀ g rm, tmFindRemapped vm.tm g = some rm → r ≠ g ∧ r ≠ rm.r ∧ rm.r ≠ frame

/-- Every byte outside the shadow frames is as before. -/
def Outside (vm vm' : Vm κ ε) : Prop :=
  ∀ pa, (∀ g rm, tmFindRemapped vm'.tm g = some rm → pa >>> PAGE_OFFSET_BITS ≠ rm.r) →
    vm'.machine.mem pa = vm.machine.mem pa

lemma Mapped.congr {vm vm' : Vm κ ε} (hm : Mapped vm)
    (hfind : tmFindRemapped vm'.tm = tmFindRemapped vm.tm)
    (hslat : vm'.machine.slat = vm.machine.slat) : Mapped vm' := by
  refine ⟨?_, ?_, ?_⟩
  · rw [hfind, hslat]
    exact hm.view
  · rw [hfind]
    exact hm.inj
  · rw [hfind]
    exact hm.apart

/-- With the same memory, shadow pages, trapped addresses and flags. -/
lemma Coherent.congr {vm vm' : Vm κ ε} (h : Coherent vm)
    (hfind : tmFindRemapped vm'.tm = tmFindRemapped vm.tm)
    (hfindm : ∀ g, (tmFindMemtrap vm.tm g).isSome = true → (tmFindMemtrap vm'.tm g).isSome = true)
    (hmem : vm'.machine.mem = vm.machine.mem)
    (hexist : ∀ pa, tmTrapExist vm'.tm pa = tmTrapExist vm.tm pa)
    (hflag : ∀ pa, tmTrapExist vm.tm pa = true →
      tmCheckDoubletrap vm'.tm pa = tmCheckDoubletrap vm.tm pa) : Coherent vm' := by
  refine ⟨fun pa hpa => ?_, fun pa hpa => ?_, fun g rm hg off hoff => ?_, fun pa hpa => ?_⟩
  · rw [hexist] at hpa
    rw [hfind]
    exact h.remapped pa hpa
  · rw [hexist] at hpa
    exact hfindm _ (h.memtrap pa hpa)
  · rw [hfind] at hg
    unfold shadowByte
    rw [hexist, hmem]
    exact h.shadow g rm hg off hoff
  · rw [hexist] at hpa
    unfold doubletrapAt
    rw [hflag pa hpa, hmem]
    exact h.doubletrap pa hpa

/-- Where the traps at one address change, the byte that its shadow page shows for it and
its flag have to follow; nothing else may. -/
lemma Coherent.setByte {vm vm' : Vm κ ε} (h : Coherent vm) (hm : Mapped vm) {pa : Nat}
    {rm : Remapped} (hrm : tmFindRemapped vm.tm (pa >>> PAGE_OFFSET_BITS) = some rm)
    (hfind : tmFindRemapped vm'.tm = tmFindRemapped vm.tm)
    (hfindm : tmFindMemtrap vm'.tm = tmFindMemtrap vm.tm)
    (hmemtrap : (tmFindMemtrap vm.tm (pa >>> PAGE_OFFSET_BITS)).isSome = true)
    (hexist : ∀ p, p ≠ pa → tmTrapExist vm'.tm p = tmTrapExist vm.tm p)
    (hflag : ∀ p, p ≠ pa → tmTrapExist vm'.tm p = true →
      tmCheckDoubletrap vm'.tm p = tmCheckDoubletrap vm.tm p)
    (hset : tmTrapExist vm'.tm pa = true → tmCheckDoubletrap vm'.tm pa = .ok (doubletrapAt vm pa))
    (hmem : ∀ a, a ≠ pageAddr rm.r (pa % PAGESIZE) → vm'.machine.mem a = vm.machine.mem a)
    (hbyte : vm'.machine.mem (pageAddr rm.r (pa % PAGESIZE)) =
      if tmTrapExist vm'.tm pa then INT3_CHAR else vm.machine.mem pa) :
    Coherent vm' ∧ Outside vm vm' := by
  have hoff := mod_lt_pageSize pa
  have hkeep : ∀ a, a >>> PAGE_OFFSET_BITS ≠ rm.r → vm'.machine.mem a = vm.machine.mem a := by
    intro a ha
    apply hmem
    rintro rfl
    exact ha (pageAddr_shift hoff)
  have hmapped : ∀ p, (tmFindRemapped vm.tm (p >>> PAGE_OFFSET_BITS)).isSome = true →
      vm'.machine.mem p = vm.machine.mem p := by
    intro p hp
    obtain ⟨rm', hrm'⟩ := Option.isSome_iff_exists.mp hp
    exact hkeep p (hm.apart _ _ rm rm' hrm hrm').symm
  have hremapped : ∀ p, tmTrapExist vm'.tm p = true →
      (tmFindRemapped vm.tm (p >>> PAGE_OFFSET_BITS)).isSome = true := by
    intro p hp
    by_cases hpa : p = pa
    · rw [hpa]
      exact Option.isSome_iff_exists.mpr ⟨rm, hrm⟩
    · rw [hexist p hpa] at hp
      exact h.remapped p hp
  refine ⟨⟨?remapped, ?memtrap, ?shadow, ?flag⟩, ?outside⟩
  case remapped =>
    rw [hfind]
    exact hremapped
  case memtrap =>
    intro p hp
    rw [hfindm]
    by_cases hpa : p = pa
    · rw [hpa]
      exact hmemtrap
    · rw [hexist p hpa] at hp
      exact h.memtrap p hp
  case shadow =>
    intro g rm' hg off ho
    rw [hfind] at hg
    have horig : vm'.machine.mem (pageAddr g off) = vm.machine.mem (pageAddr g off) := by
      apply hmapped
      rw [pageAddr_shift ho, hg]
      rfl
    unfold shadowByte
    rw [horig]
    by_cases hpa : pageAddr g off = pa
    · obtain ⟨rfl, rfl⟩ := (pageAddr_eq_iff ho).mp hpa
      obtain rfl : rm = rm' := Option.some_inj.mp (hrm.symm.trans hg)
      rw [hpa]
      exact hbyte
    · have hne : pageAddr rm'.r off ≠ pageAddr rm.r (pa % PAGESIZE) := by
        rw [ne_eq, pageAddr_inj ho hoff]
        rintro ⟨hr, rfl⟩
        exact hpa (by rw [hm.inj _ _ rm' rm hg hrm hr, pageAddr_split])
      rw [hmem _ hne, hexist _ hpa]
      exact h.shadow g rm' hg off ho
  case flag =>
    intro p hp
    have hsame : doubletrapAt vm' p = doubletrapAt vm p := by
      unfold doubletrapAt
      rw [hmapped p (hremapped p hp)]
    rw [hsame]
    by_cases hpa : p = pa
    · rw [hpa] at hp ⊢
      exact hset hp
    · rw [hflag p hpa hp]
      rw [hexist p hpa] at hp
      exact h.doubletrap p hp
  case outside =>
    intro p hp
    apply hkeep
    rw [hfind] at hp
    exact hp _ rm hrm

/-! ### Creating a shadow page -/

/-- The memory with a page copied to another frame. -/
def copyPage (mem : Nat → UInt8) (frame r : Nat) (a : Nat) : UInt8 :=
  if a >>> PAGE_OFFSET_BITS = r then mem (pageAddr frame (a % PAGESIZE)) else mem a

lemma write_page (m : Machine) (frame r : Nat) :
    (m.write (r <<< PAGE_OFFSET_BITS) (fun i => m.mem (frame <<< PAGE_OFFSET_BITS + i))
      PAGESIZE).mem = copyPage m.mem frame r := by
  funext a
  have hcond : (r <<< PAGE_OFFSET_BITS ≤ a ∧ a < r <<< PAGE_OFFSET_BITS + PAGESIZE) ↔
      a >>> PAGE_OFFSET_BITS = r := by
    simp only [PAGE_OFFSET_BITS, PAGESIZE, Nat.shiftLeft_eq, Nat.shiftRight_eq_div_pow]
    omega
  unfold Machine.write copyPage
  simp only [hcond]
  split
  · rename_i hr
    subst hr
    have haddr : frame <<< PAGE_OFFSET_BITS + (a - (a >>> PAGE_OFFSET_BITS) <<< PAGE_OFFSET_BITS) =
        pageAddr frame (a % PAGESIZE) := by
      simp only [pageAddr, PAGE_OFFSET_BITS, PAGESIZE, Nat.shiftLeft_eq, Nat.shiftRight_eq_div_pow]
      omega
    rw [haddr]
  · rfl

lemma xenAllocShadowFrame_succeed (m : Machine) {calls : ShadowCalls} {r : Nat}
    (h : calls.Succeed r) (proposedMemsize : UInt64) :
    xenAllocShadowFrame m calls proposedMemsize =
      (r, { m with maxmem := proposedMemsize, reserved := r :: m.reserved }) := by
  unfold xenAllocShadowFrame
  simp [h.setmaxmem, h.increaseReservation, h.populatePhysmap]

lemma createShadowPage_succeed (vm : Vm κ ε) {calls : ShadowCalls} {r : Nat}
    (h : calls.Succeed r) (frame : Nat) :
    (createShadowPage vm calls frame).1 = r ∧
      (createShadowPage vm calls frame).2.machine.mem = copyPage vm.machine.mem frame r ∧
      (createShadowPage vm calls frame).2.machine.slat =
        Function.update vm.machine.slat frame r := by
  unfold createShadowPage
  dsimp only
  generalize vm.hdlr.memsize + 4096 = proposedMemsize
  rw [xenAllocShadowFrame_succeed vm.machine h proposedMemsize.toUInt64]
  simp only [if_neg h.ne_zero, h.changeGfn, h.readPa, h.writePa, Bool.not_true, Bool.false_eq_true,
    if_false, ne_eq, not_true_eq_false, Nat.min_self, Vm.setMachine_machine, true_and]
  exact ⟨write_page _ frame r, rfl⟩

/-- The view maps a frame to the shadow page that it gets. -/
lemma Mapped.addRemapped {vm vm' : Vm κ ε} {r frame : Nat} (hm : Mapped vm)
    (hfresh : FreshFrame vm frame r)
    (hslat : vm'.machine.slat = Function.update vm.machine.slat frame r) :
    Mapped (vm'.setTm (tmAddRemapped vm.tm ⟨frame, r⟩)) := by
  have hnew := hfresh.new
  have hfind := tmFindRemapped_addRemapped vm.tm ⟨frame, r⟩
  dsimp only at hfind
  refine ⟨?view, ?inj, ?apart⟩
  case view =>
    intro g rm hg
    rw [Vm.setTm_tm, hfind] at hg
    rw [Vm.setTm_machine, hslat]
    split at hg
    · rename_i hgf
      cases hg
      subst hgf
      rw [Function.update_self]
    · rename_i hgf
      rw [Function.update_of_ne hgf]
      exact hm.view g rm hg
  case inj =>
    intro g g' rm rm' hg hg' he
    rw [Vm.setTm_tm, hfind] at hg hg'
    split at hg
    · split at hg'
      · simp_all
      · cases hg
        exact absurd he (hnew g' rm' hg').2.1
    · split at hg'
      · cases hg'
        exact absurd he.symm (hnew g rm hg).2.1
      · exact hm.inj g g' rm rm' hg hg' he
  case apart =>
    intro g g' rm rm' hg hg'
    rw [Vm.setTm_tm, hfind] at hg hg'
    split at hg
    · cases hg
      split at hg'
      · rename_i he
        rw [he]
        exact hfresh.ne
      · exact (hnew g' rm' hg').1
    · split at hg'
      · rename_i he
        rw [he]
        exact (hnew g rm hg).2.2
      · exact hm.apart g g' rm rm' hg hg'

/-- The shadow page starts as a copy of its frame. -/
lemma Coherent.addRemapped {vm vm' : Vm κ ε} {r frame : Nat} (h : Coherent vm)
    (hnone : tmFindRemapped vm.tm frame = none) (hfresh : FreshFrame vm frame r)
    (hmem : vm'.machine.mem = copyPage vm.machine.mem frame r) :
    Coherent (vm'.setTm (tmAddRemapped vm.tm ⟨frame, r⟩)) := by
  have hnew := hfresh.new
  have hfind := tmFindRemapped_addRemapped vm.tm ⟨frame, r⟩
  dsimp only at hfind
  have hnotrap : ∀ pa, tmTrapExist vm.tm pa = true → pa >>> PAGE_OFFSET_BITS ≠ frame := by
    intro pa hpa he
    have := h.remapped pa hpa
    rw [he, hnone] at this
    cases this
  have hkeep : ∀ pa, pa >>> PAGE_OFFSET_BITS ≠ r → vm'.machine.mem pa = vm.machine.mem pa := by
    intro pa hpa
    rw [hmem, copyPage, if_neg hpa]
  have hexist : ∀ pa, tmTrapExist (tmAddRemapped vm.tm ⟨frame, r⟩) pa = tmTrapExist vm.tm pa :=
    fun _ => rfl
  have hcopy : ∀ off < PAGESIZE,
      vm'.machine.mem (pageAddr r off) = vm.machine.mem (pageAddr frame off) := by
    intro off hoff
    rw [hmem, copyPage, if_pos (pageAddr_shift hoff), pageAddr_mod hoff]
  refine ⟨?remapped, ?memtrap, ?shadow, ?doubletrap⟩
  case remapped =>
    intro pa hpa
    rw [Vm.setTm_tm, hfind, if_neg (hnotrap pa hpa)]
    exact h.remapped pa hpa
  case memtrap => exact h.memtrap
  case shadow =>
    intro g rm hg off hoff
    rw [Vm.setTm_tm, hfind] at hg
    unfold shadowByte
    rw [Vm.setTm_tm, Vm.setTm_machine, hexist]
    split at hg
    · rename_i hgf
      cases hg
      rw [hgf]
      have hno : tmTrapExist vm.tm (pageAddr frame off) = false := by
        rw [← Bool.not_eq_true]
        exact fun htrap => hnotrap _ htrap (pageAddr_shift hoff)
      have hsame := hkeep (pageAddr frame off) (by rw [pageAddr_shift hoff]; exact hfresh.ne.symm)
      rw [hno, if_neg Bool.false_ne_true, hsame]
      exact hcopy off hoff
    · obtain ⟨hrg, hrr, -⟩ := hnew g rm hg
      rw [hkeep _ (by rw [pageAddr_shift hoff]; exact hrr.symm),
        hkeep _ (by rw [pageAddr_shift hoff]; exact hrg.symm)]
      exact h.shadow g rm hg off hoff
  case doubletrap =>
    intro pa hpa
    obtain ⟨rm, hrm⟩ := Option.isSome_iff_exists.mp (h.remapped pa hpa)
    have := h.doubletrap pa hpa
    unfold doubletrapAt at this ⊢
    rw [Vm.setTm_machine, hkeep pa (hnew _ rm hrm).1.symm]
    exact this

/-- A frame that gets its shadow page shows the same bytes as before. -/
lemma shadowOf_coherent {vm : Vm κ ε} {calls : InjectCalls} {r frame : Nat} (h : Coherent vm)
    (hm : Mapped vm) (hcalls : calls.Succeed r)
    (hfresh : tmFindRemapped vm.tm frame = none → FreshFrame vm frame r) :
    Coherent (shadowOf vm calls frame).2 ∧ Mapped (shadowOf vm calls frame).2 ∧
      (∃ rm, tmFindRemapped (shadowOf vm calls frame).2.tm frame = some rm ∧
        rm.r = (shadowOf vm calls frame).1) ∧
      ∀ pa, pa >>> PAGE_OFFSET_BITS ≠ (shadowOf vm calls frame).1 →
        (shadowOf vm calls frame).2.machine.mem pa = vm.machine.mem pa := by
  unfold shadowOf
  split
  · rename_i rm hrm
    exact ⟨h, hm, ⟨rm, hrm, rfl⟩, fun _ _ => rfl⟩
  · rename_i hnone
    obtain ⟨hr, hmem, hslat⟩ := createShadowPage_succeed vm hcalls.shadow frame
    obtain ⟨-, htm⟩ := createShadowPage_aside vm calls.shadow frame
    dsimp only
    generalize createShadowPage vm calls.shadow frame = created at hr hmem hslat htm ⊢
    obtain ⟨r', vm'⟩ := created
    dsimp only at hr hmem hslat htm ⊢
    subst hr
    rw [if_pos hcalls.shadow.ne_zero, htm]
    refine ⟨h.addRemapped hnone (hfresh hnone) hmem, hm.addRemapped (hfresh hnone) hslat,
      ⟨⟨frame, r'⟩, ?_, rfl⟩, ?_⟩
    · rw [Vm.setTm_tm, tmFindRemapped_addRemapped, if_pos rfl]
    · intro pa hpa
      rw [Vm.setTm_machine, hmem, copyPage, if_neg hpa]

lemma createShadowPage_memEvent (vm : Vm κ ε) (calls : ShadowCalls) (frame : Nat) :
    (createShadowPage vm calls frame).2.machine.memEvent = vm.machine.memEvent := by
  unfold createShadowPage
  dsimp only
  generalize vm.hdlr.memsize + 4096 = proposedMemsize
  have halloc := (xenAllocShadowFrame_machine vm.machine calls proposedMemsize.toUInt64).2.2.1
  generalize xenAllocShadowFrame vm.machine calls proposedMemsize.toUInt64 = alloc at halloc ⊢
  split
  · exact halloc
  · split
    · exact halloc
    · split
      · exact halloc
      · split
        · simpa using halloc
        · simpa using halloc

lemma shadowOf_frames (vm : Vm κ ε) {calls : InjectCalls} {r : Nat} (h : calls.Succeed r)
    (frame : Nat) :
    (shadowOf vm calls frame).2.machine.memEvent = vm.machine.memEvent ∧
      tmFindMemtrap (shadowOf vm calls frame).2.tm = tmFindMemtrap vm.tm ∧
      ∀ g, (tmFindRemapped (shadowOf vm calls frame).2.tm g).isSome =
        (decide (g = frame) || (tmFindRemapped vm.tm g).isSome) := by
  unfold shadowOf
  split
  · rename_i rm hrm
    refine ⟨rfl, rfl, fun g => ?_⟩
    by_cases hg : g = frame
    · simp [hg, hrm]
    · simp [hg]
  · have hmem := createShadowPage_memEvent vm calls.shadow frame
    obtain ⟨-, htm⟩ := createShadowPage_aside vm calls.shadow frame
    obtain ⟨hr, -, -⟩ := createShadowPage_succeed vm h.shadow frame
    have hne : (createShadowPage vm calls.shadow frame).1 ≠ 0 := by
      rw [hr]
      exact h.shadow.ne_zero
    dsimp only
    rw [if_pos hne]
    refine ⟨hmem, ?_, fun g => ?_⟩
    · rw [Vm.setTm_tm, htm]
      rfl
    · rw [Vm.setTm_tm, htm, tmFindRemapped_addRemapped]
      by_cases hg : g = frame
      · simp [hg]
      · simp [hg]

/-! ### Setting a breakpoint -/

lemma tmFindMemtrap_addMemtrap (tm : Trapmngr κ ε) (frame : Nat) (w : Memtrap) (g : Nat) :
    tmFindMemtrap (tmAddMemtrap tm frame w) g = if g = frame then some w else tmFindMemtrap tm g := by
  unfold tmFindMemtrap tmAddMemtrap
  by_cases hg : g = frame
  · subst hg
    simp
  · simp [AList.lookup_insert_ne hg, hg]

lemma protectFrame_keeps (vm : Vm κ ε) (calls : InjectCalls) (frame : Nat) :
    let vm' := protectFrame vm calls frame
    vm'.machine.mem = vm.machine.mem ∧ vm'.machine.slat = vm.machine.slat ∧
      tmFindRemapped vm'.tm = tmFindRemapped vm.tm ∧
      (tmFindMemtrap vm'.tm frame).isSome = true ∧
      ∀ g, (tmFindMemtrap vm.tm g).isSome = true → (tmFindMemtrap vm'.tm g).isSome = true := by
  unfold protectFrame
  cases hw : tmFindMemtrap vm.tm frame with
  | some w =>
    dsimp only
    split
    · refine ⟨rfl, rfl, rfl, ?_, fun _ h => h⟩
      rw [Vm.setMachine_tm, hw]
      rfl
    · exact ⟨rfl, rfl, rfl, by rw [hw]; rfl, fun _ h => h⟩
  | none =>
    have hadd : ∀ g, (tmFindMemtrap vm.tm g).isSome = true ∨ g = frame →
        (tmFindMemtrap (tmAddMemtrap vm.tm frame ⟨⟩) g).isSome = true := by
      intro g hg
      rw [tmFindMemtrap_addMemtrap]
      split
      · rfl
      · rename_i hne
        exact hg.resolve_right hne
    dsimp only
    split
    · exact ⟨rfl, rfl, rfl, hadd frame (.inr rfl), fun g hg => hadd g (.inl hg)⟩
    · exact ⟨rfl, rfl, rfl, hadd frame (.inr rfl), fun g hg => hadd g (.inl hg)⟩

lemma protectFrame_coherent {vm : Vm κ ε} (h : Coherent vm) (hm : Mapped vm) (calls : InjectCalls)
    (frame : Nat) : Coherent (protectFrame vm calls frame) ∧ Mapped (protectFrame vm calls frame) := by
  obtain ⟨hmem, hslat, hfind, -, hmemtrap⟩ := protectFrame_keeps vm calls frame
  obtain ⟨-, htraps⟩ := protectFrame_aside vm calls frame
  have hexist := htraps.trapExist
  have hcheck := htraps.checkDoubletrap
  refine ⟨h.congr hfind hmemtrap hmem (fun pa => ?_) (fun pa _ => ?_), hm.congr hfind hslat⟩
  · rw [hexist]
  · rw [hcheck]

/-- The memory with the INT3 for `pa` in the shadow frame `r`. -/
def breakpointMem (mem : Nat → UInt8) (r pa : Nat) : Nat → UInt8 :=
  if mem pa = INT3_CHAR then mem else Function.update mem (pageAddr r (pa % PAGESIZE)) INT3_CHAR

lemma setInt3_succeed (vm : Vm κ ε) {calls : InjectCalls} (hread : calls.read8 = true)
    (hwrite : calls.write8 = true) {pa frame : Nat} (hframe : pa >>> PAGE_OFFSET_BITS = frame) :
    let shadowed := shadowOf vm calls frame
    let vm' := protectFrame shadowed.2 calls frame
    setInt3 vm calls pa = (some (doubletrapAt vm' pa),
      vm'.setMachine { vm'.machine with mem := breakpointMem vm'.machine.mem shadowed.1 pa }) := by
  subst hframe
  unfold setInt3 doubletrapAt breakpointMem
  simp only [hread, hwrite, Bool.not_true, Bool.false_eq_true, if_false]
  split
  · rfl
  · rfl

/-- The first trap at an address: the shadow page gets the INT3 unless the byte is one. -/
lemma firstTrap_coherent {vm : Vm κ ε} (h : Coherent vm) (hm : Mapped vm) {trap : Trap κ ε}
    {rm : Remapped} (hrm : tmFindRemapped vm.tm trap.gfn = some rm)
    (hmemtrap : (tmFindMemtrap vm.tm trap.gfn).isSome = true)
    (hnew : tmTrapExist vm.tm trap.pa = false) {vm' : Vm κ ε}
    (hmem : vm'.machine.mem = breakpointMem vm.machine.mem rm.r trap.pa)
    (hslat : vm'.machine.slat = vm.machine.slat)
    (htm : vm'.tm = withDoubletrap (tmAddInt3trap vm.tm trap) trap.pa (doubletrapAt vm trap.pa)) :
    Coherent vm' ∧ Mapped vm' ∧ Outside vm vm' := by
  have hex : tmTrapExist (tmAddInt3trap vm.tm trap) trap.pa = true := by simp
  have hexist : ∀ pa, tmTrapExist vm'.tm pa = (decide (pa = trap.pa) || tmTrapExist vm.tm pa) := by
    intro pa
    rw [htm, tmTrapExist_withDoubletrap hex, tmTrapExist_add]
  have hfind : tmFindRemapped vm'.tm = tmFindRemapped vm.tm := by
    rw [htm, ← tmFindRemapped_add vm.tm trap]
    rfl
  have hfindm : tmFindMemtrap vm'.tm = tmFindMemtrap vm.tm := by
    rw [htm, ← tmFindMemtrap_add vm.tm trap]
    rfl
  have hold := h.shadow _ rm hrm _ (mod_lt_pageSize trap.pa)
  rw [Trap.gfn, pageAddr_split, shadowByte, hnew, if_neg Bool.false_ne_true] at hold
  have hset : Coherent vm' ∧ Outside vm vm' := by
    apply h.setByte hm hrm hfind hfindm hmemtrap
    · intro p hp
      rw [hexist, decide_eq_false hp, Bool.false_or]
    · intro p hp hpex
      rw [hexist, decide_eq_false hp, Bool.false_or] at hpex
      rw [htm, tmCheckDoubletrap_withDoubletrap, if_neg hp, tmCheckDoubletrap_add trap hpex]
    · intro _
      rw [htm, tmCheckDoubletrap_withDoubletrap, if_pos rfl]
    · intro a ha
      rw [hmem, breakpointMem]
      split
      · rfl
      · exact Function.update_of_ne ha _ _
    · rw [hmem, hexist, if_pos (by simp), breakpointMem]
      split
      · rename_i hcc
        rw [← hcc]
        exact hold
      · exact Function.update_self _ _ _
  exact ⟨hset.1, hm.congr hfind hslat, hset.2⟩

/-- With all calls succeeding, injecting a trap keeps everything in step. -/
theorem injectTrap_coherent {vm : Vm κ ε} (h : Coherent vm) (hm : Mapped vm) {trap : Trap κ ε}
    {calls : InjectCalls} {r : Nat} (hcalls : calls.Succeed r)
    (hfresh : tmFindRemapped vm.tm trap.gfn = none → FreshFrame vm trap.gfn r) :
    ∃ vm', injectTrap vm calls trap = .ok (.success, vm') ∧ Coherent vm' ∧ Mapped vm' ∧
      Outside vm vm' := by
  unfold injectTrap
  by_cases hex : tmTrapExist vm.tm trap.pa = true
  · rw [if_pos hex]
    have hexist : ∀ pa, tmTrapExist (tmAddInt3trap vm.tm trap) pa = tmTrapExist vm.tm pa := by
      intro pa
      rw [tmTrapExist_add]
      by_cases hpa : pa = trap.pa
      · rw [hpa, hex, Bool.or_true]
      · rw [decide_eq_false hpa, Bool.false_or]
    have hfind := tmFindRemapped_add vm.tm trap
    have hfindm := tmFindMemtrap_add vm.tm trap
    refine ⟨_, rfl, h.congr hfind (fun g hg => ?_) rfl hexist (fun pa hpa => ?_),
      hm.congr hfind rfl, fun _ _ => rfl⟩
    · rw [Vm.setTm_tm, hfindm]
      exact hg
    · exact tmCheckDoubletrap_add trap hpa
  · rw [if_neg hex]
    obtain ⟨h₁, hm₁, ⟨rm, hrm, hr⟩, hout₁⟩ := shadowOf_coherent h hm hcalls hfresh
    obtain ⟨-, ht₁⟩ := shadowOf_aside vm calls trap.gfn
    have hframe : trap.pa >>> PAGE_OFFSET_BITS = trap.gfn := rfl
    rw [setInt3_succeed vm hcalls.read8 hcalls.write8 hframe]
    generalize shadowOf vm calls trap.gfn = shadowed at h₁ hm₁ hrm hr hout₁ ht₁ ⊢
    obtain ⟨r', vm₁⟩ := shadowed
    dsimp only at h₁ hm₁ hrm hr hout₁ ht₁ ⊢
    obtain ⟨h₂, hm₂⟩ := protectFrame_coherent h₁ hm₁ calls trap.gfn
    obtain ⟨hmem₂, hslat₂, hfind₂, hmemtrap₂, -⟩ := protectFrame_keeps vm₁ calls trap.gfn
    obtain ⟨-, ht₂⟩ := protectFrame_aside vm₁ calls trap.gfn
    have hnew : tmTrapExist (protectFrame vm₁ calls trap.gfn).tm trap.pa = false := by
      rw [ht₂.trapExist, ht₁.trapExist]
      exact Bool.eq_false_iff.mpr hex
    rw [← hfind₂] at hrm
    subst hr
    generalize protectFrame vm₁ calls trap.gfn = vm₂ at h₂ hm₂ hmem₂ hrm hmemtrap₂ hnew ⊢
    have hset : tmSetDoubletrap (tmAddInt3trap vm₂.tm trap) trap.pa (doubletrapAt vm₂ trap.pa) =
        .ok _ := tmSetDoubletrap_eq (by simp) _
    simp only [Vm.setMachine_tm, hset]
    refine ⟨_, rfl, ?_⟩
    obtain ⟨h₃, hm₃, hout₃⟩ : Coherent _ ∧ Mapped _ ∧ Outside vm₂ ((vm₂.setMachine
        { vm₂.machine with mem := breakpointMem vm₂.machine.mem rm.r trap.pa }).setTm
        (withDoubletrap (tmAddInt3trap vm₂.tm trap) trap.pa (doubletrapAt vm₂ trap.pa))) :=
      firstTrap_coherent h₂ hm₂ hrm hmemtrap₂ hnew rfl rfl rfl
    refine ⟨h₃, hm₃, fun pa hpa => ?_⟩
    rw [hout₃ pa hpa, hmem₂]
    apply hout₁
    refine hpa trap.gfn rm ?_
    rw [← tmFindRemapped_add _ trap] at hrm
    exact hrm

/-! ### Destroying a trap -/

lemma removeInt3_succeed (vm : Vm κ ε) {calls : RemoveCalls} (hcalls : calls.Succeed) {pa : Nat}
    {rm : Remapped} (hrm : tmFindRemapped vm.tm (pa >>> PAGE_OFFSET_BITS) = some rm) :
    removeInt3 vm calls pa = .ok (vm.setMachine
      (vm.machine.write8 (pageAddr rm.r (pa % PAGESIZE)) (vm.machine.mem pa))) := by
  unfold removeInt3
  simp only [hcalls.read8, hcalls.write8, if_true, hrm]
  rfl

/-- With all calls succeeding, removing a registered trap keeps everything in step. -/
theorem destroyTrap_coherent [DecidableEq κ] [DecidableEq ε] {vm : Vm κ ε} (h : Coherent vm)
    (hm : Mapped vm) {reg : List (Trap κ ε)} (hreg : Indexed vm.tm reg) {trap : Trap κ ε}
    (hex : tmTrapExist vm.tm trap.pa = true) {calls : RemoveCalls} (hcalls : calls.Succeed) :
    ∃ vm', destroyTrap vm calls trap = .ok vm' ∧ Coherent vm' ∧ Mapped vm' ∧ Outside vm vm' := by
  have hfind := tmFindRemapped_remove vm.tm trap
  have hfindm := tmFindMemtrap_remove vm.tm trap
  have hexist := hreg.trapExist_remove trap
  obtain ⟨rm, hrm⟩ := Option.isSome_iff_exists.mp (h.remapped trap.pa hex)
  unfold destroyTrap
  dsimp only
  split
  · rename_i hzero
    have hgone : tmTrapExist (tmRemoveInt3trap vm.tm trap).2 trap.pa = false := by
      rw [← Bool.not_eq_true, hexist, if_pos rfl]
      exact fun hne => hne hzero
    rw [removeInt3_succeed _ hcalls (by rw [Vm.setTm_tm, hfind]; exact hrm)]
    obtain ⟨vm', hvm'⟩ : ∃ vm', vm' = (vm.setTm (tmRemoveInt3trap vm.tm trap).2).setMachine
      (vm.machine.write8 (pageAddr rm.r (trap.pa % PAGESIZE)) (vm.machine.mem trap.pa)) := ⟨_, rfl⟩
    have htm : vm'.tm = (tmRemoveInt3trap vm.tm trap).2 := by rw [hvm']; rfl
    have hmem : vm'.machine.mem = Function.update vm.machine.mem
        (pageAddr rm.r (trap.pa % PAGESIZE)) (vm.machine.mem trap.pa) := by rw [hvm']; rfl
    have hslat : vm'.machine.slat = vm.machine.slat := by rw [hvm']; rfl
    rw [← htm] at hfind hfindm hexist hgone
    have hset : Coherent vm' ∧ Outside vm vm' := by
      apply h.setByte hm hrm hfind hfindm (h.memtrap trap.pa hex)
      · intro p hp
        rw [Bool.eq_iff_iff, hexist, if_neg hp]
      · intro p _ hpex
        rw [htm] at hpex ⊢
        exact (tmCheckDoubletrap_remove trap hpex).2
      · intro hpex
        rw [hgone] at hpex
        cases hpex
      · intro a ha
        rw [hmem]
        exact Function.update_of_ne ha _ _
      · rw [hgone, if_neg Bool.false_ne_true, hmem]
        exact Function.update_self _ _ _
    exact ⟨vm', by rw [hvm']; rfl, hset.1, hm.congr hfind hslat, hset.2⟩
  · rename_i hleft
    have hsame : ∀ pa, tmTrapExist (tmRemoveInt3trap vm.tm trap).2 pa = tmTrapExist vm.tm pa := by
      intro pa
      rw [Bool.eq_iff_iff, hexist]
      split
      · rename_i hpa
        rw [hpa, hex]
        simpa using hleft
      · rfl
    refine ⟨_, rfl, h.congr hfind (fun g hg => ?_) rfl hsame (fun pa hpa => ?_),
      hm.congr hfind rfl, fun _ _ => rfl⟩
    · rw [Vm.setTm_tm, hfindm]
      exact hg
    · rw [← hsame pa] at hpa
      exact (tmCheckDoubletrap_remove trap hpa).2

end Hfm

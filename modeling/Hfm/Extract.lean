import Hfm.Context
import Hfm.Support.ByteFile
import Hfm.Support.Triple
import Hfm.Support.Walk

/-!
# The extraction of a file

`_extract_ca_file` and `hfm_extract_file` of `src/context.c` with the file that they write:
the pages of a section, at the places that its subsections say. Each section opens the file anew.
-/

namespace Hfm.Extract

open Support

/-! ### The functions -/

/-- What the extraction takes from outside, next to its reads of virtual memory:
`ENTRY_PRESENT(1, pte)`, the bytes of physical memory by the number of the read, and whether
`fopen` succeeds by the number of its call. -/
structure ExtractCalls where
  entryPresent : UInt64 → Bool
  readPa : Nat → UInt64 → List UInt8
  fopen : Nat → Bool

/-- The state of the reads, how often a file was opened, and the file at the path. -/
structure ExtractState where
  context : ContextState
  fopens : Nat
  file : Option (List UInt8)

abbrev ExtractM := StateT ExtractState (Except Fault)

/-- A read of the guest. -/
def guest {α : Type} (x : ContextM α) : ExtractM α :=
  zoom (·.context) (fun context s => { s with context }) x

/-- `fopen(path, "w")`. -/
def fopen (calls : ExtractCalls) : ExtractM Bool := fun s =>
  let opened := calls.fopen s.fopens
  .ok (opened, { s with fopens := s.fopens + 1, file := if opened then some [] else s.file })

/-- `fseek`, then `fwrite`. -/
def fwrite (c : Chunk) : ExtractM Unit := modify fun s => { s with file := s.file.map c.write }

def littleEndian (bytes : List UInt8) : UInt64 := bytes.foldr (fun b n => b.toUInt64 + 256 * n) 0

/-- `VMI_BIT_MASK(0,11)` and `VMI_BIT_MASK(12,48)`. -/
def VMI_BIT_MASK_0_11 : UInt64 := 0xfff
def VMI_BIT_MASK_12_48 : UInt64 := 0x1fffffffff000

section Functions

variable {κ ε : Type} (ctx : Context κ ε) (calls : ExtractCalls)

/-- The size of an entry of a page table. -/
def mmpteSize (pm : PageMode) : Nat := if pm = .legacy then 4 else 8

/-- One round of the loop over the pages; `false` where it breaks. -/
def extractPage (base subsectionOffset : UInt64) (ptecount : Nat) : ExtractM Bool := do
  let size := mmpteSize ctx.hdlr.pm
  let bytes ← guest (hfmRead ctx (base + size.toUInt64 * ptecount.toUInt64) size)
  if bytes.length ≠ size then return false
  else if calls.entryPresent (littleEndian bytes) then
    let page ← guest (ask (calls.readPa · (VMI_BIT_MASK_12_48 &&& littleEndian bytes)))
    if page.length ≠ 4096 then return true
    else
      fwrite ⟨(subsectionOffset + ptecount.toUInt64 * 0x1000).toNat, page⟩
      return true
  else return true

def extractPages (base subsectionOffset : UInt64) : List Nat → ExtractM Unit
  | [] => return ()
  | ptecount :: rest => do
    if ← extractPage ctx calls base subsectionOffset ptecount then
      extractPages base subsectionOffset rest
    else return ()

/-- The loop over the subsections, of at most so many rounds; `false` if it has not ended then. -/
def extractSubsections (controlArea : UInt64) : Nat → UInt64 → ExtractM Bool
  | rounds, subsection => do
    if subsection = 0 then return true
    else match rounds with
    | 0 => return false
    | rounds + 1 =>
      let offsets := ctx.hdlr.offsets
      let test ← guest (hfmReadAddr ctx (subsection + offsets .subsectionControlArea))
      if test ≠ controlArea then return true
      else
        let base ← guest (hfmReadAddr ctx (subsection + offsets .subsectionSubsectionBase))
        if base &&& VMI_BIT_MASK_0_11 = 0 then return true
        else
          let ptes ← guest (hfmRead32 ctx (subsection + offsets .subsectionPtesInSubsection))
          if ptes = 0 then return true
          else
            let start ← guest (hfmRead32 ctx (subsection + offsets .subsectionStartingSector))
            extractPages ctx calls base (start.toUInt64 * 0x200) (List.range ptes.toNat)
            let next ← guest (hfmReadAddr ctx (subsection + offsets .subsectionNextSubsection))
            extractSubsections controlArea rounds next

/-- The checks in front of `fopen`. -/
def isControlArea (controlArea : UInt64) : ContextM Bool := do
  let offsets := ctx.hdlr.offsets
  let segment ← hfmReadAddr ctx (controlArea + offsets .controlAreaSegment)
  let test ← hfmReadAddr ctx (segment + offsets .segmentControlArea)
  if test ≠ controlArea then return false
  else
    let test ← hfmRead64 ctx (segment + offsets .segmentSizeOfSegment)
    let test2 ← hfmRead32 ctx (segment + offsets .segmentTotalNumberOfPtes)
    return test = test2.toUInt64 * 4096

/-- None if the loop has not ended after so many rounds. A section that was extracted has no
`return`. -/
def extractCaFile (rounds : Nat) (controlArea : UInt64) : ExtractM (Option UInt32) := do
  if ← guest (isControlArea ctx controlArea) then
    if ← fopen calls then
      let subsection := controlArea + ctx.hdlr.sizes .controlArea
      if ← extractSubsections ctx calls controlArea rounds subsection then
        return some (← guest (ask ctx.calls.indeterminate)).toUInt32
      else return none
    else return some (-1)
  else return some (-1)

/-- A section that is not skipped; whether it counts. -/
def extractSection (rounds : Nat) (controlArea : UInt64) (skip : Bool) : ExtractM (Option Nat) :=
  if skip then return some 0
  else return (← extractCaFile ctx calls rounds controlArea).map fun ret => if ret = 0 then 1 else 0

def hfmExtractFile (rounds : Nat) (object : UInt64) : ExtractM (Option Nat) := do
  let offsets := ctx.hdlr.offsets
  let sop ← guest (hfmReadAddr ctx (object + offsets .fileObjectSectionObjectPointer))
  let datasection ← guest (hfmReadAddr ctx (sop + offsets .sectionObjectPointersDataSectionObject))
  match ← extractSection ctx calls rounds datasection (datasection = 0) with
  | none => return none
  | some data =>
    let _sharedcachemap ← guest (hfmReadAddr ctx (sop + offsets .sectionObjectPointersSharedCacheMap))
    let imagesection ←
      guest (hfmReadAddr ctx (sop + offsets .sectionObjectPointersImageSectionObject))
    let image ← extractSection ctx calls rounds imagesection
      (imagesection = 0 || imagesection = datasection)
    return image.map (data + ·)

end Functions

/-! ### The sections in memory -/

/-- What the reads find: values, bytes, and pages of physical memory. -/
structure Image where
  mem : Memory
  bytes : UInt64 → Nat → List UInt8
  phys : UInt64 → List UInt8

/-- `SUBSECTION`. -/
structure Subsection where
  controlArea : UInt64
  subsectionBase : UInt64
  ptesInSubsection : UInt32
  startingSector : UInt32
  nextSubsection : UInt64

/-- The walk goes on with the pages of the subsection. -/
def Subsection.Valid (s : Subsection) (controlArea : UInt64) : Prop :=
  s.controlArea = controlArea ∧ s.subsectionBase &&& VMI_BIT_MASK_0_11 ≠ 0 ∧ s.ptesInSubsection ≠ 0

instance (s : Subsection) (controlArea : UInt64) : Decidable (s.Valid controlArea) :=
  inferInstanceAs (Decidable (_ ∧ _ ∧ _))

namespace Image

variable (image : Image)

/-- The callback on a guest of this memory. -/
def context {κ ε : Type} (ctx : Context κ ε) : Context κ ε :=
  { ctx.withMem image.mem with
    calls := { (ctx.withMem image.mem).calls with readBytes := fun _ => image.bytes } }

def calls (calls : ExtractCalls) : ExtractCalls := { calls with readPa := fun _ => image.phys }

def subsection (offsets : WinOffset → UInt64) (addr : UInt64) : Subsection where
  controlArea := image.mem.value (addr + offsets .subsectionControlArea)
  subsectionBase := image.mem.value (addr + offsets .subsectionSubsectionBase)
  ptesInSubsection := (image.mem.value (addr + offsets .subsectionPtesInSubsection)).toUInt32
  startingSector := (image.mem.value (addr + offsets .subsectionStartingSector)).toUInt32
  nextSubsection := image.mem.value (addr + offsets .subsectionNextSubsection)

/-- The subsection behind one whose pages are extracted. -/
def nextSubsection (offsets : WinOffset → UInt64) (controlArea addr : UInt64) : Option UInt64 :=
  let s := image.subsection offsets addr
  if addr ≠ 0 ∧ s.Valid controlArea then some s.nextSubsection else none

/-- The entry of a page; none if it cannot be read. -/
def pte? (pm : PageMode) (s : Subsection) (i : Nat) : Option UInt64 :=
  let size := mmpteSize pm
  let bytes := (image.bytes (s.subsectionBase + size.toUInt64 * i.toUInt64) size).take size
  if bytes.length = size then some (littleEndian bytes) else none

/-- A page that is present and can be read, at its offset in the file. -/
def page? (entryPresent : UInt64 → Bool) (pm : PageMode) (s : Subsection) (i : Nat) :
    Option Chunk := do
  let pte ← image.pte? pm s i
  let page := image.phys (VMI_BIT_MASK_12_48 &&& pte)
  if entryPresent pte = true ∧ page.length = 4096 then
    some ⟨s.startingSector.toNat * 512 + i * 4096, page⟩
  else none

/-- All pages of a subsection that are present and can be read. -/
def pages (entryPresent : UInt64 → Bool) (pm : PageMode) (s : Subsection) : List Chunk :=
  (List.range s.ptesInSubsection.toNat).filterMap (image.page? entryPresent pm s)

/-- Those in front of the first entry that cannot be read. -/
def leadingPages (entryPresent : UInt64 → Bool) (pm : PageMode) (s : Subsection) : List Chunk :=
  ((List.range s.ptesInSubsection.toNat).takeWhile fun i => (image.pte? pm s i).isSome).filterMap
    (image.page? entryPresent pm s)

/-- The checks of a control area. -/
def IsControlArea (offsets : WinOffset → UInt64) (controlArea : UInt64) : Prop :=
  let segment := image.mem.value (controlArea + offsets .controlAreaSegment)
  image.mem.value (segment + offsets .segmentControlArea) = controlArea ∧
    image.mem.value (segment + offsets .segmentSizeOfSegment) =
      (image.mem.value (segment + offsets .segmentTotalNumberOfPtes)).toUInt32.toUInt64 * 4096

instance (offsets : WinOffset → UInt64) (controlArea : UInt64) :
    Decidable (image.IsControlArea offsets controlArea) := inferInstanceAs (Decidable (_ ∧ _))

end Image

/-! ### What the loops write -/

/-- The program comes to its end with this value, after so many calls of `fopen` and with this
file. -/
def Ends {α : Type} (x : ExtractM α) (s : ExtractState) (a : α) (fopens : Nat)
    (file : Option (List UInt8)) : Prop := ∃ c, x s = .ok (a, ⟨c, fopens, file⟩)

section Ends

variable {α β : Type} {s : ExtractState} {a : α} {b : β} {n n' : Nat} {file file' : Option (List UInt8)}

lemma Ends.bind {x : ExtractM α} {f : α → ExtractM β} (hx : Ends x s a n file)
    (hf : ∀ c, Ends (f a) ⟨c, n, file⟩ b n' file') : Ends (x >>= f) s b n' file' := by
  obtain ⟨c, hok⟩ := hx
  obtain ⟨c', hok'⟩ := hf c
  exact ⟨c', (bind_run hok f).trans hok'⟩

lemma ends_pure (a : α) (s : ExtractState) : Ends (pure a) s a s.fopens s.file := ⟨s.context, rfl⟩

lemma ends_guest {x : ContextM α} (h : ∀ c, ∃ c', x c = .ok (a, c')) (s : ExtractState) :
    Ends (guest x) s a s.fopens s.file := by
  obtain ⟨c, hok⟩ := h s.context
  refine ⟨c, ?_⟩
  unfold guest zoom
  rw [hok]
  rfl

lemma ends_ask (answer : Nat → α) (h : ∀ k, answer k = a) (s : ExtractState) :
    Ends (guest (ask answer)) s a s.fopens s.file :=
  ends_guest (fun c => ⟨_, congrArg (fun a => Except.ok (a, _)) (h c.calls)⟩) s

end Ends

section Loops

variable {κ ε : Type} (ctx : Context κ ε) (calls : ExtractCalls) (image : Image)

lemma ends_read (addr : UInt64) (s : ExtractState) :
    Ends (guest (hfmReadAddr (image.context ctx) addr)) s (image.mem.value addr) s.fopens s.file :=
  ends_guest (fun _ => ⟨_, rfl⟩) s

lemma ends_read32 (addr : UInt64) (s : ExtractState) :
    Ends (guest (hfmRead32 (image.context ctx) addr)) s (image.mem.value addr).toUInt32 s.fopens
      s.file :=
  ends_guest (fun _ => ⟨_, rfl⟩) s

lemma ends_bytes (addr : UInt64) (count : Nat) (s : ExtractState) :
    Ends (guest (hfmRead (image.context ctx) addr count)) s ((image.bytes addr count).take count)
      s.fopens s.file :=
  ends_guest (fun _ => ⟨_, rfl⟩) s

lemma context_hdlr : (image.context ctx).hdlr = ctx.hdlr := rfl

lemma ends_fwrite (c : Chunk) (s : ExtractState) :
    Ends (fwrite c) s () s.fopens (s.file.map (writeAll · [c])) := ⟨s.context, rfl⟩

lemma map_writeAll_nil (file : Option (List UInt8)) : file.map (writeAll · []) = file :=
  congrFun Option.map_id file

lemma map_writeAll_append (file : Option (List UInt8)) (cs cs' : List Chunk) :
    (file.map (writeAll · cs)).map (writeAll · cs') = file.map (writeAll · (cs ++ cs')) := by
  rw [Option.map_map]
  refine congrArg (Option.map · file) (funext fun content => ?_)
  exact (writeAll_append content cs cs').symm

/-- The offset of a page does not wrap. -/
lemma toNat_offset (start : UInt32) {i : Nat} (h : i < 2 ^ 32) :
    (start.toUInt64 * 0x200 + i.toUInt64 * 0x1000).toNat = start.toNat * 512 + i * 4096 := by
  have hstart : start.toNat < 2 ^ 32 := start.toNat_lt
  have hi : i.toUInt64.toNat = i := UInt64.toNat_ofNat_of_lt' (Nat.lt_trans h (by decide))
  rw [UInt64.toNat_add, UInt64.toNat_mul, UInt64.toNat_mul, hi, UInt32.toNat_toUInt64]
  simp only [UInt64.reduceToNat]
  omega

lemma ends_extractPage (sub : Subsection) {i : Nat} (h : i < 2 ^ 32) (s : ExtractState) :
    Ends (extractPage (image.context ctx) (image.calls calls) sub.subsectionBase
        (sub.startingSector.toUInt64 * 0x200) i) s (image.pte? ctx.hdlr.pm sub i).isSome s.fopens
      (s.file.map (writeAll · (image.page? calls.entryPresent ctx.hdlr.pm sub i).toList)) := by
  have hnone (a : Bool) (s : ExtractState) :
      Ends (pure a) s a s.fopens (s.file.map (writeAll · (none : Option Chunk).toList)) := by
    have hsame := map_writeAll_nil s.file
    exact ⟨s.context, by rw [Option.toList_none, hsame]; rfl⟩
  refine (ends_bytes ctx image _ (mmpteSize ctx.hdlr.pm) s).bind fun c => ?_
  unfold Image.page? Image.pte?
  rw [context_hdlr]
  dsimp only
  generalize (image.bytes (sub.subsectionBase + (mmpteSize ctx.hdlr.pm).toUInt64 * i.toUInt64)
    (mmpteSize ctx.hdlr.pm)).take (mmpteSize ctx.hdlr.pm) = bytes
  by_cases hsize : bytes.length = mmpteSize ctx.hdlr.pm
  · rw [if_neg (not_not.mpr hsize), if_pos hsize]
    dsimp only [Option.isSome_some, Option.bind_eq_bind, Option.bind_some]
    by_cases hpresent : calls.entryPresent (littleEndian bytes) = true
    · have hread : (image.calls calls).entryPresent (littleEndian bytes) = true := hpresent
      rw [if_pos hread]
      refine (ends_ask _ (fun _ => rfl) _).bind fun c => ?_
      by_cases hpage : (image.phys (VMI_BIT_MASK_12_48 &&& littleEndian bytes)).length = 4096
      · rw [if_neg (not_not.mpr hpage), if_pos ⟨hpresent, hpage⟩, toNat_offset _ h]
        exact (ends_fwrite _ _).bind fun c => ends_pure _ _
      · rw [if_pos hpage, if_neg fun hboth => hpage hboth.2]
        exact hnone true _
    · have hread : ¬(image.calls calls).entryPresent (littleEndian bytes) = true := hpresent
      rw [if_neg hread, if_neg fun hboth => hpresent hboth.1]
      exact hnone true _
  · rw [if_pos hsize, if_neg hsize]
    exact hnone false _

lemma ends_extractPages (sub : Subsection) {is : List Nat} (h : ∀ i ∈ is, i < 2 ^ 32)
    (s : ExtractState) :
    Ends (extractPages (image.context ctx) (image.calls calls) sub.subsectionBase
        (sub.startingSector.toUInt64 * 0x200) is) s () s.fopens
      (s.file.map (writeAll · ((is.takeWhile fun i => (image.pte? ctx.hdlr.pm sub i).isSome).filterMap
        (image.page? calls.entryPresent ctx.hdlr.pm sub)))) := by
  induction is generalizing s with
  | nil =>
    have hsame := map_writeAll_nil s.file
    exact ⟨s.context, by rw [List.takeWhile_nil, List.filterMap_nil, hsame]; rfl⟩
  | cons i is ih =>
    refine (ends_extractPage ctx calls image sub (h i List.mem_cons_self) s).bind fun c => ?_
    cases hpte : image.pte? ctx.hdlr.pm sub i with
    | none =>
      -- an entry that cannot be read has no page, and ends the loop
      have hpage : image.page? calls.entryPresent ctx.hdlr.pm sub i = none := by
        unfold Image.page?
        rw [hpte]
        rfl
      rw [List.takeWhile_cons, hpte, hpage]
      exact ends_pure () _
    | some pte =>
      have hrest := ih (fun j hj => h j (List.mem_cons_of_mem _ hj))
        ⟨c, s.fopens, s.file.map (writeAll ·
          (image.page? calls.entryPresent ctx.hdlr.pm sub i).toList)⟩
      have hcons (js : List Nat) : (i :: js).filterMap (image.page? calls.entryPresent ctx.hdlr.pm sub) =
          (image.page? calls.entryPresent ctx.hdlr.pm sub i).toList ++
            js.filterMap (image.page? calls.entryPresent ctx.hdlr.pm sub) := by
        rw [List.filterMap_cons]
        cases image.page? calls.entryPresent ctx.hdlr.pm sub i <;> rfl
      rw [map_writeAll_append, ← hcons] at hrest
      rw [List.takeWhile_cons, hpte]
      exact hrest

/-- A round at a subsection that does not point back to the control area, or has no pages. -/
lemma ends_round_stop {controlArea addr : UInt64} (hzero : addr ≠ 0)
    (hinvalid : ¬(image.subsection ctx.hdlr.offsets addr).Valid controlArea) (rounds : Nat)
    (s : ExtractState) :
    Ends (extractSubsections (image.context ctx) (image.calls calls) controlArea (rounds + 1) addr) s
      true s.fopens s.file := by
  set sub := image.subsection ctx.hdlr.offsets addr
  unfold extractSubsections
  rw [if_neg hzero, context_hdlr]
  refine Ends.bind (a := sub.controlArea) (ends_read ctx image _ s) fun c => ?_
  by_cases harea : sub.controlArea = controlArea
  · rw [if_neg (not_not.mpr harea)]
    refine Ends.bind (a := sub.subsectionBase) (ends_read ctx image _ _) fun c => ?_
    by_cases hbase : sub.subsectionBase &&& VMI_BIT_MASK_0_11 = 0
    · rw [if_pos hbase]
      exact ends_pure true _
    · rw [if_neg hbase]
      refine Ends.bind (a := sub.ptesInSubsection) (ends_read32 ctx image _ _) fun c => ?_
      have hptes : sub.ptesInSubsection = 0 := by
        by_contra hptes
        exact hinvalid ⟨harea, hbase, hptes⟩
      rw [if_pos hptes]
      exact ends_pure true _
  · rw [if_pos harea]
    exact ends_pure true _

/-- A round that writes the pages of a subsection and goes on to the one behind it. -/
lemma round_next {controlArea addr : UInt64} (hzero : addr ≠ 0)
    (hvalid : (image.subsection ctx.hdlr.offsets addr).Valid controlArea) (rounds : Nat)
    (s : ExtractState) :
    ∃ c, extractSubsections (image.context ctx) (image.calls calls) controlArea (rounds + 1) addr s =
      extractSubsections (image.context ctx) (image.calls calls) controlArea rounds
        (image.subsection ctx.hdlr.offsets addr).nextSubsection
        ⟨c, s.fopens, s.file.map (writeAll · (image.leadingPages calls.entryPresent ctx.hdlr.pm
          (image.subsection ctx.hdlr.offsets addr)))⟩ := by
  set sub := image.subsection ctx.hdlr.offsets addr
  obtain ⟨harea, hbase, hptes⟩ := hvalid
  have hlt : ∀ i ∈ List.range sub.ptesInSubsection.toNat, i < 2 ^ 32 :=
    fun i hi => Nat.lt_trans (List.mem_range.mp hi) (UInt32.toNat_lt _)
  have hread (offset : WinOffset) := ends_read ctx image (addr + ctx.hdlr.offsets offset)
  have hread32 (offset : WinOffset) := ends_read32 ctx image (addr + ctx.hdlr.offsets offset)
  obtain ⟨c₁, h₁⟩ : Ends _ s sub.controlArea s.fopens s.file := hread .subsectionControlArea s
  obtain ⟨c₂, h₂⟩ : Ends _ ⟨c₁, s.fopens, s.file⟩ sub.subsectionBase s.fopens s.file :=
    hread .subsectionSubsectionBase _
  obtain ⟨c₃, h₃⟩ : Ends _ ⟨c₂, s.fopens, s.file⟩ sub.ptesInSubsection s.fopens s.file :=
    hread32 .subsectionPtesInSubsection _
  obtain ⟨c₄, h₄⟩ : Ends _ ⟨c₃, s.fopens, s.file⟩ sub.startingSector s.fopens s.file :=
    hread32 .subsectionStartingSector _
  obtain ⟨c₅, h₅⟩ : Ends _ ⟨c₄, s.fopens, s.file⟩ () s.fopens (s.file.map (writeAll ·
      (image.leadingPages calls.entryPresent ctx.hdlr.pm sub))) :=
    ends_extractPages ctx calls image sub hlt _
  obtain ⟨c₆, h₆⟩ := hread .subsectionNextSubsection ⟨c₅, s.fopens, s.file.map (writeAll ·
    (image.leadingPages calls.entryPresent ctx.hdlr.pm sub))⟩
  refine ⟨c₆, ?_⟩
  conv_lhs => unfold extractSubsections
  rw [if_neg hzero, context_hdlr]
  change (guest (hfmReadAddr (image.context ctx) _) >>= _) s = _
  rw [bind_run h₁, if_neg (not_not.mpr harea), bind_run h₂, if_neg hbase, bind_run h₃, if_neg hptes,
    bind_run h₄, bind_run h₅, bind_run h₆]
  rfl

/-- The loop at the end of the list. -/
lemma ends_zero (controlArea : UInt64) (rounds : Nat) (s : ExtractState) :
    Ends (extractSubsections (image.context ctx) (image.calls calls) controlArea rounds 0) s true
      s.fopens s.file := by
  unfold extractSubsections
  rw [if_pos rfl]
  exact ends_pure true s

lemma nextSubsection_zero (controlArea : UInt64) :
    image.nextSubsection ctx.hdlr.offsets controlArea 0 = none := by
  unfold Image.nextSubsection
  exact if_neg fun h => h.1 rfl

lemma nextSubsection_none {controlArea addr : UInt64} (hzero : addr ≠ 0) :
    image.nextSubsection ctx.hdlr.offsets controlArea addr = none ↔
      ¬(image.subsection ctx.hdlr.offsets addr).Valid controlArea := by
  unfold Image.nextSubsection
  by_cases hvalid : (image.subsection ctx.hdlr.offsets addr).Valid controlArea
  · rw [if_pos ⟨hzero, hvalid⟩]
    exact iff_of_false (Option.some_ne_none _) (not_not.mpr hvalid)
  · rw [if_neg fun h => hvalid h.2]
    exact iff_of_true rfl hvalid

lemma nextSubsection_some {controlArea addr next : UInt64}
    (h : image.nextSubsection ctx.hdlr.offsets controlArea addr = some next) :
    addr ≠ 0 ∧ (image.subsection ctx.hdlr.offsets addr).Valid controlArea ∧
      next = (image.subsection ctx.hdlr.offsets addr).nextSubsection := by
  unfold Image.nextSubsection at h
  dsimp only at h
  split at h
  · rename_i hboth
    exact ⟨hboth.1, hboth.2, (Option.some_inj.mp h).symm⟩
  · cases h

lemma ends_extractSubsections {controlArea addr : UInt64} {l : List UInt64}
    (hpath : Path (image.nextSubsection ctx.hdlr.offsets controlArea) addr l) {rounds : Nat}
    (hrounds : l.length < rounds) (s : ExtractState) :
    Ends (extractSubsections (image.context ctx) (image.calls calls) controlArea rounds addr) s true
      s.fopens (s.file.map (writeAll · (l.flatMap fun addr => image.leadingPages calls.entryPresent
        ctx.hdlr.pm (image.subsection ctx.hdlr.offsets addr)))) := by
  induction hpath generalizing rounds s with
  | @stop addr hend =>
    have hfile : s.file.map (writeAll · []) = s.file := map_writeAll_nil s.file
    rw [List.flatMap_nil, hfile]
    obtain ⟨rounds, rfl⟩ := Nat.exists_eq_succ_of_ne_zero (Nat.ne_of_gt hrounds)
    by_cases hzero : addr = 0
    · rw [hzero]
      exact ends_zero ctx calls image controlArea _ s
    · have hinvalid := (nextSubsection_none ctx image hzero).mp hend
      exact ends_round_stop ctx calls image hzero hinvalid rounds s
  | @step addr next l hnext hrest ih =>
    obtain ⟨hzero, hvalid, rfl⟩ := nextSubsection_some ctx image hnext
    cases rounds with
    | zero => exact absurd hrounds (Nat.not_lt_zero _)
    | succ rounds =>
      obtain ⟨c, hround⟩ := round_next ctx calls image hzero hvalid rounds s
      have hgo := ih (Nat.lt_of_succ_lt_succ hrounds) ⟨c, s.fopens, s.file.map (writeAll ·
        (image.leadingPages calls.entryPresent ctx.hdlr.pm
          (image.subsection ctx.hdlr.offsets addr)))⟩
      rw [map_writeAll_append] at hgo
      unfold Ends
      rw [hround]
      exact hgo

/-- Where the loop ends, the subsections have an end. -/
lemma exists_path_of_extractSubsections {controlArea addr : UInt64} {rounds : Nat}
    {s s' : ExtractState}
    (h : extractSubsections (image.context ctx) (image.calls calls) controlArea rounds addr s =
      .ok (true, s')) :
    ∃ l, Path (image.nextSubsection ctx.hdlr.offsets controlArea) addr l := by
  induction rounds generalizing addr s with
  | zero =>
    by_cases hzero : addr = 0
    · rw [hzero]
      exact ⟨[], .stop (nextSubsection_zero ctx image controlArea)⟩
    · unfold extractSubsections at h
      rw [if_neg hzero] at h
      cases h
  | succ rounds ih =>
    by_cases hzero : addr = 0
    · rw [hzero]
      exact ⟨[], .stop (nextSubsection_zero ctx image controlArea)⟩
    · by_cases hvalid : (image.subsection ctx.hdlr.offsets addr).Valid controlArea
      · obtain ⟨c, hround⟩ := round_next ctx calls image hzero hvalid rounds s
        rw [hround] at h
        obtain ⟨l, hl⟩ := ih h
        exact ⟨addr :: l, .step (if_pos ⟨hzero, hvalid⟩) hl⟩
      · exact ⟨[], .stop ((nextSubsection_none ctx image hzero).mpr hvalid)⟩

end Loops

end Hfm.Extract

import Hfm.Extract

/-!
# What a file keeps of the sections

The file has the pages of the section that was opened last; those of the other one are gone, and
so are the pages behind an entry that could not be read. Nothing is lost exactly if no page of the
guest is harmed so.
-/

namespace Hfm.Extract

open Support

/-! ### A section -/

namespace Image

variable (image : Image) (offsets : WinOffset → UInt64)

/-- `fopen` is called for a section. -/
def tries (controlArea : UInt64) (skip : Bool) : Bool :=
  !skip && decide (image.IsControlArea offsets controlArea)

/-- A section is extracted; `fopens` counts the calls of `fopen` before. -/
def extracts (calls : ExtractCalls) (fopens : Nat) (controlArea : UInt64) (skip : Bool) : Bool :=
  image.tries offsets controlArea skip && calls.fopen fopens

def sectionObjectPointers (object : UInt64) : UInt64 :=
  image.mem.value (object + offsets .fileObjectSectionObjectPointer)

def dataSection (object : UInt64) : UInt64 :=
  image.mem.value
    (image.sectionObjectPointers offsets object + offsets .sectionObjectPointersDataSectionObject)

def imageSection (object : UInt64) : UInt64 :=
  image.mem.value
    (image.sectionObjectPointers offsets object + offsets .sectionObjectPointersImageSectionObject)

/-- The data section is extracted. -/
def extractsData (calls : ExtractCalls) (fopens : Nat) (object : UInt64) : Bool :=
  let data := image.dataSection offsets object
  image.extracts offsets calls fopens data (data = 0)

/-- The image section is extracted, behind the data section. -/
def extractsImage (calls : ExtractCalls) (fopens : Nat) (object : UInt64) : Bool :=
  let data := image.dataSection offsets object
  let img := image.imageSection offsets object
  let fopens := if image.tries offsets data (data = 0) then fopens + 1 else fopens
  image.extracts offsets calls fopens img (img = 0 || img = data)

end Image

section Sections

variable {κ ε : Type} (ctx : Context κ ε) (calls : ExtractCalls) (image : Image)

/-- The pages in front of the first entry of their subsection that cannot be read. -/
def reached (subs : List UInt64) : List Chunk :=
  subs.flatMap fun addr => image.leadingPages calls.entryPresent ctx.hdlr.pm
    (image.subsection ctx.hdlr.offsets addr)

/-- The pages of the subsections that are present and can be read. -/
def due (subs : List UInt64) : List Chunk :=
  subs.flatMap fun addr => image.pages calls.entryPresent ctx.hdlr.pm
    (image.subsection ctx.hdlr.offsets addr)

/-- The subsections of a control area, from that behind it on, are these. -/
def HasSubsections (controlArea : UInt64) (subs : List UInt64) : Prop :=
  Path (image.nextSubsection ctx.hdlr.offsets controlArea)
    (controlArea + ctx.hdlr.sizes .controlArea) subs

lemma ends_isControlArea (controlArea : UInt64) (s : ExtractState) :
    Ends (guest (isControlArea (image.context ctx) controlArea)) s
      (decide (image.IsControlArea ctx.hdlr.offsets controlArea)) s.fopens s.file := by
  have hread (addr : UInt64) (c : ContextState) : hfmReadAddr (image.context ctx) addr c =
      .ok (image.mem.value addr, { c with calls := c.calls + 1 }) := rfl
  apply ends_guest
  intro c
  unfold isControlArea
  rw [context_hdlr, bind_run (hread _ c), bind_run (hread _ _)]
  set segment := image.mem.value (controlArea + ctx.hdlr.offsets .controlAreaSegment)
  by_cases htest : image.mem.value (segment + ctx.hdlr.offsets .segmentControlArea) = controlArea
  · rw [if_neg (not_not.mpr htest)]
    have hsize : image.IsControlArea ctx.hdlr.offsets controlArea ↔
        image.mem.value (segment + ctx.hdlr.offsets .segmentSizeOfSegment) =
          (image.mem.value (segment + ctx.hdlr.offsets .segmentTotalNumberOfPtes)).toUInt32.toUInt64 *
            4096 := and_iff_right htest
    exact ⟨_, congrArg (fun b => Except.ok (b, _)) (decide_eq_decide.mpr hsize.symm)⟩
  · have hno : ¬image.IsControlArea ctx.hdlr.offsets controlArea := fun h => htest h.1
    rw [if_pos htest, decide_eq_false hno]
    exact ⟨_, rfl⟩

lemma ends_fopen (s : ExtractState) :
    Ends (fopen (image.calls calls)) s (calls.fopen s.fopens) (s.fopens + 1)
      (if calls.fopen s.fopens then some [] else s.file) := ⟨s.context, rfl⟩

lemma ends_extractCaFile_invalid {controlArea : UInt64} {s : ExtractState}
    (h : ¬image.IsControlArea ctx.hdlr.offsets controlArea) (rounds : Nat) :
    Ends (extractCaFile (image.context ctx) (image.calls calls) rounds controlArea) s (some (-1))
      s.fopens s.file := by
  have harea := ends_isControlArea ctx image controlArea s
  rw [decide_eq_false h] at harea
  exact harea.bind fun c => ends_pure (some (-1)) _

lemma ends_extractCaFile_closed {controlArea : UInt64} {s : ExtractState}
    (h : image.IsControlArea ctx.hdlr.offsets controlArea) (hopened : calls.fopen s.fopens = false)
    (rounds : Nat) :
    Ends (extractCaFile (image.context ctx) (image.calls calls) rounds controlArea) s (some (-1))
      (s.fopens + 1) s.file := by
  have harea := ends_isControlArea ctx image controlArea s
  rw [decide_eq_true h] at harea
  refine harea.bind fun c => ?_
  have hfopen := ends_fopen calls image ⟨c, s.fopens, s.file⟩
  dsimp only at hfopen
  rw [hopened] at hfopen
  exact hfopen.bind fun c => ends_pure (some (-1)) _

lemma ends_extractCaFile_open {controlArea : UInt64} {s : ExtractState} {subs : List UInt64}
    (h : image.IsControlArea ctx.hdlr.offsets controlArea) (hopened : calls.fopen s.fopens = true)
    (hsubs : HasSubsections ctx image controlArea subs) {rounds : Nat} (hrounds : subs.length < rounds) :
    ∃ v, Ends (extractCaFile (image.context ctx) (image.calls calls) rounds controlArea) s (some v)
      (s.fopens + 1) (some (writeAll [] (reached ctx calls image subs))) := by
  have harea := ends_isControlArea ctx image controlArea s
  rw [decide_eq_true h] at harea
  obtain ⟨c₁, h₁⟩ := harea
  have hfopen := ends_fopen calls image ⟨c₁, s.fopens, s.file⟩
  dsimp only at hfopen
  rw [hopened] at hfopen
  obtain ⟨c₂, h₂⟩ := hfopen
  obtain ⟨c₃, h₃⟩ := ends_extractSubsections ctx calls image hsubs hrounds ⟨c₂, s.fopens + 1, some []⟩
  refine ⟨(ctx.calls.indeterminate c₃.calls).toUInt32, { c₃ with calls := c₃.calls + 1 }, ?_⟩
  unfold extractCaFile
  rw [bind_run h₁, if_pos rfl, bind_run h₂, if_pos rfl]
  change (extractSubsections (image.context ctx) (image.calls calls) controlArea rounds
    (controlArea + ctx.hdlr.sizes .controlArea) >>= _) _ = _
  rw [if_pos rfl, bind_run h₃, if_pos rfl]
  rfl

/-- A section that is extracted leaves its pages, and no others, in the file. -/
lemma ends_extractSection (controlArea : UInt64) (skip : Bool) (s : ExtractState)
    {subs : List UInt64} {rounds : Nat}
    (hsubs : image.extracts ctx.hdlr.offsets calls s.fopens controlArea skip = true →
      HasSubsections ctx image controlArea subs ∧ subs.length < rounds) :
    ∃ count, Ends (extractSection (image.context ctx) (image.calls calls) rounds controlArea skip) s
      (some count)
      (if image.tries ctx.hdlr.offsets controlArea skip then s.fopens + 1 else s.fopens)
      (if image.extracts ctx.hdlr.offsets calls s.fopens controlArea skip then
        some (writeAll [] (reached ctx calls image subs)) else s.file) := by
  cases skip with
  | true => exact ⟨0, ends_pure (some 0) s⟩
  | false =>
    have hcount {v : UInt32} {n : Nat} {file : Option (List UInt8)}
        (hends : Ends (extractCaFile (image.context ctx) (image.calls calls) rounds controlArea) s
          (some v) n file) :
        Ends (extractSection (image.context ctx) (image.calls calls) rounds controlArea false) s
          (some (if v = 0 then 1 else 0)) n file := hends.bind fun c => ends_pure _ _
    by_cases h : image.IsControlArea ctx.hdlr.offsets controlArea
    · have htries : image.tries ctx.hdlr.offsets controlArea false = true := decide_eq_true h
      have hextracts : image.extracts ctx.hdlr.offsets calls s.fopens controlArea false =
          calls.fopen s.fopens := by
        unfold Image.extracts
        rw [htries, Bool.true_and]
      rw [hextracts] at hsubs ⊢
      rw [htries, if_pos rfl]
      cases hopened : calls.fopen s.fopens with
      | true =>
        obtain ⟨hpath, hrounds⟩ := hsubs hopened
        obtain ⟨v, hends⟩ := ends_extractCaFile_open ctx calls image h hopened hpath hrounds
        exact ⟨_, hcount hends⟩
      | false => exact ⟨_, hcount (ends_extractCaFile_closed ctx calls image h hopened rounds)⟩
    · have htries : image.tries ctx.hdlr.offsets controlArea false = false := decide_eq_false h
      have hextracts : image.extracts ctx.hdlr.offsets calls s.fopens controlArea false = false := by
        unfold Image.extracts
        rw [htries, Bool.false_and]
      rw [htries, hextracts]
      exact ⟨_, hcount (ends_extractCaFile_invalid ctx calls image h rounds)⟩

/-! ### Both sections -/

/-- The pages that the section opened last is read for. -/
def lastReached (fopens : Nat) (object : UInt64) (dataSubs imageSubs : List UInt64) : List Chunk :=
  if image.extractsImage ctx.hdlr.offsets calls fopens object then reached ctx calls image imageSubs
  else reached ctx calls image dataSubs

/-- The pages that a section should leave; none if it is not extracted. -/
def claimed (extracted : Bool) (subs : List UInt64) : List Chunk :=
  if extracted then due ctx calls image subs else []

/-- The file after both sections. -/
def fileAfter (s : ExtractState) (object : UInt64) (dataSubs imageSubs : List UInt64) :
    Option (List UInt8) :=
  if image.extractsData ctx.hdlr.offsets calls s.fopens object ||
      image.extractsImage ctx.hdlr.offsets calls s.fopens object then
    some (writeAll [] (lastReached ctx calls image s.fopens object dataSubs imageSubs))
  else s.file

lemma hfmExtractFile_run (object : UInt64) (s : ExtractState) {dataSubs imageSubs : List UInt64}
    (rounds : Nat)
    (hdata : image.extractsData ctx.hdlr.offsets calls s.fopens object = true →
      HasSubsections ctx image (image.dataSection ctx.hdlr.offsets object) dataSubs ∧
        dataSubs.length < rounds)
    (himage : image.extractsImage ctx.hdlr.offsets calls s.fopens object = true →
      HasSubsections ctx image (image.imageSection ctx.hdlr.offsets object) imageSubs ∧
        imageSubs.length < rounds) :
    ∃ count s', hfmExtractFile (image.context ctx) (image.calls calls) rounds object s =
        .ok (some count, s') ∧
      s'.file = fileAfter ctx calls image s object dataSubs imageSubs := by
  set data := image.dataSection ctx.hdlr.offsets object with hd
  set img := image.imageSection ctx.hdlr.offsets object with hi
  obtain ⟨c₁, h₁⟩ : Ends _ s (image.sectionObjectPointers ctx.hdlr.offsets object) s.fopens s.file :=
    ends_read ctx image _ s
  obtain ⟨c₂, h₂⟩ : Ends _ ⟨c₁, s.fopens, s.file⟩ data s.fopens s.file := ends_read ctx image _ _
  obtain ⟨dataCount, c₃, h₃⟩ := ends_extractSection ctx calls image data (data = 0)
    ⟨c₂, s.fopens, s.file⟩ hdata
  obtain ⟨n, hn⟩ : ∃ n, n = if image.tries ctx.hdlr.offsets data (data = 0) then s.fopens + 1
    else s.fopens := ⟨_, rfl⟩
  obtain ⟨file, hfile⟩ : ∃ file, file = if image.extracts ctx.hdlr.offsets calls s.fopens data
    (data = 0) then some (writeAll [] (reached ctx calls image dataSubs)) else s.file := ⟨_, rfl⟩
  dsimp only at h₃
  rw [← hn, ← hfile] at h₃
  obtain ⟨c₄, h₄⟩ : Ends (guest (hfmReadAddr (image.context ctx) (image.sectionObjectPointers
      ctx.hdlr.offsets object + ctx.hdlr.offsets .sectionObjectPointersSharedCacheMap)))
      ⟨c₃, n, file⟩ _ n file := ends_read ctx image _ _
  obtain ⟨c₅, h₅⟩ : Ends _ ⟨c₄, n, file⟩ img n file := ends_read ctx image _ _
  have himage' : image.extracts ctx.hdlr.offsets calls n img (img = 0 || img = data) =
      image.extractsImage ctx.hdlr.offsets calls s.fopens object := by
    rw [hn]
    rfl
  obtain ⟨imageCount, c₆, h₆⟩ := ends_extractSection ctx calls image img (img = 0 || img = data)
    ⟨c₅, n, file⟩ fun h => himage (himage'.symm.trans h)
  dsimp only at h₆
  rw [himage'] at h₆
  obtain ⟨n', hn'⟩ : ∃ n', n' = if image.tries ctx.hdlr.offsets img (img = 0 || img = data) then n + 1
    else n := ⟨_, rfl⟩
  obtain ⟨file', hfile'⟩ : ∃ file', file' = if image.extractsImage ctx.hdlr.offsets calls s.fopens
    object then some (writeAll [] (reached ctx calls image imageSubs)) else file := ⟨_, rfl⟩
  rw [← hn', ← hfile'] at h₆
  have hrun : hfmExtractFile (image.context ctx) (image.calls calls) rounds object s =
      .ok (some (dataCount + imageCount), ⟨c₆, n', file'⟩) := by
    unfold hfmExtractFile
    rw [context_hdlr, bind_run h₁, bind_run h₂, bind_run h₃]
    change (guest (hfmReadAddr (image.context ctx) _) >>= _) _ = _
    rw [bind_run h₄, bind_run h₅, bind_run h₆]
    rfl
  refine ⟨_, _, hrun, ?_⟩
  dsimp only
  rw [hfile', hfile]
  unfold fileAfter lastReached
  have hdata' : image.extracts ctx.hdlr.offsets calls s.fopens data (data = 0) =
      image.extractsData ctx.hdlr.offsets calls s.fopens object := rfl
  rw [hdata']
  cases image.extractsImage ctx.hdlr.offsets calls s.fopens object with
  | true =>
    rw [Bool.or_true]
    rfl
  | false =>
    rw [Bool.or_false]
    rfl

/-! ### The pages of the file -/

/-- The pages that the file should have: where both sections have one for an offset, that of the
data section. -/
def Expected (dataPages imagePages : List Chunk) (c : Chunk) : Prop :=
  c ∈ dataPages ∨ c ∈ imagePages ∧ ∀ d ∈ dataPages, d.offset ≠ c.offset

/-- The file has them. -/
def Keeps (dataPages imagePages : List Chunk) (file : Option (List UInt8)) : Prop :=
  ∀ c, Expected dataPages imagePages c → ∃ content, file = some content ∧ c.In content

/-- No page of the guest is in the way of another one, truncated or not reached. -/
structure Unharmed (dataPages imagePages reached : List Chunk) : Prop where
  /-- Pages have the same bytes where they overlap. -/
  agree : ∀ c d, Expected dataPages imagePages c → Expected dataPages imagePages d →
    ∀ q b b', c.get? q = some b → d.get? q = some b' → b = b'
  /-- What the section opened last does not reach is 0, and in front of something that it does. -/
  bare : ∀ c, Expected dataPages imagePages c → ∀ q b, c.get? q = some b →
    (∀ r ∈ reached, r.get? q = none) → b = 0 ∧ ∃ r ∈ reached, q < r.stop
  /-- Where it reaches over a page of the data section, it ends with the same bytes. -/
  same : ∀ c ∈ dataPages, ∀ q b b', c.get? q = some b → lastByte reached q = some b' → b = b'

lemma keeps_writeAll_iff {dataPages imagePages reached : List Chunk}
    (hreached : ∀ r ∈ reached, r ∈ dataPages ∨ r ∈ imagePages)
    (hlen : ∀ c, c ∈ dataPages ∨ c ∈ imagePages → c.bytes.length = 4096) :
    Keeps dataPages imagePages (some (writeAll [] reached)) ↔
      Unharmed dataPages imagePages reached := by
  have hin (c : Chunk) : (∃ content, some (writeAll [] reached) = some content ∧ c.In content) ↔
      ∀ q b, c.get? q = some b → (writeAll [] reached)[q]? = some b := by
    rw [← c.in_iff]
    exact ⟨fun ⟨_, hsome, hin⟩ => Option.some_inj.mp hsome ▸ hin, fun hin => ⟨_, rfl, hin⟩⟩
  constructor
  · intro h
    have hbyte (c : Chunk) (hc : Expected dataPages imagePages c) := (hin c).mp (h c hc)
    refine ⟨fun c d hc hd q b b' hb hb' => ?_, fun c hc q b hb hnone => ?_,
      fun c hc q b b' hb hb' => ?_⟩
    · have hsame := (hbyte c hc q b hb).symm.trans (hbyte d hd q b' hb')
      exact Option.some_inj.mp hsame
    · rcases (getElem?_writeAll_iff reached q b).mp (hbyte c hc q b hb) with hlast | ⟨-, hgap⟩
      · rw [(lastByte_eq_none_iff reached q).mpr hnone] at hlast
        cases hlast
      · exact hgap
    · have hfile := (getElem?_writeAll_iff reached q b').mpr (.inl hb')
      exact Option.some_inj.mp ((hbyte c (.inl hc) q b hb).symm.trans hfile)
  · rintro ⟨hagree, hbare, hsame⟩ c hc
    rw [hin]
    intro q b hb
    rw [getElem?_writeAll_iff]
    cases hlast : lastByte reached q with
    | none =>
      have hnone := (lastByte_eq_none_iff reached q).mp hlast
      exact .inr ⟨hnone, hbare c hc q b hb hnone⟩
    | some b' =>
      left
      obtain ⟨r, hr, hr'⟩ := exists_of_lastByte hlast
      rw [Option.some_inj]
      by_cases hexpected : Expected dataPages imagePages r
      · exact (hagree c r hc hexpected q b b' hb hr').symm
      · -- the page has to give way to one of the data section at its place
        have himage : r ∈ imagePages := (hreached r hr).resolve_left fun h => hexpected (.inl h)
        obtain ⟨d, hd, hoffset⟩ : ∃ d ∈ dataPages, d.offset = r.offset := by
          by_contra hno
          exact hexpected (.inr ⟨himage, fun d hd hoffset => hno ⟨d, hd, hoffset⟩⟩)
        have hlens : d.bytes.length = r.bytes.length :=
          (hlen d (.inl hd)).trans (hlen r (.inr himage)).symm
        obtain ⟨b'', hb''⟩ := r.get?_isSome_of_place hoffset hlens hr'
        have hd' : b'' = b' := hsame d hd q b'' b' hb'' hlast
        have hc' : b = b'' := hagree c d hc (.inl hd) q b b'' hb hb''
        rw [hc', hd']

/-- Pages that are all reached and do not overlap harm none. -/
lemma unharmed_of_apart {dataPages imagePages reached : List Chunk}
    (hreached : ∀ c, Expected dataPages imagePages c → c ∈ reached)
    (hapart : ∀ c ∈ reached, ∀ d ∈ reached, c ≠ d → c.stop ≤ d.offset ∨ d.stop ≤ c.offset) :
    Unharmed dataPages imagePages reached := by
  have hagree : ∀ c ∈ reached, ∀ d ∈ reached, ∀ q b b', c.get? q = some b → d.get? q = some b' →
      b = b' := by
    intro c hc d hd q b b' hb hb'
    by_cases heq : c = d
    · rw [heq] at hb
      exact Option.some_inj.mp (hb.symm.trans hb')
    · obtain ⟨i, hi, hq, -⟩ := c.exists_of_get? hb
      obtain ⟨j, hj, hq', -⟩ := d.exists_of_get? hb'
      have hover := hapart c hc d hd heq
      unfold Chunk.stop at hover
      omega
  refine ⟨fun c d hc hd => hagree c (hreached c hc) d (hreached d hd), fun c hc q b hb hnone => ?_,
    fun c hc q b b' hb hb' => ?_⟩
  · rw [hnone c (hreached c hc)] at hb
    cases hb
  · obtain ⟨r, hr, hr'⟩ := exists_of_lastByte hb'
    exact hagree c (hreached c (.inl hc)) r hr q b b' hb hr'

lemma mem_pages {entryPresent : UInt64 → Bool} {pm : PageMode} {sub : Subsection} {c : Chunk}
    (h : c ∈ image.pages entryPresent pm sub) : c.bytes.length = 4096 := by
  obtain ⟨i, -, hpage⟩ := List.mem_filterMap.mp h
  unfold Image.page? at hpage
  cases hpte : image.pte? pm sub i with
  | none =>
    rw [hpte] at hpage
    cases hpage
  | some pte =>
    rw [hpte, Option.bind_eq_bind, Option.bind_some] at hpage
    dsimp only at hpage
    split at hpage
    · rename_i hboth
      rw [← Option.some_inj.mp hpage]
      exact hboth.2
    · cases hpage

lemma length_of_mem_claimed {extracted : Bool} {subs : List UInt64} {c : Chunk}
    (h : c ∈ claimed ctx calls image extracted subs) : c.bytes.length = 4096 := by
  unfold claimed at h
  split at h
  · obtain ⟨addr, -, hc⟩ := List.mem_flatMap.mp h
    exact mem_pages image hc
  · exact (List.not_mem_nil h).elim

lemma reached_subset_due (subs : List UInt64) :
    ∀ c ∈ reached ctx calls image subs, c ∈ due ctx calls image subs := by
  intro c hc
  obtain ⟨addr, haddr, hpage⟩ := List.mem_flatMap.mp hc
  obtain ⟨i, hi, hsome⟩ := List.mem_filterMap.mp hpage
  have hrange := (List.takeWhile_sublist _).subset hi
  exact List.mem_flatMap.mpr ⟨addr, haddr, List.mem_filterMap.mpr ⟨i, hrange, hsome⟩⟩

lemma keeps_fileAfter_iff (s : ExtractState) (object : UInt64) (dataSubs imageSubs : List UInt64) :
    Keeps (claimed ctx calls image (image.extractsData ctx.hdlr.offsets calls s.fopens object) dataSubs)
        (claimed ctx calls image (image.extractsImage ctx.hdlr.offsets calls s.fopens object)
          imageSubs) (fileAfter ctx calls image s object dataSubs imageSubs) ↔
      Unharmed
        (claimed ctx calls image (image.extractsData ctx.hdlr.offsets calls s.fopens object) dataSubs)
        (claimed ctx calls image (image.extractsImage ctx.hdlr.offsets calls s.fopens object) imageSubs)
        (lastReached ctx calls image s.fopens object dataSubs imageSubs) := by
  unfold fileAfter
  split
  · rename_i hextracts
    refine keeps_writeAll_iff ?_ fun c hc => ?_
    · intro r hr
      unfold lastReached at hr
      cases himage : image.extractsImage ctx.hdlr.offsets calls s.fopens object with
      | true =>
        rw [himage, if_pos rfl] at hr
        exact .inr (reached_subset_due ctx calls image imageSubs r hr)
      | false =>
        rw [himage, if_neg Bool.false_ne_true] at hr
        rw [himage, Bool.or_false] at hextracts
        rw [hextracts]
        exact .inl (reached_subset_due ctx calls image dataSubs r hr)
    · exact hc.elim (length_of_mem_claimed ctx calls image) (length_of_mem_claimed ctx calls image)
  · rename_i hnone
    obtain ⟨hdata, himage⟩ := Bool.or_eq_false_iff.mp (Bool.not_eq_true _ ▸ hnone)
    rw [hdata, himage]
    have hempty : claimed ctx calls image false = fun _ => [] := rfl
    rw [hempty]
    have hno (c : Chunk) : ¬Expected [] [] c := fun h =>
      h.elim List.not_mem_nil fun h => List.not_mem_nil h.1
    constructor
    · intro _
      exact ⟨fun c _ hc => (hno c hc).elim, fun c hc => (hno c hc).elim,
        fun c hc => (List.not_mem_nil hc).elim⟩
    · exact fun _ c hc => (hno c hc).elim

end Sections

/-- The file has all pages that were to be extracted exactly if no page of the guest harms
another one: neither the image section the data section, nor an entry that cannot be read those
behind it, nor a page one that it overlaps. -/
theorem extracted_pages_kept_iff {κ ε : Type} {ctx : Context κ ε} {calls : ExtractCalls}
    {image : Image} {object : UInt64} {s : ExtractState} {dataSubs imageSubs : List UInt64}
    (hdata : image.extractsData ctx.hdlr.offsets calls s.fopens object = true →
      HasSubsections ctx image (image.dataSection ctx.hdlr.offsets object) dataSubs)
    (himage : image.extractsImage ctx.hdlr.offsets calls s.fopens object = true →
      HasSubsections ctx image (image.imageSection ctx.hdlr.offsets object) imageSubs)
    {rounds : Nat} (hrounds : dataSubs.length + imageSubs.length < rounds) :
    ∃ count s', hfmExtractFile (image.context ctx) (image.calls calls) rounds object s =
        .ok (some count, s') ∧
      (Keeps
          (claimed ctx calls image (image.extractsData ctx.hdlr.offsets calls s.fopens object) dataSubs)
          (claimed ctx calls image (image.extractsImage ctx.hdlr.offsets calls s.fopens object)
            imageSubs) s'.file ↔
        Unharmed
          (claimed ctx calls image (image.extractsData ctx.hdlr.offsets calls s.fopens object) dataSubs)
          (claimed ctx calls image (image.extractsImage ctx.hdlr.offsets calls s.fopens object)
            imageSubs)
          (lastReached ctx calls image s.fopens object dataSubs imageSubs)) := by
  have hdataRounds : dataSubs.length < rounds := Nat.lt_of_le_of_lt (Nat.le_add_right _ _) hrounds
  have himageRounds : imageSubs.length < rounds := Nat.lt_of_le_of_lt (Nat.le_add_left _ _) hrounds
  obtain ⟨count, s', hrun, hfile⟩ := hfmExtractFile_run ctx calls image object s rounds
    (fun h => ⟨hdata h, hdataRounds⟩) fun h => ⟨himage h, himageRounds⟩
  refine ⟨count, s', hrun, ?_⟩
  rw [hfile]
  exact keeps_fileAfter_iff ctx calls image s object dataSubs imageSubs

/-! ### A file of two sections -/

/-- Windows 7 of 64 bits. -/
def extractContext : Context Unit Unit where
  regs := ⟨0, 0, 0, 0, 0, 0, 0, 0, 0⟩
  trap := ⟨0, [], none, none, 0, false, none⟩
  hdlr :=
    { (Vm.start fun _ => 0x90).hdlr with
      offsets := fun
        | .fileObjectSectionObjectPointer => 0x28
        | .sectionObjectPointersImageSectionObject | .subsectionNextSubsection => 0x10
        | .segmentTotalNumberOfPtes | .sectionObjectPointersSharedCacheMap
        | .subsectionSubsectionBase => 8
        | .segmentSizeOfSegment | .subsectionPtesInSubsection => 0x18
        | .subsectionStartingSector => 0x20
        | _ => 0
      sizes := fun _ => 0x80 }
  calls :=
    { read := fun _ _ => none
      readBytes := fun _ _ _ => []
      convertStrEncoding := fun _ => none
      gettimeofday := fun _ => (0, 0)
      fopen := fun _ => true
      indeterminate := fun _ => 0 }

def extractCalls : ExtractCalls where
  entryPresent pte := pte &&& 1 ≠ 0
  readPa := fun _ _ => []
  fopen := fun _ => true

def dataPage : Chunk := ⟨0, List.replicate 4096 0x41⟩
def imagePage : Chunk := ⟨4096, List.replicate 4096 0x42⟩

/-- The file object at 0x100 has a data section with the one page, and an image section at `img`
with the other. -/
def sectionImage (img : UInt64) : Image where
  mem := fun addr => [(0x128, 0x200), (0x200, 0x1000), (0x210, img), (0x1000, 0x3000),
    (0x3000, 0x1000), (0x3008, 1), (0x3018, 0x1000), (0x1080, 0x1000), (0x1088, 0x5008),
    (0x1098, 1), (0x2000, 0x4000), (0x4000, 0x2000), (0x4008, 1), (0x4018, 0x1000),
    (0x2080, 0x2000), (0x2088, 0x6008), (0x2098, 1), (0x20a0, 8)].lookup addr
  bytes := fun addr _ => [1, if addr = 0x5008 then 0x70 else 0x80, 0, 0, 0, 0, 0, 0]
  phys := fun addr => (if addr = 0x7000 then dataPage else imagePage).bytes

/-- The subsection of the data section, and that of the image section. -/
def dataSub : Subsection := ⟨0x1000, 0x5008, 1, 0, 0⟩
def imageSub : Subsection := ⟨0x2000, 0x6008, 1, 8, 0⟩

lemma pages_one {image : Image} {entryPresent : UInt64 → Bool} {pm : PageMode} {sub : Subsection}
    {pte : UInt64} {c : Chunk} (hptes : sub.ptesInSubsection = 1)
    (hpte : image.pte? pm sub 0 = some pte) (hpresent : entryPresent pte = true)
    (hoffset : c.offset = sub.startingSector.toNat * 512)
    (hphys : image.phys (VMI_BIT_MASK_12_48 &&& pte) = c.bytes) (hlen : c.bytes.length = 4096) :
    image.pages entryPresent pm sub = [c] ∧ image.leadingPages entryPresent pm sub = [c] := by
  have hrange : List.range sub.ptesInSubsection.toNat = [0] := by
    rw [hptes]
    rfl
  have hsome : image.page? entryPresent pm sub 0 = some c := by
    unfold Image.page?
    rw [hpte, Option.bind_eq_bind, Option.bind_some, hphys, Nat.zero_mul, Nat.add_zero, ← hoffset]
    exact if_pos ⟨hpresent, hlen⟩
  have hall : [0].takeWhile (fun i => (image.pte? pm sub i).isSome) = [0] := by
    rw [List.takeWhile_cons, hpte]
    rfl
  unfold Image.pages Image.leadingPages
  rw [hrange, hall, List.filterMap_cons_some hsome]
  exact ⟨rfl, rfl⟩

section SectionImage

variable (img : UInt64)

lemma dataSub_pages :
    due extractContext extractCalls (sectionImage img) [0x1080] = [dataPage] ∧
      reached extractContext extractCalls (sectionImage img) [0x1080] = [dataPage] := by
  have hlen : dataPage.bytes.length = 4096 := List.length_replicate
  have hpte : (sectionImage img).pte? .ia32e dataSub 0 = some 0x7001 := rfl
  have hphys : (sectionImage img).phys (VMI_BIT_MASK_12_48 &&& 0x7001) = dataPage.bytes :=
    congrArg Chunk.bytes (if_pos (by decide))
  have hpresent : extractCalls.entryPresent 0x7001 = true := by decide
  obtain ⟨hpages, hleading⟩ := pages_one (c := dataPage) rfl hpte hpresent rfl hphys hlen
  exact ⟨congrArg (· ++ []) hpages, congrArg (· ++ []) hleading⟩

lemma imageSub_pages :
    due extractContext extractCalls (sectionImage img) [0x2080] = [imagePage] ∧
      reached extractContext extractCalls (sectionImage img) [0x2080] = [imagePage] := by
  have hlen : imagePage.bytes.length = 4096 := List.length_replicate
  have hpte : (sectionImage img).pte? .ia32e imageSub 0 = some 0x8001 := rfl
  have hphys : (sectionImage img).phys (VMI_BIT_MASK_12_48 &&& 0x8001) = imagePage.bytes :=
    congrArg Chunk.bytes (if_neg (by decide))
  have hpresent : extractCalls.entryPresent 0x8001 = true := by decide
  obtain ⟨hpages, hleading⟩ := pages_one (c := imagePage) rfl hpte hpresent rfl hphys hlen
  exact ⟨congrArg (· ++ []) hpages, congrArg (· ++ []) hleading⟩

lemma hasSubsections_data : HasSubsections extractContext (sectionImage img) 0x1000 [0x1080] := by
  have hvalid : dataSub.Valid 0x1000 := by decide
  have hend := nextSubsection_zero extractContext (sectionImage img) 0x1000
  exact .step (b := 0) (if_pos ⟨by decide, hvalid⟩) (.stop hend)

lemma hasSubsections_image : HasSubsections extractContext (sectionImage img) 0x2000 [0x2080] := by
  have hvalid : imageSub.Valid 0x2000 := by decide
  have hend := nextSubsection_zero extractContext (sectionImage img) 0x2000
  exact .step (b := 0) (if_pos ⟨by decide, hvalid⟩) (.stop hend)

end SectionImage

theorem extracted_pages_kept_iff_data :
    ∃ count s', hfmExtractFile ((sectionImage 0).context extractContext)
        ((sectionImage 0).calls extractCalls) 2 0x100 ⟨⟨0, 0⟩, 0, none⟩ = .ok (some count, s') ∧
      Keeps (claimed extractContext extractCalls (sectionImage 0) ((sectionImage 0).extractsData
            extractContext.hdlr.offsets extractCalls 0 0x100) [0x1080])
          (claimed extractContext extractCalls (sectionImage 0) ((sectionImage 0).extractsImage
            extractContext.hdlr.offsets extractCalls 0 0x100) []) s'.file := by
  have hextracts : (sectionImage 0).extractsData extractContext.hdlr.offsets extractCalls 0 0x100 =
      true := by decide
  have hnoImage : (sectionImage 0).extractsImage extractContext.hdlr.offsets extractCalls 0 0x100 =
      false := by decide
  obtain ⟨count, s', hrun, hiff⟩ := @extracted_pages_kept_iff Unit Unit extractContext
    extractCalls (sectionImage 0) 0x100 ⟨⟨0, 0⟩, 0, none⟩ [0x1080] []
    (fun _ => hasSubsections_data 0)
    (fun h => absurd (hnoImage.symm.trans h) Bool.false_ne_true) 2 (by decide)
  refine ⟨count, s', hrun, hiff.mpr ?_⟩
  obtain ⟨hdue, hreached⟩ := dataSub_pages 0
  have hlast : lastReached extractContext extractCalls (sectionImage 0) 0 0x100 [0x1080] [] =
      [dataPage] := by
    unfold lastReached
    rw [hnoImage, if_neg Bool.false_ne_true, hreached]
  have hclaimed : claimed extractContext extractCalls (sectionImage 0) true [0x1080] = [dataPage] := by
    unfold claimed
    rw [if_pos rfl, hdue]
  dsimp only
  rw [hextracts, hnoImage, hlast, hclaimed]
  refine unharmed_of_apart (fun c hc => ?_) fun c hc d hd hne => ?_
  · exact hc.elim id fun h => (List.not_mem_nil h.1).elim
  · rw [List.mem_singleton.mp hc, List.mem_singleton.mp hd] at hne
    exact absurd rfl hne

/-- The image section truncates the file, and the page of the data section is lost. -/
theorem image_section_truncates :
    dataPage ∈ claimed extractContext extractCalls (sectionImage 0x2000)
        ((sectionImage 0x2000).extractsData extractContext.hdlr.offsets extractCalls 0 0x100)
        [0x1080] ∧
      ∃ count s', hfmExtractFile ((sectionImage 0x2000).context extractContext)
          ((sectionImage 0x2000).calls extractCalls) 2 0x100 ⟨⟨0, 0⟩, 0, none⟩ =
            .ok (some count, s') ∧
        ¬Keeps (claimed extractContext extractCalls (sectionImage 0x2000)
            ((sectionImage 0x2000).extractsData extractContext.hdlr.offsets extractCalls 0 0x100)
            [0x1080])
          (claimed extractContext extractCalls (sectionImage 0x2000)
            ((sectionImage 0x2000).extractsImage extractContext.hdlr.offsets extractCalls 0 0x100)
            [0x2080]) s'.file := by
  have hextracts : (sectionImage 0x2000).extractsData extractContext.hdlr.offsets extractCalls 0
      0x100 = true := by decide
  have hlater : (sectionImage 0x2000).extractsImage extractContext.hdlr.offsets extractCalls 0
      0x100 = true := by decide
  obtain ⟨hdue, -⟩ := dataSub_pages 0x2000
  obtain ⟨-, hreached⟩ := imageSub_pages 0x2000
  have hmem : dataPage ∈ claimed extractContext extractCalls (sectionImage 0x2000)
      ((sectionImage 0x2000).extractsData extractContext.hdlr.offsets extractCalls 0 0x100)
      [0x1080] := by
    unfold claimed
    rw [hextracts, if_pos rfl, hdue]
    exact List.mem_singleton_self _
  obtain ⟨count, s', hrun, hfile⟩ := hfmExtractFile_run extractContext extractCalls
    (sectionImage 0x2000) 0x100 ⟨⟨0, 0⟩, 0, none⟩ 2
    (fun _ => ⟨hasSubsections_data 0x2000, by decide⟩)
    fun _ => ⟨hasSubsections_image 0x2000, by decide⟩
  refine ⟨hmem, count, s', hrun, fun hkeeps => ?_⟩
  rw [hfile] at hkeeps
  have hunharmed := (keeps_fileAfter_iff extractContext extractCalls (sectionImage 0x2000)
    ⟨⟨0, 0⟩, 0, none⟩ 0x100 [0x1080] [0x2080]).mp hkeeps
  have hlast : lastReached extractContext extractCalls (sectionImage 0x2000) 0 0x100 [0x1080]
      [0x2080] = [imagePage] := by
    unfold lastReached
    rw [hlater, if_pos rfl, hreached]
  -- the first byte of the data page is not 0, and the image section has none there
  have hlen : 0 < dataPage.bytes.length := by
    have : dataPage.bytes.length = 4096 := List.length_replicate
    omega
  have hfirst : dataPage.bytes[0] = 0x41 := List.getElem_replicate _
  have hbyte : dataPage.get? 0 = some 0x41 := by
    rw [← hfirst]
    exact dataPage.get?_add hlen
  have hnone : ∀ r ∈ [imagePage], r.get? 0 = none := by
    intro r hr
    rw [List.mem_singleton.mp hr]
    exact imagePage.get?_of_lt (by decide)
  rw [hlast] at hunharmed
  have hzero := (hunharmed.bare dataPage (.inl hmem) 0 0x41 hbyte hnone).1
  exact absurd hzero (by decide)

end Hfm.Extract

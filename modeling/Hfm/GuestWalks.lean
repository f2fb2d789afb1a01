import Hfm.Drives
import Hfm.ExtractedPages
import Mathlib.Data.FinEnum

/-!
# Walks over lists of the guest

The lists of subsections, of processes and of directory entries are in memory of the guest. Each
walk has an end exactly if its links come to no node twice.
-/

namespace Hfm

open Support

/-! ### Subsections -/

namespace Extract

section Subsections

variable {κ ε : Type} (ctx : Context κ ε) (calls : ExtractCalls) (image : Image)

/-- The loop of `_extract_ca_file` ends. -/
def SubsectionsEnd (controlArea : UInt64) (s : ExtractState) : Prop :=
  ∃ rounds s', extractSubsections (image.context ctx) (image.calls calls) controlArea rounds
    (controlArea + ctx.hdlr.sizes .controlArea) s = .ok (true, s')

lemma subsectionsEnd_iff (controlArea : UInt64) (s : ExtractState) :
    SubsectionsEnd ctx calls image controlArea s ↔
      ¬Revisits (image.nextSubsection ctx.hdlr.offsets controlArea)
        (controlArea + ctx.hdlr.sizes .controlArea) := by
  rw [← exists_path_iff]
  constructor
  · rintro ⟨rounds, s', h⟩
    exact exists_path_of_extractSubsections ctx calls image h
  · rintro ⟨l, hl⟩
    obtain ⟨c, hok⟩ := ends_extractSubsections ctx calls image hl (Nat.lt_succ_self _) s
    exact ⟨_, _, hok⟩

end Subsections

end Extract

/-! ### Processes and directory entries -/

section Win

variable {κ ε : Type} (hdlr : Vmhdlr κ ε) (guest : WinGuest)

/-- The loop of `win_cur_processes` ends. -/
def ProcessesEnd : Prop := ∃ rounds processes, winCurProcesses hdlr guest rounds = some processes

/-- The links in memory, from that of `listHead` on, lead back to it or to one that cannot be
read. -/
def LeadsBack (listHead : UInt64) : Prop :=
  ∃ n, after guest.kernel (n + 1) listHead = none ∨
    after guest.kernel (n + 1) listHead = some listHead

/-- The loop goes along the links in memory, up to one that leads to the head. -/
lemma nextListEntry_eq (listHead entry : UInt64) : nextListEntry guest listHead entry =
    if guest.kernel entry = some listHead then none else guest.kernel entry := by
  unfold nextListEntry
  cases guest.kernel entry with
  | none => rfl
  | some next =>
    by_cases hnext : next = listHead
    · rw [hnext, if_pos rfl]
      exact if_pos rfl
    · rw [if_neg (by simpa using hnext)]
      exact if_neg hnext

lemma processesEnd_iff : ProcessesEnd hdlr guest ↔
    ∀ listHead, guest.psActiveProcessHead = some listHead → LeadsBack guest listHead := by
  unfold ProcessesEnd winCurProcesses
  cases guest.psActiveProcessHead with
  | none => exact iff_of_true ⟨0, [], rfl⟩ fun _ h => by cases h
  | some listHead =>
    simp only [Option.some.injEq, forall_eq', LeadsBack]
    rw [← exists_path_until_iff (nextListEntry_eq guest listHead), ← exists_follow_iff]
    constructor
    · rintro ⟨rounds, processes, h⟩
      obtain ⟨l, hl, -⟩ := Option.map_eq_some_iff.mp h
      exact ⟨rounds, l, hl⟩
    · rintro ⟨rounds, l, hl⟩
      refine ⟨rounds, l.filterMap (listProcess hdlr guest), ?_⟩
      rw [hl]
      rfl

/-- The loops of `win_list_drives` over the chains of a directory end. -/
def ChainsEnd (dir : UInt64) : Prop := ∃ rounds entries, dirEntries hdlr guest rounds dir = some entries

lemma chainsEnd_iff_revisits (dir : UInt64) : ChainsEnd hdlr guest dir ↔
    ∀ bucket ∈ buckets hdlr guest dir, ¬Revisits (nextDirEntry hdlr guest) bucket := by
  unfold ChainsEnd dirEntries
  rw [← exists_mapM_follow_iff]
  constructor
  · rintro ⟨rounds, entries, h⟩
    obtain ⟨ls, hls, -⟩ := Option.map_eq_some_iff.mp h
    exact ⟨rounds, ls, hls⟩
  · rintro ⟨rounds, ls, hls⟩
    refine ⟨rounds, ls.flatten, ?_⟩
    rw [hls]
    rfl

/-- The link of an entry as it is in memory. -/
def chainLink (dirEntry : UInt64) : Option UInt64 :=
  if dirEntry = 0 then none
  else guest.system (dirEntry + hdlr.offsets .objectDirectoryEntryChainLink)

/-- The links of the entries that a chain comes to can be read. -/
def LinksRead (bucket : UInt64) : Prop :=
  ∀ n dirEntry, after (chainLink hdlr guest) n bucket = some dirEntry → dirEntry ≠ 0 →
    guest.system (dirEntry + hdlr.offsets .objectDirectoryEntryChainLink) ≠ none

/-- Where the links can be read, the loop follows those in memory. -/
lemma revisits_nextDirEntry {bucket : UInt64} (h : LinksRead hdlr guest bucket) :
    Revisits (nextDirEntry hdlr guest) bucket ↔ Revisits (chainLink hdlr guest) bucket := by
  apply revisits_congr
  intro n dirEntry hafter
  unfold nextDirEntry chainLink
  by_cases hzero : dirEntry = 0
  · rw [if_pos hzero, if_pos hzero]
  · rw [if_neg hzero, if_neg hzero]
    obtain ⟨next, hnext⟩ := Option.ne_none_iff_exists'.mp (h n dirEntry hafter hzero)
    dsimp only
    rw [hnext]
    rfl

lemma chainsEnd_iff {dir : UInt64}
    (h : ∀ bucket ∈ buckets hdlr guest dir, LinksRead hdlr guest bucket) :
    ChainsEnd hdlr guest dir ↔
      ∀ bucket ∈ buckets hdlr guest dir, ¬Revisits (chainLink hdlr guest) bucket := by
  rw [chainsEnd_iff_revisits]
  exact forall₂_congr fun bucket hb => not_congr (revisits_nextDirEntry hdlr guest (h bucket hb))

end Win

/-- The walk over the list of processes ends exactly if its links lead back to the head or to one
that cannot be read, the other walks over lists of the guest exactly if the links come to no node
twice; for the chains of a directory where the links can be read. -/
theorem guest_walks_end_iff {κ ε : Type} {ctx : Context κ ε} {calls : Extract.ExtractCalls}
    {image : Extract.Image} {controlArea : UInt64} {s : Extract.ExtractState} {hdlr : Vmhdlr κ ε}
    {guest : WinGuest} {dir : UInt64}
    (hlinks : ∀ bucket ∈ buckets hdlr guest dir, LinksRead hdlr guest bucket) :
    (Extract.SubsectionsEnd ctx calls image controlArea s ↔
      ¬Revisits (image.nextSubsection ctx.hdlr.offsets controlArea)
        (controlArea + ctx.hdlr.sizes .controlArea)) ∧
    (ProcessesEnd hdlr guest ↔ ∀ listHead, guest.psActiveProcessHead = some listHead →
      LeadsBack guest listHead) ∧
    (ChainsEnd hdlr guest dir ↔
      ∀ bucket ∈ buckets hdlr guest dir, ¬Revisits (chainLink hdlr guest) bucket) :=
  ⟨Extract.subsectionsEnd_iff ctx calls image controlArea s, processesEnd_iff hdlr guest,
    chainsEnd_iff hdlr guest hlinks⟩

/-- A directory has one chain. -/
def oneBucket : Vmhdlr Unit Unit :=
  { (Vm.start fun _ => 0x90).hdlr with
    offsets := fun
      | .objectDirectoryLock => 8
      | _ => 0 }

/-- The entry at 0x200 stands behind the head of the list of processes, and the entry at 0x400 is
the first of a chain; they lead to `next` and `link`. -/
def listGuest (next link : UInt64) : WinGuest where
  kernel := fun addr => some (([(0x100, 0x200), (0x200, next)].lookup addr).getD 0)
  system := fun addr => some (([(0x300, 0x400), (0x400, link)].lookup addr).getD 0)
  readStr := fun _ => none
  readUnicodeStr := fun _ => none
  convertStrEncoding := fun _ => none
  psActiveProcessHead := some 0x100
  obHeaderCookie := none

theorem guest_walks_end_iff_short :
    (Extract.SubsectionsEnd Extract.extractContext Extract.extractCalls (Extract.sectionImage 0)
        0x1000 ⟨⟨0, 0⟩, 0, none⟩ ↔
      ¬Revisits ((Extract.sectionImage 0).nextSubsection Extract.extractContext.hdlr.offsets 0x1000)
        (0x1000 + Extract.extractContext.hdlr.sizes .controlArea)) ∧
    (ProcessesEnd oneBucket (listGuest 0x100 0) ↔
      ∀ listHead, (listGuest 0x100 0).psActiveProcessHead = some listHead →
        LeadsBack (listGuest 0x100 0) listHead) ∧
    (ChainsEnd oneBucket (listGuest 0x100 0) 0x300 ↔
      ∀ bucket ∈ buckets oneBucket (listGuest 0x100 0) 0x300,
        ¬Revisits (chainLink oneBucket (listGuest 0x100 0)) bucket) :=
  guest_walks_end_iff fun _ _ _ _ _ _ => Option.some_ne_none _

/-- The subsection at 0x1080 stands behind itself. -/
def loopedImage : Extract.Image :=
  { Extract.sectionImage 0 with
    mem := fun addr => if addr = 0x1090 then some 0x1080 else (Extract.sectionImage 0).mem addr }

/-- Nodes that lead to themselves hold the walks up for ever. -/
theorem looped_lists_never_end :
    ¬Extract.SubsectionsEnd Extract.extractContext Extract.extractCalls loopedImage 0x1000
        ⟨⟨0, 0⟩, 0, none⟩ ∧
      ¬ProcessesEnd oneBucket (listGuest 0x200 0x400) ∧
      ¬ChainsEnd oneBucket (listGuest 0x200 0x400) 0x300 := by
  refine ⟨fun h => ?_, fun h => ?_, fun h => ?_⟩
  · apply (Extract.subsectionsEnd_iff _ _ _ _ _).mp h
    exact ⟨0, 1, 0x1080, by decide, by decide, by decide⟩
  · -- behind the head the links stay at 0x200
    have hstays (n : Nat) : after (listGuest 0x200 0x400).kernel (n + 1) 0x100 = some 0x200 := by
      induction n with
      | zero => rfl
      | succ n ih =>
        rw [after_add (n + 1) 1, ih]
        rfl
    obtain ⟨n, hn | hn⟩ := (processesEnd_iff _ _).mp h 0x100 rfl
    · rw [hstays] at hn
      cases hn
    · rw [hstays] at hn
      cases hn
  · apply (chainsEnd_iff_revisits _ _ _).mp h 0x400 (by decide)
    exact ⟨0, 1, 0x400, by decide, by decide, by decide⟩

end Hfm

import Hfm.Drives
import Hfm.HandleTable

/-!
# The lists of processes and of drives

What `win_cur_processes` and `win_list_drives` list, said in terms of what the guest has: a ring of
processes, a table of handles, and the directory `GLOBAL??` with its symbolic links.
-/

namespace Hfm

open Support

section Processes

variable {κ ε : Type} (hdlr : Vmhdlr κ ε) (guest : WinGuest)

/-! ### The ring of processes -/

/-- The list entries of the processes and the head behind them. A link leads to the next one of
the ring, if it can be read. -/
structure ProcessRing (guest : WinGuest) (links : List UInt64) (head : UInt64) : Prop where
  nodup : (links ++ [head]).Nodup
  first : guest.psActiveProcessHead = (links ++ [head]).head?
  linked : (links ++ [head]).IsChain fun entry next =>
    ∀ value, guest.kernel entry = some value → value = next
  closed : ∀ value, guest.kernel head = some value → guest.psActiveProcessHead = some value

/-- The entries in front of the first one whose link cannot be read. -/
def readableLinks (links : List UInt64) : List UInt64 :=
  links.takeWhile fun entry => (guest.kernel entry).isSome

/-- The walk from an entry on, which ends at the head or at a link that cannot be read. -/
lemma ring_path {listHead head : UInt64} (links : List UInt64) {start : UInt64}
    (hstart : (links ++ [head]).head? = some start)
    (hother : ∀ entry ∈ (links ++ [head]).tail, entry ≠ listHead)
    (hlinked : (links ++ [head]).IsChain fun entry next =>
      ∀ value, guest.kernel entry = some value → value = next)
    (hclosed : ∀ value, guest.kernel head = some value → value = listHead) :
    Path (nextListEntry guest listHead) start (readableLinks guest links) := by
  induction links generalizing start with
  | nil =>
    cases hstart
    apply Path.stop
    unfold nextListEntry
    cases hread : guest.kernel head with
    | none => rfl
    | some value => exact if_pos (hclosed value hread)
  | cons entry links ih =>
    cases hstart
    unfold readableLinks nextListEntry
    cases hread : guest.kernel entry with
    | none =>
      rw [List.takeWhile_cons_of_neg (by simp [hread])]
      apply Path.stop
      rw [hread]
    | some value =>
      rw [List.takeWhile_cons_of_pos (by simp [hread])]
      obtain ⟨next, rest, hnext⟩ : ∃ next rest, links ++ [head] = next :: rest :=
        List.exists_cons_of_ne_nil (by simp)
      rw [List.cons_append, List.tail_cons] at hother
      rw [List.cons_append, hnext, List.isChain_cons_cons] at hlinked
      obtain rfl := hlinked.1 value hread
      have hne : value ≠ listHead := hother value (by rw [hnext]; exact List.mem_cons_self)
      apply Path.step
      · rw [hread]
        exact if_neg hne
      · refine ih (by rw [hnext]; rfl) (fun e he => hother e (List.mem_of_mem_tail he)) ?_
        rw [hnext]
        exact hlinked.2

lemma ProcessRing.path {links : List UInt64} {head : UInt64} (h : ProcessRing guest links head) :
    ∃ listHead, guest.psActiveProcessHead = some listHead ∧
      Path (nextListEntry guest listHead) listHead (readableLinks guest links) := by
  obtain ⟨listHead, rest, hring⟩ : ∃ listHead rest, links ++ [head] = listHead :: rest :=
    List.exists_cons_of_ne_nil (by simp)
  have hfirst : guest.psActiveProcessHead = some listHead := by
    rw [h.first, hring]
    rfl
  have hnodup := h.nodup
  rw [hring, List.nodup_cons] at hnodup
  refine ⟨listHead, hfirst, ring_path guest links (by rw [hring]; rfl) ?_ h.linked ?_⟩
  · rw [hring, List.tail_cons]
    exact fun entry hmem heq => hnodup.1 (heq ▸ hmem)
  · intro value hread
    exact Option.some.inj ((h.closed value hread).symm.trans hfirst)

lemma ProcessRing.processes {links : List UInt64} {head : UInt64} (h : ProcessRing guest links head)
    {rounds : Nat} (hrounds : links.length ≤ rounds) : winCurProcesses hdlr guest rounds =
      some ((readableLinks guest links).filterMap (listProcess hdlr guest)) := by
  obtain ⟨listHead, hhead, hpath⟩ := h.path
  have hlen : (readableLinks guest links).length ≤ rounds :=
    ((List.takeWhile_prefix _).length_le).trans hrounds
  unfold winCurProcesses
  rw [hhead]
  dsimp only
  rw [follow_of_path hpath hlen]
  rfl

lemma addr_of_listProcess {entry : UInt64} {p : Process}
    (h : listProcess hdlr guest entry = some p) :
    p.addr = entry - hdlr.offsets .eprocessActiveProcessLinks := by
  obtain ⟨pid, -, rfl⟩ := Option.map_eq_some_iff.mp h
  rfl

lemma listed_sublist (entries : List UInt64) :
    ((entries.filterMap (listProcess hdlr guest)).map Process.addr).Sublist
      (entries.map (· - hdlr.offsets .eprocessActiveProcessLinks)) := by
  induction entries with
  | nil => exact List.Sublist.refl _
  | cons entry entries ih =>
    rw [List.filterMap_cons, List.map_cons]
    cases hp : listProcess hdlr guest entry with
    | none => exact ih.cons _
    | some p =>
      rw [← addr_of_listProcess hdlr guest hp]
      exact ih.cons_cons _

end Processes

/-- Of a ring of processes those are listed, in their order and once each, that come before the
first link which cannot be read and whose number can be read. The head of the ring, which is no
process, never is. -/
theorem processes_listed {κ ε : Type} {hdlr : Vmhdlr κ ε} {guest : WinGuest} {links : List UInt64}
    {head : UInt64} (h : ProcessRing guest links head) {rounds : Nat}
    (hrounds : links.length ≤ rounds) : ∃ processes,
      winCurProcesses hdlr guest rounds = some processes ∧
      processes = (readableLinks guest links).filterMap (listProcess hdlr guest) ∧
      (processes.map Process.addr).Nodup ∧
      head - hdlr.offsets .eprocessActiveProcessLinks ∉ processes.map Process.addr ∧
      ((∀ entry ∈ links, guest.kernel entry ≠ none) → ∀ entry ∈ links,
        guest.kernel (entry - hdlr.offsets .eprocessActiveProcessLinks +
          hdlr.offsets .eprocessUniqueProcessId) ≠ none →
        entry - hdlr.offsets .eprocessActiveProcessLinks ∈ processes.map Process.addr) := by
  have hlisted : (((readableLinks guest links).filterMap (listProcess hdlr guest)).map
      Process.addr).Sublist (links.map (· - hdlr.offsets .eprocessActiveProcessLinks)) :=
    (listed_sublist hdlr guest _).trans ((List.takeWhile_sublist _).map _)
  have hnodup : ((links ++ [head]).map
      (· - hdlr.offsets .eprocessActiveProcessLinks)).Nodup :=
    h.nodup.map fun a b hab => by simpa using hab
  rw [List.map_append, List.nodup_append] at hnodup
  refine ⟨_, h.processes hdlr guest hrounds, rfl, hlisted.nodup hnodup.1, fun hmem => ?_,
    fun hread entry hentry hpid => ?_⟩
  · exact hnodup.2.2 _ (hlisted.subset hmem) _ (List.mem_singleton_self _) rfl
  · have hall : readableLinks guest links = links :=
      List.takeWhile_eq_self_iff.mpr fun e he => Option.isSome_iff_ne_none.mpr (hread e he)
    obtain ⟨pid, hpid⟩ := Option.ne_none_iff_exists'.mp hpid
    obtain ⟨p, hp⟩ : ∃ p, listProcess hdlr guest entry = some p := by
      simp only [listProcess, hpid, Option.map_some]
      exact ⟨_, rfl⟩
    rw [hall]
    exact List.mem_map.mpr ⟨p, List.mem_filterMap.mpr ⟨entry, hentry, hp⟩,
      addr_of_listProcess hdlr guest hp⟩

/-- Two processes in a ring, `System` first. Its handle table has three levels and one object, a
directory with one symbolic link; all other pointers of the table are null. -/
def ringGuest : WinGuest where
  kernel := fun addr =>
    [(0x1010, 0x2010), (0x2010, 0x100), (0x100, 0x1010), (0x1000, 4), (0x2000, 5)].lookup addr
  system := fun addr => some <|
    ([(0x1020, 0x5000), (0x5000, 0x6002), (0x6008, 0xa000), (0xa010, 0xb000), (0xb000, 0x7000),
      (0x7018, 3), (0x7030, 0x8000), (0x8008, 0x9030), (0x9018, 4), (0x9080, 3)].lookup addr).getD 0
  readStr := fun addr => [(0x1040, cstr "System"), (0x2040, cstr "smss.exe")].lookup addr
  readUnicodeStr := fun addr =>
    [(0x6f08, cstr "GLOBAL??"), (0x9090, cstr "\\Device\\HarddiskVolume2")].lookup addr
  convertStrEncoding := some
  psActiveProcessHead := some 0x1010
  obHeaderCookie := none

def ringOffsets : WinOffset → UInt64
  | .eprocessActiveProcessLinks => 0x10
  | .eprocessObjectTable => 0x20
  | .eprocessImageFileName => 0x40
  | .objectHeaderTypeIndex => 0x18
  | .objectHeaderBody => 0x30
  | .objectHeaderNameInfoName | .objectDirectoryLock | .objectDirectoryEntryObject => 8
  | .objectSymbolicLinkDosDeviceDriveIndex => 0x50
  | .objectSymbolicLinkLinkTarget => 0x60
  | _ => 0

def ringSizes : WinSize → UInt64
  | .handleTableEntry => 0x1000
  | .objectHeaderNameInfo => 0x100
  | _ => 0

def ringHdlr : Vmhdlr Unit Unit :=
  { (Vm.start fun _ => 0x90).hdlr with
    pm := .ia32e, winver := .windows7, offsets := ringOffsets, sizes := ringSizes }

lemma ringGuest_ring : ProcessRing ringGuest [0x1010, 0x2010] 0x100 := by
  refine ⟨by decide, rfl, ?_, ?_⟩
  · refine .cons_cons (fun value h => ?_) (.cons_cons (fun value h => ?_) (.singleton _))
    · exact (Option.some.inj h).symm
    · exact (Option.some.inj h).symm
  · intro value h
    exact h

theorem processes_listed_two : ∃ processes,
    winCurProcesses ringHdlr ringGuest 2 = some processes ∧
      processes = (readableLinks ringGuest [0x1010, 0x2010]).filterMap
        (listProcess ringHdlr ringGuest) ∧
      (processes.map Process.addr).Nodup ∧
      0x100 - ringHdlr.offsets .eprocessActiveProcessLinks ∉ processes.map Process.addr ∧
      ((∀ entry ∈ [0x1010, 0x2010], ringGuest.kernel entry ≠ none) →
        ∀ entry ∈ [0x1010, 0x2010],
        ringGuest.kernel (entry - ringHdlr.offsets .eprocessActiveProcessLinks +
          ringHdlr.offsets .eprocessUniqueProcessId) ≠ none →
        entry - ringHdlr.offsets .eprocessActiveProcessLinks ∈ processes.map Process.addr) :=
  processes_listed ringGuest_ring (Nat.le_refl 2)

/-! ### The directory of the drives -/

/-- A symbolic link of the directory `GLOBAL??`: the number of the drive letter, 0 for none, and
the target, if its text can be read. -/
structure SymbolicLink where
  index : Fin 27
  target : Option CStr

/-- What an entry of the directory stands for. -/
inductive DirObject where
  | null
  | other
  | symbolicLink (link : SymbolicLink)

/-- The drive of a link: its letter, and its target below `\Device\`. -/
def SymbolicLink.drive (link : SymbolicLink) : Option Drive :=
  if link.index = 0 then none
  else some
    { dosName := [0x40 + (link.index : Nat).toUInt8, 0x3a]
      winName := (link.target.map fun target =>
        (target.dropPrefix? (cstr "\\Device\\")).getD target).getD []
      index := (link.index : Nat).toUInt32 }

def DirObject.drive : DirObject → Option Drive
  | .symbolicLink link => link.drive
  | _ => none

section Directory

variable {κ ε : Type} (hdlr : Vmhdlr κ ε) (guest : WinGuest)

/-- The object at `obj`. -/
def DirObject.At (obj : UInt64) : DirObject → Prop
  | .null => obj = 0
  | .other => obj ≠ 0 ∧
    winGetObjectType hdlr guest (obj - hdlr.offsets .objectHeaderBody) ≠ .symbolicLink
  | .symbolicLink link => obj ≠ 0 ∧
    winGetObjectType hdlr guest (obj - hdlr.offsets .objectHeaderBody) = .symbolicLink ∧
    (guest.system.value (obj + hdlr.offsets .objectSymbolicLinkDosDeviceDriveIndex)).toUInt32 =
      (link.index : Nat).toUInt32 ∧
    utf8Str guest (obj + hdlr.offsets .objectSymbolicLinkLinkTarget) = link.target ∧
    ∀ target, link.target = some target → target.length < STR_BUFF

/-- A chain of the directory. -/
def ChainAt : UInt64 → List DirObject → Prop
  | dirEntry, [] => dirEntry = 0
  | dirEntry, x :: xs => dirEntry ≠ 0 ∧
    x.At hdlr guest (guest.system.value (dirEntry + hdlr.offsets .objectDirectoryEntryObject)) ∧
    ∃ next, guest.system (dirEntry + hdlr.offsets .objectDirectoryEntryChainLink) = some next ∧
      ChainAt next xs

/-- The object with this header is a directory of the name `GLOBAL??`. -/
def IsGlobal (obj : UInt64) : Prop :=
  winGetObjectType hdlr guest obj = .directory ∧
    (∃ name, utf8Str guest (obj - hdlr.sizes .objectHeaderNameInfo +
      hdlr.offsets .objectHeaderNameInfoName) = some name ∧ cstr "GLOBAL??" <+: name) ∧
    obj + hdlr.offsets .objectHeaderBody ≠ 0

/-- The name of the process that has the directory among its handles. -/
def holderName : WinVer → CStr
  | .windowsVista | .windowsXp => cstr "smss.exe"
  | _ => cstr "System"

/-- The objects of a handle table of so many levels, in the order of its slots. -/
def tableObjects (tablecode : UInt64) (levels : Nat) : List UInt64 :=
  ((presentSlots hdlr guest.system levels [] (tablecode &&& ~~~EX_FAST_REF_MASK)).map fun slot =>
    guest.system.value slot.addr).filter (· ≠ 0) |>.map (adjustObjAddr hdlr.winver hdlr.pm)

/-- The directory is the first one of its name in the handle table of the first process of
the name it is looked for under, all of whose pointers to further tables can be read. -/
structure HasDirectory (links : List UInt64) (head : UInt64) (chains : List (List DirObject)) :
    Prop where
  known : hdlr.winver ≠ .unknown
  ring : ProcessRing guest links head
  entry_pos : hdlr.sizes .handleTableEntry ≠ 0
  reached : ∃ holder tablecode levels dir before after,
    ((readableLinks guest links).filterMap (listProcess hdlr guest)).find?
      (·.name = holderName hdlr.winver) = some holder ∧
    guest.system (handleTable hdlr guest.system holder.addr +
      hdlr.offsets .handleTableTableCode) = some tablecode ∧
    (tablecode &&& EX_FAST_REF_MASK).toNat = levels ∧ levels ≤ 2 ∧
    SubtablesReadable hdlr guest.system levels (tablecode &&& ~~~EX_FAST_REF_MASK) ∧
    tableObjects hdlr guest tablecode levels = before ++ dir :: after ∧
    (∀ obj ∈ before, ¬IsGlobal hdlr guest obj) ∧ IsGlobal hdlr guest dir ∧
    List.Forall₂ (ChainAt hdlr guest)
      (buckets hdlr guest (dir + hdlr.offsets .objectHeaderBody)) chains

variable {hdlr guest}

/-! ### The chains -/

lemma ChainAt.path {dirEntry : UInt64} {xs : List DirObject} (h : ChainAt hdlr guest dirEntry xs) :
    ∃ entries, Path (nextDirEntry hdlr guest) dirEntry entries ∧
      List.Forall₂ (fun entry x => DirObject.At hdlr guest
        (guest.system.value (entry + hdlr.offsets .objectDirectoryEntryObject)) x) entries xs := by
  induction xs generalizing dirEntry with
  | nil => exact ⟨[], .stop (if_pos h), .nil⟩
  | cons x xs ih =>
    obtain ⟨hne, hx, next, hlink, hrest⟩ := h
    obtain ⟨entries, hpath, hall⟩ := ih hrest
    refine ⟨dirEntry :: entries, .step ?_ hpath, .cons hx hall⟩
    simp only [nextDirEntry, if_neg hne, hlink, Option.getD_some]

/-- The name of a drive letter. -/
lemma dosName_eq (index : Fin 27) (h : index ≠ 0) :
    cString [(0x41 + (index : Nat).toUInt32 - 1).toUInt8, 0x3a] =
      [0x40 + (index : Nat).toUInt8, 0x3a] := by
  revert index
  decide

lemma index_toUInt32 (index : Fin 27) : (index : Nat).toUInt32 = 0 ↔ index = 0 := by
  revert index
  decide

lemma withoutDevice_eq (target : CStr) :
    (if target.take 8 = cstr "\\Device\\" then target.drop 8 else target) =
      (target.dropPrefix? (cstr "\\Device\\")).getD target := by
  split
  · rename_i hprefix
    have hsplit : target.dropPrefix? (cstr "\\Device\\") = some (target.drop 8) := by
      rw [List.dropPrefix?_eq_some_iff]
      exact ⟨cstr "\\Device\\", by rw [← hprefix, List.take_append_drop], by simp⟩
    rw [hsplit]
    rfl
  · rename_i hother
    cases hdrop : target.dropPrefix? (cstr "\\Device\\") with
    | none => rfl
    | some rest =>
      obtain ⟨front, rfl, hfront⟩ := List.dropPrefix?_eq_some_iff.mp hdrop
      obtain rfl : front = cstr "\\Device\\" := by simpa using hfront
      exact absurd (show (cstr "\\Device\\" ++ rest).take 8 = cstr "\\Device\\" from rfl) hother

lemma utf8Str_nul {addr : UInt64} {text : CStr} (h : utf8Str guest addr = some text) :
    0 ∉ text := by
  obtain ⟨buff, -, rfl⟩ := Option.map_eq_some_iff.mp h
  exact nul_notMem_cString buff

lemma sprintf_winName {target : CStr} (hnul : 0 ∉ target) (hlen : target.length < STR_BUFF) :
    ∃ name : CharArray STR_BUFF, CharArray.sprintf STR_BUFF
      ((target.dropPrefix? (cstr "\\Device\\")).getD target) = .ok name ∧
      name.str = (target.dropPrefix? (cstr "\\Device\\")).getD target := by
  have hsuffix : (target.dropPrefix? (cstr "\\Device\\")).getD target <:+ target := by
    cases hdrop : target.dropPrefix? (cstr "\\Device\\") with
    | none => exact List.suffix_refl _
    | some rest =>
      obtain ⟨front, rfl, -⟩ := List.dropPrefix?_eq_some_iff.mp hdrop
      exact List.suffix_append _ _
  have hself := cString_of_nul fun hmem => hnul (hsuffix.subset hmem)
  have hlt :
      (cString ((target.dropPrefix? (cstr "\\Device\\")).getD target)).length < STR_BUFF := by
    rw [hself]
    exact Nat.lt_of_le_of_lt hsuffix.length_le hlen
  unfold CharArray.sprintf
  rw [dif_pos hlt]
  exact ⟨_, rfl, hself⟩

/-- What is made of an entry is the drive of its object. -/
lemma entryDrive_eq {dirEntry : UInt64} {x : DirObject} (h : x.At hdlr guest
    (guest.system.value (dirEntry + hdlr.offsets .objectDirectoryEntryObject))) :
    entryDrive hdlr guest dirEntry = .ok x.drive := by
  unfold entryDrive
  dsimp only
  cases x with
  | null =>
    rw [if_pos (.inl h)]
    rfl
  | other =>
    rw [if_pos (.inr h.2)]
    rfl
  | symbolicLink link =>
    obtain ⟨hne, htype, hindex, htarget, hfits⟩ := h
    have hdrive : (DirObject.symbolicLink link).drive = link.drive := rfl
    rw [if_neg (by rw [not_or, not_not]; exact ⟨hne, htype⟩), hindex, hdrive, SymbolicLink.drive]
    by_cases hzero : link.index = 0
    · rw [if_pos ((index_toUInt32 _).mpr hzero), if_pos hzero]
      rfl
    · rw [if_neg fun h => hzero ((index_toUInt32 _).mp h), if_neg hzero, htarget,
        dosName_eq _ hzero]
      cases htext : link.target with
      | none => rfl
      | some target =>
        obtain ⟨name, hok, hname⟩ := sprintf_winName
          (utf8Str_nul (htarget.trans htext)) (hfits target htext)
        dsimp only
        rw [withoutDevice_eq, hok]
        simp only [bind, Except.bind, pure, Except.pure, hname]
        rfl

lemma mapM_entryDrive {entries : List UInt64} {xs : List DirObject}
    (h : List.Forall₂ (fun entry x => DirObject.At hdlr guest
      (guest.system.value (entry + hdlr.offsets .objectDirectoryEntryObject)) x) entries xs) :
    entries.mapM (entryDrive hdlr guest) = .ok (xs.map DirObject.drive) := by
  induction h with
  | nil => rfl
  | cons hx hrest ih =>
    rw [List.mapM_cons, entryDrive_eq hx, ih]
    rfl

/-- The entries of all chains. -/
lemma dirEntries_eq {heads : List UInt64} {chains : List (List DirObject)}
    (h : List.Forall₂ (ChainAt hdlr guest) heads chains) {rounds : Nat}
    (hrounds : ∀ xs ∈ chains, xs.length ≤ rounds) : ∃ walks entries,
      heads.mapM (follow (nextDirEntry hdlr guest) rounds) = some walks ∧
      walks.flatten = entries ∧
      List.Forall₂ (fun entry x => DirObject.At hdlr guest
        (guest.system.value (entry + hdlr.offsets .objectDirectoryEntryObject)) x)
        entries chains.flatten := by
  induction h with
  | nil => exact ⟨[], [], rfl, rfl, .nil⟩
  | @cons dirEntry xs heads chains hchain hrest ih =>
    obtain ⟨entries, hpath, hall⟩ := hchain.path
    have hlen : entries.length ≤ rounds :=
      hall.length_eq ▸ hrounds xs List.mem_cons_self
    obtain ⟨walks, more, hwalks, rfl, hmore⟩ :=
      ih fun ys hys => hrounds ys (List.mem_cons_of_mem _ hys)
    refine ⟨entries :: walks, _, ?_, rfl, ?_⟩
    · rw [List.mapM_cons, follow_of_path hpath hlen, hwalks]
      rfl
    · rw [List.flatten_cons, List.flatten_cons]
      exact List.rel_append hall hmore

/-! ### The way to the directory -/

lemma IsGlobal.body {obj : UInt64} (h : IsGlobal hdlr guest obj) :
    globalBody hdlr guest obj = obj + hdlr.offsets .objectHeaderBody := by
  obtain ⟨name, hname, hprefix⟩ := h.2.1
  simp only [globalBody, if_pos h.1, hname]
  exact if_pos (List.prefix_iff_eq_take.mp hprefix).symm

lemma isGlobal_of_body {obj : UInt64} (h : globalBody hdlr guest obj ≠ 0) :
    IsGlobal hdlr guest obj := by
  by_cases htype : winGetObjectType hdlr guest obj = .directory
  · simp only [globalBody, if_pos htype] at h
    cases hname : utf8Str guest (obj - hdlr.sizes .objectHeaderNameInfo +
        hdlr.offsets .objectHeaderNameInfoName) with
    | none => exact absurd rfl (hname ▸ h)
    | some name =>
      simp only [hname] at h
      by_cases htake : name.take 8 = cstr "GLOBAL??"
      · rw [if_pos htake] at h
        exact ⟨htype, ⟨name, hname, htake ▸ List.take_prefix 8 name⟩, h⟩
      · exact absurd (if_neg htake) h
  · exact absurd (if_neg htype) h

lemma globalDir_eq {objs before after : List UInt64} {dir : UInt64}
    (hobjs : objs = before ++ dir :: after) (hbefore : ∀ obj ∈ before, ¬IsGlobal hdlr guest obj)
    (hdir : IsGlobal hdlr guest dir) :
    globalDir hdlr guest objs = dir + hdlr.offsets .objectHeaderBody := by
  have hnone : (before.map (globalBody hdlr guest)).find? (· ≠ 0) = none := by
    rw [List.find?_eq_none]
    intro value hvalue hne
    obtain ⟨obj, hobj, rfl⟩ := List.mem_map.mp hvalue
    exact hbefore obj hobj (isGlobal_of_body (of_decide_eq_true hne))
  unfold globalDir
  rw [hobjs, List.map_append, List.map_cons, List.find?_append, hnone, Option.none_or,
    List.find?_cons_of_pos, hdir.body]
  · rfl
  · rw [hdir.body]
    exact decide_eq_true hdir.2.2

lemma filterMap_nonnull (objs : List UInt64) (f : UInt64 → UInt64) :
    objs.filterMap (fun obj => if obj = 0 then none else some (f obj)) =
      (objs.filter (· ≠ 0)).map f := by
  induction objs with
  | nil => rfl
  | cons obj objs ih =>
    by_cases hzero : obj = 0
    · rw [List.filter_cons_of_neg (by simpa using hzero), ← ih, List.filterMap_cons, if_pos hzero]
    · rw [List.filter_cons_of_pos (by simpa using hzero), List.map_cons, ← ih, List.filterMap_cons,
        if_neg hzero]

lemma winTableObjects_eq {process tablecode : UInt64} {levels : Nat}
    (hcode : guest.system (handleTable hdlr guest.system process +
      hdlr.offsets .handleTableTableCode) = some tablecode)
    (hlevels : (tablecode &&& EX_FAST_REF_MASK).toNat = levels) (hle : levels ≤ 2)
    (hentry : hdlr.sizes .handleTableEntry ≠ 0)
    (hreadable : SubtablesReadable hdlr guest.system levels (tablecode &&& ~~~EX_FAST_REF_MASK)) :
    winTableObjects hdlr guest.system process =
      .ok (some (tableObjects hdlr guest tablecode levels)) := by
  unfold winTableObjects
  rw [hcode]
  dsimp only
  rw [winTableSlots_present hlevels hle hentry hreadable]
  simp only [bind, Except.bind, pure, Except.pure, Except.ok.injEq, Option.some.injEq]
  unfold tableObjects
  rw [← filterMap_nonnull, List.filterMap_map]
  rfl

lemma drivesProcess_eq (processes : List Process) : drivesProcess hdlr processes =
    ((processes.find? (·.name = holderName hdlr.winver)).map (·.addr)).getD 0 := by
  unfold drivesProcess holderName
  cases hdlr.winver <;> rfl

end Directory

/-- With enough rounds `win_list_drives` lists the drives of the directory `GLOBAL??`, chain by
chain: the symbolic links that have a drive letter, and those only. -/
theorem drives_listed {κ ε : Type} {hdlr : Vmhdlr κ ε} {guest : WinGuest} {links : List UInt64}
    {head : UInt64} {chains : List (List DirObject)}
    (h : HasDirectory hdlr guest links head chains) {rounds : Nat}
    (hlinks : links.length ≤ rounds) (hchains : ∀ xs ∈ chains, xs.length ≤ rounds) :
    winListDrives hdlr guest rounds = .ok (some (chains.flatten.filterMap DirObject.drive)) := by
  obtain ⟨holder, tablecode, levels, dir, before, after, hholder, hcode, hlevels, hle, hreadable,
    hobjs, hbefore, hdir, hbuckets⟩ := h.reached
  have hprocess : drivesProcess hdlr
      ((readableLinks guest links).filterMap (listProcess hdlr guest)) = holder.addr := by
    rw [drivesProcess_eq, hholder]
    rfl
  have hdirs := globalDir_eq hobjs hbefore hdir
  have hobjects : drivesObjects hdlr guest rounds =
      .ok (some (tableObjects hdlr guest tablecode levels)) := by
    unfold drivesObjects
    rw [h.ring.processes hdlr guest hlinks]
    dsimp only
    rw [hprocess, winTableObjects_eq hcode hlevels hle h.entry_pos hreadable]
    rfl
  obtain ⟨walks, entries, hwalks, rfl, hentries⟩ := dirEntries_eq hbuckets hchains
  have hdirEntries : dirEntries hdlr guest rounds (dir + hdlr.offsets .objectHeaderBody) =
      some walks.flatten := by
    unfold dirEntries
    rw [hwalks]
    rfl
  unfold winListDrives
  rw [if_neg h.known, hobjects]
  simp only [bind, Except.bind, hdirs, if_neg hdir.2.2, hdirEntries, mapM_entryDrive hentries, pure,
    Except.pure, List.filterMap_map, Function.id_comp]

/-- The one link of the directory, of the drive `C:`. -/
def ringLink : SymbolicLink where
  index := 3
  target := some (cstr "\\Device\\HarddiskVolume2")

lemma ringHdlr_hasDirectory :
    HasDirectory ringHdlr ringGuest [0x1010, 0x2010] 0x100 [[.symbolicLink ringLink]] where
  known := by decide
  ring := ringGuest_ring
  entry_pos := by decide
  reached := by
    refine ⟨⟨cstr "System", 4, 0x1000⟩, 0x6002, 2, 0x7000, [], [], rfl, rfl, rfl, by decide,
      fun _ _ => ⟨_, rfl, fun _ _ _ => ⟨_, rfl, fun _ => trivial⟩⟩, by decide +kernel, by simp,
      ⟨rfl, ⟨_, rfl, List.prefix_refl _⟩, by decide⟩, .cons ⟨by decide, ?_, 0, rfl, rfl⟩ .nil⟩
    exact ⟨by decide, rfl, rfl, rfl, fun _ h => Option.some.inj h ▸ by decide⟩

theorem drives_listed_one : winListDrives ringHdlr ringGuest 2 =
    .ok (some [⟨cstr "C:", cstr "HarddiskVolume2", 3⟩]) :=
  drives_listed ringHdlr_hasDirectory (by decide) (by decide)

end Hfm

import Hfm.Drives
import Hfm.Support.Json

/-!
# The profile of a guest

`src/rekall.c` looks offsets and sizes up in a JSON file; `hfm_init` of `src/hfm.c` fills the
tables of a handler with them, which are zero before.
-/

namespace Hfm

open Support

/-! ### The lookup -/

/-- `json_object_object_get_ex`: the last of the members of that name. -/
def objectGetEx : Json → CStr → Option Json
  | .obj members, key => (members.reverse.find? (·.1 = key)).map (·.2)
  | _, _ => none

/-- `json_object_array_get_idx`, which is for arrays. A value that is `null` is no object. -/
def arrayGetIdx : Json → Nat → Except Fault (Option Json)
  | .arr items, idx => .ok (items[idx]?.bind fun | .null => none | item => some item)
  | .null, _ => .error .nullPointer
  | _, _ => .error .badCast

section Lookup

variable (int64 : Json → UInt64)

/-- `json_object_get_int64`; `int64` is what it makes of an object. -/
def getInt64 : Option Json → UInt64
  | none | some .null => 0
  | some value => int64 value

/-- What is written to `rva` or `size`; none if the lookup fails. The profile is the file as
`json_object_from_file` reads it. -/
def rekallLookup (profile : Option Json) (symbol : CStr) (subsymbol : Option CStr) (size : Bool) :
    Except Fault (Option UInt64) :=
  match profile with
  | none => return none
  | some root =>
    if subsymbol = none ∧ size = false then
      return (objectGetEx root (cstr "$CONSTANTS") >>= (objectGetEx · symbol)).map
        fun jsymbol => getInt64 int64 (some jsymbol)
    else match objectGetEx root (cstr "$STRUCTS") >>= (objectGetEx · symbol) with
    | none => return none
    | some jstruct => do
      if size then return some (getInt64 int64 (← arrayGetIdx jstruct 0))
      else match (← arrayGetIdx jstruct 1) >>= (objectGetEx · (subsymbol.getD [])) with
      | none => return none
      | some jmember => return (← arrayGetIdx jmember 0).map fun jvalue => getInt64 int64 (some jvalue)

/-! ### The tables -/

/-- `win_offset_names`. -/
def winOffsetNames : WinOffset → CStr × CStr
  | .objectAttributesObjectName => (cstr "_OBJECT_ATTRIBUTES", cstr "ObjectName")
  | .objectAttributesRootDirectory => (cstr "_OBJECT_ATTRIBUTES", cstr "RootDirectory")
  | .unicodeStringLength => (cstr "_UNICODE_STRING", cstr "Length")
  | .unicodeStringBuffer => (cstr "_UNICODE_STRING", cstr "Buffer")
  | .ioStatusBlockInformation => (cstr "_IO_STATUS_BLOCK", cstr "Information")
  | .ioStatusBlockStatus => (cstr "_IO_STATUS_BLOCK", cstr "Status")
  | .kpcrPrcb => (cstr "_KPCR", cstr "Prcb")
  | .kpcrPrcbData => (cstr "_KPCR", cstr "PrcbData")
  | .kprcbCurrentThread => (cstr "_KPRCB", cstr "CurrentThread")
  | .kthreadProcess => (cstr "_KTHREAD", cstr "Process")
  | .kthreadApcState => (cstr "_KTHREAD", cstr "ApcState")
  | .kapcStateProcess => (cstr "_KAPC_STATE", cstr "Process")
  | .handleTableHandleCount => (cstr "_HANDLE_TABLE", cstr "HandleCount")
  | .handleTableTableCode => (cstr "_HANDLE_TABLE", cstr "TableCode")
  | .handleTableEntryObject => (cstr "_HANDLE_TABLE_ENTRY", cstr "Object")
  | .handleTableEntryObjectPointerBits => (cstr "_HANDLE_TABLE_ENTRY", cstr "ObjectPointerBits")
  | .objectHeaderBody => (cstr "_OBJECT_HEADER", cstr "Body")
  | .objectHeaderTypeIndex => (cstr "_OBJECT_HEADER", cstr "TypeIndex")
  | .objectHeaderType => (cstr "_OBJECT_HEADER", cstr "Type")
  | .objectHeaderNameInfoName => (cstr "_OBJECT_HEADER_NAME_INFO", cstr "Name")
  | .fileObjectFileName => (cstr "_FILE_OBJECT", cstr "FileName")
  | .fileObjectDeviceObject => (cstr "_FILE_OBJECT", cstr "DeviceObject")
  | .fileObjectSectionObjectPointer => (cstr "_FILE_OBJECT", cstr "SectionObjectPointer")
  | .fileBasicInformationFileAttributes => (cstr "_FILE_BASIC_INFORMATION", cstr "FileAttributes")
  | .objectTypeIndex => (cstr "_OBJECT_TYPE", cstr "Index")
  | .eprocessPeb => (cstr "_EPROCESS", cstr "Peb")
  | .eprocessUniqueProcessId => (cstr "_EPROCESS", cstr "UniqueProcessId")
  | .eprocessActiveProcessLinks => (cstr "_EPROCESS", cstr "ActiveProcessLinks")
  | .eprocessObjectTable => (cstr "_EPROCESS", cstr "ObjectTable")
  | .eprocessImageFileName => (cstr "_EPROCESS", cstr "ImageFileName")
  | .eprocessToken => (cstr "_EPROCESS", cstr "Token")
  | .tokenUserAndGroups => (cstr "_TOKEN", cstr "UserAndGroups")
  | .sidAndAttributesSid => (cstr "_SID_AND_ATTRIBUTES", cstr "Sid")
  | .driverObjectDriverName => (cstr "_DRIVER_OBJECT", cstr "DriverName")
  | .pebProcessParameters => (cstr "_PEB", cstr "ProcessParameters")
  | .rtlUserProcessParametersImagePathName =>
    (cstr "_RTL_USER_PROCESS_PARAMETERS", cstr "ImagePathName")
  | .sectionObjectPointersDataSectionObject =>
    (cstr "_SECTION_OBJECT_POINTERS", cstr "DataSectionObject")
  | .sectionObjectPointersImageSectionObject =>
    (cstr "_SECTION_OBJECT_POINTERS", cstr "ImageSectionObject")
  | .sectionObjectPointersSharedCacheMap => (cstr "_SECTION_OBJECT_POINTERS", cstr "SharedCacheMap")
  | .objectDirectoryHashBuckets => (cstr "_OBJECT_DIRECTORY", cstr "HashBuckets")
  | .objectDirectoryLock => (cstr "_OBJECT_DIRECTORY", cstr "Lock")
  | .objectDirectoryEntryObject => (cstr "_OBJECT_DIRECTORY_ENTRY", cstr "Object")
  | .objectDirectoryEntryChainLink => (cstr "_OBJECT_DIRECTORY_ENTRY", cstr "ChainLink")
  | .objectSymbolicLinkDosDeviceDriveIndex =>
    (cstr "_OBJECT_SYMBOLIC_LINK", cstr "DosDeviceDriveIndex")
  | .objectSymbolicLinkLinkTarget => (cstr "_OBJECT_SYMBOLIC_LINK", cstr "LinkTarget")
  | .controlAreaSegment => (cstr "_CONTROL_AREA", cstr "Segment")
  | .segmentControlArea => (cstr "_SEGMENT", cstr "ControlArea")
  | .segmentSizeOfSegment => (cstr "_SEGMENT", cstr "SizeOfSegment")
  | .segmentTotalNumberOfPtes => (cstr "_SEGMENT", cstr "TotalNumberOfPtes")
  | .subsectionControlArea => (cstr "_SUBSECTION", cstr "ControlArea")
  | .subsectionPtesInSubsection => (cstr "_SUBSECTION", cstr "PtesInSubsection")
  | .subsectionStartingSector => (cstr "_SUBSECTION", cstr "StartingSector")
  | .subsectionSubsectionBase => (cstr "_SUBSECTION", cstr "SubsectionBase")
  | .subsectionNextSubsection => (cstr "_SUBSECTION", cstr "NextSubsection")
  | .securityDescriptorControl => (cstr "_SECURITY_DESCRIPTOR", cstr "Control")
  | .securityDescriptorOwner => (cstr "_SECURITY_DESCRIPTOR", cstr "Owner")
  | .securityDescriptorGroup => (cstr "_SECURITY_DESCRIPTOR", cstr "Group")
  | .securityDescriptorRelativeOwner => (cstr "_SECURITY_DESCRIPTOR_RELATIVE", cstr "Owner")
  | .securityDescriptorRelativeGroup => (cstr "_SECURITY_DESCRIPTOR_RELATIVE", cstr "Group")
  | .fileRenameInformationFileNameLength => (cstr "_FILE_RENAME_INFORMATION", cstr "FileNameLength")
  | .fileRenameInformationFileName => (cstr "_FILE_RENAME_INFORMATION", cstr "FileName")
  | .fileDispositionInformationDeleteFile =>
    (cstr "_FILE_DISPOSITION_INFORMATION", cstr "DeleteFile")

/-- Those in front of `REKALL_OFFSETS_MAX`. -/
def rekallOffsets : List WinOffset :=
  [.objectAttributesObjectName, .objectAttributesRootDirectory, .unicodeStringLength,
    .unicodeStringBuffer, .ioStatusBlockInformation, .ioStatusBlockStatus, .kpcrPrcb,
    .kpcrPrcbData, .kprcbCurrentThread, .kthreadProcess, .kthreadApcState, .kapcStateProcess,
    .handleTableHandleCount, .handleTableTableCode, .handleTableEntryObject,
    .handleTableEntryObjectPointerBits, .objectHeaderBody, .objectHeaderTypeIndex,
    .objectHeaderType, .objectHeaderNameInfoName, .fileObjectFileName, .fileObjectDeviceObject,
    .fileObjectSectionObjectPointer, .fileBasicInformationFileAttributes, .objectTypeIndex,
    .eprocessPeb, .eprocessUniqueProcessId, .eprocessActiveProcessLinks, .eprocessObjectTable,
    .eprocessImageFileName, .eprocessToken, .tokenUserAndGroups, .sidAndAttributesSid,
    .driverObjectDriverName, .pebProcessParameters, .rtlUserProcessParametersImagePathName,
    .sectionObjectPointersDataSectionObject, .sectionObjectPointersImageSectionObject,
    .sectionObjectPointersSharedCacheMap, .objectDirectoryHashBuckets, .objectDirectoryLock,
    .objectDirectoryEntryObject, .objectDirectoryEntryChainLink,
    .objectSymbolicLinkDosDeviceDriveIndex, .objectSymbolicLinkLinkTarget, .controlAreaSegment,
    .segmentControlArea, .segmentSizeOfSegment, .segmentTotalNumberOfPtes, .subsectionControlArea,
    .subsectionPtesInSubsection, .subsectionStartingSector, .subsectionSubsectionBase,
    .subsectionNextSubsection, .securityDescriptorControl, .securityDescriptorOwner,
    .securityDescriptorGroup, .securityDescriptorRelativeOwner, .securityDescriptorRelativeGroup]

/-- `win_size_names`. -/
def winSizeNames : WinSize → CStr
  | .handleTableEntry => cstr "_HANDLE_TABLE_ENTRY"
  | .controlArea => cstr "_CONTROL_AREA"
  | .fileObject => cstr "_FILE_OBJECT"
  | .objectHeaderNameInfo => cstr "_OBJECT_HEADER_NAME_INFO"
  | .objectHeaderCreatorInfo => cstr "_OBJECT_HEADER_CREATOR_INFO"

def winSizes : List WinSize :=
  [.handleTableEntry, .controlArea, .fileObject, .objectHeaderNameInfo, .objectHeaderCreatorInfo]

/-- A lookup for each place of a table; one that fails leaves the place as it is. -/
def fill {ι : Type} [DecidableEq ι] (lookup : ι → Except Fault (Option UInt64)) (table : ι → UInt64)
    (places : List ι) : Except Fault (ι → UInt64) :=
  places.foldlM (fun table i => do
    match ← lookup i with
    | some value => return Function.update table i value
    | none => return table) table

def winFillOffsets (profile : Option Json) (offsets : WinOffset → UInt64) :
    Except Fault (WinOffset → UInt64) := do
  let lookup (i : WinOffset) :=
    rekallLookup int64 profile (winOffsetNames i).1 (some (winOffsetNames i).2) false
  let offsets ← fill lookup offsets rekallOffsets
  let offsets := Function.update offsets .fileRenameInformationFileNameLength 16
  let offsets := Function.update offsets .fileRenameInformationFileName 20
  return Function.update offsets .fileDispositionInformationDeleteFile 0

def winFillSizes (profile : Option Json) (sizes : WinSize → UInt64) :
    Except Fault (WinSize → UInt64) :=
  fill (fun i => rekallLookup int64 profile (winSizeNames i) none true) sizes winSizes

/-- A place that is looked up once has what its lookup gives, or keeps what it had. -/
lemma fill_apply {ι : Type} [DecidableEq ι] {lookup : ι → Except Fault (Option UInt64)}
    {places : List ι} (hnodup : places.Nodup) {table table' : ι → UInt64}
    (h : fill lookup table places = .ok table') (i : ι) :
    if i ∈ places then ∃ value, lookup i = .ok value ∧ table' i = value.getD (table i)
    else table' i = table i := by
  induction places generalizing table with
  | nil =>
    cases h
    rw [if_neg List.not_mem_nil]
  | cons j places ih =>
    obtain ⟨hj, hnodup⟩ := List.nodup_cons.mp hnodup
    unfold fill at h
    rw [List.foldlM_cons] at h
    obtain ⟨table₁, hfirst, hrest⟩ := bind_eq_ok.mp h
    obtain ⟨value, hvalue, hfirst⟩ := bind_eq_ok.mp hfirst
    have hother {k : ι} (hk : k ≠ j) : table₁ k = table k := by
      cases value with
      | none => cases hfirst; rfl
      | some value => cases hfirst; exact Function.update_of_ne hk _ _
    have hself : table₁ j = value.getD (table j) := by
      cases value with
      | none => cases hfirst; rfl
      | some value => cases hfirst; exact Function.update_self _ _ _
    have hgo := ih hnodup hrest
    by_cases hi : i = j
    · subst hi
      rw [if_neg hj] at hgo
      rw [if_pos List.mem_cons_self]
      exact ⟨value, hvalue, hgo.trans hself⟩
    · have hmem : i ∈ j :: places ↔ i ∈ places := List.mem_cons.trans (or_iff_right hi)
      rw [hother hi] at hgo
      simp only [hmem]
      exact hgo

/-- The size of an entry is the one that the profile has, or 0. -/
lemma winFillSizes_entry {profile : Option Json} {sizes : WinSize → UInt64}
    (h : winFillSizes int64 profile (fun _ => 0) = .ok sizes) :
    ∃ value, rekallLookup int64 profile (cstr "_HANDLE_TABLE_ENTRY") none true = .ok value ∧
      sizes .handleTableEntry = value.getD 0 := by
  have hfill := fill_apply (by decide) h .handleTableEntry
  rwa [if_pos (by decide)] at hfill

end Lookup

/-! ### The start of a handler -/

/-- Which calls of `hfm_init` succeed, next to those of `win_list_drives`. -/
structure InitCalls where
  xenInitInterface : Bool
  vmiInit : Bool
  vmiInitPaging : Bool
  vmiInitOs : Bool
  nameToDomid : Bool
  registerSinglestep : Bool
  registerMemEvent : Bool
  setupAltp2m : Bool
  tmInit : Bool
  outInit : Bool

namespace InitCalls

/-- `win_list_drives` is called. -/
def reachesDrives (calls : InitCalls) : Bool :=
  calls.xenInitInterface && calls.vmiInit && calls.vmiInitPaging && calls.vmiInitOs &&
    calls.nameToDomid && calls.registerSinglestep

end InitCalls

section Init

variable {κ ε : Type} (int64 : Json → UInt64)

/-- What `hfm_init` makes of a handler, which has the values that LibVMI and Xen give it. None if
a loop over a list of the guest has not ended after so many rounds. -/
def Vmhdlr.hfmInit (rounds : Nat) (calls : InitCalls) (profile : Option Json) (guest : WinGuest)
    (hdlr : Vmhdlr κ ε) : Except Fault (Option (HfmStatus × Vmhdlr κ ε)) := do
  if calls.xenInitInterface = false then return some (.fail, hdlr)
  else
    let offsets ← winFillOffsets int64 profile fun _ => 0
    let sizes ← winFillSizes int64 profile fun _ => 0
    let hdlr := { hdlr with offsets, sizes }
    if calls.reachesDrives = false then return some (.fail, hdlr)
    else match ← winListDrives hdlr guest rounds with
    | none => return none
    | some drives =>
      let hdlr := { hdlr with drives }
      if calls.registerMemEvent && calls.setupAltp2m && calls.tmInit && calls.outInit then
        return some (.success, hdlr)
      else return some (.fail, hdlr)

end Init

end Hfm

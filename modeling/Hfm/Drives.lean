import Hfm.Support.Walk
import Hfm.Win

/-!
# The drives of a guest

`src/win.c`: `win_cur_processes` walks the list of the processes, and `win_list_drives` finds the
directory `GLOBAL??` among the handles of one of them and walks its chains.
-/

namespace Hfm

open Support

/-- `object_t`. -/
inductive ObjectType where
  | unknown
  | directory
  | symbolicLink
  deriving DecidableEq

/-- `process_t`. -/
structure Process where
  name : CStr
  pid : UInt32
  addr : UInt64

/-- What LibVMI answers about the guest: values in the address spaces of the kernel and of the
process 4, strings of both kinds, the conversion from UTF-16, `PsActiveProcessHead` and
`ObHeaderCookie`. -/
structure WinGuest where
  kernel : Memory
  system : Memory
  readStr : UInt64 → Option CStr
  readUnicodeStr : UInt64 → Option (List UInt8)
  convertStrEncoding : List UInt8 → Option (List UInt8)
  psActiveProcessHead : Option UInt64
  obHeaderCookie : Option UInt8

section Win

variable {κ ε : Type} (hdlr : Vmhdlr κ ε) (guest : WinGuest)

/-! ### Processes -/

/-- The entry that the loop of `win_cur_processes` goes on with; none where it breaks. -/
def nextListEntry (listHead entry : UInt64) : Option UInt64 :=
  match guest.kernel entry with
  | none => none
  | some next => if next = listHead then none else some next

/-- The process around a list entry, with what `strncpy` takes of its name; none if its number
cannot be read. -/
def listProcess (entry : UInt64) : Option Process :=
  let currentProcess := entry - hdlr.offsets .eprocessActiveProcessLinks
  (guest.kernel (currentProcess + hdlr.offsets .eprocessUniqueProcessId)).map fun pid =>
    { name :=
        ((guest.readStr (currentProcess + hdlr.offsets .eprocessImageFileName)).getD []).take STR_BUFF
      pid := pid.toUInt32
      addr := currentProcess }

/-- None if the loop has not ended after so many entries. -/
def winCurProcesses (rounds : Nat) : Option (List Process) :=
  match guest.psActiveProcessHead with
  | none => some []
  | some listHead =>
    (follow (nextListEntry guest listHead) rounds listHead).map (·.filterMap (listProcess hdlr guest))

/-! ### Objects -/

def winObHeaderCookie : UInt8 := guest.obHeaderCookie.getD 0

def winGetObjectType (objectHeader : UInt64) : ObjectType :=
  let offsets := hdlr.offsets
  match hdlr.winver with
  | .windows7 | .windows8 =>
    match guest.system (objectHeader + offsets .objectHeaderTypeIndex) with
    | none => .unknown
    | some value =>
      let typeIndex := value.toUInt8
      if typeIndex = 3 then .directory else if typeIndex = 4 then .symbolicLink else .unknown
  | .windows10 =>
    match guest.system (objectHeader + offsets .objectHeaderTypeIndex) with
    | none => .unknown
    | some value =>
      let index := ((objectHeader + 0x30) >>> 8).toUInt8 ^^^ value.toUInt8 ^^^ winObHeaderCookie guest
      if index = 3 then .directory else if index = 4 then .symbolicLink else .unknown
  | .windowsVista | .windowsXp =>
    match guest.system (objectHeader + offsets .objectHeaderType) with
    | none => .unknown
    | some type =>
      match guest.system (type + offsets .objectTypeIndex) with
      | none => .unknown
      | some value =>
        let typeIndex := value.toUInt8
        if typeIndex = 2 then .directory else if typeIndex = 3 then .symbolicLink else .unknown
  | _ => .unknown

/-- A string of the guest in UTF-8; none if it cannot be read or converted. -/
def utf8Str (addr : UInt64) : Option CStr :=
  (guest.readUnicodeStr addr >>= guest.convertStrEncoding).map cString

/-- The body of a directory of the name `GLOBAL??`, 0 for any other object. -/
def globalBody (obj : UInt64) : UInt64 :=
  if winGetObjectType hdlr guest obj = .directory then
    let nameInfo := obj - hdlr.sizes .objectHeaderNameInfo
    match utf8Str guest (nameInfo + hdlr.offsets .objectHeaderNameInfoName) with
    | some name =>
      if name.take 8 = cstr "GLOBAL??" then obj + hdlr.offsets .objectHeaderBody else 0
    | none => 0
  else 0

/-- The first of the objects that is the directory; 0 if there is none. -/
def globalDir (objs : List UInt64) : UInt64 :=
  ((objs.map (globalBody hdlr guest)).find? (· ≠ 0)).getD 0

/-! ### The directory -/

/-- The entry that the loop over a chain goes on with. A link that cannot be read leaves
`dir_entry` as it is. -/
def nextDirEntry (dirEntry : UInt64) : Option UInt64 :=
  if dirEntry = 0 then none
  else
    let link := dirEntry + hdlr.offsets .objectDirectoryEntryChainLink
    some ((guest.system link).getD dirEntry)

/-- The first entries of the chains. -/
def buckets (dir : UInt64) : List UInt64 :=
  let psize := pointerSize hdlr.pm
  let bucketAddr := dir + hdlr.offsets .objectDirectoryHashBuckets
  let bucketSize := (hdlr.offsets .objectDirectoryLock / psize).toUInt32
  -- the product is one of 32 bits
  (List.range bucketSize.toNat).map fun i =>
    guest.system.value (bucketAddr + (psize * i.toUInt64).toUInt32.toUInt64)

/-- The drive that an entry of a chain is for. -/
def entryDrive (dirEntry : UInt64) : Except Fault (Option Drive) :=
  let offsets := hdlr.offsets
  let obj := guest.system.value (dirEntry + offsets .objectDirectoryEntryObject)
  if obj = 0 ∨ winGetObjectType hdlr guest (obj - offsets .objectHeaderBody) ≠ .symbolicLink then
    return none
  else
    let index := (guest.system.value (obj + offsets .objectSymbolicLinkDosDeviceDriveIndex)).toUInt32
    if index = 0 then return none
    else
      let dosName := cString [(0x41 + index - 1).toUInt8, 0x3a]
      match utf8Str guest (obj + offsets .objectSymbolicLinkLinkTarget) with
      | none => return some ⟨dosName, [], index⟩
      | some target =>
        let device := cstr "\\Device\\"
        let target := if target.take 8 = device then target.drop 8 else target
        return some ⟨dosName, (← CharArray.sprintf STR_BUFF target).str, index⟩

/-- The entries of the chains; none if one has not ended after so many. What is made of an entry
has no part in the walk. -/
def dirEntries (rounds : Nat) (dir : UInt64) : Option (List UInt64) :=
  ((buckets hdlr guest dir).mapM (follow (nextDirEntry hdlr guest) rounds)).map List.flatten

/-- The first process that has the directory among its handles. -/
def drivesProcess (processes : List Process) : UInt64 :=
  let processName := match hdlr.winver with
    | .windowsVista | .windowsXp => cstr "smss.exe"
    | _ => cstr "System"
  ((processes.find? (·.name = processName)).map (·.addr)).getD 0

/-- The objects in the handle table of that process; none if the loop over the processes has not
ended after so many. -/
def drivesObjects (rounds : Nat) : Except Fault (Option (List UInt64)) :=
  match winCurProcesses hdlr guest rounds with
  | none => return none
  | some processes => do
    let objs ← winTableObjects hdlr guest.system (drivesProcess hdlr processes)
    return some (objs.getD [])

/-- None if a loop has not ended after so many rounds. -/
def winListDrives (rounds : Nat) : Except Fault (Option (List Drive)) := do
  if hdlr.winver = .unknown then return some []
  else match ← drivesObjects hdlr guest rounds with
  | none => return none
  | some objs =>
    let dir := globalDir hdlr guest objs
    if dir = 0 then return some []
    else match dirEntries hdlr guest rounds dir with
    | none => return none
    | some entries => return some ((← entries.mapM (entryDrive hdlr guest)).filterMap id)

end Win

end Hfm

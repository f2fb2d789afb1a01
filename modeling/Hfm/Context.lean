import Hfm.Vmhdlr
import Hfm.Outputs.Format
import Hfm.Support.Text

/-!
# Reading the guest

`src/context.c`: what a callback reads of the guest, through LibVMI. Buffers are on the
stack of the callback, and zeroed where they are declared.
-/

namespace Hfm

open Support

/-! ### Buffers -/

lemma nul_notMem_cString (buff : List UInt8) : 0 ∉ cString buff := by
  intro hmem
  have := List.all_eq_true.mp List.all_takeWhile 0 hmem
  simp at this

/-- A `char [STR_BUFF]`; from the end of `bytes` on it is zero. -/
structure Buffer where
  bytes : List UInt8
  le : bytes.length ≤ STR_BUFF

namespace Buffer

def empty : Buffer := ⟨[], Nat.zero_le _⟩

/-- `strncpy(buffer + off, src, n)`. -/
def strncpy (buffer : Buffer) (off : Nat) (src : List UInt8) (n : Nat) : Except Fault Buffer :=
  let bytes := buffer.bytes.takeD off 0 ++ (cString src).takeD n 0 ++ buffer.bytes.drop (off + n)
  if h : bytes.length ≤ STR_BUFF then .ok ⟨bytes, h⟩ else .error .outOfBounds

/-- The string in the buffer, which has to end in it. -/
def string (buffer : Buffer) : Except Fault (CharArray STR_BUFF) :=
  let str := cString buffer.bytes
  if h : str.length < STR_BUFF then
    .ok ⟨str, h, nul_notMem_cString _⟩
  else .error .outOfBounds

end Buffer

namespace CharArray

/-- `sprintf` of `str`; the array has to hold it. -/
def sprintf (n : Nat) (str : List UInt8) : Except Fault (CharArray n) :=
  if h : (cString str).length < n then
    .ok ⟨cString str, h, nul_notMem_cString str⟩
  else .error .outOfBounds

/-- `snprintf`, which cuts what the array does not hold. -/
def snprintf {n : Nat} (h : 0 < n) (str : List UInt8) : CharArray n where
  str := (cString str).take (n - 1)
  lt := by
    rw [List.length_take]
    omega
  nul := fun hmem => nul_notMem_cString str (List.mem_of_mem_take hmem)

/-- `strncpy` of the first `len` bytes to a zeroed array. -/
def strncpy {n : Nat} (src : CharArray n) (len : Nat) : Except Fault (CharArray n) :=
  if len ≤ n then
    .ok ⟨src.str.take len, Nat.lt_of_le_of_lt (List.length_take_le' _ _) src.lt,
      fun hmem => src.nul (List.mem_of_mem_take hmem)⟩
  else .error .outOfBounds

end CharArray

/-! ### The context of a callback -/

/-- What is answered from outside of the program, by the number of the call: the values that
LibVMI reads, the bytes, the conversion from UTF-16, the time, whether a file can be created,
and what a function leaves that ends without `return`. -/
structure ContextCalls where
  read : Nat → UInt64 → Option UInt64
  readBytes : Nat → UInt64 → Nat → List UInt8
  convertStrEncoding : List UInt8 → Option (List UInt8)
  gettimeofday : Nat → UInt32 × UInt32
  fopen : Nat → Bool
  indeterminate : Nat → UInt64

/-- `context_t`; its `process_base` is in the state. -/
structure Context (κ ε : Type) where
  regs : X86Registers
  trap : Trap κ ε
  hdlr : Vmhdlr κ ε
  calls : ContextCalls

structure ContextState where
  calls : Nat
  processBase : UInt64

abbrev ContextM := StateT ContextState (Except Fault)

variable {κ ε : Type}

/-- The answer to the next call. -/
def ask {α : Type} (answer : Nat → α) : ContextM α :=
  fun s => .ok (answer s.calls, { s with calls := s.calls + 1 })

def hfmReadAddr (ctx : Context κ ε) (addr : UInt64) : ContextM UInt64 := do
  return (← ask (ctx.calls.read · addr)).getD 0

def hfmRead64 (ctx : Context κ ε) (addr : UInt64) : ContextM UInt64 := hfmReadAddr ctx addr

def hfmRead32 (ctx : Context κ ε) (addr : UInt64) : ContextM UInt32 := do
  return (← hfmReadAddr ctx addr).toUInt32

def hfmRead16 (ctx : Context κ ε) (addr : UInt64) : ContextM UInt16 := do
  return (← hfmReadAddr ctx addr).toUInt16

def hfmRead8 (ctx : Context κ ε) (addr : UInt64) : ContextM UInt8 := do
  return (← hfmReadAddr ctx addr).toUInt8

/-- `vmi_read_32_va` in the address space of the kernel, to a variable that was 0. -/
def vmiRead32Va (ctx : Context κ ε) (addr : UInt64) : ContextM UInt32 := hfmRead32 ctx addr

/-- The bytes read, which are fewer than `count` after a failure. -/
def hfmRead (ctx : Context κ ε) (addr : UInt64) (count : Nat) : ContextM (List UInt8) := do
  return (← ask (ctx.calls.readBytes · addr count)).take count

def hfmGetCurrentProcess (ctx : Context κ ε) : ContextM UInt64 := do
  let offsets := ctx.hdlr.offsets
  let (kpcr, prcb) :=
    if ctx.hdlr.pm = .ia32e then (ctx.regs.gsBase, offsets .kpcrPrcb)
    else (ctx.regs.fsBase, offsets .kpcrPrcbData)
  let thread ← hfmReadAddr ctx (kpcr + prcb + offsets .kprcbCurrentThread)
  if thread = 0 then return 0
  else if ctx.hdlr.winver = .windowsXp then
    hfmReadAddr ctx (thread + offsets .kthreadApcState + offsets .kapcStateProcess)
  else hfmReadAddr ctx (thread + offsets .kthreadProcess)

def VMI_PS_4KB : UInt64 := 0x1000

/-- The length of the converted string, which is written to `buffer + off`; 0 if there is none. -/
def hfmReadUnicode (ctx : Context κ ε) (addr : UInt64) (buffer : Buffer) (off : Nat) :
    ContextM (Nat × Buffer) := do
  let length ← hfmRead16 ctx (addr + ctx.hdlr.offsets .unicodeStringLength)
  if length = 0 ∨ VMI_PS_4KB < length.toUInt64 then return (0, buffer)
  else
    let bufferAddr ← hfmReadAddr ctx (addr + ctx.hdlr.offsets .unicodeStringBuffer)
    if bufferAddr = 0 then return (0, buffer)
    else
      let contents ← hfmRead ctx bufferAddr length.toNat
      if contents.length ≠ length.toNat then return (0, buffer)
      else
        match ctx.calls.convertStrEncoding contents with
        | none => return (0, buffer)
        | some str2 => return (str2.length, ← buffer.strncpy off str2 str2.length)

/-! ### Files -/

def EX_FAST_REF_MASK : UInt64 := 7
def HANDLE_MULTIPLIER : UInt64 := 4

/-- `VMI_BIT_MASK(19,63)` and `VMI_BIT_MASK(2,31)`. -/
def VMI_BIT_MASK_19_63 : UInt64 := 0xfffffffffff80000
def VMI_BIT_MASK_2_31 : UInt64 := 0xfffffffc

def divide (a b : UInt64) : ContextM (UInt64 × UInt64) :=
  if b = 0 then throw .divisionByZero else return (a / b, a % b)

/-- The `switch` over the levels of the handle table. -/
def handleTableEntry (ctx : Context κ ε) (tablecode handleIdx : UInt64) : ContextM UInt64 := do
  let tableBase := tablecode &&& ~~~EX_FAST_REF_MASK
  let entry := ctx.hdlr.sizes .handleTableEntry
  -- each assignment to it declares a variable of that name in a block of its own
  let objectOffset := 0
  let psize : UInt64 := if ctx.hdlr.pm = .ia32e then 8 else 4
  match (tablecode &&& EX_FAST_REF_MASK).toNat with
  | 0 => hfmReadAddr ctx (tableBase + handleIdx * entry + objectOffset)
  | 1 =>
    let lowestCount := (← divide VMI_PS_4KB entry).1.toUInt32.toUInt64
    let (j, i) ← divide handleIdx lowestCount
    let table ← hfmReadAddr ctx (tableBase + j.toUInt32.toUInt64 * psize)
    if table = 0 then return 0 else hfmReadAddr ctx (table + i * entry + objectOffset)
  | 2 =>
    let lowestCount := (← divide VMI_PS_4KB entry).1.toUInt32.toUInt64
    let midCount := VMI_PS_4KB / psize
    let (j, i) ← divide handleIdx lowestCount
    let (j, k) ← divide j.toUInt32.toUInt64 midCount
    let table ← hfmReadAddr ctx (tableBase + j * psize)
    let table2 ← if table = 0 then pure 0 else hfmReadAddr ctx (table + k * psize)
    if table2 = 0 then return 0 else hfmReadAddr ctx (table2 + i * entry + objectOffset)
  | _ => return 0

/-- The object that the bits of a table entry point to. -/
def objectPointer (pm : PageMode) (handleObj : UInt64) : WinVer → UInt64
  | .windows7 | .windowsVista => handleObj &&& ~~~EX_FAST_REF_MASK
  | .windows8 =>
    if pm = .ia32e then (handleObj &&& VMI_BIT_MASK_19_63) >>> 20 <<< 4 ||| 0xffff000000000000
    else handleObj &&& VMI_BIT_MASK_2_31
  | _ =>
    if pm = .ia32e then (handleObj &&& VMI_BIT_MASK_19_63) >>> 16 ||| 0xffff000000000000
    else handleObj &&& VMI_BIT_MASK_2_31

def hfmFileobjFromHandle (ctx : Context κ ε) (handle : UInt64) : ContextM UInt64 := do
  let offsets := ctx.hdlr.offsets
  let process ← hfmGetCurrentProcess ctx
  if process = 0 then return 0
  else
    let handletable ← hfmReadAddr ctx (process + offsets .eprocessObjectTable)
    if handletable = 0 then return 0
    else
      let tablecode ← hfmReadAddr ctx (handletable + offsets .handleTableTableCode)
      if tablecode = 0 then return 0
      else
        let handlecount ← hfmRead32 ctx (handletable + offsets .handleTableHandleCount)
        if handlecount = 0 then return 0
        else
          let handleObj ← handleTableEntry ctx tablecode (handle / HANDLE_MULTIPLIER)
          return objectPointer ctx.hdlr.pm handleObj ctx.hdlr.winver + offsets .objectHeaderBody

/-- The label of the drive if the device is one, else the name of the device. -/
def driveLabel (ctx : Context κ ε) (drivename : CharArray STR_BUFF) :
    Except Fault (CharArray STR_BUFF) :=
  match ctx.hdlr.drives.find? fun drive => drivename.str = drive.winName with
  | some drive => CharArray.sprintf STR_BUFF drive.dosName
  | none => .ok drivename

/-- The sum of the lengths of its two parts, and the name of the file. -/
def hfmReadFilenameFromObject (ctx : Context κ ε) (fileObject : UInt64) :
    ContextM (Nat × CharArray STR_BUFF) := do
  let offsets := ctx.hdlr.offsets
  let deviceObject ← hfmReadAddr ctx (fileObject + offsets .fileObjectDeviceObject)
  let deviceHeader := deviceObject - offsets .objectHeaderBody
  let nameInfoAddr := deviceHeader - ctx.hdlr.sizes .objectHeaderNameInfo
  let (_, buffer) ← hfmReadUnicode ctx (nameInfoAddr + offsets .objectHeaderNameInfoName) .empty 0
  let drivename ← driveLabel ctx (← buffer.string)
  let (filepathLen, buffer) ← hfmReadUnicode ctx (fileObject + offsets .fileObjectFileName) .empty 0
  let filepath ← buffer.string
  return (drivename.str.length + filepathLen,
    .snprintf STR_BUFF_pos (drivename.str ++ filepath.str))

/-- -1 where the control area is not taken for one or the file cannot be created. Otherwise
the function ends without `return`; the pages it writes are left out. -/
def extractCaFile (ctx : Context κ ε) (controlArea : UInt64) : ContextM UInt32 := do
  let offsets := ctx.hdlr.offsets
  let segment ← hfmReadAddr ctx (controlArea + offsets .controlAreaSegment)
  let test ← hfmReadAddr ctx (segment + offsets .segmentControlArea)
  if test ≠ controlArea then return -1
  else
    let test ← hfmRead64 ctx (segment + offsets .segmentSizeOfSegment)
    let test2 ← hfmRead32 ctx (segment + offsets .segmentTotalNumberOfPtes)
    if test ≠ test2.toUInt64 * 4096 then return -1
    else if ← ask ctx.calls.fopen then return (← ask ctx.calls.indeterminate).toUInt32
    else return -1

/-- How many of the two sections of the file were extracted. -/
def hfmExtractFile (ctx : Context κ ε) (object : UInt64) : ContextM Nat := do
  let offsets := ctx.hdlr.offsets
  let extracted (sectionObject : UInt64) (skip : Bool) : ContextM Nat :=
    if skip then return 0
    else return if (← extractCaFile ctx sectionObject) = 0 then 1 else 0
  let sop ← hfmReadAddr ctx (object + offsets .fileObjectSectionObjectPointer)
  let datasection ← hfmReadAddr ctx (sop + offsets .sectionObjectPointersDataSectionObject)
  let data ← extracted datasection (datasection = 0)
  let _sharedcachemap ← hfmReadAddr ctx (sop + offsets .sectionObjectPointersSharedCacheMap)
  let imagesection ← hfmReadAddr ctx (sop + offsets .sectionObjectPointersImageSectionObject)
  let image ← extracted imagesection (imagesection = 0 || imagesection = datasection)
  return data + image

/-! ### Processes -/

/-- The process of the first call for this context counts for all of them. -/
def hfmGetProcessPid (ctx : Context κ ε) (processAddr : UInt64) : ContextM Int32 := do
  modify fun s => if s.processBase = 0 then { s with processBase := processAddr } else s
  let base := (← get).processBase
  match ← ask (ctx.calls.read · (base + ctx.hdlr.offsets .eprocessUniqueProcessId)) with
  | some pid => return pid.toUInt32.toInt32
  | none => return -1

/-- The text of an identifier whose first byte is a digit; another leaves `sid` as it is. -/
def hfmExtractSid {n : Nat} (ctx : Context κ ε) (sidAddr : UInt64) (sid : CharArray n) :
    ContextM (CharArray n) := do
  let firstByte ← hfmRead8 ctx sidAddr
  if 9 < firstByte then return sid
  else
    let bytes ← (List.range 6).mapM fun i => hfmRead8 ctx (sidAddr + 2 + i.toUInt64)
    let authority := bytes.foldl (fun n b => 256 * n + b.toNat) 0
    let subAuthNo ← hfmRead8 ctx (sidAddr + 1)
    let subAuths ← (List.range subAuthNo.toNat).mapM fun i =>
      hfmRead32 ctx (sidAddr + 8 + 4 * i.toUInt64)
    let numbers := authority :: subAuths.map UInt32.toNat
    let written ← CharArray.sprintf n
      (cstr "S-" ++ [0x30 + firstByte] ++ cstr "-" ++ numbers.flatMap (decimal · ++ cstr "-"))
    CharArray.sprintf n written.str.dropLast

def hfmGetProcessSid (ctx : Context κ ε) (processAddr : UInt64) : ContextM (CharArray SID_LEN) := do
  let offsets := ctx.hdlr.offsets
  let fastRef ← hfmReadAddr ctx (processAddr + offsets .eprocessToken)
  let tokenAddr := fastRef &&& ~~~7
  let usrGroupAddr ← hfmReadAddr ctx (tokenAddr + offsets .tokenUserAndGroups)
  let sidAddr ← hfmReadAddr ctx (usrGroupAddr + offsets .sidAndAttributesSid)
  hfmExtractSid ctx sidAddr (.empty SID_LEN_pos)

/-! ### Memory that does not change -/

/-- What is read at an address; none if it cannot be read. -/
abbrev Memory := UInt64 → Option UInt64

/-- What is read to a variable that was 0. -/
def Memory.value (mem : Memory) (addr : UInt64) : UInt64 := (mem addr).getD 0

/-- The callback on a guest that has `mem` all along. -/
def Context.withMem (ctx : Context κ ε) (mem : Memory) : Context κ ε :=
  { ctx with calls := { ctx.calls with read := fun _ addr => mem addr } }

section WithMem

variable (ctx : Context κ ε) (mem : Memory) (addr : UInt64) (s : ContextState)

lemma hfmReadAddr_withMem : hfmReadAddr (ctx.withMem mem) addr s =
    .ok (mem.value addr, { s with calls := s.calls + 1 }) := rfl

lemma hfmRead32_withMem : hfmRead32 (ctx.withMem mem) addr s =
    .ok ((mem.value addr).toUInt32, { s with calls := s.calls + 1 }) := rfl

lemma hfmRead16_withMem : hfmRead16 (ctx.withMem mem) addr s =
    .ok ((mem.value addr).toUInt16, { s with calls := s.calls + 1 }) := rfl

lemma hfmRead8_withMem : hfmRead8 (ctx.withMem mem) addr s =
    .ok ((mem.value addr).toUInt8, { s with calls := s.calls + 1 }) := rfl

end WithMem

end Hfm

import Hfm.Policy
import Hfm.Trapmngr

/-!
# The handler of a virtual machine

`src/include/private.h`: the record the program keeps for each VM. Next to it stands what
LibVMI and Xen keep for it: the memory, the altp2m view, and the state of the vCPUs.
-/

namespace Hfm

/-- `enum win_offsets`. -/
inductive WinOffset where
  | objectAttributesObjectName
  | objectAttributesRootDirectory
  | unicodeStringLength
  | unicodeStringBuffer
  | ioStatusBlockInformation
  | ioStatusBlockStatus
  | kpcrPrcb
  | kpcrPrcbData
  | kprcbCurrentThread
  | kthreadProcess
  | kthreadApcState
  | kapcStateProcess
  | handleTableHandleCount
  | handleTableTableCode
  | handleTableEntryObject
  | handleTableEntryObjectPointerBits
  | objectHeaderBody
  | objectHeaderTypeIndex
  | objectHeaderType
  | objectHeaderNameInfoName
  | fileObjectFileName
  | fileObjectDeviceObject
  | fileObjectSectionObjectPointer
  | fileBasicInformationFileAttributes
  | objectTypeIndex
  | eprocessPeb
  | eprocessUniqueProcessId
  | eprocessActiveProcessLinks
  | eprocessObjectTable
  | eprocessImageFileName
  | eprocessToken
  | tokenUserAndGroups
  | sidAndAttributesSid
  | driverObjectDriverName
  | pebProcessParameters
  | rtlUserProcessParametersImagePathName
  | sectionObjectPointersDataSectionObject
  | sectionObjectPointersImageSectionObject
  | sectionObjectPointersSharedCacheMap
  | objectDirectoryHashBuckets
  | objectDirectoryLock
  | objectDirectoryEntryObject
  | objectDirectoryEntryChainLink
  | objectSymbolicLinkDosDeviceDriveIndex
  | objectSymbolicLinkLinkTarget
  | controlAreaSegment
  | segmentControlArea
  | segmentSizeOfSegment
  | segmentTotalNumberOfPtes
  | subsectionControlArea
  | subsectionPtesInSubsection
  | subsectionStartingSector
  | subsectionSubsectionBase
  | subsectionNextSubsection
  | securityDescriptorControl
  | securityDescriptorOwner
  | securityDescriptorGroup
  | securityDescriptorRelativeOwner
  | securityDescriptorRelativeGroup
  | fileRenameInformationFileNameLength
  | fileRenameInformationFileName
  | fileDispositionInformationDeleteFile
  deriving DecidableEq

/-- `enum win_sizes`. -/
inductive WinSize where
  | handleTableEntry
  | controlArea
  | fileObject
  | objectHeaderNameInfo
  | objectHeaderCreatorInfo
  deriving DecidableEq

/-- `page_mode_t` of LibVMI. -/
inductive PageMode where
  | unknown
  | legacy
  | pae
  | ia32e
  deriving DecidableEq

/-- `win_ver_t` of LibVMI. -/
inductive WinVer where
  | none
  | unknown
  | windows2000
  | windowsXp
  | windows2003
  | windowsVista
  | windows2008
  | windows7
  | windows8
  | windows10
  deriving DecidableEq

/-- `drive_t`. -/
structure Drive where
  dosName : CStr
  winName : CStr
  index : UInt32

/-- The five monitors, each a source file with a filter and an `*_init` flag of its own. -/
inductive Plugin where
  | fileCreated
  | fileDeleted
  | fileModified
  | attrChanged
  | accessChanged
  deriving DecidableEq

inductive StepCallback where
  | singlestepCb
  | postMemCb
  deriving DecidableEq

/-- What the untyped `data` pointer of a step event leads to. -/
inductive StepData where
  | handler
  | pass (addr : Nat)
  deriving DecidableEq

/-- The members of a single-step `vmi_event_t` that the handlers swap. -/
structure StepEvent where
  callback : StepCallback
  data : StepData
  deriving DecidableEq

/-- `vmhdlr_t`; `init` holds the five `*_init` flags. -/
structure Vmhdlr (κ ε : Type) where
  name : CStr
  domid : Int
  pm : PageMode
  winver : WinVer
  memsize : UInt32
  altp2mIdx : UInt16
  trapManager : Trapmngr κ ε
  interrupted : Int
  stepEvent : Fin 16 → StepEvent
  drives : List Drive
  offsets : WinOffset → UInt64
  sizes : WinSize → UInt64
  policies : Option (GHashTable Int Policy)
  init : Plugin → UInt8

/-- `memcb_pass_t`, whose handler is the one handler there is. -/
structure MemcbPass where
  remapped : Option Remapped
  access : UInt8
  traps : Option Nat

structure Vcpu where
  slatId : UInt16
  singlestep : Bool
  deriving DecidableEq

/-- The VM as LibVMI and Xen show it: bytes by physical address, the frame that the altp2m
view has for a frame, the frames added to the VM, the maximum of its memory, the frames
whose reads and writes raise an event in the altp2m view, and its vCPUs. -/
structure Machine where
  mem : Nat → UInt8
  slat : Nat → Nat
  reserved : List Nat
  maxmem : UInt64
  memEvent : Nat → Bool
  vcpu : Fin 16 → Vcpu

/-- The registers of `x86_registers_t` that the program reads. -/
structure X86Registers where
  rax : UInt64
  rcx : UInt64
  rdx : UInt64
  r8 : UInt64
  r9 : UInt64
  rsp : UInt64
  cr3 : UInt64
  fsBase : UInt64
  gsBase : UInt64

/-- A handler with its VM, the pass records in use and those freed so far. Addresses of
heap objects from `brk` on have not been given out. -/
structure Vm (κ ε : Type) where
  hdlr : Vmhdlr κ ε
  machine : Machine
  passes : Nat → Option MemcbPass
  freed : List Nat
  brk : Nat

def ORIGIN_IDX : UInt16 := 0
def INT3_CHAR : UInt8 := 0xCC
def VMI_MEMACCESS_W : UInt8 := 0x04

namespace Machine

def write8 (m : Machine) (pa : Nat) (b : UInt8) : Machine :=
  { m with mem := Function.update m.mem pa b }

/-- Writes the first `count` bytes of `buff` from `pa` on. -/
def write (m : Machine) (pa : Nat) (buff : Nat → UInt8) (count : Nat) : Machine :=
  { m with mem := fun a => if pa ≤ a ∧ a < pa + count then buff (a - pa) else m.mem a }

/-- The byte the altp2m view shows at an address. -/
def view (m : Machine) (pa : Nat) : UInt8 :=
  m.mem (m.slat (pa >>> PAGE_OFFSET_BITS) <<< PAGE_OFFSET_BITS + pa % PAGESIZE)

@[simp] lemma write_memEvent (m : Machine) (pa : Nat) (buff : Nat → UInt8) (count : Nat) :
    (m.write pa buff count).memEvent = m.memEvent := rfl

@[simp] lemma write_vcpu (m : Machine) (pa : Nat) (buff : Nat → UInt8) (count : Nat) :
    (m.write pa buff count).vcpu = m.vcpu := rfl

end Machine

namespace Vm

variable {κ ε : Type}

/-- The trap manager of the handler. -/
def tm (vm : Vm κ ε) : Trapmngr κ ε := vm.hdlr.trapManager

def setTm (vm : Vm κ ε) (tm : Trapmngr κ ε) : Vm κ ε :=
  { vm with hdlr := { vm.hdlr with trapManager := tm } }

def setMachine (vm : Vm κ ε) (machine : Machine) : Vm κ ε := { vm with machine }

/-- `handler->interrupted = -1`, after a critical error. -/
def interrupt (vm : Vm κ ε) : Vm κ ε := { vm with hdlr := { vm.hdlr with interrupted := -1 } }

/-- A handler as `hfm_init` leaves it, over a memory. All vCPUs are in the altp2m view. -/
def start (mem : Nat → UInt8) : Vm κ ε where
  hdlr :=
    { name := cstr "win7", domid := 1, pm := .ia32e, winver := .windows7, memsize := 0x40000000
      altp2mIdx := 1, trapManager := tmInit, interrupted := 0
      stepEvent := fun _ => ⟨.singlestepCb, .handler⟩, drives := [], offsets := fun _ => 0
      sizes := fun _ => 0, policies := none, init := fun _ => 0 }
  machine :=
    { mem, slat := id, reserved := [], maxmem := 0x40000000, memEvent := fun _ => false
      vcpu := fun _ => ⟨1, false⟩ }
  passes := fun _ => none
  freed := []
  brk := 0

@[simp] lemma setTm_tm (vm : Vm κ ε) (tm : Trapmngr κ ε) : (vm.setTm tm).tm = tm := rfl

@[simp] lemma setTm_machine (vm : Vm κ ε) (tm : Trapmngr κ ε) :
    (vm.setTm tm).machine = vm.machine := rfl

@[simp] lemma setMachine_tm (vm : Vm κ ε) (m : Machine) : (vm.setMachine m).tm = vm.tm := rfl

@[simp] lemma setMachine_machine (vm : Vm κ ε) (m : Machine) :
    (vm.setMachine m).machine = m := rfl

end Vm

end Hfm

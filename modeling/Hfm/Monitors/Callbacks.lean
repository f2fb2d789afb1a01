import Hfm.Context
import Hfm.Monitors.AddPolicy
import Hfm.Support.Triple

/-!
# The callbacks of the monitors

The callbacks of the five files of `src/monitors`, and `send_output` of `monitor_util.c`. An
entry callback asks the filter of its file about the path of the call. It reports a match by
itself, or hands over its parameters to the return callback.
-/

namespace Hfm

open Support

/-! ### Parameters -/

/-- `params_t` of `file_created.c`, with the path that was matched. -/
structure FileCreated.Params where
  filename : CharArray STR_BUFF
  ioStatusAddr : UInt64
  createMode : UInt32
  policyId : Int
  matched : CStr
  deriving DecidableEq

/-- `params_t` of `file_modified.c`, with the path that was matched. -/
structure FileModified.Params where
  filename : CharArray STR_BUFF
  fileObject : UInt64
  ioStatusAddr : UInt64
  policyId : Int
  matched : CStr
  deriving DecidableEq

/-- `params_t` of `access_changed.c`, with the path that was matched. The identifier is
positive, so that its `uint32_t` holds the same number. -/
structure AccessChanged.Params where
  filename : CharArray STR_BUFF
  policyId : Int
  detail : CharArray STR_BUFF
  matched : CStr
  deriving DecidableEq

/-- What the untyped `extra` of a trap points to. -/
inductive Extra where
  | create (params : FileCreated.Params)
  | modify (params : FileModified.Params)
  | access (params : AccessChanged.Params)
  | indeterminate
  deriving DecidableEq

/-! ### Reports -/

/-- A call of `send_output`, with the monitor it is from and the path that was matched. -/
structure SendCall where
  plugin : Plugin
  matched : CStr
  action : Monitor
  policyId : Int
  filename : CharArray STR_BUFF
  data : CharArray STR_BUFF
  fileObject : UInt64
  deriving DecidableEq

/-- A record passed to `out_write`, with the number of its VM and the call that made it. -/
structure MonReport where
  vm : Nat
  call : SendCall
  info : OutputInfo

structure MonState where
  context : ContextState
  filters : Filters
  reports : List MonReport

abbrev MonM := StateT MonState (Except Fault)

/-- The entries of the configuration that the monitors look up. -/
structure Config where
  fileExtract : Int
  hfmBase : Option CStr

/-- The VM that an event is from, and what is answered while it is handled. -/
structure MonEnv where
  vm : Nat
  config : Config
  calls : ContextCalls

/-- The context of a callback of a monitor. -/
abbrev MonContext := Context MonCb Extra

def guest {α : Type} (x : ContextM α) : MonM α :=
  zoom MonState.context (fun context s => { s with context }) x

/-- `filter_match` on the static filter of a file. -/
def filterMatchOf (plugin : Plugin) (path : CStr) : MonM Int := fun s =>
  match s.filters plugin with
  | none => .error .nullPointer
  | some filter => do
    let (id, filter) ← filterMatch filter path
    return (id, { s with filters := Function.update s.filters plugin (some filter) })

def outWrite (report : MonReport) : MonM Unit :=
  fun s => .ok ((), { s with reports := s.reports ++ [report] })

/-- The value of an enumerator of `monitor_t`. -/
def Monitor.code : Monitor → Int32
  | .invalid => 0
  | .create => 1
  | .delete => 2
  | .modifyContent => 3
  | .modifyLogfile => 4
  | .changeAttr => 5
  | .changeAccess => 6
  | .changeAttrReadonly => 7
  | .changeAttrPermission => 8
  | .changeAttrOwnership => 9
  | .changeAttrHidden => 10

/-- `output.extpath`, where the file of the event is extracted to. -/
def extractPath (env : MonEnv) (ctx : MonContext) (call : SendCall) (timeSec timeUsec : UInt32) :
    ContextM (CharArray PATH_MAX_LEN) :=
  if (call.action = .modifyContent ∨ call.action = .delete) ∧ env.config.fileExtract ≠ 0 ∧
      call.fileObject ≠ 0 then
    match ctx.hdlr.policies.bind fun policies => policies.lookup call.policyId with
    | none => throw .nullPointer
    | some policy =>
      if policy.options &&& POLICY_OPTIONS_EXTRACT = 0 then return .empty PATH_MAX_LEN_pos
      else do
        let extpath ← CharArray.sprintf PATH_MAX_LEN
          (env.config.hfmBase.getD [] ++ cstr "/extract/" ++ ctx.hdlr.name ++ cstr "/" ++
            decimal timeSec.toNat ++ cstr "_" ++ decimal timeUsec.toNat ++ cstr ".file")
        let extracted ← hfmExtractFile ctx call.fileObject
        return if extracted = 0 then .empty PATH_MAX_LEN_pos else extpath
  else return .empty PATH_MAX_LEN_pos

/-- The action of the record is `MON_CREATE`, whatever the argument `action` is. -/
def sendOutput (env : MonEnv) (ctx : MonContext) (call : SendCall) : MonM Unit := do
  let curProcess ← guest (hfmGetCurrentProcess ctx)
  let pid ← guest (hfmGetProcessPid ctx curProcess)
  let sid ← guest (hfmGetProcessSid ctx curProcess)
  let (timeSec, timeUsec) ← guest (ask ctx.calls.gettimeofday)
  let extpath ← guest (extractPath env ctx call timeSec timeUsec)
  outWrite ⟨env.vm, call,
    { timeSec, timeUsec, pid, vmid := Int32.ofInt ctx.hdlr.domid
      policyId := Int32.ofInt call.policyId, action := Monitor.create.code, sid
      data := call.data, filepath := call.filename, extpath }⟩

/-! ### Arguments of the system calls -/

def FILE_CREATED : UInt64 := 0
def FILE_SUPERSEDED : UInt64 := 3
def FILE_BASIC_INFORMATION : UInt32 := 4
def FILE_RENAME_INFORMATION : UInt32 := 10
def FILE_DISPOSITION_INFORMATION : UInt32 := 13

def ntSuccess (status : Int) : Bool := 0 ≤ status && status ≤ 0x7fffffff

/-- `int` from a register. -/
def regInt (reg : UInt64) : Int := reg.toUInt32.toInt32.toInt

/-- The argument numbered `n` on the stack, read with 32 bits. -/
def stackArg (ctx : MonContext) (n size : UInt64) : ContextM UInt32 :=
  hfmRead32 ctx (ctx.regs.rsp + n * size)

/-- `objattr_addr`, `io_status_addr` and `create`. -/
def createfileArgs (ctx : MonContext) : ContextM (UInt64 × UInt64 × UInt32) :=
  if ctx.hdlr.pm = .ia32e then do
    let create ← vmiRead32Va ctx (ctx.regs.rsp + 4 * 4)
    return (ctx.regs.r8, ctx.regs.r9, create)
  else do
    let objattrAddr ← vmiRead32Va ctx (ctx.regs.rsp + 4 * 3)
    let ioStatusAddr ← vmiRead32Va ctx (ctx.regs.rsp + 4 * 4)
    let create ← vmiRead32Va ctx (ctx.regs.rsp + 4 * 8)
    return (objattrAddr.toUInt64, ioStatusAddr.toUInt64, create)

/-- `handle`, `fileinfo_addr` and `fileinfo_class`. -/
def setinformationArgs (ctx : MonContext) : ContextM (UInt64 × UInt64 × UInt32) :=
  if ctx.hdlr.pm = .ia32e then do
    return (ctx.regs.rcx, ctx.regs.r8, ← stackArg ctx 5 8)
  else do
    let handle ← stackArg ctx 1 4
    let fileinfoAddr ← stackArg ctx 3 4
    return (handle.toUInt64, fileinfoAddr.toUInt64, ← stackArg ctx 5 4)

/-- The position of the last `c`. -/
def strrchr (s : CStr) (c : UInt8) : Option Nat := (s.reverse.idxOf? c).map (s.length - 1 - ·)

/-- `_read_process_path` on a zeroed buffer. The path is cut behind its last backslash; its
other bytes stay in the buffer. -/
def readProcessPath (ctx : MonContext) : ContextM (Nat × Buffer) := do
  let offsets := ctx.hdlr.offsets
  let process ← hfmGetCurrentProcess ctx
  if process = 0 then return (0, .empty)
  else
    let peb ← hfmReadAddr ctx (process + offsets .eprocessPeb)
    if peb = 0 then return (0, .empty)
    else
      let processParameters ← hfmReadAddr ctx (peb + offsets .pebProcessParameters)
      if processParameters = 0 then return (0, .empty)
      else
        let imagepath := processParameters + offsets .rtlUserProcessParametersImagePathName
        let (len, path) ← hfmReadUnicode ctx imagepath .empty 0
        match strrchr (← path.string).str 0x5c with
        | some (pos + 1) => return (pos + 2, ← path.strncpy (pos + 2) [] 1)
        | _ => return (1 + len, path)

/-- `start_filepath`: four bytes are left out if the path has `\??\` anywhere. -/
def startFilepath (filepath : CharArray STR_BUFF) : CharArray STR_BUFF :=
  if cstr "\\??\\" <:+: filepath.str then
    ⟨filepath.str.drop 4, Nat.lt_of_le_of_lt (by simp) filepath.lt,
      fun hmem => filepath.nul (List.mem_of_mem_drop hmem)⟩
  else filepath

/-- The path that object attributes name, and `pathlen + namelen`. -/
def readObjectPath (ctx : MonContext) (objattrAddr : UInt64) :
    ContextM (CharArray STR_BUFF × Nat) := do
  let offsets := ctx.hdlr.offsets
  let rootdirAddr ← hfmRead64 ctx (objattrAddr + offsets .objectAttributesRootDirectory)
  let objectnameAddr ← hfmReadAddr ctx (objattrAddr + offsets .objectAttributesObjectName)
  let (pathlen, filepath) ← if rootdirAddr = 0 then pure (0, Buffer.empty) else readProcessPath ctx
  let (namelen, filepath) ← hfmReadUnicode ctx objectnameAddr filepath pathlen
  return (startFilepath (← filepath.string), pathlen + namelen)

/-- The file object of a handle, the length of its name and the name. -/
def readFilename (ctx : MonContext) (handle : UInt64) :
    ContextM (UInt64 × Nat × CharArray STR_BUFF) := do
  let fileObject ← hfmFileobjFromHandle ctx handle
  return (fileObject, ← hfmReadFilenameFromObject ctx fileObject)

def noData : CharArray STR_BUFF := .empty STR_BUFF_pos

/-! ### `file_created.c` -/

namespace FileCreated

def createfileCb (ctx : MonContext) : MonM (Option Extra) := do
  let (objattrAddr, ioStatusAddr, createMode) ← guest (createfileArgs ctx)
  let (start, len) ← guest (readObjectPath ctx objattrAddr)
  let policyId ← filterMatchOf .fileCreated start.str
  if 0 ≤ policyId then
    let filename ← start.strncpy (len + 1)
    return some (.create { filename, ioStatusAddr, createMode, policyId, matched := start.str })
  else return none

def createfileRetCb (env : MonEnv) (ctx : MonContext) : MonM (Option Extra) :=
  match ctx.trap.extra with
  | some (.create params) => do
    let offsets := ctx.hdlr.offsets
    let information ← guest (hfmRead64 ctx (params.ioStatusAddr + offsets .ioStatusBlockInformation))
    let _status ← guest (hfmRead32 ctx (params.ioStatusAddr + offsets .ioStatusBlockStatus))
    if information = FILE_CREATED ∨
        information = FILE_SUPERSEDED ∧ ntSuccess ctx.regs.rax.toNat = true then
      sendOutput env ctx ⟨.fileCreated, params.matched, .create, params.policyId, params.filename,
        noData, 0⟩
      return none
    else return none
  | some _ => throw .badCast
  | none => throw .nullPointer

/-- What is read of a new name is only printed. -/
def readRename (ctx : MonContext) : ContextM Unit := do
  let fileinfo ←
    if ctx.hdlr.pm = .ia32e then do pure (ctx.regs.r8, ← stackArg ctx 5 8)
    else do
      let _iostatusAddr ← stackArg ctx 2 4
      let fileinfoAddr ← stackArg ctx 3 4
      pure (fileinfoAddr.toUInt64, ← stackArg ctx 5 4)
  if fileinfo.2 = FILE_RENAME_INFORMATION then
    let offsets := ctx.hdlr.offsets
    let length ← hfmRead32 ctx (fileinfo.1 + offsets .fileRenameInformationFileNameLength)
    if 0 < length then
      let _contents ← hfmRead ctx (fileinfo.1 + offsets .fileRenameInformationFileName) length.toNat
      return ()
    else return ()
  else return ()

/-- The function ends without `return`. -/
def setinformationCb (ctx : MonContext) : MonM (Option Extra) := do
  guest (readRename ctx)
  let value ← guest (ask ctx.calls.indeterminate)
  return if value = 0 then none else some .indeterminate

end FileCreated

/-! ### `file_deleted.c` -/

namespace FileDeleted

def DESIRED_ACCESS_DELETE : UInt32 := 0x00010000
def FILE_DELETE_ON_CLOSE : UInt32 := 0x00004000

def setinformationCb (env : MonEnv) (ctx : MonContext) : MonM (Option Extra) := do
  let (handle, fileinfoAddr, fileinfoClass) ← guest (setinformationArgs ctx)
  if fileinfoClass = FILE_DISPOSITION_INFORMATION then
    let (fileObject, _, filename) ← guest (readFilename ctx handle)
    let policyId ← filterMatchOf .fileDeleted filename.str
    if 0 ≤ policyId then
      let delete ← guest
        (hfmRead8 ctx (fileinfoAddr + ctx.hdlr.offsets .fileDispositionInformationDeleteFile))
      if delete ≠ 0 then
        sendOutput env ctx ⟨.fileDeleted, filename.str, .delete, policyId, filename, noData,
          fileObject⟩
        return none
      else return none
    else return none
  else return none

/-- `desired_access` and `create_options`. -/
def accessArgs (ctx : MonContext) : ContextM (UInt32 × UInt32) :=
  if ctx.hdlr.pm = .ia32e then do
    return (ctx.regs.rdx.toUInt32, ← stackArg ctx 9 8)
  else do
    let desiredAccess ← stackArg ctx 2 4
    return (desiredAccess, ← stackArg ctx 9 4)

def createfileCb (env : MonEnv) (ctx : MonContext) : MonM (Option Extra) := do
  let (objattrAddr, _, _) ← guest (createfileArgs ctx)
  let (desiredAccess, createOptions) ← guest (accessArgs ctx)
  if desiredAccess &&& DESIRED_ACCESS_DELETE ≠ 0 ∧ createOptions &&& FILE_DELETE_ON_CLOSE ≠ 0 then
    let (start, _) ← guest (readObjectPath ctx objattrAddr)
    let policyId ← filterMatchOf .fileDeleted start.str
    if 0 ≤ policyId then
      sendOutput env ctx ⟨.fileDeleted, start.str, .delete, policyId, start, noData, 0⟩
      return none
    else return none
  else return none

end FileDeleted

/-! ### `file_modified.c` -/

namespace FileModified

def writefileArgs (ctx : MonContext) : ContextM (UInt64 × UInt64) :=
  if ctx.hdlr.pm = .ia32e then do
    let ioStatusAddr ← hfmReadAddr ctx (ctx.regs.rsp + 5 * 8)
    let _bufferLength ← stackArg ctx 7 8
    return (ctx.regs.rcx, ioStatusAddr)
  else do
    let handle ← stackArg ctx 1 4
    let ioStatusAddr ← stackArg ctx 5 4
    let _bufferLength ← stackArg ctx 7 4
    return (handle.toUInt64, ioStatusAddr.toUInt64)

def writefileCb (ctx : MonContext) : MonM (Option Extra) := do
  let (handle, ioStatusAddr) ← guest (writefileArgs ctx)
  let (fileObject, len, filename) ← guest (readFilename ctx handle)
  if filename.str = [] then return none
  else
    let policyId ← filterMatchOf .fileModified filename.str
    if 0 ≤ policyId then
      let copied ← filename.strncpy len
      return some (.modify
        { filename := copied, fileObject, ioStatusAddr, policyId, matched := filename.str })
    else return none

def writefileRetCb (env : MonEnv) (ctx : MonContext) : MonM (Option Extra) :=
  match ctx.trap.extra with
  | some (.modify params) => do
    let _information ← guest
      (hfmRead64 ctx (params.ioStatusAddr + ctx.hdlr.offsets .ioStatusBlockInformation))
    if ntSuccess (regInt ctx.regs.rax) = true then
      sendOutput env ctx ⟨.fileModified, params.matched, .modifyContent, params.policyId,
        params.filename, noData, params.fileObject⟩
      return none
    else return none
  | some _ => throw .badCast
  | none => throw .nullPointer

end FileModified

/-! ### `attr_changed.c` -/

namespace AttrChanged

/-- The name of the file is read and matched twice; only the second match counts. -/
def setinformationCb (env : MonEnv) (ctx : MonContext) : MonM (Option Extra) := do
  let (handle, fileinfoAddr, fileinfoClass) ← guest (setinformationArgs ctx)
  if fileinfoClass = FILE_BASIC_INFORMATION then
    let fileAttributes ← guest
      (hfmRead32 ctx (fileinfoAddr + ctx.hdlr.offsets .fileBasicInformationFileAttributes))
    let (_, _, filename) ← guest (readFilename ctx handle)
    let _policyId ← filterMatchOf .attrChanged filename.str
    if fileAttributes ≠ 0 then
      let (_, _, filename) ← guest (readFilename ctx handle)
      let policyId ← filterMatchOf .attrChanged filename.str
      if 0 ≤ policyId then
        sendOutput env ctx ⟨.attrChanged, filename.str, .changeAttr, policyId, filename, noData, 0⟩
        return none
      else return none
    else return none
  else return none

end AttrChanged

/-! ### `access_changed.c` -/

namespace AccessChanged

def SE_SELF_RELATIVE : UInt16 := 0x8000

/-- The text of the owner or the group of a security descriptor. -/
def sidText (ctx : MonContext) (sdAddr : UInt64) (relative absolute : WinOffset)
    (detail : CharArray STR_BUFF) : ContextM (CharArray STR_BUFF) := do
  let offsets := ctx.hdlr.offsets
  let control ← hfmRead16 ctx (sdAddr + offsets .securityDescriptorControl)
  if control &&& SE_SELF_RELATIVE ≠ 0 then
    let offset ← hfmRead32 ctx (sdAddr + offsets relative)
    hfmExtractSid ctx (sdAddr + offset.toUInt64) detail
  else
    let addr ← hfmReadAddr ctx (sdAddr + offsets absolute)
    hfmExtractSid ctx addr detail

/-- An identifier that cannot be read leaves the text of the one before it. -/
def setSecurityInfoText (ctx : MonContext) (info : UInt32) (sdAddr : UInt64) :
    ContextM (CharArray STR_BUFF) := do
  let has (bit : UInt32) : Bool := info &&& bit ≠ 0
  let owner ←
    if has 0x01 then
      sidText ctx sdAddr .securityDescriptorRelativeOwner .securityDescriptorOwner noData
    else pure noData
  let group ←
    if has 0x02 then
      sidText ctx sdAddr .securityDescriptorRelativeGroup .securityDescriptorGroup owner
    else pure owner
  let part (bit : UInt32) (text : CStr) : CStr := if has bit then text else []
  CharArray.sprintf STR_BUFF
    (part 0x01 (cstr "Owner Changed; : " ++ owner.str) ++
      part 0x02 (cstr "Group Changed; : " ++ group.str) ++ part 0x04 (cstr "DACL Changed;") ++
      part 0x08 (cstr "SACL Changed;") ++ part 0x10 (cstr "Label Changed;"))

def setsecurityArgs (ctx : MonContext) : ContextM (UInt64 × UInt32 × UInt64) :=
  if ctx.hdlr.pm = .ia32e then return (ctx.regs.rcx, ctx.regs.rdx.toUInt32, ctx.regs.r8)
  else do
    let handle ← stackArg ctx 1 4
    let securityInfo ← stackArg ctx 2 4
    let securityDescAddr ← stackArg ctx 3 4
    return (handle.toUInt64, securityInfo, securityDescAddr.toUInt64)

def setsecurityCb (ctx : MonContext) : MonM (Option Extra) := do
  let (handle, securityInfo, securityDescAddr) ← guest (setsecurityArgs ctx)
  let (_, _, filename) ← guest (readFilename ctx handle)
  let policyId ← filterMatchOf .accessChanged filename.str
  if 0 < policyId then
    let detail ← guest (setSecurityInfoText ctx securityInfo securityDescAddr)
    return some (.access { filename, policyId, detail, matched := filename.str })
  else return none

def setsecurityRetCb (env : MonEnv) (ctx : MonContext) : MonM (Option Extra) :=
  match ctx.trap.extra with
  | some (.access params) =>
    if regInt ctx.regs.rax = 0 then do
      sendOutput env ctx ⟨.accessChanged, params.matched, .changeAccess, params.policyId,
        params.filename, params.detail, 0⟩
      return none
    else return none
  | some _ => throw .badCast
  | none => throw .nullPointer

end AccessChanged

/-! ### All callbacks -/

/-- The callback behind a pointer; the return callbacks of `NtSetInformationFile` do nothing. -/
def callback (env : MonEnv) (ctx : MonContext) : MonCb → MonM (Option Extra)
  | .fileCreated .createfileCb => FileCreated.createfileCb ctx
  | .fileCreated .createfileRetCb => FileCreated.createfileRetCb env ctx
  | .fileCreated .setinformationCb => FileCreated.setinformationCb ctx
  | .fileDeleted .setinformationCb => FileDeleted.setinformationCb env ctx
  | .fileDeleted .createfileCb => FileDeleted.createfileCb env ctx
  | .fileModified .writefileCb => FileModified.writefileCb ctx
  | .fileModified .writefileRetCb => FileModified.writefileRetCb env ctx
  | .attrChanged .setinformationCb => AttrChanged.setinformationCb env ctx
  | .accessChanged .setsecurityCb => AccessChanged.setsecurityCb ctx
  | .accessChanged .setsecurityRetCb => AccessChanged.setsecurityRetCb env ctx
  | .fileCreated .setinformationRetCb | .fileDeleted .setinformationRetCb
  | .attrChanged .setinformationRetCb => return none

/-- The callbacks as `_int3_cb` calls them. After a fault nothing is known any more. -/
def monCallbacks (env : MonEnv) : Callbacks MonCb Extra (Except Fault MonState) :=
  fun cb vm trap event (base, s) =>
    let r := s.bind fun s =>
      callback env ⟨event.regs, trap, vm.hdlr, env.calls⟩ cb
        { s with context := { s.context with processBase := base } }
    match r with
    | .ok (extra, s) => (extra, (s.context.processBase, .ok s))
    | .error fault => (none, (base, .error fault))

end Hfm

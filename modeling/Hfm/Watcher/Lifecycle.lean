import Hfm.Watcher.Multiwatch
import Hfm.Support.Handles

/-!
# The external handles of a monitored VM

`src/hfm.c`, `src/multiwatch.c` and `src/main.c`: the LibVMI instance, the Xen interface and
the trap manager of one VM, over the calls of its monitoring thread and of the watcher, which
alternate at any point. The instances that the watcher makes to wait for a boot are its own.
-/

namespace Hfm

open Support

/-- The pointers `vmi`, `xen` and `trap_manager` of `vmhdlr_t`. -/
inductive HfmHandle where
  | vmi
  | xen
  | trapManager
  deriving DecidableEq, Repr

/-- The calls that take a handle. -/
inductive ApiCall where
  | vmiInitPaging
  | vmiInitOs
  | vmiGetPageMode
  | vmiGetNumVcpus
  | vmiGetMemsize
  | vmiGetWinver
  | vmiGetName
  | vmiRegisterStepEvent (vcpu : Nat)
  | vmiRegisterInterruptEvent
  | vmiRegisterMemEvent
  | vmiRead
  | vmiSlatSetDomainState
  | vmiSlatCreate
  | vmiSlatSwitch
  | vmiSlatDestroy
  | vmiSlatChangeGfn
  | vmiSetMemEvent
  | vmiPauseVm
  | vmiResumeVm
  | libxlNameToDomid
  | xenFreeShadowFrame
  | tmAllMemtraps
  | tmAllRemappeds
  deriving DecidableEq

def ApiCall.handle : ApiCall → HfmHandle
  | .libxlNameToDomid | .xenFreeShadowFrame => .xen
  | .tmAllMemtraps | .tmAllRemappeds => .trapManager
  | _ => .vmi

abbrev HfmHandles := Handles HfmHandle

namespace HfmHandles

/-- `xen_free_interface`. -/
def xenFreeInterface (h : HfmHandles) : HfmHandles := if h.ptr .xen = 0 then h else h.release .xen

def call (h : HfmHandles) (calls : List ApiCall) : HfmHandles := h.uses (calls.map ApiCall.handle)

/-- The calls up to the first one that fails, and whether none did. -/
def checked (ok : ApiCall → Bool) : HfmHandles → List ApiCall → HfmHandles × Bool
  | h, [] => (h, true)
  | h, c :: calls => if ok c then checked ok (h.use c.handle) calls else (h.use c.handle, false)

end HfmHandles

/-! ### `hfm_init` -/

/-- What `vmi_init` answers. A call that fails may still leave an instance. -/
inductive VmiInit where
  | success
  | failure (vmi : Bool)
  deriving DecidableEq

/-- What the calls of `hfm_init` answer: `checks` for those that are checked, `reads` for the
number of reads that find the cookie and the drives. -/
structure InitAnswers where
  xen : Bool
  vmiInit : VmiInit
  checks : ApiCall → Bool
  vcpus : Nat
  reads : Nat
  tmInit : Bool
  outInit : Bool

def registerStepEvents (vcpus : Nat) : List ApiCall :=
  (List.range (min vcpus 16)).map .vmiRegisterStepEvent

/-- `_init_vmi`. -/
def initVmi (ans : InitAnswers) (h : HfmHandles) : HfmHandles × HfmStatus :=
  match ans.vmiInit with
  | .failure vmi => (if vmi then h.create .vmi else h, .fail)
  | .success =>
    match HfmHandles.checked ans.checks (h.create .vmi) [.vmiInitPaging, .vmiInitOs] with
    | (h, false) => (h.release .vmi, .fail)
    | (h, true) =>
      let h := HfmHandles.call h [.vmiGetPageMode, .vmiGetNumVcpus, .vmiGetMemsize, .vmiGetWinver]
      match HfmHandles.checked ans.checks h (.libxlNameToDomid :: registerStepEvents ans.vcpus) with
      | (h, false) => (h.release .vmi, .fail)
      | (h, true) =>
        let h := HfmHandles.call h (List.replicate ans.reads .vmiRead ++ [.vmiRegisterInterruptEvent])
        match HfmHandles.checked ans.checks h [.vmiRegisterMemEvent] with
        | (h, false) => (h.release .vmi, .fail)
        | (h, true) => (h, .success)

def setupAltp2m : List ApiCall := [.vmiSlatSetDomainState, .vmiSlatCreate, .vmiSlatSwitch]

def resetAltp2m : List ApiCall := [.vmiSlatSwitch, .vmiSlatDestroy]

def hfmInit (ans : InitAnswers) (h : HfmHandles) : HfmHandles × HfmStatus :=
  if ans.xen = false then (HfmHandles.xenFreeInterface (h.null .xen), .fail)
  else
    match initVmi ans (h.create .xen) with
    | (h, .fail) => (HfmHandles.xenFreeInterface h, .fail)
    | (h, .success) =>
      match HfmHandles.checked ans.checks h setupAltp2m with
      | (h, false) => (HfmHandles.xenFreeInterface (h.release .vmi), .fail)
      | (h, true) =>
        if ans.tmInit = false then
          let h := HfmHandles.call (h.null .trapManager) resetAltp2m
          (HfmHandles.xenFreeInterface (h.release .vmi), .fail)
        else
          let h := h.create .trapManager
          if ans.outInit = false then
            let h := HfmHandles.call (h.release .trapManager) resetAltp2m
            (HfmHandles.xenFreeInterface (h.release .vmi), .fail)
          else (h, .success)

/-! ### The threads -/

/-- The call of `hfm_restart_vmi` that comes next. -/
inductive RestartAt where
  | xenFree
  | xenInit
  | vmiInit
  | vmiCall (c : ApiCall) (rest : List ApiCall)
  | tmDestroy
  | tmInit
  | setPolicies
  deriving DecidableEq

def RestartAt.after : List ApiCall → RestartAt
  | [] => .tmDestroy
  | c :: rest => .vmiCall c rest

/-- The calls from `vmi_init` to `_setup_altp2m`, each of which is checked. -/
def restartVmiCalls (vcpus : Nat) : List ApiCall :=
  [.vmiInitPaging, .vmiInitOs] ++ registerStepEvents vcpus ++
    [.vmiRegisterInterruptEvent, .vmiRegisterMemEvent] ++ setupAltp2m

/-- A step of `hfm_close`. -/
inductive CloseCall where
  | call (c : ApiCall)
  | tmDestroy
  | xenFreeInterface
  | vmiDestroy
  deriving DecidableEq

/-- `hfm_close`, with the numbers of memory traps and of remapped pages of the VM. -/
def hfmClose (memtraps remappeds : Nat) : List CloseCall :=
  [.call .vmiPauseVm, .call .tmAllMemtraps] ++
    List.replicate memtraps (.call .vmiSetMemEvent) ++
    .call .tmAllRemappeds ::
    (List.replicate remappeds [.call .vmiSlatChangeGfn, .call .xenFreeShadowFrame]).flatten ++
    .tmDestroy :: resetAltp2m.map .call ++
    [.xenFreeInterface, .call .vmiResumeVm, .vmiDestroy]

/-- Where the thread of the VM is: `listen` is in front of `vmi_events_listen`, and `events`
inside of it. After a failed `hfm_init` there is no such thread. -/
inductive MonitorThread where
  | init
  | failed
  | loop
  | listen
  | events
  | close (c : CloseCall) (rest : List CloseCall)
  | closed
  deriving DecidableEq

/-- A VM with what both threads do to it. `missing` is the handle that the last restart could
not make. -/
structure HandledVm where
  watched : WatchedVm
  vcpus : Nat
  handles : HfmHandles
  restart : Option RestartAt
  missing : Option HfmHandle
  thread : MonitorThread
  interrupted : Bool

namespace HandledVm

/-- The VM before `hfm_init`; `main` hands `hfm_restart_vmi` to the watcher. -/
def start (vmi : Nat) (name : CStr) (data : Nat) : HandledVm where
  watched := (Registration.mk vmi name (some 0) data).vm
  vcpus := 0
  handles := .empty
  restart := none
  missing := none
  thread := .init
  interrupted := false

/-- `hfm_restart_vmi` returned. -/
def restarted (s : HandledVm) (result : Int) : HandledVm :=
  { s with restart := none, watched := visitVm s.watched ⟨none, false, false, result⟩ }

/-- What the next call of `hfm_restart_vmi` answers. The policies are set by any number of
calls; `none` ends them. -/
structure RestartAnswer where
  ok : Bool
  vmi : Bool
  policyCall : Option HfmHandle

def restartCall (s : HandledVm) (ans : RestartAnswer) : RestartAt → HandledVm
  | .xenFree =>
    { s with handles := HfmHandles.xenFreeInterface s.handles, restart := some .xenInit }
  | .xenInit =>
    if ans.ok then { s with handles := s.handles.create .xen, restart := some .vmiInit }
    else { s with handles := s.handles.null .xen, missing := some .xen }.restarted (-1)
  | .vmiInit =>
    if ans.ok then
      { s with
        handles := s.handles.create .vmi
        restart := some (.after (restartVmiCalls s.vcpus)) }
    else if ans.vmi then { s with handles := s.handles.create .vmi }.restarted (-1)
    else { s with missing := some .vmi }.restarted (-1)
  | .vmiCall c rest =>
    let s := { s with handles := s.handles.use c.handle }
    if ans.ok then { s with restart := some (.after rest) } else s.restarted (-1)
  | .tmDestroy => { s with handles := s.handles.release .trapManager, restart := some .tmInit }
  | .tmInit =>
    if ans.ok then
      { s with handles := s.handles.create .trapManager, restart := some .setPolicies }
    else
      { s with
        handles := s.handles.null .trapManager
        missing := some .trapManager }.restarted (-1)
  | .setPolicies =>
    match ans.policyCall with
    | some k => { s with handles := s.handles.use k }
    | none => s.restarted 0

/-- A visit of the watcher, up to the first call of `hfm_restart_vmi` where it comes to that. -/
def visited (s : HandledVm) (ans : VisitAnswers) : HandledVm :=
  match s.watched.hdlr.state with
  | .booting =>
    if s.watched.hdlr.bootDone then { s with restart := some .xenFree }
    else { s with watched := visitVm s.watched ans }
  | .running =>
    { s with
      watched := visitVm s.watched ans
      handles := if s.watched.hdlr.okay then s.handles.use .vmi else s.handles }
  | .destroy =>
    { s with watched := visitVm s.watched ans, handles := s.handles.release .vmi }
  | _ => { s with watched := visitVm s.watched ans }

def closeCall (h : HfmHandles) : CloseCall → HfmHandles
  | .call c => h.use c.handle
  | .tmDestroy => h.release .trapManager
  | .xenFreeInterface => HfmHandles.xenFreeInterface h
  | .vmiDestroy => h.release .vmi

def closing : List CloseCall → MonitorThread
  | [] => .closed
  | c :: rest => .close c rest

end HandledVm

inductive HandleAction where
  | hfmInit (ans : InitAnswers) (policyCalls : List HfmHandle)
  | visit (ans : VisitAnswers)
  | restart (ans : HandledVm.RestartAnswer)
  | bootThread (n : Nat) (vmi : Bool)
  | interrupt
  | check (okay : Bool) (memtraps remappeds : Nat)
  | listen
  | event (k : HfmHandle)
  | listened
  | close

/-- `auto_restart`, and whether the VM is the first one of the watcher. -/
structure WatchConfig where
  autoRestart : Bool
  first : Bool

namespace HandledVm

/-- The threads of the VM run. -/
def Started (s : HandledVm) : Prop := s.thread ≠ .init ∧ s.thread ≠ .failed

/-- When an action can come. The loop of `_monitor_vm` asks for the flag of the first VM. -/
def Enabled (cfg : WatchConfig) (s : HandledVm) : HandleAction → Prop
  | .hfmInit _ _ => s.thread = .init
  | .visit _ => s.Started ∧ cfg.autoRestart = true ∧ s.restart = none
  | .restart _ => s.Started ∧ s.restart ≠ none
  | .bootThread n _ => s.Started ∧ n ∈ s.watched.threads
  | .interrupt => s.Started
  | .check okay _ _ => s.thread = .loop ∧ (cfg.first = true → okay = s.watched.hdlr.okay)
  | .listen => s.thread = .listen
  | .event _ | .listened => s.thread = .events
  | .close => ∃ c rest, s.thread = .close c rest

def next (cfg : WatchConfig) (s : HandledVm) : HandleAction → HandledVm
  | .hfmInit ans policyCalls =>
    match Hfm.hfmInit ans s.handles with
    | (h, .fail) => { s with handles := h, thread := .failed }
    | (h, .success) =>
      { s with
        vcpus := ans.vcpus
        handles := h.uses (policyCalls ++ if cfg.autoRestart then [ApiCall.vmiGetName.handle] else [])
        thread := .loop }
  | .visit ans => s.visited ans
  | .restart ans =>
    match s.restart with
    | some pos => s.restartCall ans pos
    | none => s
  | .bootThread n vmi => { s with watched := waitBootFc s.watched n vmi }
  | .interrupt => { s with interrupted := true }
  | .check okay memtraps remappeds =>
    if s.interrupted then { s with thread := closing (hfmClose memtraps remappeds) }
    else if cfg.autoRestart = true ∧ okay = false then s
    else { s with thread := .listen }
  | .listen => { s with handles := s.handles.use .vmi, thread := .events }
  | .event k => { s with handles := s.handles.use k }
  | .listened => { s with thread := .loop }
  | .close =>
    match s.thread with
    | .close c rest => { s with handles := closeCall s.handles c, thread := closing rest }
    | _ => s

end HandledVm

def HandleStep (cfg : WatchConfig) (s : HandledVm) (a : HandleAction) (s' : HandledVm) : Prop :=
  s.Enabled cfg a ∧ s' = s.next cfg a

end Hfm

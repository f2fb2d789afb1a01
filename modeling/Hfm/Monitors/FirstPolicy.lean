import Hfm.Lockstep
import Hfm.Monitors.Justified
import Hfm.Support.Follows
import Hfm.Support.Simulation

/-!
# The monitors without their filters

What the monitors are for: the first one of the policies for a monitor that accepts the path of a
call decides about it. Here a monitor is the question which path a call is about, and what
follows for a policy; there are no node lists, cursors and arrays. The monitors with their
filters report what these do.
-/

namespace Hfm

open Support

/-! ### The policies -/

/-- The first of the policies for a monitor that accepts the path. -/
def firstPolicy (policies : List Policy) (plugin : Plugin) (path : CStr) : Option Policy :=
  policies.find? fun policy => policy.type.plugin = some plugin ∧ accepts policy.path path = true

/-- What a monitor does about a call. -/
inductive Reply where
  | report (call : SendCall)
  | handOver (extra : Extra)
  | nothing

/-- What a callback is about: a path that the policies decide about, with the least identifier
that counts, or something that is settled. -/
inductive Matter where
  | settled (reply : Reply)
  | path (plugin : Plugin) (path : CStr) (least : Int) (reply : Int → MonM Reply)

/-! ### The matters of the callbacks -/

namespace FileCreated

def createfileMatter (ctx : MonContext) : MonM Matter := do
  let (objattrAddr, ioStatusAddr, createMode) ← guest (createfileArgs ctx)
  let (start, len) ← guest (readObjectPath ctx objattrAddr)
  return .path .fileCreated start.str 0 fun policyId => do
    let filename ← start.strncpy (len + 1)
    return .handOver
      (.create { filename, ioStatusAddr, createMode, policyId, matched := start.str })

def createfileRetMatter (ctx : MonContext) : MonM Matter :=
  match ctx.trap.extra with
  | some (.create params) => do
    let offsets := ctx.hdlr.offsets
    let information ←
      guest (hfmRead64 ctx (params.ioStatusAddr + offsets .ioStatusBlockInformation))
    let _status ← guest (hfmRead32 ctx (params.ioStatusAddr + offsets .ioStatusBlockStatus))
    if information = FILE_CREATED ∨
        information = FILE_SUPERSEDED ∧ ntSuccess ctx.regs.rax.toNat = true then
      return .settled (.report ⟨.fileCreated, params.matched, .create, params.policyId,
        params.filename, noData, 0⟩)
    else return .settled .nothing
  | some _ => throw .badCast
  | none => throw .nullPointer

def setinformationMatter (ctx : MonContext) : MonM Matter := do
  guest (readRename ctx)
  let value ← guest (ask ctx.calls.indeterminate)
  return .settled (if value = 0 then .nothing else .handOver .indeterminate)

end FileCreated

namespace FileDeleted

def setinformationMatter (ctx : MonContext) : MonM Matter := do
  let (handle, fileinfoAddr, fileinfoClass) ← guest (setinformationArgs ctx)
  if fileinfoClass = FILE_DISPOSITION_INFORMATION then
    let (fileObject, _, filename) ← guest (readFilename ctx handle)
    return .path .fileDeleted filename.str 0 fun policyId => do
      let delete ← guest
        (hfmRead8 ctx (fileinfoAddr + ctx.hdlr.offsets .fileDispositionInformationDeleteFile))
      if delete ≠ 0 then
        return .report ⟨.fileDeleted, filename.str, .delete, policyId, filename, noData, fileObject⟩
      else return .nothing
  else return .settled .nothing

def createfileMatter (ctx : MonContext) : MonM Matter := do
  let (objattrAddr, _, _) ← guest (createfileArgs ctx)
  let (desiredAccess, createOptions) ← guest (accessArgs ctx)
  if desiredAccess &&& DESIRED_ACCESS_DELETE ≠ 0 ∧ createOptions &&& FILE_DELETE_ON_CLOSE ≠ 0 then
    let (start, _) ← guest (readObjectPath ctx objattrAddr)
    return .path .fileDeleted start.str 0 fun policyId =>
      return .report ⟨.fileDeleted, start.str, .delete, policyId, start, noData, 0⟩
  else return .settled .nothing

end FileDeleted

namespace FileModified

def writefileMatter (ctx : MonContext) : MonM Matter := do
  let (handle, ioStatusAddr) ← guest (writefileArgs ctx)
  let (fileObject, len, filename) ← guest (readFilename ctx handle)
  if filename.str = [] then return .settled .nothing
  else return .path .fileModified filename.str 0 fun policyId => do
    let copied ← filename.strncpy len
    return .handOver (.modify
      { filename := copied, fileObject, ioStatusAddr, policyId, matched := filename.str })

def writefileRetMatter (ctx : MonContext) : MonM Matter :=
  match ctx.trap.extra with
  | some (.modify params) => do
    let _information ← guest
      (hfmRead64 ctx (params.ioStatusAddr + ctx.hdlr.offsets .ioStatusBlockInformation))
    if ntSuccess (regInt ctx.regs.rax) = true then
      return .settled (.report ⟨.fileModified, params.matched, .modifyContent, params.policyId,
        params.filename, noData, params.fileObject⟩)
    else return .settled .nothing
  | some _ => throw .badCast
  | none => throw .nullPointer

end FileModified

/-- The name that is read first has no part in it. -/
def AttrChanged.setinformationMatter (ctx : MonContext) : MonM Matter := do
  let (handle, fileinfoAddr, fileinfoClass) ← guest (setinformationArgs ctx)
  if fileinfoClass = FILE_BASIC_INFORMATION then
    let fileAttributes ← guest
      (hfmRead32 ctx (fileinfoAddr + ctx.hdlr.offsets .fileBasicInformationFileAttributes))
    let _ ← guest (readFilename ctx handle)
    if fileAttributes ≠ 0 then
      let (_, _, filename) ← guest (readFilename ctx handle)
      return .path .attrChanged filename.str 0 fun policyId =>
        return .report ⟨.attrChanged, filename.str, .changeAttr, policyId, filename, noData, 0⟩
    else return .settled .nothing
  else return .settled .nothing

namespace AccessChanged

def setsecurityMatter (ctx : MonContext) : MonM Matter := do
  let (handle, securityInfo, securityDescAddr) ← guest (setsecurityArgs ctx)
  let (_, _, filename) ← guest (readFilename ctx handle)
  return .path .accessChanged filename.str 1 fun policyId => do
    let detail ← guest (setSecurityInfoText ctx securityInfo securityDescAddr)
    return .handOver (.access { filename, policyId, detail, matched := filename.str })

def setsecurityRetMatter (ctx : MonContext) : MonM Matter :=
  match ctx.trap.extra with
  | some (.access params) =>
    if regInt ctx.regs.rax = 0 then
      return .settled (.report ⟨.accessChanged, params.matched, .changeAccess, params.policyId,
        params.filename, params.detail, 0⟩)
    else return .settled .nothing
  | some _ => throw .badCast
  | none => throw .nullPointer

end AccessChanged

def matter (ctx : MonContext) : MonCb → MonM Matter
  | .fileCreated .createfileCb => FileCreated.createfileMatter ctx
  | .fileCreated .createfileRetCb => FileCreated.createfileRetMatter ctx
  | .fileCreated .setinformationCb => FileCreated.setinformationMatter ctx
  | .fileDeleted .setinformationCb => FileDeleted.setinformationMatter ctx
  | .fileDeleted .createfileCb => FileDeleted.createfileMatter ctx
  | .fileModified .writefileCb => FileModified.writefileMatter ctx
  | .fileModified .writefileRetCb => FileModified.writefileRetMatter ctx
  | .attrChanged .setinformationCb => AttrChanged.setinformationMatter ctx
  | .accessChanged .setsecurityCb => AccessChanged.setsecurityMatter ctx
  | .accessChanged .setsecurityRetCb => AccessChanged.setsecurityRetMatter ctx
  | .fileCreated .setinformationRetCb | .fileDeleted .setinformationRetCb
  | .attrChanged .setinformationRetCb => return .settled .nothing

/-! ### The policies decide -/

section Decide

variable (policies : List Policy) (env : MonEnv) (ctx : MonContext)

def respond : Reply → MonM (Option Extra)
  | .report call => do
    sendOutput env ctx call
    return none
  | .handOver extra => return some extra
  | .nothing => return none

/-- The first policy for the monitor that accepts the path decides, if its identifier counts. -/
def decideBy : Matter → MonM (Option Extra)
  | .settled reply => respond env ctx reply
  | .path plugin path least reply =>
    match firstPolicy policies plugin path with
    | none => return none
    | some policy =>
      if least ≤ policy.id then do respond env ctx (← reply policy.id) else return none

/-- A callback without filters. -/
def policyCallback (cb : MonCb) : MonM (Option Extra) := do
  decideBy policies env ctx (← matter ctx cb)

end Decide

/-- The callbacks by the policies, as `_int3_cb` calls them. -/
def policyCallbacks (policies : List Policy) (env : MonEnv) :
    Callbacks MonCb Extra (Except Fault MonState) :=
  fun cb vm trap event (base, s) =>
    let r := s.bind fun s =>
      policyCallback policies env ⟨event.regs, trap, vm.hdlr, env.calls⟩ cb
        { s with context := { s.context with processBase := base } }
    match r with
    | .ok (extra, s) => (extra, (s.context.processBase, .ok s))
    | .error fault => (none, (base, .error fault))

/-! ### The filters know the first policy -/

/-- The identifier of the first policy, or -1. -/
def firstPolicyId (policies : List Policy) (plugin : Plugin) (path : CStr) : Int :=
  ((firstPolicy policies plugin path).map Policy.id).getD (-1)

lemma firstId_addedTo (policies : List Policy) (plugin : Plugin) (path : CStr) :
    firstId (addedTo plugin policies) path = firstPolicyId policies plugin path := by
  unfold firstId firstPolicyId firstPolicy addedTo
  rw [List.find?_map, Option.map_map, List.find?_filter]
  simp only [Function.comp_def, Bool.decide_and, Bool.decide_eq_true]

/-- More rounds over the same policies change nothing. -/
lemma firstPolicy_rounds {table : GHashTable Int Policy} {round : List Policy}
    {rounds : List (List Policy)}
    (hround : round.Perm (table.entries.map Sigma.snd))
    (hrounds : ∀ r ∈ rounds, r.Perm (table.entries.map Sigma.snd)) (plugin : Plugin) (path : CStr) :
    firstPolicy (round ++ rounds.flatten) plugin path = firstPolicy round plugin path := by
  unfold firstPolicy
  rw [List.find?_append]
  cases hfind : round.find? fun policy =>
      policy.type.plugin = some plugin ∧ accepts policy.path path = true with
  | some policy => rfl
  | none =>
    rw [Option.none_or, List.find?_eq_none]
    intro policy hmem
    obtain ⟨r, hr, hmem⟩ := List.mem_flatten.mp hmem
    exact List.find?_eq_none.mp hfind policy
      (hround.mem_iff.mpr ((hrounds r hr).mem_iff.mp hmem))

/-- The policies of the first round are enough. -/
lemma Rounds.firstPolicy {table : GHashTable Int Policy} {k : Nat} {history : List Policy}
    (h : Rounds table k history) : ∃ policies : List Policy,
      policies.Perm (table.entries.map Sigma.snd) ∧ (0 < k → ∀ plugin path,
        firstPolicyId history plugin path = firstPolicyId policies plugin path) := by
  obtain ⟨rounds, rfl, rfl, hperm⟩ := h
  cases rounds with
  | nil => exact ⟨_, .refl _, fun h => absurd h (Nat.lt_irrefl 0)⟩
  | cons round rounds =>
    have hround := hperm round List.mem_cons_self
    refine ⟨round, hround, fun _ plugin path => ?_⟩
    unfold firstPolicyId
    rw [List.flatten_cons, firstPolicy_rounds hround
      (fun r hr => hperm r (List.mem_cons_of_mem _ hr)) plugin path]

/-- The states of the two, up to the filters. The filters know the first of the policies. -/
structure Alike (policies : List Policy) (s t : MonState) : Prop where
  context : s.context = t.context
  reports : s.reports = t.reports
  filters : ∃ history, Holding s.filters history ∧ ∀ plugin path,
    firstPolicyId history plugin path = firstPolicyId policies plugin path

section Follow

variable {policies : List Policy} {env : MonEnv} {ctx : MonContext}

lemma guest_alike {α : Type} (x : ContextM α) :
    Follows (Alike policies) (guest x) (guest x) :=
  Follows.zoom (fun _ _ h => h.context) (fun _ _ _ h => ⟨rfl, h.reports, h.filters⟩) x

lemma outWrite_alike (report : MonReport) :
    Follows (Alike policies) (outWrite report) (outWrite report) := by
  intro s t h a s' hok
  cases hok
  exact ⟨_, rfl, h.context, congrArg (· ++ [report]) h.reports, h.filters⟩

lemma sendOutput_alike (call : SendCall) :
    Follows (Alike policies) (sendOutput env ctx call) (sendOutput env ctx call) := by
  refine (guest_alike _).bind fun curProcess => (guest_alike _).bind fun pid =>
    (guest_alike _).bind fun sid => (guest_alike _).bind fun time =>
    (guest_alike _).bind fun extpath => ?_
  exact outWrite_alike _

/-- The filter of a monitor answers with the first policy. -/
lemma filterMatchOf_alike {plugin : Plugin} {path : CStr} {s t : MonState} (h : Alike policies s t)
    {id : Int} {s' : MonState} (hok : filterMatchOf plugin path s = .ok (id, s')) :
    id = firstPolicyId policies plugin path ∧ Alike policies s' t := by
  obtain ⟨hcontext, hreports, history, hholding, hfirst⟩ := h
  unfold filterMatchOf at hok
  cases hfilter : s.filters plugin with
  | none =>
    rw [hfilter] at hok
    cases hok
  | some filter =>
    rw [hfilter] at hok
    obtain ⟨⟨id', filter'⟩, hmatch, hok⟩ := bind_eq_ok.mp hok
    cases hok
    have hentries : filter.entries = kept (addedTo plugin history) := by
      have := hholding plugin
      rwa [hfilter] at this
    obtain ⟨nodes?, hpath, -⟩ := bind_eq_ok.mp hmatch
    obtain ⟨filter₁, hmatch₁, hentries₁⟩ := filterMatch_eq filter hentries hpath
    rw [hmatch] at hmatch₁
    cases hmatch₁
    refine ⟨(firstId_addedTo history plugin path).trans (hfirst plugin path), hcontext, hreports,
      history, ?_, hfirst⟩
    apply (Function.forall_update_iff s.filters fun other filter? =>
      (filter?.getD filterInit).entries = kept (addedTo other history)).mpr
    exact ⟨hentries₁, fun other _ => hholding other⟩

/-- A match, and what follows for an identifier that counts. -/
lemma match_follows {plugin : Plugin} {path : CStr} {least : Int} (hleast : 0 ≤ least)
    {k : Int → MonM (Option Extra)} {reply : Int → MonM Reply}
    (hk : ∀ id, Follows (Alike policies) (k id) (reply id >>= respond env ctx)) :
    Follows (Alike policies)
      (filterMatchOf plugin path >>= fun id => if least ≤ id then k id else pure none)
      (pure (.path plugin path least reply) >>= decideBy policies env ctx) := by
  refine .part_end (.skip (fun s t h id s' hok => filterMatchOf_alike h hok) ?_)
  rintro id rfl
  cases hfirst : firstPolicy policies plugin path with
  | none =>
    simp only [decideBy, firstPolicyId, hfirst, Option.map_none, Option.getD_none]
    rw [if_neg (by omega)]
    exact .pure none
  | some policy =>
    simp only [decideBy, firstPolicyId, hfirst, Option.map_some, Option.getD_some]
    exact .ite (fun _ => hk policy.id) fun _ => .pure none

lemma settled_nothing : Follows (Alike policies) (pure none)
    (pure (.settled .nothing) >>= decideBy policies env ctx) :=
  .part_end (.pure none)

lemma settled_report (call : SendCall) :
    Follows (Alike policies) (sendOutput env ctx call >>= fun _ => pure none)
      (pure (.settled (.report call)) >>= decideBy policies env ctx) :=
  .part_end ((sendOutput_alike call).bind fun _ => .pure none)

lemma reply_report (call : SendCall) :
    Follows (Alike policies) (sendOutput env ctx call >>= fun _ => pure none)
      (pure (.report call) >>= respond env ctx) :=
  .part_end ((sendOutput_alike call).bind fun _ => .pure none)

/-! ### The callbacks -/

lemma FileCreated.createfileCb_follows : Follows (Alike policies) (FileCreated.createfileCb ctx)
    (FileCreated.createfileMatter ctx >>= decideBy policies env ctx) := by
  refine .bind_part (guest_alike _) fun ⟨objattrAddr, ioStatusAddr, createMode⟩ => ?_
  refine .bind_part (guest_alike _) fun ⟨start, len⟩ => ?_
  refine match_follows (Int.le_refl 0) fun policyId => ?_
  exact .bind_part (.lift _) fun filename => .part_end (.pure _)

lemma FileCreated.createfileRetCb_follows :
    Follows (Alike policies) (FileCreated.createfileRetCb env ctx)
      (FileCreated.createfileRetMatter ctx >>= decideBy policies env ctx) := by
  unfold FileCreated.createfileRetCb FileCreated.createfileRetMatter
  cases ctx.trap.extra with
  | none => exact .throw
  | some extra =>
    cases extra with
    | create params =>
      refine .bind_part (guest_alike _) fun information => ?_
      refine .bind_part (guest_alike _) fun status => ?_
      exact .ite_part (fun _ => settled_report _) fun _ => settled_nothing
    | modify params => exact .throw
    | access params => exact .throw
    | indeterminate => exact .throw

lemma FileCreated.setinformationCb_follows :
    Follows (Alike policies) (FileCreated.setinformationCb ctx)
      (FileCreated.setinformationMatter ctx >>= decideBy policies env ctx) := by
  refine .bind_part (guest_alike _) fun _ => .bind_part (guest_alike _) fun value => .part_end ?_
  by_cases hzero : value = 0
  · rw [if_pos hzero, if_pos hzero]
    exact .pure none
  · rw [if_neg hzero, if_neg hzero]
    exact .pure _

lemma FileDeleted.setinformationCb_follows :
    Follows (Alike policies) (FileDeleted.setinformationCb env ctx)
      (FileDeleted.setinformationMatter ctx >>= decideBy policies env ctx) := by
  refine .bind_part (guest_alike _) fun ⟨handle, fileinfoAddr, fileinfoClass⟩ => ?_
  refine .ite_part (fun _ => ?_) fun _ => settled_nothing
  refine .bind_part (guest_alike _) fun ⟨fileObject, len, filename⟩ => ?_
  refine match_follows (Int.le_refl 0) fun policyId => ?_
  refine .bind_part (guest_alike _) fun delete => ?_
  exact .ite_part (fun _ => reply_report _) fun _ => .part_end (.pure none)

lemma FileDeleted.createfileCb_follows :
    Follows (Alike policies) (FileDeleted.createfileCb env ctx)
      (FileDeleted.createfileMatter ctx >>= decideBy policies env ctx) := by
  refine .bind_part (guest_alike _) fun ⟨objattrAddr, ioStatusAddr, create⟩ => ?_
  refine .bind_part (guest_alike _) fun ⟨desiredAccess, createOptions⟩ => ?_
  refine .ite_part (fun _ => ?_) fun _ => settled_nothing
  refine .bind_part (guest_alike _) fun ⟨start, len⟩ => ?_
  exact match_follows (Int.le_refl 0) fun policyId => reply_report _

lemma FileModified.writefileCb_follows : Follows (Alike policies) (FileModified.writefileCb ctx)
    (FileModified.writefileMatter ctx >>= decideBy policies env ctx) := by
  refine .bind_part (guest_alike _) fun ⟨handle, ioStatusAddr⟩ => ?_
  refine .bind_part (guest_alike _) fun ⟨fileObject, len, filename⟩ => ?_
  refine .ite_part (fun _ => settled_nothing) fun _ => ?_
  refine match_follows (Int.le_refl 0) fun policyId => ?_
  exact .bind_part (.lift _) fun copied => .part_end (.pure _)

lemma FileModified.writefileRetCb_follows :
    Follows (Alike policies) (FileModified.writefileRetCb env ctx)
      (FileModified.writefileRetMatter ctx >>= decideBy policies env ctx) := by
  unfold FileModified.writefileRetCb FileModified.writefileRetMatter
  cases ctx.trap.extra with
  | none => exact .throw
  | some extra =>
    cases extra with
    | modify params =>
      refine .bind_part (guest_alike _) fun information => ?_
      exact .ite_part (fun _ => settled_report _) fun _ => settled_nothing
    | create params => exact .throw
    | access params => exact .throw
    | indeterminate => exact .throw

/-- The first of the two matches has no effect. -/
lemma AttrChanged.setinformationCb_follows :
    Follows (Alike policies) (AttrChanged.setinformationCb env ctx)
      (AttrChanged.setinformationMatter ctx >>= decideBy policies env ctx) := by
  refine .bind_part (guest_alike _) fun ⟨handle, fileinfoAddr, fileinfoClass⟩ => ?_
  refine .ite_part (fun _ => ?_) fun _ => settled_nothing
  refine .bind_part (guest_alike _) fun fileAttributes => ?_
  refine .bind_part (guest_alike _) fun ⟨_, _, filename⟩ => ?_
  refine .skip (fun s t h id s' hok => filterMatchOf_alike h hok) fun _ _ => ?_
  refine .ite_part (fun _ => ?_) fun _ => settled_nothing
  refine .bind_part (guest_alike _) fun ⟨_, _, filename⟩ => ?_
  exact match_follows (Int.le_refl 0) fun policyId => reply_report _

lemma AccessChanged.setsecurityCb_follows :
    Follows (Alike policies) (AccessChanged.setsecurityCb ctx)
      (AccessChanged.setsecurityMatter ctx >>= decideBy policies env ctx) := by
  refine .bind_part (guest_alike _) fun ⟨handle, securityInfo, securityDescAddr⟩ => ?_
  refine .bind_part (guest_alike _) fun ⟨_, _, filename⟩ => ?_
  refine match_follows (by decide : (0 : Int) ≤ 1) fun policyId => ?_
  exact .bind_part (guest_alike _) fun detail => .part_end (.pure _)

lemma AccessChanged.setsecurityRetCb_follows :
    Follows (Alike policies) (AccessChanged.setsecurityRetCb env ctx)
      (AccessChanged.setsecurityRetMatter ctx >>= decideBy policies env ctx) := by
  unfold AccessChanged.setsecurityRetCb AccessChanged.setsecurityRetMatter
  cases ctx.trap.extra with
  | none => exact .throw
  | some extra =>
    cases extra with
    | access params => exact .ite_part (fun _ => settled_report _) fun _ => settled_nothing
    | create params => exact .throw
    | modify params => exact .throw
    | indeterminate => exact .throw

lemma callback_follows (cb : MonCb) :
    Follows (Alike policies) (callback env ctx cb) (policyCallback policies env ctx cb) := by
  cases cb with
  | fileCreated cb =>
    cases cb with
    | createfileCb => exact FileCreated.createfileCb_follows
    | createfileRetCb => exact FileCreated.createfileRetCb_follows
    | setinformationCb => exact FileCreated.setinformationCb_follows
    | setinformationRetCb => exact settled_nothing
  | fileDeleted cb =>
    cases cb with
    | setinformationCb => exact FileDeleted.setinformationCb_follows
    | createfileCb => exact FileDeleted.createfileCb_follows
    | setinformationRetCb => exact settled_nothing
  | fileModified cb =>
    cases cb with
    | writefileCb => exact FileModified.writefileCb_follows
    | writefileRetCb => exact FileModified.writefileRetCb_follows
  | attrChanged cb =>
    cases cb with
    | setinformationCb => exact AttrChanged.setinformationCb_follows
    | setinformationRetCb => exact settled_nothing
  | accessChanged cb =>
    cases cb with
    | setsecurityCb => exact AccessChanged.setsecurityCb_follows
    | setsecurityRetCb => exact AccessChanged.setsecurityRetCb_follows

end Follow

/-! ### Runs -/

/-- The state of the monitors without their filters. -/
def Monitoring.startPolicies (m : Monitored Extra) : Monitoring :=
  ⟨m.vms, ⟨0, 0⟩, fun _ => none, []⟩

/-- An INT3 event, handled by the policies. -/
def Monitoring.handleByPolicies (policies : List Policy) (config : Config) (s : Monitoring)
    (e : MonEvent) : Except Fault (Handled × Monitoring) := do
  let (handled, vm, mon) ← int3Cb (policyCallbacks policies ⟨e.vm, config, e.context⟩) e.event
    e.calls ((s.vms e.vm).setMachine e.machine) (.ok s.mon)
  let mon ← mon
  return (handled, ⟨Function.update s.vms e.vm (vm.respond e.event.vcpuId handled), mon⟩)

def PolicyStep (policies : List Policy) (config : Config) (vmnum : Nat) (s : Monitoring)
    (e : MonEvent) (s' : Monitoring) : Prop :=
  e.vm < vmnum ∧ s.handleByPolicies policies config e = .ok (e.handled, s')

section Runs

variable {policies : List Policy} {config : Config} {vmnum : Nat}

lemma monCallbacks_lockstep (env : MonEnv) : Lockstep (monCallbacks env)
    (policyCallbacks policies env) (fun s => ∃ fault, s = .error fault)
    (fun s t => ∃ m n, s = .ok m ∧ t = .ok n ∧ Alike policies m n) where
  sticky := by
    rintro cb vm trap event base _ ⟨fault, rfl⟩
    exact ⟨fault, rfl⟩
  answers := by
    rintro cb vm trap event base _ _ ⟨m, n, rfl, rfl, halike⟩
    unfold monCallbacks policyCallbacks
    dsimp only [Except.bind]
    cases hrun : callback env ⟨event.regs, trap, vm.hdlr, env.calls⟩ cb
        { m with context := { m.context with processBase := base } } with
    | error fault => exact .inl ⟨fault, rfl⟩
    | ok r =>
      obtain ⟨extra, m'⟩ := r
      have halike' : Alike policies { m with context := { m.context with processBase := base } }
          { n with context := { n.context with processBase := base } } :=
        ⟨by rw [halike.context], halike.reports, halike.filters⟩
      obtain ⟨n', hrun', hend⟩ := callback_follows cb _ _ halike' extra m' hrun
      rw [hrun']
      exact .inr ⟨rfl, congrArg ContextState.processBase hend.context, m', n', rfl, rfl, hend⟩

lemma MonStep.follows {s s' t : Monitoring} {e : MonEvent} (h : MonStep config vmnum s e s')
    (hvms : s.vms = t.vms) (halike : Alike policies s.mon t.mon) :
    ∃ t', PolicyStep policies config vmnum t e t' ∧ s'.vms = t'.vms ∧
      Alike policies s'.mon t'.mon := by
  obtain ⟨hvm, hhandle⟩ := h
  obtain ⟨⟨handled, vm, mon?⟩, hok, hhandle⟩ := bind_eq_ok.mp hhandle
  obtain ⟨mon, rfl, hhandle⟩ := bind_eq_ok.mp hhandle
  cases hhandle
  have hlock : Lockstep (monCallbacks ⟨e.vm, config, e.context⟩)
      (policyCallbacks policies ⟨e.vm, config, e.context⟩) _ _ := monCallbacks_lockstep _
  obtain ⟨_, hok', mon₁, mon', hmon₁, rfl, hend⟩ :=
    hlock.int3Cb hok (by simp) ⟨s.mon, t.mon, rfl, rfl, halike⟩
  cases hmon₁
  refine ⟨⟨Function.update t.vms e.vm (vm.respond e.event.vcpuId e.handled), mon'⟩, ⟨hvm, ?_⟩, ?_,
    hend⟩
  · unfold Monitoring.handleByPolicies
    rw [← hvms, hok']
    rfl
  · rw [hvms]

/-- Every run of the monitors is one without filters, in which the policies of the table, each
taken once in some order, decide about the paths: the events have the same answers, and the VMs and
all reports are the same. -/
theorem monitors_refine {table : GHashTable Int Policy} {vms : Nat → Vm MonCb Extra}
    {order : Nat → ValueOrder} {calls : Nat → SetCalls} {m : Monitored Extra}
    (hset : mainSetPolicies (some table) order calls vmnum (Monitored.start vms) = .ok m)
    {tr : List (MonEvent × Monitoring)}
    (hrun : IsRun (MonStep config vmnum) (Monitoring.start m) tr) :
    ∃ policies : List Policy, policies.Perm (table.entries.map Sigma.snd) ∧
      ∃ tr', IsRun (PolicyStep policies config vmnum) (Monitoring.startPolicies m) tr' ∧
        tr'.map Prod.fst = tr.map Prod.fst ∧
        (final (Monitoring.start m) tr).vms = (final (Monitoring.startPolicies m) tr').vms ∧
        (final (Monitoring.start m) tr).mon.reports =
          (final (Monitoring.startPolicies m) tr').mon.reports := by
  obtain ⟨history, hrounds, hholding, -⟩ := mainSetPolicies_rounds vmnum hset
  obtain ⟨policies, hperm, hfirst⟩ := hrounds.firstPolicy
  rcases Nat.eq_zero_or_pos vmnum with rfl | hpos
  · -- without VMs there are no events
    cases tr with
    | nil => exact ⟨policies, hperm, [], trivial, rfl, rfl, rfl⟩
    | cons step tr => exact absurd hrun.1.1 (Nat.not_lt_zero _)
  have hsim : Simulates (MonStep config vmnum) (PolicyStep policies config vmnum) some
      fun s t => s.vms = t.vms ∧ Alike policies s.mon t.mon := by
    rintro s e s' t ⟨hvms, halike⟩ hstep
    obtain ⟨t', hstep', hvms', halike'⟩ := hstep.follows hvms halike
    exact ⟨t', hstep', hvms', halike'⟩
  have hstart : Alike policies (Monitoring.start m).mon (Monitoring.startPolicies m).mon :=
    ⟨rfl, rfl, history, hholding, hfirst hpos⟩
  obtain ⟨tr', hrun', hshown, hvms, halike⟩ :=
    hsim.run (t := Monitoring.startPolicies m) hrun ⟨rfl, hstart⟩
  refine ⟨policies, hperm, tr', hrun', ?_, hvms, halike.reports⟩
  rw [hshown]
  exact List.filterMap_some

end Runs

theorem monitors_refine_creation : ∃ policies m tr,
    mainSetPolicies (some policies) (fun _ => .listed)
      (fun _ _ => oneSymbol (cstr "NtCreateFile")) 1 (Monitored.start fun _ => guestVm) = .ok m ∧
    IsRun (MonStep noExtract 1) (Monitoring.start m) tr ∧
    (final (Monitoring.start m) tr).mon.reports.length = 1 ∧
    ∃ listed : List Policy, listed.Perm (policies.entries.map Sigma.snd) ∧
      ∃ tr', IsRun (PolicyStep listed noExtract 1) (Monitoring.startPolicies m) tr' ∧
        tr'.map Prod.fst = tr.map Prod.fst ∧
        (final (Monitoring.start m) tr).vms = (final (Monitoring.startPolicies m) tr').vms ∧
        (final (Monitoring.start m) tr).mon.reports =
          (final (Monitoring.startPolicies m) tr').mon.reports := by
  obtain ⟨⟨policies, m, tr⟩, hcreation, hlen⟩ := exists_ok (x := creation)
    (f := fun r => (final (Monitoring.start r.2.1) r.2.2).mon.reports.length) (b := 1)
    (by decide +kernel)
  obtain ⟨-, hset, htr⟩ := creation_run hcreation
  exact ⟨policies.table, m, tr, hset, htr, hlen, monitors_refine hset htr⟩

end Hfm

import Hfm.Log
import Hfm.PolicyFile
import Hfm.Watcher.Lifecycle

/-!
# Entries of the log for the VMs

`src/main.c` gives each VM of the list an entry of the log, and `src/hfm.c` writes to it from the
first call on. Of the other functions only the lines that they write are taken.
-/

namespace Hfm

open Support

def VM_MAX : Nat := 10

/-- A call of `writelog` on behalf of a VM, with `logid` or with 0. -/
structure LogText where
  own : Bool
  level : Level
  message : CStr

/-- The members of `vmhdlr_t` that are used for the log. -/
structure LoggedVm where
  name : CStr
  logid : Int32

namespace LoggedVm

/-- The `int` is passed as an `unsigned int`. -/
def call (vm : LoggedVm) (text : LogText) : LogCall :=
  if text.own then ⟨.vm vm.name, vm.logid.toUInt32⟩ else ⟨.main, 0⟩

def write (vm : LoggedVm) (text : LogText) : LogM Unit :=
  writelog (vm.call text).caller (vm.call text).id text.level text.message

end LoggedVm

/-! ### The lines of `hfm_init` -/

/-- The lines that the functions called by `hfm_init` write themselves: `xen_init_interface` where
it fails, `rekall_lookup`, `win_list_drives` and `out_init`. -/
structure InitLines where
  xenInit : CStr
  rekall : List (Level × CStr)
  drives : List (Level × CStr)
  outInit : List (Level × CStr)

def mainLine (line : Level × CStr) : LogText := ⟨false, line.1, line.2⟩
def ownLine (line : Level × CStr) : LogText := ⟨true, line.1, line.2⟩
def ownError (message : CStr) : LogText := ⟨true, .error, message⟩

def initVmiLog (ans : InitAnswers) (lines : InitLines) (name : CStr) : List LogText :=
  ⟨true, .info, cstr "Init VMI on domain " ++ name⟩ ::
    match ans.vmiInit with
    | .failure _ => [ownError (cstr "Failed to init LibVMI on domain " ++ name)]
    | .success =>
      if ans.checks .vmiInitPaging = false then
        [ownError (cstr "Failed to init LibVMI paging on domain " ++ name)]
      else if ans.checks .vmiInitOs = false then
        [ownError (cstr "Failed to init LibVMI library on domain " ++ name)]
      else if ans.checks .libxlNameToDomid = false then
        [ownError (cstr "Domain is not running, failed to get domID from name " ++ name ++ cstr "!")]
      else if (registerStepEvents ans.vcpus).all ans.checks = false then
        [ownError (cstr "Failed to register singlestep for vCPU on " ++ name)]
      else
        lines.drives.map ownLine ++
          -- this failure is only logged
          (if ans.checks .vmiRegisterInterruptEvent then []
            else [ownError (cstr "Failed to register interrupt event on " ++ name)]) ++
          (if ans.checks .vmiRegisterMemEvent then []
            else [ownError (cstr "Failed to register generic mem event on " ++ name)])

def setupAltp2mLog (ans : InitAnswers) (name : CStr) : List LogText :=
  if ans.checks .vmiSlatSetDomainState = false then
    [ownError (cstr "Failed to enable altp2m on domain " ++ name)]
  else if ans.checks .vmiSlatCreate = false then
    [ownError (cstr "Failed to create altp2m view idx on domain " ++ name)]
  else if ans.checks .vmiSlatSwitch = false then
    [ownError (cstr "Failed to switch to altp2m idx view on domain " ++ name)]
  else []

/-- The calls of `writelog` from `hfm_init`, in their order. -/
def hfmInitLog (ans : InitAnswers) (lines : InitLines) (name : CStr) : List LogText :=
  if ans.xen = false then
    [mainLine (.error, lines.xenInit), ownError (cstr "Failed to init XEN on domain " ++ name)]
  else
    lines.rekall.map mainLine ++ initVmiLog ans lines name ++
      if (initVmi ans .empty).2 = .fail then []
      else
        setupAltp2mLog ans name ++
          if setupAltp2m.all ans.checks = false then []
          else if ans.tmInit = false then
            [ownError (cstr "Failed to init trap manager on domain " ++ name)]
          else lines.outInit.map mainLine

/-! ### The start of the program -/

/-- What the start depends on: the level of the build, the settings, and for each name of the list
whether its file opens and what `hfm_init` comes to. -/
structure LogInputs where
  level : Level
  logDir : Option CStr
  mainOpens : Bool
  policyFile : Bool
  vmlist : Option CStr
  opens : Nat → Bool
  init : Nat → InitAnswers
  lines : Nat → InitLines

namespace LogInputs

variable (i : LogInputs)

/-- Whether the VM of a name comes to be monitored. -/
def starts (k : Nat) : Bool := (hfmInit (i.init k) .empty).2 = .success

/-- What the loop of `_init_vms` does with the name numbered `k`. -/
def initVm (name : CStr) (k : Nat) : LogM LoggedVm := do
  let logid ← logAddEntry name (i.opens k)
  let vm : LoggedVm := ⟨name, logid⟩
  (hfmInitLog (i.init k) (i.lines k) name).forM vm.write
  if i.starts k then return vm
  else do
    writelog .main 0 .error (cstr "Failed to init domain " ++ name)
    return vm

/-- The loop of `_init_vms`. -/
def initVmsLoop : Nat → CStr → Nat → List LoggedVm → LogM (List LoggedVm)
  | 0, _, _, vms => return vms
  | fuel + 1, s, k, vms =>
    match strtok s (cstr ",") with
    | (none, _) => return vms
    | (some token, rest) =>
      if VM_MAX ≤ vms.length then do
        writelog .main 0 .warn (cstr "Number of VMs exceed the quota (10). Ignore the others")
        return vms
      else do
        let vm ← i.initVm token k
        initVmsLoop fuel rest (k + 1) (if i.starts k then vms ++ [vm] else vms)

/-- `_init_vms`. A list that fills `s` leaves no NUL in it. -/
def initVms (vmlist : CStr) : LogM (List LoggedVm) :=
  if vmlist.length < STR_BUFF then i.initVmsLoop (vmlist.length + 1) vmlist 0 []
  else throw .outOfBounds

def startPolicies : LogM Unit :=
  if i.policyFile then return ()
  else writelog .main 0 .warn (cstr "No policy file specified")

def startVms : LogM (List LoggedVm) :=
  match i.vmlist with
  | none => do
    writelog .main 0 .fatal (cstr "No vmlist specified")
    return []
  | some vmlist => i.initVms vmlist

/-- `main`, from the policies to the VMs. -/
def startUp : LogM (List LoggedVm) := do
  i.startPolicies
  i.startVms

/-- The log with its first entry, by the setting `log-dir`. -/
def openLog : Except Fault Logger :=
  match i.logDir with
  | some logDir => Logger.logInit i.level .textfile logDir i.mainOpens
  | none => Logger.logInit i.level .console [] i.mainOpens

/-- A call of `writelog` while a VM is monitored. -/
def monitorCall (vms : List LoggedVm) (e : Nat × LogText) : LogM Unit :=
  match vms[e.1]? with
  | none => return ()
  | some vm => vm.write e.2

/-- The log after the start and the calls `events`, which the threads make in any order. -/
def run (events : List (Nat × LogText)) : Except Fault Logger := do
  let l ← i.openLog
  let (vms, l) ← i.startUp.run l
  let (_, l) ← (events.forM (monitorCall vms)).run l
  return l

/-! ### Enough entries -/

/-- The start and all calls come to their end, with valid ids. -/
def IdsRight (events : List (Nat × LogText)) : Prop := ∃ l, i.run events = .ok l ∧ l.IdsValid

/-- The VMs that are monitored of the names in front of the one numbered `k`. -/
def startedBefore (k : Nat) : Nat := (List.range k).countP i.starts

/-- There is an entry left for the name numbered `k`, and its file opens if it has one. -/
def EntryFits (name : CStr) (k : Nat) : Prop :=
  k + 1 < Logger.MAX ∧ ∀ logDir, i.logDir = some logDir →
    (logDir ++ cstr "/" ++ name ++ cstr ".log").length < 1024 ∧ i.opens k = true

def isComma (c : UInt8) : Bool := (cstr ",").contains c

/-- The list fits the buffer it is copied to, and there is an entry for each name that the loop
comes to before it has enough VMs. -/
structure EntriesSuffice : Prop where
  mainLog : ∀ logDir, i.logDir = some logDir →
    (logDir ++ cstr "/" ++ Logger.MAINLOG).length < 1024
  length : ∀ vmlist, i.vmlist = some vmlist → vmlist.length < STR_BUFF
  entries : ∀ vmlist, i.vmlist = some vmlist → ∀ k name, (tokens isComma vmlist)[k]? = some name →
    i.startedBefore k < VM_MAX → i.EntryFits name k

end LogInputs

/-! ### Calls for a VM -/

section Write

variable {l l' : Logger} {vm : LoggedVm}

/-- The VM has an entry of its own. -/
def LoggedVm.Known (vm : LoggedVm) (l : Logger) : Prop :=
  l.Valid ⟨.vm vm.name, vm.logid.toUInt32⟩ ∧ 0 < l.entryCount

lemma LoggedVm.Known.call (h : vm.Known l) (text : LogText) : l.Valid (vm.call text) := by
  unfold LoggedVm.call
  split
  · exact h.1
  · exact Logger.valid_main h.2

lemma Logger.SameTable.known (hsame : l.SameTable l') (h : vm.Known l) : vm.Known l' :=
  ⟨(hsame.valid_iff _).mpr h.1, by rw [hsame.entryCount]; exact h.2⟩

/-- A valid call more. -/
lemma Logger.SameTable.idsValid (hsame : l.SameTable l') {calls : List LogCall}
    (hcalls : l'.calls = l.calls ++ calls) :
    l'.IdsValid ↔ l.IdsValid ∧ ∀ c ∈ calls, l.Valid c := by
  unfold Logger.IdsValid
  rw [hcalls]
  simp only [List.mem_append, hsame.valid_iff]
  constructor
  · exact fun h => ⟨fun c hc => h c (.inl hc), fun c hc => h c (.inr hc)⟩
  · rintro ⟨hold, hnew⟩ c (hc | hc)
    · exact hold c hc
    · exact hnew c hc

lemma writes_ok (h : vm.Known l) (texts : List LogText) :
    ∃ l', texts.forM vm.write l = .ok ((), l') ∧ l.SameTable l' ∧
      l'.calls = l.calls ++ texts.map vm.call := by
  induction texts generalizing l with
  | nil => exact ⟨l, rfl, .refl l, (List.append_nil _).symm⟩
  | cons text texts ih =>
    obtain ⟨l₁, hok, hsame, hcalls⟩ := writelog_ok l (vm.call text).caller text.level text.message
      (h.call text).1
    obtain ⟨l₂, hok₂, hsame₂, hcalls₂⟩ := ih (hsame.known h)
    refine ⟨l₂, ?_, hsame.trans hsame₂, ?_⟩
    · rw [← hok₂]
      exact bind_run hok fun _ => texts.forM vm.write
    · rw [hcalls₂, hcalls, List.append_assoc]
      rfl

lemma writes_called (texts : List LogText) : ∀ {l : Logger}, texts.forM vm.write l = .ok ((), l') →
    l.SameTable l' ∧ l'.calls = l.calls ++ texts.map vm.call := by
  induction texts with
  | nil =>
    intro l h
    cases h
    exact ⟨.refl _, (List.append_nil _).symm⟩
  | cons text texts ih =>
    intro l h
    change (vm.write text >>= fun _ => texts.forM vm.write) l = _ at h
    obtain ⟨⟨⟩, l₁, hok, h⟩ := bind_run_eq_ok.mp h
    obtain ⟨hsame, hcalls⟩ := writelog_called hok
    obtain ⟨hsame₂, hcalls₂⟩ := ih h
    refine ⟨hsame.trans hsame₂, ?_⟩
    rw [hcalls₂, hcalls, List.append_assoc]
    rfl

/-- `hfm_init` makes at least one call with the id of the VM. -/
lemma exists_own (ans : InitAnswers) (lines : InitLines) (name : CStr) :
    ∃ text ∈ hfmInitLog ans lines name, text.own = true := by
  unfold hfmInitLog
  split
  · exact ⟨_, List.mem_cons_of_mem _ List.mem_cons_self, rfl⟩
  · refine ⟨⟨true, .info, cstr "Init VMI on domain " ++ name⟩, ?_, rfl⟩
    apply List.mem_append_left
    apply List.mem_append_right
    exact List.mem_cons_self

end Write

namespace LogInputs

variable {i : LogInputs} {k : Nat} {vms : List LoggedVm} {l l' : Logger} {name : CStr}

/-- The log in front of the name numbered `k`, where each name has got its entry. -/
structure At (i : LogInputs) (k : Nat) (vms : List LoggedVm) (l : Logger) : Prop where
  logger : l.logger = if i.logDir.isSome then .textfile else .console
  logdir : ∀ logDir, i.logDir = some logDir → l.logdir = logDir
  entryCount : l.entryCount = k + 1
  room : k < Logger.MAX
  started : vms.length = i.startedBefore k
  known : ∀ vm ∈ vms, vm.Known l

lemma At.available_iff (h : i.At k vms l) (hfits : name.length < 1024) :
    l.Available name (i.opens k) ↔ i.EntryFits name k := by
  have hcount := h.entryCount
  cases hdir : i.logDir with
  | none =>
    have hlogger := h.logger
    rw [hdir] at hlogger
    constructor
    · intro havail
      have := havail.count
      exact ⟨by omega, fun _ hsome => by rw [hdir] at hsome; cases hsome⟩
    · intro hentry
      exact ⟨by rw [hcount]; exact hentry.1, hfits, fun htext => by rw [hlogger] at htext; cases htext⟩
  | some logDir =>
    have hlogger := h.logger
    rw [hdir] at hlogger
    have hlogdir := h.logdir logDir hdir
    constructor
    · intro havail
      have hfile := havail.file hlogger
      rw [hlogdir] at hfile
      have := havail.count
      refine ⟨by omega, fun dir hsome => ?_⟩
      rw [hdir] at hsome
      cases hsome
      exact hfile
    · intro hentry
      refine ⟨by rw [hcount]; exact hentry.1, hfits, fun _ => ?_⟩
      rw [hlogdir]
      exact hentry.2 logDir hdir

lemma startedBefore_succ (i : LogInputs) (k : Nat) :
    i.startedBefore (k + 1) = i.startedBefore k + if i.starts k then 1 else 0 := by
  unfold startedBefore
  rw [List.range_succ, List.countP_append, List.countP_singleton]

/-- The VM comes to be monitored, or this is logged. -/
lemma initVm_run {vm : LoggedVm} (h : i.initVm name k l = .ok (vm, l')) :
    ∃ l₁, logAddEntry name (i.opens k) l = .ok (vm.logid, l₁) ∧ vm.name = name ∧ l₁.SameTable l' ∧
      ∃ more, l'.calls =
        l₁.calls ++ (hfmInitLog (i.init k) (i.lines k) name).map vm.call ++ more := by
  obtain ⟨logid, l₁, hadd, h⟩ := bind_run_eq_ok.mp h
  obtain ⟨⟨⟩, l₂, hwrites, h⟩ := bind_run_eq_ok.mp h
  obtain ⟨hsame, hcalls⟩ := writes_called _ hwrites
  split at h
  · cases h
    exact ⟨l₁, hadd, rfl, hsame, [], by rw [hcalls, List.append_nil]⟩
  · obtain ⟨⟨⟩, l₃, hlog, h⟩ := bind_run_eq_ok.mp h
    obtain ⟨hsame', hcalls'⟩ := writelog_called hlog
    cases h
    exact ⟨l₁, hadd, rfl, hsame.trans hsame', _, by rw [hcalls', hcalls]⟩

lemma initVm_calls {vm : LoggedVm} (h : i.initVm name k l = .ok (vm, l')) : l.calls ⊆ l'.calls := by
  obtain ⟨l₁, hadd, -, -, more, hcalls⟩ := initVm_run h
  have hsub := logAddEntry_calls hadd
  rw [hcalls, List.append_assoc]
  exact fun c hc => List.mem_append_left _ (hsub hc)

/-- A name without an entry. -/
lemma At.initVm_invalid (h : i.At k vms l) (hfits : name.length < 1024)
    (hentry : ¬i.EntryFits name k) {vm : LoggedVm} (hok : i.initVm name k l = .ok (vm, l')) :
    ∃ c ∈ l'.calls, Logger.MAX ≤ c.id.toNat := by
  obtain ⟨l₁, hadd, -, -, more, hcalls⟩ := initVm_run hok
  have hid := (logAddEntry_unavailable (fun havail => hentry ((h.available_iff hfits).mp havail)) hadd).1
  obtain ⟨text, hmem, hown⟩ := exists_own (i.init k) (i.lines k) name
  refine ⟨vm.call text, ?_, ?_⟩
  · rw [hcalls]
    exact List.mem_append_left _ (List.mem_append_right _ (List.mem_map_of_mem hmem))
  · unfold LoggedVm.call
    rw [if_pos hown, hid]
    exact (by decide : Logger.MAX ≤ (-1 : Int32).toUInt32.toNat)

/-- A name with an entry. -/
lemma At.initVm_ok (h : i.At k vms l) (hfits : name.length < 1024) (hentry : i.EntryFits name k) :
    ∃ vm l', i.initVm name k l = .ok (vm, l') ∧
      i.At (k + 1) (if i.starts k then vms ++ [vm] else vms) l' ∧ (l.IdsValid → l'.IdsValid) := by
  have havail := (h.available_iff hfits).mpr hentry
  have hpos : 0 < l.entryCount := by
    rw [h.entryCount]
    exact Nat.succ_pos k
  have hadd := logAddEntry_ok havail
  obtain ⟨vm, hvm⟩ : ∃ vm : LoggedVm, vm = ⟨name, Int32.ofNat l.entryCount⟩ := ⟨_, rfl⟩
  have hknown : vm.Known (l.added name) := by
    rw [hvm]
    exact ⟨Logger.valid_added hpos havail.count, Nat.succ_pos _⟩
  have hvalid : l.IdsValid → (l.added name).IdsValid := fun hids c hc => (hids c hc).added name
  obtain ⟨l₁, hwrites, hsame, hcalls⟩ := writes_ok hknown (hfmInitLog (i.init k) (i.lines k) name)
  have hvalid₁ : l.IdsValid → l₁.IdsValid := by
    intro hids
    refine (hsame.idsValid hcalls).mpr ⟨hvalid hids, fun c hc => ?_⟩
    obtain ⟨text, -, rfl⟩ := List.mem_map.mp hc
    exact hknown.call text
  have hnext : ∀ l', (l.added name).SameTable l' →
      i.At (k + 1) (if i.starts k then vms ++ [vm] else vms) l' := by
    intro l' hsame'
    have hkept : ∀ vm' ∈ vms, vm'.Known l' := fun vm' hmem =>
      hsame'.known ⟨(h.known vm' hmem).1.added name, Nat.succ_pos _⟩
    refine ⟨hsame'.logger.trans h.logger, fun logDir hdir => hsame'.logdir.trans (h.logdir logDir hdir),
      ?_, hentry.1, ?_, ?_⟩
    · rw [hsame'.entryCount, ← h.entryCount]
      rfl
    · rw [startedBefore_succ, ← h.started]
      split
      · exact List.length_append
      · rfl
    · split
      · intro vm' hmem
        rw [List.mem_append, List.mem_singleton] at hmem
        rcases hmem with hmem | rfl
        · exact hkept vm' hmem
        · exact hsame'.known hknown
      · exact hkept
  have hrun : i.initVm name k l = (if i.starts k then pure vm
      else do
        writelog .main 0 .error (cstr "Failed to init domain " ++ name)
        return vm : LogM LoggedVm) l₁ := by
    rw [hvm]
    rw [hvm] at hwrites
    exact (bind_run hadd _).trans (bind_run hwrites _)
  rw [hrun]
  cases hstarts : i.starts k with
  | true =>
    rw [hstarts] at hnext
    exact ⟨vm, l₁, rfl, hnext l₁ hsame, hvalid₁⟩
  | false =>
    rw [hstarts] at hnext
    obtain ⟨l₂, hlog, hsame₂, hcalls₂⟩ := writelog_ok l₁ .main .error
      (cstr "Failed to init domain " ++ name) (by decide : (0 : UInt32).toNat < Logger.MAX)
    refine ⟨vm, l₂, bind_run hlog _, hnext l₂ (hsame.trans hsame₂), fun hids => ?_⟩
    refine (hsame₂.idsValid hcalls₂).mpr ⟨hvalid₁ hids, fun c hc => ?_⟩
    rw [List.mem_singleton.mp hc]
    refine Logger.valid_main ?_
    rw [hsame.entryCount]
    exact Nat.succ_pos _

/-! ### The loop -/

lemma strtok_comma {s token : CStr} {names : List CStr}
    (h : tokens isComma s = token :: names) :
    ∃ rest, strtok s (cstr ",") = (some token, rest) ∧ tokens isComma rest = names ∧
      rest.length < s.length ∧ token.length ≤ s.length := by
  obtain ⟨rest, hstrtok, hnames, -, hlt⟩ := strtok_some (p := isComma) (fun _ => rfl) h
  refine ⟨rest, hstrtok, hnames, hlt, ?_⟩
  unfold strtok at hstrtok
  dsimp only at hstrtok
  split at hstrtok
  · cases hstrtok
  · obtain rfl := Option.some_inj.mp (Prod.mk.inj hstrtok).1
    exact ((List.takeWhile_prefix _).length_le).trans (List.dropWhile_suffix _).length_le

lemma initVmsLoop_calls (i : LogInputs) (fuel : Nat) : ∀ {s : CStr} {k : Nat}
    {vms vms' : List LoggedVm} {l l' : Logger}, i.initVmsLoop fuel s k vms l = .ok (vms', l') →
      l.calls ⊆ l'.calls := by
  induction fuel with
  | zero =>
    intro s k vms vms' l l' h
    cases h
    exact List.Subset.refl _
  | succ fuel ih =>
    intro s k vms vms' l l' h
    rw [initVmsLoop] at h
    generalize strtok s (cstr ",") = next at h
    obtain ⟨token, rest⟩ := next
    cases token with
    | none =>
      cases h
      exact List.Subset.refl _
    | some token =>
      dsimp only at h
      split at h
      · obtain ⟨⟨⟩, l₁, hlog, h⟩ := bind_run_eq_ok.mp h
        cases h
        rw [(writelog_called hlog).2]
        exact List.subset_append_left _ _
      · obtain ⟨vm, l₁, hvm, h⟩ := bind_run_eq_ok.mp h
        exact List.Subset.trans (initVm_calls hvm) (ih h)

/-- The entries that the loop needs for the names from `k` on. -/
def EntriesFrom (i : LogInputs) (k : Nat) (names : List CStr) : Prop :=
  ∀ j name, names[j]? = some name → i.startedBefore (k + j) < VM_MAX → i.EntryFits name (k + j)

lemma startedBefore_mono (i : LogInputs) {k m : Nat} (h : k ≤ m) :
    i.startedBefore k ≤ i.startedBefore m :=
  (List.range_sublist.mpr h).countP_le

lemma entriesFrom_full (i : LogInputs) {k : Nat} (h : VM_MAX ≤ i.startedBefore k)
    (names : List CStr) : i.EntriesFrom k names := by
  intro j name _ hlt
  have := i.startedBefore_mono (Nat.le_add_right k j)
  omega

lemma entriesFrom_cons (i : LogInputs) {k : Nat} (h : i.startedBefore k < VM_MAX) (name : CStr)
    (names : List CStr) :
    i.EntriesFrom k (name :: names) ↔ i.EntryFits name k ∧ i.EntriesFrom (k + 1) names := by
  constructor
  · intro hentries
    refine ⟨hentries 0 name rfl h, fun j name' hname => ?_⟩
    rw [Nat.add_right_comm]
    exact hentries (j + 1) name' hname
  · rintro ⟨hhead, htail⟩ j name' hname
    cases j with
    | zero =>
      cases hname
      exact fun _ => hhead
    | succ j =>
      rw [← Nat.add_assoc, Nat.add_right_comm]
      exact htail j name' hname

/-- The start of VMs ends with valid ids exactly under `P`, and then each has an entry. -/
structure ValidWhen (P : Prop) (start : LogM (List LoggedVm)) (l : Logger) : Prop where
  of : P → ∃ vms l', start l = .ok (vms, l') ∧ l'.IdsValid ∧ ∀ vm ∈ vms, vm.Known l'
  only : ∀ vms l', start l = .ok (vms, l') → l'.IdsValid → P

lemma ValidWhen.iff {P Q : Prop} {start : LogM (List LoggedVm)} (h : ValidWhen P start l)
    (hPQ : P ↔ Q) : ValidWhen Q start l :=
  ⟨fun hQ => h.of (hPQ.mpr hQ), fun vms l' hok hids => hPQ.mp (h.only vms l' hok hids)⟩

lemma validWhen_ok {start : LogM (List LoggedVm)} (hok : start l = .ok (vms, l'))
    (hids : l'.IdsValid) (hknown : ∀ vm ∈ vms, vm.Known l') : ValidWhen True start l :=
  ⟨fun _ => ⟨vms, l', hok, hids, hknown⟩, fun _ _ _ _ => trivial⟩

lemma validWhen_error {start : LogM (List LoggedVm)} {f : Fault} (h : start l = .error f) :
    ValidWhen False start l := by
  refine ⟨False.elim, fun vms l' hok _ => ?_⟩
  rw [h] at hok
  cases hok

/-- A program that has an end in front. -/
lemma ValidWhen.bind {α : Type} {P : Prop} {x : LogM α} {f : α → LogM (List LoggedVm)} {a : α}
    (h : ValidWhen P (f a) l') (hx : x l = .ok (a, l')) : ValidWhen P (x >>= f) l :=
  ⟨fun hP => by rw [bind_run hx]; exact h.of hP,
    fun vms l'' hok hids => h.only vms l'' (by rw [← bind_run hx f]; exact hok) hids⟩

/-- A line for the program itself. -/
lemma At.mainCall (h : i.At k vms l) (hids : l.IdsValid) (level : Level) (message : CStr) :
    ∃ l', writelog .main 0 level message l = .ok ((), l') ∧ i.At k vms l' ∧ l'.IdsValid := by
  obtain ⟨l', hlog, hsame, hcalls⟩ := writelog_ok l .main level message
    (by decide : (0 : UInt32).toNat < Logger.MAX)
  refine ⟨l', hlog, ⟨hsame.logger.trans h.logger,
    fun logDir hdir => hsame.logdir.trans (h.logdir logDir hdir), hsame.entryCount.trans h.entryCount,
    h.room, h.started, fun vm hvm => hsame.known (h.known vm hvm)⟩, ?_⟩
  refine (hsame.idsValid hcalls).mpr ⟨hids, fun c hc => ?_⟩
  rw [List.mem_singleton.mp hc]
  refine Logger.valid_main ?_
  rw [h.entryCount]
  exact Nat.succ_pos k

/-- The loop is right exactly where it finds its entries. -/
lemma initVmsLoop_valid (i : LogInputs) (fuel : Nat) : ∀ {s : CStr} {names : List CStr} {k : Nat}
    {vms : List LoggedVm} {l : Logger}, tokens isComma s = names → s.length < fuel →
    s.length < STR_BUFF → i.At k vms l → l.IdsValid →
      ValidWhen (i.EntriesFrom k names) (i.initVmsLoop fuel s k vms) l := by
  induction fuel with
  | zero => exact fun _ h => absurd h (Nat.not_lt_zero _)
  | succ fuel ih =>
    intro s names k vms l hnames hfuel hlen hat hids
    rw [initVmsLoop]
    cases names with
    | nil =>
      rw [strtok_none (p := isComma) (fun _ => rfl) hnames]
      exact (validWhen_ok rfl hids hat.known).iff (iff_of_true trivial fun j name h => by cases h)
    | cons name names =>
      obtain ⟨rest, hstrtok, hrest, hlt, hname⟩ := strtok_comma hnames
      rw [hstrtok]
      dsimp only
      by_cases hfull : VM_MAX ≤ vms.length
      · rw [if_pos hfull]
        obtain ⟨l', hlog, hat', hids'⟩ := hat.mainCall hids .warn
          (cstr "Number of VMs exceed the quota (10). Ignore the others")
        have hentries := i.entriesFrom_full (by rw [← hat.started]; exact hfull) (name :: names)
        exact ValidWhen.iff ((validWhen_ok rfl hids' hat'.known).bind hlog)
          (iff_of_true trivial hentries)
      · rw [if_neg hfull]
        have hfits : name.length < 1024 := Nat.lt_of_le_of_lt hname hlen
        have hcons := i.entriesFrom_cons (by rw [← hat.started]; exact Nat.not_le.mp hfull) name names
        by_cases hentry : i.EntryFits name k
        · obtain ⟨vm, l₁, hvm, hat₁, hids₁⟩ := hat.initVm_ok hfits hentry
          have hloop := ih hrest (by omega) (by omega) hat₁ (hids₁ hids)
          have hnext : ValidWhen _ (i.initVm name k >>= fun vm =>
              i.initVmsLoop fuel rest (k + 1) (if i.starts k then vms ++ [vm] else vms)) l :=
            ValidWhen.bind (a := vm) hloop hvm
          exact hnext.iff (by rw [hcons, and_iff_right hentry])
        · refine ⟨fun h => absurd (hcons.mp h).1 hentry, fun vms' l' hok hids' => ?_⟩
          -- the id -1 is among the calls
          obtain ⟨vm, l₁, hvm, hok⟩ := bind_run_eq_ok.mp hok
          obtain ⟨c, hc, hge⟩ := hat.initVm_invalid hfits hentry hvm
          exact absurd (hids' c (i.initVmsLoop_calls fuel hok hc)).1 (Nat.not_lt.mpr hge)

/-! ### The whole run -/

lemma monitorCall_ok {vms : List LoggedVm} (h : ∀ vm ∈ vms, vm.Known l) (e : Nat × LogText) :
    ∃ l', monitorCall vms e l = .ok ((), l') ∧ l.SameTable l' ∧ (l.IdsValid → l'.IdsValid) := by
  unfold monitorCall
  cases hvm : vms[e.1]? with
  | none => exact ⟨l, rfl, .refl l, id⟩
  | some vm =>
    have hknown := h vm (List.mem_of_getElem? hvm)
    obtain ⟨l', hok, hsame, hcalls⟩ := writelog_ok l (vm.call e.2).caller e.2.level e.2.message
      (hknown.call e.2).1
    refine ⟨l', hok, hsame, fun hids => (hsame.idsValid hcalls).mpr ⟨hids, fun c hc => ?_⟩⟩
    rw [List.mem_singleton.mp hc]
    exact hknown.call e.2

lemma monitorCalls_ok {vms : List LoggedVm} (events : List (Nat × LogText)) : ∀ {l : Logger},
    (∀ vm ∈ vms, vm.Known l) → l.IdsValid →
      ∃ l', events.forM (monitorCall vms) l = .ok ((), l') ∧ l'.IdsValid := by
  induction events with
  | nil => exact fun _ hids => ⟨_, rfl, hids⟩
  | cons e events ih =>
    intro l h hids
    obtain ⟨l₁, hok, hsame, hids₁⟩ := monitorCall_ok h e
    obtain ⟨l₂, hok₂, hids₂⟩ := ih (fun vm hvm => hsame.known (h vm hvm)) (hids₁ hids)
    refine ⟨l₂, ?_, hids₂⟩
    rw [← hok₂]
    exact bind_run hok fun _ => events.forM (monitorCall vms)

/-- The calls made while VMs are monitored leave the entries as they are. -/
lemma monitorCalls_valid {vms : List LoggedVm} (events : List (Nat × LogText)) : ∀ {l l' : Logger},
    events.forM (monitorCall vms) l = .ok ((), l') → l'.IdsValid → l.IdsValid := by
  induction events with
  | nil =>
    intro l l' h hids
    cases h
    exact hids
  | cons e events ih =>
    intro l l' h hids
    change (monitorCall vms e >>= fun _ => events.forM (monitorCall vms)) l = _ at h
    obtain ⟨⟨⟩, l₁, hok, h⟩ := bind_run_eq_ok.mp h
    have hids₁ := ih h hids
    unfold monitorCall at hok
    generalize vms[e.1]? = vm at hok
    cases vm with
    | none =>
      cases hok
      exact hids₁
    | some vm =>
      obtain ⟨hsame, hcalls⟩ := writelog_called hok
      exact ((hsame.idsValid hcalls).mp hids₁).1

/-- The log in front of the first name. -/
lemma openLog_at (h : i.openLog = .ok l) : i.At 0 [] l ∧ l.IdsValid := by
  have hroom : 0 < Logger.MAX := by decide
  unfold openLog Logger.logInit at h
  cases hdir : i.logDir with
  | none =>
    rw [hdir] at h
    cases h
    refine ⟨⟨by rw [hdir]; rfl, fun _ hsome => ?_, rfl, hroom, rfl, fun _ h => by cases h⟩,
      fun _ h => by cases h⟩
    rw [hdir] at hsome
    cases hsome
  | some logDir =>
    rw [hdir] at h
    obtain ⟨filepath, -, h⟩ := bind_eq_ok.mp h
    cases h
    refine ⟨⟨by rw [hdir]; rfl, fun _ hsome => ?_, rfl, hroom, rfl, fun _ h => by cases h⟩,
      fun _ h => by cases h⟩
    rw [hdir] at hsome
    cases hsome
    rfl

lemma openLog_iff (i : LogInputs) : (∃ l, i.openLog = .ok l) ↔
    ∀ logDir, i.logDir = some logDir → (logDir ++ cstr "/" ++ Logger.MAINLOG).length < 1024 := by
  unfold openLog Logger.logInit
  cases i.logDir with
  | none => exact iff_of_true ⟨_, rfl⟩ fun _ h => by cases h
  | some logDir =>
    constructor
    · rintro ⟨l, h⟩ _ ⟨⟩
      obtain ⟨filepath, hprinted, -⟩ := bind_eq_ok.mp h
      exact (printed_eq_ok.mp hprinted).1
    · intro h
      exact ⟨_, bind_eq_ok.mpr ⟨_, printed_eq_ok.mpr ⟨h logDir rfl, rfl⟩, rfl⟩⟩

lemma initVms_valid (h : i.At 0 [] l) (hids : l.IdsValid) (vmlist : CStr) :
    ValidWhen (vmlist.length < STR_BUFF ∧ i.EntriesFrom 0 (tokens isComma vmlist))
      (i.initVms vmlist) l := by
  unfold initVms
  split
  · rename_i hlen
    have hloop := i.initVmsLoop_valid _ rfl (Nat.lt_succ_self _) hlen h hids
    exact hloop.iff (by rw [and_iff_right hlen])
  · rename_i hlen
    exact (validWhen_error rfl).iff (iff_of_false id fun h => hlen h.1)

/-- What the list needs. -/
def ListFits (i : LogInputs) : Prop :=
  ∀ vmlist, i.vmlist = some vmlist →
    vmlist.length < STR_BUFF ∧ i.EntriesFrom 0 (tokens isComma vmlist)

lemma startVms_valid (h : i.At 0 [] l) (hids : l.IdsValid) : ValidWhen i.ListFits i.startVms l := by
  unfold ListFits startVms
  cases i.vmlist with
  | none =>
    obtain ⟨l', hlog, hat', hids'⟩ := h.mainCall hids .fatal (cstr "No vmlist specified")
    exact ValidWhen.iff ((validWhen_ok rfl hids' hat'.known).bind hlog)
      (iff_of_true trivial fun _ hsome => by cases hsome)
  | some vmlist =>
    refine (initVms_valid h hids vmlist).iff ⟨fun h _ hsome => ?_, fun h => h vmlist rfl⟩
    cases hsome
    exact h

lemma startUp_valid (h : i.At 0 [] l) (hids : l.IdsValid) : ValidWhen i.ListFits i.startUp l := by
  obtain ⟨l', hlog, h', hids'⟩ : ∃ l', i.startPolicies l = .ok ((), l') ∧ i.At 0 [] l' ∧ l'.IdsValid := by
    unfold startPolicies
    split
    · exact ⟨l, rfl, h, hids⟩
    · exact h.mainCall hids .warn (cstr "No policy file specified")
  exact ValidWhen.bind (startVms_valid h' hids') hlog

lemma entriesSuffice_iff (i : LogInputs) : i.EntriesSuffice ↔ (∃ l, i.openLog = .ok l) ∧ i.ListFits := by
  unfold ListFits EntriesFrom
  simp only [Nat.zero_add]
  rw [i.openLog_iff]
  constructor
  · exact fun h => ⟨h.mainLog, fun vmlist hlist => ⟨h.length vmlist hlist, h.entries vmlist hlist⟩⟩
  · exact fun h => ⟨h.1, fun vmlist hlist => (h.2 vmlist hlist).1, fun vmlist hlist => (h.2 vmlist hlist).2⟩

/-- The ids are valid exactly if the entries suffice. -/
theorem log_ids_valid_iff (i : LogInputs) (events : List (Nat × LogText)) :
    i.IdsRight events ↔ i.EntriesSuffice := by
  rw [entriesSuffice_iff]
  constructor
  · rintro ⟨l, hrun, hids⟩
    unfold run at hrun
    obtain ⟨l₀, hopen, hrun⟩ := bind_eq_ok.mp hrun
    obtain ⟨⟨vms, l₁⟩, hstart, hrun⟩ := bind_eq_ok.mp hrun
    obtain ⟨⟨⟨⟩, l₂⟩, hmonitor, hrun⟩ := bind_eq_ok.mp hrun
    cases hrun
    obtain ⟨hat, hids₀⟩ := openLog_at hopen
    exact ⟨⟨l₀, hopen⟩, (startUp_valid hat hids₀).only vms l₁ hstart (monitorCalls_valid events hmonitor hids)⟩
  · rintro ⟨⟨l, hopen⟩, hlist⟩
    obtain ⟨hat, hids⟩ := openLog_at hopen
    obtain ⟨vms, l₁, hstart, hids₁, hknown⟩ := (startUp_valid hat hids).of hlist
    obtain ⟨l₂, hmonitor, hids₂⟩ := monitorCalls_ok events hknown hids₁
    refine ⟨l₂, ?_, hids₂⟩
    unfold run
    refine bind_eq_ok.mpr ⟨l, hopen, bind_eq_ok.mpr ⟨(vms, l₁), hstart, ?_⟩⟩
    exact bind_eq_ok.mpr ⟨((), l₂), hmonitor, rfl⟩

/-- One VM that starts, and whose log file does not open. -/
def unopened (level : Level) : LogInputs where
  level := level
  logDir := some (cstr "/var/log/hfm")
  mainOpens := true
  policyFile := true
  vmlist := some (cstr "windows")
  opens := fun _ => false
  init := fun _ => ⟨true, .success, fun _ => true, 1, 0, true, true⟩
  lines := fun _ => ⟨[], [], [], []⟩

/-- The -1 of `log_add_entry` is the id of all calls for the VM. A build that writes the first of
them reads behind `fps`. -/
theorem unopened_log_out_of_range :
    (∃ l, (unopened .error).run [] = .ok l ∧ ⟨.vm (cstr "windows"), 0xFFFFFFFF⟩ ∈ l.calls) ∧
      ¬(unopened .error).IdsRight [] ∧
      (unopened .info).run [] = .error .outOfBounds ∧ ¬(unopened .info).IdsRight [] := by
  obtain ⟨l, hrun, hcall⟩ : ∃ l, (unopened .error).run [] = .ok l ∧
      ⟨.vm (cstr "windows"), 0xFFFFFFFF⟩ ∈ l.calls := ⟨_, rfl, List.mem_cons_self⟩
  have hfault : (unopened .info).run [] = .error .outOfBounds := rfl
  refine ⟨⟨l, hrun, hcall⟩, ?_, hfault, ?_⟩
  · rintro ⟨l', hrun', hids⟩
    rw [hrun] at hrun'
    cases hrun'
    exact absurd (hids _ hcall).1 (by decide)
  · rintro ⟨l', hrun', -⟩
    rw [hfault] at hrun'
    cases hrun'

end LogInputs

end Hfm

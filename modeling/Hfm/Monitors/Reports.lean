import Hfm.Monitors.Callbacks
import Hfm.Monitors.Restarts

/-!
# What is reported

Every call of `send_output` is about a path that the filter of its monitor has matched, with
the identifier of a policy in the table; so are the parameters that wait in return traps.
-/

namespace Hfm

open Support

/-! ### What the callbacks keep -/

def Plugin.action : Plugin → Monitor
  | .fileCreated => .create
  | .fileDeleted => .delete
  | .fileModified => .modifyContent
  | .attrChanged => .changeAttr
  | .accessChanged => .changeAccess

lemma Monitor.plugin_eq_some {type : Monitor} {plugin : Plugin} :
    type.plugin = some plugin ↔ type = plugin.action := by
  cases type <;> cases plugin <;> simp [Monitor.plugin, Plugin.action]

/-- The policy of the identifier is one for the monitor, and accepts the path. -/
def Covers (table : GHashTable Int Policy) (plugin : Plugin) (id : Int) (path : CStr) : Prop :=
  ∃ policy, table.lookup id = some policy ∧ policy.type.plugin = some plugin ∧
    accepts policy.path path = true

/-- The parameters of a return callback are about a match. -/
def Extra.Fine (table : GHashTable Int Policy) : Extra → Prop
  | .create params => Covers table .fileCreated params.policyId params.matched
  | .modify params => Covers table .fileModified params.policyId params.matched
  | .access params => Covers table .accessChanged params.policyId params.matched
  | .indeterminate => True

/-- A call of `send_output` about a match, and the record it makes. -/
structure MonReport.Sound (vmnum : Nat) (table : GHashTable Int Policy) (r : MonReport) : Prop where
  vm : r.vm < vmnum
  covers : Covers table r.call.plugin r.call.policyId r.call.matched
  action : r.call.action = r.call.plugin.action
  policyId : r.info.policyId = Int32.ofInt r.call.policyId
  filepath : r.info.filepath.str = r.call.filename.str
  code : r.info.action = Monitor.create.code

/-- The filters hold policies of the table only. -/
structure MonState.Sound (vmnum : Nat) (table : GHashTable Int Policy) (s : MonState) : Prop where
  filters : ∃ history, Holding s.filters history ∧
    ∀ policy ∈ history, table.lookup policy.id = some policy
  reports : ∀ r ∈ s.reports, r.Sound vmnum table

section Callbacks

variable {vmnum : Nat} {table : GHashTable Int Policy} {env : MonEnv} {ctx : MonContext}

lemma guest_sound {α : Type} (x : ContextM α) :
    Triple (MonState.Sound vmnum table) (guest x) fun _ => MonState.Sound vmnum table :=
  Triple.zoom (fun _ _ h => ⟨h.filters, h.reports⟩) x

/-- A match of the filter comes from a policy of the table. -/
lemma filterMatchOf_sound (plugin : Plugin) (path : CStr) :
    Triple (MonState.Sound vmnum table) (filterMatchOf plugin path) fun id s =>
      s.Sound vmnum table ∧ (0 ≤ id → Covers table plugin id path) := by
  rintro s ⟨⟨history, hholding, hhistory⟩, hreports⟩ id s' hok
  unfold filterMatchOf at hok
  cases hfilter : s.filters plugin with
  | none =>
    rw [hfilter] at hok
    cases hok
  | some filter =>
    rw [hfilter] at hok
    obtain ⟨⟨id', filter'⟩, hmatch, hok⟩ := bind_eq_ok.mp hok
    cases hok
    have hentries : filter.entries = kept (addedTo plugin history) := by
      have := hholding plugin
      rwa [hfilter] at this
    obtain ⟨nodes?, hpath, -⟩ := bind_eq_ok.mp hmatch
    obtain ⟨filter₁, hmatch₁, hentries₁⟩ := filterMatch_eq filter hentries hpath
    rw [hmatch] at hmatch₁
    cases hmatch₁
    have hupdated : Holding (Function.update s.filters plugin (some filter')) history := by
      apply (Function.forall_update_iff s.filters fun other filter? =>
        (filter?.getD filterInit).entries = kept (addedTo other history)).mpr
      exact ⟨hentries₁, fun other _ => hholding other⟩
    refine ⟨⟨⟨history, hupdated, hhistory⟩, hreports⟩, fun hid => ?_⟩
    · unfold firstId at hid ⊢
      cases hfind : (addedTo plugin history).find? fun a => accepts a.1 path with
      | none =>
        rw [hfind] at hid
        simp at hid
      | some a =>
        obtain ⟨policy, hmem, hplugin, rfl⟩ := mem_addedTo.mp (List.mem_of_find?_eq_some hfind)
        have haccepts := List.find?_some hfind
        exact ⟨policy, hhistory policy hmem, hplugin, haccepts⟩

lemma sendOutput_sound (hvm : env.vm < vmnum) {call : SendCall}
    (hcovers : Covers table call.plugin call.policyId call.matched)
    (haction : call.action = call.plugin.action) :
    Triple (MonState.Sound vmnum table) (sendOutput env ctx call) fun _ =>
      MonState.Sound vmnum table := by
  unfold sendOutput
  refine Triple.bind (guest_sound _) fun curProcess => ?_
  refine Triple.bind (guest_sound _) fun pid => ?_
  refine Triple.bind (guest_sound _) fun sid => ?_
  refine Triple.bind (guest_sound _) fun ⟨timeSec, timeUsec⟩ => ?_
  refine Triple.bind (guest_sound _) fun extpath => ?_
  intro s hs a s' hok
  cases hok
  refine ⟨hs.filters, fun r hr => ?_⟩
  rcases List.mem_append.mp hr with hr | hr
  · exact hs.reports r hr
  · rw [List.mem_singleton.mp hr]
    exact ⟨hvm, hcovers, haction, rfl, rfl, rfl⟩

/-- What a callback keeps, and hands over. -/
def Keeps (vmnum : Nat) (table : GHashTable Int Policy) (x : MonM (Option Extra)) : Prop :=
  Triple (MonState.Sound vmnum table) x fun extra s =>
    s.Sound vmnum table ∧ ∀ e, extra = some e → e.Fine table

lemma keeps_none : Keeps vmnum table (pure none) :=
  Triple.pure fun _ hs => ⟨hs, by simp⟩

lemma keeps_some {e : Extra} (h : e.Fine table) : Keeps vmnum table (pure (some e)) := by
  refine Triple.pure fun _ hs => ⟨hs, fun e' he' => ?_⟩
  cases he'
  exact h

lemma keeps_send (hvm : env.vm < vmnum) {call : SendCall}
    (hcovers : Covers table call.plugin call.policyId call.matched)
    (haction : call.action = call.plugin.action) :
    Keeps vmnum table (sendOutput env ctx call >>= fun _ => pure none) :=
  Triple.bind (sendOutput_sound hvm hcovers haction) fun _ => keeps_none

lemma FileCreated.createfileCb_keeps : Keeps vmnum table (FileCreated.createfileCb ctx) := by
  refine Triple.bind (guest_sound _) fun ⟨objattrAddr, ioStatusAddr, createMode⟩ => ?_
  refine Triple.bind (guest_sound _) fun ⟨start, len⟩ => ?_
  refine Triple.bind (filterMatchOf_sound _ _) fun policyId => ?_
  refine Triple.assume fun hcovers => Triple.ite (fun hid => ?_) fun _ => keeps_none
  refine Triple.bind (Triple.lift _) fun filename => ?_
  exact keeps_some (hcovers hid)

lemma FileCreated.createfileRetCb_keeps (hvm : env.vm < vmnum)
    (hextra : ∀ e, ctx.trap.extra = some e → e.Fine table) :
    Keeps vmnum table (FileCreated.createfileRetCb env ctx) := by
  unfold FileCreated.createfileRetCb
  split
  · rename_i params heq
    refine Triple.bind (guest_sound _) fun information => ?_
    refine Triple.bind (guest_sound _) fun status => ?_
    refine Triple.ite (fun _ => ?_) fun _ => keeps_none
    exact keeps_send hvm (hextra _ heq) rfl
  · exact Triple.throw
  · exact Triple.throw

lemma FileCreated.setinformationCb_keeps : Keeps vmnum table (FileCreated.setinformationCb ctx) := by
  refine Triple.bind (guest_sound _) fun _ => ?_
  refine Triple.bind (guest_sound _) fun value => ?_
  refine Triple.pure fun s hs => ⟨hs, fun e he => ?_⟩
  split at he
  · cases he
  · cases he
    trivial

lemma FileDeleted.setinformationCb_keeps (hvm : env.vm < vmnum) :
    Keeps vmnum table (FileDeleted.setinformationCb env ctx) := by
  refine Triple.bind (guest_sound _) fun ⟨handle, fileinfoAddr, fileinfoClass⟩ => ?_
  refine Triple.ite (fun _ => ?_) fun _ => keeps_none
  refine Triple.bind (guest_sound _) fun ⟨fileObject, len, filename⟩ => ?_
  refine Triple.bind (filterMatchOf_sound _ _) fun policyId => ?_
  refine Triple.assume fun hcovers => Triple.ite (fun hid => ?_) fun _ => keeps_none
  refine Triple.bind (guest_sound _) fun delete => ?_
  refine Triple.ite (fun _ => ?_) fun _ => keeps_none
  exact keeps_send hvm (hcovers hid) rfl

lemma FileDeleted.createfileCb_keeps (hvm : env.vm < vmnum) :
    Keeps vmnum table (FileDeleted.createfileCb env ctx) := by
  refine Triple.bind (guest_sound _) fun ⟨objattrAddr, ioStatusAddr, create⟩ => ?_
  refine Triple.bind (guest_sound _) fun ⟨desiredAccess, createOptions⟩ => ?_
  refine Triple.ite (fun _ => ?_) fun _ => keeps_none
  refine Triple.bind (guest_sound _) fun ⟨start, len⟩ => ?_
  refine Triple.bind (filterMatchOf_sound _ _) fun policyId => ?_
  refine Triple.assume fun hcovers => Triple.ite (fun hid => ?_) fun _ => keeps_none
  exact keeps_send hvm (hcovers hid) rfl

lemma FileModified.writefileCb_keeps : Keeps vmnum table (FileModified.writefileCb ctx) := by
  refine Triple.bind (guest_sound _) fun ⟨handle, ioStatusAddr⟩ => ?_
  refine Triple.bind (guest_sound _) fun ⟨fileObject, len, filename⟩ => ?_
  refine Triple.ite (fun _ => keeps_none) fun _ => ?_
  refine Triple.bind (filterMatchOf_sound _ _) fun policyId => ?_
  refine Triple.assume fun hcovers => Triple.ite (fun hid => ?_) fun _ => keeps_none
  refine Triple.bind (Triple.lift _) fun copied => ?_
  exact keeps_some (hcovers hid)

lemma FileModified.writefileRetCb_keeps (hvm : env.vm < vmnum)
    (hextra : ∀ e, ctx.trap.extra = some e → e.Fine table) :
    Keeps vmnum table (FileModified.writefileRetCb env ctx) := by
  unfold FileModified.writefileRetCb
  split
  · rename_i params heq
    refine Triple.bind (guest_sound _) fun information => ?_
    refine Triple.ite (fun _ => ?_) fun _ => keeps_none
    exact keeps_send hvm (hextra _ heq) rfl
  · exact Triple.throw
  · exact Triple.throw

lemma AttrChanged.setinformationCb_keeps (hvm : env.vm < vmnum) :
    Keeps vmnum table (AttrChanged.setinformationCb env ctx) := by
  refine Triple.bind (guest_sound _) fun ⟨handle, fileinfoAddr, fileinfoClass⟩ => ?_
  refine Triple.ite (fun _ => ?_) fun _ => keeps_none
  refine Triple.bind (guest_sound _) fun fileAttributes => ?_
  refine Triple.bind (guest_sound _) fun ⟨_, _, filename⟩ => ?_
  refine Triple.bind (filterMatchOf_sound _ _) fun _ => Triple.assume fun _ => ?_
  refine Triple.ite (fun _ => ?_) fun _ => keeps_none
  refine Triple.bind (guest_sound _) fun ⟨_, _, filename⟩ => ?_
  refine Triple.bind (filterMatchOf_sound _ _) fun policyId => ?_
  refine Triple.assume fun hcovers => Triple.ite (fun hid => ?_) fun _ => keeps_none
  exact keeps_send hvm (hcovers hid) rfl

lemma AccessChanged.setsecurityCb_keeps : Keeps vmnum table (AccessChanged.setsecurityCb ctx) := by
  refine Triple.bind (guest_sound _) fun ⟨handle, securityInfo, securityDescAddr⟩ => ?_
  refine Triple.bind (guest_sound _) fun ⟨_, _, filename⟩ => ?_
  refine Triple.bind (filterMatchOf_sound _ _) fun policyId => ?_
  refine Triple.assume fun hcovers => Triple.ite (fun hid => ?_) fun _ => keeps_none
  refine Triple.bind (guest_sound _) fun detail => ?_
  exact keeps_some (hcovers (Int.le_of_lt hid))

lemma AccessChanged.setsecurityRetCb_keeps (hvm : env.vm < vmnum)
    (hextra : ∀ e, ctx.trap.extra = some e → e.Fine table) :
    Keeps vmnum table (AccessChanged.setsecurityRetCb env ctx) := by
  unfold AccessChanged.setsecurityRetCb
  split
  · rename_i params heq
    refine Triple.ite (fun _ => ?_) fun _ => keeps_none
    exact keeps_send hvm (hextra _ heq) rfl
  · exact Triple.throw
  · exact Triple.throw

/-- Every callback keeps the filters and the reports sound, on a trap with fine parameters. -/
theorem callback_keeps (hvm : env.vm < vmnum)
    (hextra : ∀ e, ctx.trap.extra = some e → e.Fine table) (cb : MonCb) :
    Keeps vmnum table (callback env ctx cb) := by
  cases cb with
  | fileCreated cb =>
    cases cb with
    | createfileCb => exact FileCreated.createfileCb_keeps
    | createfileRetCb => exact FileCreated.createfileRetCb_keeps hvm hextra
    | setinformationCb => exact FileCreated.setinformationCb_keeps
    | setinformationRetCb => exact keeps_none
  | fileDeleted cb =>
    cases cb with
    | setinformationCb => exact FileDeleted.setinformationCb_keeps hvm
    | createfileCb => exact FileDeleted.createfileCb_keeps hvm
    | setinformationRetCb => exact keeps_none
  | fileModified cb =>
    cases cb with
    | writefileCb => exact FileModified.writefileCb_keeps
    | writefileRetCb => exact FileModified.writefileRetCb_keeps hvm hextra
  | attrChanged cb =>
    cases cb with
    | setinformationCb => exact AttrChanged.setinformationCb_keeps hvm
    | setinformationRetCb => exact keeps_none
  | accessChanged cb =>
    cases cb with
    | setsecurityCb => exact AccessChanged.setsecurityCb_keeps
    | setsecurityRetCb => exact AccessChanged.setsecurityRetCb_keeps hvm hextra

end Callbacks

/-! ### The traps of a VM -/

/-- The parameters in the traps are fine. -/
def TrapsFine (fine : Extra → Prop) (vm : Vm MonCb Extra) : Prop :=
  ∃ reg, Registered vm reg ∧ ∀ t ∈ reg, ∀ e, t.extra = some e → fine e

section Traps

variable {fine : Extra → Prop} {vm vm' : Vm MonCb Extra}

lemma TrapsFine.congr (h : TrapsFine fine vm) (htm : vm'.tm = vm.tm) (hbrk : vm.brk ≤ vm'.brk) :
    TrapsFine fine vm' := by
  obtain ⟨reg, hreg, hfine⟩ := h
  exact ⟨reg, hreg.congr htm hbrk, hfine⟩

lemma TrapsFine.mono {fine' : Extra → Prop} (h : TrapsFine fine vm)
    (himp : ∀ e, fine e → fine' e) : TrapsFine fine' vm := by
  obtain ⟨reg, hreg, hfine⟩ := h
  exact ⟨reg, hreg, fun t ht e he => himp e (hfine t ht e he)⟩

lemma TrapsFine.monAddPolicy (h : TrapsFine fine vm) {filters filters' : Filters}
    {calls : CStr → SyscallCalls} {policy : Policy} {status : HfmStatus}
    (hok : monAddPolicy filters vm calls policy = .ok (status, filters', vm')) :
    TrapsFine fine vm' := by
  rw [monAddPolicy_eq] at hok
  cases hplugin : policy.type.plugin with
  | none =>
    rw [hplugin] at hok
    cases hok
    exact h
  | some plugin =>
    rw [hplugin] at hok
    obtain ⟨-, hinit, -⟩ := addPolicy_ok hok
    obtain ⟨vm₁, made, hinit₁, -, hreg', hmade, -⟩ := initMonitor_spec plugin vm calls
    rw [hinit] at hinit₁
    cases hinit₁
    obtain ⟨reg, hreg, hfine⟩ := h
    refine ⟨reg ++ made, hreg' reg hreg, fun t ht e he => ?_⟩
    rcases List.mem_append.mp ht with ht | ht
    · exact hfine t ht e he
    · obtain ⟨hook, -, hmade⟩ := hmade t ht
      rw [hmade] at he
      cases he

lemma Monitored.addAll_trapsFine (adds : List AddCall) : ∀ {m m' : Monitored Extra},
    m.addAll adds = .ok m' → (∀ i, TrapsFine fine (m.vms i)) → ∀ i, TrapsFine fine (m'.vms i) := by
  induction adds with
  | nil =>
    intro m m' hok h
    cases hok
    exact h
  | cons call rest ih =>
    intro m m' hok h
    obtain ⟨m₁, hadd, hok⟩ := bind_eq_ok.mp hok
    obtain ⟨⟨status, filters', vm'⟩, hmon, hadd⟩ := bind_eq_ok.mp hadd
    cases hadd
    apply ih hok
    apply (Function.forall_update_iff m.vms fun _ => TrapsFine fine).mpr
    exact ⟨(h call.vm).monAddPolicy hmon, fun i _ => h i⟩

lemma mainSetPolicies_trapsFine {table : GHashTable Int Policy} {order : Nat → ValueOrder} {calls : Nat → SetCalls}
    {vms : Nat → Vm MonCb Extra} (h : ∀ i, TrapsFine fine (vms i)) (vmnum : Nat) :
    ∀ {m : Monitored Extra},
      mainSetPolicies (some table) order calls vmnum (Monitored.start vms) = .ok m →
      ∀ i, TrapsFine fine (m.vms i) := by
  induction vmnum with
  | zero =>
    intro m hok
    cases hok
    exact h
  | succ n ih =>
    intro m hok
    obtain ⟨m₁, hmain, hok⟩ := bind_eq_ok.mp hok
    obtain ⟨m₂, hset, hok⟩ := bind_eq_ok.mp hok
    cases hok
    have hvms := Monitored.addAll_trapsFine _ hset (ih hmain)
    apply (Function.forall_update_iff m₂.vms fun _ => TrapsFine fine).mpr
    exact ⟨(hvms n).congr rfl (Nat.le_refl _), fun i _ => hvms i⟩

end Traps

end Hfm

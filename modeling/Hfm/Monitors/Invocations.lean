import Hfm.Lockstep
import Hfm.Monitors.PassedPath
import Hfm.Monitors.Reports

/-!
# What the guest asks for

`send_output` writes `MON_CREATE` whatever its argument is, and `createfile_cb` may keep less of a
path than it has matched. Whether one of the two shows is decided by what the guest asks for when
a callback is called: by the arguments and the memory of the system call, and by the filters.
-/

namespace Hfm

open Support

/-! ### Calls of the callbacks -/

/-- A call of a callback, with the state in which it is made. -/
structure Invocation where
  cb : MonCb
  ctx : MonContext
  mon : MonState

/-- The callbacks, with a list of their calls. -/
def loggedCallbacks (env : MonEnv) :
    Callbacks MonCb Extra (Except Fault MonState × List Invocation) :=
  fun cb vm trap event (base, s, log) =>
    let (extra, base', s') := monCallbacks env cb vm trap event (base, s)
    let called := s.toOption.map fun s => ⟨cb, ⟨event.regs, trap, vm.hdlr, env.calls⟩,
      { s with context := { s.context with processBase := base } }⟩
    (extra, base', s', log ++ called.toList)

/-- The filter of the monitor has a policy for the path. -/
def MonState.finds (s : MonState) (plugin : Plugin) (path : CStr) : Bool :=
  match s.filters plugin with
  | none => false
  | some filter =>
    match filterMatch filter path with
    | .ok (id, _) => 0 ≤ id
    | .error _ => false

/-- The file of a handle that is to be deleted. -/
def FileDeleted.disposed (ctx : MonContext) : ContextM (Option CStr) := do
  let (handle, fileinfoAddr, fileinfoClass) ← setinformationArgs ctx
  if fileinfoClass = FILE_DISPOSITION_INFORMATION then
    let (_, _, filename) ← readFilename ctx handle
    let delete ← hfmRead8 ctx (fileinfoAddr + ctx.hdlr.offsets .fileDispositionInformationDeleteFile)
    return if delete ≠ 0 then some filename.str else none
  else return none

/-- The file that is opened to be deleted. -/
def FileDeleted.openedForDelete (ctx : MonContext) : ContextM (Option CStr) := do
  return (← createfilePath ctx).map fun r => r.1.str

/-- The file of a handle whose attributes are set. -/
def AttrChanged.attributed (ctx : MonContext) : ContextM (Option CStr) := do
  let (handle, fileinfoAddr, fileinfoClass) ← setinformationArgs ctx
  if fileinfoClass = FILE_BASIC_INFORMATION then
    let fileAttributes ←
      hfmRead32 ctx (fileinfoAddr + ctx.hdlr.offsets .fileBasicInformationFileAttributes)
    let _ ← readFilename ctx handle
    if fileAttributes ≠ 0 then
      let (_, _, filename) ← readFilename ctx handle
      return some filename.str
    else return none
  else return none

namespace Invocation

variable (i : Invocation)

/-- No policy of the monitor is for the path that the guest asks to change. -/
def unmatched (plugin : Plugin) (asked : ContextM (Option CStr)) : Bool :=
  match asked i.mon.context with
  | .ok (some path, _) => !i.mon.finds plugin path
  | _ => true

/-- The path of an object to create, if a policy is for it, is not longer than what is kept. -/
def keepsWhole : Bool :=
  match FileCreated.createfilePath i.ctx i.mon.context with
  | .ok ((_, start, len), _) => !i.mon.finds .fileCreated start.str || start.str.length ≤ len + 1
  | .error _ => true

/-- The guest asks for no change that is to be reported but creations, and those are kept with
their whole paths. A change that was asked for before, and waits for its return, fails. -/
def blameless : Bool :=
  match i.cb with
  | .fileCreated .createfileCb => i.keepsWhole
  | .fileDeleted .setinformationCb => i.unmatched .fileDeleted (FileDeleted.disposed i.ctx)
  | .fileDeleted .createfileCb => i.unmatched .fileDeleted (FileDeleted.openedForDelete i.ctx)
  | .attrChanged .setinformationCb => i.unmatched .attrChanged (AttrChanged.attributed i.ctx)
  | .fileModified .writefileRetCb => !ntSuccess (regInt i.ctx.regs.rax)
  | .accessChanged .setsecurityRetCb => regInt i.ctx.regs.rax ≠ 0
  | _ => true

end Invocation

/-! ### What a blameless call leaves -/

/-- The argument `action` is `MON_CREATE`, and the path is the one that was matched. -/
def SendCall.Whole (call : SendCall) : Prop :=
  call.action = .create ∧ call.filename.str = call.matched

/-- The parameters of a creation have the path that was matched. -/
def Extra.Whole : Extra → Prop
  | .create params => params.filename.str = params.matched
  | _ => True

section Calls

variable {env : MonEnv} {ctx : MonContext} {s s' : MonState}

lemma guest_eq_ok {α : Type} {x : ContextM α} {a : α} (h : guest x s = .ok (a, s')) :
    ∃ context, x s.context = .ok (a, context) ∧ s' = { s with context } := by
  unfold guest zoom at h
  obtain ⟨r, hrun, h⟩ := map_eq_ok.mp h
  cases h
  exact ⟨r.2, hrun, rfl⟩

/-- A match moves the cursors of the filter only. -/
lemma filterMatchOf_ok {plugin : Plugin} {path : CStr} {id : Int}
    (h : filterMatchOf plugin path s = .ok (id, s')) :
    s'.reports = s.reports ∧ s'.context = s.context ∧ (0 ≤ id → s.finds plugin path = true) := by
  unfold filterMatchOf at h
  unfold MonState.finds
  cases hfilter : s.filters plugin with
  | none =>
    rw [hfilter] at h
    cases h
  | some filter =>
    rw [hfilter] at h
    obtain ⟨⟨id', filter'⟩, hmatch, h⟩ := bind_eq_ok.mp h
    cases h
    refine ⟨rfl, rfl, fun hid => ?_⟩
    dsimp only
    rw [hmatch]
    exact decide_eq_true hid

/-- An earlier match changes nothing in what a filter finds. -/
lemma finds_of_match {history : List Policy} (hholding : Holding s.filters history)
    {plugin : Plugin} {first path : CStr} {id : Int}
    (hmatch : filterMatchOf plugin first s = .ok (id, s')) (hfinds : s'.finds plugin path = true) :
    s.finds plugin path = true := by
  unfold filterMatchOf at hmatch
  unfold MonState.finds at hfinds ⊢
  cases hfilter : s.filters plugin with
  | none =>
    rw [hfilter] at hmatch
    cases hmatch
  | some filter =>
    rw [hfilter] at hmatch
    obtain ⟨⟨id', filter'⟩, hfirst, hmatch⟩ := bind_eq_ok.mp hmatch
    cases hmatch
    have hentries : filter.entries = kept (addedTo plugin history) := by
      have := hholding plugin
      rwa [hfilter] at this
    obtain ⟨nodes?, hpath, -⟩ := bind_eq_ok.mp hfirst
    obtain ⟨filter₁, hfirst₁, hentries'⟩ := filterMatch_eq filter hentries hpath
    rw [hfirst] at hfirst₁
    cases hfirst₁
    dsimp only at hfinds ⊢
    rw [Function.update_self] at hfinds
    dsimp only at hfinds
    cases hsecond : filterMatch filter' path with
    | error fault =>
      rw [hsecond] at hfinds
      cases hfinds
    | ok r =>
      obtain ⟨nodes?', hpath', -⟩ := bind_eq_ok.mp hsecond
      obtain ⟨filter₂, hsecond₂, -⟩ := filterMatch_eq filter' hentries' hpath'
      obtain ⟨filter₃, hsecond₃, -⟩ := filterMatch_eq filter hentries hpath'
      rw [hsecond₂] at hfinds
      rw [hsecond₃]
      exact hfinds

/-- What follows a blameless call: the records are as before or of whole creations, and so are the
parameters that are handed over. -/
def Leaves (s : MonState) (x : MonM (Option Extra)) : Prop :=
  ∀ extra s', x s = .ok (extra, s') →
    (∀ r ∈ s'.reports, r ∈ s.reports ∨ r.call.Whole) ∧ ∀ e, extra = some e → e.Whole

variable {α : Type}

lemma leaves_none : Leaves s (pure none) := by
  intro extra s' hok
  cases hok
  exact ⟨fun r hr => .inl hr, by simp⟩

lemma leaves_some {e : Extra} (h : e.Whole) : Leaves s (pure (some e)) := by
  intro extra s' hok
  cases hok
  refine ⟨fun r hr => .inl hr, fun e' he' => ?_⟩
  cases he'
  exact h

/-- A part that reports nothing. -/
lemma Leaves.bind {x : MonM α} {f : α → MonM (Option Extra)}
    (h : ∀ a s₁, x s = .ok (a, s₁) → s₁.reports = s.reports ∧ Leaves s₁ (f a)) :
    Leaves s (x >>= f) := by
  intro extra s' hok
  obtain ⟨a, s₁, hfirst, hrest⟩ := bind_run_eq_ok.mp hok
  obtain ⟨hreports, hleaves⟩ := h a s₁ hfirst
  rw [← hreports]
  exact hleaves extra s' hrest

lemma leaves_guest {x : ContextM α} {f : α → MonM (Option Extra)}
    (h : ∀ a context, x s.context = .ok (a, context) → Leaves { s with context } (f a)) :
    Leaves s (guest x >>= f) := by
  refine Leaves.bind fun a s₁ hok => ?_
  obtain ⟨context, hrun, rfl⟩ := guest_eq_ok hok
  exact ⟨rfl, h a context hrun⟩

/-- A match that is not to find anything. -/
lemma leaves_unmatched {plugin : Plugin} {path : CStr} {f : Int → MonM (Option Extra)}
    (h : ∀ id s₁, s₁.context = s.context → (0 ≤ id → s.finds plugin path = true) →
      Leaves s₁ (f id)) : Leaves s (filterMatchOf plugin path >>= f) := by
  refine Leaves.bind fun id s₁ hok => ?_
  obtain ⟨hreports, hcontext, hfinds⟩ := filterMatchOf_ok hok
  exact ⟨hreports, h id s₁ hcontext hfinds⟩

lemma sendOutput_whole {call : SendCall} (h : call.Whole) :
    Leaves s (sendOutput env ctx call >>= fun _ => pure none) := by
  intro extra s' hok
  obtain ⟨u, s₁, hsend, hok⟩ := bind_run_eq_ok.mp hok
  cases hok
  refine ⟨?_, by simp⟩
  unfold sendOutput at hsend
  obtain ⟨curProcess, s₂, hguest, hsend⟩ := bind_run_eq_ok.mp hsend
  obtain ⟨c₂, -, rfl⟩ := guest_eq_ok hguest
  obtain ⟨pid, s₃, hguest, hsend⟩ := bind_run_eq_ok.mp hsend
  obtain ⟨c₃, -, rfl⟩ := guest_eq_ok hguest
  obtain ⟨sid, s₄, hguest, hsend⟩ := bind_run_eq_ok.mp hsend
  obtain ⟨c₄, -, rfl⟩ := guest_eq_ok hguest
  obtain ⟨time, s₅, hguest, hsend⟩ := bind_run_eq_ok.mp hsend
  obtain ⟨c₅, -, rfl⟩ := guest_eq_ok hguest
  obtain ⟨extpath, s₆, hguest, hsend⟩ := bind_run_eq_ok.mp hsend
  obtain ⟨c₆, -, rfl⟩ := guest_eq_ok hguest
  cases hsend
  intro r hr
  rcases List.mem_append.mp hr with hr | hr
  · exact .inl hr
  · rw [List.mem_singleton.mp hr]
    exact .inr h

lemma leaves_throw {fault : Fault} : Leaves s (throw fault) := by
  intro extra s' hok
  cases hok

/-! ### The callbacks -/

lemma FileCreated.createfileCb_leaves
    (h : (⟨.fileCreated .createfileCb, ctx, s⟩ : Invocation).blameless = true) :
    Leaves s (FileCreated.createfileCb ctx) := by
  rw [FileCreated.createfileCb_eq]
  refine leaves_guest fun ⟨⟨ioStatusAddr, createMode⟩, start, len⟩ context hpath => ?_
  refine leaves_unmatched fun policyId s₁ hcontext hfinds => ?_
  by_cases hid : 0 ≤ policyId
  · have hlen : start.str.length ≤ len + 1 := by
      have hfound : s.finds .fileCreated start.str = true := hfinds hid
      simp only [Invocation.blameless, Invocation.keepsWhole, hpath, hfound, Bool.not_true,
        Bool.false_or, decide_eq_true_eq] at h
      exact h
    rw [if_pos hid]
    refine Leaves.bind fun filename s₂ hcopy => ?_
    unfold CharArray.strncpy at hcopy
    split at hcopy
    · cases hcopy
      refine ⟨rfl, leaves_some ?_⟩
      exact List.take_of_length_le hlen
    · cases hcopy
  · rw [if_neg hid]
    exact leaves_none

lemma FileCreated.createfileRetCb_leaves (hextra : ∀ e, ctx.trap.extra = some e → e.Whole) :
    Leaves s (FileCreated.createfileRetCb env ctx) := by
  unfold FileCreated.createfileRetCb
  split
  · rename_i params heq
    refine leaves_guest fun information c _ => leaves_guest fun status c' _ => ?_
    split
    · exact sendOutput_whole ⟨rfl, hextra _ heq⟩
    · exact leaves_none
  · exact leaves_throw
  · exact leaves_throw

lemma FileCreated.setinformationCb_leaves : Leaves s (FileCreated.setinformationCb ctx) := by
  refine leaves_guest fun _ c _ => leaves_guest fun value c' _ => ?_
  split
  · exact leaves_none
  · exact leaves_some trivial

/-- A path that is asked for is not found. -/
lemma not_finds_of_unmatched {cb : MonCb} {plugin : Plugin} {asked : ContextM (Option CStr)}
    (h : (⟨cb, ctx, s⟩ : Invocation).unmatched plugin asked = true) {path : CStr}
    {context : ContextState} (hasked : asked s.context = .ok (some path, context)) :
    ¬s.finds plugin path = true := by
  simp only [Invocation.unmatched, hasked, Bool.not_eq_true'] at h
  rw [h]
  exact Bool.false_ne_true

lemma FileDeleted.setinformationCb_leaves
    (h : (⟨.fileDeleted .setinformationCb, ctx, s⟩ : Invocation).blameless = true) :
    Leaves s (FileDeleted.setinformationCb env ctx) := by
  refine leaves_guest fun ⟨handle, fileinfoAddr, fileinfoClass⟩ c₁ hargs => ?_
  by_cases hclass : fileinfoClass = FILE_DISPOSITION_INFORMATION
  · dsimp only
    rw [if_pos hclass]
    refine leaves_guest fun ⟨fileObject, len, filename⟩ c₂ hname => ?_
    refine leaves_unmatched fun policyId s₁ hcontext hfinds => ?_
    by_cases hid : 0 ≤ policyId
    · rw [if_pos hid]
      refine leaves_guest fun delete c₃ hdelete => ?_
      by_cases hzero : delete = 0
      · rw [if_neg (not_not.mpr hzero)]
        exact leaves_none
      · -- the guest asks for it, and a policy is found
        have hdisposed : disposed ctx s.context = .ok (some filename.str, c₃) := by
          rw [hcontext] at hdelete
          unfold disposed
          rw [bind_run hargs]
          dsimp only
          rw [if_pos hclass, bind_run hname]
          dsimp only
          rw [bind_run hdelete, if_pos hzero]
          rfl
        exact absurd (hfinds hid) (not_finds_of_unmatched h hdisposed)
    · rw [if_neg hid]
      exact leaves_none
  · dsimp only
    rw [if_neg hclass]
    exact leaves_none

lemma FileDeleted.createfileCb_leaves
    (h : (⟨.fileDeleted .createfileCb, ctx, s⟩ : Invocation).blameless = true) :
    Leaves s (FileDeleted.createfileCb env ctx) := by
  rw [FileDeleted.createfileCb_eq]
  refine leaves_guest fun path context hpath => ?_
  cases path with
  | none => exact leaves_none
  | some r =>
    obtain ⟨start, len⟩ := r
    refine leaves_unmatched fun policyId s₁ hcontext hfinds => ?_
    by_cases hid : 0 ≤ policyId
    · have hopened : openedForDelete ctx s.context = .ok (some start.str, context) := by
        unfold openedForDelete
        rw [bind_run hpath]
        rfl
      exact absurd (hfinds hid) (not_finds_of_unmatched h hopened)
    · rw [if_neg hid]
      exact leaves_none

lemma FileModified.writefileCb_leaves : Leaves s (FileModified.writefileCb ctx) := by
  refine leaves_guest fun ⟨handle, ioStatusAddr⟩ c _ => ?_
  refine leaves_guest fun ⟨fileObject, len, filename⟩ c' _ => ?_
  dsimp only
  split
  · exact leaves_none
  · refine leaves_unmatched fun policyId s₁ _ _ => ?_
    split
    · refine Leaves.bind fun copied s₂ hcopy => ?_
      unfold CharArray.strncpy at hcopy
      split at hcopy <;> cases hcopy
      exact ⟨rfl, leaves_some trivial⟩
    · exact leaves_none

lemma FileModified.writefileRetCb_leaves
    (h : (⟨.fileModified .writefileRetCb, ctx, s⟩ : Invocation).blameless = true) :
    Leaves s (FileModified.writefileRetCb env ctx) := by
  have hfails : ntSuccess (regInt ctx.regs.rax) = false := by
    simpa [Invocation.blameless] using h
  unfold FileModified.writefileRetCb
  split
  · refine leaves_guest fun information c _ => ?_
    rw [hfails, if_neg Bool.false_ne_true]
    exact leaves_none
  · exact leaves_throw
  · exact leaves_throw

lemma AttrChanged.setinformationCb_leaves {history : List Policy}
    (hholding : Holding s.filters history)
    (h : (⟨.attrChanged .setinformationCb, ctx, s⟩ : Invocation).blameless = true) :
    Leaves s (AttrChanged.setinformationCb env ctx) := by
  refine leaves_guest fun ⟨handle, fileinfoAddr, fileinfoClass⟩ c₁ hargs => ?_
  by_cases hclass : fileinfoClass = FILE_BASIC_INFORMATION
  · dsimp only
    rw [if_pos hclass]
    refine leaves_guest fun fileAttributes c₂ hattr => ?_
    refine leaves_guest fun ⟨_, _, first⟩ c₃ hfirst => ?_
    refine Leaves.bind fun firstId s₁ hmatch => ?_
    obtain ⟨hreports, hcontext, -⟩ := filterMatchOf_ok hmatch
    refine ⟨hreports, ?_⟩
    by_cases hzero : fileAttributes = 0
    · rw [if_neg (not_not.mpr hzero)]
      exact leaves_none
    · rw [if_pos hzero]
      refine leaves_guest fun ⟨_, _, filename⟩ c₄ hname => ?_
      refine leaves_unmatched fun policyId s₂ _ hfinds => ?_
      by_cases hid : 0 ≤ policyId
      · have hattributed : attributed ctx s.context = .ok (some filename.str, c₄) := by
          rw [hcontext] at hname
          unfold attributed
          rw [bind_run hargs]
          dsimp only
          rw [if_pos hclass, bind_run hattr, bind_run hfirst, if_pos hzero, bind_run hname]
          rfl
        have hfound := finds_of_match (s := { s with context := c₃ }) hholding hmatch (hfinds hid)
        exact absurd hfound (not_finds_of_unmatched h hattributed)
      · rw [if_neg hid]
        exact leaves_none
  · dsimp only
    rw [if_neg hclass]
    exact leaves_none

lemma AccessChanged.setsecurityCb_leaves : Leaves s (AccessChanged.setsecurityCb ctx) := by
  refine leaves_guest fun ⟨handle, securityInfo, securityDescAddr⟩ c _ => ?_
  refine leaves_guest fun ⟨_, _, filename⟩ c' _ => ?_
  refine leaves_unmatched fun policyId s₁ _ _ => ?_
  split
  · exact leaves_guest fun detail c'' _ => leaves_some trivial
  · exact leaves_none

lemma AccessChanged.setsecurityRetCb_leaves
    (h : (⟨.accessChanged .setsecurityRetCb, ctx, s⟩ : Invocation).blameless = true) :
    Leaves s (AccessChanged.setsecurityRetCb env ctx) := by
  have hfails : regInt ctx.regs.rax ≠ 0 := by simpa [Invocation.blameless] using h
  unfold AccessChanged.setsecurityRetCb
  split
  · rw [if_neg hfails]
    exact leaves_none
  · exact leaves_throw
  · exact leaves_throw

/-- A blameless call of any callback makes records of whole creations only. -/
lemma callback_leaves {cb : MonCb} {history : List Policy} (hholding : Holding s.filters history)
    (hextra : ∀ e, ctx.trap.extra = some e → e.Whole)
    (h : (⟨cb, ctx, s⟩ : Invocation).blameless = true) : Leaves s (callback env ctx cb) := by
  cases cb with
  | fileCreated cb =>
    cases cb with
    | createfileCb => exact FileCreated.createfileCb_leaves h
    | createfileRetCb => exact FileCreated.createfileRetCb_leaves hextra
    | setinformationCb => exact FileCreated.setinformationCb_leaves
    | setinformationRetCb => exact leaves_none
  | fileDeleted cb =>
    cases cb with
    | setinformationCb => exact FileDeleted.setinformationCb_leaves h
    | createfileCb => exact FileDeleted.createfileCb_leaves h
    | setinformationRetCb => exact leaves_none
  | fileModified cb =>
    cases cb with
    | writefileCb => exact FileModified.writefileCb_leaves
    | writefileRetCb => exact FileModified.writefileRetCb_leaves h
  | attrChanged cb =>
    cases cb with
    | setinformationCb => exact AttrChanged.setinformationCb_leaves hholding h
    | setinformationRetCb => exact leaves_none
  | accessChanged cb =>
    cases cb with
    | setsecurityCb => exact AccessChanged.setsecurityCb_leaves
    | setsecurityRetCb => exact AccessChanged.setsecurityRetCb_leaves h

end Calls

end Hfm

import Hfm.Watcher.Lifecycle

/-!
# When the handles are used alive

The watcher takes a handle down when it releases it, until it has made the next one, and
`hfm_close` releases each for good. A call on a handle is proper where neither has happened.
-/

namespace Hfm

open Support

/-- The handles that the watcher has released or could not make, at a call of the restart. -/
def RestartAt.down : RestartAt → List HfmHandle
  | .xenFree | .vmiInit => [.vmi]
  | .xenInit => [.xen, .vmi]
  | .tmInit => [.trapManager]
  | .vmiCall _ _ | .tmDestroy | .setPolicies => []

/-- A restart that cannot make a handle stops there. -/
def lacking : Option HfmHandle → List HfmHandle
  | none => []
  | some .xen => [.xen, .vmi]
  | some .vmi => [.vmi]
  | some .trapManager => [.trapManager]

def CloseCall.releases : CloseCall → Option HfmHandle
  | .call _ => none
  | .tmDestroy => some .trapManager
  | .xenFreeInterface => some .xen
  | .vmiDestroy => some .vmi

/-- What `hfm_close` has not released yet. -/
def MonitorThread.toRelease : MonitorThread → List HfmHandle
  | .close c rest => (c :: rest).filterMap CloseCall.releases
  | .closed => []
  | _ => [.trapManager, .xen, .vmi]

namespace HandledVm

def down (s : HandledVm) : List HfmHandle :=
  match s.restart with
  | some pos => pos.down
  | none =>
    match s.watched.hdlr.state with
    | .shutdown | .booting => [.vmi]
    | _ => lacking s.missing

/-- `xen_free_interface` does nothing with the null pointer. -/
def xenHeld (s : HandledVm) : List HfmHandle := if s.handles.ptr .xen = 0 then [] else [.xen]

/-- The handles that an action calls on. -/
def touches (s : HandledVm) : HandleAction → List HfmHandle
  | .visit _ =>
    match s.watched.hdlr.state with
    | .running => if s.watched.hdlr.okay then [.vmi] else []
    | .destroy => [.vmi]
    | _ => []
  | .restart ans =>
    match s.restart with
    | some .xenFree => s.xenHeld
    | some (.vmiCall c _) => [c.handle]
    | some .tmDestroy => [.trapManager]
    | some .setPolicies => ans.policyCall.toList
    | _ => []
  | .listen => [.vmi]
  | .event k => [k]
  | .close =>
    match s.thread with
    | .close (.call c) _ => [c.handle]
    | .close .tmDestroy _ => [.trapManager]
    | .close .xenFreeInterface _ => s.xenHeld
    | .close .vmiDestroy _ => [.vmi]
    | _ => []
  | _ => []

/-- The action calls on handles only that are neither down nor released by `hfm_close`, and a
first `vmi_init` that fails leaves no instance. -/
def HandsOff (s : HandledVm) (a : HandleAction) : Prop :=
  (∀ k ∈ s.touches a, k ∉ s.down ∧ k ∈ s.thread.toRelease) ∧
    ∀ ans policyCalls, a = .hfmInit ans policyCalls → ans.xen = true →
      ans.vmiInit ≠ .failure true

/-- Every call found its handle alive, and at the end each handle was released once. -/
structure UsedAlive (s : HandledVm) : Prop where
  proper : ProperUse s.handles.log
  released : s.thread = .closed ∨ s.thread = .failed → ∀ k n, .create k n ∈ s.handles.log →
    s.handles.log.count (.release k n) = 1

end HandledVm

/-! ### `hfm_init` -/

section Init

variable {h : HfmHandles} {up : HfmHandle → Prop}

lemma checked_tracks (ok : ApiCall → Bool) (calls : List ApiCall) (hcalls : ∀ c ∈ calls, up c.handle)
    (ht : h.Tracks up) : (HfmHandles.checked ok h calls).1.Tracks up := by
  induction calls generalizing h with
  | nil => exact ht
  | cons c calls ih =>
    have hc := ht.use (hcalls c List.mem_cons_self)
    rw [HfmHandles.checked]
    split
    · exact ih (fun c hc => hcalls c (List.mem_cons_of_mem _ hc)) hc
    · exact hc

lemma call_tracks (calls : List ApiCall) (hcalls : ∀ c ∈ calls, up c.handle) (ht : h.Tracks up) :
    (HfmHandles.call h calls).Tracks up := by
  refine ht.uses fun k hk => ?_
  obtain ⟨c, hc, rfl⟩ := List.mem_map.mp hk
  exact hcalls c hc

lemma xenFree_tracks (ht : h.Tracks up) (hup : up .xen) :
    (HfmHandles.xenFreeInterface h).Tracks fun k => up k ∧ k ≠ .xen := by
  unfold HfmHandles.xenFreeInterface
  rw [if_neg (Nat.pos_iff_ne_zero.mp (ht.ptr_pos hup))]
  exact ht.release hup

lemma vmiDestroy_tracks (ht : h.Tracks (· ≠ .trapManager)) : (h.release .vmi).Tracks (· = .xen) := by
  apply (ht.release (k := .vmi) (by decide)).congr
  intro k
  cases k <;> simp

lemma registerStepEvents_handle (vcpus : Nat) :
    ∀ c ∈ .libxlNameToDomid :: registerStepEvents vcpus, c.handle ≠ .trapManager := by
  intro c hc
  rcases List.mem_cons.mp hc with rfl | hc
  · decide
  · obtain ⟨vcpu, -, rfl⟩ := List.mem_map.mp hc
    exact HfmHandle.noConfusion

lemma reads_handle (reads : Nat) :
    ∀ c ∈ List.replicate reads .vmiRead ++ [.vmiRegisterInterruptEvent],
      ApiCall.handle c ≠ .trapManager := by
  intro c hc
  rcases List.mem_append.mp hc with hc | hc
  · rw [List.eq_of_mem_replicate hc]
    decide
  · rw [List.mem_singleton.mp hc]
    decide

lemma initVmi_tracks (ans : InitAnswers) (ht : h.Tracks (· = .xen)) :
    ((initVmi ans h).2 = .success ∧ (initVmi ans h).1.Tracks (· ≠ .trapManager)) ∨
    ((initVmi ans h).2 = .fail ∧
      (initVmi ans h).1.Tracks fun k => k = .xen ∨ (k = .vmi ∧ ans.vmiInit = .failure true)) := by
  have hmade : (h.create .vmi).Tracks (· ≠ .trapManager) := by
    apply (ht.create (k := .vmi) (by decide)).congr
    intro k
    cases k <;> simp
  unfold initVmi
  cases hinit : ans.vmiInit with
  | failure vmi =>
    right
    refine ⟨rfl, ?_⟩
    cases vmi with
    | false => exact ht.congr fun k => by simp
    | true => exact hmade.congr fun k => by cases k <;> simp
  | success =>
    have hfail : ∀ {h : HfmHandles}, h.Tracks (· ≠ .trapManager) →
        (h.release .vmi).Tracks fun k => k = .xen ∨ (k = .vmi ∧ VmiInit.success = .failure true) :=
      fun ht => (vmiDestroy_tracks ht).congr fun k => by simp
    dsimp only
    have hos := checked_tracks ans.checks [.vmiInitPaging, .vmiInitOs] (by decide) hmade
    split
    · rename_i hchecked
      rw [hchecked] at hos
      exact .inr ⟨rfl, hfail hos⟩
    · rename_i hchecked
      rw [hchecked] at hos
      have hmode := call_tracks
        [.vmiGetPageMode, .vmiGetNumVcpus, .vmiGetMemsize, .vmiGetWinver] (by decide) hos
      have hstep := checked_tracks ans.checks _ (registerStepEvents_handle ans.vcpus) hmode
      split
      · rename_i hchecked
        rw [hchecked] at hstep
        exact .inr ⟨rfl, hfail hstep⟩
      · rename_i hchecked
        rw [hchecked] at hstep
        have hmem := checked_tracks ans.checks [.vmiRegisterMemEvent] (by decide)
          (call_tracks _ (reads_handle ans.reads) hstep)
        split
        · rename_i hchecked
          rw [hchecked] at hmem
          exact .inr ⟨rfl, hfail hmem⟩
        · rename_i hchecked
          rw [hchecked] at hmem
          exact .inl ⟨rfl, hmem⟩

/-- The end of every failure behind `_init_vmi`. -/
lemma closeVmi_tracks (ht : h.Tracks (· ≠ .trapManager)) :
    (HfmHandles.xenFreeInterface (h.release .vmi)).Tracks fun _ => False :=
  (xenFree_tracks (vmiDestroy_tracks ht) rfl).congr fun k => by simp

/-- A failed `hfm_init` has released all that it made, but for the instance that a failed
`vmi_init` left. -/
lemma hfmInit_tracks (ans : InitAnswers) :
    ((hfmInit ans .empty).2 = .success ∧ (hfmInit ans .empty).1.Tracks fun _ => True) ∨
    ((hfmInit ans .empty).2 = .fail ∧ (hfmInit ans .empty).1.Tracks fun k =>
      k = .vmi ∧ ans.xen = true ∧ ans.vmiInit = .failure true) := by
  have hempty := Handles.tracks_empty (κ := HfmHandle)
  unfold hfmInit
  by_cases hxen : ans.xen = false
  · rw [if_pos hxen]
    refine .inr ⟨rfl, ?_⟩
    apply (hempty.null (k := .xen) not_false).congr
    simp [hxen]
  · rw [if_neg hxen]
    have hmade : (Handles.empty.create HfmHandle.xen).Tracks (· = .xen) :=
      (hempty.create (k := .xen) not_false).congr fun k => by simp
    have hinit := initVmi_tracks ans hmade
    split
    · rename_i heq
      rw [heq] at hinit
      obtain ⟨habs, -⟩ | ⟨-, hinit⟩ := hinit
      · cases habs
      · refine .inr ⟨rfl, (xenFree_tracks hinit (.inl rfl)).congr fun k => ?_⟩
        cases k <;> simp [hxen]
    · rename_i heq
      rw [heq] at hinit
      obtain ⟨-, hinit⟩ | ⟨habs, -⟩ := hinit
      swap
      · cases habs
      have hsuccess : ans.vmiInit ≠ .failure true := by
        intro hfailure
        unfold initVmi at heq
        rw [hfailure] at heq
        cases heq
      have hfail : ∀ {h : HfmHandles}, h.Tracks (· ≠ .trapManager) →
          (HfmHandles.xenFreeInterface (h.release .vmi)).Tracks fun k =>
            k = .vmi ∧ ans.xen = true ∧ ans.vmiInit = .failure true :=
        fun ht => (closeVmi_tracks ht).congr fun k => by simp [hsuccess]
      have haltp2m := checked_tracks ans.checks setupAltp2m (by decide) hinit
      split
      · rename_i hchecked
        rw [hchecked] at haltp2m
        exact .inr ⟨rfl, hfail haltp2m⟩
      · rename_i h₁ hchecked
        rw [hchecked] at haltp2m
        by_cases htm : ans.tmInit = false
        · rw [if_pos htm]
          have hnull : (h₁.null .trapManager).Tracks (· ≠ .trapManager) :=
            haltp2m.null (k := .trapManager) (by decide)
          exact .inr ⟨rfl, hfail (call_tracks resetAltp2m (by decide) hnull)⟩
        · rw [if_neg htm]
          have hall : (h₁.create .trapManager).Tracks fun _ => True :=
            (haltp2m.create (k := .trapManager) (by decide)).congr fun k => by cases k <;> simp
          dsimp only
          split
          · have hreset : ((h₁.create .trapManager).release .trapManager).Tracks (· ≠ .trapManager) :=
              (hall.release trivial).congr fun k => by simp
            exact .inr ⟨rfl, hfail (call_tracks resetAltp2m (by decide) hreset)⟩
          · exact .inl ⟨rfl, hall⟩

end Init

/-! ### The invariant -/

namespace HandledVm

/-- The kinds whose handle is alive. -/
def Up (s : HandledVm) (k : HfmHandle) : Prop := k ∉ s.down ∧ k ∈ s.thread.toRelease

/-- What holds between two actions of the threads of a VM. -/
structure Running (s : HandledVm) : Prop where
  tracks : s.handles.Tracks s.Up
  cb : s.watched.hdlr.restartCb.isSome = true
  okay : s.watched.hdlr.okay = true →
    s.watched.hdlr.state = .running ∨ s.watched.hdlr.state = .restarted
  restart : s.restart ≠ none →
    s.missing = none ∧ s.watched.hdlr.state = .booting ∧ s.watched.hdlr.bootDone = true
  missing : s.missing ≠ none → s.watched.hdlr.okay = false ∧
    (s.watched.hdlr.state = .running ∨ s.watched.hdlr.state = .restarted)
  xen : s.handles.ptr .xen = 0 → s.missing = some .xen
  apart : ∀ k ∈ s.down, k ∉ s.thread.toRelease → s.missing = some .xen ∧ k = .xen
  once : s.thread.toRelease.Nodup

lemma closing_toRelease (rest : List CloseCall) :
    (closing rest).toRelease = rest.filterMap CloseCall.releases := by
  cases rest <;> rfl

namespace Running

variable {s : HandledVm} (h : s.Running)
include h

lemma missing_none (hstate : s.watched.hdlr.state ≠ .running ∧ s.watched.hdlr.state ≠ .restarted) :
    s.missing = none := by
  by_contra hmissing
  rcases (h.missing hmissing).2 with heq | heq
  · exact hstate.1 heq
  · exact hstate.2 heq

lemma not_okay (hstate : s.watched.hdlr.state ≠ .running ∧ s.watched.hdlr.state ≠ .restarted) :
    s.watched.hdlr.okay = false := by
  cases hokay : s.watched.hdlr.okay with
  | false => rfl
  | true =>
    rcases h.okay hokay with heq | heq
    · exact absurd heq hstate.1
    · exact absurd heq hstate.2

/-- A VM whose handles stay as they are. -/
lemma of_watched (watched : WatchedVm) (restart : Option RestartAt)
    (hdown : ({ s with watched, restart } : HandledVm).down = s.down)
    (hcb : watched.hdlr.restartCb.isSome = true)
    (hokay : watched.hdlr.okay = true →
      watched.hdlr.state = .running ∨ watched.hdlr.state = .restarted)
    (hrestart : restart ≠ none →
      s.missing = none ∧ watched.hdlr.state = .booting ∧ watched.hdlr.bootDone = true)
    (hmissing : s.missing ≠ none → watched.hdlr.okay = false ∧
      (watched.hdlr.state = .running ∨ watched.hdlr.state = .restarted)) :
    ({ s with watched, restart } : HandledVm).Running where
  tracks := h.tracks.congr fun k => by
    unfold Up
    rw [hdown]
  cb := hcb
  okay := hokay
  restart := hrestart
  missing := hmissing
  xen := h.xen
  apart := by
    rw [hdown]
    exact h.apart
  once := h.once

lemma use {k : HfmHandle} (hk : s.Up k) :
    ({ s with handles := s.handles.use k } : HandledVm).Running :=
  ⟨h.tracks.use hk, h.cb, h.okay, h.restart, h.missing, h.xen, h.apart, h.once⟩

lemma visitShutdown (ans : VisitAnswers) (hrestart : s.restart = none)
    (hstate : s.watched.hdlr.state = .shutdown) : (s.visited ans).Running := by
  have hnot : s.watched.hdlr.state ≠ .running ∧ s.watched.hdlr.state ≠ .restarted := by
    simp [hstate]
  have hmissing := h.missing_none hnot
  have hokay := h.not_okay hnot
  have hdown : s.down = [.vmi] := by
    unfold down
    rw [hrestart, hstate]
  unfold visited
  rw [hstate]
  dsimp only
  rw [visitVm_shutdown _ ans hstate]
  split
  · exact h
  · apply h.of_watched _ s.restart
    · rw [hdown]
      unfold down
      rw [hrestart]
    · exact h.cb
    · intro hup
      rw [hokay] at hup
      cases hup
    · exact fun hne => absurd hrestart hne
    · exact fun hne => absurd hmissing hne

lemma visitBooting (ans : VisitAnswers) (hrestart : s.restart = none)
    (hstate : s.watched.hdlr.state = .booting) : (s.visited ans).Running := by
  have hnot : s.watched.hdlr.state ≠ .running ∧ s.watched.hdlr.state ≠ .restarted := by
    simp [hstate]
  unfold visited
  rw [hstate]
  dsimp only
  split
  · rename_i hdone
    apply h.of_watched s.watched
    · unfold down
      rw [hrestart, hstate]
      rfl
    · exact h.cb
    · exact h.okay
    · exact fun _ => ⟨h.missing_none hnot, hstate, hdone⟩
    · exact h.missing
  · rename_i hdone
    rw [visitVm_booting _ ans hstate (Bool.eq_false_iff.mpr hdone)]
    exact h

/-- `visit_vmi` pings a running VM that is okay. -/
lemma visitRunning (ans : VisitAnswers) (hrestart : s.restart = none)
    (hstate : s.watched.hdlr.state = .running)
    (hup : s.watched.hdlr.okay = true → s.Up .vmi) : (s.visited ans).Running := by
  unfold visited
  rw [hstate]
  dsimp only
  cases hokay : s.watched.hdlr.okay with
  | false =>
    rw [visitVm_running _ ans hstate, if_pos (.inl hokay), if_neg Bool.false_ne_true]
    exact h
  | true =>
    have hmissing : s.missing = none := by
      by_contra hne
      rw [(h.missing hne).1] at hokay
      cases hokay
    have hused := h.use (hup hokay)
    rw [if_pos rfl, visitVm_running _ ans hstate]
    split
    · exact hused
    · apply hused.of_watched _ s.restart
      · unfold down
        rw [hrestart, hstate, hmissing]
      · exact h.cb
      · intro hup
        cases hup
      · exact fun hne => absurd hrestart hne
      · exact fun hne => absurd hmissing hne

/-- `visit_vmi` releases the instance of a VM that went down. -/
lemma visitDestroy (ans : VisitAnswers) (hrestart : s.restart = none)
    (hstate : s.watched.hdlr.state = .destroy) (hvmi : s.Up .vmi) : (s.visited ans).Running := by
  have hnot : s.watched.hdlr.state ≠ .running ∧ s.watched.hdlr.state ≠ .restarted := by
    simp [hstate]
  have hmissing := h.missing_none hnot
  have hokay := h.not_okay hnot
  unfold visited
  rw [hstate]
  dsimp only
  rw [visitVm_destroy _ ans hstate]
  exact
    { tracks := by
        apply (h.tracks.release hvmi).congr
        intro k
        unfold Up down
        rw [hrestart, hstate, hmissing]
        simp [lacking, and_comm]
      cb := h.cb
      okay := fun hup => by
        rw [show _ = false from hokay] at hup
        cases hup
      restart := fun hne => absurd hrestart hne
      missing := fun hne => absurd hmissing hne
      xen := h.xen
      apart := fun k hk hnot => by
        unfold down at hk
        rw [hrestart, List.mem_singleton] at hk
        exact absurd (hk ▸ hvmi.2) hnot
      once := h.once }

lemma visitRestarted (ans : VisitAnswers) (hrestart : s.restart = none)
    (hstate : s.watched.hdlr.state = .restarted) : (s.visited ans).Running := by
  unfold visited
  rw [hstate]
  dsimp only
  rw [visitVm_restarted _ ans hstate]
  apply h.of_watched _ s.restart
  · unfold down
    rw [hrestart, hstate]
  · exact h.cb
  · exact fun _ => .inl rfl
  · exact fun hne => absurd hrestart hne
  · exact fun hne => ⟨(h.missing hne).1, .inl rfl⟩

lemma visit (ans : VisitAnswers) (hrestart : s.restart = none)
    (hup : ∀ k ∈ s.touches (.visit ans), s.Up k) : (s.visited ans).Running := by
  unfold touches at hup
  cases hstate : s.watched.hdlr.state with
  | shutdown => exact h.visitShutdown ans hrestart hstate
  | booting => exact h.visitBooting ans hrestart hstate
  | running =>
    apply h.visitRunning ans hrestart hstate
    intro hokay
    rw [hstate, hokay] at hup
    exact hup .vmi List.mem_cons_self
  | destroy =>
    rw [hstate] at hup
    exact h.visitDestroy ans hrestart hstate (hup .vmi List.mem_cons_self)
  | restarted => exact h.visitRestarted ans hrestart hstate

lemma bootThread (n : Nat) (vmi : Bool) :
    ({ s with watched := waitBootFc s.watched n vmi } : HandledVm).Running := by
  have hhdlr : (waitBootFc s.watched n vmi).hdlr = s.watched.hdlr ∨
      (waitBootFc s.watched n vmi).hdlr = { s.watched.hdlr with bootDone := true } := by
    unfold waitBootFc
    dsimp only
    split
    · exact .inr rfl
    · exact .inl rfl
  have hdown : ({ s with watched := waitBootFc s.watched n vmi } : HandledVm).down = s.down := by
    unfold down
    rcases hhdlr with heq | heq <;> rw [heq]
  apply h.of_watched _ s.restart hdown
  · rcases hhdlr with heq | heq <;> rw [heq] <;> exact h.cb
  · rcases hhdlr with heq | heq <;> rw [heq] <;> exact h.okay
  · intro hne
    obtain ⟨hmissing, hstate, hdone⟩ := h.restart hne
    rcases hhdlr with heq | heq <;> rw [heq]
    · exact ⟨hmissing, hstate, hdone⟩
    · exact ⟨hmissing, hstate, rfl⟩
  · rcases hhdlr with heq | heq <;> rw [heq] <;> exact h.missing

/-- `hfm_restart_vmi` returns with the handles that it could make. -/
lemma returned {result : Int} (handles : HfmHandles) (missing : Option HfmHandle)
    (hrestart : s.restart ≠ none) (hresult : missing ≠ none → result ≠ 0)
    (htracks : handles.Tracks fun k => k ∉ lacking missing ∧ k ∈ s.thread.toRelease)
    (hxen : handles.ptr .xen = 0 → missing = some .xen)
    (hapart : ∀ k ∈ lacking missing, k ∉ s.thread.toRelease → missing = some .xen ∧ k = .xen) :
    (({ s with handles, missing } : HandledVm).restarted result).Running := by
  obtain ⟨-, hstate, hdone⟩ := h.restart hrestart
  have hokay : s.watched.hdlr.okay = false := h.not_okay (by simp [hstate])
  have hvisit := visitVm_booted s.watched ⟨none, false, false, result⟩ hstate hdone
  rw [if_pos h.cb] at hvisit
  have hnext : (visitVm s.watched ⟨none, false, false, result⟩).hdlr.state = .restarted := by
    rw [hvisit]
  have hdown : (({ s with handles, missing } : HandledVm).restarted result).down = lacking missing := by
    unfold down restarted
    rw [hnext]
  exact
    { tracks := htracks.congr fun k => by
        unfold Up
        rw [hdown]
        rfl
      cb := by
        change (visitVm s.watched ⟨none, false, false, result⟩).hdlr.restartCb.isSome = true
        rw [hvisit]
        exact h.cb
      okay := fun _ => .inr hnext
      restart := fun hne => absurd rfl hne
      missing := fun hne => by
        refine ⟨?_, .inr hnext⟩
        change (visitVm s.watched ⟨none, false, false, result⟩).hdlr.okay = false
        rw [hvisit]
        dsimp only
        rw [if_neg (hresult hne)]
        exact hokay
      xen := hxen
      apart := by
        rw [hdown]
        exact hapart
      once := h.once }

end Running

/-- What a call of `hfm_restart_vmi` starts from. -/
structure Restarting (s : HandledVm) (pos : RestartAt) : Prop where
  running : s.Running
  restart : s.restart = some pos
  missing : s.missing = none
  down : s.down = pos.down
  xen : s.handles.ptr .xen ≠ 0
  apart : ∀ k ∈ pos.down, k ∈ s.thread.toRelease
  tracks : s.handles.Tracks fun k => k ∉ pos.down ∧ k ∈ s.thread.toRelease

lemma Running.restarting {s : HandledVm} (h : s.Running) {pos : RestartAt}
    (hpos : s.restart = some pos) : s.Restarting pos := by
  have hmissing : s.missing = none := (h.restart (by simp [hpos])).1
  have hdown : s.down = pos.down := by
    unfold HandledVm.down
    rw [hpos]
  refine ⟨h, hpos, hmissing, hdown, fun hzero => ?_, fun k hk => ?_, ?_⟩
  · rw [h.xen hzero] at hmissing
    cases hmissing
  · by_contra hnot
    have hsome := (h.apart k (hdown ▸ hk) hnot).1
    rw [hmissing] at hsome
    cases hsome
  · exact h.tracks.congr fun k => by rw [Up, hdown]

namespace Restarting

variable {s : HandledVm} {pos : RestartAt} (h : s.Restarting pos)
include h

lemma restart_ne_none : s.restart ≠ none := by simp [h.restart]

/-- The restart goes on to its next call. -/
lemma goes_on {next : RestartAt} {handles : HfmHandles}
    (htracks : handles.Tracks fun k => k ∉ next.down ∧ k ∈ s.thread.toRelease)
    (hxen : handles.ptr .xen ≠ 0) (hapart : ∀ k ∈ next.down, k ∈ s.thread.toRelease) :
    ({ s with handles, restart := some next } : HandledVm).Running where
  tracks := htracks
  cb := h.running.cb
  okay := h.running.okay
  restart := fun _ => h.running.restart h.restart_ne_none
  missing := h.running.missing
  xen := fun hzero => absurd hzero hxen
  apart := fun k hk hnot => absurd (hapart k hk) hnot
  once := h.running.once

/-- The restart releases a handle and goes on. -/
lemma goes_on_released {next : RestartAt} {k : HfmHandle} (hk : s.Up k)
    (hdown : ∀ j, j ∈ next.down ↔ j ∈ pos.down ∨ j = k) :
    ({ s with handles := s.handles.release k, restart := some next } : HandledVm).Running := by
  apply h.goes_on
  · apply (h.running.tracks.release hk).congr
    intro j
    rw [Up, h.down, hdown, not_or]
    tauto
  · exact h.xen
  · intro j hj
    rcases (hdown j).mp hj with hj | rfl
    · exact h.apart j hj
    · exact hk.2

/-- It returns with all handles. -/
lemma returned_whole {result : Int} {handles : HfmHandles}
    (htracks : handles.Tracks (· ∈ s.thread.toRelease)) (hxen : handles.ptr .xen ≠ 0) :
    (({ s with handles } : HandledVm).restarted result).Running := by
  apply h.running.returned handles s.missing h.restart_ne_none
  · exact fun hne => absurd h.missing hne
  · rw [h.missing]
    exact htracks.congr fun k => by simp [lacking]
  · exact fun hzero => absurd hzero hxen
  · rw [h.missing]
    intro k hk
    cases hk

/-- It returns without the handles that are down. -/
lemma returned_lacking {result : Int} {handles : HfmHandles} {k : HfmHandle}
    (hdown : lacking (some k) = pos.down) (hresult : result ≠ 0)
    (htracks : handles.Tracks fun k => k ∉ pos.down ∧ k ∈ s.thread.toRelease)
    (hxen : handles.ptr .xen = 0 → k = .xen) :
    (({ s with handles, missing := some k } : HandledVm).restarted result).Running := by
  apply h.running.returned handles (some k) h.restart_ne_none
  · exact fun _ => hresult
  · rwa [hdown]
  · exact fun hzero => by rw [hxen hzero]
  · rw [hdown]
    exact fun j hj hnot => absurd (h.apart j hj) hnot

end Restarting

namespace Running

variable {s : HandledVm} (h : s.Running)
include h

lemma restartXenFree (ans : RestartAnswer) (hpos : s.restart = some .xenFree)
    (hup : ∀ k ∈ s.xenHeld, s.Up k) : (s.restartCall ans .xenFree).Running := by
  have hat := h.restarting hpos
  have hk := hup .xen (by simp [xenHeld, hat.xen])
  unfold HandledVm.restartCall HfmHandles.xenFreeInterface
  rw [if_neg hat.xen]
  exact hat.goes_on_released hk fun j => by cases j <;> simp [RestartAt.down]

lemma restartXenInit (ans : RestartAnswer) (hpos : s.restart = some .xenInit) :
    (s.restartCall ans .xenInit).Running := by
  have hat := h.restarting hpos
  have hk := hat.apart .xen List.mem_cons_self
  unfold HandledVm.restartCall
  dsimp only
  split
  · apply hat.goes_on
    · apply (hat.tracks.create (k := .xen) (by simp [RestartAt.down])).congr
      intro j
      cases j <;> simp [RestartAt.down, hk]
    · simp [Handles.create]
    · exact fun j hj => hat.apart j (List.mem_cons_of_mem _ hj)
  · exact hat.returned_lacking rfl (by simp) (hat.tracks.null (by simp [RestartAt.down])) fun _ => rfl

lemma restartVmiInit (ans : RestartAnswer) (hpos : s.restart = some .vmiInit) :
    (s.restartCall ans .vmiInit).Running := by
  have hat := h.restarting hpos
  have hk := hat.apart .vmi List.mem_cons_self
  have hmade : (s.handles.create .vmi).Tracks (· ∈ s.thread.toRelease) := by
    apply (hat.tracks.create (k := .vmi) (by simp [RestartAt.down])).congr
    intro j
    cases j <;> simp [RestartAt.down, hk]
  have hxen : (s.handles.create .vmi).ptr .xen ≠ 0 := by
    rw [Handles.create_ptr_of_ne _ (by decide)]
    exact hat.xen
  unfold HandledVm.restartCall
  dsimp only
  split
  · apply hat.goes_on
    · exact hmade.congr fun j => by simp [restartVmiCalls, RestartAt.after, RestartAt.down]
    · exact hxen
    · intro j hj
      cases hj
  · split
    · exact hat.returned_whole hmade hxen
    · exact hat.returned_lacking rfl (by simp) hat.tracks fun hzero => absurd hzero hat.xen

lemma restartVmiCall (ans : RestartAnswer) {c : ApiCall} {rest : List ApiCall}
    (hpos : s.restart = some (.vmiCall c rest)) (hup : s.Up c.handle) :
    (s.restartCall ans (.vmiCall c rest)).Running := by
  have hat := h.restarting hpos
  have hused : (s.handles.use c.handle).Tracks (· ∈ s.thread.toRelease) :=
    (hat.tracks.use ⟨hat.down ▸ hup.1, hup.2⟩).congr fun j => by simp [RestartAt.down]
  unfold HandledVm.restartCall
  dsimp only
  split
  · have hafter : (RestartAt.after rest).down = [] := by cases rest <;> rfl
    apply hat.goes_on
    · rw [hafter]
      exact hused.congr fun j => by simp
    · exact hat.xen
    · rw [hafter]
      intro j hj
      cases hj
  · exact hat.returned_whole hused hat.xen

lemma restartTmInit (ans : RestartAnswer) (hpos : s.restart = some .tmInit) :
    (s.restartCall ans .tmInit).Running := by
  have hat := h.restarting hpos
  have hk := hat.apart .trapManager List.mem_cons_self
  unfold HandledVm.restartCall
  dsimp only
  split
  · apply hat.goes_on
    · apply (hat.tracks.create (k := .trapManager) (by simp [RestartAt.down])).congr
      intro j
      cases j <;> simp [RestartAt.down, hk]
    · rw [Handles.create_ptr_of_ne _ (by decide)]
      exact hat.xen
    · intro j hj
      cases hj
  · apply hat.returned_lacking rfl (by simp) (hat.tracks.null (by simp [RestartAt.down]))
    intro hzero
    rw [Handles.null_ptr_of_ne _ (by decide)] at hzero
    exact absurd hzero hat.xen

lemma restartSetPolicies (ans : RestartAnswer) (hpos : s.restart = some .setPolicies)
    (hup : ∀ k ∈ ans.policyCall.toList, s.Up k) : (s.restartCall ans .setPolicies).Running := by
  have hat := h.restarting hpos
  unfold HandledVm.restartCall
  dsimp only
  split
  · rename_i k hcall
    rw [hcall] at hup
    exact h.use (hup k List.mem_cons_self)
  · exact hat.returned_whole (hat.tracks.congr fun j => by simp [RestartAt.down]) hat.xen

lemma restartCall (ans : RestartAnswer) {pos : RestartAt} (hpos : s.restart = some pos)
    (hup : ∀ k ∈ s.touches (.restart ans), s.Up k) : (s.restartCall ans pos).Running := by
  unfold touches at hup
  rw [hpos] at hup
  cases pos with
  | xenFree => exact h.restartXenFree ans hpos hup
  | xenInit => exact h.restartXenInit ans hpos
  | vmiInit => exact h.restartVmiInit ans hpos
  | vmiCall c rest => exact h.restartVmiCall ans hpos (hup _ List.mem_cons_self)
  | tmDestroy =>
    exact (h.restarting hpos).goes_on_released (hup _ List.mem_cons_self) fun j => by
      cases j <;> simp [RestartAt.down]
  | tmInit => exact h.restartTmInit ans hpos
  | setPolicies => exact h.restartSetPolicies ans hpos hup

/-- A step of the monitoring thread that leaves the handles as they are. -/
lemma of_thread {thread : MonitorThread} (hrelease : thread.toRelease = s.thread.toRelease) :
    ({ s with thread } : HandledVm).Running where
  tracks := h.tracks.congr fun k => by
    unfold Up
    rw [hrelease]
    rfl
  cb := h.cb
  okay := h.okay
  restart := h.restart
  missing := h.missing
  xen := h.xen
  apart := by
    rw [hrelease]
    exact h.apart
  once := by
    rw [hrelease]
    exact h.once

/-- `hfm_close` releases a handle. -/
lemma released {k : HfmHandle} {thread : MonitorThread} (hk : s.Up k)
    (hrelease : s.thread.toRelease = k :: thread.toRelease) :
    ({ s with handles := s.handles.release k, thread } : HandledVm).Running := by
  have honce := h.once
  rw [hrelease, List.nodup_cons] at honce
  exact
    { tracks := by
        apply (h.tracks.release hk).congr
        intro j
        unfold Up
        rw [hrelease]
        by_cases hj : j = k
        · subst hj
          simp [honce.1]
        · simp only [List.mem_cons, hj, false_or, ne_eq, not_false_eq_true, and_true]
          rfl
      cb := h.cb
      okay := h.okay
      restart := h.restart
      missing := h.missing
      xen := h.xen
      apart := fun j hdown hnot => by
        have hj : j ≠ k := fun heq => hk.1 (heq ▸ hdown)
        apply h.apart j hdown
        rw [hrelease, List.mem_cons, not_or]
        exact ⟨hj, hnot⟩
      once := honce.2 }

/-- `hfm_close` finds no Xen interface to free. -/
lemma skipped {thread : MonitorThread} (hzero : s.handles.ptr .xen = 0)
    (hrelease : s.thread.toRelease = .xen :: thread.toRelease) :
    ({ s with thread } : HandledVm).Running := by
  have hnot : ¬s.Up .xen := fun hup => by
    have hpos := h.tracks.ptr_pos hup
    omega
  have honce := h.once
  rw [hrelease, List.nodup_cons] at honce
  exact
    { tracks := by
        apply h.tracks.congr
        intro j
        unfold Up at hnot ⊢
        rw [hrelease] at hnot ⊢
        by_cases hj : j = .xen
        · subst hj
          exact iff_of_false (fun hup => honce.1 hup.2) hnot
        · simp only [List.mem_cons, hj, false_or]
          rfl
      cb := h.cb
      okay := h.okay
      restart := h.restart
      missing := h.missing
      xen := h.xen
      apart := fun j hdown hmem => by
        by_cases hj : j = .xen
        · exact ⟨h.xen hzero, hj⟩
        · apply h.apart j hdown
          rw [hrelease, List.mem_cons, not_or]
          exact ⟨hj, hmem⟩
      once := honce.2 }

lemma close {c : CloseCall} {rest : List CloseCall} (hthread : s.thread = .close c rest)
    (hup : ∀ k ∈ s.touches .close, s.Up k) :
    ({ s with handles := closeCall s.handles c, thread := closing rest } : HandledVm).Running := by
  unfold touches at hup
  rw [hthread] at hup
  cases c with
  | call c =>
    apply (h.use (hup c.handle List.mem_cons_self)).of_thread
    rw [closing_toRelease, hthread]
    rfl
  | tmDestroy =>
    apply h.released (hup .trapManager List.mem_cons_self)
    rw [closing_toRelease, hthread]
    rfl
  | xenFreeInterface =>
    have hrelease : s.thread.toRelease = .xen :: (closing rest).toRelease := by
      rw [closing_toRelease, hthread]
      rfl
    unfold closeCall HfmHandles.xenFreeInterface
    dsimp only at hup ⊢
    unfold xenHeld at hup
    by_cases hzero : s.handles.ptr .xen = 0
    · rw [if_pos hzero]
      exact h.skipped hzero hrelease
    · rw [if_neg hzero] at hup ⊢
      exact h.released (hup .xen List.mem_cons_self) hrelease
  | vmiDestroy =>
    apply h.released (hup .vmi List.mem_cons_self)
    rw [closing_toRelease, hthread]
    rfl

end Running

lemma hfmClose_toRelease (memtraps remappeds : Nat) :
    (closing (hfmClose memtraps remappeds)).toRelease = [.trapManager, .xen, .vmi] := by
  have hremapped : (List.replicate remappeds
      [CloseCall.call .vmiSlatChangeGfn, .call .xenFreeShadowFrame]).flatten.filterMap
        CloseCall.releases = [] := by
    rw [List.filterMap_eq_nil_iff]
    intro c hc
    obtain ⟨calls, hcalls, hc⟩ := List.mem_flatten.mp hc
    rw [List.eq_of_mem_replicate hcalls] at hc
    simp only [List.mem_cons, List.not_mem_nil, or_false] at hc
    rcases hc with rfl | rfl <;> rfl
  have hmemtrap : (List.replicate memtraps (CloseCall.call .vmiSetMemEvent)).filterMap
      CloseCall.releases = [] := by
    rw [List.filterMap_eq_nil_iff]
    intro c hc
    rw [List.eq_of_mem_replicate hc]
    rfl
  rw [closing_toRelease, hfmClose]
  simp only [List.filterMap_append, List.filterMap_cons, hremapped, hmemtrap]
  rfl

/-- The states between the actions, before and after `hfm_init`. -/
inductive Traced (vmi : Nat) (name : CStr) (data : Nat) : HandledVm → Prop where
  | begin : Traced vmi name data (start vmi name data)
  | failed {s : HandledVm} (hthread : s.thread = .failed) (ht : s.handles.Tracks fun _ => False) :
    Traced vmi name data s
  | running {s : HandledVm} (hstarted : s.Started) (h : s.Running) : Traced vmi name data s

variable {vmi : Nat} {name : CStr} {data : Nat} {cfg : WatchConfig}

lemma Running.usedAlive {s : HandledVm} (hstarted : s.Started) (h : s.Running) : s.UsedAlive where
  proper := h.tracks.proper
  released := fun hend k n hcreate => by
    rcases hend with hclosed | hfailed
    · refine h.tracks.released_once (fun j hup => ?_) hcreate
      have hmem := hup.2
      rw [hclosed] at hmem
      cases hmem
    · exact absurd hfailed hstarted.2

lemma Traced.usedAlive {s : HandledVm} (h : Traced vmi name data s) : s.UsedAlive := by
  cases h with
  | begin => exact ⟨trivial, fun _ k n hcreate => by cases hcreate⟩
  | failed hthread ht => exact ⟨ht.proper, fun _ k n => ht.released_once fun _ => not_false⟩
  | running hstarted h => exact h.usedAlive hstarted

lemma Traced.hfmInit (ans : InitAnswers) (policyCalls : List HfmHandle)
    (hleft : ans.xen = true → ans.vmiInit ≠ .failure true) :
    Traced vmi name data ((start vmi name data).next cfg (.hfmInit ans policyCalls)) := by
  have hinit := hfmInit_tracks ans
  unfold HandledVm.next
  dsimp only
  split
  · rename_i h heq
    rw [show Hfm.hfmInit ans Handles.empty = (h, .fail) from heq] at hinit
    obtain ⟨habs, -⟩ | ⟨-, ht⟩ := hinit
    · cases habs
    · apply Traced.failed rfl
      apply ht.congr
      intro k
      simp only [false_iff, not_and]
      exact fun _ hxen => hleft hxen
  · rename_i h heq
    rw [show Hfm.hfmInit ans Handles.empty = (h, .success) from heq] at hinit
    obtain ⟨-, ht⟩ | ⟨habs, -⟩ := hinit
    swap
    · cases habs
    have hused : ((h.uses (policyCalls ++
        if cfg.autoRestart then [ApiCall.vmiGetName.handle] else []))).Tracks fun _ => True :=
      ht.uses fun _ _ => trivial
    refine .running ⟨MonitorThread.noConfusion, MonitorThread.noConfusion⟩ ?_
    exact
      { tracks := by
          apply hused.congr
          intro k
          cases k <;> simp [Up, down, start, Registration.vm, lacking, MonitorThread.toRelease]
        cb := rfl
        okay := fun _ => .inl rfl
        restart := fun hne => absurd rfl hne
        missing := fun hne => absurd rfl hne
        xen := fun hzero => absurd hzero (Nat.pos_iff_ne_zero.mp (hused.ptr_pos trivial))
        apart := fun k hk => by cases hk
        once := show [HfmHandle.trapManager, .xen, .vmi].Nodup by decide }

/-- Before `hfm_init` there is nothing else to do, and the other actions need the threads. -/
lemma Enabled.cases {s : HandledVm} {a : HandleAction} (h : s.Enabled cfg a) :
    (s.thread = .init ∧ ∃ ans policyCalls, a = .hfmInit ans policyCalls) ∨ s.Started := by
  have hthread : ∀ {t : MonitorThread}, s.thread = t → t ≠ .init → t ≠ .failed → s.Started :=
    fun heq hinit hfailed => ⟨heq ▸ hinit, heq ▸ hfailed⟩
  cases a with
  | hfmInit ans policyCalls => exact .inl ⟨h, ans, policyCalls, rfl⟩
  | visit ans => exact .inr h.1
  | restart ans => exact .inr h.1
  | bootThread n vmi => exact .inr h.1
  | interrupt => exact .inr h
  | check okay memtraps remappeds => exact .inr (hthread h.1 (by decide) (by decide))
  | listen => exact .inr (hthread h (by decide) (by decide))
  | event k => exact .inr (hthread h (by decide) (by decide))
  | listened => exact .inr (hthread h (by decide) (by decide))
  | close =>
    obtain ⟨c, rest, heq⟩ := h
    exact .inr (hthread heq MonitorThread.noConfusion MonitorThread.noConfusion)

lemma Running.step {s : HandledVm} {a : HandleAction} (hstarted : s.Started) (h : s.Running)
    (henabled : s.Enabled cfg a) (hup : ∀ k ∈ s.touches a, s.Up k) : (s.next cfg a).Running := by
  cases a with
  | hfmInit ans policyCalls => exact absurd henabled hstarted.1
  | visit ans => exact h.visit ans henabled.2.2 hup
  | restart ans =>
    unfold next
    cases hpos : s.restart with
    | none => exact h
    | some pos => exact h.restartCall ans hpos hup
  | bootThread n vmi => exact h.bootThread n vmi
  | interrupt =>
    exact ⟨h.tracks, h.cb, h.okay, h.restart, h.missing, h.xen, h.apart, h.once⟩
  | check okay memtraps remappeds =>
    have hloop : s.thread.toRelease = [.trapManager, .xen, .vmi] := by
      rw [henabled.1]
      rfl
    unfold next
    dsimp only
    split
    · apply h.of_thread
      rw [hfmClose_toRelease, hloop]
    · split
      · exact h
      · apply h.of_thread
        rw [hloop]
        rfl
  | listen =>
    apply (h.use (hup .vmi List.mem_cons_self)).of_thread
    rw [show s.thread = .listen from henabled]
    rfl
  | event k => exact h.use (hup k List.mem_cons_self)
  | listened =>
    apply h.of_thread
    rw [show s.thread = .events from henabled]
    rfl
  | close =>
    obtain ⟨c, rest, hthread⟩ := henabled
    unfold next
    rw [hthread]
    exact h.close hthread hup

lemma visited_thread (s : HandledVm) (ans : VisitAnswers) : (s.visited ans).thread = s.thread := by
  unfold visited
  split
  · split <;> rfl
  · rfl
  · rfl
  · rfl

lemma restartCall_thread (s : HandledVm) (ans : RestartAnswer) (pos : RestartAt) :
    (s.restartCall ans pos).thread = s.thread := by
  cases pos with
  | xenFree => rfl
  | xenInit => unfold restartCall; dsimp only; split <;> rfl
  | vmiInit =>
    unfold restartCall
    dsimp only
    split
    · rfl
    · split <;> rfl
  | vmiCall c rest => unfold restartCall; dsimp only; split <;> rfl
  | tmDestroy => rfl
  | tmInit => unfold restartCall; dsimp only; split <;> rfl
  | setPolicies => unfold restartCall; dsimp only; split <;> rfl

lemma closing_started (rest : List CloseCall) : closing rest ≠ .init ∧ closing rest ≠ .failed := by
  cases rest with
  | nil => exact ⟨MonitorThread.noConfusion, MonitorThread.noConfusion⟩
  | cons c rest => exact ⟨MonitorThread.noConfusion, MonitorThread.noConfusion⟩

lemma Started.next {s : HandledVm} {a : HandleAction} (h : s.Started) (henabled : s.Enabled cfg a) :
    (s.next cfg a).Started := by
  unfold Started HandledVm.next
  cases a with
  | hfmInit ans policyCalls => exact absurd henabled h.1
  | visit ans =>
    dsimp only
    rw [visited_thread]
    exact h
  | restart ans =>
    dsimp only
    split
    · rw [restartCall_thread]
      exact h
    · exact h
  | bootThread n vmi => exact h
  | interrupt => exact h
  | check okay memtraps remappeds =>
    dsimp only
    split
    · exact closing_started (hfmClose memtraps remappeds)
    · split
      · exact h
      · exact ⟨MonitorThread.noConfusion, MonitorThread.noConfusion⟩
  | listen => exact ⟨MonitorThread.noConfusion, MonitorThread.noConfusion⟩
  | event k => exact h
  | listened => exact ⟨MonitorThread.noConfusion, MonitorThread.noConfusion⟩
  | close =>
    dsimp only
    split
    · exact closing_started _
    · exact h

lemma Traced.step {s s' : HandledVm} {a : HandleAction} (h : Traced vmi name data s)
    (hoff : s.HandsOff a) (hstep : HandleStep cfg s a s') : Traced vmi name data s' := by
  obtain ⟨henabled, rfl⟩ := hstep
  cases h with
  | begin =>
    obtain ⟨-, ans, policyCalls, rfl⟩ | hstarted := henabled.cases
    · exact Traced.hfmInit ans policyCalls (hoff.2 ans policyCalls rfl)
    · exact absurd rfl hstarted.1
  | failed hthread ht =>
    obtain ⟨hinit, -⟩ | hstarted := henabled.cases
    · rw [hthread] at hinit
      cases hinit
    · exact absurd hthread hstarted.2
  | running hstarted h =>
    exact .running (hstarted.next henabled) (h.step hstarted henabled hoff.1)

lemma xenFreeInterface_held {s : HandledVm} {k : HfmHandle} (hk : k ∈ s.xenHeld) :
    HfmHandles.xenFreeInterface s.handles = s.handles.release k := by
  unfold xenHeld at hk
  unfold HfmHandles.xenFreeInterface
  split at hk
  · cases hk
  · rename_i hzero
    rw [if_neg hzero, List.mem_singleton.mp hk]

lemma visited_touches {s : HandledVm} {ans : VisitAnswers} {k : HfmHandle}
    (hk : k ∈ s.touches (.visit ans)) :
    (s.visited ans).handles = s.handles.use k ∨ (s.visited ans).handles = s.handles.release k := by
  unfold touches at hk
  unfold visited
  cases hstate : s.watched.hdlr.state with
  | running =>
    rw [hstate] at hk
    dsimp only at hk ⊢
    split at hk
    · rename_i hokay
      rw [List.mem_singleton.mp hk, if_pos hokay]
      exact .inl rfl
    · cases hk
  | destroy =>
    rw [hstate, List.mem_singleton] at hk
    rw [hk]
    exact .inr rfl
  | shutdown =>
    rw [hstate] at hk
    cases hk
  | booting =>
    rw [hstate] at hk
    cases hk
  | restarted =>
    rw [hstate] at hk
    cases hk

lemma restartCall_touches {s : HandledVm} {ans : RestartAnswer} {pos : RestartAt} {k : HfmHandle}
    (hpos : s.restart = some pos) (hk : k ∈ s.touches (.restart ans)) :
    (s.restartCall ans pos).handles = s.handles.use k ∨
      (s.restartCall ans pos).handles = s.handles.release k := by
  unfold touches at hk
  dsimp only at hk
  rw [hpos] at hk
  cases pos with
  | xenFree => exact .inr (xenFreeInterface_held hk)
  | vmiCall c rest =>
    rw [List.mem_singleton.mp hk]
    unfold restartCall
    dsimp only
    split
    · exact .inl rfl
    · exact .inl rfl
  | tmDestroy =>
    rw [List.mem_singleton.mp hk]
    exact .inr rfl
  | setPolicies =>
    unfold restartCall
    dsimp only at hk ⊢
    cases hcall : ans.policyCall with
    | none =>
      rw [hcall] at hk
      cases hk
    | some j =>
      rw [hcall] at hk
      rw [List.mem_singleton.mp hk]
      exact .inl rfl
  | xenInit => cases hk
  | vmiInit => cases hk
  | tmInit => cases hk

lemma close_touches {s : HandledVm} {k : HfmHandle} (hk : k ∈ s.touches .close) :
    (s.next cfg .close).handles = s.handles.use k ∨
      (s.next cfg .close).handles = s.handles.release k := by
  unfold touches at hk
  unfold next
  dsimp only at hk ⊢
  cases hthread : s.thread with
  | close c rest =>
    rw [hthread] at hk
    cases c with
    | call c =>
      rw [List.mem_singleton.mp hk]
      exact .inl rfl
    | tmDestroy =>
      rw [List.mem_singleton.mp hk]
      exact .inr rfl
    | xenFreeInterface => exact .inr (xenFreeInterface_held hk)
    | vmiDestroy =>
      rw [List.mem_singleton.mp hk]
      exact .inr rfl
  | _ =>
    rw [hthread] at hk
    cases hk

/-- What an action touches, it uses or releases. -/
lemma next_touches {s : HandledVm} {a : HandleAction} {k : HfmHandle} (hk : k ∈ s.touches a) :
    (s.next cfg a).handles = s.handles.use k ∨ (s.next cfg a).handles = s.handles.release k := by
  cases a with
  | visit ans => exact visited_touches hk
  | restart ans =>
    unfold next
    dsimp only
    cases hpos : s.restart with
    | none =>
      unfold touches at hk
      dsimp only at hk
      rw [hpos] at hk
      cases hk
    | some pos => exact restartCall_touches hpos hk
  | listen =>
    rw [List.mem_singleton.mp hk]
    exact .inl rfl
  | event j =>
    rw [List.mem_singleton.mp hk]
    exact .inl rfl
  | close => exact close_touches hk
  | _ => cases hk

/-- An instance that a failed `vmi_init` left is never released. -/
lemma not_usedAlive_left {ans : InitAnswers} {policyCalls : List HfmHandle} (hxen : ans.xen = true)
    (hleft : ans.vmiInit = .failure true) :
    ¬((start vmi name data).next cfg (.hfmInit ans policyCalls)).UsedAlive := by
  have hfail : (Hfm.hfmInit ans .empty).2 = .fail := by
    unfold Hfm.hfmInit initVmi
    rw [if_neg (by simp [hxen]), hleft]
  obtain ⟨habs, -⟩ | ⟨-, ht⟩ := hfmInit_tracks ans
  · rw [hfail] at habs
    cases habs
  have hnext : (start vmi name data).next cfg (.hfmInit ans policyCalls) =
      { start vmi name data with handles := (Hfm.hfmInit ans .empty).1, thread := .failed } := by
    unfold HandledVm.next
    dsimp only
    split
    · rename_i h heq
      rw [show Hfm.hfmInit ans Handles.empty = (h, .fail) from heq]
    · rename_i h heq
      rw [show Hfm.hfmInit ans Handles.empty = (h, .success) from heq] at hfail
      cases hfail
  rw [hnext]
  intro hused
  obtain ⟨hcreate, hrelease⟩ := (ht.alive_ptr .vmi).mpr ⟨rfl, hxen, hleft⟩
  have hone := hused.released (.inr rfl) _ _ hcreate
  rw [List.count_eq_zero.mpr hrelease] at hone
  cases hone

/-- A call on a handle that is down, or a leak, does not end in a good state. -/
lemma Traced.not_usedAlive {s s' : HandledVm} {a : HandleAction} (h : Traced vmi name data s)
    (hoff : ¬s.HandsOff a) (hstep : HandleStep cfg s a s') : ¬s'.UsedAlive := by
  obtain ⟨henabled, rfl⟩ := hstep
  intro hused
  cases h with
  | begin =>
    obtain ⟨-, ans, policyCalls, rfl⟩ | hstarted := henabled.cases
    · apply hoff
      refine ⟨fun k hk => absurd hk List.not_mem_nil, ?_⟩
      rintro _ _ heq hxen hleft
      cases heq
      exact not_usedAlive_left hxen hleft hused
    · exact hstarted.1 rfl
  | failed hthread ht =>
    obtain ⟨hinit, -⟩ | hstarted := henabled.cases
    · rw [hthread] at hinit
      cases hinit
    · exact hstarted.2 hthread
  | running hstarted h =>
    apply hoff
    constructor
    · intro k hk
      apply (h.tracks.alive_ptr k).mp
      have hproper := hused.proper
      obtain heq | heq : (s.next cfg a).handles = s.handles.use k ∨
        (s.next cfg a).handles = s.handles.release k := next_touches hk
      · rw [heq] at hproper
        exact hproper.1
      · rw [heq] at hproper
        exact hproper.1
    · rintro ans policyCalls rfl
      exact absurd henabled hstarted.1

end HandledVm

/-- In every run the handles are used alive exactly if every action keeps its hands off those
that are down. -/
theorem usedAlive_iff {vmi : Nat} {name : CStr} {data : Nat} {cfg : WatchConfig}
    {tr : List (HandleAction × HandledVm)}
    (hrun : IsRun (HandleStep cfg) (HandledVm.start vmi name data) tr) :
    Always HandledVm.UsedAlive (HandledVm.start vmi name data) tr ↔
      Meets HandledVm.HandsOff (HandledVm.start vmi name data) tr :=
  hrun.always_iff_meets_of (fun _ h => HandledVm.Traced.usedAlive h)
    (fun _ _ _ h hoff hstep => h.step hoff hstep) (fun _ _ _ h hoff hstep => h.not_usedAlive hoff hstep)
    HandledVm.Traced.begin

/-- The states that the actions lead through. -/
def HandledVm.trace (cfg : WatchConfig) : HandledVm → List HandleAction →
    List (HandleAction × HandledVm)
  | _, [] => []
  | s, a :: actions => (a, s.next cfg a) :: trace cfg (s.next cfg a) actions

def oneWatched : WatchConfig := ⟨true, true⟩

def initSuccess : HandleAction := .hfmInit ⟨true, .success, fun _ => true, 1, 0, true, true⟩ []

def visitPinged (lstar : Option UInt64) : HandleAction := .visit ⟨lstar, false, false, 0⟩

namespace HandledVm

instance (s : HandledVm) : Decidable s.Started :=
  inferInstanceAs (Decidable (s.thread ≠ .init ∧ s.thread ≠ .failed))

/-- `hfm_close` has a call left. -/
def closes (s : HandledVm) : Bool :=
  match s.thread with
  | .close _ _ => true
  | _ => false

lemma closes_iff {s : HandledVm} : s.closes = true ↔ ∃ c rest, s.thread = .close c rest := by
  unfold closes
  constructor
  · intro h
    split at h
    · rename_i c rest heq
      exact ⟨c, rest, heq⟩
    · cases h
  · rintro ⟨c, rest, heq⟩
    rw [heq]

instance (cfg : WatchConfig) (s : HandledVm) (a : HandleAction) : Decidable (s.Enabled cfg a) :=
  match a with
  | .hfmInit _ _ => inferInstanceAs (Decidable (s.thread = .init))
  | .visit _ => inferInstanceAs (Decidable (s.Started ∧ cfg.autoRestart = true ∧ s.restart = none))
  | .restart _ => inferInstanceAs (Decidable (s.Started ∧ s.restart ≠ none))
  | .bootThread n _ => inferInstanceAs (Decidable (s.Started ∧ n ∈ s.watched.threads))
  | .interrupt => inferInstanceAs (Decidable s.Started)
  | .check okay _ _ =>
    inferInstanceAs (Decidable (s.thread = .loop ∧ (cfg.first = true → okay = s.watched.hdlr.okay)))
  | .listen => inferInstanceAs (Decidable (s.thread = .listen))
  | .event _ | .listened => inferInstanceAs (Decidable (s.thread = .events))
  | .close => decidable_of_iff _ closes_iff

/-- The actions can come, one after the other. -/
def admits (cfg : WatchConfig) (s : HandledVm) : List HandleAction → Bool
  | [] => true
  | a :: actions => decide (s.Enabled cfg a) && admits cfg (s.next cfg a) actions

lemma run_trace {cfg : WatchConfig} {s : HandledVm} {actions : List HandleAction}
    (h : s.admits cfg actions = true) : IsRun (HandleStep cfg) s (trace cfg s actions) := by
  induction actions generalizing s with
  | nil => trivial
  | cons a actions ih =>
    unfold admits at h
    rw [Bool.and_eq_true, decide_eq_true_eq] at h
    exact ⟨⟨h.1, rfl⟩, ih h.2⟩

end HandledVm

/-- The VM fails a ping, is destroyed, booted and hooked again, gives an event, and is closed with
one memory trap and one remapped page. -/
def restartedAndClosed : List HandleAction :=
  let done : HandleAction := .restart ⟨true, false, none⟩
  [initSuccess, visitPinged (some 1), .check true 0 0, .listen, .event .vmi, .listened,
    visitPinged none, visitPinged none, .visit ⟨none, true, true, 0⟩, .bootThread 1 true,
    visitPinged none] ++ List.replicate 13 done ++
  [.restart ⟨true, false, some .vmi⟩, done, visitPinged none, visitPinged (some 1),
    .check true 0 0, .listen, .event .vmi, .event .trapManager, .interrupt, .listened,
    .check true 1 1] ++ List.replicate 12 .close

theorem usedAlive_iff_closed :
    Always HandledVm.UsedAlive (HandledVm.start 1 (cstr "win7") 1)
        (HandledVm.trace oneWatched (HandledVm.start 1 (cstr "win7") 1) restartedAndClosed) ↔
      Meets HandledVm.HandsOff (HandledVm.start 1 (cstr "win7") 1)
        (HandledVm.trace oneWatched (HandledVm.start 1 (cstr "win7") 1) restartedAndClosed) :=
  usedAlive_iff (HandledVm.run_trace (by decide))

/-- Ctrl-C while the VM is down: the watcher has released the instance that `hfm_close` pauses. -/
def closedWhileDown : List HandleAction :=
  [initSuccess, visitPinged none, visitPinged none, .interrupt, .check false 0 0, .close]

theorem closed_while_down : ∃ tr : List (HandleAction × HandledVm),
    IsRun (HandleStep oneWatched) (HandledVm.start 1 (cstr "win7") 1) tr ∧
      ¬Always HandledVm.UsedAlive (HandledVm.start 1 (cstr "win7") 1) tr := by
  refine ⟨HandledVm.trace oneWatched (HandledVm.start 1 (cstr "win7") 1) closedWhileDown,
    HandledVm.run_trace (by decide), ?_⟩
  rintro ⟨-, -, -, -, -, -, hlast⟩
  exact hlast.proper.1.2 (by decide)

end Hfm

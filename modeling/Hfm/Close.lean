import Hfm.Footprint

/-!
# Closing a handler

`hfm_close` of `src/hfm.c` as far as it gives back what the hooks have taken: `_destroy_traps`
with `tm_destroy` of `src/trapmngr.c` and `xen_free_shadow_frame` of `src/xen_helper.c`, and
`_reset_altp2m`. The results of all its calls are ignored.
-/

namespace Hfm

open Support

variable {κ ε σ : Type}

/-- The orders in which GLib walks the tables. -/
structure TableWalk where
  memtraps : GHashTable Nat Memtrap → List Nat
  remappeds : GHashTable Nat Remapped → List Remapped
  wrappers : GHashTable Nat Int3Wrapper → List Int3Wrapper
  memtraps_perm : ∀ table, (memtraps table).Perm table.keys
  remappeds_perm : ∀ table, (remappeds table).Perm (table.entries.map Sigma.snd)
  wrappers_perm : ∀ table, (wrappers table).Perm (table.entries.map Sigma.snd)

/-- Which of the calls succeed, by frame. -/
structure ClosingCalls where
  setMemEvent : Nat → Bool
  changeGfn : Nat → Bool
  decreaseReservation : Nat → Bool
  slatSwitch : Bool

/-- `vmi_set_mem_event` with `VMI_MEMACCESS_N`. -/
def Machine.resetMemEvent (calls : ClosingCalls) (m : Machine) (gfn : Nat) : Machine :=
  if calls.setMemEvent gfn then { m with memEvent := Function.update m.memEvent gfn false } else m

/-- Mapping a frame to `~0` takes its entry out of the view, which then shows the frame itself. -/
def Machine.resetRemapped (calls : ClosingCalls) (m : Machine) (remapped : Remapped) : Machine :=
  let m :=
    if calls.changeGfn remapped.o then
      { m with slat := Function.update m.slat remapped.o remapped.o }
    else m
  if calls.decreaseReservation remapped.r then
    { m with reserved := m.reserved.erase remapped.r }
  else m

/-- The traps that `tm_destroy` frees: those in the lists of the table by address. The lists of the
table by frame hold the same traps. -/
def tmDestroy (walk : TableWalk) (tm : Trapmngr κ ε) : List (Trap κ ε) :=
  (walk.wrappers tm.breakpointTbl).flatMap fun w => tm.traps w.traps

def destroyTraps (walk : TableWalk) (calls : ClosingCalls) (vm : Vm κ ε) :
    Machine × List (Trap κ ε) :=
  let m := (walk.memtraps vm.tm.memaccessTbl).foldl (Machine.resetMemEvent calls) vm.machine
  let m := (walk.remappeds vm.tm.remappedTbl).foldl (Machine.resetRemapped calls) m
  (m, tmDestroy walk vm.tm)

/-- The view is destroyed after the switch. -/
def Machine.resetView (m : Machine) (calls : ClosingCalls) : Machine :=
  if calls.slatSwitch then { m with vcpu := fun v => { m.vcpu v with slatId := ORIGIN_IDX } } else m

/-- The machine that a closed handler leaves behind, and the traps that were freed. -/
def Vm.close (walk : TableWalk) (calls : ClosingCalls) (vm : Vm κ ε) : Machine × List (Trap κ ε) :=
  let (m, freed) := destroyTraps walk calls vm
  (m.resetView calls, freed)

structure ClosingCalls.Succeed (calls : ClosingCalls) : Prop where
  setMemEvent : ∀ gfn, calls.setMemEvent gfn = true
  changeGfn : ∀ frame, calls.changeGfn frame = true
  decreaseReservation : ∀ frame, calls.decreaseReservation frame = true
  slatSwitch : calls.slatSwitch = true

/-! ### What closing undoes -/

lemma foldl_resetMemEvent {calls : ClosingCalls} (hcalls : ∀ gfn, calls.setMemEvent gfn = true)
    (gfns : List Nat) (m : Machine) :
    (gfns.foldl (Machine.resetMemEvent calls) m) =
      { m with memEvent := fun g => if g ∈ gfns then false else m.memEvent g } := by
  induction gfns generalizing m with
  | nil => simp
  | cons gfn gfns ih =>
    rw [List.foldl_cons, ih, Machine.resetMemEvent, if_pos (hcalls gfn)]
    congr 1
    funext g
    by_cases hg : g = gfn
    · simp [hg]
    · simp [hg]

lemma foldl_resetRemapped {calls : ClosingCalls} (hgfn : ∀ frame, calls.changeGfn frame = true)
    (hdecrease : ∀ frame, calls.decreaseReservation frame = true) (remappeds : List Remapped)
    (m : Machine) : remappeds.foldl (Machine.resetRemapped calls) m =
      { m with
        slat := fun g => if g ∈ remappeds.map Remapped.o then g else m.slat g
        reserved := (remappeds.map Remapped.r).foldl List.erase m.reserved } := by
  induction remappeds generalizing m with
  | nil => simp
  | cons remapped remappeds ih =>
    rw [List.foldl_cons, ih, Machine.resetRemapped]
    simp only [hgfn, hdecrease, if_true, List.map_cons, List.foldl_cons]
    congr 1
    funext g
    by_cases hg : g = remapped.o
    · simp [hg]
    · simp [hg]

/-- What is given back leaves the rest. -/
lemma perm_of_foldl_erase {taken l rest : List Nat} (h : l.Perm (taken ++ rest)) :
    (taken.foldl List.erase l).Perm rest := by
  induction taken generalizing l with
  | nil => exact h
  | cons r taken ih =>
    apply ih
    have herase := h.erase r
    rwa [List.cons_append, List.erase_cons_head] at herase

/-- Picking a list apart by the values of a function. -/
lemma perm_flatMap_filter {α β : Type*} [DecidableEq β] (f : α → β) (l : List α) {keys : List β}
    (hkeys : keys.Nodup) :
    (keys.flatMap fun k => l.filter (f · = k)).Perm (l.filter (f · ∈ keys)) := by
  induction keys with
  | nil => simp
  | cons k keys ih =>
    obtain ⟨hk, hnodup⟩ := List.nodup_cons.mp hkeys
    have hsplit := List.filter_append_perm (f · = k) (l.filter (f · ∈ k :: keys))
    have hfirst : (l.filter (f · ∈ k :: keys)).filter (f · = k) = l.filter (f · = k) := by
      rw [List.filter_filter]
      apply List.filter_congr
      intro x _
      by_cases hx : f x = k
      · simp [hx]
      · simp [hx]
    have hrest : (l.filter (f · ∈ k :: keys)).filter (fun x => !decide (f x = k)) =
        l.filter (f · ∈ keys) := by
      rw [List.filter_filter]
      apply List.filter_congr
      intro x _
      by_cases hx : f x = k
      · simp [hx, hk]
      · simp [hx]
    rw [hfirst, hrest] at hsplit
    rw [List.flatMap_cons]
    exact ((ih hnodup).append_left _).trans hsplit

/-- Each registered trap is freed once. -/
lemma tmDestroy_perm (walk : TableWalk) {tm : Trapmngr κ ε} {reg : List (Trap κ ε)}
    (h : Indexed tm reg) : (tmDestroy walk tm).Perm reg := by
  have hkeys : (tm.breakpointTbl.entries.map Sigma.snd).flatMap (fun w => tm.traps w.traps) =
      tm.breakpointTbl.keys.flatMap fun pa => reg.filter (·.pa = pa) := by
    rw [AList.keys, List.keys, List.flatMap_map, List.flatMap_map]
    apply List.flatMap_congr
    intro e he
    have hlookup : tm.breakpointTbl.lookup e.1 = some e.2 := AList.mem_lookup_iff.mpr he
    have htraps := h.traps_head (.inl e.1)
    simp only [Trapmngr.head, tmInt3trapsAtPa, hlookup, Option.bind_some] at htraps
    rw [htraps]
    rfl
  have hall : reg.filter (·.pa ∈ tm.breakpointTbl.keys) = reg := by
    rw [List.filter_eq_self]
    intro t ht
    have hexist : tmTrapExist tm t.pa = true := (h.trapExist t.pa).mpr ⟨t, ht, rfl⟩
    have hmem : t.pa ∈ tm.breakpointTbl := AList.lookup_isSome.mp hexist
    exact decide_eq_true (AList.mem_keys.mpr hmem)
  have hwalk := (walk.wrappers_perm tm.breakpointTbl).flatMap_right fun w => tm.traps w.traps
  rw [hkeys] at hwalk
  have hpick := perm_flatMap_filter Trap.pa reg tm.breakpointTbl.keys_nodup
  rw [hall] at hpick
  exact hwalk.trans hpick

/-! ### What the hooks have taken -/

/-- No frame is handed out, or a shadow page is created in it. -/
def Tidy (calls : InjectCalls) : Prop :=
  calls.shadow.setmaxmem = false ∨ calls.shadow.increaseReservation = none ∨ PageCreated calls

/-- A frame that was handed out for a shadow page is not lost if the answers are tidy. -/
lemma createShadowPage_frames (vm : Vm κ ε) (calls : InjectCalls) (frame : Nat) :
    let created := createShadowPage vm calls.shadow frame
    (created.1 = 0 ∧ created.2.machine.reserved = vm.machine.reserved ∧
        created.2.machine.slat = vm.machine.slat) ∨
      (created.1 = 0 ∧ ¬Tidy calls ∧ ∃ r, created.2.machine.reserved = r :: vm.machine.reserved) ∨
      (created.1 ≠ 0 ∧ created.2.machine.reserved = created.1 :: vm.machine.reserved) := by
  have hlost : ∀ r, calls.shadow.setmaxmem = true → calls.shadow.increaseReservation = some r →
      (createShadowPage vm calls.shadow frame).1 = 0 → ¬Tidy calls := by
    rintro r hset hinc hzero (h | h | ⟨r', hr'⟩)
    · rw [hset] at h
      cases h
    · rw [hinc] at h
      cases h
    · rw [(createShadowPage_succeed vm hr' frame).1] at hzero
      exact hr'.ne_zero hzero
  intro created
  cases hset : calls.shadow.setmaxmem with
  | false =>
    left
    simp [created, createShadowPage, xenAllocShadowFrame, hset]
  | true =>
    cases hinc : calls.shadow.increaseReservation with
    | none =>
      left
      simp [created, createShadowPage, xenAllocShadowFrame, hset, hinc]
    | some r =>
      right
      have hreserved : created.2.machine.reserved = r :: vm.machine.reserved ∧
          (created.1 = 0 ∨ created.1 = r) := by
        unfold created createShadowPage xenAllocShadowFrame
        cases calls.shadow.populatePhysmap with
        | false => simp [hset, hinc]
        | true =>
          by_cases hr : r = 0
          · simp [hset, hinc, hr]
          · cases calls.shadow.changeGfn with
            | false => simp [hset, hinc, hr]
            | true =>
              simp only [hset, hinc, hr, Bool.not_true, Bool.false_eq_true, if_false]
              split
              · exact ⟨rfl, .inl rfl⟩
              · split
                · exact ⟨rfl, .inl rfl⟩
                · exact ⟨rfl, .inr rfl⟩
      obtain ⟨hcons, hfirst⟩ := hreserved
      by_cases hzero : created.1 = 0
      · exact .inl ⟨hzero, hlost r hset hinc hzero, r, hcons⟩
      · refine .inr ⟨hzero, ?_⟩
        rw [hcons, hfirst.resolve_left hzero]

/-- The shadow frames in the table. -/
def recorded (vm : Vm κ ε) : List Nat := vm.tm.remappedTbl.entries.map fun e => e.2.r

/-- The frames that Xen handed out are those in the table and those that were lost. -/
def Recorded (lost : List Nat) (vm : Vm κ ε) : Prop :=
  vm.machine.reserved.Perm (recorded vm ++ lost)

/-- The frames of the tables after one frame was shadowed. -/
lemma shadowFrame_frames (vm : Vm κ ε) (calls : InjectCalls) (frame : Nat) :
    let vm' := vm.shadowFrame calls frame
    (recorded vm' = recorded vm ∧ vm'.machine.reserved = vm.machine.reserved ∧
        vm'.machine.slat = vm.machine.slat ∧ vm'.tm.remappedTbl = vm.tm.remappedTbl) ∨
      (¬Tidy calls ∧ recorded vm' = recorded vm ∧
        ∃ r, vm'.machine.reserved = r :: vm.machine.reserved) ∨
      ∃ r, recorded vm' = r :: recorded vm ∧ vm'.machine.reserved = r :: vm.machine.reserved ∧
        (∀ g ≠ frame, vm'.machine.slat g = vm.machine.slat g) ∧
        ∀ g, tmFindRemapped vm'.tm g =
          if g = frame then some ⟨frame, r⟩ else tmFindRemapped vm.tm g := by
  have hprotect : ∀ vm₁ : Vm κ ε, (protectFrame vm₁ calls frame).tm.remappedTbl =
      vm₁.tm.remappedTbl ∧ (protectFrame vm₁ calls frame).machine.reserved =
      vm₁.machine.reserved ∧ (protectFrame vm₁ calls frame).machine.slat = vm₁.machine.slat := by
    intro vm₁
    refine ⟨?_, protectFrame_reserved vm₁ calls frame, (protectFrame_keeps vm₁ calls frame).2.1⟩
    unfold protectFrame
    cases tmFindMemtrap vm₁.tm frame <;> cases calls.setMemEvent <;> rfl
  intro vm'
  obtain ⟨htbl, hreserved, hslat⟩ := hprotect (shadowOf vm calls frame).2
  change vm'.tm.remappedTbl = _ at htbl
  change vm'.machine.reserved = _ at hreserved
  change vm'.machine.slat = _ at hslat
  have hfind : tmFindRemapped vm'.tm = tmFindRemapped (shadowOf vm calls frame).2.tm := by
    unfold tmFindRemapped
    rw [htbl]
  unfold recorded
  rw [htbl, hreserved, hslat, hfind]
  cases hrm : tmFindRemapped vm.tm frame with
  | some rm =>
    left
    simp [shadowOf, hrm]
  | none =>
    have hcreated := createShadowPage_frames vm calls frame
    have hother := fun g hg => createShadowPage_slat vm calls.shadow frame (g := g) hg
    obtain ⟨-, htm⟩ := createShadowPage_aside vm calls.shadow frame
    simp only [shadowOf, hrm]
    generalize createShadowPage vm calls.shadow frame = created at hcreated htm hother ⊢
    rcases hcreated with ⟨hzero, hsame, hslat⟩ | ⟨hzero, hnot, r, hcons⟩ | ⟨hne, hcons⟩
    · left
      rw [if_neg (not_not.mpr hzero), htm]
      exact ⟨rfl, hsame, hslat, rfl⟩
    · right; left
      rw [if_neg (not_not.mpr hzero), htm]
      exact ⟨hnot, rfl, r, hcons⟩
    · right; right
      have hnotMem : frame ∉ vm.tm.remappedTbl := AList.lookup_eq_none.mp hrm
      rw [if_pos hne, htm]
      refine ⟨created.1, ?_, hcons, hother, tmFindRemapped_addRemapped vm.tm ⟨frame, created.1⟩⟩
      change ((vm.tm.remappedTbl.insert frame ⟨frame, created.1⟩).entries.map fun e => e.2.r) = _
      rw [AList.entries_insert_of_notMem hnotMem]
      rfl

lemma recorded_same {vm vm' : Vm κ ε} (h : SamePages vm vm') : recorded vm' = recorded vm := by
  unfold recorded
  rw [h.remappedTbl]

/-- With tidy answers no more frames are lost. -/
lemma recorded_invariant (lost : List Nat) :
    PageInvariant Tidy (fun vm : Vm κ ε => Recorded lost vm) := by
  constructor
  case same =>
    intro vm vm' hpages h
    unfold Recorded
    rw [recorded_same hpages, hpages.reserved]
    exact h
  case frame =>
    intro vm calls frame htidy h
    unfold Recorded
    rcases shadowFrame_frames vm calls frame with
      ⟨hrec, hres, -⟩ | ⟨hnot, -⟩ | ⟨r, hrec, hres, -⟩
    · rw [hrec, hres]
      exact h
    · exact absurd htidy hnot
    · rw [hrec, hres]
      exact h.cons r

/-- Whatever the calls answer, all frames are recorded or lost. -/
lemma recorded_or_lost_invariant :
    PageInvariant (fun _ => True) (fun vm : Vm κ ε => ∃ lost, Recorded lost vm) := by
  constructor
  case same =>
    rintro vm vm' hpages ⟨lost, h⟩
    refine ⟨lost, ?_⟩
    unfold Recorded
    rw [recorded_same hpages, hpages.reserved]
    exact h
  case frame =>
    rintro vm calls frame - ⟨lost, h⟩
    unfold Recorded
    rcases shadowFrame_frames vm calls frame with
      ⟨hrec, hres, -⟩ | ⟨-, hrec, r, hres⟩ | ⟨r, hrec, hres, -⟩
    · rw [hrec, hres]
      exact ⟨lost, h⟩
    · rw [hrec, hres]
      exact ⟨r :: lost, (h.cons r).trans List.perm_middle.symm⟩
    · rw [hrec, hres]
      exact ⟨lost, h.cons r⟩

/-- The view differs from the original one only where a shadow page is recorded. -/
structure Overlaid (vm : Vm κ ε) : Prop where
  original : ∀ g rm, tmFindRemapped vm.tm g = some rm → rm.o = g
  slat : ∀ g, tmFindRemapped vm.tm g = none → vm.machine.slat g = g

lemma overlaid_invariant : PageInvariant Tidy (fun vm : Vm κ ε => Overlaid vm) := by
  have hcongr : ∀ vm vm' : Vm κ ε, vm'.tm.remappedTbl = vm.tm.remappedTbl →
      vm'.machine.slat = vm.machine.slat → Overlaid vm → Overlaid vm' := by
    intro vm vm' htbl hslat h
    have hfind : tmFindRemapped vm'.tm = tmFindRemapped vm.tm := by
      unfold tmFindRemapped
      rw [htbl]
    refine ⟨?_, ?_⟩
    · rw [hfind]
      exact h.original
    · rw [hfind, hslat]
      exact h.slat
  constructor
  case same => exact fun vm vm' hpages h => hcongr vm vm' hpages.remappedTbl hpages.slat h
  case frame =>
    intro vm calls frame htidy h
    rcases shadowFrame_frames vm calls frame with
      ⟨-, -, hslat, htbl⟩ | ⟨hnot, -⟩ | ⟨r, -, -, hslat, hfind⟩
    · exact hcongr vm _ htbl hslat h
    · exact absurd htidy hnot
    · refine ⟨fun g rm hg => ?_, fun g hg => ?_⟩
      · rw [hfind] at hg
        split at hg
        · rename_i heq
          cases hg
          exact heq.symm
        · exact h.original g rm hg
      · rw [hfind] at hg
        split at hg
        · cases hg
        · rename_i hne
          rw [hslat g hne]
          exact h.slat g hg

/-- A page that raises events has an entry. -/
def Reported (vm : Vm κ ε) : Prop :=
  ∀ g, vm.machine.memEvent g = true → (tmFindMemtrap vm.tm g).isSome = true

lemma reported_invariant : PageInvariant (fun _ => True) (fun vm : Vm κ ε => Reported vm) := by
  constructor
  case same =>
    intro vm vm' hpages h g hg
    rw [hpages.memEvent] at hg
    unfold tmFindMemtrap
    rw [hpages.memaccessTbl]
    exact h g hg
  case frame =>
    intro vm calls frame _ h g hg
    obtain ⟨hother, -⟩ := shadowFrame_views vm calls frame
    obtain ⟨-, -, -, hnew, hold⟩ := protectFrame_keeps (shadowOf vm calls frame).2 calls frame
    by_cases heq : g = frame
    · rw [heq]
      exact hnew
    · rw [(hother g heq).2] at hg
      apply hold
      have hsame : (shadowOf vm calls frame).2.tm.memaccessTbl = vm.tm.memaccessTbl := by
        obtain ⟨-, htm⟩ := createShadowPage_aside vm calls.shadow frame
        unfold shadowOf
        split
        · rfl
        · dsimp only
          split
          · rw [Vm.setTm_tm, htm]
            rfl
          · rw [htm]
      unfold tmFindMemtrap
      rw [hsame]
      exact h g hg

/-! ### Closing after any run -/

/-- A closed handler: all vCPUs use the original view, no page raises events, the memory is as it
was, each registered trap was freed once, and all recorded frames were given back. -/
structure Detached (vm : Vm κ ε) (closed : Machine × List (Trap κ ε)) : Prop where
  view : ∀ v, (closed.1.vcpu v).slatId = ORIGIN_IDX
  memEvent : ∀ g, closed.1.memEvent g = false
  mem : closed.1.mem = vm.machine.mem
  traps : ∃ reg, Registered vm reg ∧ closed.2.Perm reg
  reserved : vm.machine.reserved.Perm (recorded vm ++ closed.1.reserved)

section Closed

variable {walk : TableWalk} {calls : ClosingCalls} {vm : Vm κ ε}

lemma close_machine (walk : TableWalk) (hcalls : calls.Succeed) (vm : Vm κ ε) :
    (vm.close walk calls).1 =
      { vm.machine with
        memEvent := fun g =>
          if g ∈ walk.memtraps vm.tm.memaccessTbl then false else vm.machine.memEvent g
        slat := fun g => if g ∈ (walk.remappeds vm.tm.remappedTbl).map Remapped.o then g
          else vm.machine.slat g
        reserved := ((walk.remappeds vm.tm.remappedTbl).map Remapped.r).foldl List.erase
          vm.machine.reserved
        vcpu := fun v => { vm.machine.vcpu v with slatId := ORIGIN_IDX } } := by
  unfold Vm.close destroyTraps Machine.resetView
  simp only [hcalls.slatSwitch, if_true, foldl_resetMemEvent hcalls.setMemEvent,
    foldl_resetRemapped hcalls.changeGfn hcalls.decreaseReservation]

lemma close_reserved (hcalls : calls.Succeed) {lost : List Nat} (h : Recorded lost vm) :
    (vm.close walk calls).1.reserved.Perm lost := by
  have htaken : ((walk.remappeds vm.tm.remappedTbl).map Remapped.r).Perm (recorded vm) := by
    have hperm := (walk.remappeds_perm vm.tm.remappedTbl).map Remapped.r
    rwa [List.map_map] at hperm
  rw [close_machine walk hcalls]
  exact perm_of_foldl_erase (h.trans (htaken.symm.append_right lost))

lemma close_detached (hcalls : calls.Succeed) (hreg : ∃ reg, Registered vm reg) {lost : List Nat}
    (hlost : Recorded lost vm) (hreported : Reported vm) : Detached vm (vm.close walk calls) := by
  obtain ⟨reg, hreg⟩ := hreg
  refine ⟨fun v => by rw [close_machine walk hcalls], fun g => ?_,
    by rw [close_machine walk hcalls], ⟨reg, hreg, tmDestroy_perm walk hreg.indexed⟩,
    hlost.trans ((close_reserved hcalls hlost).symm.append_left _)⟩
  rw [close_machine walk hcalls]
  dsimp only
  split
  · rfl
  · rename_i hnot
    rw [← Bool.not_eq_true]
    intro hevent
    apply hnot
    have hmem : g ∈ vm.tm.memaccessTbl := AList.lookup_isSome.mp (hreported g hevent)
    exact (walk.memtraps_perm _).mem_iff.mpr (AList.mem_keys.mp hmem)

lemma close_slat (hcalls : calls.Succeed) (h : Overlaid vm) (g : Nat) :
    (vm.close walk calls).1.slat g = g := by
  rw [close_machine walk hcalls]
  dsimp only
  split
  · rfl
  · rename_i hnot
    apply h.slat
    by_contra hsome
    obtain ⟨rm, hrm⟩ := Option.ne_none_iff_exists'.mp hsome
    apply hnot
    have hentry : (⟨g, rm⟩ : Σ _ : Nat, Remapped) ∈ vm.tm.remappedTbl.entries :=
      AList.mem_lookup_iff.mp hrm
    have hmem := (walk.remappeds_perm vm.tm.remappedTbl).mem_iff.mpr
      (List.mem_map_of_mem (f := Sigma.snd) hentry)
    exact List.mem_map.mpr ⟨rm, hmem, h.original g rm hrm⟩

end Closed

section Runs

variable [DecidableEq κ] [DecidableEq ε]

omit [DecidableEq κ] [DecidableEq ε] in
lemma recorded_started {vm : Vm κ ε} (h : Started vm) : Recorded vm.machine.reserved vm := by
  have hnone : recorded vm = [] := by
    unfold recorded
    rw [h.tm]
    rfl
  unfold Recorded
  rw [hnone]
  exact List.Perm.refl _

omit [DecidableEq κ] [DecidableEq ε] in
lemma HookAction.asks_true (action : HookAction κ ε) : action.Asks fun _ => True := by
  cases action with
  | inject trap calls => trivial
  | event event =>
    cases event with
    | int3 event calls => exact fun _ => trivial
    | mem event => trivial
    | step vcpuId calls => trivial
  | guest pa b => trivial

/-- Whatever was answered before, closing detaches the handler from the VM. Frames stay behind
only if one was lost when a shadow page could not be created. -/
theorem close_undoes (walk : TableWalk) {calls : ClosingCalls} (hcalls : calls.Succeed)
    {cbs : Callbacks κ ε σ} {w₀ : Beside κ ε σ} (h₀ : Started w₀.vm)
    {tr : List (HookAction κ ε × Beside κ ε σ)} (hrun : IsRun (HookRun cbs) w₀ tr) :
    Detached (final w₀ tr).vm ((final w₀ tr).vm.close walk calls) ∧
      (Meets (fun _ action => action.Asks Tidy) w₀ tr →
        ((final w₀ tr).vm.close walk calls).1.reserved.Perm w₀.vm.machine.reserved ∧
          ∀ g, ((final w₀ tr).vm.close walk calls).1.slat g = g) := by
  have hhook : Steady w₀ := steady_tmInit h₀.tm h₀.passes
  constructor
  · have hstart : Reported w₀.vm := by
      intro g hg
      rw [h₀.memEvent] at hg
      cases hg
    have hkept : ∀ w action w', Steady w ∧ (∃ lost, Recorded lost w.vm) ∧ Reported w.vm →
        HookRun cbs w action w' → Steady w' ∧ (∃ lost, Recorded lost w'.vm) ∧ Reported w'.vm :=
      fun w action w' ⟨hhook, hlost, hreported⟩ hw => ⟨hhook.step hw,
        recorded_or_lost_invariant.step hlost hhook hw action.asks_true,
        reported_invariant.step hreported hhook hw action.asks_true⟩
    obtain ⟨hsteady, ⟨lost, hlost⟩, hreported⟩ :=
      (hrun.always hkept ⟨hhook, ⟨_, recorded_started h₀⟩, hstart⟩).final
    exact close_detached hcalls hsteady.registered hlost hreported
  · intro htidy
    have hstart : Overlaid w₀.vm := by
      refine ⟨fun g rm hg => ?_, fun g _ => h₀.slat g⟩
      rw [h₀.tm] at hg
      cases hg
    have hkept : ∀ w action w',
        Steady w ∧ Recorded w₀.vm.machine.reserved w.vm ∧ Overlaid w.vm →
        action.Asks Tidy ∧ HookRun cbs w action w' →
        Steady w' ∧ Recorded w₀.vm.machine.reserved w'.vm ∧ Overlaid w'.vm :=
      fun w action w' ⟨hhook, hrec, hover⟩ ⟨hasks, hw⟩ => ⟨hhook.step hw,
        (recorded_invariant _).step hrec hhook hw hasks,
        overlaid_invariant.step hover hhook hw hasks⟩
    obtain ⟨-, hrec, hover⟩ :=
      ((hrun.meets htidy).always hkept ⟨hhook, recorded_started h₀, hstart⟩).final
    exact ⟨close_reserved hcalls hrec, close_slat hcalls hover⟩

end Runs

/-- The tables in the order of their entries. -/
def TableWalk.entries : TableWalk where
  memtraps := AList.keys
  remappeds := fun table => table.entries.map Sigma.snd
  wrappers := fun table => table.entries.map Sigma.snd
  memtraps_perm := fun _ => List.Perm.refl _
  remappeds_perm := fun _ => List.Perm.refl _
  wrappers_perm := fun _ => List.Perm.refl _

def ClosingCalls.succeeding : ClosingCalls :=
  ⟨fun _ => true, fun _ => true, fun _ => true, true⟩

lemma ClosingCalls.succeeding_succeed : ClosingCalls.succeeding.Succeed :=
  ⟨fun _ => rfl, fun _ => rfl, fun _ => rfl, rfl⟩

/-- A handler with one trap gives its shadow frame back. -/
theorem close_undoes_oneTrap : (oneTrapVm.close .entries .succeeding).1.reserved = [] ∧
    ∀ g, (oneTrapVm.close .entries .succeeding).1.slat g = g := by
  let cbs : Callbacks Unit Unit Unit := fun _ _ _ _ s => (none, s)
  let w₀ : Beside Unit Unit Unit := ⟨Vm.start fun _ => 0x90, (), fun _ => 0x90⟩
  let tr : List (HookAction Unit Unit × Beside Unit Unit Unit) :=
    [(.inject ⟨0, [], none, none, 0x1005, true, none⟩ (.succeeding 0x500),
      ⟨oneTrapVm, (), fun _ => 0x90⟩)]
  have hrun : IsRun (HookRun cbs) w₀ tr := ⟨⟨.success, oneTrapVm, oneTrap_run.2, rfl⟩, trivial⟩
  have hstarted : Started w₀.vm := ⟨untouched_start _, fun _ => rfl, fun _ => rfl⟩
  have htidy : Meets (fun _ action => action.Asks Tidy) w₀ tr :=
    ⟨.inr (.inr ⟨0x500, (InjectCalls.succeeding_succeed (by decide)).shadow⟩), trivial⟩
  obtain ⟨-, hback⟩ :=
    close_undoes TableWalk.entries ClosingCalls.succeeding_succeed hstarted hrun
  obtain ⟨hreserved, hslat⟩ := hback htidy
  exact ⟨hreserved.eq_nil, hslat⟩

end Hfm

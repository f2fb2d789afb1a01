import Hfm.Events

/-!
# The loop over the traps at an address

The loop of `_int3_cb` follows the links of a list that its own body appends to and removes
from. It visits the traps of a queue: those in the list at first, then the return traps
that were registered at the same address on the way.
-/

namespace Hfm

open Support NodeHeap

variable {κ ε σ : Type}

/-- The traps `reg` are registered, each of them once and at an address in use. -/
structure Registered (vm : Vm κ ε) (reg : List (Trap κ ε)) : Prop where
  indexed : Indexed vm.tm reg
  nodup : reg.Nodup
  addr_lt : ∀ t ∈ reg, t.addr < vm.brk

/-- What is known of the trap that a visit leaves behind for the return. -/
structure Planted (vm vm' : Vm κ ε) (trap t : Trap κ ε) : Prop where
  addr : t.addr = vm.brk
  brk : vm.brk < vm'.brk
  selfDestroy : t.selfDestroy = true
  retCb : t.retCb = none
  cb : t.cb = trap.retCb
  hasRet : trap.retCb.isSome = true
  extra : t.extra.isSome = true

/-- Calling the callback of a trap never faults, and registers the return trap at most. -/
lemma callTrap_spec (cbs : Callbacks κ ε σ) (event : InterruptEvent) (calls : VisitCalls)
    (trap : Trap κ ε) (vm : Vm κ ε) (s : UInt64 × σ) :
    ∃ vm' s' planted, callTrap cbs event calls trap vm s = .ok (vm', s', planted) ∧ Aside vm vm' ∧
      (∀ g rm, tmFindRemapped vm.tm g = some rm → tmFindRemapped vm'.tm g = some rm) ∧
      (∀ t, planted = some t → Planted vm vm' trap t) ∧
      ∀ reg cells, IndexedBy vm.tm reg cells → IndexedBy vm'.tm (reg ++ planted.toList)
        (planted.elim cells (addCells vm.tm.nodes.fresh cells)) := by
  unfold callTrap
  split
  · refine ⟨_, _, _, rfl, Aside.refl vm, fun _ _ h => h, by simp, fun reg cells h => ?_⟩
    simpa using h
  · rename_i cb hcb
    dsimp only
    generalize cbs cb vm trap event s = answer
    obtain ⟨extra, s'⟩ := answer
    dsimp only
    split
    · rename_i extra ret hret
      have hbrk : Aside vm { vm with brk := vm.brk + 1 } := ⟨rfl, rfl, rfl, rfl, Nat.le_succ _⟩
      obtain ⟨status, vm', hok, haside, hremapped, hindexed⟩ := injectTrap_spec
        { vm with brk := vm.brk + 1 } calls.inject (returnTrap vm calls trap extra)
      refine ⟨vm', s', if status = .success then some (returnTrap vm calls trap extra) else none,
        ?_, hbrk.trans haside, hremapped, ?_, ?_⟩
      · rw [plantReturn, hok]
        rfl
      · intro t ht
        split at ht
        · cases ht
          exact ⟨rfl, haside.brk, rfl, rfl, rfl, by rw [hret]; rfl, rfl⟩
        · cases ht
      · intro reg cells h
        have := hindexed reg cells h
        split
        · rename_i hs
          rw [if_pos hs] at this
          exact this
        · rename_i hs
          rw [if_neg hs] at this
          simpa using this
    · refine ⟨_, _, _, rfl, Aside.refl vm, fun _ _ h => h, by simp, fun reg cells h => ?_⟩
      simpa using h

variable [DecidableEq κ] [DecidableEq ε]

/-- The registered traps after a visit. -/
def visited (reg : List (Trap κ ε)) (trap : Trap κ ε) (planted : Option (Trap κ ε)) :
    List (Trap κ ε) :=
  if trap.selfDestroy then (reg ++ planted.toList).erase trap else reg ++ planted.toList

/-- What a completed visit does: it registers the return trap, in the tables `tm`, and then
removes the trap if that is to destroy itself. -/
structure Visit (trap : Trap κ ε) (planted : Option (Trap κ ε)) (vm vm' : Vm κ ε)
    (tm : Trapmngr κ ε) : Prop where
  aside : Aside vm vm'
  remapped : ∀ g rm, tmFindRemapped vm.tm g = some rm → tmFindRemapped vm'.tm g = some rm
  plants : ∀ t, planted = some t → Planted vm vm' trap t
  indexed : ∀ reg cells, IndexedBy vm.tm reg cells →
    IndexedBy tm (reg ++ planted.toList) (planted.elim cells (addCells vm.tm.nodes.fresh cells))
  removed : vm'.tm = if trap.selfDestroy then (tmRemoveInt3trap tm trap).2 else tm

lemma Visit.mapped {trap : Trap κ ε} {planted : Option (Trap κ ε)} {vm vm' : Vm κ ε}
    {tm : Trapmngr κ ε} (h : Visit trap planted vm vm' tm) {g : Nat}
    (hg : (tmFindRemapped vm.tm g).isSome = true) : (tmFindRemapped vm'.tm g).isSome = true := by
  obtain ⟨rm, hrm⟩ := Option.isSome_iff_exists.mp hg
  exact Option.isSome_iff_exists.mpr ⟨rm, h.remapped g rm hrm⟩

/-- A visit completes, unless the frame of a trap to destroy has no shadow page. -/
lemma visitTrap_spec (cbs : Callbacks κ ε σ) (event : InterruptEvent) (calls : VisitCalls)
    (trap : Trap κ ε) (vm : Vm κ ε) (s : UInt64 × σ) :
    (∃ vm' s' planted tm, visitTrap cbs event calls trap vm s = .ok (vm', s', planted) ∧
      Visit trap planted vm vm' tm) ∨
    (visitTrap cbs event calls trap vm s = .error .nullPointer ∧
      trap.selfDestroy = true ∧ tmFindRemapped vm.tm trap.gfn = none) := by
  obtain ⟨vm₁, s', planted, hok, haside, hremapped, hplanted, hindexed⟩ :=
    callTrap_spec cbs event calls trap vm s
  unfold visitTrap
  rw [hok]
  simp only [bind, Except.bind]
  by_cases hdestroy : trap.selfDestroy = true
  · rw [if_pos hdestroy]
    rcases destroyTrap_spec vm₁ calls.remove trap with ⟨vm', hd, haside', htm⟩ | ⟨hd, hnone⟩
    · left
      rw [hd]
      refine ⟨vm', s', planted, vm₁.tm, rfl, haside.trans haside', ?_, ?_, hindexed, ?_⟩
      · intro g rm hg
        rw [htm, tmFindRemapped_remove]
        exact hremapped g rm hg
      · intro t ht
        have := hplanted t ht
        exact { this with brk := Nat.lt_of_lt_of_le this.brk haside'.brk }
      · rw [htm, if_pos hdestroy]
    · right
      rw [hd]
      refine ⟨rfl, hdestroy, ?_⟩
      cases hrm : tmFindRemapped vm.tm trap.gfn with
      | none => rfl
      | some rm =>
        rw [hremapped _ rm hrm] at hnone
        cases hnone
  · left
    rw [if_neg hdestroy]
    exact ⟨vm₁, s', planted, vm₁.tm, rfl, haside, hremapped, hplanted, hindexed,
      by rw [if_neg hdestroy]⟩

lemma visitTrap_visit {cbs : Callbacks κ ε σ} {event : InterruptEvent} {calls : VisitCalls}
    {trap : Trap κ ε} {vm vm' : Vm κ ε} {s s' : UInt64 × σ} {planted : Option (Trap κ ε)}
    (hok : visitTrap cbs event calls trap vm s = .ok (vm', s', planted)) :
    ∃ tm, Visit trap planted vm vm' tm := by
  rcases visitTrap_spec cbs event calls trap vm s with ⟨vm₁, s₁, planted₁, tm, hok₁, hv⟩ | ⟨hfault, -⟩
  · rw [hok] at hok₁
    cases hok₁
    exact ⟨tm, hv⟩
  · rw [hok] at hfault
    cases hfault

/-- What the callback of a trap answers goes to the state, and to the return trap. -/
lemma visitTrap_answer {cbs : Callbacks κ ε σ} {event : InterruptEvent} {calls : VisitCalls}
    {trap : Trap κ ε} {vm vm' : Vm κ ε} {s s' : UInt64 × σ} {planted : Option (Trap κ ε)}
    (h : visitTrap cbs event calls trap vm s = .ok (vm', s', planted)) :
    (s' = s ∧ planted = none) ∨ ∃ cb, trap.cb = some cb ∧ s' = (cbs cb vm trap event s).2 ∧
      ∀ t, planted = some t → t.extra = (cbs cb vm trap event s).1 := by
  obtain ⟨⟨vm₁, s₁, planted₁⟩, hcall, h⟩ := bind_eq_ok.mp h
  obtain ⟨rfl, rfl⟩ : s₁ = s' ∧ planted₁ = planted := by
    dsimp only at h
    split at h <;>
    · obtain ⟨vm₂, -, h⟩ := bind_eq_ok.mp h
      cases h
      exact ⟨rfl, rfl⟩
  unfold callTrap at hcall
  split at hcall
  · cases hcall
    exact .inl ⟨rfl, rfl⟩
  · rename_i cb hcb
    right
    refine ⟨cb, hcb, ?_⟩
    dsimp only at hcall
    split at hcall
    · rename_i extra ret hextra hret
      obtain ⟨⟨status, vm₃⟩, -, hcall⟩ := bind_eq_ok.mp hcall
      cases hcall
      refine ⟨rfl, fun t ht => ?_⟩
      split at ht
      · cases ht
        exact hextra.symm
      · cases ht
    · cases hcall
      exact ⟨rfl, by simp⟩

omit [DecidableEq κ] [DecidableEq ε] in
lemma Registered.congr {vm vm' : Vm κ ε} {reg : List (Trap κ ε)} (h : Registered vm reg)
    (htm : vm'.tm = vm.tm) (hbrk : vm.brk ≤ vm'.brk) : Registered vm' reg := by
  refine ⟨?_, h.nodup, fun t ht => Nat.lt_of_lt_of_le (h.addr_lt t ht) hbrk⟩
  rw [htm]
  exact h.indexed

omit [DecidableEq κ] [DecidableEq ε] in
/-- Injecting a newly allocated trap. -/
lemma Registered.inject {vm : Vm κ ε} {reg : List (Trap κ ε)} (h : Registered vm reg)
    (calls : InjectCalls) {trap : Trap κ ε} (haddr : trap.addr = vm.brk) :
    ∃ status vm', injectTrap { vm with brk := vm.brk + 1 } calls trap = .ok (status, vm') ∧
      Aside vm vm' ∧
      Registered vm' (if status = .success then reg ++ [trap] else reg) := by
  obtain ⟨⟨cells, hcells⟩, hnodup, hlt⟩ := h
  have hbrk : Aside vm { vm with brk := vm.brk + 1 } := ⟨rfl, rfl, rfl, rfl, Nat.le_succ _⟩
  obtain ⟨status, vm', hok, haside, -, hindexed⟩ :=
    injectTrap_spec { vm with brk := vm.brk + 1 } calls trap
  have hcells' := hindexed reg cells hcells
  have hlt' : vm.brk < vm'.brk := haside.brk
  refine ⟨status, vm', hok, hbrk.trans haside, ?_⟩
  split at hcells'
  · rename_i hs
    rw [if_pos hs]
    have hfresh : trap ∉ reg := by
      intro hmem
      have := hlt trap hmem
      omega
    refine ⟨⟨_, hcells'⟩, ?_, ?_⟩
    · rw [List.nodup_append]
      refine ⟨hnodup, by simp, fun a ha b hb he => ?_⟩
      rw [List.mem_singleton] at hb
      exact hfresh (hb ▸ he ▸ ha)
    · intro t ht
      rcases List.mem_append.mp ht with ht | ht
      · have := hlt t ht
        omega
      · rw [List.mem_singleton.mp ht]
        omega
  · rename_i hs
    rw [if_neg hs]
    exact ⟨⟨_, hcells'⟩, hnodup, fun t ht => Nat.lt_trans (hlt t ht) hlt'⟩

lemma Registered.destroy {vm vm' : Vm κ ε} {reg : List (Trap κ ε)} (h : Registered vm reg)
    {calls : RemoveCalls} {trap : Trap κ ε} (hok : destroyTrap vm calls trap = .ok vm') :
    Registered vm' (reg.erase trap) := by
  rcases destroyTrap_spec vm calls trap with ⟨vm₁, hok', haside, htm⟩ | ⟨hfault, -⟩
  · rw [hok] at hok'
    cases hok'
    refine ⟨?_, h.nodup.erase trap, fun t ht => ?_⟩
    · rw [htm]
      exact (h.indexed.remove trap).1
    · exact Nat.lt_of_lt_of_le (h.addr_lt t (List.mem_of_mem_erase ht)) haside.brk
  · rw [hok] at hfault
    cases hfault

section Visit

variable {vm vm' : Vm κ ε} {tm : Trapmngr κ ε} {reg : List (Trap κ ε)} {trap : Trap κ ε}
  {planted : Option (Trap κ ε)}

lemma Visit.registered (hv : Visit trap planted vm vm' tm) (h : Registered vm reg) :
    Registered vm' (visited reg trap planted) := by
  obtain ⟨⟨cells, hcells⟩, hnodup, hlt⟩ := h
  have hadd := hv.indexed reg cells hcells
  have hnodup' : (reg ++ planted.toList).Nodup := by
    cases hp : planted with
    | none => simpa using hnodup
    | some t =>
      have hfresh : t ∉ reg := by
        intro hmem
        have := hlt t hmem
        rw [(hv.plants t hp).addr] at this
        omega
      rw [Option.toList_some, List.nodup_append]
      refine ⟨hnodup, by simp, fun a ha b hb he => ?_⟩
      rw [List.mem_singleton] at hb
      exact hfresh (hb ▸ he ▸ ha)
  have hlt' : ∀ t ∈ reg ++ planted.toList, t.addr < vm'.brk := by
    intro t ht
    rcases List.mem_append.mp ht with ht | ht
    · exact Nat.lt_of_lt_of_le (hlt t ht) hv.aside.brk
    · have hpl := hv.plants t (Option.mem_toList.mp ht)
      rw [hpl.addr]
      exact hpl.brk
  unfold visited
  by_cases hdestroy : trap.selfDestroy = true
  · rw [if_pos hdestroy]
    refine ⟨?_, hnodup'.erase trap, fun t ht => hlt' t (List.mem_of_mem_erase ht)⟩
    rw [hv.removed, if_pos hdestroy]
    exact ⟨_, (hadd.remove trap).1⟩
  · rw [if_neg hdestroy]
    refine ⟨?_, hnodup', hlt'⟩
    rw [hv.removed, if_neg hdestroy]
    exact ⟨_, hadd⟩

end Visit

/-! ### The cursor -/

/-- The pointer `p` stands in front of the traps `queue` of the list at `pa`. -/
def Cursor (tm : Trapmngr κ ε) (reg : List (Trap κ ε)) (pa : Nat) (p : Option Nat)
    (queue : List (Trap κ ε)) : Prop :=
  ∃ cells front back, IndexedBy tm reg cells ∧ cells (.inl pa) = front ++ back ∧ p = ptr back ∧
    queue = back.map Prod.snd

omit [DecidableEq κ] [DecidableEq ε] in
lemma cursor_head {tm : Trapmngr κ ε} {reg : List (Trap κ ε)} (h : Indexed tm reg) (pa : Nat) :
    Cursor tm reg pa (tmInt3trapsAtPa tm pa) (reg.filter (·.pa = pa)) := by
  obtain ⟨cells, hcells⟩ := h
  have htraps := hcells.traps (.inl pa)
  exact ⟨cells, [], cells (.inl pa), hcells, rfl, (hcells.lists.chain (.inl pa)).eq_ptr, htraps.symm⟩

omit [DecidableEq κ] [DecidableEq ε] in
lemma cursor_none {tm : Trapmngr κ ε} {reg : List (Trap κ ε)} {pa : Nat} {queue : List (Trap κ ε)}
    (h : Cursor tm reg pa none queue) : queue = [] := by
  obtain ⟨cells, front, back, -, -, hp, rfl⟩ := h
  cases back with
  | nil => rfl
  | cons c back => cases hp

omit [DecidableEq κ] [DecidableEq ε] in
lemma cursor_some {tm : Trapmngr κ ε} {reg : List (Trap κ ε)} {pa n : Nat} {queue : List (Trap κ ε)}
    (h : Cursor tm reg pa (some n) queue) : ∃ trap rest q, queue = trap :: rest ∧
      tm.nodes.node n = some ⟨trap, q, true⟩ := by
  obtain ⟨cells, front, back, hcells, heq, hp, rfl⟩ := h
  cases back with
  | nil => cases hp
  | cons c back =>
    obtain ⟨n', trap⟩ := c
    obtain rfl : n = n' := by simpa [ptr] using hp
    have hchain := hcells.lists.chain (.inl pa)
    rw [heq] at hchain
    exact ⟨trap, _, _, rfl, hchain.node⟩

/-- After a visit the link of the visited node leads to the traps that were behind it and
to the return trap, if that is at the same address; the node of a trap that destroyed itself is
released. -/
lemma Visit.link {vm vm' : Vm κ ε} {tm : Trapmngr κ ε} {reg queue : List (Trap κ ε)}
    {trap : Trap κ ε} {planted : Option (Trap κ ε)} {n pa : Nat}
    (hv : Visit trap planted vm vm' tm) (hnodup : reg.Nodup)
    (h : Cursor vm.tm reg pa (some n) (trap :: queue)) :
    ∃ q, vm'.tm.nodes.node n = some ⟨trap, q, !trap.selfDestroy⟩ ∧
      Cursor vm'.tm (visited reg trap planted) pa q
        (queue ++ planted.toList.filter (·.pa = pa)) := by
  obtain ⟨cells, front, back, hcells, heq, hp, hqueue⟩ := h
  cases back with
  | nil => cases hp
  | cons c back =>
  obtain ⟨n', t⟩ := c
  obtain ⟨rfl, rfl⟩ : n = n' ∧ trap = t := by
    simp only [ptr, List.head?_cons, Option.map_some, Option.some.injEq] at hp
    simp only [List.map_cons, List.cons.injEq] at hqueue
    exact ⟨hp, hqueue.1⟩
  obtain rfl : queue = back.map Prod.snd := by simpa using hqueue
  have hadd := hv.indexed reg cells hcells
  obtain ⟨more, hmore, hmoreTraps⟩ : ∃ more, planted.elim cells (addCells vm.tm.nodes.fresh cells)
      (.inl pa) = front ++ (n, trap) :: (back ++ more) ∧
      more.map Prod.snd = planted.toList.filter (·.pa = pa) := by
    cases planted with
    | none => exact ⟨[], by simpa using heq, rfl⟩
    | some t =>
      refine ⟨if t.pa = pa then [(vm.tm.nodes.fresh, t)] else [], ?_, ?_⟩
      · rw [Option.elim_some, addCells_inl, heq]
        simp
      · by_cases ht : t.pa = pa
        · simp [ht]
        · simp [ht]
  obtain rfl : trap.pa = pa := by
    have := (hadd.mem (hmore ▸ List.mem_append_right front List.mem_cons_self)).2
    simpa [belongs] using this
  rw [← hmoreTraps, ← List.map_append]
  unfold visited
  by_cases hdestroy : trap.selfDestroy = true
  · have htraps : ((front ++ (n, trap) :: back).map Prod.snd).Nodup := by
      rw [← heq, hcells.traps]
      exact hnodup.filter _
    have hfront : ∀ c ∈ front, c.2 ≠ trap := by
      intro c hc he
      rw [List.map_append, List.nodup_append] at htraps
      exact htraps.2.2 c.2 (List.mem_map_of_mem hc) trap (by simp) he
    rw [hv.removed, if_pos hdestroy, if_pos hdestroy, hadd.remove_link hmore hfront, hdestroy]
    refine ⟨_, rfl, _, front, back ++ more, (hadd.remove trap).1, ?_, rfl, rfl⟩
    rw [removeCells, hmore, eraseP_of_first trap hfront]
  · have hchain := hadd.lists.chain (.inl trap.pa)
    rw [hmore] at hchain
    rw [hv.removed, if_neg hdestroy, if_neg hdestroy, hchain.node, Bool.eq_false_iff.mpr hdestroy]
    refine ⟨_, rfl, _, front ++ [(n, trap)], back ++ more, hadd, ?_, rfl, rfl⟩
    rw [hmore]
    simp

/-! ### The queue -/

/-- What the link of a visited trap makes of the traps behind it: they are lost where it is
gone with its node. -/
def followLink (trap : Trap κ ε) (freedLink : FreedLink) (queue : List (Trap κ ε)) :
    Except Fault (List (Trap κ ε)) :=
  match trap.selfDestroy, freedLink with
  | false, _ => .ok queue
  | true, .kept => .ok queue
  | true, .cleared => .ok []
  | true, .overwritten => .error .useAfterFree

omit [DecidableEq κ] [DecidableEq ε] in
lemma followLink_permanent {trap : Trap κ ε} (h : trap.selfDestroy = false) (freedLink : FreedLink)
    (queue : List (Trap κ ε)) : followLink trap freedLink queue = .ok queue := by
  unfold followLink
  rw [h]

omit [DecidableEq κ] [DecidableEq ε] in
/-- Following a link fails at an overwritten one only, and goes on or ends the visits. -/
lemma followLink_cases (trap : Trap κ ε) (freedLink : FreedLink) (queue : List (Trap κ ε)) :
    (followLink trap freedLink queue = .error .useAfterFree ∧ freedLink = .overwritten) ∨
      followLink trap freedLink queue = .ok queue ∨ followLink trap freedLink queue = .ok [] := by
  unfold followLink
  cases trap.selfDestroy <;> cases freedLink <;> simp

/-- The loop of `_int3_cb` on the queue of the traps still to visit. -/
def int3Queue (cbs : Callbacks κ ε σ) (event : InterruptEvent) :
    Nat → List (Trap κ ε) → (Nat → VisitCalls) → Vm κ ε → UInt64 × σ →
      Except Fault (Vm κ ε × (UInt64 × σ))
  | 0, _, _, _, _ => .error .diverges
  | _ + 1, [], _, vm, s => .ok (vm, s)
  | fuel + 1, trap :: queue, calls, vm, s => do
    let (vm, s, planted) ← visitTrap cbs event (calls 0) trap vm s
    let queue ← followLink trap (calls 0).freedLink (queue ++ planted.toList.filter (·.pa = event.pa))
    int3Queue cbs event fuel queue (fun i => calls (i + 1)) vm s

/-- The link that the loop takes after a visit stands in front of the traps that are left. -/
lemma Visit.nextTrap {vm vm' : Vm κ ε} {tm : Trapmngr κ ε} {reg queue : List (Trap κ ε)}
    {trap : Trap κ ε} {planted : Option (Trap κ ε)} {n pa : Nat}
    (hv : Visit trap planted vm vm' tm) (hreg : Registered vm reg)
    (h : Cursor vm.tm reg pa (some n) (trap :: queue)) (freedLink : FreedLink) :
    (Hfm.nextTrap vm'.tm.nodes n freedLink = .error .useAfterFree ∧
      followLink trap freedLink (queue ++ planted.toList.filter (·.pa = pa)) = .error .useAfterFree) ∨
    ∃ q left, Hfm.nextTrap vm'.tm.nodes n freedLink = .ok q ∧
      followLink trap freedLink (queue ++ planted.toList.filter (·.pa = pa)) = .ok left ∧
      Cursor vm'.tm (visited reg trap planted) pa q left := by
  obtain ⟨q, hnode, hcursor⟩ := hv.link hreg.nodup h
  have hend : Cursor vm'.tm (visited reg trap planted) pa none [] := by
    obtain ⟨cells, hcells⟩ := (hv.registered hreg).indexed
    exact ⟨cells, cells (.inl pa), [], hcells, (List.append_nil _).symm, rfl, rfl⟩
  unfold Hfm.nextTrap followLink
  rw [hnode]
  cases trap.selfDestroy with
  | false => exact .inr ⟨q, _, rfl, rfl, hcursor⟩
  | true =>
    cases freedLink with
    | kept => exact .inr ⟨q, _, rfl, rfl, hcursor⟩
    | cleared => exact .inr ⟨none, _, rfl, rfl, hend⟩
    | overwritten => exact .inl ⟨rfl, rfl⟩

/-- Following the links of the changing list is working off the queue. -/
theorem int3Loop_eq_queue (cbs : Callbacks κ ε σ) (event : InterruptEvent) (fuel : Nat) :
    ∀ {p : Option Nat} {queue : List (Trap κ ε)} {reg : List (Trap κ ε)} (calls : Nat → VisitCalls)
      {vm : Vm κ ε} (s : UInt64 × σ), Registered vm reg → Cursor vm.tm reg event.pa p queue →
      int3Loop cbs event fuel p calls vm s = int3Queue cbs event fuel queue calls vm s := by
  induction fuel with
  | zero =>
    intro p queue reg calls vm s _ _
    rfl
  | succ fuel ih =>
    intro p queue reg calls vm s hreg hcursor
    cases p with
    | none =>
      obtain rfl := cursor_none hcursor
      rfl
    | some n =>
      obtain ⟨trap, queue, q, rfl, hnode⟩ := cursor_some hcursor
      rw [int3Loop, int3Queue, hnode]
      simp only [bind, Except.bind]
      rcases visitTrap_spec cbs event (calls 0) trap vm s with
        ⟨vm', s', planted, tm, hok, hvisit⟩ | ⟨hfault, -, -⟩
      · rw [hok]
        dsimp only
        rcases hvisit.nextTrap hreg hcursor (calls 0).freedLink with
          ⟨hlink, hleft⟩ | ⟨q, left, hlink, hleft, hnext⟩
        · rw [hlink, hleft]
        · rw [hlink, hleft]
          exact ih _ _ (hvisit.registered hreg) hnext
      · rw [hfault]

/-- How many more visits there can be: a trap with a return callback may plant another. -/
def visitsLeft (queue : List (Trap κ ε)) : Nat :=
  queue.length + (queue.filter (·.retCb.isSome)).length

omit [DecidableEq κ] [DecidableEq ε] in
lemma visitsLeft_le (queue : List (Trap κ ε)) : visitsLeft queue ≤ 2 * queue.length := by
  have := List.length_filter_le (fun t : Trap κ ε => t.retCb.isSome) queue
  unfold visitsLeft
  omega

lemma Visit.visitsLeft_lt {vm vm' : Vm κ ε} {tm : Trapmngr κ ε} {trap : Trap κ ε}
    {planted : Option (Trap κ ε)} (hv : Visit trap planted vm vm' tm) (queue : List (Trap κ ε))
    (pa : Nat) :
    visitsLeft (queue ++ planted.toList.filter (·.pa = pa)) < visitsLeft (trap :: queue) := by
  unfold visitsLeft
  cases planted with
  | none =>
    simp only [Option.toList_none, List.filter_nil, List.append_nil, List.length_cons]
    have := (List.sublist_cons_self trap queue).filter (·.retCb.isSome)
    have := this.length_le
    omega
  | some t =>
    have hret := (hv.plants t rfl).retCb
    have hhas := (hv.plants t rfl).hasRet
    simp only [Option.toList_some, List.filter_cons, List.filter_nil, List.filter_append,
      List.length_append, hhas, if_true, List.length_cons]
    by_cases ht : t.pa = pa
    · simp [ht, hret]
    · simp only [ht, decide_false, Bool.false_eq_true, if_false, List.filter_nil, List.length_nil]
      omega

/-- What has to hold after a visit: its fault is allowed, or the invariant holds again. -/
def AfterVisit (event : InterruptEvent) (F : Fault → Prop)
    (I : List (Trap κ ε) → Vm κ ε → UInt64 × σ → Prop) (queue : List (Trap κ ε)) :
    Except Fault (Vm κ ε × (UInt64 × σ) × Option (Trap κ ε)) → Prop
  | .error fault => F fault
  | .ok (vm, s, planted) => I (queue ++ planted.toList.filter (·.pa = event.pa)) vm s

/-- The invariant rule of the loop: what every visit keeps holds at its end, for the traps
that were not visited, and the only faults are those of the visits and of overwritten links.
The loop always ends. -/
theorem int3Queue_rule {cbs : Callbacks κ ε σ} {event : InterruptEvent} {F : Fault → Prop}
    {A : VisitCalls → Prop} {I : List (Trap κ ε) → Vm κ ε → UInt64 × σ → Prop}
    (hlink : ∀ calls, A calls → calls.freedLink = .overwritten → F .useAfterFree)
    (hvisit : ∀ trap queue vm s calls, A calls → I (trap :: queue) vm s →
      AfterVisit event F I queue (visitTrap cbs event calls trap vm s))
    (fuel : Nat) : ∀ {queue : List (Trap κ ε)} (calls : Nat → VisitCalls) {vm : Vm κ ε}
      {s : UInt64 × σ}, (∀ i, A (calls i)) → I queue vm s → visitsLeft queue < fuel →
      match int3Queue cbs event fuel queue calls vm s with
      | .error fault => F fault
      | .ok (vm', s') => ∃ queue, I queue vm' s' := by
  induction fuel with
  | zero =>
    intro queue calls vm s _ _ hfuel
    omega
  | succ fuel ih =>
    intro queue calls vm s hA hI hfuel
    cases queue with
    | nil => exact ⟨[], hI⟩
    | cons trap queue =>
      have hnext := hvisit trap queue vm s (calls 0) (hA 0) hI
      rw [int3Queue]
      simp only [bind, Except.bind]
      rcases visitTrap_spec cbs event (calls 0) trap vm s with
        ⟨vm', s', planted, tm, hok, hv⟩ | ⟨hfault, -, -⟩
      · rw [hok] at hnext ⊢
        dsimp only
        rcases followLink_cases trap (calls 0).freedLink
          (queue ++ planted.toList.filter (·.pa = event.pa)) with ⟨hleft, hover⟩ | hleft | hleft
        · rw [hleft]
          exact hlink (calls 0) (hA 0) hover
        · rw [hleft]
          have hless := hv.visitsLeft_lt queue event.pa
          apply ih _ (fun i => hA (i + 1)) hnext
          omega
        · -- the traps behind this one are not visited
          rw [hleft]
          cases fuel with
          | zero =>
            have hless := hv.visitsLeft_lt queue event.pa
            omega
          | succ fuel => exact ⟨_, hnext⟩
      · rw [hfault] at hnext ⊢
        exact hnext

/-! ### The handler -/

omit [DecidableEq κ] [DecidableEq ε] in
lemma Indexed.trapsAtPa_eq_none {tm : Trapmngr κ ε} {reg : List (Trap κ ε)} (h : Indexed tm reg)
    (pa : Nat) : tmInt3trapsAtPa tm pa = none ↔ tmTrapExist tm pa = false := by
  obtain ⟨cells, hcells⟩ := h
  have hp : tmInt3trapsAtPa tm pa = ptr (cells (.inl pa)) :=
    (hcells.lists.chain (.inl pa)).eq_ptr
  rw [hp, ← Bool.not_eq_true, hcells.wrapper, not_not]
  cases cells (.inl pa) with
  | nil => simp [ptr]
  | cons c rest => simp [ptr]

omit [DecidableEq κ] [DecidableEq ε] in
lemma Registered.visitsLeft_lt {vm : Vm κ ε} {reg : List (Trap κ ε)} (h : Registered vm reg)
    (pa : Nat) : visitsLeft (reg.filter (·.pa = pa)) < int3Fuel vm := by
  obtain ⟨⟨cells, hcells⟩, -, -⟩ := h
  have hlen := (hcells.lists.chain (.inl pa)).length_le
  have htraps := congrArg List.length (hcells.traps (.inl pa))
  rw [List.length_map] at htraps
  have hle := visitsLeft_le (reg.filter (belongs · (.inl pa)))
  rw [← htraps] at hle
  change visitsLeft (reg.filter (belongs · (.inl pa))) < int3Fuel vm
  unfold int3Fuel
  omega

/-- An INT3 event at an address without traps reads the byte there. -/
lemma int3Cb_of_not_trapExist {vm : Vm κ ε} {reg : List (Trap κ ε)} (h : Registered vm reg)
    (cbs : Callbacks κ ε σ) {event : InterruptEvent} (calls : Int3Calls) (s : σ)
    (hex : tmTrapExist vm.tm event.pa = false) :
    int3Cb cbs event calls vm s =
      if calls.read8 then .ok (⟨.none, (vm.machine.vcpu event.vcpuId).slatId,
        some (vm.machine.mem event.pa = INT3_CHAR)⟩, vm, s)
      else .ok (⟨.none, (vm.machine.vcpu event.vcpuId).slatId, none⟩, vm.interrupt, s) := by
  unfold int3Cb
  rw [(h.indexed.trapsAtPa_eq_none event.pa).mpr hex]
  cases calls.read8 <;> rfl

/-- What `_int3_cb` has set `reinject` to when it comes to its loop. -/
def int3Reinject (event : InterruptEvent) (calls : Int3Calls) (vm : Vm κ ε) :
    Except Fault (Option Bool) :=
  match tmInt3trapsAtPa vm.tm event.pa with
  | none => .ok (if calls.read8 then some (vm.machine.mem event.pa = INT3_CHAR) else none)
  | some _ => do
    let doubletrap ← tmCheckDoubletrap vm.tm event.pa
    return some (doubletrap ≠ 0)

/-- The loop leaves it. -/
lemma int3Cb_reinject {vm vm' : Vm κ ε} {cbs : Callbacks κ ε σ} {event : InterruptEvent}
    {calls : Int3Calls} {s s' : σ} {handled : Handled}
    (h : int3Cb cbs event calls vm s = .ok (handled, vm', s')) :
    int3Reinject event calls vm = .ok handled.reinject := by
  unfold int3Cb at h
  unfold int3Reinject
  cases htraps : tmInt3trapsAtPa vm.tm event.pa with
  | none =>
    rw [htraps] at h
    cases hread : calls.read8 with
    | false =>
      rw [hread] at h
      cases h
      rfl
    | true =>
      rw [hread] at h
      cases h
      rfl
  | some int3traps =>
    rw [htraps] at h
    obtain ⟨doubletrap, hcheck, h⟩ := bind_eq_ok.mp h
    obtain ⟨done, -, h⟩ := bind_eq_ok.mp h
    cases h
    dsimp only
    rw [hcheck]
    rfl

/-- What is left to do after the loop. -/
def int3Done (event : InterruptEvent) (doubletrap : UInt8) (done : Vm κ ε × (UInt64 × σ)) :
    Handled × Vm κ ε × σ :=
  (⟨.switch, ORIGIN_IDX, some (doubletrap ≠ 0)⟩,
    done.1.setStep event.vcpuId ⟨.singlestepCb, .handler⟩, done.2.2)

/-- An INT3 event at a trapped address works off the queue of the traps there. -/
theorem int3Cb_eq_queue {vm : Vm κ ε} {reg : List (Trap κ ε)} (h : Registered vm reg)
    (cbs : Callbacks κ ε σ) {event : InterruptEvent} (calls : Int3Calls) (s : σ)
    (hex : tmTrapExist vm.tm event.pa = true) :
    ∃ doubletrap, tmCheckDoubletrap vm.tm event.pa = .ok doubletrap ∧
      int3Cb cbs event calls vm s = (int3Queue cbs event (int3Fuel vm)
        (reg.filter (·.pa = event.pa)) calls.visit vm (0, s)).map (int3Done event doubletrap) := by
  obtain ⟨w, hw⟩ := Option.isSome_iff_exists.mp hex
  have hcheck : tmCheckDoubletrap vm.tm event.pa = .ok w.doubletrap := by
    unfold tmCheckDoubletrap
    rw [hw]
  have hne : tmInt3trapsAtPa vm.tm event.pa ≠ none := by
    rw [ne_eq, h.indexed.trapsAtPa_eq_none, hex]
    simp
  obtain ⟨n, hn⟩ := Option.ne_none_iff_exists'.mp hne
  have hloop := int3Loop_eq_queue cbs event (int3Fuel vm) calls.visit (0, s) h
    (cursor_head h.indexed event.pa)
  refine ⟨w.doubletrap, hcheck, ?_⟩
  rw [← hloop]
  unfold int3Cb
  rw [hn, hcheck]
  simp only [bind, Except.bind]
  cases int3Loop cbs event (int3Fuel vm) (some n) calls.visit vm (0, s) <;> rfl

/-- The invariant rule of an INT3 event at a trapped address. -/
theorem int3Cb_rule {vm : Vm κ ε} {reg : List (Trap κ ε)} (h : Registered vm reg)
    {cbs : Callbacks κ ε σ} {event : InterruptEvent} {F : Fault → Prop}
    {A : VisitCalls → Prop} {I : List (Trap κ ε) → Vm κ ε → UInt64 × σ → Prop}
    (hlink : ∀ calls, A calls → calls.freedLink = .overwritten → F .useAfterFree)
    (hvisit : ∀ trap queue vm s calls, A calls → I (trap :: queue) vm s →
      AfterVisit event F I queue (visitTrap cbs event calls trap vm s))
    (calls : Int3Calls) (hA : ∀ i, A (calls.visit i)) {s : σ}
    (hex : tmTrapExist vm.tm event.pa = true) (hI : I (reg.filter (·.pa = event.pa)) vm (0, s)) :
    ∃ doubletrap, tmCheckDoubletrap vm.tm event.pa = .ok doubletrap ∧
      match int3Cb cbs event calls vm s with
      | .error fault => F fault
      | .ok (handled, vm', s') => handled = ⟨.switch, ORIGIN_IDX, some (doubletrap ≠ 0)⟩ ∧
          ∃ queue vm₁ base, I queue vm₁ (base, s') ∧
            vm' = vm₁.setStep event.vcpuId ⟨.singlestepCb, .handler⟩ := by
  obtain ⟨doubletrap, hcheck, heq⟩ := int3Cb_eq_queue h cbs calls s hex
  have hrule := int3Queue_rule hlink hvisit (int3Fuel vm) calls.visit hA hI (h.visitsLeft_lt event.pa)
  refine ⟨doubletrap, hcheck, ?_⟩
  rw [heq]
  split at hrule
  · rename_i fault hfault
    rw [hfault]
    exact hrule
  · rename_i vm₁ s₁ hok
    obtain ⟨queue, hqueue⟩ := hrule
    rw [hok]
    exact ⟨rfl, queue, vm₁, s₁.1, hqueue, rfl⟩

/-- On a page with a shadow page an INT3 event is handled to its end, whatever the calls
on the way answer, unless the link of a released node is overwritten: all traps it destroys
are at its own address. -/
theorem int3Cb_handled {vm : Vm κ ε} {reg : List (Trap κ ε)} (h : Registered vm reg)
    (cbs : Callbacks κ ε σ) {event : InterruptEvent} (calls : Int3Calls) (s : σ)
    (hex : tmTrapExist vm.tm event.pa = true)
    (hmapped : (tmFindRemapped vm.tm (event.pa >>> PAGE_OFFSET_BITS)).isSome = true) :
    ∃ doubletrap, tmCheckDoubletrap vm.tm event.pa = .ok doubletrap ∧
      match int3Cb cbs event calls vm s with
      | .error fault => fault = .useAfterFree ∧ ∃ i, (calls.visit i).freedLink = .overwritten
      | .ok (handled, _, _) => handled = ⟨.switch, ORIGIN_IDX, some (doubletrap ≠ 0)⟩ := by
  let I : List (Trap κ ε) → Vm κ ε → UInt64 × σ → Prop := fun queue vm _ =>
    (∀ t ∈ queue, t.pa = event.pa) ∧
      (tmFindRemapped vm.tm (event.pa >>> PAGE_OFFSET_BITS)).isSome = true
  let A : VisitCalls → Prop := fun answers => ∃ i, calls.visit i = answers
  let F : Fault → Prop := fun fault =>
    fault = .useAfterFree ∧ ∃ i, (calls.visit i).freedLink = .overwritten
  have hlink : ∀ answers, A answers → answers.freedLink = .overwritten → F .useAfterFree := by
    rintro _ ⟨i, rfl⟩ hover
    exact ⟨rfl, i, hover⟩
  have hvisit : ∀ trap queue (vm : Vm κ ε) (s : UInt64 × σ) calls, A calls →
      I (trap :: queue) vm s →
      AfterVisit event F I queue (visitTrap cbs event calls trap vm s) := by
    rintro trap queue vm s calls - ⟨hpa, hrm⟩
    rcases visitTrap_spec cbs event calls trap vm s with
      ⟨vm', s', planted, tm, hok, hv⟩ | ⟨-, -, hnone⟩
    · rw [hok]
      refine ⟨fun t ht => ?_, hv.mapped hrm⟩
      rcases List.mem_append.mp ht with ht | ht
      · exact hpa t (List.mem_cons_of_mem _ ht)
      · simpa using (List.mem_filter.mp ht).2
    · have hgfn : trap.gfn = event.pa >>> PAGE_OFFSET_BITS := by
        rw [← hpa trap List.mem_cons_self]
        rfl
      rw [← hgfn, hnone] at hrm
      cases hrm
  have hqueue : I (reg.filter (·.pa = event.pa)) vm (0, s) :=
    ⟨fun t ht => by simpa using (List.mem_filter.mp ht).2, hmapped⟩
  obtain ⟨doubletrap, hcheck, hrule⟩ :=
    int3Cb_rule h hlink hvisit calls (fun i => ⟨i, rfl⟩) hex hqueue
  refine ⟨doubletrap, hcheck, ?_⟩
  split at hrule
  · rename_i fault hfault
    rw [hfault]
    exact hrule
  · rename_i handled vm' s' hok
    rw [hok]
    exact hrule.1

end Hfm

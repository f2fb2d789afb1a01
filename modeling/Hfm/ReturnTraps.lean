import Hfm.Int3Loop
import Hfm.ShadowPages
import Hfm.Support.Ledger

/-!
# Return traps

An entry callback may hand over a record; `_int3_cb` plants a trap at the return address of
the call, which takes the record to the return callback. The traps that wait at one address
go off in the order in which they were planted, at whatever event comes there, up to the
first whose link is gone with its node.
-/

namespace Hfm

open Support

variable {γ : Type}

/-! ### Calls and returns -/

/-- The callbacks of the monitored system calls. -/
inductive Hook (γ : Type) where
  | entry (f : γ)
  | ret (f : γ)
  deriving DecidableEq

/-- The `extra` of an entry callback: which hit and which entry trap it is from. -/
structure Record where
  hit : Nat
  entry : Nat
  deriving DecidableEq

/-- A call of a return callback, with the hit whose registers it sees. -/
structure Report (γ : Type) where
  hit : Nat
  ret : γ
  record : Record
  deriving DecidableEq

/-- The number of the hit being handled, and the reports so far. -/
structure Reports (γ : Type) where
  hit : Nat
  log : List (Report γ)

/-- Entry callbacks hand over a record or not, return callbacks report theirs. -/
def hookCbs (produces : Nat → Nat → Bool) : Callbacks (Hook γ) Record (Reports γ)
  | .entry _, _, trap, _, (base, s) =>
    (if produces s.hit trap.addr then some ⟨s.hit, trap.addr⟩ else none, (base, s))
  | .ret f, _, trap, _, (base, s) =>
    (none, (base, { s with log := s.log ++ trap.extra.toList.map (⟨s.hit, f, ·⟩) }))

/-- A thread gets to an instruction. The word on top of its stack leads to the physical
address `ret`; `returns` is the hit whose call it returns from, if it does. -/
structure Hit where
  event : InterruptEvent
  ret : Nat
  returns : Option Nat
  calls : Int3Calls

def Hit.pa (hit : Hit) : Nat := hit.event.pa

lemma Hit.event_pa (hit : Hit) : hit.event.pa = hit.pa := rfl

/-- The return address is read and translated, and injections succeed. -/
structure Hit.Answered (hit : Hit) : Prop where
  ret : ∀ i, (hit.calls.visit i).pagetableLookup
    ((hit.calls.visit i).readAddr.getD (hit.calls.visit i).ret) = hit.ret
  inject : ∀ i, ∃ r, (hit.calls.visit i).inject.Succeed r

section Run

variable [DecidableEq γ]

/-- An INT3 event is raised where a trap is. -/
def callHit (produces : Nat → Nat → Bool) (n : Nat) (hit : Hit) (vm : Vm (Hook γ) Record)
    (log : List (Report γ)) : Except Fault (Vm (Hook γ) Record × List (Report γ)) :=
  if tmTrapExist vm.tm hit.pa then do
    let (_, vm, s) ← int3Cb (hookCbs produces) hit.event hit.calls vm ⟨n, log⟩
    return (vm, s.log)
  else .ok (vm, log)

/-- The first `n` hits, of all threads in the order in which they happen. -/
def runHits (produces : Nat → Nat → Bool) (hits : Nat → Hit) (vm₀ : Vm (Hook γ) Record) :
    Nat → Except Fault (Vm (Hook γ) Record × List (Report γ))
  | 0 => .ok (vm₀, [])
  | n + 1 => do
    let (vm, log) ← runHits produces hits vm₀ n
    callHit produces n (hits n) vm log

end Run

/-- The traps at the entries of the monitored system calls. -/
structure Entries (vm : Vm (Hook γ) Record) (entries : List (Trap (Hook γ) Record)) : Prop where
  registered : Registered vm entries
  remapped : ∀ t ∈ entries, (tmFindRemapped vm.tm t.gfn).isSome = true
  selfDestroy : ∀ t ∈ entries, t.selfDestroy = false
  cb : ∀ t ∈ entries, ∃ f, t.cb = some (.entry f)
  retCb : ∀ t ∈ entries, ∀ c, t.retCb = some c → ∃ f, c = .ret f
  addr : (entries.map Trap.addr).Nodup

/-! ### Visits -/

lemma injectTrap_success {κ ε : Type} (vm : Vm κ ε) (trap : Trap κ ε) {calls : InjectCalls} {r : Nat}
    (hcalls : calls.Succeed r)
    (hmapped : tmTrapExist vm.tm trap.pa = true → (tmFindRemapped vm.tm trap.gfn).isSome = true) :
    ∃ vm', injectTrap vm calls trap = .ok (.success, vm') ∧
      (tmFindRemapped vm'.tm trap.gfn).isSome = true := by
  unfold injectTrap
  cases hex : tmTrapExist vm.tm trap.pa with
  | true =>
    refine ⟨_, rfl, ?_⟩
    rw [Vm.setTm_tm, tmFindRemapped_add]
    exact hmapped hex
  | false =>
    have hframe : trap.pa >>> PAGE_OFFSET_BITS = trap.gfn := rfl
    obtain ⟨-, -, hfind₁⟩ := shadowOf_frames vm hcalls trap.gfn
    rw [setInt3_succeed vm hcalls.read8 hcalls.write8 hframe]
    generalize shadowOf vm calls trap.gfn = shadowed at hfind₁ ⊢
    obtain ⟨-, -, hfind₂, -⟩ := protectFrame_keeps shadowed.2 calls trap.gfn
    generalize protectFrame shadowed.2 calls trap.gfn = vm₂ at hfind₂ ⊢
    have hset : tmSetDoubletrap (tmAddInt3trap vm₂.tm trap) trap.pa (doubletrapAt vm₂ trap.pa) =
        .ok _ := tmSetDoubletrap_eq (by simp) _
    simp only [Vm.setMachine_tm, hset]
    refine ⟨_, rfl, ?_⟩
    change (tmFindRemapped (tmAddInt3trap vm₂.tm trap) trap.gfn).isSome = true
    rw [tmFindRemapped_add, hfind₂, hfind₁]
    simp

section Visits

variable [DecidableEq γ] {produces : Nat → Nat → Bool} (event : InterruptEvent) {calls : VisitCalls}
  (base : UInt64) {s : Reports γ} {vm : Vm (Hook γ) Record} {t : Trap (Hook γ) Record}

lemma visitTrap_entry_produces {f : γ} (hcb : t.cb = some (.entry f)) (hdestroy : t.selfDestroy = false)
    (hret : t.retCb.isSome = true) (hproduces : produces s.hit t.addr = true) {r : Nat}
    (hinject : calls.inject.Succeed r)
    (hmapped : ∀ pa, tmTrapExist vm.tm pa = true →
      (tmFindRemapped vm.tm (pa >>> PAGE_OFFSET_BITS)).isSome = true) :
    let p := returnTrap vm calls t ⟨s.hit, t.addr⟩
    ∃ vm', visitTrap (hookCbs produces) event calls t vm (base, s) = .ok (vm', (base, s), some p) ∧
      (tmFindRemapped vm'.tm p.gfn).isSome = true := by
  obtain ⟨ret, hret⟩ := Option.isSome_iff_exists.mp hret
  obtain ⟨vm', hok, hrm⟩ := injectTrap_success { vm with brk := vm.brk + 1 }
    (returnTrap vm calls t ⟨s.hit, t.addr⟩) hinject (hmapped _)
  refine ⟨vm', ?_, hrm⟩
  unfold visitTrap callTrap plantReturn
  simp only [hcb, hookCbs, hproduces, if_true, hret, hok, hdestroy, bind, Except.bind, pure,
    Except.pure, Bool.false_eq_true, if_false]

lemma visitTrap_entry_declines {f : γ} (hcb : t.cb = some (.entry f))
    (hdestroy : t.selfDestroy = false) (h : (t.retCb.isSome && produces s.hit t.addr) = false) :
    visitTrap (hookCbs produces) event calls t vm (base, s) = .ok (vm, (base, s), none) := by
  have hcall : callTrap (hookCbs produces) event calls t vm (base, s) = .ok (vm, (base, s), none) := by
    unfold callTrap
    simp only [hcb, hookCbs]
    cases hproduces : produces s.hit t.addr with
    | false => rfl
    | true =>
      cases hret : t.retCb with
      | none => rfl
      | some c => simp [hproduces, hret] at h
  unfold visitTrap
  simp only [hcall, hdestroy, bind, Except.bind, pure, Except.pure, Bool.false_eq_true, if_false]

variable (produces calls s) in
lemma visitTrap_waits {f : γ} {r : Record} (hdestroy : t.selfDestroy = true)
    (hcb : t.cb = some (.ret f)) (hextra : t.extra = some r)
    (hmapped : (tmFindRemapped vm.tm t.gfn).isSome = true) :
    ∃ vm', visitTrap (hookCbs produces) event calls t vm (base, s) =
      .ok (vm', (base, { s with log := s.log ++ [⟨s.hit, f, r⟩] }), none) := by
  have hcall : callTrap (hookCbs produces) event calls t vm (base, s) =
      .ok (vm, (base, { s with log := s.log ++ [⟨s.hit, f, r⟩] }), none) := by
    unfold callTrap
    simp only [hcb, hookCbs, hextra]
    rfl
  obtain ⟨rm, hrm⟩ := Option.isSome_iff_exists.mp hmapped
  unfold visitTrap
  simp only [hcall, hdestroy, if_true, bind, Except.bind, pure, Except.pure]
  rcases destroyTrap_spec vm calls.remove t with ⟨vm', hd, -⟩ | ⟨-, hnone⟩
  · rw [hd]
    exact ⟨vm', rfl⟩
  · rw [hrm] at hnone
    cases hnone

end Visits

/-! ### The ledger of the return traps -/

/-- What a return trap carries: its callback and the record. -/
structure Slip (γ : Type) where
  ret : γ
  record : Record
  deriving DecidableEq

def slip (p : Trap (Hook γ) Record) : Option (Slip γ) :=
  match p.cb, p.extra with
  | some (.ret f), some r => some ⟨f, r⟩
  | _, _ => none

/-- What the entry trap `t` hands over at hit `n`. -/
def slipAt (produces : Nat → Nat → Bool) (n : Nat) (t : Trap (Hook γ) Record) : Option (Slip γ) :=
  match t.retCb with
  | some (.ret f) => if produces n t.addr then some ⟨f, ⟨n, t.addr⟩⟩ else none
  | _ => none

/-- What is handed over at hit `k`, in order. -/
def filedAt (entries : List (Trap (Hook γ) Record)) (produces : Nat → Nat → Bool) (hits : Nat → Hit)
    (k : Nat) : List (Slip γ) :=
  (entries.filter (·.pa = (hits k).pa)).filterMap (slipAt produces k)

/-- The links of the traps that go off at a hit; those of the entry traps there come first. -/
def Hit.links (hit : Hit) (entries : List (Trap (Hook γ) Record)) (i : Nat) : FreedLink :=
  (hit.calls.visit ((entries.filter (·.pa = hit.pa)).length + i)).freedLink

/-- How many of `w` waiting traps go off: none after one whose link reads as NULL. -/
def goOff : (Nat → FreedLink) → Nat → Except Fault Nat
  | _, 0 => .ok 0
  | links, w + 1 =>
    match links 0 with
    | .kept => (goOff (fun i => links (i + 1)) w).map (· + 1)
    | .cleared => .ok 1
    | .overwritten => .error .useAfterFree

/-- At a hit its records are filed under the return address of the call. -/
def fileHit (entries : List (Trap (Hook γ) Record)) (produces : Nat → Nat → Bool) (hits : Nat → Hit)
    (n : Nat) (l : Ledger Nat (Slip γ)) : Ledger Nat (Slip γ) :=
  l.file (hits n).ret (filedAt entries produces hits n)

/-- Then some of those that wait at its own address go off. -/
def hitLedger (entries : List (Trap (Hook γ) Record)) (produces : Nat → Nat → Bool) (hits : Nat → Hit)
    (n : Nat) (l : Ledger Nat (Slip γ)) : Except Fault (Ledger Nat (Slip γ)) :=
  (goOff ((hits n).links entries) ((fileHit entries produces hits n l).waiting (hits n).pa).length).map
    ((fileHit entries produces hits n l).take n (hits n).pa)

/-- The records that wait and those reported after the first `n` hits. -/
def ledger (entries : List (Trap (Hook γ) Record)) (produces : Nat → Nat → Bool) (hits : Nat → Hit) :
    Nat → Except Fault (Ledger Nat (Slip γ))
  | 0 => .ok .empty
  | n + 1 => do
    let l ← ledger entries produces hits n
    hitLedger entries produces hits n l

def reportOf (x : Nat × Nat × Slip γ) : Report γ := ⟨x.1, x.2.2.ret, x.2.2.record⟩

/-- The registered traps are the entries and those that wait, which carry what the queues at
their addresses hold. -/
structure Pending (entries : List (Trap (Hook γ) Record)) (vm : Vm (Hook γ) Record)
    (rest : List (Trap (Hook γ) Record)) (waiting : Nat → List (Slip γ)) : Prop where
  registered : Registered vm (entries ++ rest)
  selfDestroy : ∀ p ∈ rest, p.selfDestroy = true
  remapped : ∀ t ∈ entries ++ rest, (tmFindRemapped vm.tm t.gfn).isSome = true
  slips : ∀ pa, (rest.filter (·.pa = pa)).map slip = (waiting pa).map some

lemma slipAt_of_declines {produces : Nat → Nat → Bool} {n : Nat} {t : Trap (Hook γ) Record}
    (h : (t.retCb.isSome && produces n t.addr) = false) : slipAt produces n t = none := by
  unfold slipAt
  cases hret : t.retCb with
  | none => rfl
  | some c =>
    rw [hret, Option.isSome_some, Bool.true_and] at h
    cases c with
    | entry f => rfl
    | ret f => rw [h]; rfl

lemma slipAt_of_produces {produces : Nat → Nat → Bool} {n : Nat} {t : Trap (Hook γ) Record} {f : γ}
    (hret : t.retCb = some (.ret f)) (h : produces n t.addr = true) :
    slipAt produces n t = some ⟨f, ⟨n, t.addr⟩⟩ := by
  unfold slipAt
  rw [hret, h]
  rfl

lemma Registered.mapped {κ ε : Type} {vm : Vm κ ε} {reg : List (Trap κ ε)} (h : Registered vm reg)
    (hmapped : ∀ t ∈ reg, (tmFindRemapped vm.tm t.gfn).isSome = true) (pa : Nat)
    (hex : tmTrapExist vm.tm pa = true) :
    (tmFindRemapped vm.tm (pa >>> PAGE_OFFSET_BITS)).isSome = true := by
  obtain ⟨t, ht, rfl⟩ := (h.indexed.trapExist pa).mp hex
  exact hmapped t ht

lemma goOff_le {links : Nat → FreedLink} {w g : Nat} (h : goOff links w = .ok g) : g ≤ w := by
  induction w generalizing links g with
  | zero =>
    cases h
    exact Nat.le_refl 0
  | succ w ih =>
    unfold goOff at h
    split at h
    · obtain ⟨g', hg', rfl⟩ := map_eq_ok.mp h
      have := ih hg'
      omega
    · cases h
      omega
    · cases h

/-- Where traps wait, one of them goes off at least. -/
lemma goOff_pos {links : Nat → FreedLink} {w g : Nat} (h : goOff links (w + 1) = .ok g) : 0 < g := by
  unfold goOff at h
  split at h
  · obtain ⟨g', -, rfl⟩ := map_eq_ok.mp h
    omega
  · cases h
    exact Nat.one_pos
  · cases h

/-- The loop gets to its end where no link is overwritten. -/
lemma goOff_of_not_overwritten {links : Nat → FreedLink} (h : ∀ i, links i ≠ .overwritten)
    (w : Nat) : ∃ g, goOff links w = .ok g := by
  induction w generalizing links with
  | zero => exact ⟨0, rfl⟩
  | succ w ih =>
    obtain ⟨g, hg⟩ := ih fun i => h (i + 1)
    unfold goOff
    cases hlink : links 0 with
    | kept => exact ⟨g + 1, by simp [hg, Except.map]⟩
    | cleared => exact ⟨1, rfl⟩
    | overwritten => exact absurd hlink (h 0)

section Loop

variable [DecidableEq γ] {entries : List (Trap (Hook γ) Record)} {produces : Nat → Nat → Bool}
  {event : InterruptEvent} {rest : List (Trap (Hook γ) Record)} {waiting : Nat → List (Slip γ)}
  {t : Trap (Hook γ) Record} {vm vm₀ : Vm (Hook γ) Record} {base : UInt64} {s : Reports γ}

/-- A visit of an entry trap files what its callback hands over. -/
lemma Pending.entry (hentries : Entries vm₀ entries) (h : Pending entries vm rest waiting)
    (hmem : t ∈ entries) {calls : VisitCalls} {ret r : Nat}
    (hret : calls.pagetableLookup (calls.readAddr.getD calls.ret) = ret)
    (hinject : calls.inject.Succeed r) : ∃ vm' planted,
      visitTrap (hookCbs produces) event calls t vm (base, s) = .ok (vm', (base, s), planted) ∧
      Pending entries vm' (rest ++ planted.toList)
        (Function.update waiting ret (waiting ret ++ (slipAt produces s.hit t).toList)) := by
  obtain ⟨f, hcb⟩ := hentries.cb t hmem
  have hdestroy := hentries.selfDestroy t hmem
  cases hprod : (t.retCb.isSome && produces s.hit t.addr) with
  | false =>
    refine ⟨vm, none, visitTrap_entry_declines event base hcb hdestroy hprod, ?_⟩
    rw [slipAt_of_declines hprod, Option.toList_none, Option.toList_none, List.append_nil,
      List.append_nil, Function.update_eq_self]
    exact h
  | true =>
    obtain ⟨hretCb, hproduces⟩ := Bool.and_eq_true_iff.mp hprod
    obtain ⟨g, hg⟩ : ∃ g, t.retCb = some (.ret g) := by
      obtain ⟨c, hc⟩ := Option.isSome_iff_exists.mp hretCb
      obtain ⟨g, rfl⟩ := hentries.retCb t hmem c hc
      exact ⟨g, hc⟩
    obtain ⟨vm', hok, hrm⟩ := visitTrap_entry_produces event base hcb hdestroy hretCb hproduces
      hinject (h.registered.mapped h.remapped)
    generalize hp : returnTrap vm calls t ⟨s.hit, t.addr⟩ = p at hok hrm
    have hslip : slip p = slipAt produces s.hit t := by
      rw [slipAt_of_produces hg hproduces, ← hp]
      unfold slip returnTrap
      rw [hg]
    have hpa : p.pa = ret := by
      rw [← hp, ← hret]
      rfl
    obtain ⟨tm, hv⟩ := visitTrap_visit hok
    refine ⟨vm', some p, hok, ?registered, ?selfDestroy, ?remapped, ?slips⟩
    case registered =>
      have hreg := hv.registered h.registered
      rw [visited, hdestroy, if_neg Bool.false_ne_true, List.append_assoc] at hreg
      exact hreg
    case selfDestroy =>
      intro q hq
      rcases List.mem_append.mp hq with hq | hq
      · exact h.selfDestroy q hq
      · rw [List.mem_singleton.mp hq, ← hp]
        rfl
    case remapped =>
      intro q hq
      rw [← List.append_assoc] at hq
      rcases List.mem_append.mp hq with hq | hq
      · exact hv.mapped (h.remapped q hq)
      · rw [List.mem_singleton.mp hq]
        exact hrm
    case slips =>
      intro pa
      rw [Option.toList_some, List.filter_append, List.map_append, h.slips pa]
      by_cases hpa' : pa = ret
      · subst hpa'
        rw [Function.update_self, List.map_append, slipAt_of_produces hg hproduces]
        rw [slipAt_of_produces hg hproduces] at hslip
        simp [hpa, hslip]
      · rw [Function.update_of_ne hpa']
        simp [hpa, Ne.symm hpa']

variable (produces base s) in
/-- The entry traps at an address are visited one after the other, and what they hand over is
filed. -/
lemma int3Queue_entries (hentries : Entries vm₀ entries) {ret : Nat} {pa : Nat}
    (hpa : event.pa = pa) : ∀ {left : List (Trap (Hook γ) Record)}, (∀ t ∈ left, t ∈ entries) →
    ∀ {rest : List (Trap (Hook γ) Record)} {waiting : Nat → List (Slip γ)}
      {vm : Vm (Hook γ) Record} {calls : Nat → VisitCalls}, Pending entries vm rest waiting →
      (∀ i, (calls i).pagetableLookup ((calls i).readAddr.getD (calls i).ret) = ret) →
      (∀ i, ∃ r, (calls i).inject.Succeed r) → ∀ fuel, ∃ vm' rest',
        int3Queue (hookCbs produces) event (left.length + fuel) (left ++ rest.filter (·.pa = pa))
          calls vm (base, s) =
          int3Queue (hookCbs produces) event fuel (rest'.filter (·.pa = pa))
            (fun i => calls (left.length + i)) vm' (base, s) ∧
        Pending entries vm' rest'
          (Function.update waiting ret (waiting ret ++ left.filterMap (slipAt produces s.hit))) := by
  intro left
  induction left with
  | nil =>
    intro _ rest waiting vm calls h _ _ fuel
    refine ⟨vm, rest, by simp, ?_⟩
    rw [List.filterMap_nil, List.append_nil, Function.update_eq_self]
    exact h
  | cons t left ih =>
    intro hmem rest waiting vm calls h hret hinject fuel
    obtain ⟨r, hr⟩ := hinject 0
    have ht := hmem t List.mem_cons_self
    obtain ⟨vm₁, planted, hok, h₁⟩ := h.entry hentries ht (hret 0) hr
    obtain ⟨vm', rest', hqueue, h'⟩ := ih (fun u hu => hmem u (List.mem_cons_of_mem t hu)) h₁
      (fun i => hret (i + 1)) (fun i => hinject (i + 1)) fuel
    refine ⟨vm', rest', ?_, ?_⟩
    · have hlen : (t :: left).length + fuel = (left.length + fuel) + 1 := by
        rw [List.length_cons]
        omega
      have hcalls : (fun i => calls ((t :: left).length + i)) =
          fun i => calls (left.length + i + 1) := by
        funext i
        congr 1
        rw [List.length_cons]
        omega
      rw [hlen, hcalls, ← hqueue, List.cons_append, int3Queue, hok, hpa]
      simp only [bind, Except.bind, followLink_permanent (hentries.selfDestroy t ht)]
      rw [List.filter_append, List.append_assoc]
    · rw [Function.update_self, Function.update_idem, List.append_assoc] at h'
      have hslips : (slipAt produces s.hit t).toList ++ left.filterMap (slipAt produces s.hit) =
          (t :: left).filterMap (slipAt produces s.hit) := by
        cases hslip : slipAt produces s.hit t <;> simp [hslip]
      rw [hslips] at h'
      exact h'

/-- A visit of a waiting trap reports what it carries and takes it out of its queue. -/
lemma Pending.goesOff (hentries : Entries vm₀ entries) (h : Pending entries vm rest waiting)
    (calls : VisitCalls) {pa : Nat} {x : Slip γ} {xs : List (Slip γ)} (hx : waiting pa = x :: xs) :
    ∃ p queue vm', rest.filter (·.pa = pa) = p :: queue ∧ p.selfDestroy = true ∧
      visitTrap (hookCbs produces) event calls p vm (base, s) =
        .ok (vm', (base, { s with log := s.log ++ [⟨s.hit, x.ret, x.record⟩] }), none) ∧
      (rest.erase p).filter (·.pa = pa) = queue ∧
      Pending entries vm' (rest.erase p) (Function.update waiting pa xs) := by
  have hslips := h.slips pa
  rw [hx, List.map_cons] at hslips
  obtain ⟨p, queue, hqueue, hslip, htail⟩ := List.map_eq_cons_iff.mp hslips
  have hmem : p ∈ rest.filter (·.pa = pa) := hqueue ▸ List.mem_cons_self
  obtain ⟨hrest, hpa⟩ := List.mem_filter.mp hmem
  rw [decide_eq_true_eq] at hpa
  have hdestroy := h.selfDestroy p hrest
  have hnodup : rest.Nodup := (List.nodup_append.mp h.registered.nodup).2.1
  have hnot : p ∉ entries := by
    intro hp
    have := hentries.selfDestroy p hp
    rw [hdestroy] at this
    cases this
  obtain ⟨hcb, hextra⟩ : p.cb = some (.ret x.ret) ∧ p.extra = some x.record := by
    unfold slip at hslip
    split at hslip
    · rename_i f r hcb hextra
      cases hslip
      exact ⟨hcb, hextra⟩
    · cases hslip
  obtain ⟨vm', hok⟩ := visitTrap_waits produces event calls base s hdestroy hcb hextra
    (h.remapped p (List.mem_append_right _ hrest))
  obtain ⟨tm, hv⟩ := visitTrap_visit hok
  have herase : ∀ a, (rest.erase p).filter (·.pa = a) = (rest.filter (·.pa = a)).erase p := by
    intro a
    rw [(hnodup.filter _).erase_eq_filter, hnodup.erase_eq_filter, List.filter_filter,
      List.filter_filter]
    congr 1
    funext q
    exact Bool.and_comm _ _
  have hleft : (rest.erase p).filter (·.pa = pa) = queue := by
    rw [herase, hqueue, List.erase_cons_head]
  refine ⟨p, queue, vm', hqueue, hdestroy, hok, hleft, ?registered, ?selfDestroy, ?remapped, ?slips⟩
  case registered =>
    have hreg := hv.registered h.registered
    rw [visited, hdestroy, if_pos rfl, Option.toList_none, List.append_nil,
      List.erase_append_right _ hnot] at hreg
    exact hreg
  case selfDestroy => exact fun q hq => h.selfDestroy q (List.mem_of_mem_erase hq)
  case remapped =>
    intro q hq
    have hq' : q ∈ entries ++ rest := by
      rcases List.mem_append.mp hq with hq | hq
      · exact List.mem_append_left _ hq
      · exact List.mem_append_right _ (List.mem_of_mem_erase hq)
    exact hv.mapped (h.remapped q hq')
  case slips =>
    intro a
    by_cases ha : a = pa
    · subst ha
      rw [hleft, Function.update_self]
      exact htail
    · rw [herase, Function.update_of_ne ha, ← h.slips a, List.erase_of_not_mem]
      intro hp
      have := (List.mem_filter.mp hp).2
      rw [decide_eq_true_eq, hpa] at this
      exact ha this.symm

variable (produces event base) in
/-- The traps that wait at an address go off up to the first whose link is gone. -/
lemma int3Queue_waiting (hentries : Entries vm₀ entries) {pa : Nat} :
    ∀ {xs : List (Slip γ)} {fuel : Nat} (calls : Nat → VisitCalls)
      {rest : List (Trap (Hook γ) Record)} {waiting : Nat → List (Slip γ)}
      {vm : Vm (Hook γ) Record} (s : Reports γ), Pending entries vm rest waiting →
      waiting pa = xs → xs.length < fuel →
      match goOff (fun i => (calls i).freedLink) xs.length with
      | .error fault => int3Queue (hookCbs produces) event fuel (rest.filter (·.pa = pa)) calls vm
          (base, s) = .error fault
      | .ok g => ∃ vm' rest', int3Queue (hookCbs produces) event fuel (rest.filter (·.pa = pa))
          calls vm (base, s) = .ok (vm', (base, { s with
            log := s.log ++ (xs.take g).map fun x => ⟨s.hit, x.ret, x.record⟩ })) ∧
          Pending entries vm' rest' (Function.update waiting pa (xs.drop g)) := by
  intro xs
  induction xs with
  | nil =>
    intro fuel calls rest waiting vm s h hxs hfuel
    have hqueue : rest.filter (·.pa = pa) = [] := by
      have := h.slips pa
      rwa [hxs, List.map_nil, List.map_eq_nil_iff] at this
    obtain ⟨fuel, rfl⟩ : ∃ k, fuel = k + 1 := ⟨fuel - 1, by rw [List.length_nil] at hfuel; omega⟩
    refine ⟨vm, rest, ?_, ?_⟩
    · rw [hqueue, int3Queue]
      simp
    · rw [List.drop_nil, ← hxs, Function.update_eq_self]
      exact h
  | cons x xs ih =>
    intro fuel calls rest waiting vm s h hxs hfuel
    rw [List.length_cons] at hfuel
    obtain ⟨fuel, rfl⟩ : ∃ k, fuel = k + 1 := ⟨fuel - 1, by omega⟩
    obtain ⟨p, queue, vm₁, hqueue, hdestroy, hok, hleft, h₁⟩ :=
      h.goesOff hentries (calls 0) hxs
    have hstep : int3Queue (hookCbs produces) event (fuel + 1) (rest.filter (·.pa = pa)) calls vm
        (base, s) = (followLink p (calls 0).freedLink queue).bind fun queue =>
          int3Queue (hookCbs produces) event fuel queue (fun i => calls (i + 1)) vm₁
            (base, { s with log := s.log ++ [⟨s.hit, x.ret, x.record⟩] }) := by
      rw [hqueue, int3Queue, hok]
      simp only [bind, Except.bind, Option.toList_none, List.filter_nil, List.append_nil]
    rw [hstep, List.length_cons, goOff]
    unfold followLink
    rw [hdestroy]
    cases hlink : (calls 0).freedLink with
    | kept =>
      have hrest := ih (fun i => calls (i + 1))
        { s with log := s.log ++ [⟨s.hit, x.ret, x.record⟩] } h₁ (Function.update_self ..)
        (Nat.lt_of_succ_lt_succ hfuel)
      rw [hleft] at hrest
      dsimp only [Except.bind]
      cases hgo : goOff (fun i => (calls (i + 1)).freedLink) xs.length with
      | error fault =>
        rw [hgo] at hrest
        exact hrest
      | ok g =>
        rw [hgo] at hrest
        obtain ⟨vm', rest', hrun, h'⟩ := hrest
        rw [Function.update_idem] at h'
        refine ⟨vm', rest', ?_, h'⟩
        rw [hrun]
        simp
    | cleared =>
      dsimp only [Except.bind]
      obtain ⟨fuel, rfl⟩ : ∃ k, fuel = k + 1 := ⟨fuel - 1, by omega⟩
      refine ⟨vm₁, rest.erase p, ?_, h₁⟩
      rw [int3Queue]
      simp
    | overwritten => rfl

end Loop

/-! ### Hits -/

section Hits

variable [DecidableEq γ] {entries : List (Trap (Hook γ) Record)} {produces : Nat → Nat → Bool}
  {hits : Nat → Hit} {n : Nat} {vm₀ vm : Vm (Hook γ) Record} {l : Ledger Nat (Slip γ)}
  {rest : List (Trap (Hook γ) Record)}

omit [DecidableEq γ] in
variable (produces) in
/-- At an address without a trap nothing is handed over and nothing waits. -/
lemma Pending.of_not_trapExist (h : Pending entries vm rest l.waiting)
    (hex : tmTrapExist vm.tm (hits n).pa = false) :
    filedAt entries produces hits n = [] ∧ l.waiting (hits n).pa = [] := by
  have hnone : ∀ t ∈ entries ++ rest, t.pa ≠ (hits n).pa := by
    intro t ht hpa
    have := (h.registered.indexed.trapExist (hits n).pa).mpr ⟨t, ht, hpa⟩
    rw [hex] at this
    cases this
  have hentries : entries.filter (·.pa = (hits n).pa) = [] := by
    rw [List.filter_eq_nil_iff]
    exact fun t ht => by simpa using hnone t (List.mem_append_left _ ht)
  have hrest : rest.filter (·.pa = (hits n).pa) = [] := by
    rw [List.filter_eq_nil_iff]
    exact fun t ht => by simpa using hnone t (List.mem_append_right _ ht)
  have hslips := h.slips (hits n).pa
  rw [hrest, List.map_nil] at hslips
  exact ⟨by rw [filedAt, hentries]; rfl, List.map_eq_nil_iff.mp hslips.symm⟩

omit [DecidableEq γ] in
/-- A hit at an address without a trap changes nothing. -/
lemma Pending.skip (h : Pending entries vm rest l.waiting)
    (hex : tmTrapExist vm.tm (hits n).pa = false) : hitLedger entries produces hits n l = .ok l := by
  obtain ⟨hfiled, hwaiting⟩ := h.of_not_trapExist produces hex
  have hfile : fileHit entries produces hits n l = l := by
    unfold fileHit Ledger.file
    rw [hfiled, List.append_nil, Function.update_eq_self]
  have htake : l.take n (hits n).pa 0 = l := by
    unfold Ledger.take
    rw [List.drop_zero, Function.update_eq_self, List.take_zero, List.map_nil, List.append_nil]
  unfold hitLedger
  rw [hfile, hwaiting]
  exact congrArg Except.ok htake

omit [DecidableEq γ] in
/-- Where the tables stay, everything does. -/
lemma Pending.congr {vm' : Vm (Hook γ) Record} {waiting : Nat → List (Slip γ)}
    (h : Pending entries vm rest waiting) (htm : vm'.tm = vm.tm) (hbrk : vm.brk ≤ vm'.brk) :
    Pending entries vm' rest waiting := by
  refine ⟨h.registered.congr htm hbrk, h.selfDestroy, ?_, h.slips⟩
  rw [htm]
  exact h.remapped

omit [DecidableEq γ] in
variable (produces hits n) in
/-- There is fuel for the entry traps at an address, and for all that then waits there. -/
lemma Pending.fuel (h : Pending entries vm rest l.waiting) : ∃ fuel,
    int3Fuel vm = (entries.filter (·.pa = (hits n).pa)).length + fuel ∧
      ((fileHit entries produces hits n l).waiting (hits n).pa).length < fuel := by
  have hleft := h.registered.visitsLeft_lt (hits n).pa
  have hslips := congrArg List.length (h.slips (hits n).pa)
  rw [List.length_map, List.length_map] at hslips
  have hfiled : (filedAt entries produces hits n).length ≤
      ((entries.filter (·.pa = (hits n).pa)).filter (·.retCb.isSome)).length := by
    unfold filedAt
    rw [List.length_filterMap_eq_countP, ← List.countP_eq_length_filter]
    refine List.countP_mono_left fun t _ hsome => ?_
    cases hret : t.retCb with
    | none => simp [slipAt, hret] at hsome
    | some c => rfl
  have hmore : ((fileHit entries produces hits n l).waiting
      (hits n).pa).length ≤ (l.waiting (hits n).pa).length +
        (filedAt entries produces hits n).length := by
    unfold fileHit
    rw [Ledger.file_waiting]
    by_cases hpa : (hits n).pa = (hits n).ret
    · rw [hpa, Function.update_self, List.length_append]
    · rw [Function.update_of_ne hpa]
      omega
  unfold visitsLeft at hleft
  rw [List.filter_append, List.filter_append, List.length_append, List.length_append] at hleft
  refine ⟨int3Fuel vm - (entries.filter (·.pa = (hits n).pa)).length, by omega, by omega⟩

variable (produces) in
/-- An INT3 event does to the traps what the ledger says of the hit. -/
lemma Pending.int3 (hentries : Entries vm₀ entries) (h : Pending entries vm rest l.waiting)
    (hanswered : (hits n).Answered) (hex : tmTrapExist vm.tm (hits n).pa = true) :
    match hitLedger entries produces hits n l with
    | .error fault => int3Cb (hookCbs produces) (hits n).event (hits n).calls vm
        ⟨n, l.taken.map reportOf⟩ = .error fault
    | .ok l' => ∃ handled vm' rest', int3Cb (hookCbs produces) (hits n).event (hits n).calls vm
        ⟨n, l.taken.map reportOf⟩ = .ok (handled, vm', ⟨n, l'.taken.map reportOf⟩) ∧
        Pending entries vm' rest' l'.waiting := by
  obtain ⟨doubletrap, -, hcb⟩ := int3Cb_eq_queue h.registered (hookCbs produces) (hits n).calls
    (⟨n, l.taken.map reportOf⟩ : Reports γ) hex
  obtain ⟨fuel, hfuel, hmore⟩ := h.fuel produces hits n
  obtain ⟨vm₁, rest₁, hqueue, h₁⟩ := int3Queue_entries produces 0
    (⟨n, l.taken.map reportOf⟩ : Reports γ) hentries (hits n).event_pa
    (fun t ht => (List.mem_filter.mp ht).1) h hanswered.ret hanswered.inject fuel
  have hfiled : Pending entries vm₁ rest₁ (fileHit entries produces hits n l).waiting := h₁
  have hrun := int3Queue_waiting produces (hits n).event 0 hentries
    (fun i => (hits n).calls.visit ((entries.filter (·.pa = (hits n).pa)).length + i))
    ⟨n, l.taken.map reportOf⟩ hfiled rfl hmore
  rw [← hqueue, ← hfuel, ← List.filter_append] at hrun
  rw [hcb]
  unfold hitLedger
  generalize hgo : goOff ((hits n).links entries)
    ((fileHit entries produces hits n l).waiting (hits n).pa).length = outcome
  have hgo' : goOff (fun i => ((hits n).calls.visit
    ((entries.filter (·.pa = (hits n).pa)).length + i)).freedLink)
    ((fileHit entries produces hits n l).waiting (hits n).pa).length = outcome := hgo
  rw [hgo'] at hrun
  cases outcome with
  | error fault =>
    rw [Hit.event_pa, hrun]
    rfl
  | ok g =>
    obtain ⟨vm', rest', hok, h'⟩ := hrun
    have hlog : ((fileHit entries produces hits n l).take n (hits n).pa g).taken.map reportOf =
        l.taken.map reportOf ++ (((fileHit entries produces hits n l).waiting (hits n).pa).take g).map
          fun x => ⟨n, x.ret, x.record⟩ := by
      rw [Ledger.take_taken, List.map_append, List.map_map]
      rfl
    refine ⟨⟨.switch, ORIGIN_IDX, some (doubletrap ≠ 0)⟩,
      vm'.setStep (hits n).event.vcpuId ⟨.singlestepCb, .handler⟩, rest', ?_,
      h'.congr rfl (Nat.le_refl _)⟩
    rw [Hit.event_pa, hok, hlog]
    rfl

variable (produces) in
/-- The traps that wait and the reports follow the ledger, and so does a fault. -/
theorem runHits_ledger (hentries : Entries vm₀ entries) (n : Nat)
    (hanswered : ∀ k < n, (hits k).Answered) :
    match ledger entries produces hits n with
    | .error fault => runHits produces hits vm₀ n = .error fault
    | .ok l => ∃ vm rest, runHits produces hits vm₀ n = .ok (vm, l.taken.map reportOf) ∧
        Pending entries vm rest l.waiting := by
  induction n with
  | zero =>
    refine ⟨vm₀, [], rfl, ?_, by simp, ?_, fun _ => rfl⟩
    · rw [List.append_nil]
      exact hentries.registered
    · rw [List.append_nil]
      exact hentries.remapped
  | succ n ih =>
    have hbefore := ih fun k hk => hanswered k (by omega)
    rw [ledger, runHits]
    cases hledger : ledger entries produces hits n with
    | error fault =>
      rw [hledger] at hbefore
      rw [hbefore]
      rfl
    | ok l =>
      rw [hledger] at hbefore
      obtain ⟨vm, rest, hok, h⟩ := hbefore
      rw [hok]
      simp only [bind, Except.bind, callHit]
      cases hex : tmTrapExist vm.tm (hits n).pa with
      | false =>
        rw [h.skip hex]
        exact ⟨vm, rest, rfl, h⟩
      | true =>
        have hint3 := h.int3 produces hentries (hanswered n (Nat.lt_succ_self n)) hex
        cases hhit : hitLedger entries produces hits n l with
        | error fault =>
          rw [hhit] at hint3
          rw [if_pos rfl, hint3]
        | ok l' =>
          rw [hhit] at hint3
          obtain ⟨handled, vm', rest', hcb, h'⟩ := hint3
          rw [if_pos rfl, hcb]
          exact ⟨vm', rest', rfl, h'⟩

end Hits

end Hfm

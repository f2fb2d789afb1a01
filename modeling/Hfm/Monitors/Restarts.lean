import Hfm.Monitors.SetPolicies
import Hfm.Support.Run

/-!
# Policies and restarts

`hfm_restart_vmi` builds the tables and the hooks of a restarted VM anew, with a call of
`hfm_set_policies`. The filters are left as they are.
-/

namespace Hfm

open Support

variable {ε : Type}

/-- What a `hfm_restart_vmi` without failures meets: the VM as it came up again with its new
view, and the answers to its `hfm_set_policies`. -/
structure Restart where
  vm : Nat
  machine : Machine
  altp2mIdx : UInt16
  order : ValueOrder
  calls : SetCalls

/-- The handler when the events are registered, the view and the trap manager are created
and the flags are reset. -/
def Vm.restarted (vm : Vm MonCb ε) (machine : Machine) (altp2mIdx : UInt16) : Vm MonCb ε :=
  let hdlr : Vmhdlr MonCb ε :=
    { vm.hdlr with
      stepEvent := fun vcpuId => { vm.hdlr.stepEvent vcpuId with callback := .singlestepCb }
      altp2mIdx := altp2mIdx
      trapManager := tmInit
      init := fun _ => 0 }
  { vm with hdlr, machine }

def hfmRestartVmi (m : Monitored ε) (restart : Restart) : Except Fault (Monitored ε) :=
  let vm := (m.vms restart.vm).restarted restart.machine restart.altp2mIdx
  hfmSetPolicies ⟨m.filters, Function.update m.vms restart.vm vm⟩ restart.vm restart.order
    restart.calls vm.hdlr.policies

/-- The loop of `main` that sets the policies of the VMs numbered below `vmnum`. -/
def mainSetPolicies (policies : Option (GHashTable Int Policy)) (order : Nat → ValueOrder)
    (calls : Nat → SetCalls) : Nat → Monitored ε → Except Fault (Monitored ε)
  | 0, m => .ok m
  | i + 1, m => do
    let m ← mainSetPolicies policies order calls i m
    let m ← hfmSetPolicies m i (order i) (calls i) policies
    let vm := m.vms i
    let hdlr : Vmhdlr MonCb ε := { vm.hdlr with policies }
    return { m with vms := Function.update m.vms i { vm with hdlr } }

def Monitored.restartAll : Monitored ε → List Restart → Except Fault (Monitored ε)
  | m, [] => .ok m
  | m, restart :: rest => do
    let m ← hfmRestartVmi m restart
    m.restartAll rest

/-! ### The table of policies stays -/

lemma monAddPolicy_policies {filters filters' : Filters} {vm vm' : Vm MonCb ε}
    {calls : CStr → SyscallCalls} {policy : Policy} {status : HfmStatus}
    (h : monAddPolicy filters vm calls policy = .ok (status, filters', vm')) :
    vm'.hdlr.policies = vm.hdlr.policies := by
  rw [monAddPolicy_eq] at h
  cases hplugin : policy.type.plugin with
  | none =>
    rw [hplugin] at h
    cases h
    rfl
  | some plugin =>
    rw [hplugin] at h
    obtain ⟨-, hinit, -⟩ := addPolicy_ok h
    obtain ⟨vm₁, -, hinit₁, hinitialised, -⟩ := initMonitor_spec plugin vm calls
    rw [hinit] at hinit₁
    cases hinit₁
    rw [hinitialised.hdlr]

lemma Monitored.addAll_policies (adds : List AddCall) : ∀ {m m' : Monitored ε},
    m.addAll adds = .ok m' → ∀ i, (m'.vms i).hdlr.policies = (m.vms i).hdlr.policies := by
  induction adds with
  | nil =>
    intro m m' h i
    cases h
    rfl
  | cons call rest ih =>
    intro m m' h i
    obtain ⟨m₁, hadd, h⟩ := bind_eq_ok.mp h
    obtain ⟨⟨status, filters', vm'⟩, hok, hadd⟩ := bind_eq_ok.mp hadd
    cases hadd
    rw [ih h i]
    dsimp only
    by_cases hi : i = call.vm
    · subst hi
      rw [Function.update_self]
      exact monAddPolicy_policies hok
    · rw [Function.update_of_ne hi]

/-! ### Rounds over the table -/

/-- The policies added in `k` rounds over the whole table, each in some order. -/
def Rounds (policies : GHashTable Int Policy) (k : Nat) (history : List Policy) : Prop :=
  ∃ rounds : List (List Policy), rounds.length = k ∧ history = rounds.flatten ∧
    ∀ round ∈ rounds, round.Perm (policies.entries.map Sigma.snd)

lemma Rounds.snoc {policies : GHashTable Int Policy} {k : Nat} {history : List Policy}
    (h : Rounds policies k history) (order : ValueOrder) :
    Rounds policies (k + 1) (history ++ order.values policies) := by
  obtain ⟨rounds, hlen, rfl, hperm⟩ := h
  refine ⟨rounds ++ [order.values policies], by simp [hlen], by simp, fun round hmem => ?_⟩
  rcases List.mem_append.mp hmem with hmem | hmem
  · exact hperm round hmem
  · rw [List.mem_singleton.mp hmem]
    exact order.perm policies

/-- One round has each policy once. -/
lemma filter_round {policies : PolicyTable} (hacc : policies.Accepted) {id : Int} {policy : Policy}
    (hmem : policies.table.lookup id = some policy) {round : List Policy}
    (hperm : round.Perm (policies.table.entries.map Sigma.snd)) :
    round.filter (·.id = id) = [policy] := by
  have hkey : ∀ e ∈ policies.table.entries, e.2.id = e.1 := fun e he =>
    (hacc e.1 e.2 (AList.mem_lookup_iff.mpr he)).2
  have hnodup : (policies.table.entries.map Sigma.snd).Nodup := by
    rw [List.nodup_map_iff_inj_on policies.table.nodupKeys.nodup]
    rintro ⟨k, p⟩ hp ⟨k', p'⟩ hp' heq
    obtain rfl : p = p' := heq
    obtain rfl : k = k' := (hkey _ hp).symm.trans (hkey _ hp')
    rfl
  rw [← List.perm_singleton]
  refine (hperm.filter _).trans ((List.perm_ext_iff_of_nodup (hnodup.filter _) (by simp)).mpr ?_)
  intro p
  rw [List.mem_filter, List.mem_singleton, List.mem_map, decide_eq_true_eq]
  constructor
  · rintro ⟨⟨⟨k, p'⟩, he, rfl⟩, hid⟩
    have hk : p'.id = k := hkey _ he
    have hlook := AList.mem_lookup_iff.mpr he
    rw [← hk, hid, hmem] at hlook
    exact (Option.some_inj.mp hlook).symm
  · rintro rfl
    exact ⟨⟨⟨id, p⟩, AList.mem_lookup_iff.mp hmem, rfl⟩, (hacc id p hmem).2⟩

lemma filter_rounds {policies : PolicyTable} (hacc : policies.Accepted) {id : Int} {policy : Policy}
    (hmem : policies.table.lookup id = some policy) {k : Nat} {history : List Policy}
    (hrounds : Rounds policies.table k history) :
    history.filter (·.id = id) = List.replicate k policy := by
  obtain ⟨rounds, rfl, rfl, hperm⟩ := hrounds
  induction rounds with
  | nil => rfl
  | cons round rounds ih =>
    rw [List.flatten_cons, List.filter_append, filter_round hacc hmem (hperm round (by simp)),
      ih fun r hr => hperm r (List.mem_cons_of_mem _ hr)]
    rfl

lemma filter_kept_addedTo (plugin : Plugin) (history : List Policy) (id : Int) :
    (kept (addedTo plugin history)).filter (·.2 = id) =
      kept (addedTo plugin (history.filter (·.id = id))) := by
  induction history with
  | nil => rfl
  | cons policy history ih =>
    rw [addedTo_cons, List.filter_cons]
    by_cases hplugin : policy.type.plugin = some plugin
    · rw [if_pos hplugin]
      by_cases hid : policy.id = id
      · simp only [hid, decide_true, if_true, addedTo_cons, hplugin]
        unfold kept at ih ⊢
        cases htr : translated policy.path with
        | none => simpa [htr] using ih
        | some nodes => simpa [htr] using ih
      · simp only [hid, decide_false, Bool.false_eq_true, if_false]
        unfold kept at ih ⊢
        cases htr : translated policy.path with
        | none => simpa [htr] using ih
        | some nodes => simpa [htr, hid] using ih
    · rw [if_neg hplugin]
      by_cases hid : policy.id = id
      · simp only [hid, decide_true, if_true, addedTo_cons, hplugin, if_false]
        exact ih
      · simp only [hid, decide_false, Bool.false_eq_true, if_false]
        exact ih

lemma kept_replicate {plugin : Plugin} {policy : Policy} (hplugin : policy.type.plugin = some plugin)
    (k : Nat) : kept (addedTo plugin (List.replicate k policy)) =
      match translated policy.path with
      | none => []
      | some nodes => List.replicate k (nodes, policy.id) := by
  induction k with
  | zero => cases translated policy.path <;> rfl
  | succ k ih =>
    rw [List.replicate_succ, addedTo_cons, if_pos hplugin]
    unfold kept at ih ⊢
    cases htr : translated policy.path with
    | none => simpa [htr] using ih
    | some nodes => simpa [htr, List.replicate_succ] using ih

/-! ### Idempotence -/

/-- The filters hold the policies of their action, each of them once. -/
def EachOnce (filters : Filters) (policies : GHashTable Int Policy) : Prop :=
  ∀ id policy plugin, policies.lookup id = some policy → policy.type.plugin = some plugin →
    ∃ filter nodes, filters plugin = some filter ∧
      fnTranslate policy.path true = .ok (some nodes) ∧
      filter.entries.filter (·.2 = id) = [(nodes, id)]

/-- The VMs numbered below `vmnum` are started and then restarted, with no write past the end
of an array, and each filter holds the policies of its action once. -/
def SetOnce (policies : GHashTable Int Policy) (vmnum : Nat) (vms : Nat → Vm MonCb ε)
    (order : Nat → ValueOrder) (calls : Nat → SetCalls) (restarts : List Restart) : Prop :=
  ∃ m m', mainSetPolicies (some policies) order calls vmnum (Monitored.start vms) = .ok m ∧
    m.restartAll restarts = .ok m' ∧ EachOnce m'.filters policies

/-- After `k` rounds over the table, in which the VMs numbered below `vmnum` got it. -/
structure AfterRounds (policies : GHashTable Int Policy) (vmnum k : Nat) (m : Monitored ε)
    (history : List Policy) : Prop where
  rounds : Rounds policies k history
  holding : Holding m.filters history
  vms : ∀ i < vmnum, (m.vms i).hdlr.policies = some policies

/-- One more round, with the fits of the arrays. -/
lemma AfterRounds.setPolicies {policies : GHashTable Int Policy} {vmnum k : Nat} {m m' : Monitored ε}
    {history : List Policy} (h : AfterRounds policies vmnum k m history) {vm : Nat}
    {order : ValueOrder} {calls : SetCalls}
    (hok : hfmSetPolicies m vm order calls (some policies) = .ok m') :
    AfterRounds policies vmnum (k + 1) m' (history ++ order.values policies) := by
  have hholding := Monitored.addAll_holding _ hok h.holding
  rw [addCalls_policy] at hholding
  refine ⟨h.rounds.snoc order, hholding, fun i hi => ?_⟩
  rw [Monitored.addAll_policies _ hok i]
  exact h.vms i hi

lemma mainSetPolicies_rounds {policies : GHashTable Int Policy} {order : Nat → ValueOrder}
    {calls : Nat → SetCalls} {vms : Nat → Vm MonCb ε} (vmnum : Nat) : ∀ {m : Monitored ε},
    mainSetPolicies (some policies) order calls vmnum (Monitored.start vms) = .ok m →
      ∃ history, AfterRounds policies vmnum vmnum m history := by
  induction vmnum with
  | zero =>
    intro m h
    cases h
    exact ⟨[], ⟨[], rfl, rfl, by simp⟩, holding_start, by simp⟩
  | succ i ih =>
    intro m h
    obtain ⟨m₁, hmain, h⟩ := bind_eq_ok.mp h
    obtain ⟨m₂, hset, h⟩ := bind_eq_ok.mp h
    cases h
    obtain ⟨history, hafter⟩ := ih hmain
    obtain ⟨hrounds, hholding, hvms⟩ := hafter.setPolicies hset
    refine ⟨_, hrounds, hholding, fun j hj => ?_⟩
    by_cases hji : j = i
    · subst hji
      simp
    · have := hvms j (by omega)
      simpa [hji] using this

/-- A restarted handler still has its table; nothing was added yet. -/
lemma AfterRounds.restarted {policies : GHashTable Int Policy} {vmnum k : Nat} {m : Monitored ε}
    {history : List Policy} (h : AfterRounds policies vmnum k m history) {vm : Nat} (hlt : vm < vmnum)
    (machine : Machine) (altp2mIdx : UInt16) :
    AfterRounds policies vmnum k (⟨m.filters, Function.update m.vms vm
      ((m.vms vm).restarted machine altp2mIdx)⟩ : Monitored ε) history ∧
      ((m.vms vm).restarted machine altp2mIdx).hdlr.policies = some policies := by
  have hvm : ((m.vms vm).restarted machine altp2mIdx).hdlr.policies = some policies := h.vms vm hlt
  refine ⟨⟨h.rounds, h.holding, fun i hi => ?_⟩, hvm⟩
  by_cases hir : i = vm
  · subst hir
    simpa using hvm
  · simpa [hir] using h.vms i hi

lemma restartAll_rounds {policies : GHashTable Int Policy} {vmnum : Nat} (restarts : List Restart) :
    ∀ {k : Nat} {m m' : Monitored ε} {history : List Policy},
    (∀ r ∈ restarts, r.vm < vmnum) → AfterRounds policies vmnum k m history →
      m.restartAll restarts = .ok m' →
        ∃ history', AfterRounds policies vmnum (k + restarts.length) m' history' := by
  induction restarts with
  | nil =>
    intro k m m' history _ h hok
    cases hok
    exact ⟨history, h⟩
  | cons restart rest ih =>
    intro k m m' history hlt h hok
    obtain ⟨m₁, hrestart, hok⟩ := bind_eq_ok.mp hok
    obtain ⟨hreset, hvm⟩ := h.restarted (hlt restart (by simp)) restart.machine restart.altp2mIdx
    unfold hfmRestartVmi at hrestart
    dsimp only at hrestart
    rw [hvm] at hrestart
    have := ih (fun r hr => hlt r (List.mem_cons_of_mem _ hr)) (hreset.setPolicies hrestart) hok
    rw [List.length_cons, Nat.add_comm rest.length, ← Nat.add_assoc]
    exact this

/-- The table has no policy for any of the monitors. -/
def Unmonitored (policies : GHashTable Int Policy) : Prop :=
  ∀ id policy, policies.lookup id = some policy → policy.type.plugin = none

/-- After `k` rounds each filter holds the policies of its action `k` times. -/
lemma AfterRounds.eachOnce_iff {policies : PolicyTable} (hacc : policies.Accepted) {vmnum k : Nat}
    {m : Monitored ε} {history : List Policy} (h : AfterRounds policies.table vmnum k m history) :
    EachOnce m.filters policies.table ↔ Unmonitored policies.table ∨
      k = 1 ∧ ∀ id policy, policies.table.lookup id = some policy →
        policy.type.plugin.isSome = true → ∃ nodes, fnTranslate policy.path true = .ok (some nodes) := by
  have hentries : ∀ id policy plugin, policies.table.lookup id = some policy →
      policy.type.plugin = some plugin →
      (((m.filters plugin).getD filterInit).entries.filter (·.2 = id)) =
        match translated policy.path with
        | none => []
        | some nodes => List.replicate k (nodes, policy.id) := by
    intro id policy plugin hmem hplugin
    rw [h.holding plugin, filter_kept_addedTo, filter_rounds hacc hmem h.rounds, kept_replicate hplugin]
  constructor
  · intro honce
    by_cases hun : Unmonitored policies.table
    · exact .inl hun
    right
    simp only [Unmonitored, not_forall] at hun
    obtain ⟨id, policy, hmem, hplugin⟩ := hun
    obtain ⟨plugin, hplugin⟩ := Option.ne_none_iff_exists'.mp hplugin
    obtain ⟨filter, nodes, hfilter, htr, hsingle⟩ := honce id policy plugin hmem hplugin
    refine ⟨?_, fun id policy hmem hsome => ?_⟩
    · have hk := hentries id policy plugin hmem hplugin
      have htr' : translated policy.path = some nodes := by
        unfold translated
        rw [htr]
      rw [hfilter, Option.getD_some, hsingle, htr'] at hk
      have := congrArg List.length hk
      simpa using this.symm
    · obtain ⟨plugin, hplugin⟩ := Option.isSome_iff_exists.mp hsome
      obtain ⟨-, nodes, -, htr, -⟩ := honce id policy plugin hmem hplugin
      exact ⟨nodes, htr⟩
  · rintro (hun | ⟨rfl, htr⟩)
    · intro id policy plugin hmem hplugin
      rw [hun id policy hmem] at hplugin
      cases hplugin
    · intro id policy plugin hmem hplugin
      obtain ⟨nodes, htr⟩ := htr id policy hmem (by rw [hplugin]; rfl)
      have htr' : translated policy.path = some nodes := by
        unfold translated
        rw [htr]
      have hk := hentries id policy plugin hmem hplugin
      rw [htr', (hacc id policy hmem).2] at hk
      cases hfilter : m.filters plugin with
      | none =>
        rw [hfilter] at hk
        cases hk
      | some filter =>
        rw [hfilter] at hk
        exact ⟨filter, nodes, rfl, htr, hk⟩

/-- A further round comes to an end if its policies fit too. -/
lemma AfterRounds.setPolicies_completes {policies : GHashTable Int Policy} {vmnum k : Nat}
    {m : Monitored ε} {history : List Policy} (h : AfterRounds policies vmnum k m history)
    (hfits : ∀ history, Rounds policies (k + 1) history → Fits history) (vm : Nat)
    (order : ValueOrder) (calls : SetCalls) :
    ∃ m', hfmSetPolicies m vm order calls (some policies) = .ok m' := by
  have hnext := hfits _ (h.rounds.snoc order)
  rw [← addCalls_policy vm order calls] at hnext
  exact (Monitored.addAll_completes_iff _ h.holding hnext.of_append).mpr hnext

lemma mainSetPolicies_completes {policies : GHashTable Int Policy} (order : Nat → ValueOrder)
    (calls : Nat → SetCalls) (vms : Nat → Vm MonCb ε) (vmnum : Nat)
    (hfits : ∀ k ≤ vmnum, ∀ history, Rounds policies k history → Fits history) :
    ∃ m, mainSetPolicies (some policies) order calls vmnum (Monitored.start vms) = .ok m := by
  induction vmnum with
  | zero => exact ⟨_, rfl⟩
  | succ i ih =>
    obtain ⟨m, hmain⟩ := ih fun k hk => hfits k (by omega)
    obtain ⟨history, hafter⟩ := mainSetPolicies_rounds i hmain
    obtain ⟨m', hset⟩ := hafter.setPolicies_completes (hfits (i + 1) (Nat.le_refl _)) i (order i) (calls i)
    rw [mainSetPolicies, hmain]
    simp only [bind, Except.bind, hset]
    exact ⟨_, rfl⟩

lemma restartAll_completes {policies : GHashTable Int Policy} {vmnum : Nat}
    (hfits : ∀ k history, Rounds policies k history → Fits history) (restarts : List Restart) :
    ∀ {k : Nat} {m : Monitored ε} {history : List Policy}, (∀ r ∈ restarts, r.vm < vmnum) →
      AfterRounds policies vmnum k m history → ∃ m', m.restartAll restarts = .ok m' := by
  induction restarts with
  | nil => exact fun _ _ => ⟨_, rfl⟩
  | cons restart rest ih =>
    intro k m history hlt h
    have hreset := h.restarted (hlt restart (by simp)) restart.machine restart.altp2mIdx
    obtain ⟨m₁, hset⟩ := hreset.1.setPolicies_completes (hfits _) restart.vm restart.order restart.calls
    have hrestart : hfmRestartVmi m restart = .ok m₁ := by
      unfold hfmRestartVmi
      dsimp only
      rw [hreset.2]
      exact hset
    obtain ⟨m', hok⟩ := ih (fun r hr => hlt r (List.mem_cons_of_mem _ hr)) (hreset.1.setPolicies hset)
    refine ⟨m', ?_⟩
    rw [Monitored.restartAll, hrestart]
    exact hok

lemma Rounds.mem {policies : GHashTable Int Policy} {k : Nat} {history : List Policy}
    (h : Rounds policies k history) {policy : Policy} (hmem : policy ∈ history) :
    ∃ id, policies.lookup id = some policy := by
  obtain ⟨rounds, -, rfl, hperm⟩ := h
  obtain ⟨round, hround, hmem⟩ := List.mem_flatten.mp hmem
  obtain ⟨⟨id, p⟩, he, rfl⟩ := List.mem_map.mp ((hperm round hround).subset hmem)
  exact ⟨id, AList.mem_lookup_iff.mpr he⟩

lemma Rounds.length_kept_le {policies : GHashTable Int Policy} {k : Nat} {history : List Policy}
    (h : Rounds policies k history) (hk : k ≤ 1) (plugin : Plugin) :
    (kept (addedTo plugin history)).length ≤
      ((policies.entries.map Sigma.snd).filter (·.type.plugin = some plugin)).length := by
  refine Nat.le_trans (List.length_filterMap_le _ _) ?_
  unfold addedTo
  rw [List.length_map]
  obtain ⟨rounds, hlen, rfl, hperm⟩ := h
  match rounds, hlen with
  | [], _ => exact Nat.zero_le _
  | [round], _ =>
    rw [List.flatten_singleton]
    exact Nat.le_of_eq ((hperm round (by simp)).filter _).length_eq
  | _ :: _ :: _, hlen =>
    simp only [List.length_cons] at hlen
    omega

/-- Setting the policies is idempotent exactly where it happens once, and every pattern can be
translated; or where there is nothing to set. -/
theorem setOnce_iff {policies : PolicyTable} (hacc : policies.Accepted)
    (hfew : ∀ plugin, ((policies.table.entries.map Sigma.snd).filter
      (·.type.plugin = some plugin)).length ≤ MAX_PATTERNS)
    (vms : Nat → Vm MonCb ε) (order : Nat → ValueOrder) (calls : Nat → SetCalls) {vmnum : Nat}
    {restarts : List Restart} (hlt : ∀ restart ∈ restarts, restart.vm < vmnum) :
    SetOnce policies.table vmnum vms order calls restarts ↔ Unmonitored policies.table ∨
      (vmnum = 1 ∧ restarts = []) ∧ ∀ id policy, policies.table.lookup id = some policy →
        policy.type.plugin.isSome = true → ∃ nodes, fnTranslate policy.path true = .ok (some nodes) := by
  constructor
  · rintro ⟨m, m', hmain, hrestarts, honce⟩
    obtain ⟨history, hafter⟩ := mainSetPolicies_rounds vmnum hmain
    obtain ⟨history', hafter'⟩ := restartAll_rounds restarts hlt hafter hrestarts
    refine ((hafter'.eachOnce_iff hacc).mp honce).imp id ?_
    rintro ⟨hk, htr⟩
    refine ⟨?_, htr⟩
    cases restarts with
    | nil => exact ⟨hk, rfl⟩
    | cons restart rest =>
      have := hlt restart (by simp)
      rw [List.length_cons] at hk
      omega
  · intro h
    have hcompletes : ∃ m m', mainSetPolicies (some policies.table) order calls vmnum
        (Monitored.start vms) = .ok m ∧ m.restartAll restarts = .ok m' := by
      rcases h with hun | ⟨⟨rfl, rfl⟩, htr⟩
      · have hfits : ∀ k history, Rounds policies.table k history → Fits history := by
          intro k history hrounds
          have hnone : ∀ policy ∈ history, policy.type.plugin = none := by
            intro policy hmem
            obtain ⟨id, hlook⟩ := hrounds.mem hmem
            exact hun id policy hlook
          refine ⟨fun policy hmem hsome => ?_, fun plugin => ?_⟩
          · rw [hnone policy hmem] at hsome
            cases hsome
          · have hempty : addedTo plugin history = [] := by
              rw [List.eq_nil_iff_forall_not_mem]
              intro a ha
              obtain ⟨policy, hmem, hplugin, -⟩ := mem_addedTo.mp ha
              rw [hnone policy hmem] at hplugin
              cases hplugin
            rw [hempty]
            exact Nat.zero_le _
        obtain ⟨m, hmain⟩ := mainSetPolicies_completes order calls vms vmnum fun k _ => hfits k
        obtain ⟨history, hafter⟩ := mainSetPolicies_rounds vmnum hmain
        obtain ⟨m', hrestarts⟩ := restartAll_completes hfits restarts hlt hafter
        exact ⟨m, m', hmain, hrestarts⟩
      · have hfits : ∀ k ≤ 1, ∀ history, Rounds policies.table k history → Fits history := by
          intro k hk history hrounds
          refine ⟨fun policy hmem hsome => ?_, fun plugin => ?_⟩
          · obtain ⟨id, hlook⟩ := hrounds.mem hmem
            obtain ⟨nodes, htr⟩ := htr id policy hlook hsome
            exact ⟨_, htr⟩
          · exact Nat.le_trans (hrounds.length_kept_le hk plugin) (hfew plugin)
        obtain ⟨m, hmain⟩ := mainSetPolicies_completes order calls vms 1 hfits
        exact ⟨m, m, hmain, rfl⟩
    obtain ⟨m, m', hmain, hrestarts⟩ := hcompletes
    refine ⟨m, m', hmain, hrestarts, ?_⟩
    obtain ⟨history, hafter⟩ := mainSetPolicies_rounds vmnum hmain
    obtain ⟨history', hafter'⟩ := restartAll_rounds restarts hlt hafter hrestarts
    refine (hafter'.eachOnce_iff hacc).mpr (h.imp id ?_)
    rintro ⟨⟨rfl, rfl⟩, htr⟩
    exact ⟨rfl, htr⟩

/-- A table with one policy, for `/a`. -/
def oneCreate : PolicyTable := ⟨(∅ : GHashTable Int Policy).insert 7 (createPolicy 7), []⟩

lemma oneCreate_accepted : oneCreate.Accepted := by
  intro id policy h
  by_cases hid : id = 7
  · subst hid
    cases h
    exact ⟨rfl, rfl⟩
  · rw [oneCreate, AList.lookup_insert_ne hid] at h
    cases h

theorem setOnce_one_vm : SetOnce oneCreate.table 1 (fun _ => (Vm.start (fun _ => 0x90) : Vm MonCb Unit))
    (fun _ => .listed) (fun _ _ => unresolvedCalls) [] := by
  refine (setOnce_iff oneCreate_accepted ?_ _ _ _ (by simp)).mpr (.inr ⟨⟨rfl, rfl⟩, ?_⟩)
  · intro plugin
    exact Nat.le_trans (List.length_filter_le _ _) (by decide)
  · intro id policy h _
    by_cases hid : id = 7
    · subst hid
      cases h
      exact ⟨_, rfl⟩
    · rw [oneCreate, AList.lookup_insert_ne hid] at h
      cases h

/-- With a second VM the pattern is in the filter twice. -/
theorem setOnce_fails_two_vms : ¬SetOnce oneCreate.table 2
    (fun _ => (Vm.start (fun _ => 0x90) : Vm MonCb Unit)) (fun _ => .listed)
    (fun _ _ => unresolvedCalls) [] := by
  rintro ⟨m, m', hmain, hrestarts, honce⟩
  cases hmain
  cases hrestarts
  obtain ⟨filter, nodes, hfilter, -, hsingle⟩ := honce 7 (createPolicy 7) .fileCreated rfl rfl
  cases hfilter
  have := congrArg List.length hsingle
  cases this

end Hfm

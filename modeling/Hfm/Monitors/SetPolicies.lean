import Hfm.Monitors.AddPolicy

/-!
# Setting the policies of the VMs

`hfm_set_policies` of `src/hfm.c` adds every policy of the table to a VM. `src/main.c` calls
it once for each VM, and `hfm_restart_vmi` again each time a VM came back. The filters are
the same for all VMs.
-/

namespace Hfm

variable {ε : Type}

/-- The filters of the program, with the VMs by number. -/
structure Monitored (ε : Type) where
  filters : Filters
  vms : Nat → Vm MonCb ε

/-- No policy was added yet. -/
def Monitored.start (vms : Nat → Vm MonCb ε) : Monitored ε := ⟨fun _ => none, vms⟩

/-- The order in which `g_hash_table_get_values` lists the values of a table. -/
structure ValueOrder where
  values : GHashTable Int Policy → List Policy
  perm : ∀ table, (values table).Perm (table.entries.map Sigma.snd)

/-- A call of `mon_add_policy` for the VM numbered `vm`. -/
structure AddCall where
  vm : Nat
  policy : Policy
  calls : CStr → SyscallCalls

def Monitored.add (m : Monitored ε) (call : AddCall) : Except Fault (Monitored ε) := do
  let (_, filters, vm) ← monAddPolicy m.filters (m.vms call.vm) call.calls call.policy
  return ⟨filters, Function.update m.vms call.vm vm⟩

def Monitored.addAll : Monitored ε → List AddCall → Except Fault (Monitored ε)
  | m, [] => .ok m
  | m, call :: rest => do
    let m ← m.add call
    m.addAll rest

/-- The answers to the calls of one `hfm_set_policies`, by the position of the policy. -/
abbrev SetCalls := Nat → CStr → SyscallCalls

def addCalls (vm : Nat) (order : ValueOrder) (calls : SetCalls) (policies : GHashTable Int Policy) :
    List AddCall :=
  (order.values policies).mapIdx fun i policy => ⟨vm, policy, calls i⟩

def hfmSetPolicies (m : Monitored ε) (vm : Nat) (order : ValueOrder) (calls : SetCalls) :
    Option (GHashTable Int Policy) → Except Fault (Monitored ε)
  | none => .ok m
  | some policies => m.addAll (addCalls vm order calls policies)

lemma addCalls_policy (vm : Nat) (order : ValueOrder) (calls : SetCalls)
    (policies : GHashTable Int Policy) :
    (addCalls vm order calls policies).map AddCall.policy = order.values policies := by
  unfold addCalls
  apply List.ext_getElem
  · simp
  · intro i h₁ h₂
    simp

lemma addCalls_vm {vm : Nat} {order : ValueOrder} {calls : SetCalls}
    {policies : GHashTable Int Policy} {call : AddCall}
    (h : call ∈ addCalls vm order calls policies) : call.vm = vm := by
  obtain ⟨i, hi, rfl⟩ := List.mem_mapIdx.mp h
  rfl

/-! ### What the filters hold -/

/-- What the filter of a monitor was given of the policies added so far. -/
def addedTo (plugin : Plugin) (policies : List Policy) : Added :=
  (policies.filter (·.type.plugin = some plugin)).map fun policy => (policy.path, policy.id)

@[simp] lemma addedTo_nil (plugin : Plugin) : addedTo plugin [] = [] := rfl

lemma addedTo_append (plugin : Plugin) (policies policies' : List Policy) :
    addedTo plugin (policies ++ policies') = addedTo plugin policies ++ addedTo plugin policies' := by
  unfold addedTo
  rw [List.filter_append, List.map_append]

lemma addedTo_cons (plugin : Plugin) (policy : Policy) (policies : List Policy) :
    addedTo plugin (policy :: policies) =
      if policy.type.plugin = some plugin then (policy.path, policy.id) :: addedTo plugin policies
      else addedTo plugin policies := by
  unfold addedTo
  by_cases h : policy.type.plugin = some plugin
  · simp [h]
  · simp [h]

lemma mem_addedTo {plugin : Plugin} {policies : List Policy} {a : CStr × Int} :
    a ∈ addedTo plugin policies ↔
      ∃ policy ∈ policies, policy.type.plugin = some plugin ∧ (policy.path, policy.id) = a := by
  unfold addedTo
  simp only [List.mem_map, List.mem_filter, decide_eq_true_eq, and_assoc]

/-- The filters hold what is kept of the policies added so far. -/
def Holding (filters : Filters) (policies : List Policy) : Prop :=
  ∀ plugin, ((filters plugin).getD filterInit).entries = kept (addedTo plugin policies)

lemma holding_start : Holding (fun _ => none) [] := fun _ => rfl

/-- All these policies can be added from the start: `fn_translate` stays within its arrays
on each pattern, and each filter within its array of identifiers. -/
structure Fits (policies : List Policy) : Prop where
  translate : ∀ policy ∈ policies, policy.type.plugin.isSome = true →
    ∃ nodes?, fnTranslate policy.path true = .ok nodes?
  room : ∀ plugin, (kept (addedTo plugin policies)).length ≤ MAX_PATTERNS

lemma fits_nil : Fits [] := ⟨by simp, fun _ => Nat.zero_le _⟩

lemma Fits.of_append {policies policies' : List Policy} (h : Fits (policies ++ policies')) :
    Fits policies := by
  refine ⟨fun policy hmem => h.translate policy (List.mem_append_left _ hmem), fun plugin => ?_⟩
  have hroom := h.room plugin
  rw [addedTo_append] at hroom
  unfold kept at hroom ⊢
  rw [List.filterMap_append, List.length_append] at hroom
  omega

lemma Holding.room {filters : Filters} {policies : List Policy} (h : Holding filters policies)
    (plugin : Plugin) : (kept (addedTo plugin policies)).length ≤ MAX_PATTERNS := by
  rw [← h plugin, length_entries]
  exact Filter.length_le _

lemma monAddPolicy_holding {filters filters' : Filters} {vm vm' : Vm MonCb ε}
    {calls : CStr → SyscallCalls} {policy : Policy} {status : HfmStatus} {policies : List Policy}
    (h : monAddPolicy filters vm calls policy = .ok (status, filters', vm'))
    (hf : Holding filters policies) : Holding filters' (policies ++ [policy]) := by
  intro plugin
  rw [addedTo_append, addedTo_cons, addedTo_nil]
  rw [monAddPolicy_eq] at h
  cases hplugin : policy.type.plugin with
  | none =>
    rw [hplugin] at h
    cases h
    rw [if_neg (by simp), List.append_nil]
    exact hf plugin
  | some target =>
    rw [hplugin] at h
    obtain ⟨-, -, added, filter', hadd, rfl⟩ := addPolicy_ok h
    by_cases hp : plugin = target
    · subst hp
      rw [Function.update_self, if_pos rfl]
      exact filterAdd_kept (hf plugin) hadd
    · rw [Function.update_of_ne hp, if_neg (by simpa using Ne.symm hp), List.append_nil]
      exact hf plugin

/-- Adding a policy has a defined end exactly if the policy still fits. -/
lemma monAddPolicy_completes_iff {filters : Filters} {policies : List Policy}
    (hf : Holding filters policies) (hfits : Fits policies) (vm : Vm MonCb ε)
    (calls : CStr → SyscallCalls) (policy : Policy) :
    (∃ r, monAddPolicy filters vm calls policy = .ok r) ↔ Fits (policies ++ [policy]) := by
  constructor
  · rintro ⟨⟨status, filters', vm'⟩, hok⟩
    refine ⟨fun p hmem hsome => ?_, (monAddPolicy_holding hok hf).room⟩
    rcases List.mem_append.mp hmem with hmem | hmem
    · exact hfits.translate p hmem hsome
    · obtain rfl := List.mem_singleton.mp hmem
      obtain ⟨plugin, hplugin⟩ := Option.isSome_iff_exists.mp hsome
      rw [monAddPolicy_eq, hplugin] at hok
      obtain ⟨-, -, added, filter', hadd, -⟩ := addPolicy_ok hok
      rcases filterAdd_ok hadd with ⟨nodes, htr, -⟩ | ⟨htr, -⟩
      · exact ⟨_, htr⟩
      · exact ⟨_, htr⟩
  · intro h
    rw [monAddPolicy_eq]
    cases hplugin : policy.type.plugin with
    | none => exact ⟨_, rfl⟩
    | some plugin =>
      obtain ⟨vm', -, hinit, -⟩ := initMonitor_spec plugin vm calls
      obtain ⟨nodes?, htr⟩ := h.translate policy (by simp) (by rw [hplugin]; rfl)
      obtain ⟨r, hadd⟩ : ∃ r, filterAdd ((filters plugin).getD filterInit) policy.path policy.id = .ok r := by
        cases nodes? with
        | none => exact ⟨_, filterAdd_rejected _ htr _⟩
        | some nodes =>
          have hroom := h.room plugin
          have htr' : translated policy.path = some nodes := by
            unfold translated
            rw [htr]
          rw [addedTo_append, addedTo_cons, addedTo_nil, if_pos hplugin, kept, List.filterMap_append,
            List.length_append, ← kept, ← hf plugin, length_entries] at hroom
          have hone : (List.filterMap (fun a : CStr × Int => (translated a.1).map (·, a.2))
              [(policy.path, policy.id)]).length = 1 := by simp [htr']
          obtain ⟨filter', hok, -⟩ := filterAdd_translated ((filters plugin).getD filterInit) htr
            (by omega) policy.id
          exact ⟨_, hok⟩
      refine ⟨(.success, Function.update filters plugin (some r.2), vm'), ?_⟩
      simp only [addPolicy, hinit, hadd, bind, Except.bind, pure, Except.pure]

lemma Monitored.add_holding {m m' : Monitored ε} {call : AddCall} {policies : List Policy}
    (h : m.add call = .ok m') (hf : Holding m.filters policies) :
    Holding m'.filters (policies ++ [call.policy]) := by
  obtain ⟨⟨status, filters', vm'⟩, hok, h⟩ := bind_eq_ok.mp h
  cases h
  exact monAddPolicy_holding hok hf

lemma Monitored.addAll_holding (adds : List AddCall) : ∀ {m m' : Monitored ε} {policies : List Policy},
    m.addAll adds = .ok m' → Holding m.filters policies →
      Holding m'.filters (policies ++ adds.map AddCall.policy) := by
  induction adds with
  | nil =>
    intro m m' policies h hf
    cases h
    simpa using hf
  | cons call rest ih =>
    intro m m' policies h hf
    obtain ⟨m₁, hadd, h⟩ := bind_eq_ok.mp h
    have := ih h (Monitored.add_holding hadd hf)
    simpa using this

/-- A sequence of additions has a defined end exactly if all its policies fit. -/
lemma Monitored.addAll_completes_iff (adds : List AddCall) : ∀ {m : Monitored ε}
    {policies : List Policy}, Holding m.filters policies → Fits policies →
      ((∃ m', m.addAll adds = .ok m') ↔ Fits (policies ++ adds.map AddCall.policy)) := by
  induction adds with
  | nil =>
    intro m policies _ hfits
    simpa [Monitored.addAll] using hfits
  | cons call rest ih =>
    intro m policies hf hfits
    have hone := monAddPolicy_completes_iff hf hfits (m.vms call.vm) call.calls call.policy
    have hsplit : policies ++ (call :: rest).map AddCall.policy =
        (policies ++ [call.policy]) ++ rest.map AddCall.policy := by simp
    constructor
    · rintro ⟨m', h⟩
      obtain ⟨m₁, hadd, h⟩ := bind_eq_ok.mp h
      obtain ⟨r, hok, -⟩ := bind_eq_ok.mp hadd
      rw [hsplit]
      exact (ih (Monitored.add_holding hadd hf) (hone.mp ⟨r, hok⟩)).mp ⟨m', h⟩
    · intro h
      rw [hsplit] at h
      obtain ⟨⟨status, filters', vm'⟩, hok⟩ := hone.mpr h.of_append
      have hadd : m.add call = .ok ⟨filters', Function.update m.vms call.vm vm'⟩ := by
        rw [Monitored.add, hok]
        rfl
      obtain ⟨m', h'⟩ := (ih (Monitored.add_holding hadd hf) h.of_append).mpr h
      refine ⟨m', ?_⟩
      rw [Monitored.addAll, hadd]
      exact h'

/-- The values in the order of the entries of the table. -/
def ValueOrder.listed : ValueOrder := ⟨fun table => table.entries.map Sigma.snd, fun _ => .refl _⟩

/-- The policy of a line such as `7 WARNING CREATE /a`. -/
def createPolicy (id : Int) : Policy := ⟨id, cstr "/a", .create, 0, .warning⟩

/-- No kernel symbol resolves. -/
def unresolvedCalls (_ : CStr) : SyscallCalls :=
  ⟨0, fun _ => 0, ⟨⟨false, none, false, false, 0, 0⟩, false, false, false⟩⟩

end Hfm

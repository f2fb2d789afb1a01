import Hfm.Monitors.SetPolicies

/-!
# Identifiers and thresholds

`filter_match` answers with the identifier of a policy or with -1, and the callbacks of the
monitors tell the two apart by a threshold. The parser takes every identifier but 0.
-/

namespace Hfm

variable {ε : Type}

/-- The test of the monitor's callbacks on the answer of `filter_match`: `policy_id > 0` in
`access_changed.c`, `>= 0` in the others. -/
def Plugin.matched : Plugin → Int → Bool
  | .accessChanged, id => 0 < id
  | _, id => 0 ≤ id

/-- The additions have a defined end, and then the monitor takes the path for a match. -/
def Fires (vms : Nat → Vm MonCb ε) (adds : List AddCall) (plugin : Plugin) (path : CStr) : Prop :=
  ∃ m filter id filter', (Monitored.start vms).addAll adds = .ok m ∧
    m.filters plugin = some filter ∧ filterMatch filter path = .ok (id, filter') ∧
    plugin.matched id = true

lemma firstId_of_first {before after : Added} {path pattern : CStr} {id : Int}
    (haccepts : accepts pattern path = true) (hfirst : ∀ a ∈ before, accepts a.1 path = false) :
    firstId (before ++ (pattern, id) :: after) path = id := by
  have hbefore : before.find? (fun a => accepts a.1 path) = none := by
    rw [List.find?_eq_none]
    intro a ha
    simp [hfirst a ha]
  unfold firstId
  rw [List.find?_append, hbefore, List.find?_cons, haccepts]
  rfl

lemma Plugin.matched_iff {id : Int} (h : id ≠ 0) (plugin : Plugin) :
    plugin.matched id = true ↔ 0 < id := by
  have hle : 0 ≤ id ↔ 0 < id := by omega
  cases plugin <;> simp [Plugin.matched, hle]

/-- An accepted policy that is the first to accept a path fires on it exactly if its
identifier is positive and the arrays hold the policies added. -/
theorem accepted_policy_fires_iff {file : Option (List UInt8)} {policies : PolicyTable}
    (hfile : getPolicies file = .ok (some policies)) {id : Int} {policy : Policy}
    (hmem : policies.table.lookup id = some policy) {plugin : Plugin}
    (hplugin : policy.type.plugin = some plugin) (vms : Nat → Vm MonCb ε)
    (before after : List AddCall) (vm : Nat) (calls : CStr → SyscallCalls) {path : CStr}
    (haccepts : accepts policy.path path = true)
    (hfirst : ∀ a ∈ before, a.policy.type.plugin = some plugin → accepts a.policy.path path = false) :
    Fires vms (before ++ ⟨vm, policy, calls⟩ :: after) plugin path ↔
      0 < policy.id ∧ Fits ((before ++ ⟨vm, policy, calls⟩ :: after).map AddCall.policy) := by
  have hvalid := (getPolicies_accepted hfile id policy hmem).1
  have hid : policy.id ≠ 0 := by
    intro h0
    simp [checkValid, h0] at hvalid
  obtain ⟨nodes, exp, hpattern, hpath⟩ := translate_of_accepts haccepts
  have hcompletes := Monitored.addAll_completes_iff (before ++ ⟨vm, policy, calls⟩ :: after)
    (m := Monitored.start vms) holding_start fits_nil
  rw [List.nil_append] at hcompletes
  have hmatch : ∀ m, (Monitored.start vms).addAll (before ++ ⟨vm, policy, calls⟩ :: after) = .ok m →
      ∃ filter filter', m.filters plugin = some filter ∧
        filterMatch filter path = .ok (policy.id, filter') := by
    intro m hm
    have hf := Monitored.addAll_holding _ hm holding_start plugin
    rw [List.nil_append, List.map_append, List.map_cons, addedTo_append, addedTo_cons, if_pos hplugin]
      at hf
    cases hfilter : m.filters plugin with
    | none =>
      rw [hfilter] at hf
      have : (nodes, policy.id) ∈ filterInit.entries := by
        rw [Option.getD_none] at hf
        rw [hf]
        exact mem_kept (by simp) hpattern
      cases this
    | some filter =>
      rw [hfilter, Option.getD_some] at hf
      obtain ⟨filter', hok, -⟩ := filterMatch_eq filter hf hpath
      rw [firstId_of_first haccepts] at hok
      · exact ⟨filter, filter', rfl, hok⟩
      · intro a ha
        obtain ⟨p, hp, hin, rfl⟩ := mem_addedTo.mp ha
        obtain ⟨call, hcall, rfl⟩ := List.mem_map.mp hp
        exact hfirst call hcall hin
  rw [← hcompletes, ← plugin.matched_iff hid]
  constructor
  · rintro ⟨m, filter, id', filter', hm, hfilter, hok, hmatched⟩
    obtain ⟨filter₁, filter₁', hfilter₁, hok₁⟩ := hmatch m hm
    rw [hfilter] at hfilter₁
    cases hfilter₁
    rw [hok] at hok₁
    cases hok₁
    exact ⟨hmatched, m, hm⟩
  · rintro ⟨hmatched, m, hm⟩
    obtain ⟨filter, filter', hfilter, hok⟩ := hmatch m hm
    exact ⟨m, filter, policy.id, filter', hm, hfilter, hok, hmatched⟩

theorem accepted_policy_fires_seven : ∃ policies,
    getPolicies (some (cstr "7 WARNING CREATE /a\n")) = .ok (some policies) ∧
    policies.table.lookup 7 = some (createPolicy 7) ∧
    (Fires (fun _ => (Vm.start (fun _ => 0x90) : Vm MonCb Unit)) [⟨0, createPolicy 7, unresolvedCalls⟩]
        .fileCreated (cstr "/a") ↔
      0 < (createPolicy 7).id ∧ Fits [createPolicy 7]) := by
  let ⟨policies, hfile⟩ : ∃ policies,
      getPolicies (some (cstr "7 WARNING CREATE /a\n")) = .ok (some policies) ∧
      policies.table.lookup 7 = some (createPolicy 7) := ⟨_, rfl, rfl⟩
  refine ⟨policies, hfile.1, hfile.2, ?_⟩
  exact accepted_policy_fires_iff hfile.1 hfile.2 rfl _ [] [] 0 unresolvedCalls rfl (by simp)

/-- The policy -1 is accepted by the parser, but its match looks like no match. -/
theorem negative_policy_dropped : ∃ policies,
    getPolicies (some (cstr "-1 WARNING CREATE /a\n")) = .ok (some policies) ∧
    policies.table.lookup (-1) = some (createPolicy (-1)) ∧
    accepts (createPolicy (-1)).path (cstr "/a") = true ∧
    ¬Fires (fun _ => (Vm.start (fun _ => 0x90) : Vm MonCb Unit))
      [⟨0, createPolicy (-1), unresolvedCalls⟩] .fileCreated (cstr "/a") := by
  refine ⟨_, rfl, rfl, rfl, ?_⟩
  rintro ⟨m, filter, id, filter', hm, hfilter, hok, hmatched⟩
  cases hm
  cases hfilter
  cases hok
  cases hmatched

end Hfm

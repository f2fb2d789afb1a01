import Hfm.Monitors.Restarts

/-!
# How many restarts the filters last for

The filters are never emptied, and every VM that starts or restarts adds the policies of the
table to them once more. Their arrays of identifiers hold 128.
-/

namespace Hfm

variable {ε : Type} {policies : GHashTable Int Policy}

/-- How many policies of the table the filter of the monitor takes in one round. -/
def usable (policies : GHashTable Int Policy) (plugin : Plugin) : Nat :=
  (kept (addedTo plugin (policies.entries.map Sigma.snd))).length

/-- No pattern of the table leads `fn_translate` out of its arrays. -/
def Translates (policies : GHashTable Int Policy) : Prop :=
  ∀ id policy, policies.lookup id = some policy → policy.type.plugin.isSome = true →
    ∃ nodes?, fnTranslate policy.path true = .ok nodes?

/-- The filters have room for so many rounds. -/
def Lasts (policies : GHashTable Int Policy) (k : Nat) : Prop :=
  k = 0 ∨ Translates policies ∧ ∀ plugin, k * usable policies plugin ≤ MAX_PATTERNS

lemma Lasts.mono {j k : Nat} (h : Lasts policies k) (hjk : j ≤ k) : Lasts policies j := by
  rcases h with rfl | ⟨htr, hroom⟩
  · exact .inl (Nat.le_zero.mp hjk)
  · exact .inr ⟨htr, fun plugin => (Nat.mul_le_mul_right _ hjk).trans (hroom plugin)⟩

/-! ### What rounds leave in the filters -/

lemma kept_append (added added' : Added) : kept (added ++ added') = kept added ++ kept added' :=
  List.filterMap_append

lemma length_kept_perm {round : List Policy} (hperm : round.Perm (policies.entries.map Sigma.snd))
    (plugin : Plugin) : (kept (addedTo plugin round)).length = usable policies plugin := by
  apply List.Perm.length_eq
  exact ((hperm.filter _).map _).filterMap _

lemma Rounds.length_kept {k : Nat} {history : List Policy} (h : Rounds policies k history)
    (plugin : Plugin) : (kept (addedTo plugin history)).length = k * usable policies plugin := by
  obtain ⟨rounds, rfl, rfl, hperm⟩ := h
  induction rounds with
  | nil => simp [kept]
  | cons round rounds ih =>
    obtain ⟨hround, hperm⟩ := List.forall_mem_cons.mp hperm
    rw [List.flatten_cons, addedTo_append, kept_append, List.length_append,
      length_kept_perm hround, ih hperm, List.length_cons, Nat.succ_mul, Nat.add_comm]

lemma Rounds.of_lookup {k : Nat} {history : List Policy} (h : Rounds policies k history)
    (hk : k ≠ 0) {id : Int} {policy : Policy} (hmem : policies.lookup id = some policy) :
    policy ∈ history := by
  obtain ⟨rounds, rfl, rfl, hperm⟩ := h
  obtain ⟨round, hround⟩ := List.exists_mem_of_ne_nil rounds fun hnil => hk (by rw [hnil]; rfl)
  refine List.mem_flatten.mpr ⟨round, hround, (hperm round hround).symm.subset ?_⟩
  exact List.mem_map.mpr ⟨⟨id, policy⟩, AList.mem_lookup_iff.mp hmem, rfl⟩

/-- What was added in so many rounds fits exactly if the filters last for them. -/
lemma Rounds.fits_iff {k : Nat} {history : List Policy} (h : Rounds policies k history) :
    Fits history ↔ Lasts policies k := by
  by_cases hk : k = 0
  · subst hk
    obtain ⟨rounds, hlen, rfl, -⟩ := h
    rw [List.eq_nil_of_length_eq_zero hlen]
    exact iff_of_true fits_nil (.inl rfl)
  · constructor
    · intro hfits
      refine .inr ⟨fun id policy hmem => hfits.translate policy (h.of_lookup hk hmem), ?_⟩
      intro plugin
      rw [← h.length_kept]
      exact hfits.room plugin
    · rintro (hzero | ⟨htr, hroom⟩)
      · exact absurd hzero hk
      · refine ⟨fun policy hmem hplugin => ?_, fun plugin => ?_⟩
        · obtain ⟨id, hlookup⟩ := h.mem hmem
          exact htr id policy hlookup hplugin
        · rw [h.length_kept]
          exact hroom plugin

/-! ### Starts and restarts -/

section

variable {vmnum k : Nat} {m : Monitored ε} {history : List Policy}

/-- One more round comes to an end exactly if the filters last for it. -/
lemma AfterRounds.setPolicies_iff (h : AfterRounds policies vmnum k m history)
    (hlasts : Lasts policies k) (vm : Nat) (order : ValueOrder) (calls : SetCalls) :
    (∃ m', hfmSetPolicies m vm order calls (some policies) = .ok m') ↔
      Lasts policies (k + 1) := by
  rw [← (h.rounds.snoc order).fits_iff, ← addCalls_policy vm order calls]
  exact Monitored.addAll_completes_iff _ h.holding (h.rounds.fits_iff.mpr hlasts)

lemma mainSetPolicies_ok_iff (order : Nat → ValueOrder) (calls : Nat → SetCalls)
    (vms : Nat → Vm MonCb ε) (vmnum : Nat) :
    (∃ m, mainSetPolicies (some policies) order calls vmnum (Monitored.start vms) = .ok m) ↔
      Lasts policies vmnum := by
  induction vmnum with
  | zero => exact iff_of_true ⟨_, rfl⟩ (.inl rfl)
  | succ i ih =>
    constructor
    · rintro ⟨m, hok⟩
      obtain ⟨m₁, hmain, hok⟩ := bind_eq_ok.mp hok
      obtain ⟨m₂, hset, -⟩ := bind_eq_ok.mp hok
      obtain ⟨history, hafter⟩ := mainSetPolicies_rounds i hmain
      exact (hafter.setPolicies_iff (ih.mp ⟨m₁, hmain⟩) _ _ _).mp ⟨m₂, hset⟩
    · intro hlasts
      have hbefore := hlasts.mono (Nat.le_succ i)
      obtain ⟨m, hmain⟩ := ih.mpr hbefore
      obtain ⟨history, hafter⟩ := mainSetPolicies_rounds i hmain
      obtain ⟨m', hset⟩ := (hafter.setPolicies_iff hbefore i (order i) (calls i)).mpr hlasts
      rw [mainSetPolicies, hmain]
      simp only [bind, Except.bind, hset]
      exact ⟨_, rfl⟩

lemma AfterRounds.restart_eq (h : AfterRounds policies vmnum k m history) {restart : Restart}
    (hlt : restart.vm < vmnum) : ∃ m₁ : Monitored ε, AfterRounds policies vmnum k m₁ history ∧
      hfmRestartVmi m restart =
        hfmSetPolicies m₁ restart.vm restart.order restart.calls (some policies) := by
  obtain ⟨hreset, hvm⟩ := h.restarted hlt restart.machine restart.altp2mIdx
  refine ⟨_, hreset, ?_⟩
  unfold hfmRestartVmi
  dsimp only
  rw [hvm]

lemma restartAll_ok_iff (restarts : List Restart) :
    ∀ {k : Nat} {m : Monitored ε} {history : List Policy}, (∀ r ∈ restarts, r.vm < vmnum) →
      AfterRounds policies vmnum k m history → Lasts policies k →
        ((∃ m', m.restartAll restarts = .ok m') ↔ Lasts policies (k + restarts.length)) := by
  induction restarts with
  | nil => exact fun _ _ hlasts => iff_of_true ⟨_, rfl⟩ hlasts
  | cons restart rest ih =>
    intro k m history hlt h hlasts
    obtain ⟨hrestart, hlt⟩ := List.forall_mem_cons.mp hlt
    obtain ⟨m₁, hreset, heq⟩ := h.restart_eq hrestart
    have hone := hreset.setPolicies_iff hlasts restart.vm restart.order restart.calls
    have hlen : k + (restart :: rest).length = k + 1 + rest.length := by
      rw [List.length_cons]
      omega
    rw [hlen]
    constructor
    · rintro ⟨m', hok⟩
      obtain ⟨m₂, hset, hok⟩ := bind_eq_ok.mp hok
      rw [heq] at hset
      exact (ih hlt (hreset.setPolicies hset) (hone.mp ⟨m₂, hset⟩)).mp ⟨m', hok⟩
    · intro hend
      have hnext := hend.mono (Nat.le_add_right (k + 1) rest.length)
      obtain ⟨m₂, hset⟩ := hone.mpr hnext
      obtain ⟨m', hok⟩ := (ih hlt (hreset.setPolicies hset) hnext).mpr hend
      refine ⟨m', ?_⟩
      rw [Monitored.restartAll, heq, hset]
      exact hok

end

/-- The program stays within the arrays of its filters while `vmnum` VMs are started and then
restarted exactly if, for each monitor, they hold the patterns of the table once for each start
and each restart. -/
theorem restarts_fit_iff (vms : Nat → Vm MonCb ε) (order : Nat → ValueOrder)
    (calls : Nat → SetCalls) {vmnum : Nat} (hpos : 0 < vmnum) {restarts : List Restart}
    (hlt : ∀ restart ∈ restarts, restart.vm < vmnum) :
    (∃ m m', mainSetPolicies (some policies) order calls vmnum (Monitored.start vms) = .ok m ∧
      m.restartAll restarts = .ok m') ↔
    Translates policies ∧
      ∀ plugin, (vmnum + restarts.length) * usable policies plugin ≤ MAX_PATTERNS := by
  have hlasts : Lasts policies (vmnum + restarts.length) ↔ Translates policies ∧
      ∀ plugin, (vmnum + restarts.length) * usable policies plugin ≤ MAX_PATTERNS :=
    or_iff_right (by omega)
  rw [← hlasts]
  constructor
  · rintro ⟨m, m', hmain, hrestarts⟩
    obtain ⟨history, hafter⟩ := mainSetPolicies_rounds vmnum hmain
    have hstart := (mainSetPolicies_ok_iff order calls vms vmnum).mp ⟨m, hmain⟩
    exact (restartAll_ok_iff restarts hlt hafter hstart).mp ⟨m', hrestarts⟩
  · intro hend
    have hstart := hend.mono (Nat.le_add_right vmnum restarts.length)
    obtain ⟨m, hmain⟩ := (mainSetPolicies_ok_iff order calls vms vmnum).mpr hstart
    obtain ⟨history, hafter⟩ := mainSetPolicies_rounds vmnum hmain
    obtain ⟨m', hrestarts⟩ := (restartAll_ok_iff restarts hlt hafter hstart).mpr hend
    exact ⟨m, m', hmain, hrestarts⟩

def guestVms (_ : Nat) : Vm MonCb Unit := Vm.start fun _ => 0x90

def oneRestart : Restart := ⟨0, (guestVms 0).machine, 1, .listed, fun _ => unresolvedCalls⟩

/-- With two VMs a policy for `/a` lasts for 126 restarts. -/
theorem restarts_fit_two_vms :
    (∃ m m', mainSetPolicies (some oneCreate.table) (fun _ => .listed) (fun _ _ => unresolvedCalls)
        2 (Monitored.start guestVms) = .ok m ∧
      m.restartAll (List.replicate 126 oneRestart) = .ok m') ∧
    ¬∃ m m', mainSetPolicies (some oneCreate.table) (fun _ => .listed) (fun _ _ => unresolvedCalls)
        2 (Monitored.start guestVms) = .ok m ∧
      m.restartAll (List.replicate 127 oneRestart) = .ok m' := by
  have hlt (n : Nat) : ∀ restart ∈ List.replicate n oneRestart, restart.vm < 2 := by
    intro restart hmem
    rw [List.eq_of_mem_replicate hmem]
    decide
  have htr : Translates oneCreate.table := by
    intro id policy hlookup _
    by_cases hid : id = 7
    · subst hid
      cases hlookup
      exact ⟨_, rfl⟩
    · rw [oneCreate, AList.lookup_insert_ne hid] at hlookup
      cases hlookup
  constructor
  · refine (restarts_fit_iff guestVms _ _ (by decide) (hlt 126)).mpr ⟨htr, fun plugin => ?_⟩
    rw [List.length_replicate]
    cases plugin <;> decide
  · intro hok
    have hroom := ((restarts_fit_iff guestVms _ _ (by decide) (hlt 127)).mp hok).2 .fileCreated
    rw [List.length_replicate] at hroom
    exact absurd hroom (by decide)

end Hfm

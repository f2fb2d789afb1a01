import Hfm.Attribution

/-!
# No record is lost

Whoever gets to a return address first takes records that wait there. So a record may go to
another return than its own, but those of one address go out in the order in which they came,
each of them once, and no trap stays behind for it.
-/

namespace Hfm

open Support

variable {γ : Type}

section Records

variable (entries : List (Trap (Hook γ) Record)) (produces : Nat → Nat → Bool) (hits : Nat → Hit)
  (n : Nat)

/-- The records that the entry callbacks hand over at hit `k`. -/
def recordsAt (k : Nat) : List Record :=
  ((entries.filter (·.pa = (hits k).pa)).filter fun t => t.retCb.isSome && produces k t.addr).map
    fun t => ⟨k, t.addr⟩

/-- The records that were handed over at the first `n` hits. -/
def handedOver : List Record := (List.range n).flatMap (recordsAt entries produces hits)

/-- Where the records of the calls are, when `rest` are the traps that wait. -/
structure Accounted (vm : Vm (Hook γ) Record) (log : List (Report γ))
    (rest : List (Trap (Hook γ) Record)) : Prop where
  registered : Registered vm (entries ++ rest)
  extra : ∀ p ∈ rest, p.extra.isSome = true
  nodup : (handedOver entries produces hits n).Nodup
  records : ∀ pa, (log.map Report.record).filter (fun r => (hits r.hit).ret = pa) ++
    (rest.filter (·.pa = pa)).filterMap Trap.extra =
      (handedOver entries produces hits n).filter fun r => (hits r.hit).ret = pa
  reported : ∀ e ∈ log, e.hit < n ∧ e.record.hit ≤ e.hit ∧
    (hits e.hit).pa = (hits e.record.hit).ret
  oldest : ∀ j < n, ∀ r ∈ handedOver entries produces hits (j + 1), (hits r.hit).ret = (hits j).pa →
    (∃ e ∈ log, e.hit < j ∧ e.record = r) ∨ ∃ e ∈ log, e.hit = j

end Records

section Count

variable {entries : List (Trap (Hook γ) Record)} {produces : Nat → Nat → Bool} {hits : Nat → Hit}
  {n : Nat} {vm₀ vm : Vm (Hook γ) Record} {l l' : Ledger Nat (Slip γ)}
  {rest : List (Trap (Hook γ) Record)}

/-- The records of the slips that are filed. -/
lemma filedAt_record (hentries : Entries vm₀ entries) (k : Nat) :
    (filedAt entries produces hits k).map Slip.record = recordsAt entries produces hits k := by
  have hslip : ∀ t ∈ entries.filter (·.pa = (hits k).pa), (slipAt produces k t).map Slip.record =
      if t.retCb.isSome && produces k t.addr then some (⟨k, t.addr⟩ : Record) else none := by
    intro t ht
    cases hprod : (t.retCb.isSome && produces k t.addr) with
    | false =>
      rw [slipAt_of_declines hprod]
      rfl
    | true =>
      obtain ⟨hret, hproduces⟩ := Bool.and_eq_true_iff.mp hprod
      obtain ⟨c, hc⟩ := Option.isSome_iff_exists.mp hret
      obtain ⟨f, rfl⟩ := hentries.retCb t (List.mem_filter.mp ht).1 c hc
      rw [slipAt_of_produces hc hproduces]
      rfl
  rw [filedAt, recordsAt, List.map_filterMap, List.filterMap_congr hslip]
  generalize entries.filter (·.pa = (hits k).pa) = l
  induction l with
  | nil => rfl
  | cons t l ih =>
    cases hprod : (t.retCb.isSome && produces k t.addr) with
    | false =>
      rw [List.filterMap_cons_none (by rw [hprod]; rfl), List.filter_cons_of_neg (by simp [hprod]), ih]
    | true =>
      rw [List.filterMap_cons_some (by rw [hprod]; rfl), List.filter_cons_of_pos (by simp [hprod]), ih,
        List.map_cons]

lemma nodup_handedOver (hentries : Entries vm₀ entries) (n : Nat) :
    (handedOver entries produces hits n).Nodup := by
  rw [handedOver, List.nodup_flatMap]
  constructor
  · intro k _
    apply List.Nodup.map_on
    · intro t ht t' ht' heq
      rw [Record.mk.injEq] at heq
      have hmem := (List.mem_filter.mp (List.mem_filter.mp ht).1).1
      have hmem' := (List.mem_filter.mp (List.mem_filter.mp ht').1).1
      exact hentries.addr_inj hmem hmem' heq.2
    · exact (hentries.registered.nodup.filter _).filter _
  · apply List.nodup_range.imp
    intro a b hab r ha hb
    obtain ⟨t, -, rfl⟩ := List.mem_map.mp ha
    obtain ⟨t', -, heq⟩ := List.mem_map.mp hb
    rw [Record.mk.injEq] at heq
    exact hab heq.1.symm

/-- What was filed under `pa` at the first `n` hits, in order. -/
def filedUnder (entries : List (Trap (Hook γ) Record)) (produces : Nat → Nat → Bool)
    (hits : Nat → Hit) (n pa : Nat) : List (Slip γ) :=
  (List.range n).flatMap fun k => if pa = (hits k).ret then filedAt entries produces hits k else []

/-- The queue of an address goes out in the order in which it came in. -/
lemma fileHit_history (h : ∀ pa, l.history pa = filedUnder entries produces hits n pa) (pa : Nat) :
    (fileHit entries produces hits n l).history pa = filedUnder entries produces hits (n + 1) pa := by
  rw [fileHit, Ledger.history_file, h, filedUnder, filedUnder, List.range_succ, List.flatMap_append,
    List.flatMap_singleton]

lemma ledger_history (n : Nat) : ∀ {l : Ledger Nat (Slip γ)},
    ledger entries produces hits n = .ok l →
      ∀ pa, l.history pa = filedUnder entries produces hits n pa := by
  induction n with
  | zero =>
    intro l h pa
    cases h
    rfl
  | succ n ih =>
    intro l' h pa
    obtain ⟨l, hok, hhit⟩ := bind_eq_ok.mp h
    obtain ⟨g, -, rfl⟩ := map_eq_ok.mp hhit
    rw [Ledger.history_take]
    exact fileHit_history (ih hok) pa

lemma mem_filedUnder (hentries : Entries vm₀ entries) {pa : Nat} {x : Slip γ}
    (hx : x ∈ filedUnder entries produces hits n pa) :
    x.record.hit < n ∧ (hits x.record.hit).ret = pa := by
  obtain ⟨k, hk, hx⟩ := List.mem_flatMap.mp hx
  split at hx
  · rename_i hpa
    rw [hit_of_mem_filedAt hentries hx]
    exact ⟨List.mem_range.mp hk, hpa.symm⟩
  · cases hx

lemma filedUnder_record (hentries : Entries vm₀ entries) (n pa : Nat) :
    (filedUnder entries produces hits n pa).map Slip.record =
      (handedOver entries produces hits n).filter fun r => (hits r.hit).ret = pa := by
  rw [filedUnder, handedOver, List.map_flatMap, List.filter_flatMap]
  refine List.flatMap_congr fun k _ => ?_
  rw [← filedAt_record hentries]
  have hret : ∀ r ∈ (filedAt entries produces hits k).map Slip.record, r.hit = k := by
    intro r hr
    obtain ⟨x, hx, rfl⟩ := List.mem_map.mp hr
    exact hit_of_mem_filedAt hentries hx
  by_cases hpa : pa = (hits k).ret
  · rw [if_pos hpa]
    refine (List.filter_eq_self.mpr fun r hr => ?_).symm
    rw [hret r hr, decide_eq_true_eq, hpa]
  · rw [if_neg hpa]
    refine (List.filter_eq_nil_iff.mpr fun r hr => ?_).symm
    rw [hret r hr, decide_eq_true_eq]
    exact Ne.symm hpa

/-- What was taken was under the address of its hit, and filed by then. -/
lemma ledger_taken (hentries : Entries vm₀ entries) (n : Nat) : ∀ {l : Ledger Nat (Slip γ)},
    ledger entries produces hits n = .ok l → ∀ x ∈ l.taken, x.1 < n ∧ x.2.1 = (hits x.1).pa ∧
      x.2.2.record.hit ≤ x.1 ∧ (hits x.2.2.record.hit).ret = x.2.1 := by
  induction n with
  | zero =>
    intro l h x hx
    cases h
    cases hx
  | succ n ih =>
    intro l' h x hx
    obtain ⟨l, hok, hhit⟩ := bind_eq_ok.mp h
    obtain ⟨g, -, rfl⟩ := map_eq_ok.mp hhit
    rcases List.mem_append.mp hx with hx | hx
    · obtain ⟨hlt, hrest⟩ := ih hok x hx
      exact ⟨by omega, hrest⟩
    · obtain ⟨y, hy, rfl⟩ := List.mem_map.mp hx
      have hfiled : y ∈ filedUnder entries produces hits (n + 1) (hits n).pa := by
        rw [← fileHit_history (ledger_history n hok)]
        exact List.mem_append_right _ (List.mem_of_mem_take hy)
      obtain ⟨hlt, hret⟩ := mem_filedUnder hentries hfiled
      exact ⟨Nat.lt_succ_self n, rfl, Nat.le_of_lt_succ hlt, hret⟩

lemma extra_of_slip {p : Trap (Hook γ) Record} {x : Slip γ} (h : slip p = some x) :
    p.extra = some x.record := by
  unfold slip at h
  split at h
  · rename_i f r hcb hextra
    cases h
    exact hextra
  · cases h

lemma Pending.extra (h : Pending entries vm rest l.waiting) {p : Trap (Hook γ) Record}
    (hp : p ∈ rest) : p.extra.isSome = true := by
  have hmem : slip p ∈ (rest.filter (·.pa = p.pa)).map slip :=
    List.mem_map_of_mem (List.mem_filter.mpr ⟨hp, by simp⟩)
  rw [h.slips] at hmem
  obtain ⟨x, -, hx⟩ := List.mem_map.mp hmem
  rw [extra_of_slip hx.symm]
  rfl

lemma Pending.records (h : Pending entries vm rest l.waiting) (pa : Nat) :
    (rest.filter (·.pa = pa)).filterMap Trap.extra = (l.waiting pa).map Slip.record := by
  have hslips := h.slips pa
  generalize rest.filter (·.pa = pa) = queue at hslips ⊢
  generalize l.waiting pa = xs at hslips ⊢
  induction queue generalizing xs with
  | nil =>
    obtain rfl := List.map_eq_nil_iff.mp hslips.symm
    rfl
  | cons p queue ih =>
    obtain ⟨x, xs, rfl, hslip, htail⟩ := List.map_eq_cons_iff.mp hslips.symm
    rw [List.filterMap_cons_some (extra_of_slip hslip.symm), List.map_cons, ih xs htail.symm]

/-- The reports of the records that were to return to `pa`. -/
lemma reports_under (hentries : Entries vm₀ entries) (hl : ledger entries produces hits n = .ok l)
    (pa : Nat) : ((l.taken.map reportOf).map Report.record).filter (fun r => (hits r.hit).ret = pa) =
      ((l.taken.filter (·.2.1 = pa)).map (·.2.2)).map Slip.record := by
  rw [List.map_map, List.filter_map, List.map_map]
  refine congrArg₂ List.map rfl (List.filter_congr fun x hx => ?_)
  obtain ⟨-, -, -, hret⟩ := ledger_taken hentries n hl x hx
  exact decide_eq_decide.mpr (by rw [← hret]; rfl)

lemma accounted_of_ledger (hentries : Entries vm₀ entries)
    (hl : ledger entries produces hits n = .ok l) (h : Pending entries vm rest l.waiting) :
    Accounted entries produces hits n vm (l.taken.map reportOf) rest := by
  refine ⟨h.registered, fun p hp => h.extra hp, nodup_handedOver hentries n, fun pa => ?_, fun e he => ?_,
    fun j hj r hr hret => ?_⟩
  · rw [reports_under hentries hl, h.records, ← List.map_append, ← filedUnder_record hentries,
      ← ledger_history n hl]
    rfl
  · obtain ⟨x, hx, rfl⟩ := List.mem_map.mp he
    obtain ⟨hlt, hpa, hle, hret⟩ := ledger_taken hentries n hl x hx
    exact ⟨hlt, hle, hpa.symm.trans hret.symm⟩
  · obtain ⟨l', more, hl', hmore, -⟩ := ledger_prefix (Nat.succ_le_of_lt hj) hl
    obtain ⟨l₀, hl₀, hhit⟩ := bind_eq_ok.mp hl'
    obtain ⟨g, hgo, htaken⟩ := hitLedger_taken hhit
    have hr : r ∈ ((fileHit entries produces hits j l₀).history (hits j).pa).map Slip.record := by
      rw [fileHit_history (ledger_history j hl₀), filedUnder_record hentries, List.mem_filter,
        decide_eq_true_eq]
      exact ⟨hr, hret⟩
    obtain ⟨x, hx, rfl⟩ := List.mem_map.mp hr
    rw [hmore, htaken]
    rcases List.mem_append.mp hx with hx | hx
    · -- it was taken before
      obtain ⟨y, hy, rfl⟩ := List.mem_map.mp hx
      have hy := (List.mem_filter.mp hy).1
      obtain ⟨hlt, -⟩ := ledger_taken hentries j hl₀ y hy
      refine .inl ⟨reportOf y, ?_, hlt, rfl⟩
      exact List.mem_append_left _ (List.mem_append_left _ (List.mem_map_of_mem hy))
    · -- it waits, so that the first one that waits goes out
      right
      cases hw : (fileHit entries produces hits j l₀).waiting (hits j).pa with
      | nil =>
        rw [hw] at hx
        cases hx
      | cons y ys =>
        rw [hw, List.length_cons] at hgo
        obtain ⟨g, rfl⟩ : ∃ g', g = g' + 1 :=
          Nat.exists_eq_succ_of_ne_zero (Nat.ne_of_gt (goOff_pos hgo))
        refine ⟨⟨j, y.ret, y.record⟩, ?_, rfl⟩
        rw [List.take_succ_cons, List.map_cons]
        exact List.mem_append_left _ (List.mem_append_right _ List.mem_cons_self)

variable (entries produces) in
/-- The ledger goes on where no link is overwritten. -/
lemma ledger_total (n : Nat)
    (hlinks : ∀ k < n, ∀ i, ((hits k).calls.visit i).freedLink ≠ .overwritten) :
    ∃ l, ledger entries produces hits n = .ok l := by
  induction n with
  | zero => exact ⟨.empty, rfl⟩
  | succ n ih =>
    obtain ⟨l, hl⟩ := ih fun k hk => hlinks k (by omega)
    obtain ⟨g, hgo⟩ := goOff_of_not_overwritten
      (fun i => hlinks n (Nat.lt_succ_self n) _ : ∀ i, (hits n).links entries i ≠ .overwritten)
      ((fileHit entries produces hits n l).waiting (hits n).pa).length
    refine ⟨(fileHit entries produces hits n l).take n (hits n).pa g, ?_⟩
    rw [ledger, hl]
    exact map_eq_ok.mpr ⟨g, hgo, rfl⟩

/-- A trap waits at an address exactly if a record that is to return there was not reported. -/
lemma Accounted.waits_iff {log : List (Report γ)}
    (h : Accounted entries produces hits n vm log rest) (pa : Nat) :
    (∃ p ∈ rest, p.pa = pa) ↔ ∃ r ∈ handedOver entries produces hits n,
      (hits r.hit).ret = pa ∧ ∀ e ∈ log, e.record ≠ r := by
  have hrecords := h.records pa
  constructor
  · rintro ⟨p, hp, hpa⟩
    obtain ⟨r, hr⟩ := Option.isSome_iff_exists.mp (h.extra p hp)
    have hwaits : r ∈ (rest.filter (·.pa = pa)).filterMap Trap.extra :=
      List.mem_filterMap.mpr ⟨p, List.mem_filter.mpr ⟨hp, decide_eq_true hpa⟩, hr⟩
    have hall := hrecords ▸ List.mem_append_right _ hwaits
    obtain ⟨hmem, hret⟩ := List.mem_filter.mp hall
    refine ⟨r, hmem, of_decide_eq_true hret, fun e he heq => ?_⟩
    have hnodup := h.nodup.filter fun r => (hits r.hit).ret = pa
    rw [← hrecords, List.nodup_append] at hnodup
    refine hnodup.2.2 r ?_ r hwaits rfl
    exact List.mem_filter.mpr ⟨List.mem_map.mpr ⟨e, he, heq⟩, hret⟩
  · rintro ⟨r, hmem, hret, hnot⟩
    have hall : r ∈ (handedOver entries produces hits n).filter fun r => (hits r.hit).ret = pa :=
      List.mem_filter.mpr ⟨hmem, decide_eq_true hret⟩
    rw [← hrecords] at hall
    rcases List.mem_append.mp hall with hreported | hwaits
    · obtain ⟨e, he, heq⟩ := List.mem_map.mp (List.mem_filter.mp hreported).1
      exact absurd heq (hnot e he)
    · obtain ⟨p, hp, -⟩ := List.mem_filterMap.mp hwaits
      obtain ⟨hp, hpa⟩ := List.mem_filter.mp hp
      exact ⟨p, hp, of_decide_eq_true hpa⟩

/-- Over any hits of any threads: the records of the calls that are to return to one address
are reported in the order in which they were handed over, each once, and those that were not
yet reported wait in one trap each. Every hit at an address where records wait reports the
oldest at least. There is a breakpoint where an entry is or where a record waits, and nowhere
else. -/
theorem records_accounted [DecidableEq γ] (hentries : Entries vm₀ entries)
    (hanswered : ∀ k < n, (hits k).Answered)
    (hlinks : ∀ k < n, ∀ i, ((hits k).calls.visit i).freedLink ≠ .overwritten) : ∃ vm log rest,
      runHits produces hits vm₀ n = .ok (vm, log) ∧
      Accounted entries produces hits n vm log rest ∧
      ∀ pa, tmTrapExist vm.tm pa = true ↔ (∃ t ∈ entries, t.pa = pa) ∨
        ∃ r ∈ handedOver entries produces hits n, (hits r.hit).ret = pa ∧
          ∀ e ∈ log, e.record ≠ r := by
  obtain ⟨l, hl⟩ := ledger_total entries produces n hlinks
  have hrun := runHits_ledger produces hentries n hanswered
  rw [hl] at hrun
  obtain ⟨vm, rest, hok, h⟩ := hrun
  have hacc := accounted_of_ledger hentries hl h
  refine ⟨vm, _, rest, hok, hacc, fun pa => ?_⟩
  rw [hacc.registered.indexed.trapExist pa, ← hacc.waits_iff pa]
  simp only [List.mem_append, or_and_right, exists_or]

/-- Two calls that overlap: the one made last comes back first, with the record of the other. -/
theorem records_accounted_overlap : ∃ vm log rest,
    runHits (fun _ _ => true) (overlap 1 0) entryVm 3 = .ok (vm, log) ∧
      Accounted [entryTrap] (fun _ _ => true) (overlap 1 0) 3 vm log rest ∧
      ∀ pa, tmTrapExist vm.tm pa = true ↔ (∃ t ∈ [entryTrap], t.pa = pa) ∨
        ∃ r ∈ handedOver [entryTrap] (fun _ _ => true) (overlap 1 0) 3,
          (overlap 1 0 r.hit).ret = pa ∧ ∀ e ∈ log, e.record ≠ r := by
  refine records_accounted entryVm_entries (fun k _ => overlap_answered 1 0 k) fun k _ i => ?_
  match k with
  | 0 | 1 | 2 | k + 3 => exact FreedLink.noConfusion

end Count

end Hfm

import Hfm.ReturnTraps

/-!
# Attribution of the records

A return trap is keyed by the return address alone. So a record is reported at the return of
its own call only where the calls that share a return address come back in the order in which
they were made, and each return stops behind the traps of its call.
-/

namespace Hfm

open Support

variable {γ : Type}

section Calls

variable (entries : List (Trap (Hook γ) Record)) (produces : Nat → Nat → Bool) (hits : Nat → Hit)
  (n : Nat)

/-- The entry callback of `t` hands over a record at hit `k`. -/
structure Produces (t : Trap (Hook γ) Record) (k : Nat) : Prop where
  mem : t ∈ entries
  pa : t.pa = (hits k).pa
  retCb : t.retCb.isSome = true
  produces : produces k t.addr = true

/-- Each return is at the return address of an earlier call, and all calls return, once. -/
structure Calls : Prop where
  answered : ∀ k < n, (hits k).Answered
  matched : ∀ i < n, ∀ k, (hits i).returns = some k → k < i ∧ (hits i).pa = (hits k).ret
  once : ∀ i < n, ∀ j < n, ∀ k, (hits i).returns = some k → (hits j).returns = some k → i = j
  returned : ∀ k < n, ∀ t, Produces entries produces hits t k → ∃ i < n, (hits i).returns = some k

/-- Each record is reported once, at the return of its own call; nothing else is reported. -/
structure Attributed (log : List (Report γ)) : Prop where
  own : ∀ k < n, ∀ t f, Produces entries produces hits t k → t.retCb = some (.ret f) →
    ∃ i < n, (hits i).returns = some k ∧
      log.filter (·.record = ⟨k, t.addr⟩) = [⟨i, f, ⟨k, t.addr⟩⟩]
  only : ∀ e ∈ log, (hits e.hit).returns = some e.record.hit

/-- The calls made before hit `m` that hand over records and are to return to `pa`, but have
not returned before hit `n`. -/
def awaited (m n pa : Nat) : List Nat :=
  (List.range m).filter fun k => (filedAt entries produces hits k).length ≠ 0 ∧
    (hits k).ret = pa ∧ ∀ i < n, (hits i).returns ≠ some k

/-- The first `c` traps that wait go off, and where there are `more` no other does. -/
def StopsAfter (links : Nat → FreedLink) (c more : Nat) : Prop :=
  (∀ m < c - 1, links m = .kept) ∧
    if more = 0 then links (c - 1) ≠ .overwritten else links (c - 1) = .cleared

instance (links : Nat → FreedLink) (c more : Nat) : Decidable (StopsAfter links c more) :=
  inferInstanceAs (Decidable ((∀ m < c - 1, links m = .kept) ∧
    if more = 0 then links (c - 1) ≠ .overwritten else links (c - 1) = .cleared))

/-- Where calls are awaited at the address of hit `n`, it is the return of the one that was
made first, and stops behind the traps of that call. -/
def InTurn : Prop :=
  match awaited entries produces hits (n + 1) n (hits n).pa with
  | [] => True
  | k :: later => (hits n).returns = some k ∧
      StopsAfter ((hits n).links entries) (filedAt entries produces hits k).length later.length

end Calls

/-- Of the traps that wait exactly the first `c` go off. -/
lemma goOff_eq_iff {links : Nat → FreedLink} (c more : Nat) :
    goOff links (c + 1 + more) = .ok (c + 1) ↔ StopsAfter links (c + 1) more := by
  induction c generalizing links with
  | zero =>
    unfold StopsAfter
    rw [Nat.zero_add, Nat.add_comm, goOff]
    cases links 0 with
    | kept =>
      cases more with
      | zero => simp [goOff, Except.map]
      | succ more =>
        simp only [Nat.add_one_ne_zero, if_false, reduceCtorEq, and_false, iff_false]
        intro h
        obtain ⟨g, hg, hone⟩ := map_eq_ok.mp h
        have := goOff_pos hg
        omega
    | cleared => simp
    | overwritten => simp
  | succ c ih =>
    have hsplit : StopsAfter links (c + 1 + 1) more ↔
        links 0 = .kept ∧ StopsAfter (fun i => links (i + 1)) (c + 1) more := by
      unfold StopsAfter
      rw [Nat.add_sub_cancel, Nat.add_sub_cancel, ← and_assoc]
      refine and_congr_left' ⟨fun h => ⟨h 0 (Nat.succ_pos c), fun m hm => h (m + 1) (by omega)⟩, ?_⟩
      rintro ⟨hzero, hrest⟩ m hm
      cases m with
      | zero => exact hzero
      | succ m => exact hrest m (by omega)
    have hlen : c + 1 + 1 + more = c + 1 + more + 1 := by omega
    rw [hsplit, ← ih, hlen, goOff]
    cases links 0 with
    | kept =>
      rw [map_eq_ok]
      simp
    | cleared => simp
    | overwritten => simp

section Filed

variable {entries : List (Trap (Hook γ) Record)} {produces : Nat → Nat → Bool} {hits : Nat → Hit}
  {n : Nat} {vm₀ : Vm (Hook γ) Record}

lemma mem_filedAt (hentries : Entries vm₀ entries) {k : Nat} {x : Slip γ} :
    x ∈ filedAt entries produces hits k ↔ ∃ t, Produces entries produces hits t k ∧
      t.retCb = some (.ret x.ret) ∧ x.record = ⟨k, t.addr⟩ := by
  simp only [filedAt, List.mem_filterMap, List.mem_filter, decide_eq_true_eq]
  constructor
  · rintro ⟨t, ⟨hmem, hpa⟩, hslip⟩
    cases hprod : (t.retCb.isSome && produces k t.addr) with
    | false =>
      rw [slipAt_of_declines hprod] at hslip
      cases hslip
    | true =>
      obtain ⟨hret, hproduces⟩ := Bool.and_eq_true_iff.mp hprod
      obtain ⟨c, hc⟩ := Option.isSome_iff_exists.mp hret
      obtain ⟨f, rfl⟩ := hentries.retCb t hmem c hc
      rw [slipAt_of_produces hc hproduces] at hslip
      cases hslip
      exact ⟨t, ⟨hmem, hpa, hret, hproduces⟩, hc, rfl⟩
  · rintro ⟨t, ⟨hmem, hpa, -, hproduces⟩, hret, hrecord⟩
    refine ⟨t, ⟨hmem, hpa⟩, ?_⟩
    rw [slipAt_of_produces hret hproduces, ← hrecord]

/-- What a slip hands over is the record of its hit. -/
lemma hit_of_mem_filedAt (hentries : Entries vm₀ entries) {k : Nat} {x : Slip γ}
    (hx : x ∈ filedAt entries produces hits k) : x.record.hit = k := by
  obtain ⟨t, -, -, hrecord⟩ := (mem_filedAt hentries).mp hx
  rw [hrecord]

lemma Entries.addr_inj (h : Entries vm₀ entries) {t t' : Trap (Hook γ) Record} (ht : t ∈ entries)
    (ht' : t' ∈ entries) (haddr : t.addr = t'.addr) : t = t' :=
  List.inj_on_of_nodup_map h.addr ht ht' haddr

variable (produces hits) in
/-- The records of one hit are from different entry traps. -/
lemma nodup_filedAt (hentries : Entries vm₀ entries) (k : Nat) :
    (filedAt entries produces hits k).Nodup := by
  have haddr : (entries.filter (·.pa = (hits k).pa)).Pairwise fun t t' => t.addr ≠ t'.addr :=
    (List.pairwise_map.mp hentries.addr).filter _
  have hslip : ∀ (t : Trap (Hook γ) Record) x, slipAt produces k t = some x →
      x.record = ⟨k, t.addr⟩ := by
    intro t x hx
    unfold slipAt at hx
    split at hx
    · split at hx <;> cases hx
      rfl
    · cases hx
  refine haddr.filterMap _ fun t t' hne x hx y hy heq => hne ?_
  have hrecord := congrArg Slip.record heq
  rw [hslip t x hx, hslip t' y hy, Record.mk.injEq] at hrecord
  exact hrecord.2

end Filed

/-! ### Hits in turn -/

section Turns

variable {entries : List (Trap (Hook γ) Record)} {produces : Nat → Nat → Bool} {hits : Nat → Hit}
  {n N : Nat} {vm₀ : Vm (Hook γ) Record} {l l' : Ledger Nat (Slip γ)}

/-- What the calls awaited at an address have handed over, in order. -/
def awaitedSlips (entries : List (Trap (Hook γ) Record)) (produces : Nat → Nat → Bool)
    (hits : Nat → Hit) (m n pa : Nat) : List (Slip γ) :=
  (awaited entries produces hits m n pa).flatMap (filedAt entries produces hits)

/-- The queues hold what the awaited calls have handed over. -/
def Queued (entries : List (Trap (Hook γ) Record)) (produces : Nat → Nat → Bool)
    (hits : Nat → Hit) (n : Nat) (l : Ledger Nat (Slip γ)) : Prop :=
  ∀ pa, l.waiting pa = awaitedSlips entries produces hits n n pa

/-- The reports of hit `i`, if it reports the records of the call it returns from. -/
def reportsAt (entries : List (Trap (Hook γ) Record)) (produces : Nat → Nat → Bool)
    (hits : Nat → Hit) (i : Nat) : List (Report γ) :=
  ((hits i).returns.elim [] (filedAt entries produces hits)).map fun x => ⟨i, x.ret, x.record⟩

lemma mem_awaited {m n pa k : Nat} : k ∈ awaited entries produces hits m n pa ↔
    k < m ∧ (filedAt entries produces hits k).length ≠ 0 ∧ (hits k).ret = pa ∧
      ∀ i < n, (hits i).returns ≠ some k := by
  simp only [awaited, List.mem_filter, List.mem_range, decide_eq_true_eq]

variable (entries produces hits) in
lemma nodup_awaited (m n pa : Nat) : (awaited entries produces hits m n pa).Nodup :=
  List.nodup_range.filter _

/-- Hit `n` files its records behind those that wait. -/
lemma Queued.file (h : Queued entries produces hits n l) (hcalls : Calls entries produces hits N)
    (hn : n < N) (pa : Nat) : (fileHit entries produces hits n l).waiting pa =
      awaitedSlips entries produces hits (n + 1) n pa := by
  have hnew : ∀ i < n, (hits i).returns ≠ some n := by
    intro i hi hreturns
    have := (hcalls.matched i (by omega) n hreturns).1
    omega
  have hsplit : awaited entries produces hits (n + 1) n pa = awaited entries produces hits n n pa ++
      if (filedAt entries produces hits n).length ≠ 0 ∧ (hits n).ret = pa then [n] else [] := by
    have hall : ((filedAt entries produces hits n).length ≠ 0 ∧ (hits n).ret = pa ∧
        ∀ i < n, (hits i).returns ≠ some n) ↔
          ((filedAt entries produces hits n).length ≠ 0 ∧ (hits n).ret = pa) :=
      ⟨fun h => ⟨h.1, h.2.1⟩, fun h => ⟨h.1, h.2, hnew⟩⟩
    unfold awaited
    rw [List.range_succ, List.filter_append, List.filter_singleton, decide_eq_decide.mpr hall,
      Bool.cond_decide]
  unfold awaitedSlips fileHit
  rw [hsplit, List.flatMap_append, Ledger.file_waiting]
  by_cases hpa : (hits n).ret = pa
  · subst hpa
    rw [Function.update_self, h (hits n).ret]
    by_cases hnone : (filedAt entries produces hits n).length = 0
    · rw [if_neg (by simp [hnone]), List.length_eq_zero_iff.mp hnone]
      rfl
    · rw [if_pos ⟨hnone, rfl⟩, List.flatMap_singleton]
      rfl
  · rw [Function.update_of_ne (Ne.symm hpa), if_neg (fun hboth => hpa hboth.2), h pa]
    exact (List.append_nil _).symm

/-- What hit `n` returns from is awaited no more. -/
lemma awaited_succ (m n pa : Nat) : awaited entries produces hits m (n + 1) pa =
    (awaited entries produces hits m n pa).filter fun k => (hits n).returns ≠ some k := by
  unfold awaited
  rw [List.filter_filter]
  refine List.filter_congr fun k _ => ?_
  rw [← Bool.decide_and]
  refine decide_eq_decide.mpr ⟨?_, ?_⟩
  · rintro ⟨hsome, hpa, hbefore⟩
    exact ⟨hbefore n (Nat.lt_succ_self n), hsome, hpa, fun i hi => hbefore i (by omega)⟩
  · rintro ⟨hnow, hsome, hpa, hbefore⟩
    refine ⟨hsome, hpa, fun i hi => ?_⟩
    rcases Nat.lt_succ_iff_lt_or_eq.mp hi with hi | rfl
    · exact hbefore i hi
    · exact hnow

/-- At other addresses than its own, hit `n` returns from nothing. -/
lemma awaited_succ_of_ne (hcalls : Calls entries produces hits N) (hn : n < N) {m pa : Nat}
    (hpa : pa ≠ (hits n).pa) : awaited entries produces hits m (n + 1) pa =
      awaited entries produces hits m n pa := by
  rw [awaited_succ, List.filter_eq_self]
  intro k hk
  rw [decide_eq_true_eq]
  intro hreturns
  exact hpa ((mem_awaited.mp hk).2.2.1.symm.trans (hcalls.matched n hn k hreturns).2.symm)

lemma length_awaitedSlips_eq_zero {calls : List Nat}
    (h : ∀ k ∈ calls, (filedAt entries produces hits k).length ≠ 0) :
    (calls.flatMap (filedAt entries produces hits)).length = 0 ↔ calls.length = 0 := by
  cases calls with
  | nil => simp
  | cons k later =>
    have := h k List.mem_cons_self
    rw [List.flatMap_cons, List.length_append, List.length_cons]
    omega

/-- Only whether others wait matters to where the traps stop. -/
lemma stopsAfter_congr {links : Nat → FreedLink} {c more more' : Nat} (h : more = 0 ↔ more' = 0) :
    StopsAfter links c more ↔ StopsAfter links c more' := by
  unfold StopsAfter
  rw [if_congr h rfl rfl]

/-- At the address of hit `n` the first `g` traps go off, where these are what is awaited no more. -/
lemma Queued.take (h : Queued entries produces hits n l) (hcalls : Calls entries produces hits N)
    (hn : n < N) {g : Nat} (hleft : ((fileHit entries produces hits n l).waiting (hits n).pa).drop g =
      awaitedSlips entries produces hits (n + 1) (n + 1) (hits n).pa) :
    Queued entries produces hits (n + 1)
      ((fileHit entries produces hits n l).take n (hits n).pa g) := by
  intro pa
  rw [Ledger.take_waiting]
  by_cases hpa : pa = (hits n).pa
  · subst hpa
    rw [Function.update_self, hleft]
  · rw [Function.update_of_ne hpa, h.file hcalls hn, awaitedSlips, awaitedSlips,
      awaited_succ_of_ne hcalls hn hpa]

/-- Where no call is awaited, the hit returns from none that has handed over a record. -/
lemma reportsAt_eq_nil (hcalls : Calls entries produces hits N) (hn : n < N)
    (hnone : awaited entries produces hits (n + 1) n (hits n).pa = []) :
    reportsAt entries produces hits n = [] := by
  unfold reportsAt
  cases hreturns : (hits n).returns with
  | none => rfl
  | some k =>
    obtain ⟨hkn, hpa⟩ := hcalls.matched n hn k hreturns
    have hk : k ∉ awaited entries produces hits (n + 1) n (hits n).pa := by simp [hnone]
    have hlen : (filedAt entries produces hits k).length = 0 := by
      by_contra hne
      refine hk (mem_awaited.mpr ⟨by omega, hne, hpa.symm, fun i hi hi' => ?_⟩)
      have := hcalls.once i (by omega) n hn k hi' hreturns
      omega
    simp [List.length_eq_zero_iff.mp hlen]

/-- The return of the first of the awaited calls leaves the later ones. -/
lemma awaited_succ_of_first {k : Nat} {later : List Nat}
    (hcase : awaited entries produces hits (n + 1) n (hits n).pa = k :: later)
    (hreturns : (hits n).returns = some k) :
    awaited entries produces hits (n + 1) (n + 1) (hits n).pa = later := by
  have hnodup := nodup_awaited entries produces hits (n + 1) n (hits n).pa
  rw [hcase] at hnodup
  rw [awaited_succ, hcase, List.filter_cons_of_neg (by simp [hreturns]), List.filter_eq_self]
  intro k' hk'
  rw [hreturns, decide_eq_true_eq, ne_eq, Option.some.injEq]
  rintro rfl
  exact (List.nodup_cons.mp hnodup).1 hk'

/-- A hit in turn reports the records of the call it returns from. -/
lemma Queued.next (h : Queued entries produces hits n l) (hcalls : Calls entries produces hits N)
    (hn : n < N) (hturn : InTurn entries produces hits n) :
    ∃ l', hitLedger entries produces hits n l = .ok l' ∧ Queued entries produces hits (n + 1) l' ∧
      l'.taken.map reportOf = l.taken.map reportOf ++ reportsAt entries produces hits n := by
  have hfile := h.file hcalls hn (hits n).pa
  unfold InTurn at hturn
  cases hcase : awaited entries produces hits (n + 1) n (hits n).pa with
  | nil =>
    have hslips : (fileHit entries produces hits n l).waiting (hits n).pa = [] := by
      rw [hfile, awaitedSlips, hcase]
      rfl
    refine ⟨(fileHit entries produces hits n l).take n (hits n).pa 0, ?_, h.take hcalls hn ?_, ?_⟩
    · unfold hitLedger
      rw [hslips]
      rfl
    · rw [hslips, awaitedSlips, awaited_succ, hcase]
      rfl
    · rw [Ledger.take_taken, hslips, reportsAt_eq_nil hcalls hn hcase, List.append_nil]
      simp [fileHit]
  | cons k later =>
    rw [hcase] at hturn
    obtain ⟨hreturns, hstops⟩ := hturn
    have hmem : ∀ k' ∈ k :: later, (filedAt entries produces hits k').length ≠ 0 := by
      intro k' hk'
      rw [← hcase] at hk'
      exact (mem_awaited.mp hk').2.1
    have hslips : (fileHit entries produces hits n l).waiting (hits n).pa =
        filedAt entries produces hits k ++ later.flatMap (filedAt entries produces hits) := by
      rw [hfile, awaitedSlips, hcase, List.flatMap_cons]
    obtain ⟨c, hc⟩ : ∃ c, (filedAt entries produces hits k).length = c + 1 :=
      Nat.exists_eq_succ_of_ne_zero (hmem k List.mem_cons_self)
    have hlater := length_awaitedSlips_eq_zero fun k' hk' => hmem k' (List.mem_cons_of_mem k hk')
    have hgo : goOff ((hits n).links entries)
        ((fileHit entries produces hits n l).waiting (hits n).pa).length = .ok (c + 1) := by
      rw [hc, ← stopsAfter_congr hlater, ← goOff_eq_iff] at hstops
      rw [hslips, List.length_append, hc]
      exact hstops
    refine ⟨(fileHit entries produces hits n l).take n (hits n).pa (c + 1), ?_,
      h.take hcalls hn ?_, ?_⟩
    · unfold hitLedger
      rw [hgo]
      rfl
    · rw [hslips, awaitedSlips, awaited_succ_of_first hcase hreturns, ← hc, List.drop_left]
    · rw [Ledger.take_taken, hslips, ← hc, List.take_left, List.map_append, List.map_map]
      unfold reportsAt
      rw [hreturns]
      rfl

/-- As long as every hit is in turn, each reports the records of its own call. -/
lemma ledger_of_inTurn (hcalls : Calls entries produces hits N) (n : Nat) (hn : n ≤ N)
    (hturn : ∀ i < n, InTurn entries produces hits i) :
    ∃ l, ledger entries produces hits n = .ok l ∧ Queued entries produces hits n l ∧
      l.taken.map reportOf = (List.range n).flatMap (reportsAt entries produces hits) := by
  induction n with
  | zero => exact ⟨.empty, rfl, fun _ => rfl, rfl⟩
  | succ n ih =>
    obtain ⟨l, hok, hqueued, hlog⟩ := ih (by omega) fun i hi => hturn i (by omega)
    obtain ⟨l', hok', hqueued', hlog'⟩ := hqueued.next hcalls (by omega) (hturn n (by omega))
    refine ⟨l', ?_, hqueued', ?_⟩
    · rw [ledger, hok]
      exact hok'
    · rw [hlog', hlog, List.range_succ, List.flatMap_append, List.flatMap_singleton]

/-- What a hit adds to the reports. -/
lemma hitLedger_taken (h : hitLedger entries produces hits n l = .ok l') : ∃ g,
    goOff ((hits n).links entries)
      ((fileHit entries produces hits n l).waiting (hits n).pa).length = .ok g ∧
    l'.taken.map reportOf = l.taken.map reportOf ++
      (((fileHit entries produces hits n l).waiting (hits n).pa).take g).map
        fun x => ⟨n, x.ret, x.record⟩ := by
  obtain ⟨g, hgo, rfl⟩ := map_eq_ok.mp h
  refine ⟨g, hgo, ?_⟩
  rw [Ledger.take_taken, List.map_append, List.map_map]
  rfl

/-- Later hits only add reports of their own. -/
lemma ledger_prefix {j : Nat} (hj : j ≤ n) : ∀ {l' : Ledger Nat (Slip γ)},
    ledger entries produces hits n = .ok l' → ∃ l more, ledger entries produces hits j = .ok l ∧
      l'.taken.map reportOf = l.taken.map reportOf ++ more ∧ ∀ e ∈ more, j ≤ e.hit := by
  induction n, hj using Nat.le_induction with
  | base =>
    intro l' h
    exact ⟨l', [], h, (List.append_nil _).symm, by simp⟩
  | succ n hjn ih =>
    intro l' h
    obtain ⟨l₁, hok₁, hhit⟩ := bind_eq_ok.mp h
    obtain ⟨l, more, hok, hmore, hafter⟩ := ih hok₁
    obtain ⟨g, -, htaken⟩ := hitLedger_taken hhit
    refine ⟨l, _, hok, by rw [htaken, hmore, List.append_assoc], fun e he => ?_⟩
    rcases List.mem_append.mp he with he | he
    · exact hafter e he
    · obtain ⟨x, -, rfl⟩ := List.mem_map.mp he
      exact hjn

/-- The reports of hit `j`, among all, are those that it adds. -/
lemma mem_reports_at {L : Ledger Nat (Slip γ)} (hL : ledger entries produces hits N = .ok L)
    (hcalls : Calls entries produces hits N) {j : Nat} (hj : j < N)
    (hbefore : ∀ i < j, InTurn entries produces hits i) : ∃ g,
      goOff ((hits j).links entries)
        (awaitedSlips entries produces hits (j + 1) j (hits j).pa).length = .ok g ∧
      ∀ x : Slip γ, (⟨j, x.ret, x.record⟩ : Report γ) ∈ L.taken.map reportOf ↔
        x ∈ (awaitedSlips entries produces hits (j + 1) j (hits j).pa).take g := by
  obtain ⟨l', more, hl', hmore, hafter⟩ := ledger_prefix (Nat.succ_le_of_lt hj) hL
  obtain ⟨l, hl, hqueued, hlog⟩ := ledger_of_inTurn hcalls j (Nat.le_of_lt hj) hbefore
  rw [ledger, hl] at hl'
  obtain ⟨g, hgo, htaken⟩ := hitLedger_taken hl'
  rw [hqueued.file hcalls hj] at hgo htaken
  refine ⟨g, hgo, fun x => ?_⟩
  rw [hmore, htaken, hlog, List.append_assoc, List.mem_append, List.mem_append]
  constructor
  · rintro (hx | hx | hx)
    · obtain ⟨i, hi, hreport⟩ := List.mem_flatMap.mp hx
      obtain ⟨y, -, heq⟩ := List.mem_map.mp hreport
      rw [Report.mk.injEq] at heq
      have := List.mem_range.mp hi
      omega
    · obtain ⟨y, hy, heq⟩ := List.mem_map.mp hx
      rw [Report.mk.injEq] at heq
      have hsame : y = x := by
        cases x
        cases y
        simp_all
      exact hsame ▸ hy
    · have := hafter _ hx
      dsimp only at this
      omega
  · intro hx
    exact .inr (.inl (List.mem_map.mpr ⟨x, hx, rfl⟩))

/-- The records of a call are reported at its return. -/
lemma Attributed.own_mem (hentries : Entries vm₀ entries) (hcalls : Calls entries produces hits N)
    {log : List (Report γ)} (h : Attributed entries produces hits N log) {j k : Nat} (hj : j < N)
    (hreturns : (hits j).returns = some k) {x : Slip γ}
    (hx : x ∈ filedAt entries produces hits k) : ⟨j, x.ret, x.record⟩ ∈ log := by
  obtain ⟨t, ht, hret, hrecord⟩ := (mem_filedAt hentries).mp hx
  have hk : k < N := Nat.lt_trans (hcalls.matched j hj k hreturns).1 hj
  obtain ⟨i, hi, hi', hfilter⟩ := h.own k hk t x.ret ht hret
  obtain rfl := hcalls.once i hi j hj k hi' hreturns
  rw [← hrecord] at hfilter
  exact (List.mem_filter.mp (hfilter ▸ List.mem_cons_self)).1

/-- A hit whose reports are attributed is in turn, if those before it are. -/
lemma inTurn_of_attributed (hentries : Entries vm₀ entries) {L : Ledger Nat (Slip γ)}
    (hL : ledger entries produces hits N = .ok L) (hcalls : Calls entries produces hits N)
    (hattr : Attributed entries produces hits N (L.taken.map reportOf)) {j : Nat} (hj : j < N)
    (hbefore : ∀ i < j, InTurn entries produces hits i) : InTurn entries produces hits j := by
  obtain ⟨g, hgo, hreports⟩ := mem_reports_at hL hcalls hj hbefore
  unfold InTurn
  cases hcase : awaited entries produces hits (j + 1) j (hits j).pa with
  | nil => trivial
  | cons k later =>
    have hmem : ∀ k' ∈ k :: later, (filedAt entries produces hits k').length ≠ 0 := by
      intro k' hk'
      rw [← hcase] at hk'
      exact (mem_awaited.mp hk').2.1
    have hnot : k ∉ later := by
      have := nodup_awaited entries produces hits (j + 1) j (hits j).pa
      rw [hcase] at this
      exact (List.nodup_cons.mp this).1
    have hlater := length_awaitedSlips_eq_zero fun k' hk' => hmem k' (List.mem_cons_of_mem k hk')
    -- what goes off at hit `j` is from the call that it returns from
    have hown : ∀ x ∈ (awaitedSlips entries produces hits (j + 1) j (hits j).pa).take g,
        ∀ k', x ∈ filedAt entries produces hits k' → (hits j).returns = some k' := by
      intro x hx k' hk'
      have hreturns := hattr.only _ ((hreports x).mpr hx)
      rw [hreturns]
      exact congrArg some (hit_of_mem_filedAt hentries hk')
    rw [awaitedSlips, hcase, List.flatMap_cons] at hgo hreports hown
    obtain ⟨c, hc⟩ : ∃ c, (filedAt entries produces hits k).length = c + 1 :=
      Nat.exists_eq_succ_of_ne_zero (hmem k List.mem_cons_self)
    -- the first trap goes off in any case
    obtain ⟨x, xs, hxs⟩ : ∃ x xs, filedAt entries produces hits k = x :: xs :=
      List.exists_cons_of_length_eq_add_one hc
    obtain ⟨g, rfl⟩ : ∃ g', g = g' + 1 := by
      rw [hxs, List.cons_append, List.length_cons] at hgo
      exact Nat.exists_eq_succ_of_ne_zero (Nat.ne_of_gt (goOff_pos hgo))
    have hreturns : (hits j).returns = some k := by
      refine hown x ?_ k (hxs ▸ List.mem_cons_self)
      rw [hxs, List.cons_append, List.take_succ_cons]
      exact List.mem_cons_self
    -- and so do the others of its call
    have hall : filedAt entries produces hits k ⊆ (filedAt entries produces hits k ++
        later.flatMap (filedAt entries produces hits)).take (g + 1) :=
      fun y hy => (hreports y).mp (hattr.own_mem hentries hcalls hj hreturns hy)
    have hle := ((nodup_filedAt produces hits hentries k).subperm hall).length_le
    rw [List.length_take, hc] at hle
    have hgc : g = c := by
      by_contra hne
      have hmore := goOff_le hgo
      rw [List.length_append, hc] at hmore
      -- otherwise a record of a later call goes out as well
      obtain ⟨z, zs, hzs⟩ : ∃ z zs, later.flatMap (filedAt entries produces hits) = z :: zs := by
        apply List.exists_cons_of_ne_nil
        intro hnil
        rw [hnil, List.length_nil] at hmore
        omega
      obtain ⟨k', hk', hz⟩ : ∃ k' ∈ later, z ∈ filedAt entries produces hits k' :=
        List.mem_flatMap.mp (hzs ▸ List.mem_cons_self)
      have htaken : z ∈ (filedAt entries produces hits k ++
          later.flatMap (filedAt entries produces hits)).take (g + 1) := by
        obtain ⟨d, hd⟩ : ∃ d, g + 1 - (c + 1) = d + 1 := ⟨g - c - 1, by omega⟩
        rw [List.take_append, hzs, hc, hd, List.take_succ_cons]
        exact List.mem_append_right _ List.mem_cons_self
      have hother := hown z htaken k' hz
      rw [hreturns, Option.some.injEq] at hother
      exact hnot (hother ▸ hk')
    refine ⟨hreturns, ?_⟩
    rw [hc, ← stopsAfter_congr hlater, ← goOff_eq_iff, ← hc, ← List.length_append, hgo, hgc, hc]

/-- The reports of hits in turn. -/
lemma mem_reports (hentries : Entries vm₀ entries) {e : Report γ} :
    e ∈ (List.range n).flatMap (reportsAt entries produces hits) ↔ e.hit < n ∧
      (hits e.hit).returns = some e.record.hit ∧
      ⟨e.ret, e.record⟩ ∈ filedAt entries produces hits e.record.hit := by
  simp only [List.mem_flatMap, List.mem_range, reportsAt, List.mem_map]
  constructor
  · rintro ⟨i, hi, x, hx, rfl⟩
    cases hreturns : (hits i).returns with
    | none =>
      rw [hreturns] at hx
      cases hx
    | some k =>
      rw [hreturns] at hx
      have hk := hit_of_mem_filedAt hentries hx
      refine ⟨hi, congrArg some hk.symm, ?_⟩
      rw [hk]
      exact hx
  · rintro ⟨hi, hreturns, hx⟩
    exact ⟨e.hit, hi, ⟨e.ret, e.record⟩, by rwa [hreturns], rfl⟩

lemma nodup_reports (hentries : Entries vm₀ entries) (n : Nat) :
    ((List.range n).flatMap (reportsAt entries produces hits)).Nodup := by
  rw [List.nodup_flatMap]
  constructor
  · intro i _
    refine List.Nodup.map (fun x y heq => ?_) ?_
    · rw [Report.mk.injEq] at heq
      cases x
      cases y
      exact congrArg₂ Slip.mk heq.2.1 heq.2.2
    · cases (hits i).returns with
      | none => exact List.nodup_nil
      | some k => exact nodup_filedAt produces hits hentries k
  · refine List.nodup_range.imp fun {a b} hab e ha hb => hab ?_
    obtain ⟨x, -, rfl⟩ := List.mem_map.mp ha
    obtain ⟨y, -, heq⟩ := List.mem_map.mp hb
    exact (congrArg Report.hit heq).symm

/-- Where every hit is in turn, each record goes out at the return of its own call. -/
lemma attributed_reports (hentries : Entries vm₀ entries) (hcalls : Calls entries produces hits N) :
    Attributed entries produces hits N
      ((List.range N).flatMap (reportsAt entries produces hits)) := by
  refine ⟨fun k hk t f ht hret => ?_, fun e he => ((mem_reports hentries).mp he).2.1⟩
  obtain ⟨i, hi, hreturns⟩ := hcalls.returned k hk t ht
  refine ⟨i, hi, hreturns, ?_⟩
  rw [← List.perm_singleton, List.perm_ext_iff_of_nodup ((nodup_reports hentries N).filter _)
    (List.nodup_singleton _)]
  rintro ⟨j, f', r⟩
  rw [List.mem_filter, mem_reports hentries, List.mem_singleton, decide_eq_true_eq]
  constructor
  · rintro ⟨⟨hj, hj', hx⟩, rfl⟩
    obtain rfl := hcalls.once j hj i hi k hj' hreturns
    obtain ⟨t', ht', hret', hrecord⟩ := (mem_filedAt hentries).mp hx
    rw [Record.mk.injEq] at hrecord
    obtain rfl := hentries.addr_inj ht.mem ht'.mem hrecord.2
    rw [hret, Option.some.injEq, Hook.ret.injEq] at hret'
    rw [hret']
  · intro heq
    cases heq
    exact ⟨⟨hi, hreturns, (mem_filedAt hentries).mpr ⟨t, ht, hret, rfl⟩⟩, rfl⟩

/-- Over any calls and returns of any threads, and whatever the links of released nodes read
as: every record is reported once, at the return of its own call, exactly if every hit comes in
its turn. -/
theorem attributed_iff_inTurn [DecidableEq γ] (hentries : Entries vm₀ entries)
    (hcalls : Calls entries produces hits N) :
    (∃ vm log, runHits produces hits vm₀ N = .ok (vm, log) ∧
      Attributed entries produces hits N log) ↔ ∀ j < N, InTurn entries produces hits j := by
  have hrun := runHits_ledger produces hentries N hcalls.answered
  constructor
  · rintro ⟨vm, log, hok, hattr⟩ j hj
    cases hL : ledger entries produces hits N with
    | error fault =>
      rw [hL, hok] at hrun
      cases hrun
    | ok L =>
      rw [hL] at hrun
      obtain ⟨vm', rest, hok', -⟩ := hrun
      rw [hok] at hok'
      cases hok'
      induction j using Nat.strongRecOn with
      | ind j ih =>
        exact inTurn_of_attributed hentries hL hcalls hattr hj fun i hi => ih i hi (by omega)
  · intro hturn
    obtain ⟨L, hL, -, hlog⟩ := ledger_of_inTurn hcalls N (Nat.le_refl N) hturn
    rw [hL] at hrun
    obtain ⟨vm, rest, hok, -⟩ := hrun
    exact ⟨vm, _, hok, hlog ▸ attributed_reports hentries hcalls⟩

end Turns

/-- The entry of a system call, at physical address 0x1005. -/
def entryTrap : Trap (Hook Unit) Record := ⟨0, [], some (.entry ()), some (.ret ()), 0x1005, false, none⟩

def entryVm : Vm (Hook Unit) Record :=
  match injectTrap { Vm.start (fun _ => 0x90) with brk := 1 } (.succeeding 0x500) entryTrap with
  | .ok (_, vm) => vm
  | .error _ => Vm.start fun _ => 0x90

lemma entryVm_entries : Entries entryVm [entryTrap] := by
  have hstart : Registered (Vm.start (fun _ => 0x90) : Vm (Hook Unit) Record) [] :=
    ⟨indexed_tmInit, List.nodup_nil, by simp⟩
  obtain ⟨status, vm, hok, -, hreg⟩ := hstart.inject (.succeeding 0x500) (rfl : entryTrap.addr = 0)
  have hrun : injectTrap { Vm.start (fun _ => 0x90) with brk := 0 + 1 } (.succeeding 0x500) entryTrap =
      .ok (.success, entryVm) := rfl
  have hvm := hok.symm.trans hrun
  rw [Except.ok.injEq, Prod.mk.injEq] at hvm
  obtain ⟨rfl, rfl⟩ := hvm
  refine ⟨hreg, ?_, ?_, ?_, ?_, List.nodup_singleton _⟩
  all_goals
    intro t ht
    rw [List.mem_singleton.mp ht]
  · rfl
  · rfl
  · exact ⟨(), rfl⟩
  · rintro c ⟨⟩
    exact ⟨(), rfl⟩

/-- A call that is to return to 0x2007. -/
def enters : Hit :=
  ⟨⟨vcpu0, 1, 5, 1, ⟨0, 0, 0, 0, 0, 0, 0, 0, 0⟩⟩, 0x2007, none,
    ⟨true, fun _ => ⟨none, 0, fun _ => 0x2007, .succeeding 0x501, .succeeding, .cleared⟩⟩⟩

/-- The return of the call at hit `k`. -/
def leaves (k : Nat) : Hit :=
  { enters with event := ⟨vcpu0, 2, 7, 1, ⟨0, 0, 0, 0, 0, 0, 0, 0, 0⟩⟩, returns := some k }

lemma enters_answered : enters.Answered :=
  ⟨fun _ => rfl, fun _ => ⟨0x501, InjectCalls.succeeding_succeed (by decide)⟩⟩

lemma leaves_answered (k : Nat) : (leaves k).Answered :=
  ⟨fun _ => rfl, fun _ => ⟨0x501, InjectCalls.succeeding_succeed (by decide)⟩⟩

/-- Two calls that overlap, at hits 0 and 1; call `a` returns before call `b`. -/
def overlap (a b j : Nat) : Hit := [enters, enters, leaves a].getD j (leaves b)

lemma overlap_answered (a b j : Nat) : (overlap a b j).Answered := by
  match j with
  | 0 => exact enters_answered
  | 1 => exact enters_answered
  | 2 => exact leaves_answered a
  | j + 3 => exact leaves_answered b

lemma overlap_calls {a b : Nat} (h : (a = 0 ∧ b = 1) ∨ (a = 1 ∧ b = 0)) :
    Calls [entryTrap] (fun _ _ => true) (overlap a b) 4 := by
  have hreturns : ∀ i < 4, ∀ k, (overlap a b i).returns = some k →
      (i = 2 ∧ k = a) ∨ (i = 3 ∧ k = b) := by
    intro i hi k hk
    obtain rfl | rfl | rfl | rfl : i = 0 ∨ i = 1 ∨ i = 2 ∨ i = 3 := by omega
    · cases hk
    · cases hk
    · cases hk
      exact .inl ⟨rfl, rfl⟩
    · cases hk
      exact .inr ⟨rfl, rfl⟩
  have hret : ∀ k, (overlap a b k).ret = 0x2007 := by
    intro k
    match k with
    | 0 | 1 | 2 | k + 3 => rfl
  refine ⟨fun k _ => overlap_answered a b k, fun i hi k hk => ?_, fun i hi j hj k hk hk' => ?_,
    fun k hk t ht => ?_⟩
  · rw [hret]
    rcases hreturns i hi k hk with ⟨rfl, rfl⟩ | ⟨rfl, rfl⟩
    · exact ⟨by omega, rfl⟩
    · exact ⟨by omega, rfl⟩
  · have := hreturns i hi k hk
    have := hreturns j hj k hk'
    omega
  · obtain ⟨hmem, hpa, -, -⟩ := ht
    rw [List.mem_singleton.mp hmem] at hpa
    obtain rfl | rfl | rfl | rfl : k = 0 ∨ k = 1 ∨ k = 2 ∨ k = 3 := by omega
    · rcases h with ⟨rfl, rfl⟩ | ⟨rfl, rfl⟩
      · exact ⟨2, by omega, rfl⟩
      · exact ⟨3, by omega, rfl⟩
    · rcases h with ⟨rfl, rfl⟩ | ⟨rfl, rfl⟩
      · exact ⟨3, by omega, rfl⟩
      · exact ⟨2, by omega, rfl⟩
    · exact absurd hpa (by decide : ¬ 0x1005 = 0x2007)
    · exact absurd hpa (by decide : ¬ 0x1005 = 0x2007)

/-- The calls return in the order in which they were made, and the links read as NULL. -/
theorem attributed_overlap : ∃ vm log,
    runHits (fun _ _ => true) (overlap 0 1) entryVm 4 = .ok (vm, log) ∧
      Attributed [entryTrap] (fun _ _ => true) (overlap 0 1) 4 log := by
  refine (attributed_iff_inTurn entryVm_entries (overlap_calls (.inl ⟨rfl, rfl⟩))).mpr fun j hj => ?_
  obtain rfl | rfl | rfl | rfl : j = 0 ∨ j = 1 ∨ j = 2 ∨ j = 3 := by omega
  · exact trivial
  · exact trivial
  · exact ⟨rfl, by decide⟩
  · exact ⟨rfl, by decide⟩

/-- The call made last returns first, and reports the record of the other. -/
theorem returns_mixed_up : Calls [entryTrap] (fun _ _ => true) (overlap 1 0) 4 ∧ ∃ vm log,
    runHits (fun _ _ => true) (overlap 1 0) entryVm 4 = .ok (vm, log) ∧
      log = [⟨2, (), ⟨0, 0⟩⟩, ⟨3, (), ⟨1, 0⟩⟩] ∧
      ¬ Attributed [entryTrap] (fun _ _ => true) (overlap 1 0) 4 log := by
  refine ⟨overlap_calls (.inr ⟨rfl, rfl⟩), _, _, rfl, rfl, fun h => ?_⟩
  have hfirst := h.only ⟨2, (), ⟨0, 0⟩⟩ (by decide)
  cases hfirst

end Hfm

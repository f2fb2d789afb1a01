import Mathlib.Data.List.Count
import Mathlib.Logic.Function.Basic

/-!
# Handles that are created, used and released

A holder has one pointer of each kind, and a history of the calls on the handles behind them.
Handles are numbered in the order of their creation; the null pointer is 0.
-/

namespace Hfm.Support

variable {κ : Type*}

inductive HandleCall (κ : Type*) where
  | create (k : κ) (n : Nat)
  | use (k : κ) (n : Nat)
  | release (k : κ) (n : Nat)
  deriving DecidableEq

/-- The handle was created and has not been released. -/
def HandleAlive (log : List (HandleCall κ)) (k : κ) (n : Nat) : Prop :=
  .create k n ∈ log ∧ .release k n ∉ log

/-- Each use and each release found its handle alive; the last call comes first. -/
def ProperUse : List (HandleCall κ) → Prop
  | [] => True
  | .create _ _ :: log => ProperUse log
  | .use k n :: log => HandleAlive log k n ∧ ProperUse log
  | .release k n :: log => HandleAlive log k n ∧ ProperUse log

lemma ProperUse.created {log : List (HandleCall κ)} (h : ProperUse log) {k : κ} {n : Nat}
    (hmem : .release k n ∈ log) : .create k n ∈ log := by
  induction log with
  | nil => cases hmem
  | cons c log ih =>
    apply List.mem_cons_of_mem
    cases c with
    | create j m =>
      rcases List.mem_cons.mp hmem with heq | hmem
      · cases heq
      · exact ih h hmem
    | use j m =>
      rcases List.mem_cons.mp hmem with heq | hmem
      · cases heq
      · exact ih h.2 hmem
    | release j m =>
      rcases List.mem_cons.mp hmem with heq | hmem
      · cases heq
        exact h.1.1
      · exact ih h.2 hmem

lemma ProperUse.count_le_one [DecidableEq κ] {log : List (HandleCall κ)} (h : ProperUse log) (k : κ) (n : Nat) :
    log.count (.release k n) ≤ 1 := by
  induction log with
  | nil => exact Nat.zero_le _
  | cons c log ih =>
    cases c with
    | create j m =>
      rw [List.count_cons_of_ne (by simp)]
      exact ih h
    | use j m =>
      rw [List.count_cons_of_ne (by simp)]
      exact ih h.2
    | release j m =>
      by_cases heq : HandleCall.release j m = .release k n
      · rw [heq, List.count_cons_self]
        cases heq
        have hnone : log.count (HandleCall.release k n) = 0 := List.count_eq_zero.mpr h.1.2
        omega
      · rw [List.count_cons_of_ne heq]
        exact ih h.2

/-- The pointers of a holder, the number of handles created so far, and the history. -/
structure Handles (κ : Type*) where
  ptr : κ → Nat
  made : Nat
  log : List (HandleCall κ)

namespace Handles

def empty : Handles κ := ⟨fun _ => 0, 0, []⟩

def create [DecidableEq κ] (h : Handles κ) (k : κ) : Handles κ :=
  ⟨Function.update h.ptr k (h.made + 1), h.made + 1, .create k (h.made + 1) :: h.log⟩

def use (h : Handles κ) (k : κ) : Handles κ := { h with log := .use k (h.ptr k) :: h.log }

/-- The pointer is left as it is. -/
def release (h : Handles κ) (k : κ) : Handles κ := { h with log := .release k (h.ptr k) :: h.log }

def null [DecidableEq κ] (h : Handles κ) (k : κ) : Handles κ := { h with ptr := Function.update h.ptr k 0 }

def uses (h : Handles κ) (ks : List κ) : Handles κ := ks.foldl use h

def creates [DecidableEq κ] (h : Handles κ) (ks : List κ) : Handles κ := ks.foldl create h

lemma create_ptr_of_ne [DecidableEq κ] (h : Handles κ) {j k : κ} (hne : j ≠ k) :
    (h.create k).ptr j = h.ptr j := Function.update_of_ne hne _ _

lemma null_ptr_of_ne [DecidableEq κ] (h : Handles κ) {j k : κ} (hne : j ≠ k) :
    (h.null k).ptr j = h.ptr j := Function.update_of_ne hne _ _

lemma proper_of_uses {h : Handles κ} {ks : List κ} (hproper : ProperUse (h.uses ks).log) :
    ProperUse h.log := by
  induction ks generalizing h with
  | nil => exact hproper
  | cons k ks ih => exact (ih (h := h.use k) hproper).2

/-- The calls were proper, and of the handles that were created exactly those behind the
pointers of the kinds `up` are alive. -/
structure Tracks (h : Handles κ) (up : κ → Prop) : Prop where
  proper : ProperUse h.log
  alive : ∀ k n, HandleAlive h.log k n ↔ up k ∧ n = h.ptr k
  made : ∀ k n, .create k n ∈ h.log → 0 < n ∧ n ≤ h.made

variable {h : Handles κ} {up : κ → Prop}

lemma tracks_empty : (empty : Handles κ).Tracks fun _ => False where
  proper := trivial
  alive := fun k n => by simp [HandleAlive, empty]
  made := fun k n hmem => by cases hmem

namespace Tracks

lemma congr {up' : κ → Prop} (ht : h.Tracks up) (hiff : ∀ k, up' k ↔ up k) : h.Tracks up' :=
  ⟨ht.proper, fun k n => by rw [ht.alive, hiff], ht.made⟩

lemma alive_ptr (ht : h.Tracks up) (k : κ) : HandleAlive h.log k (h.ptr k) ↔ up k := by
  rw [ht.alive]
  simp

lemma ptr_pos (ht : h.Tracks up) {k : κ} (hk : up k) : 0 < h.ptr k :=
  (ht.made k _ ((ht.alive_ptr k).mpr hk).1).1

lemma use (ht : h.Tracks up) {k : κ} (hk : up k) : (h.use k).Tracks up where
  proper := ⟨(ht.alive_ptr k).mpr hk, ht.proper⟩
  alive := fun j n => by
    rw [show (h.use k).ptr = h.ptr from rfl, ← ht.alive]
    simp [HandleAlive, Handles.use]
  made := fun j n hmem => ht.made j n (by simpa [Handles.use] using hmem)

lemma uses (ht : h.Tracks up) {ks : List κ} (hks : ∀ k ∈ ks, up k) : (h.uses ks).Tracks up := by
  induction ks generalizing h with
  | nil => exact ht
  | cons k ks ih =>
    exact ih (ht.use (hks k List.mem_cons_self)) fun j hj => hks j (List.mem_cons_of_mem _ hj)

lemma proper_uses_iff (ht : h.Tracks up) {ks : List κ} :
    ProperUse (h.uses ks).log ↔ ∀ k ∈ ks, up k := by
  refine ⟨fun hproper => ?_, fun hks => (ht.uses hks).proper⟩
  induction ks generalizing h with
  | nil => exact fun k hk => absurd hk List.not_mem_nil
  | cons k ks ih =>
    have hk : up k := (ht.alive_ptr k).mp (Handles.proper_of_uses (h := h.use k) hproper).1
    exact List.forall_mem_cons.mpr ⟨hk, ih (ht.use hk) hproper⟩

lemma release (ht : h.Tracks up) {k : κ} (hk : up k) :
    (h.release k).Tracks fun j => up j ∧ j ≠ k where
  proper := ⟨(ht.alive_ptr k).mpr hk, ht.proper⟩
  alive := fun j n => by
    have halive := ht.alive j n
    unfold HandleAlive at halive ⊢
    simp only [Handles.release, List.mem_cons, HandleCall.release.injEq, reduceCtorEq, false_or,
      not_or]
    by_cases hj : j = k
    · subst hj
      simp only [true_and, ne_eq, not_true_eq_false, and_false, false_and, iff_false, not_and]
      intro hcreate hn hrelease
      exact hn (halive.mp ⟨hcreate, hrelease⟩).2
    · simp only [hj, false_and, not_false_eq_true, true_and, ne_eq, and_true]
      exact halive
  made := fun j n hmem => ht.made j n (by simpa [Handles.release] using hmem)

variable [DecidableEq κ]

lemma create (ht : h.Tracks up) {k : κ} (hk : ¬up k) :
    (h.create k).Tracks fun j => up j ∨ j = k where
  proper := ht.proper
  alive := fun j n => by
    have halive := ht.alive j n
    have hfresh : HandleCall.release k (h.made + 1) ∉ h.log := fun hmem =>
      absurd (ht.made k _ (ht.proper.created hmem)).2 (by omega)
    unfold HandleAlive at halive ⊢
    simp only [Handles.create, List.mem_cons, HandleCall.create.injEq, reduceCtorEq, false_or]
    by_cases hj : j = k
    · subst hj
      rw [Function.update_self]
      simp only [true_and, or_true]
      constructor
      · rintro ⟨rfl | hcreate, hrelease⟩
        · rfl
        · exact absurd (halive.mp ⟨hcreate, hrelease⟩).1 hk
      · rintro rfl
        exact ⟨.inl rfl, hfresh⟩
    · rw [Function.update_of_ne hj]
      simp only [hj, false_and, false_or, or_false]
      exact halive
  made := fun j n hmem => by
    rcases List.mem_cons.mp hmem with heq | hmem
    · cases heq
      exact ⟨Nat.succ_pos _, Nat.le_refl _⟩
    · exact ⟨(ht.made j n hmem).1, Nat.le_succ_of_le (ht.made j n hmem).2⟩

lemma null (ht : h.Tracks up) {k : κ} (hk : ¬up k) : (h.null k).Tracks up where
  proper := ht.proper
  alive := fun j n => by
    rw [show (h.null k).log = h.log from rfl, ht.alive]
    by_cases hj : j = k
    · subst hj
      simp [hk]
    · rw [null_ptr_of_ne h hj]
  made := ht.made

lemma creates (ht : h.Tracks up) {ks : List κ} (hnodup : ks.Nodup) (hks : ∀ k ∈ ks, ¬up k) :
    (h.creates ks).Tracks fun k => up k ∨ k ∈ ks := by
  induction ks generalizing h up with
  | nil => exact ht.congr fun k => by simp
  | cons k ks ih =>
    obtain ⟨hnot, hnodup⟩ := List.nodup_cons.mp hnodup
    have hnext : ∀ j ∈ ks, ¬(up j ∨ j = k) := by
      rintro j hj (h | rfl)
      · exact hks j (List.mem_cons_of_mem _ hj) h
      · exact hnot hj
    apply (ih (ht.create (hks k List.mem_cons_self)) hnodup hnext).congr
    intro j
    rw [List.mem_cons, or_assoc]

/-- With no kind up, each handle that was created was released once. -/
lemma released_once (ht : h.Tracks up) (hup : ∀ k, ¬up k) {k : κ} {n : Nat}
    (hcreate : .create k n ∈ h.log) : h.log.count (.release k n) = 1 := by
  have hle := ht.proper.count_le_one k n
  have hmem : .release k n ∈ h.log := by
    by_contra hnot
    exact hup k ((ht.alive k n).mp ⟨hcreate, hnot⟩).1
  have hpos := List.count_pos_iff.mpr hmem
  omega

end Tracks

end Handles

end Hfm.Support

import Mathlib.Data.List.Basic

/-!
# Runs of a labelled transition system

A run from a state is the list of its actions, each with the state it leads to.
-/

namespace Hfm.Support

variable {σ α : Type*}

/-- Each action of the trace is a step from the state in front of it. -/
def IsRun (R : σ → α → σ → Prop) : σ → List (α × σ) → Prop
  | _, [] => True
  | s, (a, s') :: tr => R s a s' ∧ IsRun R s' tr

/-- Each action of the trace meets `C` in the state in front of it. -/
def Meets (C : σ → α → Prop) : σ → List (α × σ) → Prop
  | _, [] => True
  | s, (a, s') :: tr => C s a ∧ Meets C s' tr

/-- `P` holds in the state the run starts from and in each state it reaches. -/
def Always (P : σ → Prop) : σ → List (α × σ) → Prop
  | s, [] => P s
  | s, (_, s') :: tr => P s ∧ Always P s' tr

lemma Always.head {P : σ → Prop} {s : σ} {tr : List (α × σ)} (h : Always P s tr) : P s := by
  cases tr with
  | nil => exact h
  | cons x tr => exact h.1

lemma Always.mono {P Q : σ → Prop} (h : ∀ s, P s → Q s) {s : σ} {tr : List (α × σ)}
    (hP : Always P s tr) : Always Q s tr := by
  induction tr generalizing s with
  | nil => exact h s hP
  | cons x tr ih => exact ⟨h s hP.1, ih hP.2⟩

variable {R : σ → α → σ → Prop}

/-- What every step keeps holds along every run. -/
lemma IsRun.always {P : σ → Prop} (hstep : ∀ s a s', P s → R s a s' → P s') {s : σ}
    {tr : List (α × σ)} (hrun : IsRun R s tr) (hP : P s) : Always P s tr := by
  induction tr generalizing s with
  | nil => exact hP
  | cons x tr ih =>
    have hnext : P x.2 := hstep s x.1 x.2 hP hrun.1
    exact ⟨hP, ih hrun.2 hnext⟩

/-- What the steps under `C` keep holds along a run whose steps all meet it. -/
theorem IsRun.always_of_meets {P : σ → Prop} {C : σ → α → Prop}
    (hstep : ∀ s a s', P s → C s a → R s a s' → P s') {s : σ} {tr : List (α × σ)}
    (hrun : IsRun R s tr) (hmeets : Meets C s tr) (hP : P s) : Always P s tr := by
  induction tr generalizing s with
  | nil => exact hP
  | cons x tr ih => exact ⟨hP, ih hrun.2 hmeets.2 (hstep s x.1 x.2 hP hmeets.1 hrun.1)⟩

/-- Where the steps under `C` keep an invariant that implies `P`, and the others end outside of
`P`, a run stays in `P` exactly if each of its steps meets `C`. -/
theorem IsRun.always_iff_meets_of {J P : σ → Prop} {C : σ → α → Prop} (hJP : ∀ s, J s → P s)
    (hgood : ∀ s a s', J s → C s a → R s a s' → J s')
    (hbad : ∀ s a s', J s → ¬C s a → R s a s' → ¬P s') {s : σ} {tr : List (α × σ)}
    (hrun : IsRun R s tr) (hJ : J s) : Always P s tr ↔ Meets C s tr := by
  induction tr generalizing s with
  | nil => exact ⟨fun _ => trivial, fun _ => hJP s hJ⟩
  | cons x tr ih =>
    constructor
    · rintro ⟨-, hrest⟩
      have hC : C s x.1 := by
        by_contra hnot
        exact hbad s x.1 x.2 hJ hnot hrun.1 hrest.head
      exact ⟨hC, (ih hrun.2 (hgood s x.1 x.2 hJ hC hrun.1)).mp hrest⟩
    · rintro ⟨hC, hrest⟩
      exact ⟨hJP s hJ, (ih hrun.2 (hgood s x.1 x.2 hJ hC hrun.1)).mpr hrest⟩

/-- Where a step from a good state leads to a good state exactly under `C`, a run stays
good exactly if each of its steps meets `C`. The invariant `J` needs no condition. -/
theorem IsRun.always_iff_meets {J P : σ → Prop} {C : σ → α → Prop}
    (hkeep : ∀ s a s', J s → P s → R s a s' → J s')
    (hstep : ∀ s a s', J s → P s → R s a s' → (P s' ↔ C s a)) {s : σ} {tr : List (α × σ)}
    (hrun : IsRun R s tr) (hJ : J s) (hP : P s) : Always P s tr ↔ Meets C s tr := by
  have hgood : ∀ s a s', J s ∧ P s → C s a → R s a s' → J s' ∧ P s' := fun s a s' h hC hR =>
    ⟨hkeep s a s' h.1 h.2 hR, (hstep s a s' h.1 h.2 hR).mpr hC⟩
  have hbad : ∀ s a s', J s ∧ P s → ¬C s a → R s a s' → ¬P s' := fun s a s' h hC hR hP' =>
    hC ((hstep s a s' h.1 h.2 hR).mp hP')
  exact hrun.always_iff_meets_of (fun _ h => h.2) hgood hbad ⟨hJ, hP⟩

end Hfm.Support

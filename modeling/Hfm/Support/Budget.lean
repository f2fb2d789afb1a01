import Hfm.Support.Run

/-!
# What the steps of a run cost

Each step of a run has a cost, and a measure of the states pays for it. Where the measure falls by
the cost, up to what a step brings in, the whole run costs no more than the measure had at its
start and what came in.
-/

namespace Hfm.Support

variable {σ α : Type*}

/-- What the steps of a run cost together. -/
def total (cost : σ → α → Nat) : σ → List (α × σ) → Nat
  | _, [] => 0
  | s, (a, s') :: tr => cost s a + total cost s' tr

lemma total_mul (n : Nat) (cost : σ → α → Nat) (s : σ) (tr : List (α × σ)) :
    total (fun s a => n * cost s a) s tr = n * total cost s tr := by
  induction tr generalizing s with
  | nil => rfl
  | cons x tr ih => rw [total, total, ih, Nat.mul_add]

lemma total_zero (s : σ) (tr : List (α × σ)) : total (fun _ _ => 0) s tr = 0 := by
  induction tr generalizing s with
  | nil => rfl
  | cons x tr ih => rw [total, ih]

lemma Always.and {P Q : σ → Prop} {s : σ} {tr : List (α × σ)} (hP : Always P s tr)
    (hQ : Always Q s tr) : Always (fun s => P s ∧ Q s) s tr := by
  induction tr generalizing s with
  | nil => exact ⟨hP, hQ⟩
  | cons x tr ih => exact ⟨⟨hP.1, hQ.1⟩, ih hP.2 hQ.2⟩

/-- What is left of the measure at the end is at least `least`. -/
lemma IsRun.total_le {R : σ → α → σ → Prop} {J : σ → Prop} {cost income : σ → α → Nat}
    {measure : σ → Nat} {least : Nat} (hleast : ∀ s, J s → least ≤ measure s)
    (hstep : ∀ s a s', J s → J s' → R s a s' → cost s a + measure s' ≤ measure s + income s a)
    {s : σ} {tr : List (α × σ)} (hrun : IsRun R s tr) (hJ : Always J s tr) :
    total cost s tr + least ≤ measure s + total income s tr := by
  induction tr generalizing s with
  | nil =>
    have := hleast s hJ
    simpa [total] using this
  | cons x tr ih =>
    have hpaid := hstep s x.1 x.2 hJ.1 hJ.2.head hrun.1
    have hrest := ih hrun.2 hJ.2
    rw [total, total]
    omega

end Hfm.Support

import Hfm.Support.Run

/-!
# Simulations

A system simulates another one if it follows each step that shows something, and stands still at
the others. It then has a run that shows what the run of the other one does.
-/

namespace Hfm.Support

variable {σ τ α β : Type*}

/-- Where a run ends. -/
def final : σ → List (α × σ) → σ
  | s, [] => s
  | _, (_, s') :: tr => final s' tr

/-- What the actions of a run show. -/
def shown (obs : α → Option β) (tr : List (α × σ)) : List β := (tr.map Prod.fst).filterMap obs

/-- Steps of `R` between states that are related are followed by steps of `S`. -/
def Simulates (R : σ → α → σ → Prop) (S : τ → β → τ → Prop) (obs : α → Option β)
    (rel : σ → τ → Prop) : Prop :=
  ∀ s a s' t, rel s t → R s a s' →
    match obs a with
    | none => rel s' t
    | some b => ∃ t', S t b t' ∧ rel s' t'

variable {R : σ → α → σ → Prop} {S : τ → β → τ → Prop} {obs : α → Option β} {rel : σ → τ → Prop}

/-- Every run is followed by one that takes just the actions that it shows. -/
theorem Simulates.run (h : Simulates R S obs rel) {s : σ} {tr : List (α × σ)} {t : τ}
    (hrun : IsRun R s tr) (hrel : rel s t) :
    ∃ tr', IsRun S t tr' ∧ tr'.map Prod.fst = shown obs tr ∧ rel (final s tr) (final t tr') := by
  induction tr generalizing s t with
  | nil => exact ⟨[], trivial, rfl, hrel⟩
  | cons x tr ih =>
    obtain ⟨a, s'⟩ := x
    have hstep := h s a s' t hrel hrun.1
    cases hobs : obs a with
    | none =>
      rw [hobs] at hstep
      obtain ⟨tr', hrun', hshown, hfinal⟩ := ih hrun.2 hstep
      refine ⟨tr', hrun', ?_, hfinal⟩
      exact hshown.trans (List.filterMap_cons_none hobs).symm
    | some b =>
      rw [hobs] at hstep
      obtain ⟨t', hS, hrel'⟩ := hstep
      obtain ⟨tr', hrun', hshown, hfinal⟩ := ih hrun.2 hrel'
      refine ⟨(b, t') :: tr', ⟨hS, hrun'⟩, ?_, hfinal⟩
      rw [List.map_cons, hshown]
      exact (List.filterMap_cons_some hobs).symm

lemma Always.final {P : σ → Prop} {s : σ} {tr : List (α × σ)} (h : Always P s tr) :
    P (final s tr) := by
  induction tr generalizing s with
  | nil => exact h
  | cons x tr ih => exact ih h.2

/-! ### Steps with what is known of them -/

lemma IsRun.meets {C : σ → α → Prop} {s : σ} {tr : List (α × σ)} (hrun : IsRun R s tr)
    (hC : Meets C s tr) : IsRun (fun s a s' => C s a ∧ R s a s') s tr := by
  induction tr generalizing s with
  | nil => trivial
  | cons x tr ih => exact ⟨⟨hC.1, hrun.1⟩, ih hrun.2 hC.2⟩

lemma IsRun.leads {P : σ → Prop} {s : σ} {tr : List (α × σ)} (hrun : IsRun R s tr)
    (hP : Always P s tr) : IsRun (fun s a s' => P s' ∧ R s a s') s tr := by
  induction tr generalizing s with
  | nil => trivial
  | cons x tr ih => exact ⟨⟨hP.2.head, hrun.1⟩, ih hrun.2 hP.2⟩

end Hfm.Support

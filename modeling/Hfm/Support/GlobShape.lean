import Hfm.Support.Glob

/-!
# Patterns that a search without retries decides

The shape of a pattern alone can make the first fits right on every path. Two globs that agree on
related components have the same cuts.
-/

namespace Hfm.Support.Glob

variable {α β γ δ : Type}

/-! ### Shapes -/

section Shape

variable (g : Glob α β)

/-- Behind a recursive component: no two other components stand side by side, and the last
component is recursive again. -/
def Spaced : List α → Prop
  | [] => True
  | [p] => g.star p = true
  | p :: q :: ps => if g.star p then Spaced (q :: ps) else g.star q = true ∧ Spaced ps

/-- Up to the first recursive component everything is free. -/
def Steady : List α → Prop
  | [] => True
  | p :: ps => if g.star p then g.Spaced ps else Steady ps

instance decidableSpaced : (ps : List α) → Decidable (g.Spaced ps)
  | [] => isTrue trivial
  | [p] => inferInstanceAs (Decidable (g.star p = true))
  | p :: q :: ps =>
    have := decidableSpaced (q :: ps)
    have := decidableSpaced ps
    inferInstanceAs (Decidable (if g.star p then g.Spaced (q :: ps) else _ ∧ _))

instance decidableSteady : (ps : List α) → Decidable (g.Steady ps)
  | [] => isTrue trivial
  | p :: ps =>
    have := decidableSteady ps
    inferInstanceAs (Decidable (if g.star p then g.Spaced ps else g.Steady ps))

variable {g}

/-- A first fit of a component between two recursive ones can stay. -/
lemma Spaced.fitsAfter {ps : List α} (h : g.Spaced ps) (es : List β) :
    g.fitsAfter false ps es = true := by
  match ps, es with
  | [], _ => simp [Glob.fitsAfter]
  | _ :: _, [] => rfl
  | [p], e :: es =>
    rw [Glob.fitsAfter, if_pos (show g.star p = true from h), Glob.fitsAfter]
    rfl
  | p :: q :: ps, e :: es =>
    rw [Spaced] at h
    rw [Glob.fitsAfter]
    cases hp : g.star p with
    | true =>
      rw [if_pos hp] at h
      rw [if_pos rfl]
      exact Spaced.fitsAfter h es
    | false =>
      rw [if_neg (by simp [hp])] at h
      rw [if_neg (by simp)]
      cases ha : g.accepts p e with
      | true =>
        rw [if_pos rfl]
        cases es with
        | nil => rfl
        | cons e' es =>
          rw [Glob.fitsAfter, if_pos h.1]
          exact Spaced.fitsAfter h.2 es
      | false =>
        rw [if_neg (by simp)]
        refine Spaced.fitsAfter ?_ es
        rw [Spaced, if_neg (by simp [hp])]
        exact h
termination_by ps.length + es.length

lemma Steady.firstFit {ps : List α} (h : g.Steady ps) (es : List β) : g.firstFit ps es = true := by
  induction ps generalizing es with
  | nil => rfl
  | cons p ps ih =>
    cases es with
    | nil => rfl
    | cons e es =>
      rw [Steady] at h
      rw [Glob.firstFit]
      cases hp : g.star p with
      | true =>
        rw [if_pos hp] at h
        exact h.fitsAfter es
      | false =>
        rw [if_neg (by simp [hp])] at h
        rw [if_neg (by simp), ih h, Bool.or_true]

end Shape

/-! ### Related patterns and paths -/

section Related

variable {g : Glob α β} {h : Glob γ δ} {P : α → γ → Prop} {E : β → δ → Prop}

lemma spaced_congr (hstar : ∀ p q, P p q → g.star p = h.star q) {ps : List α} {qs : List γ}
    (hps : List.Forall₂ P ps qs) : g.Spaced ps ↔ h.Spaced qs := by
  match hps with
  | .nil => exact Iff.rfl
  | .cons hp .nil =>
    rw [Spaced, Spaced, hstar _ _ hp]
  | .cons hp (.cons hp' hps) =>
    rw [Spaced, Spaced, hstar _ _ hp, hstar _ _ hp', spaced_congr hstar (.cons hp' hps),
      spaced_congr hstar hps]
termination_by ps.length

lemma steady_congr (hstar : ∀ p q, P p q → g.star p = h.star q) {ps : List α} {qs : List γ}
    (hps : List.Forall₂ P ps qs) : g.Steady ps ↔ h.Steady qs := by
  induction hps with
  | nil => exact Iff.rfl
  | cons hp hps ih => rw [Steady, Steady, hstar _ _ hp, ih, spaced_congr hstar hps]

/-- Related paths are cut alike along related patterns. -/
lemma cut_congr (hstar : ∀ p q, P p q → g.star p = h.star q)
    (haccepts : ∀ p q e f, P p q → E e f → h.star q = false → g.accepts p e = h.accepts q f)
    {ps : List α} {qs : List γ} (hps : List.Forall₂ P ps qs) {es : List β} {fs : List δ}
    (hes : List.Forall₂ E es fs) : g.Cut ps es ↔ h.Cut qs fs := by
  induction hes generalizing ps qs with
  | nil =>
    cases hps with
    | nil => simp
    | cons hp hps =>
      refine iff_of_false (fun hcut => ?_) fun hcut => ?_
      · exact absurd (g.cut_length hcut) (by simp)
      · exact absurd (h.cut_length hcut) (by simp)
  | cons he hes ih =>
    cases hps with
    | nil => simp
    | @cons p q ps qs hp hps =>
      have hpq := hstar p q hp
      cases hs : h.star q with
      | true =>
        rw [g.cut_star (hpq.trans hs), h.cut_star hs, ih hps, ih (.cons hp hps)]
      | false =>
        rw [g.cut_one (hpq.trans hs), h.cut_one hs, ih hps, haccepts p q _ _ hp he hs]

end Related

end Hfm.Support.Glob

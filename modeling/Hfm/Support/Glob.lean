import Mathlib.Data.List.Forall2

/-!
# Cutting a path along a component pattern

A pattern is a list of components, some of which are *recursive*: they stand for one or
more path components, where every other one stands for exactly one path component that
it accepts. `Cut` is the declarative meaning of such a pattern. `firstFit` describes the
paths on which a search that never retries an earlier position is enough.
-/

namespace Hfm.Support

/-- Which pattern components are recursive, and what the others accept. -/
structure Glob (α β : Type) where
  star : α → Bool
  accepts : α → β → Bool

namespace Glob

variable {α β : Type} (g : Glob α β)

/-- The stretch of the path that one pattern component is aligned with. -/
def Covers (p : α) (es : List β) : Prop :=
  if g.star p then es ≠ [] else ∃ e, es = [e] ∧ g.accepts p e = true

/-- The path can be cut into consecutive stretches, one for each pattern component. -/
def Cut (ps : List α) (es : List β) : Prop :=
  ∃ cuts : List (List β), cuts.flatten = es ∧ List.Forall₂ g.Covers ps cuts

@[simp] lemma cut_nil (es : List β) : g.Cut [] es ↔ es = [] := by
  constructor
  · rintro ⟨cuts, rfl, h⟩
    cases h
    rfl
  · rintro rfl
    exact ⟨[], rfl, .nil⟩

lemma cut_cons (p : α) (ps : List α) (es : List β) :
    g.Cut (p :: ps) es ↔ ∃ xs ys, es = xs ++ ys ∧ g.Covers p xs ∧ g.Cut ps ys := by
  constructor
  · rintro ⟨cuts, rfl, h⟩
    obtain ⟨xs, rest, hp, hrest, rfl⟩ := List.forall₂_cons_left_iff.mp h
    exact ⟨xs, rest.flatten, by simp, hp, rest, rfl, hrest⟩
  · rintro ⟨xs, ys, rfl, hp, cuts, rfl, hcuts⟩
    exact ⟨xs :: cuts, by simp, .cons hp hcuts⟩

lemma cut_one {p : α} (hp : g.star p = false) (ps : List α) (e : β) (es : List β) :
    g.Cut (p :: ps) (e :: es) ↔ g.accepts p e = true ∧ g.Cut ps es := by
  rw [cut_cons]
  simp only [Covers, hp, Bool.false_eq_true, if_false]
  constructor
  · rintro ⟨xs, ys, hes, ⟨f, rfl, hf⟩, hys⟩
    obtain ⟨rfl, rfl⟩ : e = f ∧ es = ys := by simpa using hes
    exact ⟨hf, hys⟩
  · rintro ⟨hacc, hcut⟩
    exact ⟨[e], es, rfl, ⟨e, rfl, hacc⟩, hcut⟩

/-- A recursive component either ends with the current path component or goes on. -/
lemma cut_star {p : α} (hp : g.star p = true) (ps : List α) (e : β) (es : List β) :
    g.Cut (p :: ps) (e :: es) ↔ g.Cut ps es ∨ g.Cut (p :: ps) es := by
  rw [cut_cons, cut_cons]
  simp only [Covers, hp, if_true]
  constructor
  · rintro ⟨xs, ys, hes, hne, hys⟩
    cases xs with
    | nil => exact absurd rfl hne
    | cons x xs =>
      obtain ⟨rfl, rfl⟩ : e = x ∧ es = xs ++ ys := by simpa using hes
      by_cases hxs : xs = []
      · subst hxs
        exact .inl hys
      · exact .inr ⟨xs, ys, rfl, hxs, hys⟩
  · rintro (hcut | ⟨xs, ys, rfl, -, hys⟩)
    · exact ⟨[e], es, rfl, by simp, hcut⟩
    · exact ⟨e :: xs, ys, rfl, by simp, hys⟩

lemma cut_length {ps : List α} {es : List β} (h : g.Cut ps es) : ps.length ≤ es.length := by
  induction ps generalizing es with
  | nil => exact Nat.zero_le _
  | cons p ps ih =>
    obtain ⟨xs, ys, rfl, hp, hys⟩ := (g.cut_cons p ps es).mp h
    have hxs : 1 ≤ xs.length := by
      unfold Covers at hp
      split at hp
      · exact List.length_pos_iff.mpr hp
      · obtain ⟨e, rfl, -⟩ := hp
        exact Nat.le_refl 1
    have := ih hys
    simp only [List.length_cons, List.length_append]
    omega

/-! ### Patterns that fit nowhere any more -/

/-- The pattern fits no later suffix of the path either. -/
def Dead (ps : List α) (es : List β) : Prop :=
  ∀ k, ¬g.Cut ps (es.drop k)

lemma Dead.not_cut {g : Glob α β} {ps : List α} {es : List β} (h : g.Dead ps es) :
    ¬g.Cut ps es := h 0

lemma dead_of_length_lt {ps : List α} {es : List β} (h : es.length < ps.length) :
    g.Dead ps es := by
  intro k hcut
  have := g.cut_length hcut
  simp only [List.length_drop] at this
  omega

lemma dead_one {p : α} (hp : g.star p = false) {ps : List α} {e : β} {es : List β}
    (h : g.Dead ps es) : g.Dead (p :: ps) (e :: es) := by
  intro k hcut
  cases hk : (e :: es).drop k with
  | nil =>
    rw [hk] at hcut
    simpa using g.cut_length hcut
  | cons f fs =>
    rw [hk, g.cut_one hp] at hcut
    have hfs : fs = es.drop k := by
      have := congrArg List.tail hk
      simpa [List.tail_drop] using this.symm
    exact h k (hfs ▸ hcut.2)

lemma dead_star {p : α} (hp : g.star p = true) {ps : List α} {e : β} {es : List β}
    (h : g.Dead ps es) : g.Dead (p :: ps) (e :: es) := by
  intro k hcut
  obtain ⟨xs, ys, hes, hcov, hys⟩ := (g.cut_cons p ps _).mp hcut
  have hne : xs ≠ [] := by simpa [Covers, hp] using hcov
  obtain ⟨x, xs, rfl⟩ := List.exists_cons_of_ne_nil hne
  have hdrop : ys = es.drop (k + xs.length) := by
    have hys : (e :: es).drop (k + xs.length + 1) = ys := by
      have := congrArg (List.drop (xs.length + 1)) hes
      rw [List.drop_drop] at this
      simpa [Nat.add_assoc] using this
    exact hys.symm
  exact h _ (hdrop ▸ hys)

lemma dead_star_of_not_cut {p : α} (hp : g.star p = true) {ps : List α} {e : β} {es : List β}
    (hne : ¬g.Cut ps es) (h : g.Dead (p :: ps) es) : g.Dead (p :: ps) (e :: es) := by
  intro k
  cases k with
  | zero =>
    rw [List.drop_zero, g.cut_star hp]
    exact fun hcut => hcut.elim hne h.not_cut
  | succ k => exact h k

/-! ### First fits -/

/-- The search behind a recursive component. `tight` says that the component following it
has been fitted; from then on every component up to the next recursive one has to fit
where it stands, and a pattern that ends has to end with the path. -/
def fitsAfter (tight : Bool) : List α → List β → Bool
  | [], es => !tight || es.isEmpty
  | _ :: _, [] => true
  | q :: qs, e :: es =>
    if g.star q then fitsAfter false qs es
    else if g.accepts q e then fitsAfter true qs es
    else !tight && fitsAfter false (q :: qs) es

/-- Behind every recursive component that is reached, the first place where the next
component fits is a place where everything up to the next recursive component (or up to
the two ends) fits, unless the path ends before. -/
def firstFit : List α → List β → Bool
  | [], _ => true
  | _ :: _, [] => true
  | p :: ps, e :: es =>
    if g.star p then g.fitsAfter false ps es
    else !g.accepts p e || firstFit ps es

end Glob

end Hfm.Support

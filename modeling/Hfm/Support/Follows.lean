import Hfm.Support.Triple

/-!
# Programs that follow others

Two programs side by side, on states that are related. The one follows the other if it comes to
an end wherever the other one does, with the same value and in a related state.
-/

namespace Hfm.Support

variable {σ τ υ ε α β γ : Type} {R : σ → τ → Prop}

/-- The program `y` comes to an end where `x` does. -/
def Follows (R : σ → τ → Prop) (x : StateT σ (Except ε) α) (y : StateT τ (Except ε) α) : Prop :=
  ∀ s t, R s t → ∀ a s', x s = .ok (a, s') → ∃ t', y t = .ok (a, t') ∧ R s' t'

namespace Follows

lemma pure (a : α) :
    Follows R (Pure.pure a : StateT σ (Except ε) α) (Pure.pure a : StateT τ (Except ε) α) := by
  intro s t hR b s' hok
  cases hok
  exact ⟨t, rfl, hR⟩

lemma throw {e : ε} {y : StateT τ (Except ε) α} :
    Follows R (throw e : StateT σ (Except ε) α) y := by
  intro s t hR b s' hok
  cases hok

lemma bind {x : StateT σ (Except ε) α} {y : StateT τ (Except ε) α}
    {f : α → StateT σ (Except ε) β} {g : α → StateT τ (Except ε) β} (hx : Follows R x y)
    (hf : ∀ a, Follows R (f a) (g a)) : Follows R (x >>= f) (y >>= g) := by
  intro s t hR b s' hok
  obtain ⟨a, s₁, hfirst, hsecond⟩ := bind_run_eq_ok.mp hok
  obtain ⟨t₁, hfirst', hR₁⟩ := hx s t hR a s₁ hfirst
  obtain ⟨t', hsecond', hR'⟩ := hf a s₁ t₁ hR₁ b s' hsecond
  exact ⟨t', (bind_run hfirst' g).trans hsecond', hR'⟩

/-- The second program is in two parts, and the first part has not ended. -/
lemma bind_part {x : StateT σ (Except ε) α} {y : StateT τ (Except ε) α}
    {f : α → StateT σ (Except ε) γ} {g : α → StateT τ (Except ε) β}
    {h : β → StateT τ (Except ε) γ} (hx : Follows R x y)
    (hf : ∀ a, Follows R (f a) (g a >>= h)) : Follows R (x >>= f) ((y >>= g) >>= h) := by
  rw [bind_assoc]
  exact hx.bind hf

/-- The first of the two parts has ended. -/
lemma part_end {x : StateT σ (Except ε) β} {a : α} {h : α → StateT τ (Except ε) β}
    (hx : Follows R x (h a)) : Follows R x ((Pure.pure a : StateT τ (Except ε) α) >>= h) := by
  rw [pure_bind]
  exact hx

lemma ite {c : Prop} [Decidable c] {x x' : StateT σ (Except ε) α} {y y' : StateT τ (Except ε) α}
    (hx : c → Follows R x y) (hx' : ¬c → Follows R x' y') :
    Follows R (if c then x else x') (if c then y else y') := by
  split
  · exact hx ‹_›
  · exact hx' ‹_›

lemma ite_part {c : Prop} [Decidable c] {x x' : StateT σ (Except ε) β}
    {y y' : StateT τ (Except ε) α} {h : α → StateT τ (Except ε) β}
    (hx : c → Follows R x (y >>= h)) (hx' : ¬c → Follows R x' (y' >>= h)) :
    Follows R (if c then x else x') ((if c then y else y') >>= h) := by
  split
  · exact hx ‹_›
  · exact hx' ‹_›

/-- A value that does not depend on the state. -/
lemma lift (x : Except ε α) :
    Follows R (liftM x : StateT σ (Except ε) α) (liftM x : StateT τ (Except ε) α) := by
  cases x with
  | error e => exact throw
  | ok a => exact pure a

/-- A program on a part that both states have. -/
lemma zoom {get : σ → υ} {set : υ → σ → σ} {get' : τ → υ} {set' : υ → τ → τ}
    (hget : ∀ s t, R s t → get s = get' t) (hset : ∀ u s t, R s t → R (set u s) (set' u t))
    (x : StateT υ (Except ε) α) :
    Follows R (Support.zoom get set x) (Support.zoom get' set' x) := by
  intro s t hR a s' hok
  unfold Support.zoom at hok ⊢
  rw [hget s t hR] at hok
  cases hx : x (get' t) with
  | error e =>
    rw [hx] at hok
    cases hok
  | ok r =>
    rw [hx] at hok
    cases hok
    exact ⟨set' r.2 t, rfl, hset r.2 s t hR⟩

/-- A part of the first program that the second one does without. -/
lemma skip {x : StateT σ (Except ε) α} {f : α → StateT σ (Except ε) β}
    {y : StateT τ (Except ε) β} {p : α → Prop}
    (hx : ∀ s t, R s t → ∀ a s', x s = .ok (a, s') → p a ∧ R s' t)
    (hf : ∀ a, p a → Follows R (f a) y) : Follows R (x >>= f) y := by
  intro s t hR b s' hok
  obtain ⟨a, s₁, hfirst, hsecond⟩ := bind_run_eq_ok.mp hok
  obtain ⟨hp, hR₁⟩ := hx s t hR a s₁ hfirst
  exact hf a hp s₁ t hR₁ b s' hsecond

end Follows

end Hfm.Support

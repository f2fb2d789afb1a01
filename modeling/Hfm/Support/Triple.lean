import Mathlib.Logic.Basic

/-!
# Partial correctness

Programs with a state that may end in a fault, and what they leave where they do not.
-/

namespace Hfm.Support

variable {σ τ ε α β : Type}

/-- Wherever the program has an end from a state in `P`, its value and its state are in `Q`. -/
def Triple (P : σ → Prop) (x : StateT σ (Except ε) α) (Q : α → σ → Prop) : Prop :=
  ∀ s, P s → ∀ a s', x s = .ok (a, s') → Q a s'

/-- A program on a part of the state. -/
def zoom (get : σ → τ) (set : τ → σ → σ) (x : StateT τ (Except ε) α) : StateT σ (Except ε) α :=
  fun s => (x (get s)).map fun r => (r.1, set r.2 s)

lemma bind_run {x : StateT σ (Except ε) α} {s s' : σ} {a : α} (h : x s = .ok (a, s'))
    (f : α → StateT σ (Except ε) β) : (x >>= f) s = f a s' := by
  change (x s >>= fun p => f p.1 p.2) = _
  rw [h]
  rfl

lemma bind_run_error {x : StateT σ (Except ε) α} {s : σ} {e : ε} (h : x s = .error e)
    (f : α → StateT σ (Except ε) β) : (x >>= f) s = .error e := by
  change (x s >>= fun p => f p.1 p.2) = _
  rw [h]
  rfl

/-- A run of two programs is a run of the one, then of the other. -/
lemma bind_run_eq_ok {x : StateT σ (Except ε) α} {f : α → StateT σ (Except ε) β} {s : σ}
    {r : β × σ} : (x >>= f) s = .ok r ↔ ∃ a s', x s = .ok (a, s') ∧ f a s' = .ok r := by
  change (x s >>= fun p => f p.1 p.2) = .ok r ↔ _
  cases hx : x s with
  | error e =>
    constructor
    · intro h
      cases h
    · rintro ⟨a, s', hok, -⟩
      cases hok
  | ok p =>
    constructor
    · exact fun h => ⟨p.1, p.2, rfl, h⟩
    · rintro ⟨a, s', hok, h⟩
      cases hok
      exact h

/-- A program for each member of a list, whose value does not depend on the state. -/
lemma mapM_run {f : α → StateT σ (Except ε) β} {g : α → β} {l : List α}
    (h : ∀ a ∈ l, ∀ s, ∃ s', f a s = .ok (g a, s')) (s : σ) :
    ∃ s', l.mapM f s = .ok (l.map g, s') := by
  induction l generalizing s with
  | nil => exact ⟨s, rfl⟩
  | cons a l ih =>
    obtain ⟨s₁, hhead⟩ := h a List.mem_cons_self s
    obtain ⟨s₂, htail⟩ := ih (fun b hb => h b (List.mem_cons_of_mem _ hb)) s₁
    refine ⟨s₂, ?_⟩
    rw [List.mapM_cons, bind_run hhead, bind_run htail]
    rfl

/-- The program comes to its end from every state. -/
def Total (x : StateT σ (Except ε) α) : Prop := ∀ s, ∃ r, x s = .ok r

namespace Total

lemma pure (a : α) : Total (Pure.pure a : StateT σ (Except ε) α) := fun s => ⟨(a, s), rfl⟩

lemma bind {x : StateT σ (Except ε) α} {f : α → StateT σ (Except ε) β} (hx : Total x)
    (hf : ∀ a, Total (f a)) : Total (x >>= f) := by
  intro s
  obtain ⟨r, hok⟩ := hx s
  obtain ⟨r', hok'⟩ := hf r.1 r.2
  exact ⟨r', (bind_run hok f).trans hok'⟩

lemma ite {c : Prop} [Decidable c] {x y : StateT σ (Except ε) α} (hx : Total x) (hy : Total y) :
    Total (if c then x else y) := by
  split
  · exact hx
  · exact hy

lemma zoom {get : σ → τ} {set : τ → σ → σ} {x : StateT τ (Except ε) α} (h : Total x) :
    Total (Support.zoom get set x) := by
  intro s
  obtain ⟨r, hok⟩ := h (get s)
  refine ⟨(r.1, set r.2 s), ?_⟩
  unfold Support.zoom
  rw [hok]
  rfl

end Total

/-- The program comes to its end with the same value from every state. -/
def Returns (x : StateT σ (Except ε) α) (a : α) : Prop := ∀ s, ∃ s', x s = .ok (a, s')

namespace Returns

lemma pure (a : α) : Returns (Pure.pure a : StateT σ (Except ε) α) a := fun s => ⟨s, rfl⟩

lemma bind {x : StateT σ (Except ε) α} {f : α → StateT σ (Except ε) β} {a : α} {b : β}
    (hx : Returns x a) (hf : Returns (f a) b) : Returns (x >>= f) b := by
  intro s
  obtain ⟨s₁, hok⟩ := hx s
  obtain ⟨s₂, hok'⟩ := hf s₁
  exact ⟨s₂, (bind_run hok f).trans hok'⟩

lemma ite {c : Prop} [Decidable c] {x y : StateT σ (Except ε) α} {a b : α} (hx : c → Returns x a)
    (hy : ¬c → Returns y b) : Returns (if c then x else y) (if c then a else b) := by
  split
  · exact hx ‹_›
  · exact hy ‹_›

lemma zoom {get : σ → τ} {set : τ → σ → σ} {x : StateT τ (Except ε) α} {a : α} (h : Returns x a) :
    Returns (Support.zoom get set x) a := by
  intro s
  obtain ⟨t, hok⟩ := h (get s)
  refine ⟨set t s, ?_⟩
  unfold Support.zoom
  rw [hok]
  rfl

end Returns

/-- A fault of what comes behind a program that has an end. -/
lemma Total.bind_eq_error {x : StateT σ (Except ε) α} {f : α → StateT σ (Except ε) β} {e : ε}
    {p : Prop} (hx : Total x) (hf : ∀ a s, f a s = .error e ↔ p) (s : σ) :
    (x >>= f) s = .error e ↔ p := by
  obtain ⟨r, hok⟩ := hx s
  rw [bind_run hok f]
  exact hf r.1 r.2

lemma Returns.bind_eq_error {x : StateT σ (Except ε) α} {f : α → StateT σ (Except ε) β} {a : α}
    {e : ε} {p : Prop} (hx : Returns x a) (hf : ∀ s, f a s = .error e ↔ p) (s : σ) :
    (x >>= f) s = .error e ↔ p := by
  obtain ⟨s', hok⟩ := hx s
  rw [bind_run hok f]
  exact hf s'

lemma zoom_eq_error {get : σ → τ} {set : τ → σ → σ} {x : StateT τ (Except ε) α} {e : ε} {s : σ} :
    zoom get set x s = .error e ↔ x (get s) = .error e := by
  unfold zoom
  cases x (get s) with
  | error e' =>
    constructor
    · exact fun h => congrArg _ (Except.error.inj h)
    · exact fun h => congrArg _ (Except.error.inj h)
  | ok r => exact iff_of_false (fun h => by cases h) fun h => by cases h

/-- The program ends in the fault `e` from no state. -/
def Avoids (e : ε) (x : StateT σ (Except ε) α) : Prop := ∀ s, x s ≠ .error e

lemma Total.avoids {x : StateT σ (Except ε) α} (h : Total x) (e : ε) : Avoids e x := by
  intro s hfault
  obtain ⟨r, hok⟩ := h s
  rw [hok] at hfault
  cases hfault

namespace Avoids

variable {e : ε}

lemma pure (a : α) : Avoids e (Pure.pure a : StateT σ (Except ε) α) := (Total.pure a).avoids e

lemma throw {e' : ε} (h : e' ≠ e) : Avoids e (throw e' : StateT σ (Except ε) α) := by
  intro s hfault
  exact h (Except.error.inj hfault)

lemma bind {x : StateT σ (Except ε) α} {f : α → StateT σ (Except ε) β} (hx : Avoids e x)
    (hf : ∀ a, Avoids e (f a)) : Avoids e (x >>= f) := by
  intro s hfault
  cases hrun : x s with
  | error e' =>
    rw [bind_run_error hrun] at hfault
    cases hfault
    exact hx s hrun
  | ok r =>
    obtain ⟨a, s'⟩ := r
    rw [bind_run hrun] at hfault
    exact hf a s' hfault

/-- A choice between two programs in front of the same one. -/
lemma ite_bind {c : Prop} [Decidable c] {x y : StateT σ (Except ε) α}
    {f : α → StateT σ (Except ε) β} (hx : Avoids e x) (hy : Avoids e y)
    (hf : ∀ a, Avoids e (f a)) : Avoids e (if c then x >>= f else y >>= f) := by
  split
  · exact hx.bind hf
  · exact hy.bind hf

/-- Where the second of two programs avoids a fault, it is one of the first. -/
lemma bind_eq_error {x : StateT σ (Except ε) α} {f : α → StateT σ (Except ε) β}
    (hf : ∀ a, Avoids e (f a)) (s : σ) : (x >>= f) s = .error e ↔ x s = .error e := by
  cases hrun : x s with
  | error e' =>
    rw [bind_run_error hrun]
    constructor
    · exact fun h => congrArg _ (Except.error.inj h)
    · exact fun h => congrArg _ (Except.error.inj h)
  | ok r =>
    obtain ⟨a, s'⟩ := r
    rw [bind_run hrun]
    exact iff_of_false (hf a s') fun h => by cases h

lemma ite {c : Prop} [Decidable c] {x y : StateT σ (Except ε) α} (hx : c → Avoids e x)
    (hy : ¬c → Avoids e y) : Avoids e (if c then x else y) := by
  split
  · exact hx ‹_›
  · exact hy ‹_›

lemma mapM {f : α → StateT σ (Except ε) β} (h : ∀ a, Avoids e (f a)) (l : List α) :
    Avoids e (l.mapM f) := by
  induction l with
  | nil => exact pure []
  | cons a l ih =>
    rw [List.mapM_cons]
    exact (h a).bind fun b => ih.bind fun bs => pure (b :: bs)

lemma lift {x : Except ε α} (h : x ≠ .error e) : Avoids e (liftM x : StateT σ (Except ε) α) := by
  intro s hfault
  cases x with
  | error e' => exact h (congrArg _ (Except.error.inj hfault))
  | ok a => cases hfault

lemma zoom {get : σ → τ} {set : τ → σ → σ} {x : StateT τ (Except ε) α} (h : Avoids e x) :
    Avoids e (Support.zoom get set x) :=
  fun s hfault => h (get s) (zoom_eq_error.mp hfault)

end Avoids

namespace Triple

variable {P : σ → Prop} {Q : α → σ → Prop}

lemma pure {a : α} (h : ∀ s, P s → Q a s) : Triple P (Pure.pure a : StateT σ (Except ε) α) Q := by
  intro s hP b s' hok
  cases hok
  exact h s hP

lemma throw {e : ε} : Triple P (throw e : StateT σ (Except ε) α) Q := by
  intro s hP a s' hok
  cases hok

lemma bind {x : StateT σ (Except ε) α} {f : α → StateT σ (Except ε) β} {R : β → σ → Prop}
    (hx : Triple P x Q) (hf : ∀ a, Triple (Q a) (f a) R) : Triple P (x >>= f) R := by
  intro s hP b s' hok
  change (x s >>= fun r => f r.1 r.2) = .ok (b, s') at hok
  cases hxs : x s with
  | error e =>
    rw [hxs] at hok
    cases hok
  | ok r =>
    rw [hxs] at hok
    exact hf r.1 r.2 (hx s hP r.1 r.2 hxs) b s' hok

/-- A fact that does not depend on the state. -/
lemma assume {p : Prop} {x : StateT σ (Except ε) α} (h : p → Triple P x Q) :
    Triple (fun s => P s ∧ p) x Q :=
  fun s hs a s' hok => h hs.2 s hs.1 a s' hok

/-- A value that does not depend on the state, or a fault. -/
lemma lift (x : Except ε α) : Triple P (liftM x : StateT σ (Except ε) α) fun _ => P := by
  intro s hP a s' hok
  cases x with
  | error e => cases hok
  | ok b =>
    cases hok
    exact hP

lemma ite {c : Prop} [Decidable c] {x y : StateT σ (Except ε) α} (hx : c → Triple P x Q)
    (hy : ¬c → Triple P y Q) : Triple P (if c then x else y) Q := by
  split
  · exact hx ‹_›
  · exact hy ‹_›

/-- What does not depend on a part of the state stays when a program runs on that part. -/
lemma zoom {get : σ → τ} {set : τ → σ → σ} (h : ∀ s t, P s → P (set t s))
    (x : StateT τ (Except ε) α) : Triple P (Support.zoom get set x) fun _ => P := by
  intro s hP a s' hok
  unfold Support.zoom at hok
  cases hx : x (get s) with
  | error e =>
    rw [hx] at hok
    cases hok
  | ok r =>
    rw [hx] at hok
    cases hok
    exact h s r.2 hP

end Triple

end Hfm.Support

import Mathlib.Data.Fintype.Option
import Mathlib.Data.Fintype.Pigeonhole
import Mathlib.Data.Option.Basic

/-!
# Walks along links

A walk goes from a node to the next one, up to a node that leads nowhere. Among finitely many
nodes it ends exactly if it comes to no node twice.
-/

namespace Hfm.Support

variable {α : Type*} (next : α → Option α)

/-- The nodes that lead on, from `a` up to the one that leads nowhere. -/
inductive Path : α → List α → Prop where
  | stop {a : α} (h : next a = none) : Path a []
  | step {a b : α} {l : List α} (h : next a = some b) (hrest : Path b l) : Path a (a :: l)

/-- The node after `n` steps. -/
def after : Nat → α → Option α
  | 0, a => some a
  | n + 1, a => next a >>= after n

/-- The walk from `a` comes to a node again. -/
def Revisits (a : α) : Prop := ∃ i j b, i < j ∧ after next i a = some b ∧ after next j a = some b

/-- The nodes that lead on, by at most so many steps; none if the walk has not ended then. -/
def follow : Nat → α → Option (List α)
  | steps, a =>
    match next a with
    | none => some []
    | some b =>
      match steps with
      | 0 => none
      | steps + 1 => (follow steps b).map (a :: ·)

variable {next}

lemma after_add (i j : Nat) (a : α) : after next (i + j) a = after next i a >>= after next j := by
  induction i generalizing a with
  | zero => rw [Nat.zero_add]; rfl
  | succ i ih =>
    rw [Nat.succ_add]
    change next a >>= after next (i + j) = (next a >>= after next i) >>= after next j
    rw [bind_assoc]
    exact congrArg _ (funext ih)

namespace Path

lemma after_length {a : α} {l : List α} (h : Path next a l) : after next (l.length + 1) a = none := by
  induction h with
  | stop h =>
    change next _ >>= _ = none
    rw [h]
    rfl
  | step h hrest ih =>
    change next _ >>= _ = none
    rw [h]
    exact ih

/-- A node has one walk. -/
lemma unique {a : α} {l l' : List α} (h : Path next a l) (h' : Path next a l') : l = l' := by
  induction h generalizing l' with
  | stop h =>
    cases h' with
    | stop => rfl
    | step hnext => rw [h] at hnext; cases hnext
  | step h hrest ih =>
    cases h' with
    | stop hnext => rw [h] at hnext; cases hnext
    | step hnext hrest' =>
      rw [h] at hnext
      cases hnext
      rw [ih hrest']

end Path

lemma exists_path {n : Nat} {a : α} (h : after next n a = none) : ∃ l, Path next a l := by
  induction n generalizing a with
  | zero => cases h
  | succ n ih =>
    cases hnext : next a with
    | none => exact ⟨[], .stop hnext⟩
    | some b =>
      have hrest : after next n b = none := by
        change next a >>= after next n = none at h
        rwa [hnext] at h
      obtain ⟨l, hl⟩ := ih hrest
      exact ⟨a :: l, .step hnext hl⟩

/-- A walk that comes to a node again goes on from it for ever. -/
lemma after_ne_none {i j : Nat} {a b : α} (hlt : i < j) (hi : after next i a = some b)
    (hj : after next j a = some b) (n : Nat) : after next n a ≠ none := by
  have hround : after next (j - i) b = some b := by
    have hadd : after next (i + (j - i)) a = after next i a >>= after next (j - i) :=
      after_add i (j - i) a
    rw [Nat.add_sub_cancel' (Nat.le_of_lt hlt), hi, hj] at hadd
    exact hadd.symm
  have hrounds (k : Nat) : after next (k * (j - i)) b = some b := by
    induction k with
    | zero => rw [Nat.zero_mul]; rfl
    | succ k ih => rw [Nat.succ_mul, after_add, ih]; exact hround
  have hfar : after next (i + n * (j - i)) a = some b := by
    rw [after_add, hi]
    exact hrounds n
  have hle : n ≤ i + n * (j - i) :=
    Nat.le_trans (Nat.le_mul_of_pos_right n (Nat.sub_pos_of_lt hlt)) (Nat.le_add_left _ _)
  intro hnone
  rw [← Nat.add_sub_cancel' hle, after_add, hnone] at hfar
  cases hfar

lemma follow_of_path {a : α} {l : List α} (h : Path next a l) {steps : Nat} (hsteps : l.length ≤ steps) :
    follow next steps a = some l := by
  induction h generalizing steps with
  | stop hend =>
    unfold follow
    rw [hend]
  | step hnext hrest ih =>
    cases steps with
    | zero => exact absurd hsteps (Nat.not_succ_le_zero _)
    | succ steps =>
      unfold follow
      rw [hnext]
      dsimp only
      rw [ih (Nat.le_of_succ_le_succ hsteps)]
      rfl

lemma path_of_follow {steps : Nat} {a : α} {l : List α} (h : follow next steps a = some l) :
    Path next a l := by
  induction steps generalizing a l with
  | zero =>
    unfold follow at h
    cases hnext : next a with
    | none =>
      rw [hnext] at h
      cases h
      exact .stop hnext
    | some b =>
      rw [hnext] at h
      cases h
  | succ steps ih =>
    unfold follow at h
    cases hnext : next a with
    | none =>
      rw [hnext] at h
      cases h
      exact .stop hnext
    | some b =>
      rw [hnext] at h
      obtain ⟨l', hrest, rfl⟩ := Option.map_eq_some_iff.mp h
      exact .step hnext (ih hrest)

/-- Among finitely many nodes a walk has an end exactly if it comes to none of them twice. -/
theorem exists_path_iff [Finite α] (a : α) : (∃ l, Path next a l) ↔ ¬Revisits next a := by
  constructor
  · rintro ⟨l, hl⟩ ⟨i, j, b, hlt, hi, hj⟩
    exact after_ne_none hlt hi hj _ hl.after_length
  · intro hnever
    by_contra hpath
    have hsome (n : Nat) : after next n a ≠ none := fun h => hpath (exists_path h)
    obtain ⟨i, j, hne, heq⟩ := Finite.exists_ne_map_eq_of_infinite (after next · a)
    obtain ⟨b, hb⟩ := Option.ne_none_iff_exists'.mp (hsome i)
    have hb' : after next j a = some b := heq.symm.trans hb
    rcases Nat.lt_or_gt_of_ne hne with hlt | hlt
    · exact hnever ⟨i, j, b, hlt, hb, hb'⟩
    · exact hnever ⟨j, i, b, hlt, hb', hb⟩

theorem exists_follow_iff (a : α) :
    (∃ steps l, follow next steps a = some l) ↔ ∃ l, Path next a l := by
  constructor
  · rintro ⟨steps, l, h⟩
    exact ⟨l, path_of_follow h⟩
  · rintro ⟨l, h⟩
    exact ⟨l.length, l, follow_of_path h (Nat.le_refl _)⟩

/-- A walk that also stops where a link leads to `stop` has an end exactly if the links come
there, or to a node that leads nowhere. -/
theorem exists_path_until_iff [DecidableEq α] {next' : α → Option α} {stop : α}
    (hstop : ∀ b, next' b = if next b = some stop then none else next b) (a : α) :
    (∃ l, Path next' a l) ↔
      ∃ n, after next (n + 1) a = none ∨ after next (n + 1) a = some stop := by
  have hfirst (b : α) : after next 1 b = next b := by
    change next b >>= some = next b
    exact bind_pure (next b)
  constructor
  · rintro ⟨l, hl⟩
    induction hl with
    | @stop b h =>
      refine ⟨0, ?_⟩
      rw [hfirst]
      rw [hstop] at h
      split at h
      · exact .inr ‹_›
      · exact .inl h
    | @step b c l h hrest ih =>
      obtain ⟨n, hn⟩ := ih
      have hnext : next b = some c := by
        rw [hstop] at h
        split at h
        · cases h
        · exact h
      refine ⟨n + 1, ?_⟩
      change (next b >>= after next (n + 1)) = none ∨ (next b >>= after next (n + 1)) = some stop
      rw [hnext]
      exact hn
  · rintro ⟨n, hn⟩
    induction n generalizing a with
    | zero =>
      rw [hfirst] at hn
      refine ⟨[], .stop ?_⟩
      rw [hstop]
      split
      · rfl
      · rename_i hne
        exact hn.resolve_right hne
    | succ n ih =>
      cases hnext : next a with
      | none =>
        refine ⟨[], .stop ?_⟩
        rw [hstop, hnext]
        rfl
      | some b =>
        by_cases hb : b = stop
        · refine ⟨[], .stop ?_⟩
          rw [hstop, hnext, hb, if_pos rfl]
        · change (next a >>= after next (n + 1)) = none ∨
            (next a >>= after next (n + 1)) = some stop at hn
          rw [hnext] at hn
          obtain ⟨l, hl⟩ := ih b hn
          refine ⟨a :: l, .step ?_ hl⟩
          rw [hstop, hnext, if_neg (by simpa using hb)]

lemma exists_mapM_follow {as : List α} (h : ∀ a ∈ as, ∃ l, Path next a l) :
    ∃ n, ∀ steps ≥ n, ∃ ls, as.mapM (follow next steps) = some ls := by
  induction as with
  | nil => exact ⟨0, fun _ _ => ⟨[], rfl⟩⟩
  | cons a as ih =>
    obtain ⟨l, hl⟩ := h a List.mem_cons_self
    obtain ⟨n, hn⟩ := ih fun b hb => h b (List.mem_cons_of_mem _ hb)
    refine ⟨max n l.length, fun steps hle => ?_⟩
    obtain ⟨ls, hls⟩ := hn steps (Nat.le_trans (Nat.le_max_left _ _) hle)
    have hfollow := follow_of_path hl (Nat.le_trans (Nat.le_max_right _ _) hle)
    refine ⟨l :: ls, ?_⟩
    rw [List.mapM_cons, hfollow, hls]
    rfl

lemma path_of_mapM_follow {as : List α} {steps : Nat} {ls : List (List α)}
    (h : as.mapM (follow next steps) = some ls) : ∀ a ∈ as, ∃ l, Path next a l := by
  induction as generalizing ls with
  | nil => exact fun a ha => (List.not_mem_nil ha).elim
  | cons a as ih =>
    rw [List.mapM_cons] at h
    obtain ⟨l, hl, h⟩ := Option.bind_eq_some_iff.mp h
    obtain ⟨ls', hls', -⟩ := Option.bind_eq_some_iff.mp h
    intro b hb
    rcases List.mem_cons.mp hb with rfl | hb
    · exact ⟨l, path_of_follow hl⟩
    · exact ih hls' b hb

/-- Walks from several nodes. -/
theorem exists_mapM_follow_iff [Finite α] (as : List α) :
    (∃ steps ls, as.mapM (follow next steps) = some ls) ↔ ∀ a ∈ as, ¬Revisits next a := by
  constructor
  · rintro ⟨steps, ls, h⟩ a ha
    exact (exists_path_iff a).mp (path_of_mapM_follow h a ha)
  · intro h
    obtain ⟨n, hn⟩ := exists_mapM_follow fun a ha => (exists_path_iff a).mpr (h a ha)
    obtain ⟨ls, hls⟩ := hn n (Nat.le_refl n)
    exact ⟨n, ls, hls⟩

/-- Links that agree where the one walk comes. -/
lemma after_congr {next' : α → Option α} {a : α} (h : ∀ n b, after next n a = some b → next' b = next b)
    (n : Nat) : after next' n a = after next n a := by
  induction n generalizing a with
  | zero => rfl
  | succ n ih =>
    have hfirst : next' a = next a := h 0 a rfl
    change next' a >>= after next' n = next a >>= after next n
    rw [hfirst]
    cases hnext : next a with
    | none => rfl
    | some b =>
      refine ih fun m c hc => h (m + 1) c ?_
      change next a >>= after next m = some c
      rw [hnext]
      exact hc

lemma revisits_congr {next' : α → Option α} {a : α}
    (h : ∀ n b, after next n a = some b → next' b = next b) : Revisits next' a ↔ Revisits next a := by
  unfold Revisits
  simp only [after_congr h]

end Hfm.Support

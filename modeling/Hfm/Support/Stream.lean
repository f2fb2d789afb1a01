import Mathlib.Data.List.Infix
import Mathlib.Order.Basic

/-!
# Streams read in chunks

A stream is read with a buffer of a fixed size. A read takes as much as fits, or fails after it
took less, maybe nothing; a reader that stops at the first empty chunk does not see which.
-/

namespace Hfm.Support

/-- How a read goes. -/
inductive ReadOutcome where
  | fills
  | fails (taken : Nat)

/-- What is left of a stream, and how the next reads go. -/
structure Stream (α : Type*) where
  content : List α
  outcome : Nat → ReadOutcome

namespace Stream

variable {α : Type*}

/-- The number of items that the next read takes if there are enough. A read that fails does not
fill the buffer. -/
def limit (buffer : Nat) (s : Stream α) : Nat :=
  match s.outcome 0 with
  | .fills => buffer
  | .fails taken => min taken (buffer - 1)

def read (buffer : Nat) (s : Stream α) : List α × Stream α :=
  (s.content.take (s.limit buffer), ⟨s.content.drop (s.limit buffer), fun k => s.outcome (k + 1)⟩)

/-- The stream after some reads. -/
def after (buffer : Nat) (s : Stream α) : Nat → Stream α
  | 0 => s
  | k + 1 => (s.read buffer).2.after buffer k

/-- What a read takes. -/
def chunk (buffer : Nat) (s : Stream α) (k : Nat) : List α := ((s.after buffer k).read buffer).1

/-- What the first reads take together. -/
def taken (buffer : Nat) (s : Stream α) (n : Nat) : List α := (List.range n).flatMap (s.chunk buffer)

/-- The first empty chunk. -/
structure EndsAt (buffer : Nat) (s : Stream α) (n : Nat) : Prop where
  nonempty : ∀ k < n, s.chunk buffer k ≠ []
  empty : s.chunk buffer n = []

/-- Two streams give the same chunks, up to the first empty one. -/
def AgreeUntil (buffer : Nat) (s t : Stream α) (n : Nat) : Prop :=
  s.EndsAt buffer n ∧ ∀ k ≤ n, s.chunk buffer k = t.chunk buffer k

def Reliable (s : Stream α) : Prop := ∀ k, s.outcome k = .fills

variable {buffer n m : Nat} {s t : Stream α}

lemma read_append (buffer : Nat) (s : Stream α) :
    (s.read buffer).1 ++ (s.read buffer).2.content = s.content :=
  List.take_append_drop _ _

@[simp] lemma chunk_zero (buffer : Nat) (s : Stream α) : s.chunk buffer 0 = (s.read buffer).1 := rfl

@[simp] lemma chunk_succ (buffer : Nat) (s : Stream α) (k : Nat) :
    s.chunk buffer (k + 1) = (s.read buffer).2.chunk buffer k := rfl

lemma taken_zero (buffer : Nat) (s : Stream α) : s.taken buffer 0 = [] := rfl

lemma taken_succ (buffer : Nat) (s : Stream α) (n : Nat) :
    s.taken buffer (n + 1) = (s.read buffer).1 ++ (s.read buffer).2.taken buffer n := by
  unfold taken
  rw [List.range_succ_eq_map, List.flatMap_cons, List.flatMap_map]
  rfl

/-- No item is lost or read twice. -/
lemma taken_append (buffer : Nat) (s : Stream α) (n : Nat) :
    s.taken buffer n ++ (s.after buffer n).content = s.content := by
  induction n generalizing s with
  | zero => rfl
  | succ n ih =>
    rw [taken_succ, List.append_assoc]
    exact (congrArg _ (ih (s.read buffer).2)).trans (read_append buffer s)

lemma taken_congr (h : ∀ k < n, s.chunk buffer k = t.chunk buffer k) :
    s.taken buffer n = t.taken buffer n :=
  List.flatMap_congr fun k hk => h k (List.mem_range.mp hk)

/-! ### The end of the reads -/

lemma endsAt_zero : s.EndsAt buffer 0 ↔ (s.read buffer).1 = [] :=
  ⟨fun h => h.empty, fun h => ⟨fun _ hk => absurd hk (Nat.not_lt_zero _), h⟩⟩

lemma endsAt_succ :
    s.EndsAt buffer (n + 1) ↔ (s.read buffer).1 ≠ [] ∧ (s.read buffer).2.EndsAt buffer n := by
  constructor
  · intro h
    exact ⟨h.nonempty 0 (Nat.succ_pos n), fun k hk => h.nonempty (k + 1) (Nat.succ_lt_succ hk),
      h.empty⟩
  · rintro ⟨hne, h⟩
    refine ⟨fun k hk => ?_, h.empty⟩
    cases k with
    | zero => exact hne
    | succ k => exact h.nonempty k (Nat.lt_of_succ_lt_succ hk)

lemma EndsAt.unique (h : s.EndsAt buffer n) (h' : s.EndsAt buffer m) : n = m := by
  rcases lt_trichotomy n m with hlt | heq | hlt
  · exact absurd h.empty (h'.nonempty n hlt)
  · exact heq
  · exact absurd h'.empty (h.nonempty m hlt)

/-- A read that takes something leaves less. -/
lemma length_read_lt (h : (s.read buffer).1 ≠ []) :
    (s.read buffer).2.content.length < s.content.length := by
  have happend := congrArg List.length (read_append buffer s)
  have hpos := List.length_pos_iff.mpr h
  rw [List.length_append] at happend
  omega

lemma exists_endsAt (buffer : Nat) (s : Stream α) :
    ∃ n, n ≤ s.content.length ∧ s.EndsAt buffer n := by
  induction hlen : s.content.length using Nat.strong_induction_on generalizing s with
  | _ len ih =>
    by_cases hread : (s.read buffer).1 = []
    · exact ⟨0, Nat.zero_le _, endsAt_zero.mpr hread⟩
    · have hlt := length_read_lt hread
      obtain ⟨n, hn, hends⟩ := ih _ (hlen ▸ hlt) (s.read buffer).2 rfl
      exact ⟨n + 1, by omega, endsAt_succ.mpr ⟨hread, hends⟩⟩

/-! ### Streams that agree -/

lemma agreeUntil_zero :
    s.AgreeUntil buffer t 0 ↔ (s.read buffer).1 = [] ∧ (t.read buffer).1 = [] := by
  unfold AgreeUntil
  rw [endsAt_zero]
  constructor
  · rintro ⟨hs, h⟩
    exact ⟨hs, (h 0 le_rfl).symm.trans hs⟩
  · rintro ⟨hs, ht⟩
    refine ⟨hs, fun k hk => ?_⟩
    obtain rfl := Nat.le_zero.mp hk
    exact hs.trans ht.symm

lemma agreeUntil_succ : s.AgreeUntil buffer t (n + 1) ↔
    (s.read buffer).1 = (t.read buffer).1 ∧ (s.read buffer).1 ≠ [] ∧
      (s.read buffer).2.AgreeUntil buffer (t.read buffer).2 n := by
  unfold AgreeUntil
  rw [endsAt_succ]
  constructor
  · rintro ⟨⟨hne, hends⟩, h⟩
    exact ⟨h 0 (Nat.zero_le _), hne, hends, fun k hk => h (k + 1) (Nat.succ_le_succ hk)⟩
  · rintro ⟨heq, hne, hends, h⟩
    refine ⟨⟨hne, hends⟩, fun k hk => ?_⟩
    cases k with
    | zero => exact heq
    | succ k => exact h k (Nat.le_of_succ_le_succ hk)

lemma AgreeUntil.taken_eq (h : s.AgreeUntil buffer t n) : s.taken buffer n = t.taken buffer n :=
  taken_congr fun k hk => h.2 k hk.le

/-- Streams of one length that agree leave as much of the one as of the other. -/
lemma AgreeUntil.length_after (h : s.AgreeUntil buffer t n)
    (hlen : s.content.length = t.content.length) :
    (s.after buffer n).content.length = (t.after buffer n).content.length := by
  rw [← taken_append buffer s n, ← taken_append buffer t n, h.taken_eq, List.length_append,
    List.length_append] at hlen
  omega

/-- Streams that agree up to the ends of both are equal. -/
lemma AgreeUntil.content_eq (h : s.AgreeUntil buffer t n) (hs : (s.after buffer n).content = [])
    (ht : (t.after buffer n).content = []) : s.content = t.content := by
  rw [← taken_append buffer s n, ← taken_append buffer t n, h.taken_eq, hs, ht]

/-! ### Reads without a failure -/

lemma Reliable.read (h : s.Reliable) : (s.read buffer).2.Reliable := fun k => h (k + 1)

lemma Reliable.after (h : s.Reliable) : (s.after buffer n).Reliable := by
  induction n generalizing s with
  | zero => exact h
  | succ n ih => exact ih h.read

/-- Without a failure the first empty chunk is the end of the stream. -/
lemma Reliable.after_endsAt (h : s.Reliable) (hbuffer : 0 < buffer) (hends : s.EndsAt buffer n) :
    (s.after buffer n).content = [] := by
  have hempty : ((s.after buffer n).read buffer).1 = [] := hends.empty
  have hlimit : (s.after buffer n).limit buffer = buffer := by
    unfold limit
    rw [h.after 0]
  unfold Stream.read at hempty
  rw [hlimit, List.take_eq_nil_iff] at hempty
  exact hempty.resolve_left (Nat.ne_of_gt hbuffer)

lemma Reliable.taken_endsAt (h : s.Reliable) (hbuffer : 0 < buffer) (hends : s.EndsAt buffer n) :
    s.taken buffer n = s.content := by
  have happend := taken_append buffer s n
  rwa [h.after_endsAt hbuffer hends, List.append_nil] at happend

lemma Reliable.eq (hs : s.Reliable) (ht : t.Reliable) (h : s.content = t.content) : s = t := by
  obtain ⟨content, outcome⟩ := s
  obtain ⟨content', outcome'⟩ := t
  obtain rfl : content = content' := h
  have houtcome : outcome = outcome' := funext fun k => (hs k).trans (ht k).symm
  rw [houtcome]

end Stream

end Hfm.Support

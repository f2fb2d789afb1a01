import Mathlib.Data.List.Infix

/-!
# Terminated lines

The lines of a text that a terminator ends, each with it, and the rest behind the last one.
-/

namespace Hfm.Support

variable {α : Type*}

/-- A line ends at its only terminator. -/
def IsLine (nl : α) (l : List α) : Prop := ∃ s, nl ∉ s ∧ l = s ++ [nl]

lemma IsLine.mem {nl : α} {l : List α} (h : IsLine nl l) : nl ∈ l := by
  obtain ⟨s, -, rfl⟩ := h
  simp

variable [DecidableEq α] {nl : α}

/-- The terminated lines of a text. -/
def lines (nl : α) : List α → List (List α)
  | [] => []
  | c :: s =>
    if c = nl then [nl] :: lines nl s
    else
      match lines nl s with
      | [] => []
      | l :: ls => (c :: l) :: ls

lemma lines_line {s : List α} (h : nl ∉ s) (t : List α) :
    lines nl (s ++ nl :: t) = (s ++ [nl]) :: lines nl t := by
  induction s with
  | nil => rw [List.nil_append, lines, if_pos rfl, List.nil_append]
  | cons c s ih =>
    rw [List.mem_cons, not_or] at h
    rw [List.cons_append, lines, if_neg (Ne.symm h.1), ih h.2]
    rfl

lemma lines_of_not_mem {s : List α} (h : nl ∉ s) : lines nl s = [] := by
  induction s with
  | nil => rfl
  | cons c s ih =>
    rw [List.mem_cons, not_or] at h
    rw [lines, if_neg (Ne.symm h.1), ih h.2]

/-- The lines of a text that is put together of lines and of a rest without a terminator. -/
lemma lines_flatten {ls : List (List α)} (hls : ∀ l ∈ ls, IsLine nl l) (t : List α) :
    lines nl (ls.flatten ++ t) = ls ++ lines nl t := by
  induction ls with
  | nil => rfl
  | cons l ls ih =>
    obtain ⟨s, hs, rfl⟩ := hls l List.mem_cons_self
    rw [List.flatten_cons, List.append_assoc, List.append_assoc, List.singleton_append,
      lines_line hs, ih fun l hl => hls l (List.mem_cons_of_mem _ hl)]
    rfl

lemma split_lines (nl : α) (s : List α) : ∃ (ls : List (List α)) (t : List α), s = ls.flatten ++ t ∧
    (∀ l ∈ ls, IsLine nl l) ∧ nl ∉ t := by
  induction s with
  | nil => exact ⟨[], [], rfl, by simp, by simp⟩
  | cons c s ih =>
    obtain ⟨ls, t, hs, hls, ht⟩ := ih
    by_cases hc : c = nl
    · refine ⟨[nl] :: ls, t, by rw [hc, hs]; rfl, ?_, ht⟩
      rintro l (_ | ⟨_, hl⟩)
      · exact ⟨[], by simp, rfl⟩
      · exact hls l hl
    · cases ls with
      | nil =>
        refine ⟨[], c :: t, by rw [hs]; rfl, by simp, ?_⟩
        rw [List.mem_cons, not_or]
        exact ⟨Ne.symm hc, ht⟩
      | cons l ls =>
        refine ⟨(c :: l) :: ls, t, by rw [hs]; rfl, ?_, ht⟩
        rintro l' (_ | ⟨_, hl⟩)
        · obtain ⟨u, hu, rfl⟩ := hls l List.mem_cons_self
          refine ⟨c :: u, ?_, rfl⟩
          rw [List.mem_cons, not_or]
          exact ⟨Ne.symm hc, hu⟩
        · exact hls l' (List.mem_cons_of_mem _ hl)

/-- A text is its lines and a rest without a terminator. -/
lemma lines_split (nl : α) (s : List α) : ∃ t, s = (lines nl s).flatten ++ t ∧ nl ∉ t := by
  obtain ⟨ls, t, rfl, hls, ht⟩ := split_lines nl s
  refine ⟨t, ?_, ht⟩
  rw [lines_flatten hls, lines_of_not_mem ht, List.append_nil]

lemma isLine_of_mem {s l : List α} (h : l ∈ lines nl s) : IsLine nl l := by
  obtain ⟨ls, t, rfl, hls, ht⟩ := split_lines nl s
  rw [lines_flatten hls, lines_of_not_mem ht, List.append_nil] at h
  exact hls l h

/-- A text that grows keeps its lines. -/
lemma lines_grow (nl : α) (s t : List α) : lines nl s <+: lines nl (s ++ t) := by
  obtain ⟨ls, u, rfl, hls, hu⟩ := split_lines nl s
  rw [List.append_assoc, lines_flatten hls, lines_flatten hls, lines_of_not_mem hu, List.append_nil]
  exact List.prefix_append _ _

end Hfm.Support

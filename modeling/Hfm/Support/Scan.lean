import Mathlib.Data.List.Infix
import Mathlib.Data.Int.Basic

/-!
# Scanning a buffer

A scan compares a word with the cells of a buffer, from one cell on in equal steps, and stops
at the first difference. It stays on the cells that hold a word `zs` unless `zs` is a proper
prefix of the word looked for.
-/

namespace Hfm.Support

variable {α : Type*}

/-- The cells from `j` on, in steps of `d`, hold the word `zs`. -/
def HoldsFrom (f : Int → α) (d j : Int) (zs : List α) : Prop :=
  ∀ t (h : t < zs.length), f (j + d * t) = zs[t]

/-- A prefix, but not the whole. -/
def ProperPrefix (zs ps : List α) : Prop := zs <+: ps ∧ zs ≠ ps

def ProperSuffix (zs ps : List α) : Prop := zs <:+ ps ∧ zs ≠ ps

lemma properPrefix_reverse {zs ps : List α} :
    ProperPrefix zs.reverse ps.reverse ↔ ProperSuffix zs ps := by
  unfold ProperPrefix ProperSuffix
  rw [List.reverse_prefix, ne_eq, List.reverse_inj]

lemma properPrefix_cons {z : α} {zs ps : List α} :
    ProperPrefix (z :: zs) (z :: ps) ↔ ProperPrefix zs ps := by
  unfold ProperPrefix
  simp

namespace HoldsFrom

variable {f : Int → α} {d j : Int}

lemma head {a : α} {zs : List α} (h : HoldsFrom f d j (a :: zs)) : f j = a := by
  have := h 0 (by simp)
  simpa using this

lemma tail {a : α} {zs : List α} (h : HoldsFrom f d j (a :: zs)) : HoldsFrom f d (j + d) zs := by
  intro t ht
  have hnext := h (t + 1) (by simpa using ht)
  have hpos : j + d * ((t + 1 : Nat) : Int) = j + d + d * t := by
    push_cast
    rw [Int.mul_add, Int.mul_one]
    omega
  rw [hpos] at hnext
  simpa using hnext

lemma left {xs ys : List α} (h : HoldsFrom f d j (xs ++ ys)) : HoldsFrom f d j xs := by
  intro t ht
  rw [h t (by simp only [List.length_append]; omega), List.getElem_append_left ht]

/-- Read from the other end. -/
lemma reverse {zs : List α} (h : HoldsFrom f 1 j zs) :
    HoldsFrom f (-1) (j + zs.length - 1) zs.reverse := by
  intro t ht
  rw [List.length_reverse] at ht
  have hcell := h (zs.length - 1 - t) (by omega)
  have hpos : j + 1 * ((zs.length - 1 - t : Nat) : Int) = j + zs.length - 1 + -1 * t := by omega
  rw [hpos] at hcell
  rw [List.getElem_reverse, hcell]

end HoldsFrom

section Scan

variable [DecidableEq α] {f f' : Int → α} {d : Int}

/-- Compares `ps` with the cells from `j` on. -/
def scan (f : Int → α) (d : Int) : List α → Int → Bool
  | [], _ => true
  | a :: ps, j => if a ≠ f j then false else scan f d ps (j + d)

/-- The cells that the comparison reads. -/
def scanReads (f : Int → α) (d : Int) : List α → Int → List Int
  | [], _ => []
  | a :: ps, j => j :: if a ≠ f j then [] else scanReads f d ps (j + d)

/-- Where the word looked for ends or differs on the cells of `zs`, these decide. -/
lemma scan_iff : ∀ {ps zs : List α} {j : Int}, HoldsFrom f d j zs → ¬ProperPrefix zs ps →
    (scan f d ps j = true ↔ ps <+: zs) := by
  intro ps
  induction ps with
  | nil => simp [scan]
  | cons a ps ih =>
    intro zs j hz hstop
    cases zs with
    | nil => exact absurd ⟨List.nil_prefix, by simp⟩ hstop
    | cons z zs =>
      rw [scan, hz.head, List.cons_prefix_cons]
      by_cases haz : a = z
      · subst haz
        rw [properPrefix_cons] at hstop
        simpa using ih hz.tail hstop
      · simp [haz]

lemma scanReads_inside : ∀ {ps zs : List α} {j : Int}, HoldsFrom f d j zs → ¬ProperPrefix zs ps →
    ∀ k ∈ scanReads f d ps j, ∃ t < zs.length, k = j + d * t := by
  intro ps
  induction ps with
  | nil => simp [scanReads]
  | cons a ps ih =>
    intro zs j hz hstop k hk
    cases zs with
    | nil => exact absurd ⟨List.nil_prefix, by simp⟩ hstop
    | cons z zs =>
      rw [scanReads, hz.head, List.mem_cons] at hk
      rcases hk with rfl | hk
      · exact ⟨0, by simp, by simp⟩
      · by_cases haz : a = z
        · subst haz
          rw [properPrefix_cons] at hstop
          rw [if_neg (by simp)] at hk
          obtain ⟨t, ht, rfl⟩ := ih hz.tail hstop k hk
          refine ⟨t + 1, by simpa using ht, ?_⟩
          push_cast
          rw [Int.mul_add, Int.mul_one]
          omega
        · simp [haz] at hk

/-- Where the cells of `zs` leave it open, the next one is read as well. -/
lemma scanReads_outside : ∀ {ps zs : List α} {j : Int}, HoldsFrom f d j zs → ProperPrefix zs ps →
    j + d * zs.length ∈ scanReads f d ps j := by
  intro ps
  induction ps with
  | nil =>
    rintro zs j - ⟨hpre, hne⟩
    exact absurd (List.prefix_nil.mp hpre) hne
  | cons a ps ih =>
    intro zs j hz hstop
    cases zs with
    | nil => simp [scanReads]
    | cons z zs =>
      obtain ⟨rfl, -⟩ := List.cons_prefix_cons.mp hstop.1
      rw [properPrefix_cons] at hstop
      rw [scanReads, hz.head, if_neg (by simp)]
      apply List.mem_cons_of_mem
      have hpos : j + d * ((z :: zs).length : Int) = j + d + d * zs.length := by
        rw [List.length_cons]
        push_cast
        rw [Int.mul_add, Int.mul_one]
        omega
      rw [hpos]
      exact ih hz.tail hstop

end Scan

/-- A word fits around a gap if it begins with the one part and ends with the other, and the two
do not overlap. -/
lemma exists_gap_iff {pre suf zs : List α} : (∃ x, zs = pre ++ x ++ suf) ↔
    pre <+: zs ∧ suf <:+ zs ∧ pre.length + suf.length ≤ zs.length := by
  constructor
  · rintro ⟨x, rfl⟩
    refine ⟨⟨x ++ suf, by simp⟩, List.suffix_append _ _, ?_⟩
    simp only [List.length_append]
    omega
  · rintro ⟨⟨rest, rfl⟩, hsuf, hlen⟩
    rw [List.length_append] at hlen
    have hrest : suf <:+ rest :=
      List.suffix_of_suffix_length_le hsuf (List.suffix_append _ _) (by omega)
    obtain ⟨x, rfl⟩ := hrest
    exact ⟨x, by simp⟩

end Hfm.Support

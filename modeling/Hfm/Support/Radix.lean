import Mathlib.Algebra.BigOperators.Group.List.Basic
import Mathlib.Data.List.Nodup

/-!
# Numerals with a radix for each place

Nested loops count them; division and remainder find the one that is counted as the `i`th. The
most significant place comes first.
-/

namespace Hfm.Support

/-- The digits of `i`. -/
def digits : List Nat → Nat → List Nat
  | [], _ => []
  | _ :: radices, i => i / radices.prod :: digits radices (i % radices.prod)

/-- The numerals, in the order in which the loops come to them. -/
def numerals : List Nat → List (List Nat)
  | [] => [[]]
  | radix :: radices => (List.range radix).flatMap fun d => (numerals radices).map (d :: ·)

/-- The number that a numeral stands for. -/
def ofDigits : List Nat → List Nat → Nat
  | _ :: radices, d :: ds => d * radices.prod + ofDigits radices ds
  | _, _ => 0

section Rows

variable {α : Type*} {n m : Nat} {row : Nat → List α}

/-- Rows of `m` elements each. -/
lemma length_flatMap_range (hrow : ∀ d, (row d).length = m) :
    ((List.range n).flatMap row).length = n * m := by
  rw [List.length_flatMap, List.map_congr_left (fun d _ => hrow d), List.map_const',
    List.sum_replicate, List.length_range]
  rfl

lemma getElem?_flatMap_range (hrow : ∀ d, (row d).length = m) {k : Nat} (hk : k < n * m) :
    ((List.range n).flatMap row)[k]? = (row (k / m))[k % m]? := by
  induction n with
  | zero => omega
  | succ n ih =>
    rw [List.range_succ, List.flatMap_append, List.flatMap_singleton]
    by_cases h : k < n * m
    · rw [List.getElem?_append_left (by rwa [length_flatMap_range hrow]), ih h]
    · have hm : k < (n + 1) * m := hk
      have hdiv : k / m = n := by
        apply Nat.div_eq_of_lt_le
        · omega
        · exact hm
      have hmod : k % m = k - n * m := by
        have := Nat.div_add_mod k m
        rw [hdiv, Nat.mul_comm] at this
        omega
      rw [List.getElem?_append_right (by rw [length_flatMap_range hrow]; omega),
        length_flatMap_range hrow, hdiv, hmod]

end Rows

theorem length_numerals (radices : List Nat) : (numerals radices).length = radices.prod := by
  induction radices with
  | nil => rfl
  | cons radix radices ih =>
    rw [numerals, length_flatMap_range (m := radices.prod), List.prod_cons]
    intro d
    rw [List.length_map, ih]

/-- A numeral has a digit for each radix. -/
theorem length_of_mem_numerals {radices path : List Nat} (h : path ∈ numerals radices) :
    path.length = radices.length := by
  induction radices generalizing path with
  | nil =>
    obtain rfl := List.mem_singleton.mp h
    rfl
  | cons radix radices ih =>
    obtain ⟨d, -, hd⟩ := List.mem_flatMap.mp h
    obtain ⟨ds, hds, rfl⟩ := List.mem_map.mp hd
    rw [List.length_cons, List.length_cons, ih hds]

/-- The `i`th numeral of the loops is the one that division finds. -/
theorem getElem?_numerals {radices : List Nat} {i : Nat} (h : i < radices.prod) :
    (numerals radices)[i]? = some (digits radices i) := by
  induction radices generalizing i with
  | nil =>
    obtain rfl : i = 0 := Nat.lt_one_iff.mp h
    rfl
  | cons radix radices ih =>
    rw [List.prod_cons] at h
    have hlen : ∀ d, ((numerals radices).map (d :: ·)).length = radices.prod := by
      intro d
      rw [List.length_map, length_numerals]
    have hpos : 0 < radices.prod := Nat.pos_of_lt_mul_left h
    rw [numerals, getElem?_flatMap_range hlen h, List.getElem?_map, ih (Nat.mod_lt i hpos)]
    rfl

theorem ofDigits_digits {radices : List Nat} {i : Nat} (h : i < radices.prod) :
    ofDigits radices (digits radices i) = i := by
  induction radices generalizing i with
  | nil => exact (Nat.lt_one_iff.mp h).symm
  | cons radix radices ih =>
    rw [List.prod_cons] at h
    have hpos : 0 < radices.prod := Nat.pos_of_lt_mul_left h
    rw [digits, ofDigits, ih (Nat.mod_lt i hpos), Nat.mul_comm, Nat.div_add_mod]

/-- Two numbers with the same digits are the same. -/
theorem digits_inj {radices : List Nat} {i j : Nat} (hi : i < radices.prod)
    (hj : j < radices.prod) (h : digits radices i = digits radices j) : i = j := by
  rw [← ofDigits_digits hi, ← ofDigits_digits hj, h]

end Hfm.Support

import Hfm.Monitors.Callbacks

/-!
# Strings in a buffer

What shows of the bytes in a `char [STR_BUFF]` after `strncpy`, which writes no NUL behind a
string that is as long as its room.
-/

namespace Hfm

lemma cString_append {a : List UInt8} (b : List UInt8) (ha : 0 ∉ a) :
    cString (a ++ b) = a ++ cString b := by
  unfold cString
  apply List.takeWhile_append_of_pos
  intro c hc
  rw [decide_eq_true_eq]
  exact fun hzero => ha (hzero ▸ hc)

lemma cString_append_nul (a b : List UInt8) : cString (a ++ 0 :: b) = cString a := by
  unfold cString
  rw [List.takeWhile_append]
  by_cases h : (a.takeWhile (· ≠ 0)).length = a.length
  · rw [if_pos h, List.takeWhile_cons_of_neg (by decide), List.append_nil,
      (List.takeWhile_sublist _).eq_of_length h]
  · rw [if_neg h]

lemma cString_length_le (a : List UInt8) : (cString a).length ≤ a.length :=
  (List.takeWhile_sublist _).length_le

/-- The bytes that `strncpy` writes: a string, and zeros. -/
lemma takeD_eq_append {a : List UInt8} {n : Nat} (h : a.length ≤ n) :
    a.takeD n 0 = a ++ List.replicate (n - a.length) 0 := by
  induction a generalizing n with
  | nil => rw [List.takeD_nil, List.length_nil, Nat.sub_zero, List.nil_append]
  | cons c a ih =>
    obtain ⟨n, rfl⟩ := Nat.exists_eq_add_of_le' (Nat.succ_le_of_lt (Nat.lt_of_lt_of_le
      (Nat.zero_lt_succ _) h))
    rw [List.length_cons, Nat.succ_le_succ_iff] at h
    rw [List.takeD_succ, List.head?_cons, Option.getD_some, List.tail_cons, ih h, List.length_cons,
      Nat.add_sub_add_right, List.cons_append]

/-- The zeros behind a string do not show. -/
lemma cString_zeros {a : List UInt8} {n : Nat} (h : 0 ∉ a) :
    cString (a ++ List.replicate n 0) = a := by
  cases n with
  | zero => rw [List.replicate_zero, List.append_nil, cString_of_nul h]
  | succ n => rw [List.replicate_succ, cString_append_nul, cString_of_nul h]

lemma strrchr_of_notMem {s : CStr} {c : UInt8} (h : c ∉ s) : strrchr s c = none := by
  unfold strrchr
  rw [List.idxOf?_eq_none_iff.mpr (by rwa [List.mem_reverse]), Option.map_none]

lemma strrchr_append {u v : CStr} {c : UInt8} (h : c ∉ v) :
    strrchr (u ++ c :: v) c = some u.length := by
  have hidx : (u ++ c :: v).reverse.idxOf? c = some v.length := by
    rw [List.reverse_append, List.reverse_cons, List.append_assoc, List.singleton_append,
      List.idxOf?_eq_some_iff]
    refine ⟨?_, ?_, ?_⟩
    · rw [List.length_append, List.length_reverse, List.length_cons]
      omega
    · rw [List.getElem_append_right (by rw [List.length_reverse])]
      simp only [List.length_reverse, Nat.sub_self, List.getElem_cons_zero]
    · intro j hj heq
      rw [List.getElem_append_left (by rwa [List.length_reverse])] at heq
      exact h (List.mem_reverse.mp (heq ▸ List.getElem_mem _))
  rw [strrchr, hidx, Option.map_some, List.length_append, List.length_cons]
  congr 1
  omega

/-- The last `c` of a list. -/
lemma exists_last {α : Type} {s : List α} {c : α} (h : c ∈ s) :
    ∃ u v, s = u ++ c :: v ∧ c ∉ v := by
  obtain ⟨v, u, hs, hv⟩ := List.eq_append_cons_of_mem (List.mem_reverse.mpr h)
  refine ⟨u.reverse, v.reverse, ?_, fun hmem => hv (List.mem_reverse.mp hmem)⟩
  rw [← List.reverse_reverse s, hs, List.reverse_append, List.reverse_cons, List.append_assoc,
    List.singleton_append]

lemma cString_takeD (a : List UInt8) : cString ((cString a).takeD a.length 0) = cString a := by
  rw [takeD_eq_append (cString_length_le a), cString_zeros (nul_notMem_cString a)]

lemma cString_length_lt {a : List UInt8} (h : 0 ∈ a) : (cString a).length < a.length := by
  apply Nat.lt_of_le_of_ne (cString_length_le a)
  intro heq
  have hself : cString a = a := (List.takeWhile_sublist _).eq_of_length heq
  exact nul_notMem_cString a (hself.symm ▸ h)

/-- The name behind the directory, in a buffer where the rest of the path of the image was. -/
lemma cString_named {dir v name : List UInt8} {k : Nat} (hdir : 0 ∉ dir) (hv : 0 ∉ v) :
    cString (dir ++ (cString name).takeD name.length 0 ++
        (0 :: (v ++ List.replicate k 0).drop 1).drop name.length) =
      dir ++ cString name ++ if name = [] ∨ 0 ∈ name then [] else v.drop name.length := by
  by_cases hnil : name = []
  · subst hnil
    rw [if_pos (.inl rfl)]
    change cString (dir ++ [] ++ 0 :: _) = dir ++ [] ++ []
    rw [cString_append_nul, List.append_nil, List.append_nil, cString_of_nul hdir]
  · by_cases hnul : 0 ∈ name
    · have hlt := cString_length_lt hnul
      obtain ⟨m, hm⟩ := Nat.exists_eq_add_of_lt hlt
      have hpad : name.length - (cString name).length = m + 1 := by omega
      rw [if_pos (.inr hnul), takeD_eq_append (cString_length_le name), hpad, List.replicate_succ,
        ← List.append_assoc, List.append_assoc (dir ++ cString name), List.cons_append,
        cString_append_nul, List.append_nil, cString_append _ hdir,
        cString_of_nul (nul_notMem_cString name)]
    · obtain ⟨m, hm⟩ := Nat.exists_eq_add_of_lt (List.length_pos_of_ne_nil hnil)
      rw [Nat.zero_add] at hm
      have hrest : cString ((v ++ List.replicate k 0).drop name.length) = v.drop name.length := by
        rw [List.drop_append, List.drop_replicate,
          cString_zeros (fun hmem => hv (List.mem_of_mem_drop hmem))]
      have hdrop : (0 :: (v ++ List.replicate k 0).drop 1).drop name.length =
          (v ++ List.replicate k 0).drop name.length := by
        rw [hm, List.drop_succ_cons, List.drop_drop, Nat.add_comm]
      have hboth : 0 ∉ dir ++ name := by
        rw [List.mem_append]
        exact fun h => h.elim hdir hnul
      rw [if_neg (fun h => h.elim hnil hnul), cString_of_nul hnul,
        List.takeD_eq_take _ (Nat.le_refl _), List.take_length, hdrop, cString_append _ hboth, hrest]

lemma Buffer.strncpy_ok (buffer : Buffer) {off n : Nat} (src : List UInt8) (h : off + n ≤ STR_BUFF) :
    ∃ b, buffer.strncpy off src n = .ok b ∧
      b.bytes = buffer.bytes.takeD off 0 ++ (cString src).takeD n 0 ++ buffer.bytes.drop (off + n) := by
  have hlen : (buffer.bytes.takeD off 0 ++ (cString src).takeD n 0 ++
      buffer.bytes.drop (off + n)).length ≤ STR_BUFF := by
    have := buffer.le
    rw [List.length_append, List.length_append, List.takeD_length, List.takeD_length,
      List.length_drop]
    omega
  unfold Buffer.strncpy
  dsimp only
  rw [dif_pos hlen]
  exact ⟨_, rfl, rfl⟩

lemma Buffer.string_ok {buffer : Buffer} {str : CStr} (hstr : cString buffer.bytes = str)
    (h : str.length < STR_BUFF) : ∃ a, buffer.string = .ok a ∧ a.str = str := by
  subst hstr
  unfold Buffer.string
  dsimp only
  rw [dif_pos h]
  exact ⟨_, rfl, rfl⟩

lemma Buffer.strncpy_error (buffer : Buffer) {off n : Nat} (src : List UInt8)
    (h : STR_BUFF < off + n) : buffer.strncpy off src n = .error .outOfBounds := by
  apply dif_neg
  rw [List.length_append, List.length_append, List.takeD_length, List.takeD_length]
  omega

lemma Buffer.string_error {buffer : Buffer} (h : STR_BUFF ≤ (cString buffer.bytes).length) :
    buffer.string = .error .outOfBounds :=
  dif_neg (Nat.not_lt.mpr h)

end Hfm

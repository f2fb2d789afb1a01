import Mathlib.Data.Nat.Digits.Lemmas

/-!
# Decimal numbers and separated text

Texts are lists of bytes. Numbers are written in decimal as `printf` writes them, and read
back; a separated text has one part more than separators. Tokens are the parts that are not
empty.
-/

namespace Hfm.Support

/-! ### Numbers -/

def digitByte (d : Nat) : UInt8 := 0x30 + d.toUInt8

def isDigit (c : UInt8) : Bool := 0x30 ≤ c && c ≤ 0x39

def decimal (n : Nat) : List UInt8 :=
  if n = 0 then [0x30] else ((Nat.digits 10 n).map digitByte).reverse

def signedDecimal (n : Int) : List UInt8 :=
  if n < 0 then 0x2d :: decimal n.natAbs else decimal n.natAbs

/-- The number that a nonempty list of digits denotes. -/
def readDecimal (s : List UInt8) : Option Nat :=
  if s ≠ [] ∧ s.all isDigit then
    some (Nat.ofDigits 10 (s.reverse.map fun c => c.toNat - 0x30))
  else none

def readSigned : List UInt8 → Option Int
  | 0x2d :: s => (readDecimal s).map fun n : Nat => -(n : Int)
  | s => (readDecimal s).map Int.ofNat

lemma digitByte_toNat : ∀ d < 10, (digitByte d).toNat - 0x30 = d ∧ isDigit (digitByte d) = true := by
  decide

lemma mem_decimal {n : Nat} {c : UInt8} (h : c ∈ decimal n) : isDigit c = true := by
  unfold decimal at h
  split at h
  · rw [List.mem_singleton.mp h]
    decide
  · rw [List.mem_reverse, List.mem_map] at h
    obtain ⟨d, hd, rfl⟩ := h
    exact (digitByte_toNat d (Nat.digits_lt_base (by omega) hd)).2

lemma decimal_ne_nil (n : Nat) : decimal n ≠ [] := by
  unfold decimal
  split
  · exact List.cons_ne_nil _ _
  · rename_i hn
    simpa [Nat.digits_eq_nil_iff_eq_zero] using hn

/-- There is no zero in front of another digit. -/
lemma head_decimal (n : Nat) : decimal n = [0x30] ∨ (decimal n).head? ≠ some 0x30 := by
  unfold decimal
  by_cases hn : n = 0
  · exact .inl (if_pos hn)
  · right
    have hne : Nat.digits 10 n ≠ [] := Nat.digits_ne_nil_iff_ne_zero.mpr hn
    have hlast := Nat.getLast_digit_ne_zero 10 hn
    have hlt := Nat.digits_lt_base (b := 10) (m := n) (by decide) (List.getLast_mem hne)
    rw [if_neg hn, List.head?_reverse, List.getLast?_map, List.getLast?_eq_some_getLast hne,
      Option.map_some, ne_eq, Option.some_inj]
    intro hzero
    have hback := (digitByte_toNat _ hlt).1
    rw [hzero] at hback
    exact hlast hback.symm

@[simp] lemma readDecimal_decimal (n : Nat) : readDecimal (decimal n) = some n := by
  have hdigits : (decimal n).all isDigit = true := by
    rw [List.all_eq_true]
    exact fun c hc => mem_decimal hc
  rw [readDecimal, if_pos ⟨decimal_ne_nil n, hdigits⟩, Option.some_inj]
  unfold decimal
  split
  · rename_i hn
    subst hn
    rfl
  · have hback : (Nat.digits 10 n).map ((fun c : UInt8 => c.toNat - 0x30) ∘ digitByte) =
        Nat.digits 10 n := by
      conv_rhs => rw [← List.map_id (Nat.digits 10 n)]
      apply List.map_congr_left
      exact fun d hd => (digitByte_toNat d (Nat.digits_lt_base (by omega) hd)).1
    rw [List.reverse_reverse, List.map_map, hback, Nat.ofDigits_digits]

lemma mem_signedDecimal {n : Int} {c : UInt8} (h : c ∈ signedDecimal n) :
    isDigit c = true ∨ c = 0x2d := by
  unfold signedDecimal at h
  split at h
  · rcases List.mem_cons.mp h with rfl | h
    · exact .inr rfl
    · exact .inl (mem_decimal h)
  · exact .inl (mem_decimal h)

@[simp] lemma readSigned_signedDecimal (n : Int) : readSigned (signedDecimal n) = some n := by
  unfold signedDecimal
  split
  · rename_i hn
    rw [readSigned, readDecimal_decimal, Option.map_some, Option.some_inj]
    omega
  · rename_i hn
    have hread : readSigned (decimal n.natAbs) = some (n.natAbs : Int) := by
      unfold readSigned
      split
      · rename_i s heq
        have := mem_decimal (heq ▸ List.mem_cons_self : (0x2d : UInt8) ∈ decimal n.natAbs)
        exact absurd this (by decide)
      · rw [readDecimal_decimal, Option.map_some]
        rfl
    rw [hread, Option.some_inj]
    omega

/-! ### Separators -/

/-- A separator behind each part is one in front of each, but for the first and the last. -/
lemma append_flatMap {α β : Type} (sep : List α) (f : β → List α) (l : List β) :
    sep ++ l.flatMap (f · ++ sep) = l.flatMap (sep ++ f ·) ++ sep := by
  induction l with
  | nil => exact List.append_nil sep
  | cons b l ih =>
    rw [List.flatMap_cons, List.flatMap_cons, List.append_assoc (f b), ih, List.append_assoc,
      ← List.append_assoc sep]

section Separators

variable {α : Type} [BEq α]

lemma length_splitOn (x : α) (l : List α) : (l.splitOn x).length = l.count x + 1 := by
  induction l with
  | nil => rfl
  | cons y l ih =>
    rw [List.splitOn_cons_eq_if_modifyHead, List.count_cons]
    split
    · rw [List.length_cons, ih]
    · rw [List.length_modifyHead, ih, Nat.add_zero]

/-- Parts without the separator, each with one behind it. -/
lemma splitOn_flatMap [LawfulBEq α] {x : α} {parts : List (List α)} (h : ∀ l ∈ parts, x ∉ l) :
    (parts.flatMap (· ++ [x])).splitOn x = parts ++ [[]] := by
  induction parts with
  | nil => rfl
  | cons l parts ih =>
    rw [List.flatMap_cons, List.append_assoc, List.singleton_append,
      List.splitOn_append_cons_self_of_not_mem (h l List.mem_cons_self),
      ih fun l' hl' => h l' (List.mem_cons_of_mem _ hl')]
    rfl

lemma length_le_count_flatMap [LawfulBEq α] (x : α) (parts : List (List α)) :
    parts.length ≤ (parts.flatMap (· ++ [x])).count x := by
  induction parts with
  | nil => exact Nat.le_refl _
  | cons l parts ih =>
    rw [List.flatMap_cons, List.count_append, List.count_append, List.count_singleton_self,
      List.length_cons]
    omega

/-- There are as many separators as parts exactly if no part holds one. -/
lemma count_flatMap_eq_iff [LawfulBEq α] (x : α) (parts : List (List α)) :
    (parts.flatMap (· ++ [x])).count x = parts.length ↔ ∀ l ∈ parts, x ∉ l := by
  induction parts with
  | nil => simp
  | cons l parts ih =>
    have hle := length_le_count_flatMap x parts
    rw [List.flatMap_cons, List.count_append, List.count_append, List.count_singleton_self,
      List.length_cons, List.forall_mem_cons, ← ih, ← List.count_eq_zero]
    omega

lemma length_le_count_intercalate [LawfulBEq α] (x : α) (parts : List (List α)) :
    parts.length ≤ ([x].intercalate parts).count x + 1 := by
  induction parts with
  | nil => exact Nat.zero_le _
  | cons l parts ih =>
    cases parts with
    | nil => simp
    | cons l' parts =>
      rw [List.intercalate_cons_cons, List.count_append, List.count_append,
        List.count_singleton_self, List.length_cons]
      omega

lemma count_intercalate_eq_iff [LawfulBEq α] (x : α) {parts : List (List α)} (hne : parts ≠ []) :
    ([x].intercalate parts).count x + 1 = parts.length ↔ ∀ l ∈ parts, x ∉ l := by
  induction parts with
  | nil => exact absurd rfl hne
  | cons l parts ih =>
    cases parts with
    | nil => simp [List.count_eq_zero]
    | cons l' parts =>
      have hle := length_le_count_intercalate x (l' :: parts)
      rw [List.intercalate_cons_cons, List.count_append, List.count_append,
        List.count_singleton_self, List.length_cons, List.forall_mem_cons,
        ← ih (List.cons_ne_nil _ _), ← List.count_eq_zero]
      omega

end Separators

/-! ### Tokens -/

section Tokens

variable {α β : Type} {p q : α → Bool}

/-- The longest parts without separators, empty ones left out. -/
def tokens (p : α → Bool) (s : List α) : List (List α) := (s.splitOnP p).filter (!·.isEmpty)

lemma tokens_append_cons (s s' : List α) {c : α} (hc : p c = true) :
    tokens p (s ++ c :: s') = tokens p s ++ tokens p s' := by
  unfold tokens
  rw [List.splitOnP_append_cons s s' hc, List.filter_append]

lemma tokens_cons_sep {c : α} (hc : p c = true) (s : List α) : tokens p (c :: s) = tokens p s :=
  tokens_append_cons [] s hc

lemma tokens_dropWhile (hq : ∀ c, q c = true → p c = true) (s : List α) :
    tokens p (s.dropWhile q) = tokens p s := by
  induction s with
  | nil => rfl
  | cons c s ih =>
    rw [List.dropWhile_cons]
    split
    · rename_i hc
      rw [ih, tokens_cons_sep (hq c hc)]
    · rfl

lemma tokens_singleton {s : List α} (hs : ∀ c ∈ s, p c = false) (hne : s ≠ []) :
    tokens p s = [s] := by
  unfold tokens
  rw [List.splitOnP_eq_singleton hs]
  simp [hne]

lemma tokens_of_seps {s : List α} (hs : ∀ c ∈ s, p c = true) : tokens p s = [] := by
  induction s with
  | nil => rfl
  | cons c s ih =>
    rw [tokens_cons_sep (hs c List.mem_cons_self)]
    exact ih fun d hd => hs d (List.mem_cons_of_mem _ hd)

lemma tokens_append_seps (s : List α) {e : List α} (he : ∀ c ∈ e, p c = true) :
    tokens p (s ++ e) = tokens p s := by
  cases e with
  | nil => rw [List.append_nil]
  | cons c e =>
    rw [tokens_append_cons s e (he c List.mem_cons_self),
      tokens_of_seps fun d hd => he d (List.mem_cons_of_mem _ hd), List.append_nil]

lemma tokens_congr {s : List α} (h : ∀ c ∈ s, p c = q c) : tokens p s = tokens q s := by
  unfold tokens
  congr 1
  induction s with
  | nil => rfl
  | cons c s ih =>
    rw [List.splitOnP_cons_eq_if_modifyHead, List.splitOnP_cons_eq_if_modifyHead,
      h c List.mem_cons_self, ih fun d hd => h d (List.mem_cons_of_mem _ hd)]

/-- The first token, with what is left behind the separator that ends it. -/
lemma tokens_split (s : List α) : tokens p s =
    match s.dropWhile p with
    | [] => []
    | c :: s' => (c :: s').takeWhile (!p ·) :: tokens p (((c :: s').dropWhile (!p ·)).drop 1) := by
  rw [← tokens_dropWhile fun _ h => h]
  cases hs : s.dropWhile p with
  | nil => rfl
  | cons c s' =>
    dsimp only
    have hc : p c = false := by
      have hne : s.dropWhile p ≠ [] := by rw [hs]; exact List.cons_ne_nil _ _
      have hhead := List.head_dropWhile_not p hne
      simpa [hs] using hhead
    have htake : ∀ d ∈ (c :: s').takeWhile (!p ·), p d = false := by
      intro d hd
      have hall := List.all_eq_true.mp List.all_takeWhile d hd
      simpa using hall
    have hne : (c :: s').takeWhile (!p ·) ≠ [] := by simp [hc]
    conv_lhs => rw [← List.takeWhile_append_dropWhile (p := (!p ·)) (l := c :: s')]
    cases hd : (c :: s').dropWhile (!p ·) with
    | nil =>
      rw [List.append_nil, tokens_singleton htake hne]
      rfl
    | cons d s'' =>
      have hsep : p d = true := by
        have hne' : (c :: s').dropWhile (!p ·) ≠ [] := by rw [hd]; exact List.cons_ne_nil _ _
        have hhead := List.head_dropWhile_not (!p ·) hne'
        simpa [hd] using hhead
      rw [tokens_append_cons _ _ hsep, tokens_singleton htake hne]
      rfl

lemma splitOnP_or (s : List α) :
    s.splitOnP (fun c => p c || q c) = (s.splitOnP p).flatMap (List.splitOnP q) := by
  induction s with
  | nil => rfl
  | cons c s ih =>
    rw [List.splitOnP_cons_eq_if_modifyHead, List.splitOnP_cons_eq_if_modifyHead, ih]
    cases hp : p c with
    | true => simp
    | false =>
      obtain ⟨part, parts, hparts⟩ := List.exists_cons_of_ne_nil (List.splitOnP_ne_nil p s)
      rw [hparts, Bool.false_or, if_neg Bool.false_ne_true, List.modifyHead_cons, List.flatMap_cons,
        List.flatMap_cons, List.splitOnP_cons_eq_if_modifyHead]
      cases hq : q c with
      | true => simp
      | false =>
        obtain ⟨sub, subs, hsubs⟩ := List.exists_cons_of_ne_nil (List.splitOnP_ne_nil q part)
        rw [hsubs]
        simp

/-- Splitting tokens further. -/
lemma tokens_or (s : List α) :
    tokens (fun c => p c || q c) s = (tokens p s).flatMap (tokens q) := by
  unfold tokens
  rw [splitOnP_or, List.filter_flatMap]
  induction s.splitOnP p with
  | nil => rfl
  | cons part parts ih =>
    rw [List.flatMap_cons, ih, List.filter_cons]
    cases part with
    | nil => rfl
    | cons c part => rfl

/-- More text changes the last part only. -/
lemma splitOnP_append (a b : List α) : ∃ init l more rest,
    a.splitOnP p = init ++ [l] ∧ (a ++ b).splitOnP p = init ++ (l ++ more) :: rest := by
  induction a with
  | nil =>
    obtain ⟨part, parts, hparts⟩ := List.exists_cons_of_ne_nil (List.splitOnP_ne_nil p b)
    exact ⟨[], [], part, parts, by simp, by simp [hparts]⟩
  | cons c a ih =>
    obtain ⟨init, l, more, rest, ha, hab⟩ := ih
    rw [List.cons_append, List.splitOnP_cons_eq_if_modifyHead, List.splitOnP_cons_eq_if_modifyHead,
      ha, hab]
    cases p c with
    | true => exact ⟨[] :: init, l, more, rest, rfl, rfl⟩
    | false =>
      cases init with
      | nil => exact ⟨[], c :: l, more, rest, rfl, rfl⟩
      | cons i init => exact ⟨(c :: i) :: init, l, more, rest, rfl, rfl⟩

/-- More text keeps every token but the last one, which may become longer. -/
lemma tokens_append {a : List α} (b : List α) (h : tokens p a ≠ []) :
    ∃ t ts, tokens p (a ++ b) = (tokens p a).dropLast ++ t :: ts := by
  obtain ⟨init, l, more, rest, ha, hab⟩ := splitOnP_append (p := p) a b
  unfold tokens at h ⊢
  rw [ha, List.filter_append] at h
  rw [ha, hab, List.filter_append, List.filter_append]
  cases l with
  | nil =>
    have hne : init.filter (!·.isEmpty) ≠ [] := by simpa using h
    obtain ⟨front, t, hfront⟩ : ∃ front t, init.filter (!·.isEmpty) = front ++ [t] :=
      ⟨_, _, (List.dropLast_concat_getLast hne).symm⟩
    refine ⟨t, (([] ++ more) :: rest).filter (!·.isEmpty), ?_⟩
    rw [hfront]
    simp
  | cons c l =>
    refine ⟨c :: l ++ more, rest.filter (!·.isEmpty), ?_⟩
    simp

/-! ### Separators side by side -/

/-- Two separators stand side by side. -/
def Adjacent (p : α → Bool) (s : List α) : Prop :=
  ∃ u a b v, p a = true ∧ p b = true ∧ s = u ++ a :: b :: v

lemma not_adjacent_nil : ¬Adjacent p ([] : List α) := by
  rintro ⟨u, a, b, v, -, -, h⟩
  cases u with
  | nil => cases h
  | cons c u => cases h

lemma adjacent_cons {c : α} {s : List α} : Adjacent p (c :: s) ↔
    (p c = true ∧ ∃ d s', s = d :: s' ∧ p d = true) ∨ Adjacent p s := by
  constructor
  · rintro ⟨u, a, b, v, ha, hb, h⟩
    cases u with
    | nil =>
      obtain ⟨rfl, rfl⟩ := List.cons.inj h
      exact .inl ⟨ha, b, v, rfl, hb⟩
    | cons e u =>
      obtain ⟨rfl, rfl⟩ := List.cons.inj h
      exact .inr ⟨u, a, b, v, ha, hb, rfl⟩
  · rintro (⟨hc, d, s', rfl, hd⟩ | ⟨u, a, b, v, ha, hb, rfl⟩)
    · exact ⟨[], c, d, s', hc, hd, rfl⟩
    · exact ⟨c :: u, a, b, v, ha, hb, rfl⟩

/-- An empty part is in front of a separator at the start, or between two side by side. -/
lemma nil_mem_parts (s : List α) :
    ([] ∈ (s.splitOnP p).tail.dropLast ↔ Adjacent p s) ∧
      ([] ∈ (s.splitOnP p).dropLast ↔ (∃ c s', s = c :: s' ∧ p c = true) ∨ Adjacent p s) := by
  induction s with
  | nil =>
    rw [List.splitOnP_nil]
    simp [not_adjacent_nil]
  | cons c s ih =>
    obtain ⟨l, ls, hl⟩ := List.exists_cons_of_ne_nil (List.splitOnP_ne_nil p s)
    rw [List.splitOnP_cons_eq_if_modifyHead, adjacent_cons]
    cases hc : p c with
    | true =>
      rw [if_pos rfl, List.tail_cons, ih.2]
      refine ⟨by simp, iff_of_true ?_ (.inl ⟨c, s, rfl, hc⟩)⟩
      rw [hl]
      exact List.mem_cons_self
    | false =>
      rw [hl] at ih
      rw [if_neg Bool.false_ne_true, hl, List.modifyHead_cons]
      have htail : [] ∈ ls.dropLast ↔ Adjacent p s := ih.1
      refine ⟨by simpa using htail, ?_⟩
      cases ls with
      | nil => simpa [hc] using htail
      | cons m ls => simpa [hc] using htail

/-- Where no other part is empty, the tokens are the parts in front of the first empty one. -/
lemma takeWhile_parts {ls : List (List α)} (h : [] ∉ ls.dropLast) :
    ls.takeWhile (!·.isEmpty) = ls.filter (!·.isEmpty) := by
  induction ls with
  | nil => rfl
  | cons l ls ih =>
    cases ls with
    | nil => rw [List.takeWhile_cons, List.filter_cons, List.takeWhile_nil, List.filter_nil]
    | cons m ls =>
      rw [List.dropLast_cons_cons, List.mem_cons, not_or] at h
      have hl : (fun l : List α => !l.isEmpty) l = true := by
        cases l with
        | nil => exact absurd rfl h.1
        | cons c l => rfl
      rw [List.takeWhile_cons, List.filter_cons, if_pos hl, if_pos hl, ih h.2]

lemma takeWhile_prefix_filter (q : β → Bool) (l : List β) : l.takeWhile q <+: l.filter q := by
  induction l with
  | nil => exact List.nil_prefix
  | cons a l ih =>
    cases ha : q a with
    | true =>
      rw [List.takeWhile_cons_of_pos ha, List.filter_cons_of_pos ha]
      exact (List.prefix_cons_inj a).mpr ih
    | false =>
      rw [List.takeWhile_cons_of_neg (by simp [ha])]
      exact List.nil_prefix

end Tokens

end Hfm.Support

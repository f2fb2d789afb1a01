import Hfm.Outputs.Es
import Hfm.Policy

/-!
# The escaped path in its array

`_escape` of `src/outputs/es.c`, store by store. Its bound is one of the source.
-/

namespace Hfm

open Support Json

/-- `dest[i] = c`. -/
def storeByte (dest : Vector UInt8 STR_BUFF) (i : Nat) (c : UInt8) :
    Except Fault (Vector UInt8 STR_BUFF) :=
  if h : i < STR_BUFF then .ok (dest.set i c h) else .error .outOfBounds

/-- The loop of `_escape` and its last store, on the bytes from `*sptr` on; `sptr` and `dptr` are the
distances from the two arrays. -/
def escapeLoop (maxlen : Nat) : List UInt8 → Nat → Nat → Vector UInt8 STR_BUFF →
    Except Fault (Vector UInt8 STR_BUFF)
  | [], _, _, _ => .error .outOfBounds
  | c :: source, sptr, dptr, dest =>
    if c ≠ 0 ∧ sptr < maxlen then
      if c = BACKSLASH then do
        let dest ← storeByte dest dptr BACKSLASH
        let dest ← storeByte dest (dptr + 1) BACKSLASH
        escapeLoop maxlen source (sptr + 1) (dptr + 2) dest
      else do
        let dest ← storeByte dest dptr c
        escapeLoop maxlen source (sptr + 1) (dptr + 1) dest
    else storeByte dest dptr c

/-- `_escape` into the array of `out_es_write`. -/
def escapeArray (source : List UInt8) (dest : Vector UInt8 STR_BUFF) (maxlen : Nat) :
    Except Fault (Vector UInt8 STR_BUFF) := do
  let dest ← storeByte dest 0 0
  escapeLoop maxlen source 0 0 dest

/-- A string with every doubled backslash halved. -/
def halve : CStr → CStr
  | [] => []
  | [c] => [c]
  | c :: d :: s => if c = BACKSLASH ∧ d = BACKSLASH then c :: halve s else c :: halve (d :: s)

/-- All stores are inside the array, and the string that they leave there is the source with its
backslashes doubled. -/
def EscapeRight (source : CharArray STR_BUFF) (dest : Vector UInt8 STR_BUFF) : Prop :=
  ∃ dest', escapeArray (source.str ++ [0]) dest STR_BUFF = .ok dest' ∧ 0 ∈ dest'.toList ∧
    halve (cString dest'.toList) = source.str

/-! ### The text -/

lemma escapeBytes_cons (c : UInt8) (s : CStr) :
    escapeBytes (c :: s) = (if c = BACKSLASH then [BACKSLASH, BACKSLASH] else [c]) ++ escapeBytes s :=
  rfl

lemma length_escapeBytes (s : CStr) :
    (escapeBytes s).length = s.length + s.count BACKSLASH := by
  induction s with
  | nil => rfl
  | cons c s ih =>
    rw [escapeBytes_cons, List.length_append, ih, List.length_cons, List.count_cons]
    by_cases hc : c = BACKSLASH
    · rw [if_pos hc, if_pos (beq_iff_eq.mpr hc), List.length_cons, List.length_singleton]
      omega
    · rw [if_neg hc, if_neg (fun h => hc (beq_iff_eq.mp h)), List.length_singleton]
      omega

lemma zero_notMem_escapeBytes {s : CStr} (h : 0 ∉ s) : 0 ∉ escapeBytes s := by
  induction s with
  | nil => exact h
  | cons c s ih =>
    rw [List.mem_cons, not_or] at h
    rw [escapeBytes_cons, List.mem_append, not_or]
    refine ⟨?_, ih h.2⟩
    split
    · decide
    · exact fun hmem => h.1 (List.mem_singleton.mp hmem)

lemma halve_cons {c : UInt8} (hc : c ≠ BACKSLASH) (s : CStr) : halve (c :: s) = c :: halve s := by
  cases s with
  | nil => rfl
  | cons d s => rw [halve, if_neg fun h => hc h.1]

lemma halve_escapeBytes (s : CStr) : halve (escapeBytes s) = s := by
  induction s with
  | nil => rfl
  | cons c s ih =>
    rw [escapeBytes_cons]
    by_cases hc : c = BACKSLASH
    · rw [if_pos hc, hc]
      exact (if_pos ⟨rfl, rfl⟩).trans (congrArg _ ih)
    · rw [if_neg hc, List.singleton_append, halve_cons hc, ih]

/-! ### The stores -/

lemma storeByte_ok (dest : Vector UInt8 STR_BUFF) {i : Nat} (c : UInt8) (h : i < STR_BUFF) :
    ∃ dest', storeByte dest i c = .ok dest' ∧
      dest'.toList.take (i + 1) = dest.toList.take i ++ [c] := by
  refine ⟨dest.set i c h, dif_pos h, ?_⟩
  rw [Vector.toList_set, List.take_add_one, List.take_set_of_le le_rfl, List.getElem?_set_self]
  · rfl
  · rw [Vector.length_toList]
    exact h

lemma storeByte_error (dest : Vector UInt8 STR_BUFF) {i : Nat} (c : UInt8) (h : STR_BUFF ≤ i) :
    storeByte dest i c = .error .outOfBounds :=
  dif_neg (Nat.not_lt.mpr h)

/-- With room for the escaped bytes and their NUL, the loop leaves them behind the first `dptr`
bytes. -/
lemma escapeLoop_ok {maxlen : Nat} {source : CStr} {sptr dptr : Nat}
    {dest : Vector UInt8 STR_BUFF} (hnul : 0 ∉ source) (hlen : sptr + source.length < maxlen)
    (hroom : dptr + (escapeBytes source).length < STR_BUFF) :
    ∃ dest', escapeLoop maxlen (source ++ [0]) sptr dptr dest = .ok dest' ∧
      dest'.toList.take (dptr + (escapeBytes source).length + 1) =
        dest.toList.take dptr ++ escapeBytes source ++ [0] := by
  induction source generalizing sptr dptr dest with
  | nil =>
    obtain ⟨dest', hstore, htake⟩ := storeByte_ok dest 0 hroom
    refine ⟨dest', hstore, htake.trans ?_⟩
    rw [show escapeBytes [] = [] from rfl, List.append_nil]
    rfl
  | cons c source ih =>
    rw [List.mem_cons, not_or] at hnul
    rw [List.length_cons] at hlen
    rw [escapeBytes_cons, List.length_append] at hroom
    rw [List.cons_append, escapeLoop, if_pos ⟨Ne.symm hnul.1, by omega⟩, escapeBytes_cons]
    by_cases hc : c = BACKSLASH
    · rw [if_pos hc] at hroom ⊢
      rw [if_pos hc]
      change dptr + (2 + _) < _ at hroom
      obtain ⟨dest₁, hstore₁, htake₁⟩ := storeByte_ok dest BACKSLASH (show dptr < STR_BUFF by omega)
      obtain ⟨dest₂, hstore₂, htake₂⟩ :=
        storeByte_ok dest₁ BACKSLASH (show dptr + 1 < STR_BUFF by omega)
      obtain ⟨dest', hloop, htake⟩ :=
        @ih (sptr + 1) (dptr + 2) dest₂ hnul.2 (by omega) (by omega)
      refine ⟨dest', bind_eq_ok.mpr ⟨dest₁, hstore₁, bind_eq_ok.mpr ⟨dest₂, hstore₂, hloop⟩⟩, ?_⟩
      rw [htake₂, htake₁, Nat.add_assoc] at htake
      rw [List.length_append, ← Nat.add_assoc dptr]
      rw [← Nat.add_assoc] at htake
      refine htake.trans ?_
      simp only [List.append_assoc, List.cons_append, List.nil_append]
    · rw [if_neg hc] at hroom ⊢
      rw [if_neg hc]
      change dptr + (1 + _) < _ at hroom
      obtain ⟨dest₁, hstore₁, htake₁⟩ := storeByte_ok dest c (show dptr < STR_BUFF by omega)
      obtain ⟨dest', hloop, htake⟩ :=
        @ih (sptr + 1) (dptr + 1) dest₁ hnul.2 (by omega) (by omega)
      refine ⟨dest', bind_eq_ok.mpr ⟨dest₁, hstore₁, hloop⟩, ?_⟩
      rw [htake₁] at htake
      rw [List.length_append, ← Nat.add_assoc dptr]
      refine htake.trans ?_
      simp only [List.append_assoc, List.cons_append, List.nil_append]

/-- Without room, a store is behind the end of the array. -/
lemma escapeLoop_error {maxlen : Nat} {source : CStr} {sptr dptr : Nat}
    {dest : Vector UInt8 STR_BUFF} (hnul : 0 ∉ source) (hlen : sptr + source.length < maxlen)
    (hroom : STR_BUFF ≤ dptr + (escapeBytes source).length) :
    escapeLoop maxlen (source ++ [0]) sptr dptr dest = .error .outOfBounds := by
  induction source generalizing sptr dptr dest with
  | nil => exact storeByte_error dest 0 hroom
  | cons c source ih =>
    rw [List.mem_cons, not_or] at hnul
    rw [List.length_cons] at hlen
    rw [escapeBytes_cons, List.length_append] at hroom
    rw [List.cons_append, escapeLoop, if_pos ⟨Ne.symm hnul.1, by omega⟩]
    by_cases hc : c = BACKSLASH
    · rw [if_pos hc] at hroom ⊢
      change _ ≤ dptr + (2 + _) at hroom
      by_cases hfirst : dptr < STR_BUFF
      · obtain ⟨dest₁, hstore₁, -⟩ := storeByte_ok dest BACKSLASH hfirst
        refine bind_eq_error.mpr (.inr ⟨dest₁, hstore₁, ?_⟩)
        by_cases hsecond : dptr + 1 < STR_BUFF
        · obtain ⟨dest₂, hstore₂, -⟩ := storeByte_ok dest₁ BACKSLASH hsecond
          exact bind_eq_error.mpr (.inr ⟨dest₂, hstore₂, ih hnul.2 (by omega) (by omega)⟩)
        · exact bind_eq_error.mpr (.inl (storeByte_error dest₁ BACKSLASH (Nat.not_lt.mp hsecond)))
      · exact bind_eq_error.mpr (.inl (storeByte_error dest BACKSLASH (Nat.not_lt.mp hfirst)))
    · rw [if_neg hc] at hroom ⊢
      change _ ≤ dptr + (1 + _) at hroom
      by_cases hfirst : dptr < STR_BUFF
      · obtain ⟨dest₁, hstore₁, -⟩ := storeByte_ok dest c hfirst
        exact bind_eq_error.mpr (.inr ⟨dest₁, hstore₁, ih hnul.2 (by omega) (by omega)⟩)
      · exact bind_eq_error.mpr (.inl (storeByte_error dest c (Nat.not_lt.mp hfirst)))

/-! ### The array -/

lemma escape_eq_ok {source text : CStr} :
    escape source = .ok text ↔ (escapeBytes source).length < STR_BUFF ∧ text = escapeBytes source := by
  unfold escape
  dsimp only
  split
  · rename_i h
    rw [and_iff_right h, Except.ok.injEq, eq_comm]
  · rename_i h
    exact iff_of_false (fun heq => by cases heq) fun heq => h heq.1

/-- The array holds the text that `escape` returns. -/
lemma escapeArray_ok (source : CharArray STR_BUFF) (dest : Vector UInt8 STR_BUFF) {text : CStr}
    (h : escape source.str = .ok text) :
    ∃ dest', escapeArray (source.str ++ [0]) dest STR_BUFF = .ok dest' ∧ 0 ∈ dest'.toList ∧
      cString dest'.toList = text := by
  obtain ⟨hroom, rfl⟩ := escape_eq_ok.mp h
  obtain ⟨dest₀, hstore, -⟩ := storeByte_ok dest 0 STR_BUFF_pos
  obtain ⟨dest', hloop, htake⟩ := @escapeLoop_ok STR_BUFF source.str 0 0 dest₀ source.nul
    (by rw [Nat.zero_add]; exact source.lt) (by rw [Nat.zero_add]; exact hroom)
  rw [List.take_zero, List.nil_append] at htake
  have hsplit := List.take_append_drop (0 + (escapeBytes source.str).length + 1) dest'.toList
  rw [htake] at hsplit
  refine ⟨dest', bind_eq_ok.mpr ⟨dest₀, hstore, hloop⟩, ?_, ?_⟩
  · rw [← hsplit]
    simp
  · rw [← hsplit, List.append_assoc]
    unfold cString
    rw [List.takeWhile_append_of_pos]
    · simp
    · exact fun c hc => decide_eq_true fun h => zero_notMem_escapeBytes source.nul (h ▸ hc)

lemma escapeArray_error (source : CharArray STR_BUFF) (dest : Vector UInt8 STR_BUFF)
    (hroom : STR_BUFF ≤ (escapeBytes source.str).length) :
    escapeArray (source.str ++ [0]) dest STR_BUFF = .error .outOfBounds := by
  obtain ⟨dest₀, hstore, -⟩ := storeByte_ok dest 0 STR_BUFF_pos
  exact bind_eq_error.mpr (.inr ⟨dest₀, hstore, escapeLoop_error source.nul
    (by rw [Nat.zero_add]; exact source.lt) (by rw [Nat.zero_add]; exact hroom)⟩)

/-- The path is escaped inside of its array exactly where its bytes, its backslashes counted twice,
leave room for the NUL. -/
theorem escapeRight_iff (source : CharArray STR_BUFF) (dest : Vector UInt8 STR_BUFF) :
    EscapeRight source dest ↔ source.str.length + source.str.count BACKSLASH < STR_BUFF := by
  rw [← length_escapeBytes]
  constructor
  · rintro ⟨dest', harray, -⟩
    by_contra hroom
    rw [escapeArray_error source dest (Nat.not_lt.mp hroom)] at harray
    cases harray
  · intro hroom
    obtain ⟨dest', harray, hnul, htext⟩ := escapeArray_ok source dest (escape_eq_ok.mpr ⟨hroom, rfl⟩)
    exact ⟨dest', harray, hnul, by rw [htext, halve_escapeBytes]⟩

/-- A path of 600 backslashes. -/
def backslashes : CharArray STR_BUFF where
  str := List.replicate 600 BACKSLASH
  lt := by rw [List.length_replicate]; decide
  nul := fun h => absurd (List.eq_of_mem_replicate h) (by decide)

theorem backslashes_overrun : ¬ EscapeRight backslashes (Vector.replicate STR_BUFF 0) := by
  have hlen : STR_BUFF ≤ (escapeBytes backslashes.str).length := by
    rw [length_escapeBytes]
    unfold backslashes
    rw [List.length_replicate, List.count_replicate_self]
    decide
  rintro ⟨dest', harray, -⟩
  rw [escapeArray_error backslashes _ hlen] at harray
  cases harray

end Hfm

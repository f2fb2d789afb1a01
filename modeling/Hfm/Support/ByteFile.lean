import Mathlib.Data.List.Induction
import Mathlib.Data.List.TakeDrop
import Mathlib.Order.MinMax

/-!
# A file that is written in chunks

Chunks are written at any offset, over each other and behind the end. What the file has in the
end is, at each position, the byte of the last chunk there.
-/

namespace Hfm.Support

/-- Bytes for a place of a file. -/
structure Chunk where
  offset : Nat
  bytes : List UInt8
  deriving DecidableEq

lemma getElem?_takeD {α : Type} (a : α) {n q : Nat} (h : q < n) (l : List α) :
    (l.takeD n a)[q]? = l[q]?.or (some a) := by
  induction n generalizing q l with
  | zero => exact absurd h (Nat.not_lt_zero q)
  | succ n ih =>
    cases q with
    | zero => cases l <;> rfl
    | succ q =>
      have hq : q < n := Nat.lt_of_succ_lt_succ h
      cases l with
      | nil => exact ih hq []
      | cons b l => exact ih hq l

namespace Chunk

variable (c : Chunk)

/-- The end of the chunk. -/
def stop : Nat := c.offset + c.bytes.length

/-- The byte that the chunk has for a position. -/
def get? (q : Nat) : Option UInt8 := if c.offset ≤ q then c.bytes[q - c.offset]? else none

/-- The file after a write of the chunk. A gap in front of it is filled with 0. -/
def write (content : List UInt8) : List UInt8 :=
  content.takeD c.offset 0 ++ c.bytes ++ content.drop c.stop

/-- The file has the chunk at its place. -/
def In (content : List UInt8) : Prop := (content.drop c.offset).take c.bytes.length = c.bytes

lemma get?_of_lt {q : Nat} (h : q < c.offset) : c.get? q = none := if_neg (Nat.not_le.mpr h)

lemma get?_of_le {q : Nat} (h : c.stop ≤ q) : c.get? q = none := by
  have hle : c.offset ≤ q := Nat.le_trans (Nat.le_add_right _ _) h
  have hend : c.bytes.length ≤ q - c.offset := by
    unfold stop at h
    omega
  rw [get?, if_pos hle]
  exact List.getElem?_eq_none hend

lemma get?_add {i : Nat} (h : i < c.bytes.length) : c.get? (c.offset + i) = some c.bytes[i] := by
  rw [get?, if_pos (Nat.le_add_right _ _), Nat.add_sub_cancel_left]
  exact List.getElem?_eq_getElem h

lemma exists_of_get? {q : Nat} {b : UInt8} (h : c.get? q = some b) :
    ∃ i, ∃ hi : i < c.bytes.length, q = c.offset + i ∧ b = c.bytes[i] := by
  rcases Nat.lt_or_ge q c.offset with hlt | hge
  · rw [c.get?_of_lt hlt] at h
    cases h
  · obtain ⟨i, rfl⟩ := Nat.exists_eq_add_of_le hge
    rw [get?, if_pos hge, Nat.add_sub_cancel_left] at h
    obtain ⟨hi, hbyte⟩ := List.getElem?_eq_some_iff.mp h
    exact ⟨i, hi, rfl, hbyte.symm⟩

/-- Chunks of one place have bytes for the same positions. -/
lemma get?_isSome_of_place {d : Chunk} (hoffset : d.offset = c.offset)
    (hlen : d.bytes.length = c.bytes.length) {q : Nat} {b : UInt8} (h : c.get? q = some b) :
    ∃ b', d.get? q = some b' := by
  obtain ⟨i, hi, rfl, -⟩ := c.exists_of_get? h
  rw [← hoffset]
  exact ⟨_, d.get?_add (hlen ▸ hi)⟩

/-- The byte is that of the chunk, else the one that was there, else a 0 that fills the gap. -/
lemma getElem?_write (content : List UInt8) (q : Nat) : (c.write content)[q]? =
    (c.get? q).or (content[q]?.or (if q < c.offset then some 0 else none)) := by
  have hfirst : (content.takeD c.offset 0).length = c.offset := List.takeD_length _ _ _
  have hpre : (content.takeD c.offset 0 ++ c.bytes).length = c.stop := by
    rw [List.length_append, hfirst]
    rfl
  unfold write
  rcases Nat.lt_or_ge q c.offset with hlt | hge
  · have hstop : q < c.stop := Nat.lt_of_lt_of_le hlt (Nat.le_add_right _ _)
    rw [get?_of_lt c hlt, if_pos hlt, List.getElem?_append_left (by rwa [hpre]),
      List.getElem?_append_left (by rwa [hfirst]), Option.none_or, getElem?_takeD 0 hlt]
  · rw [if_neg (Nat.not_lt.mpr hge), Option.or_none]
    rcases Nat.lt_or_ge q c.stop with hin | hout
    · obtain ⟨i, rfl⟩ := Nat.exists_eq_add_of_le hge
      have hi : i < c.bytes.length := Nat.lt_of_add_lt_add_left hin
      rw [get?_add c hi, Option.some_or, List.getElem?_append_left (by rwa [hpre]),
        List.getElem?_append_right (by rwa [hfirst]), hfirst, Nat.add_sub_cancel_left,
        List.getElem?_eq_getElem hi]
    · rw [get?_of_le c hout, Option.none_or, List.getElem?_append_right (by rwa [hpre]), hpre,
        List.getElem?_drop, Nat.add_sub_cancel' hout]

lemma in_iff (content : List UInt8) :
    c.In content ↔ ∀ q b, c.get? q = some b → content[q]? = some b := by
  have hget (i : Nat) (h : i < c.bytes.length) :
      ((content.drop c.offset).take c.bytes.length)[i]? = content[c.offset + i]? := by
    rw [List.getElem?_take_of_lt h, List.getElem?_drop]
  constructor
  · intro hin q b hbyte
    obtain ⟨i, h, rfl, rfl⟩ := c.exists_of_get? hbyte
    rw [← hget i h, hin, List.getElem?_eq_getElem h]
  · intro hall
    apply List.ext_getElem?
    intro i
    rcases Nat.lt_or_ge i c.bytes.length with h | h
    · rw [hget i h, hall _ _ (c.get?_add h), List.getElem?_eq_getElem h]
    · rw [List.getElem?_eq_none h, List.getElem?_eq_none (Nat.le_trans (List.length_take_le _ _) h)]

end Chunk

/-! ### Several chunks -/

/-- The file after the writes, one after the other. -/
def writeAll (content : List UInt8) (cs : List Chunk) : List UInt8 :=
  cs.foldl (fun content c => c.write content) content

/-- The byte of the last chunk that has one for the position. -/
def lastByte (cs : List Chunk) (q : Nat) : Option UInt8 := cs.reverse.findSome? (·.get? q)

/-- The end of the chunk that goes farthest. -/
def extent (cs : List Chunk) : Nat := cs.foldl (fun n c => max n c.stop) 0

lemma writeAll_append (content : List UInt8) (cs cs' : List Chunk) :
    writeAll content (cs ++ cs') = writeAll (writeAll content cs) cs' := List.foldl_append

lemma lastByte_concat (cs : List Chunk) (c : Chunk) (q : Nat) :
    lastByte (cs ++ [c]) q = (c.get? q).or (lastByte cs q) := by
  unfold lastByte
  rw [List.reverse_append, List.reverse_singleton, List.singleton_append, List.findSome?_cons]
  cases c.get? q <;> rfl

lemma extent_concat (cs : List Chunk) (c : Chunk) : extent (cs ++ [c]) = max (extent cs) c.stop := by
  unfold extent
  rw [List.foldl_append]
  rfl

/-- What a file has that was empty before the writes. -/
lemma getElem?_writeAll (cs : List Chunk) (q : Nat) : (writeAll [] cs)[q]? =
    (lastByte cs q).or (if q < extent cs then some 0 else none) := by
  induction cs using List.reverseRecOn with
  | nil => rfl
  | append_singleton cs c ih =>
    have hlast : writeAll [] (cs ++ [c]) = c.write (writeAll [] cs) := writeAll_append [] cs [c]
    rw [hlast, c.getElem?_write, ih, lastByte_concat, extent_concat, Option.or_assoc,
      Option.or_assoc]
    -- a byte that no chunk has lies in a gap in front of one of them, or behind them all
    rcases Nat.lt_or_ge q c.stop with hin | hout
    · cases hbyte : c.get? q with
      | some b => rfl
      | none =>
        have hgap : q < c.offset := by
          by_contra hge
          obtain ⟨i, rfl⟩ := Nat.exists_eq_add_of_le (Nat.not_lt.mp hge)
          rw [c.get?_add (Nat.lt_of_add_lt_add_left hin)] at hbyte
          cases hbyte
        rw [if_pos hgap, if_pos (lt_max_iff.mpr (.inr hin))]
        cases lastByte cs q with
        | some b => rfl
        | none => split <;> rfl
    · have hgap : ¬q < c.offset := by
        have := Nat.le_trans (Nat.le_add_right c.offset c.bytes.length) hout
        exact Nat.not_lt.mpr this
      have hiff : q < max (extent cs) c.stop ↔ q < extent cs :=
        lt_max_iff.trans (or_iff_left (Nat.not_lt.mpr hout))
      rw [if_neg hgap, Option.or_none]
      simp only [hiff]

lemma lastByte_eq_none_iff (cs : List Chunk) (q : Nat) :
    lastByte cs q = none ↔ ∀ c ∈ cs, c.get? q = none := by
  unfold lastByte
  rw [List.findSome?_eq_none_iff]
  exact forall_congr' fun c => imp_congr_left List.mem_reverse

lemma exists_of_lastByte {cs : List Chunk} {q : Nat} {b : UInt8} (h : lastByte cs q = some b) :
    ∃ c ∈ cs, c.get? q = some b := by
  obtain ⟨c, hc, hbyte⟩ := List.exists_of_findSome?_eq_some h
  exact ⟨c, List.mem_reverse.mp hc, hbyte⟩

lemma lt_extent_iff (cs : List Chunk) (q : Nat) : q < extent cs ↔ ∃ c ∈ cs, q < c.stop := by
  induction cs using List.reverseRecOn with
  | nil => exact iff_of_false (Nat.not_lt_zero q) fun ⟨c, hc, _⟩ => List.not_mem_nil hc
  | append_singleton cs c ih =>
    rw [extent_concat, lt_max_iff, ih]
    constructor
    · rintro (⟨d, hd, hlt⟩ | hlt)
      · exact ⟨d, List.mem_append_left _ hd, hlt⟩
      · exact ⟨c, List.mem_append_right _ (List.mem_singleton_self c), hlt⟩
    · rintro ⟨d, hd, hlt⟩
      rcases List.mem_append.mp hd with hd | hd
      · exact .inl ⟨d, hd, hlt⟩
      · rw [List.mem_singleton.mp hd] at hlt
        exact .inr hlt

/-- A position of the file has the byte of the last chunk there, or a 0 in front of a chunk. -/
theorem getElem?_writeAll_iff (cs : List Chunk) (q : Nat) (b : UInt8) :
    (writeAll [] cs)[q]? = some b ↔ lastByte cs q = some b ∨
      (∀ c ∈ cs, c.get? q = none) ∧ b = 0 ∧ ∃ c ∈ cs, q < c.stop := by
  rw [getElem?_writeAll, ← lastByte_eq_none_iff, ← lt_extent_iff]
  cases lastByte cs q with
  | some b' =>
    rw [Option.some_or]
    exact ⟨.inl, fun h => h.elim id fun h => absurd h.1 (Option.some_ne_none b')⟩
  | none =>
    rw [Option.none_or]
    constructor
    · intro hbyte
      right
      split at hbyte
      · exact ⟨rfl, (Option.some_inj.mp hbyte).symm, ‹_›⟩
      · cases hbyte
    · rintro (hbyte | ⟨-, hzero, hlt⟩)
      · cases hbyte
      · rw [if_pos hlt, hzero]

end Hfm.Support

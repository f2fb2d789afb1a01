import Mathlib.Algebra.BigOperators.Group.List.Basic
import Mathlib.Algebra.GroupWithZero.Nat

/-!
# UTF-16 and UTF-8

The text that little-endian UTF-16 encodes, a byte order mark left out, and the number of bytes it
takes in UTF-8.
-/

namespace Hfm.Support

/-- The 16-bit units; there is none for a single byte at the end. -/
def utf16Units : List UInt8 → Option (List Nat)
  | [] => some []
  | [_] => none
  | lo :: hi :: rest => (utf16Units rest).map ((lo.toNat + 256 * hi.toNat) :: ·)

def isHighSurrogate (u : Nat) : Bool := 0xd800 ≤ u && u < 0xdc00

def isLowSurrogate (u : Nat) : Bool := 0xdc00 ≤ u && u < 0xe000

/-- The character of a surrogate pair. -/
def surrogatePair (u v : Nat) : Char := Char.ofNat (0x10000 + (u - 0xd800) * 0x400 + (v - 0xdc00))

/-- The characters; a surrogate without the other one of its pair has none. -/
def decodeUnits : List Nat → Option (List Char)
  | [] => some []
  | [u] => if isHighSurrogate u || isLowSurrogate u then none else some [Char.ofNat u]
  | u :: v :: rest =>
    if isHighSurrogate u then
      if isLowSurrogate v then (decodeUnits rest).map (surrogatePair u v :: ·) else none
    else if isLowSurrogate u then none
    else (decodeUnits (v :: rest)).map (Char.ofNat u :: ·)

/-- The units behind a byte order mark, in the order that it marks. -/
def behindMark : List Nat → List Nat
  | 0xfeff :: rest => rest
  | 0xfffe :: rest => rest.map fun u => u % 256 * 256 + u / 256
  | units => units

def utf16Text (contents : List UInt8) : Option (List Char) :=
  (utf16Units contents).bind fun units => decodeUnits (behindMark units)

def utf8Encode (text : List Char) : List UInt8 := text.flatMap String.utf8EncodeChar

/-- The text in UTF-8. -/
def utf8OfUtf16 (contents : List UInt8) : Option (List UInt8) := (utf16Text contents).map utf8Encode

/-- How many bytes a unit takes in UTF-8; each half of a surrogate pair takes two of four. -/
def unitSize (u : Nat) : Nat :=
  if u < 0x80 then 1 else if u < 0x800 || isHighSurrogate u || isLowSurrogate u then 2 else 3

/-- How many bytes the text takes in UTF-8; none if it is not one. -/
def utf8Size (contents : List UInt8) : Nat :=
  match utf16Units contents with
  | some units =>
    if (decodeUnits (behindMark units)).isSome then ((behindMark units).map unitSize).sum else 0
  | none => 0

/-! ### The size of a character -/

lemma toNat_ofNat_char {n : Nat} (h : n.isValidChar) : (Char.ofNat n).toNat = n := by
  rw [Char.ofNat, dif_pos h]
  rfl

lemma utf8Size_ofNat {n : Nat} (h : n.isValidChar) : (Char.ofNat n).utf8Size =
    if n < 0x80 then 1 else if n < 0x800 then 2 else if n < 0x10000 then 3 else 4 := by
  have hval : (Char.ofNat n).val.toNat = n := toNat_ofNat_char h
  have hone := Char.utf8Size_eq_one_iff (c := Char.ofNat n)
  have htwo := Char.utf8Size_eq_two_iff (c := Char.ofNat n)
  have hthree := Char.utf8Size_eq_three_iff (c := Char.ofNat n)
  have hfour := Char.utf8Size_eq_four_iff (c := Char.ofNat n)
  simp only [UInt32.le_iff_toNat_le, UInt32.lt_iff_toNat_lt, hval, UInt32.reduceToNat] at hone htwo hthree hfour
  split
  · exact hone.mpr (by omega)
  · split
    · exact htwo.mpr (by omega)
    · split
      · exact hthree.mpr (by omega)
      · exact hfour.mpr (by omega)

/-- A unit that is no surrogate. -/
lemma utf8Size_unit {u : Nat} (hu : u < 0x10000) (hhigh : isHighSurrogate u = false)
    (hlow : isLowSurrogate u = false) : (Char.ofNat u).utf8Size = unitSize u := by
  have hvalid : u.isValidChar := by
    simp only [isHighSurrogate, isLowSurrogate, Bool.and_eq_false_iff, decide_eq_false_iff_not] at hhigh hlow
    unfold Nat.isValidChar
    omega
  rw [utf8Size_ofNat hvalid, unitSize, hhigh, hlow, if_pos hu]
  simp only [Bool.or_false, decide_eq_true_eq]

lemma utf8Size_pair {u v : Nat} (hu : isHighSurrogate u = true) (hv : isLowSurrogate v = true) :
    (surrogatePair u v).utf8Size = unitSize u + unitSize v := by
  have hu' := hu
  have hv' := hv
  simp only [isHighSurrogate, isLowSurrogate, Bool.and_eq_true, decide_eq_true_eq] at hu' hv'
  have hvalid : (0x10000 + (u - 0xd800) * 0x400 + (v - 0xdc00)).isValidChar := by
    unfold Nat.isValidChar
    omega
  have hsizeU : unitSize u = 2 := by
    rw [unitSize, if_neg (by omega), hu]
    simp
  have hsizeV : unitSize v = 2 := by
    rw [unitSize, if_neg (by omega), hv]
    simp
  rw [surrogatePair, utf8Size_ofNat hvalid, if_neg (by omega), if_neg (by omega), if_neg (by omega),
    hsizeU, hsizeV]

/-! ### The size of a text -/

lemma length_utf8Encode_cons (c : Char) (text : List Char) :
    (utf8Encode (c :: text)).length = c.utf8Size + (utf8Encode text).length := by
  unfold utf8Encode
  rw [List.flatMap_cons, List.length_append, String.length_utf8EncodeChar]

lemma length_decodeUnits (units : List Nat) : ∀ {text : List Char}, (∀ u ∈ units, u < 0x10000) →
    decodeUnits units = some text → (utf8Encode text).length = (units.map unitSize).sum := by
  induction units using decodeUnits.induct with
  | case1 =>
    intro text _ h
    cases h
    rfl
  | case2 u hsurr =>
    intro text _ h
    rw [decodeUnits, if_pos hsurr] at h
    cases h
  | case3 u hsurr =>
    intro text hlt h
    rw [decodeUnits, if_neg hsurr] at h
    cases h
    rw [Bool.not_eq_true, Bool.or_eq_false_iff] at hsurr
    rw [length_utf8Encode_cons, utf8Size_unit (hlt u List.mem_cons_self) hsurr.1 hsurr.2]
    rfl
  | case4 u v rest hhigh hlow ih =>
    intro text hlt h
    rw [decodeUnits, if_pos hhigh, if_pos hlow] at h
    obtain ⟨text, hrest, rfl⟩ := Option.map_eq_some_iff.mp h
    have hlt' : ∀ w ∈ rest, w < 0x10000 := fun w hw =>
      hlt w (List.mem_cons_of_mem _ (List.mem_cons_of_mem _ hw))
    rw [length_utf8Encode_cons, utf8Size_pair hhigh hlow, ih hlt' hrest, List.map_cons,
      List.map_cons, List.sum_cons, List.sum_cons, Nat.add_assoc]
  | case5 u v rest hhigh hlow =>
    intro text _ h
    rw [decodeUnits, if_pos hhigh, if_neg hlow] at h
    cases h
  | case6 u v rest hhigh hlow =>
    intro text _ h
    rw [decodeUnits, if_neg hhigh, if_pos hlow] at h
    cases h
  | case7 u v rest hhigh hlow ih =>
    intro text hlt h
    rw [decodeUnits, if_neg hhigh, if_neg hlow] at h
    obtain ⟨text, hrest, rfl⟩ := Option.map_eq_some_iff.mp h
    have hsize := utf8Size_unit (hlt u List.mem_cons_self) (Bool.not_eq_true _ ▸ hhigh)
      (Bool.not_eq_true _ ▸ hlow)
    rw [length_utf8Encode_cons, hsize, ih (fun w hw => hlt w (List.mem_cons_of_mem _ hw)) hrest,
      List.map_cons (l := v :: rest), List.sum_cons]

lemma utf16Units_lt (contents : List UInt8) : ∀ {units : List Nat}, utf16Units contents = some units →
    ∀ u ∈ units, u < 0x10000 := by
  induction contents using utf16Units.induct with
  | case1 =>
    intro units h u hu
    cases h
    cases hu
  | case2 c =>
    intro units h
    cases h
  | case3 lo hi rest ih =>
    intro units h u hu
    obtain ⟨units, hrest, rfl⟩ := Option.map_eq_some_iff.mp h
    rcases List.mem_cons.mp hu with rfl | hu
    · have hlo := lo.toNat_lt
      have hhi := hi.toNat_lt
      omega
    · exact ih hrest u hu

lemma behindMark_lt {units : List Nat} (h : ∀ u ∈ units, u < 0x10000) :
    ∀ u ∈ behindMark units, u < 0x10000 := by
  unfold behindMark
  split
  · exact fun u hu => h u (List.mem_cons_of_mem _ hu)
  · intro u hu
    obtain ⟨v, hv, rfl⟩ := List.mem_map.mp hu
    have := h v (List.mem_cons_of_mem _ hv)
    omega
  · exact h

/-- The size is that of the text in UTF-8. -/
theorem length_utf8OfUtf16 (contents : List UInt8) :
    ((utf8OfUtf16 contents).getD []).length = utf8Size contents := by
  unfold utf8OfUtf16 utf16Text utf8Size
  cases hunits : utf16Units contents with
  | none => rfl
  | some units =>
    rw [Option.bind_some]
    dsimp only
    cases htext : decodeUnits (behindMark units) with
    | none => rfl
    | some text =>
      rw [Option.isSome_some, if_pos rfl, Option.map_some, Option.getD_some]
      exact length_decodeUnits _ (behindMark_lt (utf16Units_lt contents hunits)) htext

end Hfm.Support

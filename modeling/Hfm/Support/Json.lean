import Mathlib.Data.List.Basic

/-!
# JSON texts

The grammar of JSON over the bytes of a text, each text with the value it denotes. Strings
are UTF-8, and denote the bytes they decode to.
-/

namespace Hfm.Support

inductive Json where
  | null
  | bool (b : Bool)
  | num (text : List UInt8)
  | str (s : List UInt8)
  | arr (items : List Json)
  | obj (members : List (List UInt8 × Json))

namespace Json

def QUOTE : UInt8 := 0x22
def BACKSLASH : UInt8 := 0x5c

def isWs (c : UInt8) : Bool := c = 0x20 || c = 0x09 || c = 0x0a || c = 0x0d

def Ws (w : List UInt8) : Prop := ∀ c ∈ w, isWs c = true

/-- A character that stands for itself in a string. -/
def Plain (c : Char) : Prop := 0x20 ≤ c.toNat ∧ c ≠ '"' ∧ c ≠ '\\'

def hexDigit (c : UInt8) : Option Nat :=
  if 0x30 ≤ c ∧ c ≤ 0x39 then some (c.toNat - 0x30)
  else if 0x41 ≤ c ∧ c ≤ 0x46 then some (c.toNat - 0x37)
  else if 0x61 ≤ c ∧ c ≤ 0x66 then some (c.toNat - 0x57)
  else none

/-- The code of `\u` with four hexadecimal digits. -/
def hexCode : List UInt8 → Option Nat
  | [a, b, c, d] => do
    return 4096 * (← hexDigit a) + 256 * (← hexDigit b) + 16 * (← hexDigit c) + (← hexDigit d)
  | _ => none

/-- What stands behind a backslash, with the character it denotes. -/
inductive Escape : List UInt8 → Char → Prop where
  | quote : Escape [0x22] '"'
  | backslash : Escape [0x5c] '\\'
  | slash : Escape [0x2f] '/'
  | backspace : Escape [0x62] (.ofNat 8)
  | formFeed : Escape [0x66] (.ofNat 12)
  | lineFeed : Escape [0x6e] (.ofNat 10)
  | carriageReturn : Escape [0x72] (.ofNat 13)
  | tab : Escape [0x74] (.ofNat 9)
  | unicode {hex : List UInt8} {c : Char} (hcode : hexCode hex = some c.toNat) :
      Escape (0x75 :: hex) c
  | surrogates {high low : List UInt8} {h l : Nat} {c : Char} (hhigh : hexCode high = some h)
      (hlow : hexCode low = some l) (hh : 0xD800 ≤ h ∧ h ≤ 0xDBFF) (hl : 0xDC00 ≤ l ∧ l ≤ 0xDFFF)
      (hc : c.toNat = 0x10000 + (h - 0xD800) * 0x400 + (l - 0xDC00)) :
      Escape (0x75 :: high ++ BACKSLASH :: 0x75 :: low) c

/-- The characters between the quotes of a string, with the bytes they denote. -/
inductive Chars : List UInt8 → List UInt8 → Prop where
  | nil : Chars [] []
  | plain {c : Char} {raw s : List UInt8} (hc : Plain c) (h : Chars raw s) :
      Chars (String.utf8EncodeChar c ++ raw) (String.utf8EncodeChar c ++ s)
  | escape {e raw s : List UInt8} {c : Char} (he : Escape e c) (h : Chars raw s) :
      Chars (BACKSLASH :: (e ++ raw)) (String.utf8EncodeChar c ++ s)

def Digits (ds : List UInt8) : Prop := ds ≠ [] ∧ ∀ d ∈ ds, 0x30 ≤ d ∧ d ≤ 0x39

structure Number (text : List UInt8) : Prop where
  parts : ∃ sign int frac exp, text = sign ++ (int ++ (frac ++ exp)) ∧
    (sign = [] ∨ sign = [0x2d]) ∧ (Digits int ∧ (int.head? = some 0x30 → int = [0x30])) ∧
    (frac = [] ∨ ∃ ds, frac = 0x2e :: ds ∧ Digits ds) ∧
    (exp = [] ∨ ∃ e s ds, exp = e :: (s ++ ds) ∧ (e = 0x45 ∨ e = 0x65) ∧
      (s = [] ∨ s = [0x2b] ∨ s = [0x2d]) ∧ Digits ds)

inductive Member (V : List UInt8 → Json → Prop) : List UInt8 → List UInt8 × Json → Prop where
  | mk {w₁ raw name w₂ w₃ t w₄ : List UInt8} {v : Json} (h₁ : Ws w₁) (hname : Chars raw name)
      (h₂ : Ws w₂) (h₃ : Ws w₃) (hv : V t v) (h₄ : Ws w₄) :
      Member V (w₁ ++ QUOTE :: (raw ++ QUOTE :: (w₂ ++ 0x3a :: (w₃ ++ (t ++ w₄))))) (name, v)

inductive Members (V : List UInt8 → Json → Prop) :
    List UInt8 → List (List UInt8 × Json) → Prop where
  | one {t : List UInt8} {m : List UInt8 × Json} (h : Member V t m) : Members V t [m]
  | cons {t ts : List UInt8} {m : List UInt8 × Json} {ms : List (List UInt8 × Json)}
      (h : Member V t m) (hs : Members V ts ms) : Members V (t ++ 0x2c :: ts) (m :: ms)

inductive Elements (V : List UInt8 → Json → Prop) : List UInt8 → List Json → Prop where
  | one {w t w' : List UInt8} {v : Json} (h : Ws w) (hv : V t v) (h' : Ws w') :
      Elements V (w ++ (t ++ w')) [v]
  | cons {w t w' ts : List UInt8} {v : Json} {vs : List Json} (h : Ws w) (hv : V t v)
      (h' : Ws w') (hs : Elements V ts vs) : Elements V (w ++ (t ++ (w' ++ 0x2c :: ts))) (v :: vs)

inductive Value : List UInt8 → Json → Prop where
  | nullLit : Value [0x6e, 0x75, 0x6c, 0x6c] .null
  | trueLit : Value [0x74, 0x72, 0x75, 0x65] (.bool true)
  | falseLit : Value [0x66, 0x61, 0x6c, 0x73, 0x65] (.bool false)
  | num {t : List UInt8} (h : Number t) : Value t (.num t)
  | str {raw s : List UInt8} (h : Chars raw s) : Value (QUOTE :: (raw ++ [QUOTE])) (.str s)
  | emptyArr {w : List UInt8} (h : Ws w) : Value (0x5b :: (w ++ [0x5d])) (.arr [])
  | arr {t : List UInt8} {items : List Json} (h : Elements Value t items) :
      Value (0x5b :: (t ++ [0x5d])) (.arr items)
  | emptyObj {w : List UInt8} (h : Ws w) : Value (0x7b :: (w ++ [0x7d])) (.obj [])
  | obj {t : List UInt8} {members : List (List UInt8 × Json)} (h : Members Value t members) :
      Value (0x7b :: (t ++ [0x7d])) (.obj members)

/-- A whole text. -/
def Text (text : List UInt8) (v : Json) : Prop :=
  ∃ w t w', text = w ++ (t ++ w') ∧ Ws w ∧ Value t v ∧ Ws w'

/-! ### Bytes of characters -/

/-- A byte below 0x80 is a character of its own. -/
lemma ascii_byte {c : Char} {b : UInt8} (hb : b ∈ String.utf8EncodeChar c) (hlt : b.toNat < 0x80) :
    String.utf8EncodeChar c = [b] ∧ c.toNat = b.toNat := by
  have hbyte : ∀ n k, 0x80 ≤ k → n + k < 0x100 → ¬(UInt8.ofNat (n + k)).toNat < 0x80 := by
    intro n k h₁ h₂
    rw [UInt8.toNat_ofNat', Nat.mod_eq_of_lt h₂]
    omega
  unfold String.utf8EncodeChar at hb ⊢
  dsimp only at hb ⊢
  split at hb
  · rename_i h
    rw [List.mem_singleton] at hb
    rw [if_pos h, hb]
    refine ⟨rfl, ?_⟩
    rw [UInt8.toNat_ofNat', Nat.mod_eq_of_lt (by omega)]
    rfl
  · -- the bytes of longer encodings are at least 0x80
    split at hb
    · simp only [List.mem_cons, List.not_mem_nil, or_false] at hb
      rcases hb with rfl | rfl <;> exact absurd hlt (hbyte _ _ (by decide) (by omega))
    · split at hb
      · simp only [List.mem_cons, List.not_mem_nil, or_false] at hb
        rcases hb with rfl | rfl | rfl <;> exact absurd hlt (hbyte _ _ (by decide) (by omega))
      · simp only [List.mem_cons, List.not_mem_nil, or_false] at hb
        rcases hb with rfl | rfl | rfl | rfl <;> exact absurd hlt (hbyte _ _ (by decide) (by omega))

lemma utf8_singleton {c : Char} (h : c.toNat < 0x80) :
    String.utf8EncodeChar c = [UInt8.ofNat c.toNat] := by
  unfold String.utf8EncodeChar
  dsimp only
  rw [if_pos (by change c.toNat ≤ 0x7f; omega)]
  rfl

lemma utf8_length_le (c : Char) : 1 ≤ (String.utf8EncodeChar c).length ∧
    (String.utf8EncodeChar c).length ≤ 4 := by
  rw [String.length_utf8EncodeChar]
  exact ⟨Char.utf8Size_pos c, Char.utf8Size_le_four c⟩

lemma plain_byte {c : Char} (hc : Plain c) {b : UInt8} (hb : b ∈ String.utf8EncodeChar c) :
    b ≠ QUOTE ∧ b ≠ BACKSLASH := by
  constructor
  · rintro rfl
    have := (ascii_byte hb (by decide)).2
    exact hc.2.1 (Char.toNat_inj.mp this)
  · rintro rfl
    have := (ascii_byte hb (by decide)).2
    exact hc.2.2 (Char.toNat_inj.mp this)

/-- An escape is no shorter than the character it denotes, and only that of a quote holds one. -/
lemma Escape.length {e : List UInt8} {c : Char} (h : Escape e c) :
    (String.utf8EncodeChar c).length ≤ e.length := by
  have hfour := (utf8_length_le c).2
  have hhex : ∀ {hex : List UInt8} {n : Nat}, hexCode hex = some n → hex.length = 4 := by
    intro hex n hcode
    unfold hexCode at hcode
    split at hcode
    · rfl
    · cases hcode
  cases h with
  | unicode hcode =>
    rw [List.length_cons, hhex hcode]
    omega
  | surrogates hhigh hlow hh hl hc =>
    rw [List.cons_append, List.length_cons, List.length_append, hhex hhigh]
    omega
  | _ => decide

lemma hexDigit_quote : hexDigit QUOTE = none := by decide

lemma hexCode_quote {hex : List UInt8} {n : Nat} (h : hexCode hex = some n) : QUOTE ∉ hex := by
  unfold hexCode at h
  split at h
  · rename_i a b c d
    have hdigit : ∀ x, hexDigit x ≠ none → QUOTE ≠ x := by
      rintro x hx rfl
      exact hx hexDigit_quote
    simp only [List.mem_cons, List.not_mem_nil, or_false, not_or]
    cases ha : hexDigit a with
    | none => simp [ha] at h
    | some _ =>
      cases hb : hexDigit b with
      | none => simp [ha, hb] at h
      | some _ =>
        cases hc : hexDigit c with
        | none => simp [ha, hb, hc] at h
        | some _ =>
          cases hd : hexDigit d with
          | none => simp [ha, hb, hc, hd] at h
          | some _ =>
            exact ⟨hdigit a (by simp [ha]), hdigit b (by simp [hb]), hdigit c (by simp [hc]),
              hdigit d (by simp [hd])⟩
  · cases h

lemma Escape.of_quote {e : List UInt8} {c : Char} (h : Escape e c) (hmem : QUOTE ∈ e) :
    e = [QUOTE] ∧ c = '"' := by
  cases h with
  | quote => exact ⟨rfl, rfl⟩
  | unicode hcode =>
    rcases List.mem_cons.mp hmem with h | h
    · exact absurd h (by decide)
    · exact absurd h (hexCode_quote hcode)
  | surrogates hhigh hlow hh hl hc =>
    simp only [List.cons_append, List.mem_cons, List.mem_append] at hmem
    rcases hmem with h | h | h | h | h
    · exact absurd h (by decide)
    · exact absurd h (hexCode_quote hhigh)
    · exact absurd h (by decide)
    · exact absurd h (by decide)
    · exact absurd h (hexCode_quote hlow)
  | _ => exact absurd hmem (by decide)

/-- An escape starts with a backslash only if it is that of the backslash. -/
lemma Escape.head {e : List UInt8} {c : Char} (h : Escape e c) :
    (e = [BACKSLASH] ∧ c = '\\') ∨ ∃ b e', e = b :: e' ∧ b ≠ BACKSLASH := by
  cases h with
  | backslash => exact .inl ⟨rfl, rfl⟩
  | unicode hcode => exact .inr ⟨_, _, rfl, by decide⟩
  | surrogates hhigh hlow hh hl hc => exact .inr ⟨_, _, rfl, by decide⟩
  | _ => exact .inr ⟨_, _, rfl, by decide⟩

/-! ### Strings that stand for themselves -/

/-- A text of plain characters. -/
inductive PlainText : List UInt8 → Prop where
  | nil : PlainText []
  | cons {c : Char} {s : List UInt8} (hc : Plain c) (h : PlainText s) :
      PlainText (String.utf8EncodeChar c ++ s)

def asciiPlain (b : UInt8) : Bool := 0x20 ≤ b && b < 0x80 && b ≠ QUOTE && b ≠ BACKSLASH

lemma plainText_of_ascii {s : List UInt8} (h : s.all asciiPlain = true) : PlainText s := by
  induction s with
  | nil => exact .nil
  | cons b s ih =>
    rw [List.all_cons, Bool.and_eq_true] at h
    simp only [asciiPlain, Bool.and_eq_true, decide_eq_true_eq] at h
    obtain ⟨⟨⟨⟨hge, hlt⟩, hquote⟩, hback⟩, hs⟩ := h
    have hlt' : b.toNat < 0x80 := hlt
    have hnat : (Char.ofNat b.toNat).toNat = b.toNat := by
      rw [Char.ofNat, dif_pos (.inl (by omega))]
      rfl
    have henc := utf8_singleton (c := Char.ofNat b.toNat) (by omega)
    rw [hnat, UInt8.ofNat_toNat] at henc
    have hplain : Plain (Char.ofNat b.toNat) := by
      refine ⟨by rw [hnat]; exact hge, fun hc => hquote ?_, fun hc => hback ?_⟩
      · rw [hc] at hnat
        exact UInt8.toNat_inj.mp hnat.symm
      · rw [hc] at hnat
        exact UInt8.toNat_inj.mp hnat.symm
    have := PlainText.cons hplain (ih hs)
    rwa [henc] at this

lemma PlainText.chars {s : List UInt8} (h : PlainText s) : Chars s s := by
  induction h with
  | nil => exact .nil
  | cons hc _ ih => exact .plain hc ih

lemma PlainText.byte {s : List UInt8} (h : PlainText s) : ∀ b ∈ s, b ≠ QUOTE ∧ b ≠ BACKSLASH := by
  induction h with
  | nil => simp
  | cons hc _ ih =>
    intro b hb
    rcases List.mem_append.mp hb with hb | hb
    · exact plain_byte hc hb
    · exact ih b hb

/-- What a string denotes is shorter than its text, unless it stands for itself. -/
lemma Chars.plain_or_shorter {raw s : List UInt8} (h : Chars raw s) :
    (raw = s ∧ PlainText s) ∨ s.length < raw.length := by
  induction h with
  | nil => exact .inl ⟨rfl, .nil⟩
  | plain hc _ ih =>
    rcases ih with ⟨rfl, hplain⟩ | hlt
    · exact .inl ⟨rfl, .cons hc hplain⟩
    · right
      rw [List.length_append, List.length_append]
      omega
  | @escape e raw s c he _ ih =>
    right
    have hle := he.length
    have hraw : s.length ≤ raw.length := by
      rcases ih with ⟨rfl, -⟩ | hlt
      · exact Nat.le_refl _
      · exact Nat.le_of_lt hlt
    rw [List.length_append, List.length_cons, List.length_append]
    omega

/-- A quote in the text of a string denotes a quote further in front. -/
lemma Chars.quote_before {raw s : List UInt8} (h : Chars raw s) :
    ∀ q : Nat, raw[q]? = some QUOTE → ∃ l : Nat, l < q ∧ s[l]? = some QUOTE := by
  induction h with
  | nil => simp
  | @plain c raw s hc _ ih =>
    intro q hq
    by_cases hlt : q < (String.utf8EncodeChar c).length
    · rw [List.getElem?_append_left hlt] at hq
      exact absurd rfl (plain_byte hc (List.mem_of_getElem? hq)).1
    · rw [List.getElem?_append_right (by omega)] at hq
      obtain ⟨l, hl, hs⟩ := ih _ hq
      refine ⟨l + (String.utf8EncodeChar c).length, by omega, ?_⟩
      rwa [List.getElem?_append_right (by omega), Nat.add_sub_cancel]
  | @escape e raw s c he _ ih =>
    intro q hq
    cases q with
    | zero =>
      simp only [List.getElem?_cons_zero, Option.some_inj] at hq
      exact absurd hq (by decide)
    | succ q =>
      rw [List.getElem?_cons_succ] at hq
      by_cases hlt : q < e.length
      · rw [List.getElem?_append_left hlt] at hq
        obtain ⟨rfl, rfl⟩ := he.of_quote (List.mem_of_getElem? hq)
        exact ⟨0, by omega, rfl⟩
      · rw [List.getElem?_append_right (by omega)] at hq
        obtain ⟨l, hl, hs⟩ := ih _ hq
        have hle := he.length
        refine ⟨l + (String.utf8EncodeChar c).length, by omega, ?_⟩
        rwa [List.getElem?_append_right (by omega), Nat.add_sub_cancel]

/-- Where a text is written between quotes as it is, and read back, it stands for itself. -/
lemma Chars.verbatim {raw s x y : List UInt8} (h : Chars raw s)
    (heq : raw ++ QUOTE :: x = s ++ QUOTE :: y) : raw = s ∧ PlainText s := by
  rcases h.plain_or_shorter with hplain | hlt
  · exact hplain
  exfalso
  have hget : ∀ q < s.length, raw[q]? = s[q]? := by
    intro q hq
    have := congrArg (fun l : List UInt8 => l[q]?) heq
    rwa [List.getElem?_append_left (by omega), List.getElem?_append_left hq] at this
  -- the text holds the quote behind `s`, and with it quotes ever further in front
  have hnone : ∀ q, q ≤ s.length → raw[q]? ≠ some QUOTE := by
    intro q
    induction q using Nat.strongRecOn with
    | _ q ih =>
      intro hq hquote
      obtain ⟨l, hl, hs⟩ := h.quote_before q hquote
      exact ih l hl (by omega) ((hget l (by omega)).trans hs)
  apply hnone s.length (Nat.le_refl _)
  have := congrArg (fun l : List UInt8 => l[s.length]?) heq
  rwa [List.getElem?_append_left hlt, List.getElem?_append_right (Nat.le_refl _), Nat.sub_self] at this

/-- The first quote behind a plain text ends it. -/
lemma Chars.of_plain {raw s p x y : List UInt8} (h : Chars raw s) (hp : PlainText p)
    (heq : raw ++ QUOTE :: x = p ++ QUOTE :: y) : raw = p ∧ s = p := by
  have hbyte := hp.byte
  clear hp
  induction h generalizing p with
  | nil =>
    cases p with
    | nil => exact ⟨rfl, rfl⟩
    | cons b p =>
      rw [List.nil_append, List.cons_append, List.cons.injEq] at heq
      exact absurd heq.1.symm (hbyte b List.mem_cons_self).1
  | plain hc _ ih =>
    rw [List.append_assoc, List.append_eq_append_iff] at heq
    rcases heq with ⟨front, rfl, heq⟩ | ⟨back, henc, heq⟩
    · obtain ⟨rfl, rfl⟩ := ih heq fun b hb => hbyte b (List.mem_append_right _ hb)
      exact ⟨rfl, rfl⟩
    · cases back with
      | nil =>
        rw [List.append_nil] at henc
        rw [List.nil_append] at heq
        obtain ⟨rfl, rfl⟩ := ih (p := []) heq.symm (by simp)
        simp [henc]
      | cons b back =>
        rw [List.cons_append, List.cons.injEq] at heq
        rw [← heq.1] at henc
        exact absurd rfl (plain_byte hc (henc ▸ by simp)).1
  | escape he _ ih =>
    cases p with
    | nil =>
      rw [List.nil_append, List.cons_append, List.cons.injEq] at heq
      exact absurd heq.1 (by decide)
    | cons b p =>
      rw [List.cons_append, List.cons_append, List.cons.injEq] at heq
      exact absurd heq.1.symm (hbyte b List.mem_cons_self).2

/-! ### Reading a known text -/

lemma ws_nil : Ws [] := fun _ h => absurd h List.not_mem_nil

lemma ws_cancel {w : List UInt8} (hw : Ws w) : ∀ {w' : List UInt8} {a b : UInt8} {x y : List UInt8},
    Ws w' → isWs a = false → isWs b = false → w ++ a :: x = w' ++ b :: y →
      w = w' ∧ a = b ∧ x = y := by
  induction w with
  | nil =>
    intro w' a b x y hw' ha hb heq
    cases w' with
    | nil =>
      rw [List.nil_append, List.nil_append, List.cons.injEq] at heq
      exact ⟨rfl, heq⟩
    | cons c w' =>
      rw [List.nil_append, List.cons_append, List.cons.injEq] at heq
      rw [heq.1, hw' c List.mem_cons_self] at ha
      cases ha
  | cons c w ih =>
    intro w' a b x y hw' ha hb heq
    cases w' with
    | nil =>
      rw [List.nil_append, List.cons_append, List.cons.injEq] at heq
      rw [← heq.1, hw c List.mem_cons_self] at hb
      cases hb
    | cons c' w' =>
      rw [List.cons_append, List.cons_append, List.cons.injEq] at heq
      obtain ⟨rfl, rfl, rfl⟩ := ih (fun d hd => hw d (List.mem_cons_of_mem _ hd))
        (fun d hd => hw' d (List.mem_cons_of_mem _ hd)) ha hb heq.2
      exact ⟨by rw [heq.1], rfl, rfl⟩

lemma Number.head {t : List UInt8} (h : Number t) :
    ∃ c t', t = c :: t' ∧ isWs c = false ∧ c ≠ QUOTE := by
  obtain ⟨sign, int, frac, exp, rfl, hsign, ⟨⟨hne, hdigits⟩, -⟩, -⟩ := h
  rcases hsign with rfl | rfl
  · cases int with
    | nil => exact absurd rfl hne
    | cons d ds =>
      refine ⟨d, ds ++ (frac ++ exp), rfl, ?_⟩
      have hd := hdigits d List.mem_cons_self
      unfold isWs
      simp only [Bool.or_eq_false_iff, decide_eq_false_iff_not]
      refine ⟨⟨⟨⟨?_, ?_⟩, ?_⟩, ?_⟩, ?_⟩ <;> rintro rfl <;> exact absurd hd.1 (by decide)
  · exact ⟨0x2d, int ++ (frac ++ exp), rfl, by decide⟩

/-- A value starts with a byte that tells its kind. -/
lemma Value.head {t : List UInt8} {v : Json} (h : Value t v) : ∃ c t', t = c :: t' ∧
    isWs c = false ∧ (c = QUOTE → ∃ raw s, t' = raw ++ [QUOTE] ∧ v = .str s ∧ Chars raw s) := by
  cases h with
  | num h =>
    obtain ⟨c, t', rfl, hws, hne⟩ := h.head
    exact ⟨c, t', rfl, hws, fun h => absurd h hne⟩
  | str h => exact ⟨QUOTE, _, rfl, by decide, fun _ => ⟨_, _, rfl, rfl, h⟩⟩
  | _ => exact ⟨_, _, rfl, by decide, fun h => absurd h (by decide)⟩

/-- A member with a string, as it is written in a known text. -/
structure StrMember where
  before : List UInt8
  name : List UInt8
  raw : List UInt8
  before_ws : Ws before
  name_plain : PlainText name

def StrMember.text (m : StrMember) : List UInt8 :=
  m.before ++ QUOTE :: (m.name ++ QUOTE :: ([0x20] ++ 0x3a :: ([0x20] ++ QUOTE :: (m.raw ++ [QUOTE]))))

/-- The text of an object with these members. -/
def objectText (ms : List StrMember) : List UInt8 :=
  0x7b :: ([0x2c].intercalate (ms.map StrMember.text) ++ [0x7d])

lemma ws_blank : Ws [0x20] := by
  intro c hc
  rw [List.mem_singleton.mp hc]
  decide

lemma StrMember.member (m : StrMember) {s : List UInt8} (h : Chars m.raw s) :
    Member Value m.text (m.name, .str s) := by
  have := Member.mk m.before_ws m.name_plain.chars ws_blank ws_blank (Value.str h)
    ws_nil
  rwa [List.append_nil, List.cons_append] at this

/-- The text can be read where all its strings can. -/
lemma objectText_members {decode : StrMember → List UInt8} {ms : List StrMember} (hne : ms ≠ [])
    (h : ∀ m ∈ ms, Chars m.raw (decode m)) :
    Text (objectText ms) (.obj (ms.map fun m => (m.name, .str (decode m)))) := by
  have hmembers : Members Value ([0x2c].intercalate (ms.map StrMember.text))
      (ms.map fun m => (m.name, .str (decode m))) := by
    induction ms with
    | nil => exact absurd rfl hne
    | cons m ms ih =>
      have hm := m.member (h m List.mem_cons_self)
      cases ms with
      | nil => simpa using Members.one hm
      | cons m' ms =>
        have hrest := ih (List.cons_ne_nil _ _) fun m h' => h m (List.mem_cons_of_mem _ h')
        rw [List.map_cons, List.map_cons, List.intercalate_cons_cons, ← List.map_cons,
          List.append_assoc]
        exact .cons hm hrest
  refine ⟨[], _, [], ?_, by simp [Ws], .obj hmembers, by simp [Ws]⟩
  rw [List.append_nil, List.nil_append]
  rfl

/-- A member that is read where a known one is written. -/
lemma Member.known {t x y : List UInt8} {member : List UInt8 × Json} (h : Member Value t member)
    (m : StrMember) (heq : t ++ x = m.text ++ y) : ∃ raw s w, member = (m.name, .str s) ∧
      Chars raw s ∧ Ws w ∧ raw ++ QUOTE :: (w ++ x) = m.raw ++ QUOTE :: y := by
  obtain @⟨w₁, raw, name, w₂, w₃, t, w₄, v, h₁, hname, h₂, h₃, hv, h₄⟩ := h
  simp only [StrMember.text, List.append_assoc, List.cons_append] at heq
  obtain ⟨-, -, heq⟩ := ws_cancel h₁ m.before_ws (by decide) (by decide) heq
  obtain ⟨rfl, rfl⟩ := hname.of_plain m.name_plain heq
  rw [List.append_cancel_left_eq, List.cons.injEq] at heq
  obtain ⟨-, -, heq⟩ := ws_cancel h₂ ws_blank (by decide) (by decide) heq.2
  obtain ⟨c, t', rfl, hc, hquote⟩ := hv.head
  obtain ⟨-, hc', hvalue⟩ := ws_cancel h₃ ws_blank hc (by decide) heq
  obtain ⟨raw, s, rfl, rfl, hchars⟩ := hquote hc'
  refine ⟨raw, s, w₄, rfl, hchars, h₄, ?_⟩
  simpa using hvalue

/-- Members that are read where known ones are written, if the strings are read to their ends,
are all of them. -/
lemma Members.known {t : List UInt8} {read : List (List UInt8 × Json)} (h : Members Value t read) :
    ∀ {ms : List StrMember} {x : List UInt8},
      ms ≠ [] → t ++ 0x7d :: x = [0x2c].intercalate (ms.map StrMember.text) ++ [0x7d] →
      (∀ m ∈ ms, ∀ raw s x y, (m.name, .str s) ∈ read → Chars raw s →
        raw ++ QUOTE :: x = m.raw ++ QUOTE :: y → raw = m.raw) →
      x = [] ∧ ∀ m ∈ ms, ∃ s, (m.name, .str s) ∈ read ∧ Chars m.raw s := by
  induction h with
  | @one t member h =>
    intro ms x hne heq hexact
    match ms, hne with
    | [m], _ =>
      rw [List.map_singleton, List.intercalate_singleton] at heq
      obtain ⟨raw, s, w, rfl, hchars, hw, heq⟩ := h.known m heq
      obtain rfl := hexact m List.mem_cons_self raw s _ _ List.mem_cons_self hchars heq
      rw [List.append_cancel_left_eq, List.cons.injEq] at heq
      obtain ⟨-, -, heq⟩ := ws_cancel hw ws_nil (by decide) (by decide) heq.2
      refine ⟨heq, fun m' hm' => ?_⟩
      rw [List.mem_singleton.mp hm']
      exact ⟨s, List.mem_cons_self, hchars⟩
    | m :: m' :: ms, _ =>
      rw [List.map_cons, List.map_cons, List.intercalate_cons_cons, ← List.map_cons,
        List.append_assoc, List.append_assoc] at heq
      obtain ⟨raw, s, w, rfl, hchars, hw, heq⟩ := h.known m heq
      obtain rfl := hexact m List.mem_cons_self raw s _ _ List.mem_cons_self hchars heq
      rw [List.append_cancel_left_eq, List.cons.injEq] at heq
      obtain ⟨-, h, -⟩ := ws_cancel hw ws_nil (by decide) (by decide) heq.2
      exact absurd h (by decide)
  | @cons t ts member read h hs ih =>
    intro ms x hne heq hexact
    match ms, hne with
    | [m], _ =>
      rw [List.map_singleton, List.intercalate_singleton, List.append_assoc] at heq
      obtain ⟨raw, s, w, rfl, hchars, hw, heq⟩ := h.known m heq
      obtain rfl := hexact m List.mem_cons_self raw s _ _ List.mem_cons_self hchars heq
      rw [List.append_cancel_left_eq, List.cons.injEq] at heq
      obtain ⟨-, h, -⟩ := ws_cancel hw ws_nil (by decide) (by decide) heq.2
      exact absurd h (by decide)
    | m :: m' :: ms, _ =>
      rw [List.map_cons, List.map_cons, List.intercalate_cons_cons, ← List.map_cons,
        List.append_assoc, List.append_assoc, List.append_assoc] at heq
      obtain ⟨raw, s, w, rfl, hchars, hw, heq⟩ := h.known m heq
      obtain rfl := hexact m List.mem_cons_self raw s _ _ List.mem_cons_self hchars heq
      rw [List.append_cancel_left_eq, List.cons.injEq] at heq
      obtain ⟨-, -, heq⟩ := ws_cancel hw ws_nil (by decide) (by decide) heq.2
      obtain ⟨hx, hrest⟩ := ih (List.cons_ne_nil _ _) heq fun m h raw s x y hmem =>
        hexact m (List.mem_cons_of_mem _ h) raw s x y (List.mem_cons_of_mem _ hmem)
      refine ⟨hx, fun m' hm' => ?_⟩
      rcases List.mem_cons.mp hm' with rfl | hm'
      · exact ⟨s, List.mem_cons_self, hchars⟩
      · obtain ⟨s', hmem, hchars'⟩ := hrest m' hm'
        exact ⟨s', List.mem_cons_of_mem _ hmem, hchars'⟩

/-- An object that is read off the front of a known text, if the strings are read to their
ends, is the whole text. -/
theorem objectText_known {ms : List StrMember} (hne : ms ≠ []) {t x : List UInt8}
    {read : List (List UInt8 × Json)} (h : Text t (.obj read)) (heq : t ++ x = objectText ms)
    (hexact : ∀ m ∈ ms, ∀ raw s x y, (m.name, .str s) ∈ read → Chars raw s →
      raw ++ QUOTE :: x = m.raw ++ QUOTE :: y → raw = m.raw) :
    x = [] ∧ ∀ m ∈ ms, ∃ s, (m.name, .str s) ∈ read ∧ Chars m.raw s := by
  obtain ⟨w, t, w', rfl, hw, hv, hw'⟩ := h
  rw [objectText, List.append_assoc, List.append_assoc] at heq
  cases hv with
  | @emptyObj v hv =>
    rw [List.cons_append] at heq
    obtain ⟨-, -, heq⟩ := ws_cancel hw ws_nil (by decide) (by decide) heq
    match ms, hne with
    | m :: ms, _ =>
      have hquote : ∃ y, [0x2c].intercalate ((m :: ms).map StrMember.text) ++ [0x7d] =
          m.before ++ QUOTE :: y := by
        cases ms with
        | nil => exact ⟨_, by simp [StrMember.text]; rfl⟩
        | cons m' ms =>
          rw [List.map_cons, List.map_cons, List.intercalate_cons_cons, StrMember.text]
          simp only [List.append_assoc, List.cons_append]
          exact ⟨_, rfl⟩
      obtain ⟨y, hy⟩ := hquote
      rw [hy, List.append_assoc] at heq
      obtain ⟨-, h, -⟩ := ws_cancel hv m.before_ws (by decide) (by decide) heq
      exact absurd h (by decide)
  | @obj t _ hmembers =>
    rw [List.cons_append] at heq
    obtain ⟨-, -, heq⟩ := ws_cancel hw ws_nil (by decide) (by decide) heq
    rw [List.append_assoc] at heq
    obtain ⟨hx, hread⟩ := hmembers.known hne heq hexact
    exact ⟨(List.append_eq_nil_iff.mp (List.append_eq_nil_iff.mp hx).2).2, hread⟩

end Json

end Hfm.Support

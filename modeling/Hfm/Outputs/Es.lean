import Hfm.Outputs.Format
import Hfm.Support.Json
import Hfm.Support.Text

/-!
# JSON records

`src/outputs/es.c` writes a record as a JSON object. Only the path is escaped, and only its
backslashes.
-/

namespace Hfm

open Support Json

def escapeBytes (source : CStr) : CStr :=
  source.flatMap fun c => if c = BACKSLASH then [BACKSLASH, BACKSLASH] else [c]

/-- `_escape` into an array of `STR_BUFF` bytes. A path is shorter than `maxlen`. -/
def escape (source : CStr) : Except Fault CStr :=
  let dest := escapeBytes source
  if dest.length < STR_BUFF then .ok dest else .error .outOfBounds

lemma ws_blanks (n : Nat) : Ws (List.replicate n 0x20) := by
  intro c hc
  rw [List.eq_of_mem_replicate hc]
  decide

/-- A member of the format: the blanks in front, the name, and the value. -/
def esMember (blanks : Nat) (name : CStr) (hname : name.all asciiPlain = true) (value : CStr) :
    StrMember :=
  ⟨List.replicate blanks 0x20, name, value, ws_blanks blanks, plainText_of_ascii hname⟩

def esMembers (info : OutputInfo) (path : CStr) : List StrMember :=
  [esMember 0 (cstr "time_sec") (by decide) (decimal info.timeSec.toNat),
    esMember 26 (cstr "time_usec") (by decide) (decimal info.timeUsec.toNat),
    esMember 33 (cstr "pid") (by decide) (signedDecimal info.pid.toInt),
    esMember 39 (cstr "sid") (by decide) info.sid.str,
    esMember 39 (cstr "vmid") (by decide) (signedDecimal info.vmid.toInt),
    esMember 38 (cstr "policy_id") (by decide) (signedDecimal info.policyId.toInt),
    esMember 33 (cstr "action") (by decide) (signedDecimal info.action.toInt),
    esMember 36 (cstr "filepath") (by decide) path,
    esMember 34 (cstr "extpath") (by decide) info.extpath.str,
    esMember 35 (cstr "data") (by decide) info.data.str]

def QUERY_LEN : Nat := 2048

def outEsWrite (output : Output) (info : OutputInfo) : Except Fault Output := do
  let path ← escape info.filepath.str
  let query := (objectText (esMembers info path)).take (QUERY_LEN - 1)
  return { output with inserted := output.inserted ++ [⟨cstr "hfm", output.esType, query⟩] }

/-! ### Reading back -/

/-- A number, or a string with one. -/
def Denotes (n : Int) (v : Json) : Prop := ∃ t, (v = .str t ∨ v = .num t) ∧ readSigned t = some n

/-- There is a member of this name, and all members of this name have `P`. -/
def Holds (read : List (CStr × Json)) (name : CStr) (P : Json → Prop) : Prop :=
  (∃ v, (name, v) ∈ read) ∧ ∀ v, (name, v) ∈ read → P v

structure ReadsRow (read : List (CStr × Json)) (row : Row) : Prop where
  timeSec : Holds read (cstr "time_sec") (Denotes row.timeSec)
  timeUsec : Holds read (cstr "time_usec") (Denotes row.timeUsec)
  pid : Holds read (cstr "pid") (Denotes row.pid)
  sid : Holds read (cstr "sid") (· = .str row.sid)
  vmid : Holds read (cstr "vmid") (Denotes row.vmid)
  policyId : Holds read (cstr "policy_id") (Denotes row.policyId)
  action : Holds read (cstr "action") (Denotes row.action)
  filepath : Holds read (cstr "filepath") (· = .str row.filepath)
  extpath : Holds read (cstr "extpath") (· = .str row.extpath)
  data : Holds read (cstr "data") (· = .str row.data)

/-- The record is sent as an object that reads as its row. -/
def EsRight (output : Output) (info : OutputInfo) : Prop :=
  ∃ output' query read, outEsWrite output info = .ok output' ∧
    output'.inserted = output.inserted ++ [⟨cstr "hfm", output.esType, query⟩] ∧
    Json.Text query (.obj read) ∧ ReadsRow read info.row

/-- A text without quotes and control characters. -/
inductive PathText : CStr → Prop where
  | nil : PathText []
  | cons {c : Char} {s : CStr} (hc : 0x20 ≤ c.toNat ∧ c ≠ '"') (h : PathText s) :
      PathText (String.utf8EncodeChar c ++ s)

/-- The strings that are not escaped stand for themselves, the path needs no other escapes,
and everything has room. -/
structure EsPlain (info : OutputInfo) : Prop where
  sid : PlainText info.sid.str
  extpath : PlainText info.extpath.str
  data : PlainText info.data.str
  filepath : PathText info.filepath.str
  escaped : (escapeBytes info.filepath.str).length < STR_BUFF
  room : (objectText (esMembers info (escapeBytes info.filepath.str))).length < QUERY_LEN

/-! ### The escaped path -/

lemma escapeBytes_append (s s' : CStr) : escapeBytes (s ++ s') = escapeBytes s ++ escapeBytes s' :=
  List.flatMap_append

lemma escapeBytes_plain {s : CStr} (h : ∀ b ∈ s, b ≠ BACKSLASH) : escapeBytes s = s := by
  induction s with
  | nil => rfl
  | cons b s ih =>
    have hb := h b List.mem_cons_self
    have hs := ih fun b hb => h b (List.mem_cons_of_mem _ hb)
    unfold escapeBytes at hs ⊢
    rw [List.flatMap_cons, if_neg hb, hs]
    rfl

lemma PathText.chars {s : CStr} (h : PathText s) : Chars (escapeBytes s) s := by
  induction h with
  | nil => exact .nil
  | @cons c s hc _ ih =>
    rw [escapeBytes_append]
    by_cases hback : c = '\\'
    · subst hback
      exact .escape .backslash ih
    · have hplain : Plain c := ⟨hc.1, hc.2, hback⟩
      rw [escapeBytes_plain fun b hb => (plain_byte hplain hb).2]
      exact .plain hplain ih

/-- Where an escaped path is read back, no other escape is in it. -/
lemma chars_escaped {raw s x y : CStr} (h : Chars raw s)
    (heq : raw ++ QUOTE :: x = escapeBytes s ++ QUOTE :: y) : raw = escapeBytes s ∧ PathText s := by
  induction h with
  | nil => exact ⟨rfl, .nil⟩
  | @plain c raw s hc _ ih =>
    rw [escapeBytes_append, escapeBytes_plain fun b hb => (plain_byte hc hb).2] at heq ⊢
    rw [List.append_assoc, List.append_assoc, List.append_cancel_left_eq] at heq
    obtain ⟨hraw, hs⟩ := ih heq
    exact ⟨by rw [hraw], .cons ⟨hc.1, hc.2.1⟩ hs⟩
  | @escape e raw s c he _ ih =>
    rw [escapeBytes_append] at heq ⊢
    rcases he.head with ⟨rfl, rfl⟩ | ⟨b, e, rfl, hb⟩
    · have hback : escapeBytes (String.utf8EncodeChar '\\') = [BACKSLASH, BACKSLASH] := by decide
      rw [hback] at heq ⊢
      obtain ⟨hraw, hs⟩ := ih (List.cons.inj (List.cons.inj heq).2).2
      exact ⟨by rw [hraw]; rfl, .cons (by decide) hs⟩
    · -- the escaped path has two backslashes here, or none
      exfalso
      cases henc : String.utf8EncodeChar c with
      | nil => exact String.utf8EncodeChar_ne_nil henc
      | cons d ds =>
        rw [henc, escapeBytes, List.flatMap_cons] at heq
        by_cases hd : d = BACKSLASH
        · rw [if_pos hd] at heq
          exact hb (List.cons.inj (List.cons.inj heq).2).1
        · rw [if_neg hd] at heq
          exact hd (List.cons.inj heq).1.symm

/-! ### The record -/

lemma holds_of_mem {read : List (CStr × Json)} {P : Json → Prop} {name : CStr} {v : Json}
    (hnodup : (read.map Prod.fst).Nodup) (hmem : (name, v) ∈ read) (hP : P v) :
    Holds read name P := by
  refine ⟨⟨v, hmem⟩, fun v' hmem' => ?_⟩
  have := List.inj_on_of_nodup_map hnodup hmem hmem' rfl
  rw [← (Prod.mk.inj this).2]
  exact hP

lemma Holds.str {read : List (CStr × Json)} {name s s' : CStr}
    (h : Holds read name (· = .str s)) (hmem : (name, .str s') ∈ read) : s' = s :=
  Json.str.inj (h.2 _ hmem)

lemma number_plainText {s : CStr} (h : ∀ c ∈ s, isDigit c = true ∨ c = 0x2d) : PlainText s := by
  apply plainText_of_ascii
  rw [List.all_eq_true]
  intro c hc
  rcases h c hc with hdigit | rfl
  · unfold isDigit at hdigit
    simp only [Bool.and_eq_true, decide_eq_true_eq, UInt8.le_iff_toNat_le] at hdigit
    have hge : 0x30 ≤ c.toNat := hdigit.1
    have hle : c.toNat ≤ 0x39 := hdigit.2
    unfold asciiPlain
    simp only [Bool.and_eq_true, decide_eq_true_eq, UInt8.le_iff_toNat_le, UInt8.lt_iff_toNat_lt]
    refine ⟨⟨⟨?_, ?_⟩, ?_⟩, ?_⟩
    · change 0x20 ≤ c.toNat
      omega
    · change c.toNat < 0x80
      omega
    · rintro rfl
      exact absurd hge (by decide)
    · rintro rfl
      exact absurd hle (by decide)
  · decide

/-- What is read of a member that is right is what was written. -/
lemma esMembers_exact {info : OutputInfo} {read : List (CStr × Json)} (hrow : ReadsRow read info.row) :
    ∀ m ∈ esMembers info (escapeBytes info.filepath.str), ∀ raw s x y, (m.name, .str s) ∈ read →
      Chars raw s → raw ++ QUOTE :: x = m.raw ++ QUOTE :: y → raw = m.raw := by
  have hdec : ∀ n, PlainText (decimal n) := fun n => number_plainText fun c hc => .inl (mem_decimal hc)
  have hsigned : ∀ n, PlainText (signedDecimal n) :=
    fun n => number_plainText fun c hc => mem_signedDecimal hc
  intro m hm raw s x y hmem hchars heq
  simp only [esMembers, List.mem_cons, List.not_mem_nil, or_false] at hm
  rcases hm with rfl | rfl | rfl | rfl | rfl | rfl | rfl | rfl | rfl | rfl
  · exact (hchars.of_plain (hdec _) heq).1
  · exact (hchars.of_plain (hdec _) heq).1
  · exact (hchars.of_plain (hsigned _) heq).1
  · obtain rfl := hrow.sid.str hmem
    exact (hchars.verbatim heq).1
  · exact (hchars.of_plain (hsigned _) heq).1
  · exact (hchars.of_plain (hsigned _) heq).1
  · exact (hchars.of_plain (hsigned _) heq).1
  · obtain rfl := hrow.filepath.str hmem
    exact (chars_escaped hchars heq).1
  · obtain rfl := hrow.extpath.str hmem
    exact (hchars.verbatim heq).1
  · obtain rfl := hrow.data.str hmem
    exact (hchars.verbatim heq).1

/-- What the strings of the members denote, where each is right. -/
def esDecode (info : OutputInfo) (m : StrMember) : CStr :=
  if m.name = cstr "filepath" then info.filepath.str else m.raw

lemma esMembers_chars {info : OutputInfo} (h : EsPlain info) :
    ∀ m ∈ esMembers info (escapeBytes info.filepath.str), Chars m.raw (esDecode info m) := by
  have hdec : ∀ n, PlainText (decimal n) := fun n => number_plainText fun c hc => .inl (mem_decimal hc)
  have hsigned : ∀ n, PlainText (signedDecimal n) :=
    fun n => number_plainText fun c hc => mem_signedDecimal hc
  intro m hm
  simp only [esMembers, List.mem_cons, List.not_mem_nil, or_false] at hm
  rcases hm with rfl | rfl | rfl | rfl | rfl | rfl | rfl | rfl | rfl | rfl
  · exact (hdec _).chars
  · exact (hdec _).chars
  · exact (hsigned _).chars
  · exact h.sid.chars
  · exact (hsigned _).chars
  · exact (hsigned _).chars
  · exact (hsigned _).chars
  · exact h.filepath.chars
  · exact h.extpath.chars
  · exact h.data.chars

lemma denotes_signed (n : Int) : Denotes n (.str (signedDecimal n)) :=
  ⟨_, .inl rfl, readSigned_signedDecimal n⟩

lemma denotes_unsigned (n : Nat) : Denotes n (.str (decimal n)) := by
  have hsigned : signedDecimal (n : Int) = decimal n := by
    rw [signedDecimal, if_neg (by omega), Int.natAbs_natCast]
  rw [← hsigned]
  exact denotes_signed n

/-- What is read of a record, where everything is right. -/
def esRead (info : OutputInfo) : List (CStr × Json) :=
  [(cstr "time_sec", .str (decimal info.timeSec.toNat)),
    (cstr "time_usec", .str (decimal info.timeUsec.toNat)),
    (cstr "pid", .str (signedDecimal info.pid.toInt)),
    (cstr "sid", .str info.sid.str),
    (cstr "vmid", .str (signedDecimal info.vmid.toInt)),
    (cstr "policy_id", .str (signedDecimal info.policyId.toInt)),
    (cstr "action", .str (signedDecimal info.action.toInt)),
    (cstr "filepath", .str info.filepath.str),
    (cstr "extpath", .str info.extpath.str),
    (cstr "data", .str info.data.str)]

lemma esMembers_read (info : OutputInfo) :
    ((esMembers info (escapeBytes info.filepath.str)).map fun m => (m.name, Json.str (esDecode info m))) =
      esRead info := rfl

lemma esRead_row (info : OutputInfo) : ReadsRow (esRead info) info.row := by
  have hnodup : ((esRead info).map Prod.fst).Nodup := by
    change [cstr "time_sec", cstr "time_usec", cstr "pid", cstr "sid", cstr "vmid",
      cstr "policy_id", cstr "action", cstr "filepath", cstr "extpath", cstr "data"].Nodup
    decide
  have hholds : ∀ (i : Nat) {name : CStr} {v : Json} {P : Json → Prop},
      (esRead info)[i]? = some (name, v) → P v → Holds (esRead info) name P :=
    fun _ _ _ _ hget hP => holds_of_mem hnodup (List.mem_of_getElem? hget) hP
  exact {
    timeSec := hholds 0 rfl (denotes_unsigned _)
    timeUsec := hholds 1 rfl (denotes_unsigned _)
    pid := hholds 2 rfl (denotes_signed _)
    sid := hholds 3 rfl rfl
    vmid := hholds 4 rfl (denotes_signed _)
    policyId := hholds 5 rfl (denotes_signed _)
    action := hholds 6 rfl (denotes_signed _)
    filepath := hholds 7 rfl rfl
    extpath := hholds 8 rfl rfl
    data := hholds 9 rfl rfl }

lemma esMembers_ne_nil (info : OutputInfo) (path : CStr) : esMembers info path ≠ [] :=
  List.cons_ne_nil _ _

lemma EsRight.plain {output : Output} {info : OutputInfo} (h : EsRight output info) : EsPlain info := by
  obtain ⟨output', query, read, hok, hinserted, htext, hrow⟩ := h
  obtain ⟨path, hescape, hok⟩ := bind_eq_ok.mp hok
  unfold escape at hescape
  dsimp only at hescape
  split at hescape
  · rename_i hescaped
    cases hescape
    cases hok
    have hquery := List.append_cancel_left hinserted
    rw [List.cons.injEq, ClasticInsert.mk.injEq] at hquery
    obtain rfl := hquery.1.2.2
    obtain ⟨hdrop, hread⟩ := objectText_known (esMembers_ne_nil _ _) htext (List.take_append_drop _ _)
      (esMembers_exact hrow)
    rw [List.drop_eq_nil_iff] at hdrop
    have hmember : ∀ name raw, (∃ m ∈ esMembers info (escapeBytes info.filepath.str),
        m.name = name ∧ m.raw = raw) → ∃ s, (name, Json.str s) ∈ read ∧ Chars raw s := by
      rintro name raw ⟨m, hm, rfl, rfl⟩
      exact hread m hm
    obtain ⟨s, hmem, hsid⟩ := hmember (cstr "sid") info.sid.str (by simp [esMembers, esMember])
    obtain rfl := hrow.sid.str hmem
    obtain ⟨s, hmem, hpath⟩ := hmember (cstr "filepath") (escapeBytes info.filepath.str)
      (by simp [esMembers, esMember])
    obtain rfl := hrow.filepath.str hmem
    obtain ⟨s, hmem, hext⟩ := hmember (cstr "extpath") info.extpath.str
      (by simp [esMembers, esMember])
    obtain rfl := hrow.extpath.str hmem
    obtain ⟨s, hmem, hdata⟩ := hmember (cstr "data") info.data.str (by simp [esMembers, esMember])
    obtain rfl := hrow.data.str hmem
    refine ⟨(hsid.verbatim (x := []) rfl).2, (hext.verbatim (x := []) rfl).2,
      (hdata.verbatim (x := []) rfl).2, (chars_escaped (x := []) hpath rfl).2, hescaped, ?_⟩
    unfold QUERY_LEN at hdrop ⊢
    omega
  · cases hescape

lemma EsPlain.right {info : OutputInfo} (h : EsPlain info) (output : Output) : EsRight output info := by
  have htext := objectText_members (esMembers_ne_nil _ _) (esMembers_chars h)
  rw [esMembers_read] at htext
  have hok : outEsWrite output info = .ok { output with inserted := output.inserted ++
      [⟨cstr "hfm", output.esType, objectText (esMembers info (escapeBytes info.filepath.str))⟩] } := by
    rw [outEsWrite, escape]
    dsimp only
    rw [if_pos h.escaped, ← List.take_of_length_le (Nat.le_sub_one_of_lt h.room)]
    rfl
  exact ⟨_, _, _, hok, rfl, htext, esRead_row info⟩

/-- The record can be read back exactly if nothing in it needs another escape, or more room. -/
theorem esRight_iff (output : Output) (info : OutputInfo) : EsRight output info ↔ EsPlain info :=
  ⟨EsRight.plain, fun h => h.right output⟩

/-- A record whose data is a quote. -/
def quoteInfo : OutputInfo :=
  ⟨0, 0, 4, 1, 7, 1, .empty SID_LEN_pos, ⟨[QUOTE], by decide, by decide⟩,
    ⟨cstr "/a", by decide, by decide⟩, .empty PATH_MAX_LEN_pos⟩

/-- The quote ends the string it stands in. -/
theorem es_quote_breaks : ¬EsRight ⟨none, [], []⟩ quoteInfo := by
  intro h
  have hquote := h.plain.data.byte QUOTE List.mem_cons_self
  exact hquote.1 rfl

end Hfm

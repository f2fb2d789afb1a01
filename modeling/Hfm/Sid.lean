import Hfm.Context
import Hfm.Support.Triple

/-!
# Security identifiers

`hfm_extract_sid` of `src/context.c` reads an identifier of the guest and prints it with a `-`
behind each number, the last of which it takes away again.
-/

namespace Hfm

open Support

/-- A security identifier. The authority is a number of 48 bits in the guest. -/
structure Sid where
  revision : Fin 10
  authority : Nat
  subAuthorities : List UInt32
  deriving DecidableEq

namespace Sid

def numbers (sid : Sid) : List Nat := sid.authority :: sid.subAuthorities.map UInt32.toNat

/-- `S-`, the revision, and each number behind a `-`. -/
def text (sid : Sid) : CStr :=
  cstr "S-" ++ decimal sid.revision ++ sid.numbers.flatMap (cstr "-" ++ decimal ·)

/-- How many characters the text has. -/
def width (sid : Sid) : Nat := 3 + (sid.numbers.map (Nat.log 10 · + 2)).sum

end Sid

/-- The identifier that a text denotes. -/
def readSid : CStr → Option Sid
  | 0x53 :: 0x2d :: rest =>
    match (rest.splitOn 0x2d).mapM readDecimal with
    | some (revision :: authority :: subs) =>
      if h : revision < 10 ∧ ∀ n ∈ subs, n < 2 ^ 32 then
        some ⟨⟨revision, h.1⟩, authority, subs.map Nat.toUInt32⟩
      else none
    | _ => none
  | _ => none

/-! ### The text and its length -/

lemma length_decimal (n : Nat) : (decimal n).length = Nat.log 10 n + 1 := by
  unfold decimal
  by_cases h : n = 0
  · subst h
    rfl
  · rw [if_neg h, List.length_reverse, List.length_map, Nat.length_digits 10 n (by decide) h]

lemma dash_notMem_decimal (n : Nat) : 0x2d ∉ decimal n :=
  fun h => absurd (mem_decimal h) (by decide)

/-- The numbers behind the first, each behind a `-`. -/
lemma splitOn_numbers (n : Nat) (ns : List Nat) :
    (decimal n ++ ns.flatMap (cstr "-" ++ decimal ·)).splitOn 0x2d = (n :: ns).map decimal := by
  induction ns generalizing n with
  | nil =>
    rw [List.flatMap_nil, List.append_nil]
    exact List.splitOn_eq_singleton (dash_notMem_decimal n)
  | cons m ns ih =>
    have hcons : decimal n ++ (m :: ns).flatMap (cstr "-" ++ decimal ·) =
        decimal n ++ 0x2d :: (decimal m ++ ns.flatMap (cstr "-" ++ decimal ·)) := rfl
    rw [hcons, List.splitOn_append_cons_self_of_not_mem (dash_notMem_decimal n), ih]
    rfl

lemma mapM_readDecimal (ns : List Nat) : (ns.map decimal).mapM readDecimal = some ns := by
  induction ns with
  | nil => rfl
  | cons n ns ih => rw [List.map_cons, List.mapM_cons, readDecimal_decimal, ih]; rfl

namespace Sid

variable (sid : Sid)

lemma text_eq : sid.text = 0x53 :: 0x2d ::
    (decimal sid.revision ++ sid.numbers.flatMap (cstr "-" ++ decimal ·)) := rfl

/-- Reading the text gives the identifier back. -/
theorem readSid_text : readSid sid.text = some sid := by
  obtain ⟨revision, authority, subs⟩ := sid
  have hlt : ∀ n ∈ subs.map UInt32.toNat, n < 2 ^ 32 := by
    intro n hn
    obtain ⟨sub, -, rfl⟩ := List.mem_map.mp hn
    exact sub.toNat_lt
  have hback : (subs.map UInt32.toNat).map Nat.toUInt32 = subs := by
    rw [List.map_map]
    exact (List.map_congr_left fun sub _ => UInt32.ofNat_toNat).trans (List.map_id subs)
  rw [text_eq, readSid, splitOn_numbers, mapM_readDecimal]
  dsimp only [numbers]
  rw [dif_pos ⟨revision.isLt, hlt⟩, hback]

lemma text_injective {sid sid' : Sid} (h : sid.text = sid'.text) : sid = sid' := by
  have hread := readSid_text sid
  rw [h, readSid_text] at hread
  exact (Option.some_inj.mp hread).symm

lemma length_text : sid.text.length = sid.width := by
  have hrevision : (decimal sid.revision).length = 1 := by
    rw [length_decimal, Nat.log_eq_zero_iff.mpr (.inl sid.revision.isLt)]
  have hnumbers (ns : List Nat) : (ns.flatMap (cstr "-" ++ decimal ·)).length =
      (ns.map (Nat.log 10 · + 2)).sum := by
    rw [List.length_flatMap]
    congr 1
    apply List.map_congr_left
    intro n _
    rw [List.length_append, length_decimal, Nat.add_comm]
    rfl
  rw [text, List.length_append, List.length_append, hrevision, hnumbers]
  rfl

lemma getLast_text : sid.text.getLast? ≠ some 0x2d := by
  obtain ⟨ns, n, hns⟩ : ∃ ns n, sid.numbers = ns ++ [n] :=
    ⟨_, _, (List.dropLast_concat_getLast (List.cons_ne_nil _ _)).symm⟩
  have hne := decimal_ne_nil n
  rw [text, hns, List.flatMap_append, List.flatMap_singleton, ← List.append_assoc,
    ← List.append_assoc, List.getLast?_append_of_ne_nil _ hne, List.getLast?_eq_some_getLast hne,
    ne_eq, Option.some_inj]
  exact fun h => dash_notMem_decimal n (h ▸ List.getLast_mem hne)

lemma notMem_text {c : UInt8} (hlabel : c ∉ cstr "S-") (hdigit : isDigit c = false) :
    c ∉ sid.text := by
  have hdecimal (n : Nat) : c ∉ decimal n := fun h => by
    rw [mem_decimal h] at hdigit
    cases hdigit
  intro h
  rw [text, List.mem_append, List.mem_append, List.mem_flatMap] at h
  rcases h with (h | h) | ⟨n, -, h⟩
  · exact hlabel h
  · exact hdecimal _ h
  · rcases List.mem_append.mp h with h | h
    · exact hlabel (List.mem_cons_of_mem _ h)
    · exact hdecimal n h

lemma nul_notMem_text : 0 ∉ sid.text := sid.notMem_text (by decide) (by decide)

end Sid

/-! ### Reading and writing -/

section Extract

variable {κ ε : Type} {n : Nat}

/-- The identifier that is read; none if its revision is no digit. -/
def hfmSid (ctx : Context κ ε) (sidAddr : UInt64) : ContextM (Option Sid) := do
  let firstByte ← hfmRead8 ctx sidAddr
  if h : firstByte.toNat < 10 then
    let bytes ← (List.range 6).mapM fun i => hfmRead8 ctx (sidAddr + 2 + i.toUInt64)
    let subAuthNo ← hfmRead8 ctx (sidAddr + 1)
    let subAuths ← (List.range subAuthNo.toNat).mapM fun i =>
      hfmRead32 ctx (sidAddr + 8 + 4 * i.toUInt64)
    return some ⟨⟨_, h⟩, bytes.foldl (fun n b => 256 * n + b.toNat) 0, subAuths⟩
  else return none

/-- `hfmExtractSid` on what was read. -/
def writeSid (sid : CharArray n) : Option Sid → Except Fault (CharArray n)
  | none => .ok sid
  | some read => do
    let written ← CharArray.sprintf n (read.text ++ cstr "-")
    CharArray.sprintf n written.str.dropLast

/-- The text fits with the `-` that is written behind it. -/
def SidRoom (n : Nat) : Option Sid → Prop
  | none => True
  | some read => read.width + 1 < n

lemma writeSid_ok (sid : CharArray n) {read : Sid} (h : read.width + 1 < n) :
    ∃ out, writeSid sid (some read) = .ok out ∧ out.str = read.text := by
  have hnul : 0 ∉ read.text ++ cstr "-" := by
    rw [List.mem_append]
    exact fun hmem => hmem.elim read.nul_notMem_text (by decide)
  have hself := cString_of_nul hnul
  have hlen : (cString (read.text ++ cstr "-")).length < n := by
    rw [hself, List.length_append, read.length_text]
    exact h
  have htext := cString_of_nul read.nul_notMem_text
  have hdrop : cString ((cString (read.text ++ cstr "-")).dropLast) = read.text := by
    rw [hself]
    exact (congrArg cString List.dropLast_concat).trans htext
  have hlen' : (cString ((cString (read.text ++ cstr "-")).dropLast)).length < n := by
    rw [hdrop, read.length_text]
    omega
  refine ⟨⟨_, hlen', nul_notMem_cString _⟩, ?_, hdrop⟩
  unfold writeSid CharArray.sprintf
  dsimp only
  rw [dif_pos hlen]
  exact dif_pos hlen'

lemma writeSid_error (sid : CharArray n) {read : Sid} (h : ¬read.width + 1 < n) :
    writeSid sid (some read) = .error .outOfBounds := by
  have hnul : 0 ∉ read.text ++ cstr "-" := by
    rw [List.mem_append]
    exact fun hmem => hmem.elim read.nul_notMem_text (by decide)
  have hlen : ¬(cString (read.text ++ cstr "-")).length < n := by
    rw [cString_of_nul hnul, List.length_append, read.length_text]
    exact h
  unfold writeSid CharArray.sprintf
  dsimp only
  rw [dif_neg hlen]
  rfl

/-- The revision is a digit. -/
lemma decimal_revision : ∀ revision : Fin 10, decimal revision = [0x30 + revision.val.toUInt8] := by
  decide

/-- What the calls of `sprintf` write. -/
lemma written_eq (sid : Sid) : cstr "S-" ++ [0x30 + sid.revision.val.toUInt8] ++ cstr "-" ++
    sid.numbers.flatMap (decimal · ++ cstr "-") = sid.text ++ cstr "-" := by
  rw [← decimal_revision, List.append_assoc (cstr "S-" ++ decimal sid.revision), append_flatMap,
    ← List.append_assoc]
  rfl

lemma hfmExtractSid_eq (ctx : Context κ ε) (sidAddr : UInt64) (sid : CharArray n) :
    hfmExtractSid ctx sidAddr sid = hfmSid ctx sidAddr >>= fun read => liftM (writeSid sid read) := by
  unfold hfmExtractSid hfmSid
  rw [bind_assoc]
  apply bind_congr
  intro firstByte
  by_cases h : firstByte.toNat < 10
  · have hle : ¬9 < firstByte := by
      rw [UInt8.lt_iff_toNat_lt]
      exact Nat.not_lt.mpr (Nat.le_of_lt_succ h)
    rw [if_neg hle, dif_pos h, bind_assoc]
    apply bind_congr
    intro bytes
    rw [bind_assoc]
    apply bind_congr
    intro subAuthNo
    rw [bind_assoc]
    apply bind_congr
    intro subAuths
    have hwritten := written_eq ⟨⟨firstByte.toNat, h⟩, bytes.foldl (fun n b => 256 * n + b.toNat) 0,
      subAuths⟩
    have hbyte : (Fin.mk (n := 10) firstByte.toNat h).val.toUInt8 = firstByte := UInt8.ofNat_toNat
    rw [hbyte] at hwritten
    rw [pure_bind]
    funext s
    unfold writeSid
    dsimp only
    rw [← hwritten]
    dsimp only [Sid.numbers]
    cases CharArray.sprintf n (cstr "S-" ++ [0x30 + firstByte] ++ cstr "-" ++
      (bytes.foldl (fun n b => 256 * n + b.toNat) 0 :: subAuths.map UInt32.toNat).flatMap
        (decimal · ++ cstr "-")) with
    | error fault => rfl
    | ok written => rfl
  · have hlt : 9 < firstByte := by
      rw [UInt8.lt_iff_toNat_lt]
      exact Nat.lt_of_succ_le (Nat.le_of_not_lt h)
    rw [if_pos hlt, dif_neg h]
    rfl

/-- Text is written exactly if it fits with the `-` behind it. -/
lemma hfmExtractSid_run {ctx : Context κ ε} {sidAddr : UInt64} {s s' : ContextState}
    {read : Option Sid} (h : hfmSid ctx sidAddr s = .ok (read, s')) (sid : CharArray n) :
    hfmExtractSid ctx sidAddr sid s = (writeSid sid read).map fun out => (out, s') := by
  rw [hfmExtractSid_eq, bind_run h]
  cases writeSid sid read with
  | error fault => rfl
  | ok out => rfl

end Extract

/-! ### An identifier in the guest -/

/-- The byte at `addr` can be read, and is `n`. -/
def Reads8 (calls : ContextCalls) (addr : UInt64) (n : Nat) : Prop :=
  ∀ k, ∃ v, calls.read k addr = some v ∧ v.toUInt8.toNat = n

def Reads32 (calls : ContextCalls) (addr : UInt64) (w : UInt32) : Prop :=
  ∀ k, ∃ v, calls.read k addr = some v ∧ v.toUInt32 = w

/-- The structure `SID` at `addr`: the authority is big-endian. -/
structure Sid.At (calls : ContextCalls) (addr : UInt64) (sid : Sid) : Prop where
  revision : Reads8 calls addr sid.revision
  count : Reads8 calls (addr + 1) sid.subAuthorities.length
  authority : ∀ i < 6, Reads8 calls (addr + 2 + i.toUInt64) (sid.authority / 256 ^ (5 - i) % 256)
  authority_lt : sid.authority < 2 ^ 48
  subAuthorities : ∀ i (h : i < sid.subAuthorities.length),
    Reads32 calls (addr + 8 + 4 * i.toUInt64) sid.subAuthorities[i]

section At

variable {κ ε : Type} {ctx : Context κ ε} {addr : UInt64} {sid : Sid}

lemma hfmRead8_run {n : Nat} (h : Reads8 ctx.calls addr n) (s : ContextState) :
    hfmRead8 ctx addr s = .ok (n.toUInt8, { s with calls := s.calls + 1 }) := by
  obtain ⟨v, hread, rfl⟩ := h s.calls
  change Except.ok (((ctx.calls.read s.calls addr).getD 0).toUInt8, _) = _
  rw [hread]
  exact congrArg (fun b => Except.ok (b, _)) UInt8.ofNat_toNat.symm

lemma hfmRead32_run {w : UInt32} (h : Reads32 ctx.calls addr w) (s : ContextState) :
    hfmRead32 ctx addr s = .ok (w, { s with calls := s.calls + 1 }) := by
  obtain ⟨v, hread, rfl⟩ := h s.calls
  change Except.ok (((ctx.calls.read s.calls addr).getD 0).toUInt32, _) = _
  rw [hread]
  rfl

/-- Six bytes in big-endian order. -/
lemma foldl_authority {n : Nat} (h : n < 2 ^ 48) :
    ((List.range 6).map fun i => (n / 256 ^ (5 - i) % 256).toUInt8).foldl
      (fun n b => 256 * n + b.toNat) 0 = n := by
  have hbyte (m : Nat) : (m % 256).toUInt8.toNat = m % 256 :=
    UInt8.toNat_ofNat_of_lt' (Nat.mod_lt _ (by decide))
  simp only [List.range_succ, List.range_zero, List.nil_append, List.cons_append, List.map_cons,
    List.map_nil, List.foldl_cons, List.foldl_nil, hbyte]
  omega

/-- The identifier in the guest is the one that is read. -/
lemma hfmSid_at (h : sid.At ctx.calls addr) (s : ContextState) :
    ∃ s', hfmSid ctx addr s = .ok (some sid, s') := by
  have hlt : (sid.revision.val.toUInt8).toNat = sid.revision.val := by
    have := sid.revision.isLt
    exact UInt8.toNat_ofNat_of_lt' (Nat.lt_of_lt_of_le this (by decide))
  obtain ⟨s₂, hbytes⟩ := mapM_run
    (f := fun i : Nat => hfmRead8 ctx (addr + 2 + i.toUInt64)) (l := List.range 6)
    (fun i hi s => ⟨_, hfmRead8_run (h.authority i (List.mem_range.mp hi)) s⟩)
    { s with calls := s.calls + 1 }
  have hcount := hfmRead8_run h.count s₂
  have hlen : sid.subAuthorities.length.toUInt8.toNat = sid.subAuthorities.length := by
    obtain ⟨v, -, hv⟩ := h.count 0
    rw [← hv]
    exact congrArg UInt8.toNat UInt8.ofNat_toNat
  obtain ⟨s₄, hsubs⟩ := mapM_run
    (f := fun i : Nat => hfmRead32 ctx (addr + 8 + 4 * i.toUInt64))
    (g := fun i => sid.subAuthorities[i]?.getD 0) (l := List.range sid.subAuthorities.length)
    (fun i hi s => by
      have hi' := List.mem_range.mp hi
      rw [List.getElem?_eq_getElem hi', Option.getD_some]
      exact ⟨_, hfmRead32_run (h.subAuthorities i hi') s⟩)
    { s₂ with calls := s₂.calls + 1 }
  have hback : (List.range sid.subAuthorities.length).map (fun i => sid.subAuthorities[i]?.getD 0) =
      sid.subAuthorities := by
    apply List.ext_getElem
    · rw [List.length_map, List.length_range]
    · intro i _ hi
      rw [List.getElem_map, List.getElem_range, List.getElem?_eq_getElem hi,
        Option.getD_some]
  refine ⟨s₄, ?_⟩
  unfold hfmSid
  rw [bind_run (hfmRead8_run h.revision s), dif_pos (by rw [hlt]; exact sid.revision.isLt),
    bind_run hbytes, bind_run hcount, hlen, bind_run hsubs, hback, foldl_authority h.authority_lt]
  change Except.ok (some (Sid.mk ⟨_, _⟩ _ _), _) = _
  simp only [hlt]

end At

/-- The identifier in a memory that does not change; none if its revision is no digit. -/
def Memory.sid (mem : Memory) (addr : UInt64) : Option Sid :=
  if h : (mem.value addr).toUInt8.toNat < 10 then
    let byte (i : Nat) : UInt8 := (mem.value (addr + 2 + i.toUInt64)).toUInt8
    let sub (i : Nat) : UInt32 := (mem.value (addr + 8 + 4 * i.toUInt64)).toUInt32
    some ⟨⟨_, h⟩, ((List.range 6).map byte).foldl (fun n b => 256 * n + b.toNat) 0,
      (List.range (mem.value (addr + 1)).toUInt8.toNat).map sub⟩
  else none

lemma hfmSid_withMem {κ ε : Type} (ctx : Context κ ε) (mem : Memory) (addr : UInt64)
    (s : ContextState) : ∃ s', hfmSid (ctx.withMem mem) addr s = .ok (mem.sid addr, s') := by
  have hfirst := hfmRead8_withMem ctx mem addr s
  unfold hfmSid Memory.sid
  rw [bind_run hfirst]
  by_cases h : (mem.value addr).toUInt8.toNat < 10
  · obtain ⟨s₂, hbytes⟩ := mapM_run (l := List.range 6)
      (fun i _ s => ⟨_, hfmRead8_withMem ctx mem (addr + 2 + i.toUInt64) s⟩)
      { s with calls := s.calls + 1 }
    have hcount := hfmRead8_withMem ctx mem (addr + 1) s₂
    obtain ⟨s₄, hsubs⟩ := mapM_run (l := List.range (mem.value (addr + 1)).toUInt8.toNat)
      (fun i _ s => ⟨_, hfmRead32_withMem ctx mem (addr + 8 + 4 * i.toUInt64) s⟩)
      { s₂ with calls := s₂.calls + 1 }
    refine ⟨s₄, ?_⟩
    rw [dif_pos h, dif_pos h, bind_run hbytes, bind_run hcount, bind_run hsubs]
    rfl
  · rw [dif_neg h, dif_neg h]
    exact ⟨_, rfl⟩

/-- The text of an identifier is the one it denotes, and denotes no other one. -/
theorem sid_text_faithful {κ ε : Type} {ctx : Context κ ε} {addr : UInt64} {sid : Sid} {n : Nat}
    (hat : sid.At ctx.calls addr) (hroom : sid.text.length + 1 < n) (buffer : CharArray n)
    (s : ContextState) :
    (∃ out s', hfmExtractSid ctx addr buffer s = .ok (out, s') ∧ out.str = sid.text) ∧
      (sid.text.getLast? ≠ some 0x2d ∧
        ∀ n ∈ sid.numbers, decimal n = [0x30] ∨ (decimal n).head? ≠ some 0x30) ∧
      readSid sid.text = some sid ∧ ∀ sid' : Sid, sid'.text = sid.text → sid' = sid := by
  refine ⟨?_, ⟨sid.getLast_text, fun n _ => head_decimal n⟩, sid.readSid_text,
    fun sid' h => Sid.text_injective h⟩
  obtain ⟨s', hread⟩ := hfmSid_at hat s
  rw [sid.length_text] at hroom
  obtain ⟨out, hout, htext⟩ := writeSid_ok buffer hroom
  have hrun := hfmExtractSid_run hread buffer
  rw [hout] at hrun
  exact ⟨out, s', hrun, htext⟩

/-- A guest with these values in its memory. -/
def guestWith (mem : UInt64 → UInt64) : Context Unit Unit where
  regs := ⟨0, 0, 0, 0, 0, 0, 0, 0, 0⟩
  trap := ⟨0, [], none, none, 0, false, none⟩
  hdlr := (Vm.start fun _ => 0x90).hdlr
  calls :=
    { read := fun _ addr => some (mem addr)
      readBytes := fun _ _ _ => []
      convertStrEncoding := fun _ => none
      gettimeofday := fun _ => (0, 0)
      fopen := fun _ => false
      indeterminate := fun _ => 0 }

lemma reads8_guestWith {mem : UInt64 → UInt64} {addr : UInt64} {n : Nat}
    (h : (mem addr).toUInt8.toNat = n) : Reads8 (guestWith mem).calls addr n :=
  fun _ => ⟨mem addr, rfl, h⟩

/-- `S-1-5-18`. -/
def localSystem : Sid := ⟨1, 5, [18]⟩

def localSystemAt : UInt64 → UInt64 := fun addr =>
  ([(0x10, 1), (0x11, 1), (0x17, 5), (0x18, 18)].lookup addr).getD 0

theorem sid_text_faithful_localSystem :
    (∃ out s', hfmExtractSid (guestWith localSystemAt) 0x10 (.empty SID_LEN_pos) ⟨0, 0⟩ =
        .ok (out, s') ∧ out.str = localSystem.text) ∧
      (localSystem.text.getLast? ≠ some 0x2d ∧
        ∀ n ∈ localSystem.numbers, decimal n = [0x30] ∨ (decimal n).head? ≠ some 0x30) ∧
      readSid localSystem.text = some localSystem ∧
      ∀ sid' : Sid, sid'.text = localSystem.text → sid' = localSystem :=
  have hat : localSystem.At (guestWith localSystemAt).calls 0x10 :=
    { revision := reads8_guestWith (by decide)
      count := reads8_guestWith (by decide)
      authority := fun i hi => reads8_guestWith
        ((by decide : ∀ i < 6, (localSystemAt (0x10 + 2 + i.toUInt64)).toUInt8.toNat =
          localSystem.authority / 256 ^ (5 - i) % 256) i hi)
      authority_lt := by decide
      subAuthorities := fun i hi _ =>
        ⟨localSystemAt (0x10 + 8 + 4 * i.toUInt64), rfl,
          (by decide : ∀ i (h : i < localSystem.subAuthorities.length),
            (localSystemAt (0x10 + 8 + 4 * i.toUInt64)).toUInt32 = localSystem.subAuthorities[i]) i hi⟩ }
  sid_text_faithful hat (by decide) (.empty SID_LEN_pos) ⟨0, 0⟩

end Hfm

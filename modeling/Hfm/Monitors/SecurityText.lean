import Hfm.Monitors.PassedPath
import Hfm.Sid

/-!
# The texts of security identifiers

Where `hfm_extract_sid` writes to: `output.sid` of a record, and the buffer that
`_set_security_info_text` takes both the owner and the group from.
-/

namespace Hfm

open Support

/-! ### The process -/

/-- The address of the identifier of a process. -/
def processSidAddr {κ ε : Type} (ctx : Context κ ε) (processAddr : UInt64) : ContextM UInt64 := do
  let offsets := ctx.hdlr.offsets
  let fastRef ← hfmReadAddr ctx (processAddr + offsets .eprocessToken)
  let tokenAddr := fastRef &&& ~~~7
  let usrGroupAddr ← hfmReadAddr ctx (tokenAddr + offsets .tokenUserAndGroups)
  hfmReadAddr ctx (usrGroupAddr + offsets .sidAndAttributesSid)

/-- The identifier that `hfmGetProcessSid` reads. -/
def processSid {κ ε : Type} (ctx : Context κ ε) (processAddr : UInt64) : ContextM (Option Sid) := do
  hfmSid ctx (← processSidAddr ctx processAddr)

lemma hfmGetProcessSid_run {κ ε : Type} {ctx : Context κ ε} {processAddr : UInt64}
    {s s' : ContextState} {read : Option Sid} (h : processSid ctx processAddr s = .ok (read, s')) :
    hfmGetProcessSid ctx processAddr s =
      (writeSid (.empty SID_LEN_pos) read).map fun out => (out, s') := by
  obtain ⟨sidAddr, s₁, haddr, hsid⟩ := bind_run_eq_ok.mp h
  have hsplit : hfmGetProcessSid ctx processAddr =
      processSidAddr ctx processAddr >>= fun addr => hfmExtractSid ctx addr (.empty SID_LEN_pos) := by
    unfold hfmGetProcessSid processSidAddr
    simp only [bind_assoc]
  rw [hsplit, bind_run haddr, hfmExtractSid_run hsid]

/-- The text of an identifier, or one that is there already. -/
def textOr (old : CStr) : Option Sid → CStr
  | none => old
  | some sid => sid.text

lemma writeSid_iff {n : Nat} (sid : CharArray n) (read : Option Sid) :
    (∃ out, writeSid sid read = .ok out) ↔ SidRoom n read := by
  cases read with
  | none => exact ⟨fun _ => trivial, fun _ => ⟨sid, rfl⟩⟩
  | some read =>
    constructor
    · rintro ⟨out, hok⟩
      by_contra hroom
      rw [writeSid_error sid hroom] at hok
      cases hok
    · intro hroom
      obtain ⟨out, hok, -⟩ := writeSid_ok sid hroom
      exact ⟨out, hok⟩

lemma writeSid_str {n : Nat} {sid out : CharArray n} {read : Option Sid}
    (h : writeSid sid read = .ok out) : out.str = textOr sid.str read := by
  cases read with
  | none =>
    cases h
    rfl
  | some read =>
    obtain ⟨out', hok, htext⟩ := writeSid_ok sid ((writeSid_iff sid (some read)).mp ⟨out, h⟩)
    rw [h] at hok
    cases hok
    exact htext

/-- The text of the process is written whole inside its buffer. -/
def ProcessSidFits {κ ε : Type} (ctx : Context κ ε) (processAddr : UInt64) (s : ContextState) : Prop :=
  ∃ out read s', processSid ctx processAddr s = .ok (read, s') ∧
    hfmGetProcessSid ctx processAddr s = .ok (out, s') ∧ out.str = textOr [] read

lemma processSidFits_iff {κ ε : Type} {ctx : Context κ ε} {processAddr : UInt64}
    {s s' : ContextState} {read : Option Sid} (h : processSid ctx processAddr s = .ok (read, s')) :
    ProcessSidFits ctx processAddr s ↔ SidRoom SID_LEN read := by
  have hrun := hfmGetProcessSid_run h
  rw [← writeSid_iff (.empty SID_LEN_pos) read]
  constructor
  · rintro ⟨out, read', s₁, -, hok, -⟩
    rw [hrun] at hok
    obtain ⟨out', hwrite, -⟩ := map_eq_ok.mp hok
    exact ⟨out', hwrite⟩
  · rintro ⟨out, hwrite⟩
    rw [hwrite] at hrun
    exact ⟨out, read, s', h, hrun, writeSid_str hwrite⟩

/-! ### The security descriptor -/

namespace AccessChanged

def OWNER_SECURITY_INFORMATION : UInt32 := 0x01
def GROUP_SECURITY_INFORMATION : UInt32 := 0x02

/-- Whether a part of the descriptor was changed. -/
def asks (info bit : UInt32) : Bool := info &&& bit ≠ 0

/-- The address of the owner or the group. -/
def partyAddr (ctx : MonContext) (sdAddr : UInt64) (relative absolute : WinOffset) :
    ContextM UInt64 := do
  let offsets := ctx.hdlr.offsets
  let control ← hfmRead16 ctx (sdAddr + offsets .securityDescriptorControl)
  if control &&& SE_SELF_RELATIVE ≠ 0 then
    let offset ← hfmRead32 ctx (sdAddr + offsets relative)
    return sdAddr + offset.toUInt64
  else hfmReadAddr ctx (sdAddr + offsets absolute)

/-- The identifier of the owner or the group; none if it was not changed or is not valid. -/
def partySid (ctx : MonContext) (info bit : UInt32) (sdAddr : UInt64)
    (relative absolute : WinOffset) : ContextM (Option Sid) :=
  if asks info bit then do hfmSid ctx (← partyAddr ctx sdAddr relative absolute) else return none

/-- The identifiers of the owner and the group that `setSecurityInfoText` reads. -/
def securitySids (ctx : MonContext) (info : UInt32) (sdAddr : UInt64) :
    ContextM (Option Sid × Option Sid) := do
  let owner ← partySid ctx info OWNER_SECURITY_INFORMATION sdAddr
    .securityDescriptorRelativeOwner .securityDescriptorOwner
  return (owner, ← partySid ctx info GROUP_SECURITY_INFORMATION sdAddr
    .securityDescriptorRelativeGroup .securityDescriptorGroup)

def part (info bit : UInt32) (text : CStr) : CStr := if asks info bit then text else []

def ownerPart (info : UInt32) (owner : CStr) : CStr :=
  part info OWNER_SECURITY_INFORMATION (cstr "Owner Changed; : " ++ owner)

def groupPart (info : UInt32) (group : CStr) : CStr :=
  part info GROUP_SECURITY_INFORMATION (cstr "Group Changed; : " ++ group)

def aclParts (info : UInt32) : CStr :=
  part info 0x04 (cstr "DACL Changed;") ++ part info 0x08 (cstr "SACL Changed;") ++
    part info 0x10 (cstr "Label Changed;")

/-- The buffer behind the owner, and behind the group. -/
def writeSids (owner group : Option Sid) :
    Except Fault (CharArray STR_BUFF × CharArray STR_BUFF) := do
  let owner ← writeSid noData owner
  return (owner, ← writeSid owner group)

def writeInfo (info : UInt32) (texts : CharArray STR_BUFF × CharArray STR_BUFF) :
    Except Fault (CharArray STR_BUFF) :=
  CharArray.sprintf STR_BUFF (ownerPart info texts.1.str ++ groupPart info texts.2.str ++ aclParts info)

lemma sidText_run {ctx : MonContext} {sdAddr : UInt64} {relative absolute : WinOffset}
    (detail : CharArray STR_BUFF) : sidText ctx sdAddr relative absolute detail =
      (partyAddr ctx sdAddr relative absolute >>= hfmSid ctx) >>=
        fun read => liftM (writeSid detail read) := by
  have hsplit : sidText ctx sdAddr relative absolute detail =
      partyAddr ctx sdAddr relative absolute >>= fun addr => hfmExtractSid ctx addr detail := by
    unfold sidText partyAddr
    rw [bind_assoc]
    apply bind_congr
    intro control
    by_cases h : control &&& SE_SELF_RELATIVE ≠ 0
    · rw [if_pos h, if_pos h, bind_assoc]
      rfl
    · rw [if_neg h, if_neg h]
  rw [hsplit, bind_assoc]
  apply bind_congr
  intro addr
  exact hfmExtractSid_eq ctx addr detail

/-- The text of a party in the buffer that both use. -/
def partyText (ctx : MonContext) (info bit : UInt32) (sdAddr : UInt64)
    (relative absolute : WinOffset) (detail : CharArray STR_BUFF) : ContextM (CharArray STR_BUFF) :=
  if asks info bit then sidText ctx sdAddr relative absolute detail else pure detail

lemma partyText_run {ctx : MonContext} {info bit : UInt32} {sdAddr : UInt64}
    {relative absolute : WinOffset} {s s' : ContextState} {read : Option Sid}
    (h : partySid ctx info bit sdAddr relative absolute s = .ok (read, s'))
    (detail : CharArray STR_BUFF) : partyText ctx info bit sdAddr relative absolute detail s =
      (writeSid detail read).map fun out => (out, s') := by
  unfold partySid at h
  unfold partyText
  by_cases hasks : asks info bit = true
  · rw [if_pos hasks] at h
    rw [if_pos hasks, sidText_run, bind_run h]
    cases writeSid detail read with
    | error fault => rfl
    | ok out => rfl
  · rw [if_neg hasks] at h
    rw [if_neg hasks]
    cases h
    rfl

lemma setSecurityInfoText_eq (ctx : MonContext) (info : UInt32) (sdAddr : UInt64) :
    setSecurityInfoText ctx info sdAddr =
      partyText ctx info OWNER_SECURITY_INFORMATION sdAddr .securityDescriptorRelativeOwner
          .securityDescriptorOwner noData >>= fun owner =>
        partyText ctx info GROUP_SECURITY_INFORMATION sdAddr .securityDescriptorRelativeGroup
          .securityDescriptorGroup owner >>= fun group =>
            liftM (writeInfo info (owner, group)) := by
  have hite {α β : Type} (p : Prop) [Decidable p] (x y : ContextM α) (f : α → ContextM β) :
      (if p then x >>= f else y >>= f) = (if p then x else y) >>= f := by
    split <;> rfl
  unfold setSecurityInfoText partyText
  refine (hite _ _ _ _).trans (bind_congr fun owner => ?_)
  refine (hite _ _ _ _).trans (bind_congr fun group => ?_)
  unfold writeInfo aclParts
  rw [← List.append_assoc, ← List.append_assoc]
  rfl

/-- The text is the one that the identifiers give. -/
lemma setSecurityInfoText_run {ctx : MonContext} {info : UInt32} {sdAddr : UInt64}
    {s s' : ContextState} {owner group : Option Sid}
    (h : securitySids ctx info sdAddr s = .ok ((owner, group), s')) :
    setSecurityInfoText ctx info sdAddr s =
      (writeSids owner group >>= writeInfo info).map fun out => (out, s') := by
  obtain ⟨owner', s₁, howner, h⟩ := bind_run_eq_ok.mp h
  obtain ⟨group', s₂, hgroup, h⟩ := bind_run_eq_ok.mp h
  cases h
  have hfirst := partyText_run howner noData
  rw [setSecurityInfoText_eq]
  unfold writeSids
  cases hwrite : writeSid noData owner with
  | error fault =>
    rw [hwrite] at hfirst
    exact bind_run_error hfirst _
  | ok first =>
    rw [hwrite] at hfirst
    rw [bind_run hfirst]
    have hsecond := partyText_run hgroup first
    cases hwrite' : writeSid first group with
    | error fault =>
      rw [hwrite'] at hsecond
      rw [bind_run_error hsecond]
      simp only [bind, Except.bind, hwrite']
      rfl
    | ok second =>
      rw [hwrite'] at hsecond
      rw [bind_run hsecond]
      simp only [bind, Except.bind, hwrite', pure, Except.pure]
      cases writeInfo info (first, second) with
      | error fault => rfl
      | ok out => rfl

/-! ### Which texts fit -/

/-- The text that the identifiers make of the information. -/
def infoText (info : UInt32) (owner group : Option Sid) : CStr :=
  ownerPart info (textOr [] owner) ++ groupPart info (textOr (textOr [] owner) group) ++ aclParts info

/-- The width of the text of an identifier, or of one that is there already. -/
def widthOr (old : Nat) : Option Sid → Nat
  | none => old
  | some sid => sid.width

/-- The length of the text for the information. -/
def infoWidth (info : UInt32) (owner group : Option Sid) : Nat :=
  let width (bit : UInt32) (n : Nat) : Nat := if asks info bit then n else 0
  width OWNER_SECURITY_INFORMATION (17 + widthOr 0 owner) +
    width GROUP_SECURITY_INFORMATION (17 + widthOr (widthOr 0 owner) group) +
    (width 0x04 13 + width 0x08 13 + width 0x10 14)

/-- Each identifier fits the buffer that they are read to, and the whole text that of its own. -/
structure InfoRoom (info : UInt32) (owner group : Option Sid) : Prop where
  ownerRoom : SidRoom STR_BUFF owner
  groupRoom : SidRoom STR_BUFF group
  whole : infoWidth info owner group < STR_BUFF

lemma length_textOr (old : CStr) (read : Option Sid) :
    (textOr old read).length = widthOr old.length read := by
  cases read with
  | none => rfl
  | some sid => exact sid.length_text

lemma length_part (info bit : UInt32) (text : CStr) :
    (part info bit text).length = if asks info bit then text.length else 0 := by
  unfold part
  split <;> rfl

lemma length_infoText (info : UInt32) (owner group : Option Sid) :
    (infoText info owner group).length = infoWidth info owner group := by
  unfold infoText infoWidth ownerPart groupPart aclParts
  simp only [List.length_append, length_part, length_textOr]
  rfl

lemma nul_notMem_textOr {old : CStr} (hold : 0 ∉ old) (read : Option Sid) : 0 ∉ textOr old read := by
  cases read with
  | none => exact hold
  | some sid => exact sid.nul_notMem_text

lemma nul_notMem_part {text : CStr} (h : 0 ∉ text) (info bit : UInt32) : 0 ∉ part info bit text := by
  unfold part
  split
  · exact h
  · exact List.not_mem_nil

lemma nul_notMem_infoText (info : UInt32) (owner group : Option Sid) :
    0 ∉ infoText info owner group := by
  have howner := nul_notMem_textOr List.not_mem_nil owner
  have hgroup := nul_notMem_textOr howner group
  have hlabel {label text : CStr} (hl : 0 ∉ label) (ht : 0 ∉ text) : 0 ∉ label ++ text := by
    rw [List.mem_append]
    exact fun h => h.elim hl ht
  have howner' : 0 ∉ ownerPart info (textOr [] owner) :=
    nul_notMem_part (hlabel (by decide) howner) _ _
  have hgroup' : 0 ∉ groupPart info (textOr (textOr [] owner) group) :=
    nul_notMem_part (hlabel (by decide) hgroup) _ _
  have hdacl : 0 ∉ cstr "DACL Changed;" := by decide
  have hsacl : 0 ∉ cstr "SACL Changed;" := by decide
  have hlevel : 0 ∉ cstr "Label Changed;" := by decide
  have hacl : 0 ∉ aclParts info :=
    hlabel (hlabel (nul_notMem_part hdacl _ _) (nul_notMem_part hsacl _ _))
      (nul_notMem_part hlevel _ _)
  exact hlabel (hlabel howner' hgroup') hacl

lemma sprintf_iff {n : Nat} {text : CStr} (hnul : 0 ∉ text) :
    (∃ out, CharArray.sprintf n text = .ok out) ↔ text.length < n := by
  have hlen : (cString text).length = text.length := congrArg _ (cString_of_nul hnul)
  rw [← hlen]
  unfold CharArray.sprintf
  constructor
  · rintro ⟨out, hok⟩
    by_contra hlt
    rw [dif_neg hlt] at hok
    cases hok
  · intro hlt
    exact ⟨_, dif_pos hlt⟩

lemma sprintf_str {n : Nat} {text : CStr} {out : CharArray n} (hnul : 0 ∉ text)
    (h : CharArray.sprintf n text = .ok out) : out.str = text := by
  unfold CharArray.sprintf at h
  split at h
  · cases h
    exact cString_of_nul hnul
  · cases h

/-- The two texts that are read one after the other. -/
lemma writeSids_str {owner group : Option Sid} {texts : CharArray STR_BUFF × CharArray STR_BUFF}
    (h : writeSids owner group = .ok texts) :
    texts.1.str = textOr [] owner ∧ texts.2.str = textOr (textOr [] owner) group := by
  obtain ⟨first, hfirst, h⟩ := bind_eq_ok.mp h
  obtain ⟨second, hsecond, h⟩ := bind_eq_ok.mp h
  cases h
  have howner := writeSid_str hfirst
  refine ⟨howner, ?_⟩
  rw [writeSid_str hsecond, howner]
  rfl

lemma writeSids_iff {owner group : Option Sid} :
    (∃ texts, writeSids owner group = .ok texts) ↔ SidRoom STR_BUFF owner ∧ SidRoom STR_BUFF group := by
  constructor
  · rintro ⟨texts, h⟩
    obtain ⟨first, hfirst, h⟩ := bind_eq_ok.mp h
    obtain ⟨second, hsecond, -⟩ := bind_eq_ok.mp h
    exact ⟨(writeSid_iff _ _).mp ⟨first, hfirst⟩, (writeSid_iff _ _).mp ⟨second, hsecond⟩⟩
  · rintro ⟨howner, hgroup⟩
    obtain ⟨first, hfirst⟩ := (writeSid_iff noData owner).mpr howner
    obtain ⟨second, hsecond⟩ := (writeSid_iff first group).mpr hgroup
    refine ⟨(first, second), ?_⟩
    unfold writeSids
    rw [hfirst]
    simp only [bind, Except.bind, hsecond]
    rfl

lemma writeInfo_eq {info : UInt32} {owner group : Option Sid}
    {texts : CharArray STR_BUFF × CharArray STR_BUFF} (h : writeSids owner group = .ok texts) :
    writeInfo info texts = CharArray.sprintf STR_BUFF (infoText info owner group) := by
  obtain ⟨howner, hgroup⟩ := writeSids_str h
  unfold writeInfo infoText
  rw [howner, hgroup]

lemma writeInfo_iff {info : UInt32} {owner group : Option Sid} :
    (∃ out, (writeSids owner group >>= writeInfo info) = .ok out) ↔ InfoRoom info owner group := by
  have hsprintf := sprintf_iff (n := STR_BUFF) (nul_notMem_infoText info owner group)
  rw [length_infoText] at hsprintf
  constructor
  · rintro ⟨out, h⟩
    obtain ⟨texts, htexts, hout⟩ := bind_eq_ok.mp h
    have hroom := writeSids_iff.mp ⟨texts, htexts⟩
    rw [writeInfo_eq htexts] at hout
    exact ⟨hroom.1, hroom.2, hsprintf.mp ⟨out, hout⟩⟩
  · intro hroom
    obtain ⟨texts, htexts⟩ := writeSids_iff.mpr ⟨hroom.ownerRoom, hroom.groupRoom⟩
    obtain ⟨out, hout⟩ := hsprintf.mpr hroom.whole
    refine ⟨out, bind_eq_ok.mpr ⟨texts, htexts, ?_⟩⟩
    rw [writeInfo_eq htexts]
    exact hout

lemma setSecurityInfoText_iff {ctx : MonContext} {info : UInt32} {sdAddr : UInt64}
    {s s' : ContextState} {owner group : Option Sid}
    (h : securitySids ctx info sdAddr s = .ok ((owner, group), s')) (P : CStr → Prop) :
    (∃ out t, setSecurityInfoText ctx info sdAddr s = .ok (out, t) ∧ P out.str) ↔
      InfoRoom info owner group ∧ P (infoText info owner group) := by
  have hrun := setSecurityInfoText_run h
  have hstr {out : CharArray STR_BUFF} (hout : (writeSids owner group >>= writeInfo info) = .ok out) :
      out.str = infoText info owner group := by
    obtain ⟨texts, htexts, hwritten⟩ := bind_eq_ok.mp hout
    rw [writeInfo_eq htexts] at hwritten
    exact sprintf_str (nul_notMem_infoText info owner group) hwritten
  rw [← writeInfo_iff, hrun]
  constructor
  · rintro ⟨out, t, hok, hP⟩
    obtain ⟨out', hout, heq⟩ := map_eq_ok.mp hok
    cases heq
    rw [hstr hout] at hP
    exact ⟨⟨out, hout⟩, hP⟩
  · rintro ⟨⟨out, hout⟩, hP⟩
    rw [← hstr hout] at hP
    refine ⟨out, s', ?_, hP⟩
    rw [hout]
    rfl

/-- `_set_security_info_text` writes the texts whole inside their buffers. -/
def InfoTextFits (ctx : MonContext) (info : UInt32) (sdAddr : UInt64) (s : ContextState) : Prop :=
  ∃ out owner group s', securitySids ctx info sdAddr s = .ok ((owner, group), s') ∧
    setSecurityInfoText ctx info sdAddr s = .ok (out, s') ∧ out.str = infoText info owner group

lemma infoTextFits_iff {ctx : MonContext} {info : UInt32} {sdAddr : UInt64} {s s' : ContextState}
    {owner group : Option Sid} (h : securitySids ctx info sdAddr s = .ok ((owner, group), s')) :
    InfoTextFits ctx info sdAddr s ↔ InfoRoom info owner group := by
  have hiff := setSecurityInfoText_iff h (· = infoText info owner group)
  constructor
  · rintro ⟨out, owner', group', s₁, hread, hok, htext⟩
    rw [h] at hread
    cases hread
    exact (hiff.mp ⟨out, s', hok, htext⟩).1
  · intro hroom
    obtain ⟨out, t, hok, htext⟩ := hiff.mpr ⟨hroom, rfl⟩
    have hend := setSecurityInfoText_run h
    rw [hok] at hend
    obtain ⟨out', -, heq⟩ := map_eq_ok.mp hend.symm
    cases heq
    exact ⟨out, owner, group, s', h, hok, htext⟩

/-! ### A descriptor in memory -/

/-- The address of the owner or the group of a descriptor of either format. -/
def partyAt (offsets : WinOffset → UInt64) (mem : Memory) (sdAddr : UInt64)
    (relative absolute : WinOffset) : UInt64 :=
  if (mem.value (sdAddr + offsets .securityDescriptorControl)).toUInt16 &&& SE_SELF_RELATIVE ≠ 0 then
    sdAddr + (mem.value (sdAddr + offsets relative)).toUInt32.toUInt64
  else mem.value (sdAddr + offsets absolute)

def ownerAt (offsets : WinOffset → UInt64) (mem : Memory) (sdAddr : UInt64) : UInt64 :=
  partyAt offsets mem sdAddr .securityDescriptorRelativeOwner .securityDescriptorOwner

def groupAt (offsets : WinOffset → UInt64) (mem : Memory) (sdAddr : UInt64) : UInt64 :=
  partyAt offsets mem sdAddr .securityDescriptorRelativeGroup .securityDescriptorGroup

/-- The identifier if its part of the descriptor was changed. -/
def asked (info bit : UInt32) (sid : Option Sid) : Option Sid := if asks info bit then sid else none

def ownerSid (offsets : WinOffset → UInt64) (mem : Memory) (info : UInt32) (sdAddr : UInt64) :
    Option Sid :=
  asked info OWNER_SECURITY_INFORMATION (mem.sid (ownerAt offsets mem sdAddr))

def groupSid (offsets : WinOffset → UInt64) (mem : Memory) (info : UInt32) (sdAddr : UInt64) :
    Option Sid :=
  asked info GROUP_SECURITY_INFORMATION (mem.sid (groupAt offsets mem sdAddr))

section WithMem

variable (ctx : MonContext) (mem : Memory) (info : UInt32) (sdAddr : UInt64)

lemma partyAddr_withMem (relative absolute : WinOffset) (s : ContextState) :
    ∃ s', partyAddr (ctx.withMem mem) sdAddr relative absolute s =
      .ok (partyAt ctx.hdlr.offsets mem sdAddr relative absolute, s') := by
  have hcontrol := hfmRead16_withMem ctx mem
    (sdAddr + ctx.hdlr.offsets .securityDescriptorControl) s
  unfold partyAddr partyAt
  change ∃ s', (hfmRead16 (ctx.withMem mem) (sdAddr + ctx.hdlr.offsets .securityDescriptorControl)
    >>= _) s = _
  rw [bind_run hcontrol]
  by_cases h : (mem.value (sdAddr + ctx.hdlr.offsets .securityDescriptorControl)).toUInt16 &&&
      SE_SELF_RELATIVE ≠ 0
  · rw [if_pos h, if_pos h]
    exact ⟨_, rfl⟩
  · rw [if_neg h, if_neg h]
    exact ⟨_, rfl⟩

lemma partySid_withMem (bit : UInt32) (relative absolute : WinOffset) (s : ContextState) :
    ∃ s', partySid (ctx.withMem mem) info bit sdAddr relative absolute s =
      .ok (asked info bit (mem.sid (partyAt ctx.hdlr.offsets mem sdAddr relative absolute)), s') := by
  unfold partySid asked
  by_cases h : asks info bit = true
  · obtain ⟨s₁, haddr⟩ := partyAddr_withMem ctx mem sdAddr relative absolute s
    obtain ⟨s₂, hsid⟩ := hfmSid_withMem ctx mem
      (partyAt ctx.hdlr.offsets mem sdAddr relative absolute) s₁
    rw [if_pos h, if_pos h, bind_run haddr]
    exact ⟨s₂, hsid⟩
  · rw [if_neg h, if_neg h]
    exact ⟨s, rfl⟩

lemma securitySids_withMem (s : ContextState) :
    ∃ s', securitySids (ctx.withMem mem) info sdAddr s =
      .ok ((ownerSid ctx.hdlr.offsets mem info sdAddr, groupSid ctx.hdlr.offsets mem info sdAddr),
        s') := by
  obtain ⟨s₁, howner⟩ := partySid_withMem ctx mem info sdAddr OWNER_SECURITY_INFORMATION
    .securityDescriptorRelativeOwner .securityDescriptorOwner s
  obtain ⟨s₂, hgroup⟩ := partySid_withMem ctx mem info sdAddr GROUP_SECURITY_INFORMATION
    .securityDescriptorRelativeGroup .securityDescriptorGroup s₁
  refine ⟨s₂, ?_⟩
  unfold securitySids
  rw [bind_run howner, bind_run hgroup]
  rfl

end WithMem

end AccessChanged

/-- The text of an identifier fits the record of its process, and those of a descriptor their
buffers, exactly if they are no longer. -/
theorem sid_texts_fit_iff {ctx : MonContext} {processAddr sdAddr : UInt64} {info : UInt32}
    {s s₁ s₂ : ContextState} {read owner group : Option Sid}
    (hprocess : processSid ctx processAddr s = .ok (read, s₁))
    (hsecurity : AccessChanged.securitySids ctx info sdAddr s = .ok ((owner, group), s₂)) :
    (ProcessSidFits ctx processAddr s ↔ SidRoom SID_LEN read) ∧
      (AccessChanged.InfoTextFits ctx info sdAddr s ↔ AccessChanged.InfoRoom info owner group) :=
  ⟨processSidFits_iff hprocess, AccessChanged.infoTextFits_iff hsecurity⟩

/-- Windows 7 of 64 bits. -/
def securityContext : MonContext :=
  { relativeName [] with
    hdlr :=
      { (relativeName []).hdlr with
        offsets := fun
          | .eprocessToken => 0x208
          | .tokenUserAndGroups => 0x90
          | .securityDescriptorControl => 2
          | .securityDescriptorRelativeOwner => 4
          | .securityDescriptorRelativeGroup | .securityDescriptorOwner => 8
          | .securityDescriptorGroup => 0x10
          | _ => 0 } }

/-- A memory with these values, and with 0 elsewhere. -/
def memoryOf (values : List (UInt64 × UInt64)) : Memory :=
  fun addr => some ((values.lookup addr).getD 0)

/-- The process at 0x1000 runs as `S-1-5-18`, which owns what the descriptor at 0x5000 is about;
its group is `S-1-5-32-544`. -/
def systemService : Memory :=
  memoryOf [(0x1208, 0x2000), (0x2090, 0x3000), (0x3000, 0x4000), (0x4000, 1), (0x4001, 1),
    (0x4007, 5), (0x4008, 18), (0x5002, 0x8000), (0x5004, 0x14), (0x5008, 0x20), (0x5014, 1),
    (0x5015, 1), (0x501b, 5), (0x501c, 18), (0x5020, 1), (0x5021, 2), (0x5027, 5), (0x5028, 32),
    (0x502c, 544)]

theorem sid_texts_fit_iff_systemService :
    (ProcessSidFits (securityContext.withMem systemService) 0x1000 ⟨0, 0⟩ ↔
      SidRoom SID_LEN (some ⟨1, 5, [18]⟩)) ∧
    (AccessChanged.InfoTextFits (securityContext.withMem systemService) 3 0x5000 ⟨0, 0⟩ ↔
      AccessChanged.InfoRoom 3 (some ⟨1, 5, [18]⟩) (some ⟨1, 5, [32, 544]⟩)) := by
  have hprocess : processSid (securityContext.withMem systemService) 0x1000 ⟨0, 0⟩ =
      .ok (some ⟨1, 5, [18]⟩, ⟨12, 0⟩) := by rfl
  obtain ⟨s', hsecurity⟩ := AccessChanged.securitySids_withMem securityContext systemService 3
    0x5000 ⟨0, 0⟩
  have howner : AccessChanged.ownerSid securityContext.hdlr.offsets systemService 3 0x5000 =
      some ⟨1, 5, [18]⟩ := by decide
  have hgroup : AccessChanged.groupSid securityContext.hdlr.offsets systemService 3 0x5000 =
      some ⟨1, 5, [32, 544]⟩ := by decide
  rw [howner, hgroup] at hsecurity
  exact sid_texts_fit_iff hprocess hsecurity

/-- The identity that a web server gives the processes of its default pool. -/
def defaultPool : Sid :=
  ⟨⟨1, by decide⟩, 5, [82, 3006700770, 424185619, 1745488364, 794895919, 4004696415]⟩

/-- The process at 0x1000 runs as `defaultPool`. -/
def webServer : Memory :=
  memoryOf [(0x1208, 0x2000), (0x2090, 0x3000), (0x3000, 0x4000), (0x4000, 1), (0x4001, 6),
    (0x4007, 5), (0x4008, 82), (0x400c, 3006700770), (0x4010, 424185619), (0x4014, 1745488364),
    (0x4018, 794895919), (0x401c, 4004696415)]

/-- Its text has 61 characters, and `SID_LEN` is 50. -/
theorem default_pool_overrun :
    processSid (securityContext.withMem webServer) 0x1000 ⟨0, 0⟩ =
        .ok (some defaultPool, ⟨17, 0⟩) ∧
      hfmGetProcessSid (securityContext.withMem webServer) 0x1000 ⟨0, 0⟩ = .error .outOfBounds ∧
      ¬ProcessSidFits (securityContext.withMem webServer) 0x1000 ⟨0, 0⟩ := by
  have hprocess : processSid (securityContext.withMem webServer) 0x1000 ⟨0, 0⟩ =
      .ok (some defaultPool, ⟨17, 0⟩) := by rfl
  have hroom : ¬defaultPool.width + 1 < SID_LEN := by decide
  have hrun := hfmGetProcessSid_run hprocess
  rw [writeSid_error _ hroom] at hrun
  refine ⟨hprocess, hrun, fun h => ?_⟩
  exact hroom ((processSidFits_iff hprocess).mp h)

end Hfm

import Hfm.Monitors.SecurityText

/-!
# What the text says of the group

The owner and the group are read to one buffer. An identifier that is not valid leaves the
buffer as it is.
-/

namespace Hfm.AccessChanged

open Support

/-- What the text says from `Group Changed` on, up to the parts of the lists. -/
def groupChanged (info : UInt32) (text : CStr) : CStr :=
  (text.take (text.length - (aclParts info).length)).dropWhile (· ≠ 0x47)

lemma notMem_ownerPart (info : UInt32) (owner : Option Sid) :
    0x47 ∉ ownerPart info (textOr [] owner) := by
  have htext : 0x47 ∉ textOr [] owner := by
    cases owner with
    | none => exact List.not_mem_nil
    | some sid => exact sid.notMem_text (by decide) (by decide)
  unfold ownerPart part
  split
  · rw [List.mem_append]
    exact fun h => h.elim (by decide) htext
  · exact List.not_mem_nil

lemma dropWhile_groupPart (info : UInt32) (group : CStr) :
    (groupPart info group).dropWhile (· ≠ 0x47) = groupPart info group := by
  unfold groupPart part
  split <;> rfl

lemma groupChanged_infoText (info : UInt32) (owner group : Option Sid) :
    groupChanged info (infoText info owner group) =
      groupPart info (textOr (textOr [] owner) group) := by
  have howner : ∀ c ∈ ownerPart info (textOr [] owner), (decide (c ≠ 0x47)) = true := by
    intro c hc
    have hne : c ≠ 0x47 := fun h => notMem_ownerPart info owner (h ▸ hc)
    exact decide_eq_true hne
  unfold groupChanged infoText
  rw [List.length_append, Nat.add_sub_cancel, List.take_left, List.dropWhile_append_of_pos howner,
    dropWhile_groupPart]

lemma groupPart_inj {info : UInt32} {text text' : CStr} :
    groupPart info text = groupPart info text' ↔
      (asks info GROUP_SECURITY_INFORMATION = true → text = text') := by
  unfold groupPart part
  by_cases h : asks info GROUP_SECURITY_INFORMATION = true
  · rw [if_pos h, if_pos h, List.append_cancel_left_eq]
    exact ⟨fun heq _ => heq, fun heq => heq h⟩
  · rw [if_neg h, if_neg h]
    exact ⟨fun _ hasks => absurd hasks h, fun _ => rfl⟩

lemma textOr_inj {sid sid' : Option Sid} : textOr [] sid = textOr [] sid' ↔ sid = sid' := by
  refine ⟨fun h => ?_, congrArg _⟩
  cases sid with
  | none =>
    cases sid' with
    | none => rfl
    | some sid' => cases h
  | some sid =>
    cases sid' with
    | none => cases h
    | some sid' => exact congrArg some (Sid.text_injective h)

/-- What an identifier that is not valid leaves is the text of the owner. -/
lemma textOr_owner_inj (owner owner' group : Option Sid) :
    textOr (textOr [] owner) group = textOr (textOr [] owner') group ↔
      (group = none → owner = owner') := by
  cases group with
  | none => exact textOr_inj.trans ⟨fun h _ => h, fun h => h rfl⟩
  | some group =>
    constructor
    · intro _ h
      cases h
    · exact fun _ => rfl

/-! ### Two memories -/

/-- The group is at the same address, by the format that the control word says, and has the same
identifier there. -/
structure SameGroup (offsets : WinOffset → UInt64) (sdAddr : UInt64) (mem mem' : Memory) : Prop where
  pointer : groupAt offsets mem sdAddr = groupAt offsets mem' sdAddr
  sid : mem.sid (groupAt offsets mem sdAddr) = mem'.sid (groupAt offsets mem sdAddr)

/-- The texts made of the two memories say the same of the group. -/
def GroupPartsAgree (ctx : MonContext) (info : UInt32) (sdAddr : UInt64) (mem mem' : Memory)
    (s s' : ContextState) : Prop :=
  ∃ out t, setSecurityInfoText (ctx.withMem mem) info sdAddr s = .ok (out, t) ∧
    ∃ out' t', setSecurityInfoText (ctx.withMem mem') info sdAddr s' = .ok (out', t') ∧
      groupChanged info out.str = groupChanged info out'.str

/-- The text says of the group what its own identifier is, and nothing if that is not valid. -/
def GroupPartOwn (ctx : MonContext) (info : UInt32) (sdAddr : UInt64) (mem : Memory)
    (s : ContextState) : Prop :=
  ∃ out t, setSecurityInfoText (ctx.withMem mem) info sdAddr s = .ok (out, t) ∧
    groupChanged info out.str =
      groupPart info (textOr [] (mem.sid (groupAt ctx.hdlr.offsets mem sdAddr)))

/-- Both parts were changed, and the group has no valid identifier. -/
def LeavesOwner (offsets : WinOffset → UInt64) (mem : Memory) (info : UInt32) (sdAddr : UInt64) :
    Prop :=
  asks info OWNER_SECURITY_INFORMATION = true ∧ asks info GROUP_SECURITY_INFORMATION = true ∧
    mem.sid (groupAt offsets mem sdAddr) = none

/-- The texts for the memory fit. -/
def Room (offsets : WinOffset → UInt64) (mem : Memory) (info : UInt32) (sdAddr : UInt64) : Prop :=
  InfoRoom info (ownerSid offsets mem info sdAddr) (groupSid offsets mem info sdAddr)

section Runs

variable {ctx : MonContext} {info : UInt32} {sdAddr : UInt64} {mem mem' : Memory}

lemma groupSid_eq (offsets : WinOffset → UInt64)
    (hasks : asks info GROUP_SECURITY_INFORMATION = true) :
    groupSid offsets mem info sdAddr = mem.sid (groupAt offsets mem sdAddr) := if_pos hasks

lemma groupSid_congr {offsets : WinOffset → UInt64} (h : SameGroup offsets sdAddr mem mem') :
    groupSid offsets mem info sdAddr = groupSid offsets mem' info sdAddr := by
  unfold groupSid
  rw [← h.pointer, h.sid]

/-- The part of the group, of the identifiers that are read. -/
lemma groupChanged_iff (s : ContextState) (P : CStr → Prop) :
    (∃ out t, setSecurityInfoText (ctx.withMem mem) info sdAddr s = .ok (out, t) ∧
        P (groupChanged info out.str)) ↔
      Room ctx.hdlr.offsets mem info sdAddr ∧
        P (groupPart info (textOr (textOr [] (ownerSid ctx.hdlr.offsets mem info sdAddr))
          (groupSid ctx.hdlr.offsets mem info sdAddr))) := by
  obtain ⟨s', hread⟩ := securitySids_withMem ctx mem info sdAddr s
  rw [← groupChanged_infoText]
  exact setSecurityInfoText_iff hread fun text => P (groupChanged info text)

lemma asked_inj {bit : UInt32} {sid sid' : Option Sid} :
    asked info bit sid = asked info bit sid' ↔ (asks info bit = true → sid = sid') := by
  unfold asked
  by_cases h : asks info bit = true
  · rw [if_pos h, if_pos h]
    exact ⟨fun heq _ => heq, fun heq => heq h⟩
  · rw [if_neg h, if_neg h]
    exact ⟨fun _ hasks => absurd hasks h, fun _ => rfl⟩

lemma groupPartsAgree_iff (h : SameGroup ctx.hdlr.offsets sdAddr mem mem') (s s' : ContextState) :
    GroupPartsAgree ctx info sdAddr mem mem' s s' ↔
      Room ctx.hdlr.offsets mem info sdAddr ∧ Room ctx.hdlr.offsets mem' info sdAddr ∧
        (LeavesOwner ctx.hdlr.offsets mem info sdAddr →
          mem.sid (ownerAt ctx.hdlr.offsets mem sdAddr) =
            mem'.sid (ownerAt ctx.hdlr.offsets mem' sdAddr)) := by
  refine (groupChanged_iff s fun part => ∃ out' t', setSecurityInfoText (ctx.withMem mem') info
    sdAddr s' = .ok (out', t') ∧ part = groupChanged info out'.str).trans ?_
  refine and_congr_right fun _ => ?_
  rw [groupChanged_iff s' (_ = ·), ← groupSid_congr h, groupPart_inj, textOr_owner_inj]
  refine and_congr_right fun _ => ?_
  constructor
  · rintro hsame ⟨howner, hgroup, hnone⟩
    have hnone' := (groupSid_eq ctx.hdlr.offsets hgroup).trans hnone
    exact asked_inj.mp (hsame hgroup hnone') howner
  · intro hsame hgroup hnone
    rw [groupSid_eq ctx.hdlr.offsets hgroup] at hnone
    exact asked_inj.mpr fun howner => hsame ⟨howner, hgroup, hnone⟩

lemma groupPartOwn_iff (s : ContextState) :
    GroupPartOwn ctx info sdAddr mem s ↔
      Room ctx.hdlr.offsets mem info sdAddr ∧ (LeavesOwner ctx.hdlr.offsets mem info sdAddr →
        mem.sid (ownerAt ctx.hdlr.offsets mem sdAddr) = none) := by
  refine (groupChanged_iff s (· = _)).trans (and_congr_right fun _ => ?_)
  rw [groupPart_inj]
  constructor
  · rintro hsame ⟨howner, hgroup, hnone⟩
    have htext := hsame hgroup
    rw [groupSid_eq ctx.hdlr.offsets hgroup] at htext
    have hread := (textOr_owner_inj _ none _).mp htext hnone
    exact (if_pos howner).symm.trans hread
  · intro hsame hgroup
    rw [groupSid_eq ctx.hdlr.offsets hgroup]
    refine (textOr_owner_inj _ none _).mpr fun hnone => ?_
    by_cases howner : asks info OWNER_SECURITY_INFORMATION = true
    · exact (if_pos howner).trans (hsame ⟨howner, hgroup, hnone⟩)
    · exact if_neg howner

end Runs

end Hfm.AccessChanged

namespace Hfm

/-- What the text says of the group depends on the group alone, exactly if the group has a valid
identifier where both were changed, or the owner has the same one. -/
theorem group_part_independent_iff {ctx : MonContext} {info : UInt32} {sdAddr : UInt64}
    {mem mem' : Memory} (hsame : AccessChanged.SameGroup ctx.hdlr.offsets sdAddr mem mem')
    (s s' : ContextState) :
    (AccessChanged.GroupPartsAgree ctx info sdAddr mem mem' s s' ↔
      AccessChanged.Room ctx.hdlr.offsets mem info sdAddr ∧
        AccessChanged.Room ctx.hdlr.offsets mem' info sdAddr ∧
        (AccessChanged.LeavesOwner ctx.hdlr.offsets mem info sdAddr →
          mem.sid (AccessChanged.ownerAt ctx.hdlr.offsets mem sdAddr) =
            mem'.sid (AccessChanged.ownerAt ctx.hdlr.offsets mem' sdAddr))) ∧
      (AccessChanged.GroupPartOwn ctx info sdAddr mem s ↔
        AccessChanged.Room ctx.hdlr.offsets mem info sdAddr ∧
          (AccessChanged.LeavesOwner ctx.hdlr.offsets mem info sdAddr →
            mem.sid (AccessChanged.ownerAt ctx.hdlr.offsets mem sdAddr) = none)) :=
  ⟨AccessChanged.groupPartsAgree_iff hsame s s', AccessChanged.groupPartOwn_iff s⟩

/-- The descriptor at 0x5000, of an owner `S-1-5-n` and a group `S-r-5-32-544`. -/
def descriptor (n r : UInt64) : Memory :=
  memoryOf [(0x5002, 0x8000), (0x5004, 0x14), (0x5008, 0x20), (0x5014, 1), (0x5015, 1), (0x501b, 5),
    (0x501c, n), (0x5020, r), (0x5021, 2), (0x5027, 5), (0x5028, 32), (0x502c, 544)]

theorem group_part_independent_iff_administrators :
    (AccessChanged.GroupPartsAgree securityContext 3 0x5000 (descriptor 18 1) (descriptor 19 1)
        ⟨0, 0⟩ ⟨0, 0⟩ ↔
      AccessChanged.Room securityContext.hdlr.offsets (descriptor 18 1) 3 0x5000 ∧
        AccessChanged.Room securityContext.hdlr.offsets (descriptor 19 1) 3 0x5000 ∧
        (AccessChanged.LeavesOwner securityContext.hdlr.offsets (descriptor 18 1) 3 0x5000 →
          (descriptor 18 1).sid
              (AccessChanged.ownerAt securityContext.hdlr.offsets (descriptor 18 1) 0x5000) =
            (descriptor 19 1).sid
              (AccessChanged.ownerAt securityContext.hdlr.offsets (descriptor 19 1) 0x5000))) ∧
      (AccessChanged.GroupPartOwn securityContext 3 0x5000 (descriptor 18 1) ⟨0, 0⟩ ↔
        AccessChanged.Room securityContext.hdlr.offsets (descriptor 18 1) 3 0x5000 ∧
          (AccessChanged.LeavesOwner securityContext.hdlr.offsets (descriptor 18 1) 3 0x5000 →
            (descriptor 18 1).sid
              (AccessChanged.ownerAt securityContext.hdlr.offsets (descriptor 18 1) 0x5000) =
                none)) :=
  have hsame : AccessChanged.SameGroup securityContext.hdlr.offsets 0x5000 (descriptor 18 1)
      (descriptor 19 1) := ⟨rfl, by decide⟩
  group_part_independent_iff hsame ⟨0, 0⟩ ⟨0, 0⟩

/-- The group has no valid identifier, and is said to be the owner. -/
theorem owner_named_as_group :
    AccessChanged.SameGroup securityContext.hdlr.offsets 0x5000 (descriptor 18 255)
        (descriptor 19 255) ∧
      ¬AccessChanged.GroupPartsAgree securityContext 3 0x5000 (descriptor 18 255)
        (descriptor 19 255) ⟨0, 0⟩ ⟨0, 0⟩ ∧
      ¬AccessChanged.GroupPartOwn securityContext 3 0x5000 (descriptor 18 255) ⟨0, 0⟩ := by
  have hleaves : AccessChanged.LeavesOwner securityContext.hdlr.offsets (descriptor 18 255) 3 0x5000 :=
    ⟨by decide, by decide, by decide⟩
  have hsame : AccessChanged.SameGroup securityContext.hdlr.offsets 0x5000 (descriptor 18 255)
      (descriptor 19 255) := ⟨rfl, by decide⟩
  refine ⟨hsame, fun h => ?_, fun h => ?_⟩
  · obtain ⟨-, -, howner⟩ := (AccessChanged.groupPartsAgree_iff hsame _ _).mp h
    exact absurd (howner hleaves) (by decide)
  · obtain ⟨-, howner⟩ := (AccessChanged.groupPartOwn_iff _).mp h
    exact absurd (howner hleaves) (by decide)

end Hfm

import Hfm.Rekall

/-!
# Profiles that describe a guest

A profile gives each structure as an array of its size and an object of its members, and each
member as an array with its offset in front. The tables of a handler are filled with what it
says, with 0 where it says nothing, and with the constants of `win_fill_offsets`.
-/

namespace Hfm

open Support

/-- A structure of the guest. -/
structure GuestStruct where
  size : UInt64
  members : List (CStr × UInt64)
  nodup : (members.map Prod.fst).Nodup

/-- The structures of a guest. -/
structure GuestLayout where
  structs : List (CStr × GuestStruct)
  nodup : (structs.map Prod.fst).Nodup

namespace GuestLayout

variable (L : GuestLayout)

def sizeOf (symbol : CStr) : Option UInt64 := (L.structs.lookup symbol).map GuestStruct.size

def offsetOf (symbol member : CStr) : Option UInt64 :=
  (L.structs.lookup symbol).bind fun s => s.members.lookup member

/-- The table of offsets for the guest. -/
def offsets : WinOffset → UInt64
  | .fileRenameInformationFileNameLength => 16
  | .fileRenameInformationFileName => 20
  | .fileDispositionInformationDeleteFile => 0
  | i => (L.offsetOf (winOffsetNames i).1 (winOffsetNames i).2).getD 0

/-- The table of sizes for the guest. -/
def sizes (i : WinSize) : UInt64 := (L.sizeOf (winSizeNames i)).getD 0

end GuestLayout

/-! ### What a profile says -/

section

variable (int64 : Json → UInt64)

/-- `json_object_get_int64` makes the number of the value. -/
def IsNumber (value : Json) (n : UInt64) : Prop := value ≠ .null ∧ int64 value = n

def DescribesMember (value : CStr × Json) (member : CStr × UInt64) : Prop :=
  value.1 = member.1 ∧
    ∃ offset rest, value.2 = .arr (offset :: rest) ∧ IsNumber int64 offset member.2

def DescribesStruct (value : CStr × Json) (s : CStr × GuestStruct) : Prop :=
  value.1 = s.1 ∧ ∃ size members rest, value.2 = .arr (size :: .obj members :: rest) ∧
    IsNumber int64 size s.2.size ∧ List.Forall₂ (DescribesMember int64) members s.2.members

/-- The last section `$STRUCTS` of the profile describes the structures of the guest. -/
def Describes (profile : Json) (L : GuestLayout) : Prop :=
  ∃ before structs after, profile = .obj (before ++ (cstr "$STRUCTS", .obj structs) :: after) ∧
    cstr "$STRUCTS" ∉ after.map Prod.fst ∧
    List.Forall₂ (DescribesStruct int64) structs L.structs

end

/-! ### Lookups -/

lemma find?_names {members : List (CStr × Json)} {key : CStr} (h : key ∉ members.map Prod.fst) :
    members.reverse.find? (·.1 = key) = none := by
  rw [List.find?_eq_none]
  intro m hm hkey
  rw [List.mem_reverse] at hm
  exact h (List.mem_map.mpr ⟨m, hm, of_decide_eq_true hkey⟩)

lemma objectGetEx_last {before after : List (CStr × Json)} {key : CStr} {value : Json}
    (h : key ∉ after.map Prod.fst) :
    objectGetEx (.obj (before ++ (key, value) :: after)) key = some value := by
  simp [objectGetEx, List.find?_append, find?_names h]

/-- With distinct names the last member of a name is the first one. -/
lemma objectGetEx_lookup {members : List (CStr × Json)} (hnodup : (members.map Prod.fst).Nodup)
    (key : CStr) : objectGetEx (.obj members) key = members.lookup key := by
  induction members with
  | nil => rfl
  | cons m members ih =>
    obtain ⟨name, value⟩ := m
    obtain ⟨hnot, hnodup⟩ := List.nodup_cons.mp hnodup
    by_cases hkey : key = name
    · subst hkey
      have hlast : objectGetEx (.obj ([] ++ (key, value) :: members)) key = some value :=
        objectGetEx_last hnot
      simpa using hlast
    · have hne : (key == name) = false := beq_false_of_ne hkey
      have hne' : decide (name = key) = false := decide_eq_false fun h => hkey h.symm
      rw [List.lookup_cons, hne]
      dsimp only
      rw [← ih hnodup]
      simp [objectGetEx, List.find?_append, hne']

section Named

variable {α β : Type} {R : CStr × α → CStr × β → Prop} {as : List (CStr × α)} {bs : List (CStr × β)}

lemma names_forall₂ (hname : ∀ a b, R a b → a.1 = b.1) (h : List.Forall₂ R as bs) :
    as.map Prod.fst = bs.map Prod.fst := by
  induction h with
  | nil => rfl
  | cons hab _ ih => rw [List.map_cons, List.map_cons, hname _ _ hab, ih]

/-- Of lists that are related one by one under the same names, both or none have a name. -/
lemma lookup_forall₂ (hname : ∀ a b, R a b → a.1 = b.1) (h : List.Forall₂ R as bs) (key : CStr) :
    (as.lookup key = none ∧ bs.lookup key = none) ∨
      ∃ a b, as.lookup key = some a ∧ bs.lookup key = some b ∧ R (key, a) (key, b) := by
  induction h with
  | nil => exact .inl ⟨rfl, rfl⟩
  | @cons a b as bs hab _ ih =>
    obtain ⟨name, a⟩ := a
    obtain ⟨name₁, b⟩ := b
    have heq : name = name₁ := hname _ _ hab
    subst heq
    by_cases hkey : key = name
    · subst hkey
      exact .inr ⟨a, b, by simp, by simp, hab⟩
    · have hne : (key == name) = false := beq_false_of_ne hkey
      simp only [List.lookup_cons, hne]
      exact ih

end Named

section

variable {int64 : Json → UInt64} {profile : Json} {L : GuestLayout}

lemma IsNumber.getInt64 {value : Json} {n : UInt64} (h : IsNumber int64 value n) :
    getInt64 int64 (some value) = n := by
  cases value with
  | null => exact absurd rfl h.1
  | _ => exact h.2

lemma IsNumber.arrayGetIdx {value : Json} {n : UInt64} (h : IsNumber int64 value n)
    (rest : List Json) : arrayGetIdx (.arr (value :: rest)) 0 = .ok (some value) := by
  cases value with
  | null => exact absurd rfl h.1
  | _ => rfl

/-- The structures of a profile that describes the guest. -/
lemma Describes.structs (h : Describes int64 profile L) (symbol : CStr) :
    ((objectGetEx profile (cstr "$STRUCTS") >>= (objectGetEx · symbol)) = none ∧
      L.structs.lookup symbol = none) ∨
    ∃ value s, (objectGetEx profile (cstr "$STRUCTS") >>= (objectGetEx · symbol)) = some value ∧
      L.structs.lookup symbol = some s ∧ DescribesStruct int64 (symbol, value) (symbol, s) := by
  obtain ⟨before, structs, after, rfl, hlast, hstructs⟩ := h
  have hname : ∀ a b, DescribesStruct int64 a b → a.1 = b.1 := fun _ _ h => h.1
  have hnodup : (structs.map Prod.fst).Nodup := by
    rw [names_forall₂ hname hstructs]
    exact L.nodup
  rw [objectGetEx_last hlast]
  change (objectGetEx (.obj structs) symbol = none ∧ _) ∨ ∃ value s,
    objectGetEx (.obj structs) symbol = some value ∧ _
  rw [objectGetEx_lookup hnodup]
  exact lookup_forall₂ hname hstructs symbol

lemma Describes.lookup_size (h : Describes int64 profile L) (symbol : CStr) :
    rekallLookup int64 (some profile) symbol none true = .ok (L.sizeOf symbol) := by
  unfold rekallLookup GuestLayout.sizeOf
  simp only [Bool.true_eq_false, and_false, if_false]
  rcases h.structs symbol with ⟨hnone, hlookup⟩ | ⟨value, s, hvalue, hlookup, -, hstruct⟩
  · rw [hnone, hlookup]
    rfl
  · obtain ⟨size, members, rest, rfl, hsize, -⟩ := hstruct
    rw [hvalue, hlookup]
    dsimp only
    rw [hsize.arrayGetIdx]
    simp only [if_true, bind, Except.bind, pure, Except.pure, hsize.getInt64]
    rfl

lemma Describes.lookup_offset (h : Describes int64 profile L) (symbol member : CStr) :
    rekallLookup int64 (some profile) symbol (some member) false =
      .ok (L.offsetOf symbol member) := by
  unfold rekallLookup GuestLayout.offsetOf
  simp only [reduceCtorEq, false_and, if_false]
  rcases h.structs symbol with ⟨hnone, hlookup⟩ | ⟨value, s, hvalue, hlookup, -, hstruct⟩
  · rw [hnone, hlookup]
    rfl
  · obtain ⟨size, members, rest, rfl, -, hmembers⟩ := hstruct
    have hname : ∀ a b, DescribesMember int64 a b → a.1 = b.1 := fun _ _ h => h.1
    have hnodup : (members.map Prod.fst).Nodup := by
      rw [names_forall₂ hname hmembers]
      exact s.nodup
    have hidx : arrayGetIdx (.arr (size :: .obj members :: rest)) 1 = .ok (some (.obj members)) :=
      rfl
    rw [hvalue, hlookup]
    simp only [hidx, bind, Except.bind, Option.bind, Option.getD_some]
    rw [objectGetEx_lookup hnodup]
    rcases lookup_forall₂ hname hmembers member with ⟨hnone, hmember⟩ |
      ⟨jmember, offset, hjmember, hmember, -, value, rest', hvalue', hnumber⟩
    · rw [hnone, hmember]
      rfl
    · obtain rfl : jmember = .arr (value :: rest') := hvalue'
      rw [hjmember, hmember]
      dsimp only
      rw [hnumber.arrayGetIdx]
      simp only [pure, Except.pure, Option.map_some, hnumber.getInt64]

lemma fill_eq {ι : Type} [DecidableEq ι] {lookup : ι → Except Fault (Option UInt64)}
    {value : ι → Option UInt64} (hlookup : ∀ i, lookup i = .ok (value i)) {places : List ι}
    (hnodup : places.Nodup) :
    fill lookup (fun _ => 0) places =
      .ok fun i => if i ∈ places then (value i).getD 0 else 0 := by
  have hok : ∀ (places : List ι) (table : ι → UInt64), ∃ table',
      fill lookup table places = .ok table' := by
    intro places
    induction places with
    | nil => exact fun table => ⟨table, rfl⟩
    | cons i places ih =>
      intro table
      cases hvalue : value i with
      | none =>
        obtain ⟨table', htable⟩ := ih table
        refine ⟨table', ?_⟩
        unfold fill
        rw [List.foldlM_cons, hlookup, hvalue]
        exact htable
      | some v =>
        obtain ⟨table', htable⟩ := ih (Function.update table i v)
        refine ⟨table', ?_⟩
        unfold fill
        rw [List.foldlM_cons, hlookup, hvalue]
        exact htable
  obtain ⟨table, htable⟩ := hok places fun _ => 0
  rw [htable]
  congr 1
  funext i
  have happly := fill_apply hnodup htable i
  by_cases hi : i ∈ places
  · rw [if_pos hi] at happly
    obtain ⟨v, hv, htable⟩ := happly
    rw [hlookup] at hv
    cases hv
    rw [if_pos hi, htable]
  · rw [if_neg hi] at happly
    rw [if_neg hi, happly]

lemma Describes.fillOffsets (h : Describes int64 profile L) :
    winFillOffsets int64 (some profile) (fun _ => 0) = .ok L.offsets := by
  have hfill := fill_eq
    (fun i : WinOffset => h.lookup_offset (winOffsetNames i).1 (winOffsetNames i).2)
    (by decide : rekallOffsets.Nodup)
  unfold winFillOffsets
  dsimp only
  rw [hfill]
  simp only [bind, Except.bind, pure, Except.pure]
  congr 1
  funext i
  cases i <;> rfl

lemma Describes.fillSizes (h : Describes int64 profile L) :
    winFillSizes int64 (some profile) (fun _ => 0) = .ok L.sizes := by
  have hfill := fill_eq (fun i : WinSize => h.lookup_size (winSizeNames i))
    (by decide : winSizes.Nodup)
  unfold winFillSizes
  rw [hfill]
  congr 1
  funext i
  cases i <;> rfl

/-- With a profile that describes the guest the lookups of `hfm_init` come to an end, and the
handler it leaves has the offsets and sizes of the guest. -/
theorem profile_fills (h : Describes int64 profile L) :
    winFillOffsets int64 (some profile) (fun _ => 0) = .ok L.offsets ∧
      winFillSizes int64 (some profile) (fun _ => 0) = .ok L.sizes ∧
      ∀ {κ ε : Type} {rounds : Nat} {calls : InitCalls} {guest : WinGuest}
        {hdlr hdlr' : Vmhdlr κ ε} {status : HfmStatus}, calls.xenInitInterface = true →
        hdlr.hfmInit int64 rounds calls (some profile) guest = .ok (some (status, hdlr')) →
        hdlr'.offsets = L.offsets ∧ hdlr'.sizes = L.sizes := by
  refine ⟨h.fillOffsets, h.fillSizes, fun hxen hinit => ?_⟩
  unfold Vmhdlr.hfmInit at hinit
  rw [if_neg (by simp [hxen]), h.fillOffsets, h.fillSizes] at hinit
  simp only [bind, Except.bind] at hinit
  split at hinit
  · cases hinit
    exact ⟨rfl, rfl⟩
  · split at hinit
    · cases hinit
    · split at hinit
      · cases hinit
      · split at hinit
        · cases hinit
          exact ⟨rfl, rfl⟩
        · cases hinit
          exact ⟨rfl, rfl⟩

/-- Two structures of a guest, one of them with two members. -/
def smallLayout : GuestLayout where
  structs := [(cstr "_EPROCESS", ⟨0x4d0, [(cstr "Peb", 0x338), (cstr "Token", 0x208)], by decide⟩),
    (cstr "_HANDLE_TABLE_ENTRY", ⟨16, [], List.nodup_nil⟩)]
  nodup := by decide

def numberJson (n : Nat) : Json := .num (decimal n)

def readNumber : Json → UInt64
  | .num text => ((readDecimal text).getD 0).toUInt64
  | _ => 0

/-- The profile of the guest, with a section in front and the types of the members. -/
def smallProfile : Json :=
  .obj [(cstr "$CONSTANTS", .obj []),
    (cstr "$STRUCTS", .obj [
      (cstr "_EPROCESS", .arr [numberJson 0x4d0, .obj [
        (cstr "Peb", .arr [numberJson 0x338, .arr [.str (cstr "Pointer")]]),
        (cstr "Token", .arr [numberJson 0x208])]]),
      (cstr "_HANDLE_TABLE_ENTRY", .arr [numberJson 16, .obj []])])]

theorem profile_fills_small :
    winFillOffsets readNumber (some smallProfile) (fun _ => 0) = .ok smallLayout.offsets ∧
      winFillSizes readNumber (some smallProfile) (fun _ => 0) = .ok smallLayout.sizes ∧
      smallLayout.offsets .eprocessPeb = 0x338 ∧ smallLayout.sizes .handleTableEntry = 16 := by
  have hnumber (n : Nat) : IsNumber readNumber (numberJson n) n.toUInt64 := by
    refine ⟨nofun, ?_⟩
    unfold readNumber numberJson
    dsimp only
    rw [readDecimal_decimal, Option.getD_some]
  have hdescribes : Describes readNumber smallProfile smallLayout :=
    ⟨[(cstr "$CONSTANTS", .obj [])], _, [], rfl, List.not_mem_nil,
      .cons ⟨rfl, _, _, [], rfl, hnumber _,
        .cons ⟨rfl, _, _, rfl, hnumber _⟩
          (.cons ⟨rfl, _, _, rfl, hnumber _⟩ .nil)⟩
        (.cons ⟨rfl, _, _, [], rfl, hnumber _, .nil⟩ .nil)⟩
  have hfills := profile_fills hdescribes
  exact ⟨hfills.1, hfills.2.1, rfl, rfl⟩

end

end Hfm

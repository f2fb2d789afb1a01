import Hfm.Monitors.PassedPath
import Hfm.Support.Utf16

/-!
# The name of a file object

`hfm_read_filename_from_object` writes the drive and the path of a file to one buffer, and
returns the sum of their lengths, by which `writefile_cb` copies.
-/

namespace Hfm

open Support

/-- The name of the device and the path of the file; none where it cannot be read. -/
structure NameInputs where
  device : Option (List UInt8)
  file : Option (List UInt8)

def nameInputs (ctx : MonContext) (fileObject : UInt64) : ContextM NameInputs := do
  let offsets := ctx.hdlr.offsets
  let deviceObject ← hfmReadAddr ctx (fileObject + offsets .fileObjectDeviceObject)
  let deviceHeader := deviceObject - offsets .objectHeaderBody
  let nameInfoAddr := deviceHeader - ctx.hdlr.sizes .objectHeaderNameInfo
  let device ← hfmUnicode ctx (nameInfoAddr + offsets .objectHeaderNameInfoName)
  return ⟨device, ← hfmUnicode ctx (fileObject + offsets .fileObjectFileName)⟩

lemma nameInputs_run {ctx : MonContext} {fileObject deviceObject : UInt64}
    {s s₁ s₂ s₃ : ContextState} {device file : Option (List UInt8)}
    (hobject : hfmReadAddr ctx (fileObject + ctx.hdlr.offsets .fileObjectDeviceObject) s =
      .ok (deviceObject, s₁))
    (hdevice : hfmUnicode ctx (deviceObject - ctx.hdlr.offsets .objectHeaderBody -
        ctx.hdlr.sizes .objectHeaderNameInfo + ctx.hdlr.offsets .objectHeaderNameInfoName) s₁ =
      .ok (device, s₂))
    (hfile : hfmUnicode ctx (fileObject + ctx.hdlr.offsets .fileObjectFileName) s₂ =
      .ok (file, s₃)) : nameInputs ctx fileObject s = .ok (⟨device, file⟩, s₃) := by
  unfold nameInputs
  dsimp only
  rw [bind_run hobject, bind_run hdevice, bind_run hfile]
  rfl

namespace NameInputs

/-- `drivename` on what was read. -/
def drivename (ctx : MonContext) (i : NameInputs) : Except Fault (CharArray STR_BUFF) := do
  let (_, buffer) ← Buffer.empty.writeText 0 i.device
  driveLabel ctx (← buffer.string)

/-- `hfmReadFilenameFromObject` on what was read. -/
def assemble (ctx : MonContext) (i : NameInputs) : Except Fault (Nat × CharArray STR_BUFF) := do
  let drivename ← i.drivename ctx
  let (filepathLen, buffer) ← Buffer.empty.writeText 0 i.file
  let filepath ← buffer.string
  return (drivename.str.length + filepathLen,
    .snprintf STR_BUFF_pos (drivename.str ++ filepath.str))

end NameInputs

/-- The name is the one that the inputs give. -/
lemma hfmReadFilenameFromObject_run {ctx : MonContext} {fileObject : UInt64} {s s' : ContextState}
    {i : NameInputs} (h : nameInputs ctx fileObject s = .ok (i, s')) :
    hfmReadFilenameFromObject ctx fileObject s = (i.assemble ctx).map fun r => (r, s') := by
  obtain ⟨deviceObject, s₁, hobject, h⟩ := bind_run_eq_ok.mp h
  obtain ⟨device, s₂, hdevice, h⟩ := bind_run_eq_ok.mp h
  obtain ⟨file, s₃, hfile, h⟩ := bind_run_eq_ok.mp h
  cases h
  unfold hfmReadFilenameFromObject
  dsimp only
  rw [bind_run hobject, hfmReadUnicode_eq, bind_assoc, bind_run hdevice]
  simp only [hfmReadUnicode_eq, NameInputs.assemble, NameInputs.drivename, liftM, monadLift,
    MonadLift.monadLift, StateT.lift, pure, Except.pure, bind, StateT.bind, Except.bind]
  cases Buffer.empty.writeText 0 device with
  | error fault => rfl
  | ok written =>
    dsimp only
    cases written.2.string with
    | error fault => rfl
    | ok name =>
      dsimp only
      cases driveLabel ctx name with
      | error fault => rfl
      | ok label =>
        dsimp only
        rw [hfile]
        dsimp only
        cases Buffer.empty.writeText 0 file with
        | error fault => rfl
        | ok written =>
          dsimp only
          cases written.2.string with
          | error fault => rfl
          | ok path => rfl

namespace NameInputs

variable (ctx : MonContext) (i : NameInputs)

/-- The label of the first drive with the name of the device, or that name. -/
def label : CStr :=
  match ctx.hdlr.drives.find? fun drive => cString (i.device.getD []) = drive.winName with
  | some drive => cString drive.dosName
  | none => cString (i.device.getD [])

/-- Each text fits a buffer of its own. -/
structure Fits : Prop where
  device : (i.device.getD []).length < STR_BUFF
  file : (i.file.getD []).length < STR_BUFF
  drives : ∀ drive ∈ ctx.hdlr.drives, drive.dosName.length < STR_BUFF

/-- The length that is returned. -/
def length : Nat := (i.label ctx).length + (i.file.getD []).length

/-- What stands in front of the cut of `snprintf`. -/
def path : CStr := i.label ctx ++ cString (i.file.getD [])

variable {ctx i}

lemma drivename_ok (h : i.Fits ctx) : ∃ a, i.drivename ctx = .ok a ∧ a.str = i.label ctx := by
  obtain ⟨b, hwrite, hbytes⟩ := writeText_image i.device (Nat.le_of_lt h.device)
  have hstring := cString_takeD (i.device.getD [])
  rw [← hbytes] at hstring
  obtain ⟨a, ha, hstr⟩ := Buffer.string_ok hstring
    (Nat.lt_of_le_of_lt (cString_length_le _) h.device)
  unfold drivename
  rw [hwrite]
  simp only [bind, Except.bind, ha]
  unfold driveLabel label
  rw [hstr]
  cases hfind : ctx.hdlr.drives.find? fun drive => cString (i.device.getD []) = drive.winName with
  | none => exact ⟨a, rfl, hstr⟩
  | some drive =>
    have hroom := h.drives drive (List.mem_of_find?_eq_some hfind)
    exact ⟨_, dif_pos (Nat.lt_of_le_of_lt (cString_length_le _) hroom), rfl⟩

/-- What is returned, and the string that is left in `filename`. -/
theorem assemble_ok (h : i.Fits ctx) : ∃ name, i.assemble ctx = .ok (i.length ctx, name) ∧
    name.str = (i.path ctx).take (STR_BUFF - 1) := by
  obtain ⟨a, ha, hlabel⟩ := drivename_ok h
  obtain ⟨b, hwrite, hbytes⟩ := writeText_image i.file (Nat.le_of_lt h.file)
  have hstring := cString_takeD (i.file.getD [])
  rw [← hbytes] at hstring
  obtain ⟨p, hp, hpath⟩ := Buffer.string_ok hstring (Nat.lt_of_le_of_lt (cString_length_le _) h.file)
  refine ⟨.snprintf STR_BUFF_pos (a.str ++ p.str), ?_, ?_⟩
  · unfold assemble length
    rw [ha, ← hlabel]
    simp only [bind, Except.bind, hwrite, hp]
    rfl
  · have hnul : 0 ∉ a.str ++ p.str := by
      rw [List.mem_append]
      exact fun hmem => hmem.elim a.nul p.nul
    unfold CharArray.snprintf path
    dsimp only
    rw [cString_of_nul hnul, hlabel, hpath]

end NameInputs

/-- The length that is returned is that of the string in `filename`, and a copy by that length is
the whole name. -/
def LengthRight (ctx : MonContext) (fileObject : UInt64) (s : ContextState) : Prop :=
  ∃ n name s', hfmReadFilenameFromObject ctx fileObject s = .ok ((n, name), s') ∧
    n = name.str.length ∧ n < STR_BUFF ∧ name.strncpy n = .ok name

/-- The path has no NUL, and fits the buffer with the drive. -/
def NameInputs.Whole (ctx : MonContext) (i : NameInputs) : Prop :=
  0 ∉ i.file.getD [] ∧ i.length ctx < STR_BUFF

lemma strncpy_whole {n : Nat} (a : CharArray n) : a.strncpy a.str.length = .ok a := by
  unfold CharArray.strncpy
  rw [if_pos (Nat.le_of_lt a.lt)]
  congr
  exact List.take_length

namespace NameInputs

variable {ctx : MonContext} {i : NameInputs}

lemma length_path_of_nul (ctx : MonContext) (h : 0 ∈ i.file.getD []) :
    (i.path ctx).length < i.length ctx := by
  have hlt := cString_length_lt h
  unfold path length
  rw [List.length_append]
  omega

/-- The length is right exactly where nothing of the path is lost. -/
lemma length_take_iff : i.length ctx = ((i.path ctx).take (STR_BUFF - 1)).length ↔ i.Whole ctx := by
  have hpos := STR_BUFF_pos
  unfold Whole
  rw [List.length_take]
  by_cases hnul : 0 ∈ i.file.getD []
  · have hlt := length_path_of_nul ctx hnul
    constructor
    · intro heq
      omega
    · intro h
      exact absurd hnul h.1
  · have heq : (i.path ctx).length = i.length ctx := by
      unfold path length
      rw [List.length_append, cString_of_nul hnul]
    constructor
    · intro hlen
      exact ⟨hnul, by omega⟩
    · intro h
      have := h.2
      omega

end NameInputs

/-- The length of the name is right exactly if the path has no NUL and the whole name fits. -/
theorem filename_length_iff {ctx : MonContext} {fileObject : UInt64} {s s' : ContextState}
    {i : NameInputs} (hinputs : nameInputs ctx fileObject s = .ok (i, s')) (hfits : i.Fits ctx) :
    LengthRight ctx fileObject s ↔ i.Whole ctx := by
  obtain ⟨name, hok, hstr⟩ := NameInputs.assemble_ok hfits
  have hrun := hfmReadFilenameFromObject_run hinputs
  rw [hok] at hrun
  rw [← NameInputs.length_take_iff, ← hstr]
  constructor
  · rintro ⟨n, name', s₁, hread, hn, -, -⟩
    rw [hrun] at hread
    cases hread
    exact hn
  · intro hlen
    refine ⟨i.length ctx, name, s', hrun, hlen, ?_, ?_⟩
    · rw [hlen]
      exact name.lt
    · rw [hlen]
      exact strncpy_whole name

/-- A string that can be read, up to its conversion. -/
lemma hfmUnicode_readable (ctx : MonContext) (addr buf : UInt64) (length : UInt16)
    (contents : List UInt8) (s : ContextState)
    (hlength : ∀ k, ctx.calls.read k (addr + ctx.hdlr.offsets .unicodeStringLength) =
      some length.toUInt64)
    (hbuf : ∀ k, ctx.calls.read k (addr + ctx.hdlr.offsets .unicodeStringBuffer) = some buf)
    (hcontents : ∀ k, ctx.calls.readBytes k buf length.toNat = contents)
    (hne : buf ≠ 0) (hpos : contents ≠ []) (hle : contents.length ≤ 4096)
    (hlen : contents.length = length.toNat) :
    hfmUnicode ctx addr s = .ok (ctx.calls.convertStrEncoding contents, { s with calls := s.calls + 3 }) := by
  have hread : hfmRead16 ctx (addr + ctx.hdlr.offsets .unicodeStringLength) s =
      .ok (length, { s with calls := s.calls + 1 }) := by
    change Except.ok (((ctx.calls.read s.calls _).getD 0).toUInt16, _) = _
    rw [hlength, Option.getD_some, UInt16.toUInt16_toUInt64]
  have haddr (t : ContextState) : hfmReadAddr ctx (addr + ctx.hdlr.offsets .unicodeStringBuffer) t =
      .ok (buf, { t with calls := t.calls + 1 }) := by
    change Except.ok ((ctx.calls.read t.calls _).getD 0, _) = _
    rw [hbuf, Option.getD_some]
  have hbytes (t : ContextState) : hfmRead ctx buf length.toNat t =
      .ok (contents, { t with calls := t.calls + 1 }) := by
    change Except.ok ((ctx.calls.readBytes t.calls buf length.toNat).take length.toNat, _) = _
    rw [hcontents, ← hlen, List.take_length]
  have hadmitted : ¬(length = 0 ∨ VMI_PS_4KB < length.toUInt64) := by
    have hlt := List.length_pos_of_ne_nil hpos
    rintro (rfl | hlarge)
    · exact absurd hlen (by rw [UInt16.toNat_zero]; omega)
    · rw [UInt64.lt_iff_toNat_lt, UInt16.toNat_toUInt64, ← hlen] at hlarge
      exact absurd hlarge (Nat.not_lt.mpr hle)
  unfold hfmUnicode
  rw [bind_run hread, if_neg hadmitted, bind_run (haddr _), if_neg hne, bind_run (hbytes _),
    if_neg (fun h => h hlen)]
  rfl

/-- A file at 0x100 on the device `HarddiskVolume2`, the drive `C:`, with the path in UTF-16. -/
def fileWith (contents : List UInt8) : MonContext :=
  { relativeName [] with
    hdlr :=
      { (relativeName []).hdlr with
        drives := [⟨cstr "C:", cstr "HarddiskVolume2", 3⟩]
        offsets := fun
          | .fileObjectDeviceObject => 0x20
          | .fileObjectFileName => 0x40
          | .unicodeStringBuffer => 8
          | _ => 0 }
    calls :=
      { (relativeName []).calls with
        read := fun _ addr =>
          [(0x120, 0x200), (0x140, contents.length.toUInt64), (0x148, 0x300), (0x200, 30),
            (0x208, 0x400)].lookup addr
        readBytes := fun _ addr _ =>
          if addr = 0x300 then contents else (cstr "HarddiskVolume2").flatMap fun c => [c, 0]
        convertStrEncoding := utf8OfUtf16 } }

def fileNamed (name : CStr) : MonContext := fileWith (name.flatMap fun c => [c, 0])

/-- What is read of it, where the contents are no longer than is admitted. -/
lemma nameInputs_fileWith (contents : List UInt8) (length : UInt16)
    (hlen : contents.length = length.toNat) (hpos : contents ≠ []) (hle : contents.length ≤ 4096) :
    nameInputs (fileWith contents) 0x100 ⟨0, 0⟩ =
      .ok (⟨some (cstr "HarddiskVolume2"), utf8OfUtf16 contents⟩, ⟨7, 0⟩) := by
  have hword : contents.length.toUInt64 = length.toUInt64 := by
    rw [hlen]
    exact UInt64.ofNat_uInt16ToNat length
  have hconvert : utf8OfUtf16 ((cstr "HarddiskVolume2").flatMap fun c => [c, 0]) =
      some (cstr "HarddiskVolume2") := by decide +kernel
  have hdevice := hfmUnicode_readable (fileWith contents) 0x200 0x400 30
    ((cstr "HarddiskVolume2").flatMap fun c => [c, 0]) ⟨1, 0⟩
    (fun k => rfl) (fun k => rfl) (fun k => rfl) (by decide) (by decide) (by decide) (by decide)
  have hfile := hfmUnicode_readable (fileWith contents) 0x140 0x300 length contents ⟨4, 0⟩
    (fun k => congrArg some hword) (fun k => rfl) (fun k => rfl) (by decide) hpos hle hlen
  have hobject : hfmReadAddr (fileWith contents) 0x120 ⟨0, 0⟩ = .ok (0x200, ⟨1, 0⟩) := rfl
  have haddr : (0x200 : UInt64) - (fileWith contents).hdlr.offsets .objectHeaderBody -
      (fileWith contents).hdlr.sizes .objectHeaderNameInfo +
        (fileWith contents).hdlr.offsets .objectHeaderNameInfoName = 0x200 := by
    change (0x200 : UInt64) - 0 - 0 + 0 = 0x200
    decide
  rw [← haddr] at hdevice
  rw [← hconvert]
  exact nameInputs_run hobject hdevice hfile

def fileInputs (name : CStr) : NameInputs := ⟨some (cstr "HarddiskVolume2"), some name⟩

theorem filename_length_iff_notes :
    LengthRight (fileNamed (cstr "\\notes.txt")) 0x100 ⟨0, 0⟩ ↔
      (fileInputs (cstr "\\notes.txt")).Whole (fileNamed (cstr "\\notes.txt")) :=
  have hinputs : nameInputs (fileNamed (cstr "\\notes.txt")) 0x100 ⟨0, 0⟩ =
      .ok (fileInputs (cstr "\\notes.txt"), ⟨7, 0⟩) := by rfl
  filename_length_iff hinputs ⟨by decide, by decide, by decide⟩

/-- A path that fits the buffer, but not behind the drive. -/
def longName : CStr := 0x5c :: List.replicate 1022 0x61

lemma nameInputs_long : nameInputs (fileNamed longName) 0x100 ⟨0, 0⟩ =
    .ok (fileInputs longName, ⟨7, 0⟩) := by
  have hconvert : utf8OfUtf16 (longName.flatMap fun c => [c, 0]) = some longName := by decide +kernel
  have hrun := nameInputs_fileWith (longName.flatMap fun c => [c, 0]) 2046
    (by decide +kernel) (List.cons_ne_nil _ _) (by decide +kernel)
  rw [hconvert] at hrun
  exact hrun

/-- The length of a long name is more than its buffer holds. -/
theorem long_name_overrun : nameInputs (fileNamed longName) 0x100 ⟨0, 0⟩ =
      .ok (fileInputs longName, ⟨7, 0⟩) ∧
    (fileInputs longName).Fits (fileNamed longName) ∧
    (∃ name s', hfmReadFilenameFromObject (fileNamed longName) 0x100 ⟨0, 0⟩ = .ok ((1025, name), s') ∧
      name.str.length = 1023) ∧ ¬LengthRight (fileNamed longName) 0x100 ⟨0, 0⟩ := by
  have hfits : (fileInputs longName).Fits (fileNamed longName) :=
    ⟨by decide, by decide +kernel, by decide⟩
  have hlength : (fileInputs longName).length (fileNamed longName) = 1025 := by decide +kernel
  have hcut : (((fileInputs longName).path (fileNamed longName)).take (STR_BUFF - 1)).length = 1023 := by
    decide +kernel
  obtain ⟨name, hok, hstr⟩ := NameInputs.assemble_ok hfits
  have hrun := hfmReadFilenameFromObject_run nameInputs_long
  rw [hok, hlength] at hrun
  rw [← hstr] at hcut
  refine ⟨nameInputs_long, hfits, ⟨name, ⟨7, 0⟩, hrun, hcut⟩, ?_⟩
  rintro ⟨n, name', s', hread, -, hlt, -⟩
  rw [hrun] at hread
  cases hread
  exact absurd hlt (by decide)

end Hfm

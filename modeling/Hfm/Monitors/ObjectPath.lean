import Hfm.Monitors.StringBuffer

/-!
# The path that is matched at a creation

`createfile_cb` of `file_created.c` and of `file_deleted.c` writes the directory of the process
and the name of the object to one buffer.
-/

namespace Hfm

open Support

/-! ### What is read -/

/-- The path of the image of the process, as far as it is looked for. -/
inductive ImageInput where
  | noRoot
  | noParameters
  | text (str : Option (List UInt8))

/-- What `createfile_cb` reads to assemble the path: the image, and the name of the object. A text
is none where it cannot be read. -/
structure PathInputs where
  image : ImageInput
  name : Option (List UInt8)

/-- The text that `hfmReadUnicode` writes to the buffer, if any. -/
def hfmUnicode (ctx : MonContext) (addr : UInt64) : ContextM (Option (List UInt8)) := do
  let length ← hfmRead16 ctx (addr + ctx.hdlr.offsets .unicodeStringLength)
  if length = 0 ∨ VMI_PS_4KB < length.toUInt64 then return none
  else
    let bufferAddr ← hfmReadAddr ctx (addr + ctx.hdlr.offsets .unicodeStringBuffer)
    if bufferAddr = 0 then return none
    else
      let contents ← hfmRead ctx bufferAddr length.toNat
      if contents.length ≠ length.toNat then return none
      else return ctx.calls.convertStrEncoding contents

/-- The image that `readProcessPath` reads, from a root directory that is not zero. -/
def processImage (ctx : MonContext) : ContextM ImageInput := do
  let offsets := ctx.hdlr.offsets
  let process ← hfmGetCurrentProcess ctx
  if process = 0 then return .noParameters
  else
    let peb ← hfmReadAddr ctx (process + offsets .eprocessPeb)
    if peb = 0 then return .noParameters
    else
      let processParameters ← hfmReadAddr ctx (peb + offsets .pebProcessParameters)
      if processParameters = 0 then return .noParameters
      else
        return .text
          (← hfmUnicode ctx (processParameters + offsets .rtlUserProcessParametersImagePathName))

/-- The image, and where the name of the object is. -/
def imageInput (ctx : MonContext) (objattrAddr : UInt64) : ContextM (ImageInput × UInt64) := do
  let offsets := ctx.hdlr.offsets
  let rootdirAddr ← hfmRead64 ctx (objattrAddr + offsets .objectAttributesRootDirectory)
  let objectnameAddr ← hfmReadAddr ctx (objattrAddr + offsets .objectAttributesObjectName)
  if rootdirAddr = 0 then return (.noRoot, objectnameAddr)
  else return (← processImage ctx, objectnameAddr)

def pathInputs (ctx : MonContext) (objattrAddr : UInt64) : ContextM PathInputs := do
  let (image, objectnameAddr) ← imageInput ctx objattrAddr
  return ⟨image, ← hfmUnicode ctx objectnameAddr⟩

/-! ### What is made of it -/

/-- `hfmReadUnicode` on a text. -/
def Buffer.writeText (buffer : Buffer) (off : Nat) : Option (List UInt8) → Except Fault (Nat × Buffer)
  | none => .ok (0, buffer)
  | some str2 => do return (str2.length, ← buffer.strncpy off str2 str2.length)

/-- `readProcessPath` on a text. -/
def imageBuffer (str : Option (List UInt8)) : Except Fault (Nat × Buffer) := do
  let (len, path) ← Buffer.empty.writeText 0 str
  match strrchr (← path.string).str 0x5c with
  | some (pos + 1) => return (pos + 2, ← path.strncpy (pos + 2) [] 1)
  | _ => return (1 + len, path)

/-- `pathlen` and the buffer that the name is written to. -/
def ImageInput.buffer : ImageInput → Except Fault (Nat × Buffer)
  | .text str => imageBuffer str
  | _ => .ok (0, .empty)

/-- `readObjectPath` on what was read. -/
def PathInputs.assemble (i : PathInputs) : Except Fault (CharArray STR_BUFF × Nat) := do
  let (pathlen, filepath) ← i.image.buffer
  let (namelen, filepath) ← filepath.writeText pathlen i.name
  return (startFilepath (← filepath.string), pathlen + namelen)

section Runs

variable {ctx : MonContext}

/-! What is read is read from every state of the guest. -/

lemma hfmReadAddr_total (addr : UInt64) : Total (hfmReadAddr ctx addr) := fun _ => ⟨_, rfl⟩

lemma hfmGetCurrentProcess_total : Total (hfmGetCurrentProcess ctx) := by
  unfold hfmGetCurrentProcess
  apply Total.bind (hfmReadAddr_total _)
  intro thread
  exact .ite (.pure 0) (.ite (hfmReadAddr_total _) (hfmReadAddr_total _))

/-! The path of the code is the one of the inputs. -/

lemma hfmReadUnicode_eq (addr : UInt64) (buffer : Buffer) (off : Nat) :
    hfmReadUnicode ctx addr buffer off =
      hfmUnicode ctx addr >>= fun str => liftM (buffer.writeText off str) := by
  unfold hfmReadUnicode hfmUnicode
  rw [bind_assoc]
  apply bind_congr
  intro length
  by_cases hlen : length = 0 ∨ VMI_PS_4KB < length.toUInt64
  · rw [if_pos hlen, if_pos hlen]
    rfl
  · rw [if_neg hlen, if_neg hlen, bind_assoc]
    apply bind_congr
    intro bufferAddr
    by_cases hbuf : bufferAddr = 0
    · rw [if_pos hbuf, if_pos hbuf]
      rfl
    · rw [if_neg hbuf, if_neg hbuf, bind_assoc]
      apply bind_congr
      intro contents
      by_cases hread : contents.length ≠ length.toNat
      · rw [if_pos hread, if_pos hread]
        rfl
      · rw [if_neg hread, if_neg hread, pure_bind]
        cases ctx.calls.convertStrEncoding contents with
        | none => rfl
        | some str2 =>
          funext s
          dsimp only [Buffer.writeText]
          cases buffer.strncpy off str2 str2.length with
          | error fault => rfl
          | ok buffer => rfl

lemma readProcessPath_eq :
    readProcessPath ctx = processImage ctx >>= fun image => liftM image.buffer := by
  unfold readProcessPath processImage
  rw [bind_assoc]
  apply bind_congr
  intro process
  by_cases hp : process = 0
  · rw [if_pos hp, if_pos hp]
    rfl
  · rw [if_neg hp, if_neg hp, bind_assoc]
    apply bind_congr
    intro peb
    by_cases hpeb : peb = 0
    · rw [if_pos hpeb, if_pos hpeb]
      rfl
    · rw [if_neg hpeb, if_neg hpeb, bind_assoc]
      apply bind_congr
      intro processParameters
      by_cases hparams : processParameters = 0
      · rw [if_pos hparams, if_pos hparams]
        rfl
      · rw [if_neg hparams, if_neg hparams, bind_assoc]
        dsimp only
        rw [hfmReadUnicode_eq, bind_assoc]
        apply bind_congr
        intro str
        funext s
        rw [pure_bind]
        simp only [ImageInput.buffer, imageBuffer]
        cases Buffer.empty.writeText 0 str with
        | error fault => rfl
        | ok written =>
          simp only [bind, Except.bind, StateT.bind, liftM, monadLift, MonadLift.monadLift,
            StateT.lift, pure, Except.pure]
          cases written.2.string with
          | error fault => rfl
          | ok path =>
            dsimp only
            cases strrchr path.str 0x5c with
            | none => rfl
            | some pos =>
              cases pos with
              | zero => rfl
              | succ pos =>
                dsimp only
                cases written.2.strncpy (pos + 2) [] 1 with
                | error fault => rfl
                | ok cut => rfl

/-- From the buffer with the directory on. -/
def nameBuffer (ctx : MonContext) (objectnameAddr : UInt64) (directory : Nat × Buffer) :
    ContextM (CharArray STR_BUFF × Nat) := do
  let (namelen, filepath) ← hfmReadUnicode ctx objectnameAddr directory.2 directory.1
  return (startFilepath (← filepath.string), directory.1 + namelen)

lemma nameBuffer_run {objectnameAddr : UInt64} {s s' : ContextState} {name : Option (List UInt8)}
    (h : hfmUnicode ctx objectnameAddr s = .ok (name, s')) (image : ImageInput) :
    (liftM image.buffer >>= nameBuffer ctx objectnameAddr) s =
      (PathInputs.assemble ⟨image, name⟩).map fun r => (r, s') := by
  unfold nameBuffer PathInputs.assemble
  simp only [hfmReadUnicode_eq, liftM, monadLift, MonadLift.monadLift, StateT.lift, pure,
    Except.pure, bind, StateT.bind, Except.bind]
  cases image.buffer with
  | error fault => rfl
  | ok written =>
    dsimp only
    rw [h]
    dsimp only
    cases written.2.writeText written.1 name with
    | error fault => rfl
    | ok full =>
      dsimp only
      cases full.2.string with
      | error fault => rfl
      | ok path => rfl

lemma readObjectPath_eq (objattrAddr : UInt64) : readObjectPath ctx objattrAddr =
    imageInput ctx objattrAddr >>= fun read =>
      liftM read.1.buffer >>= nameBuffer ctx read.2 := by
  unfold readObjectPath imageInput
  rw [bind_assoc]
  apply bind_congr
  intro rootdirAddr
  rw [bind_assoc]
  apply bind_congr
  intro objectnameAddr
  by_cases h : rootdirAddr = 0
  · rw [if_pos h, if_pos h]
    rfl
  · rw [if_neg h, if_neg h, readProcessPath_eq, bind_assoc, bind_assoc]
    rfl

/-- The path is the one that the inputs give. -/
lemma readObjectPath_run {objattrAddr : UInt64} {s s' : ContextState} {i : PathInputs}
    (h : pathInputs ctx objattrAddr s = .ok (i, s')) :
    readObjectPath ctx objattrAddr s = i.assemble.map fun r => (r, s') := by
  obtain ⟨⟨image, objectnameAddr⟩, s₁, hread, h⟩ := bind_run_eq_ok.mp h
  obtain ⟨name, s₂, hname, h⟩ := bind_run_eq_ok.mp h
  cases h
  rw [readObjectPath_eq, bind_run hread]
  exact nameBuffer_run hname image

end Runs

/-! ### The path that is meant -/

/-- `\??\`. -/
def devicePrefix : CStr := cstr "\\??\\"

/-- What is in front of the last backslash, with it. -/
def upToBackslash (str : CStr) : CStr :=
  match strrchr str 0x5c with
  | some pos => str.take (pos + 1)
  | none => []

/-- The path behind a `\??\` that it begins with. -/
def withoutDevice (path : CStr) : CStr :=
  if devicePrefix <+: path then path.drop 4 else path

namespace ImageInput

def length : ImageInput → Nat
  | .text str => (str.getD []).length
  | _ => 0

def path : ImageInput → CStr
  | .text str => cString (str.getD [])
  | _ => []

def found : ImageInput → Bool
  | .text _ => true
  | _ => false

end ImageInput

namespace PathInputs

variable (i : PathInputs)

def objectName : CStr := cString (i.name.getD [])

def directory : CStr := upToBackslash i.image.path

/-- The directory and the name of the object. -/
def assembled : CStr := i.directory ++ i.objectName

def expected : CStr := withoutDevice i.assembled

/-- The image is read, and has no backslash behind its first character. -/
def Hidden : Prop := i.image.found = true ∧ 0x5c ∉ i.image.path.drop 1

instance decidableHidden : Decidable i.Hidden := inferInstanceAs (Decidable (_ ∧ _))

/-- `pathlen`. -/
def pathlen : Nat :=
  if i.Hidden then 1 + i.image.length else i.directory.length

/-- The two texts fit the buffer. -/
def Fits : Prop :=
  i.image.length < STR_BUFF ∧ i.pathlen + (i.name.getD []).length < STR_BUFF

/-- What shows of the file name of the image behind the name of the object. -/
def leftover : CStr :=
  if i.name.getD [] = [] ∨ 0 ∈ i.name.getD [] then []
  else i.image.path.drop (i.directory.length + i.objectName.length)

end PathInputs

/-! ### The buffer -/

/-- The text of the image in the buffer. -/
lemma writeText_image (text : Option (List UInt8)) (h : (text.getD []).length ≤ STR_BUFF) :
    ∃ b, Buffer.empty.writeText 0 text = .ok ((text.getD []).length, b) ∧
      b.bytes = (cString (text.getD [])).takeD (text.getD []).length 0 := by
  cases text with
  | none => exact ⟨.empty, rfl, rfl⟩
  | some str =>
    have hroom : 0 + str.length ≤ STR_BUFF := by
      rw [Nat.zero_add]
      exact h
    obtain ⟨b, hok, hbytes⟩ := Buffer.empty.strncpy_ok str hroom
    refine ⟨b, ?_, ?_⟩
    · unfold Buffer.writeText
      dsimp only
      rw [hok]
      rfl
    · rw [hbytes, List.takeD_zero, List.nil_append]
      exact (congrArg _ List.drop_nil).trans (List.append_nil _)

/-- Where the last backslash of the image is behind its first character, the path is cut there. -/
lemma imageBuffer_cut {text : Option (List UInt8)} {u v : CStr}
    (h : (text.getD []).length ≤ STR_BUFF) (hlt : (cString (text.getD [])).length < STR_BUFF)
    (hpath : cString (text.getD []) = u ++ 0x5c :: v)
    (hu : u ≠ []) (hv : 0x5c ∉ v) :
    ∃ b, imageBuffer text = .ok (u.length + 1, b) ∧ b.bytes = (u ++ [0x5c]) ++
      0 :: (v ++ List.replicate ((text.getD []).length - (cString (text.getD [])).length) 0).drop 1 := by
  obtain ⟨b, hwrite, hbytes⟩ := writeText_image text h
  have hstring := cString_takeD (text.getD [])
  rw [← hbytes] at hstring
  obtain ⟨a, ha, hstr⟩ := Buffer.string_ok hstring hlt
  rw [hpath, List.length_append, List.length_cons] at hlt
  obtain ⟨cut, hcut, hcutBytes⟩ := b.strncpy_ok [] (show u.length + 1 + 1 ≤ STR_BUFF by omega)
  refine ⟨cut, ?_, ?_⟩
  · obtain ⟨pos, hpos⟩ := Nat.exists_eq_add_of_lt (List.length_pos_of_ne_nil hu)
    unfold imageBuffer
    rw [hwrite]
    simp only [bind, Except.bind, ha, hstr, hpath, strrchr_append hv]
    rw [hpos] at hcut ⊢
    simp only [Nat.zero_add] at hcut ⊢
    rw [hcut]
    rfl
  · have hdir : (u ++ [0x5c]).length = u.length + 1 := List.length_append
    rw [hcutBytes, hbytes, takeD_eq_append (cString_length_le _), hpath, List.append_cons u,
      List.append_assoc (u ++ [0x5c]), List.takeD_left' hdir, ← List.drop_drop,
      List.drop_left' hdir]
    exact List.append_assoc _ _ _

/-- Else the whole path stays in the buffer, with its NUL before the name. -/
lemma imageBuffer_whole {text : Option (List UInt8)}
    (h : (text.getD []).length ≤ STR_BUFF) (hlt : (cString (text.getD [])).length < STR_BUFF)
    (hpath : 0x5c ∉ (cString (text.getD [])).drop 1) :
    ∃ b, imageBuffer text = .ok (1 + (text.getD []).length, b) ∧
      b.bytes = (cString (text.getD [])).takeD (text.getD []).length 0 := by
  obtain ⟨b, hwrite, hbytes⟩ := writeText_image text h
  have hstring := cString_takeD (text.getD [])
  rw [← hbytes] at hstring
  obtain ⟨a, ha, hstr⟩ := Buffer.string_ok hstring hlt
  refine ⟨b, ?_, hbytes⟩
  unfold imageBuffer
  rw [hwrite]
  simp only [bind, Except.bind, ha, hstr]
  by_cases hmem : 0x5c ∈ cString (text.getD [])
  · obtain ⟨u, v, heq, hv⟩ := exists_last hmem
    rw [heq] at hpath ⊢
    rw [strrchr_append hv]
    cases u with
    | nil => rfl
    | cons c u => exact absurd (List.mem_append_right u List.mem_cons_self) hpath
  · rw [strrchr_of_notMem hmem]
    rfl

namespace PathInputs

variable {i : PathInputs}

/-- The string in the buffer. -/
def filled (i : PathInputs) : CStr :=
  if i.Hidden then i.image.path else i.assembled ++ i.leftover

lemma nul_notMem_path (image : ImageInput) : 0 ∉ image.path := by
  cases image with
  | noRoot | noParameters => exact List.not_mem_nil
  | text str => exact nul_notMem_cString _

/-- A path that is cut, and where. -/
lemma directory_of_not_hidden (hfound : i.image.found = true) (h : ¬i.Hidden) :
    ∃ u v, i.image.path = u ++ 0x5c :: v ∧ u ≠ [] ∧ 0x5c ∉ v ∧ i.directory = u ++ [0x5c] := by
  have hmem : 0x5c ∈ i.image.path.drop 1 := by
    by_contra hnot
    exact h ⟨hfound, hnot⟩
  obtain ⟨u, v, heq, hv⟩ := exists_last (List.mem_of_mem_drop hmem)
  refine ⟨u, v, heq, ?_, hv, ?_⟩
  · rintro rfl
    rw [heq, List.nil_append, List.drop_one, List.tail_cons] at hmem
    exact hv hmem
  · rw [directory, upToBackslash, heq, strrchr_append hv]
    dsimp only
    rw [List.append_cons]
    exact List.take_left' (List.length_append)

/-- The bytes of a buffer with the name at `off`. -/
def named (bytes : List UInt8) (off : Nat) : Option (List UInt8) → List UInt8
  | none => bytes
  | some name =>
    bytes.takeD off 0 ++ (cString name).takeD name.length 0 ++ bytes.drop (off + name.length)

lemma buffer_hidden (h : i.Hidden) (hlen : i.image.length ≤ STR_BUFF)
    (hlt : i.image.path.length < STR_BUFF) :
    ∃ b, i.image.buffer = .ok (i.pathlen, b) ∧
      cString (named b.bytes i.pathlen i.name) = i.filled := by
  obtain ⟨image, name⟩ := i
  have hfound := h.1
  have hpathlen : pathlen ⟨image, name⟩ = 1 + image.length := if_pos h
  have hfilled : filled ⟨image, name⟩ = image.path := if_pos h
  rw [hpathlen, hfilled]
  cases image with
  | noRoot | noParameters => cases hfound
  | text str =>
    obtain ⟨b, hbuffer, hbytes⟩ := imageBuffer_whole hlen hlt h.2
    refine ⟨b, hbuffer, ?_⟩
    have hstring := cString_takeD (str.getD [])
    rw [← hbytes] at hstring
    cases name with
    | none => exact hstring
    | some name =>
      have hblen : b.bytes.length = (ImageInput.text str).length := by
        rw [hbytes, List.takeD_length]
        rfl
      dsimp only [named]
      rw [takeD_eq_append (by omega), hblen, Nat.add_sub_cancel, List.append_assoc,
        List.append_assoc]
      exact (cString_append_nul _ _).trans hstring

lemma buffer_cut (hfound : i.image.found = true) (h : ¬i.Hidden)
    (hlen : i.image.length ≤ STR_BUFF) (hlt : i.image.path.length < STR_BUFF) :
    ∃ b, i.image.buffer = .ok (i.pathlen, b) ∧
      cString (named b.bytes i.pathlen i.name) = i.filled := by
  obtain ⟨u, v, hpath, hu, hv, hdir⟩ := directory_of_not_hidden hfound h
  have hpathlen : i.pathlen = u.length + 1 := by
    rw [pathlen, if_neg h, hdir, List.length_append, List.length_singleton]
  have hdirLen : (u ++ [0x5c]).length = u.length + 1 := List.length_append
  have hnul := nul_notMem_path i.image
  rw [hpath, List.append_cons] at hnul
  have hnulDir : 0 ∉ u ++ [0x5c] := fun hmem => hnul (List.mem_append_left _ hmem)
  have hnulV : 0 ∉ v := fun hmem => hnul (List.mem_append_right _ hmem)
  have hfilled : i.filled = u ++ [0x5c] ++ i.objectName ++ i.leftover := by
    rw [filled, if_neg h, assembled, hdir]
  rw [hpathlen, hfilled]
  obtain ⟨image, name⟩ := i
  cases image with
  | noRoot | noParameters => cases hfound
  | text str =>
    obtain ⟨b, hbuffer, hbytes⟩ := imageBuffer_cut hlen hlt hpath hu hv
    refine ⟨b, hbuffer, ?_⟩
    cases name with
    | none =>
      change cString b.bytes = u ++ [0x5c] ++ [] ++ []
      rw [hbytes, cString_append_nul, cString_of_nul hnulDir, List.append_nil, List.append_nil]
    | some name =>
      dsimp only [named]
      rw [hbytes, List.takeD_left' hdirLen, ← List.drop_drop, List.drop_left' hdirLen,
        cString_named hnulDir hnulV]
      congr 1
      unfold leftover
      dsimp only [Option.getD_some]
      by_cases hname : name = [] ∨ 0 ∈ name
      · rw [if_pos hname, if_pos hname]
      · have hself : objectName ⟨.text str, some name⟩ = name :=
          cString_of_nul fun hmem => hname (.inr hmem)
        rw [if_neg hname, if_neg hname, hself, hdir, hpath, List.append_cons u 0x5c v,
          ← List.drop_drop, List.drop_left]

lemma buffer_absent (hfound : i.image.found = false) :
    ∃ b, i.image.buffer = .ok (i.pathlen, b) ∧
      cString (named b.bytes i.pathlen i.name) = i.filled := by
  have hnot : ¬i.Hidden := by
    rintro ⟨h, -⟩
    rw [hfound] at h
    cases h
  have hpath : i.image.path = [] := by
    cases himage : i.image with
    | noRoot | noParameters => rfl
    | text str =>
      rw [himage] at hfound
      cases hfound
  have hdir : i.directory = [] := by
    rw [directory, hpath]
    rfl
  have hleft : i.leftover = [] := by
    unfold leftover
    rw [hpath, List.drop_nil, ite_self]
  have hpathlen : i.pathlen = 0 := by
    rw [pathlen, if_neg hnot, hdir]
    rfl
  have hbuffer : i.image.buffer = .ok (0, .empty) := by
    cases himage : i.image with
    | noRoot | noParameters => rfl
    | text str =>
      rw [himage] at hfound
      cases hfound
  refine ⟨.empty, by rw [hpathlen, hbuffer], ?_⟩
  rw [hpathlen, filled, if_neg hnot, assembled, hdir, hleft, List.nil_append, List.append_nil,
    objectName]
  cases i.name with
  | none => rfl
  | some name =>
    dsimp only [named, Option.getD_some]
    rw [List.takeD_zero, List.nil_append]
    refine Eq.trans ?_ (cString_takeD name)
    congr 1
    exact (congrArg _ List.drop_nil).trans (List.append_nil _)

/-- The buffer before the name is written, and the string in it behind that. -/
lemma buffer_ok (hlen : i.image.length ≤ STR_BUFF) (hlt : i.image.path.length < STR_BUFF) :
    ∃ b, i.image.buffer = .ok (i.pathlen, b) ∧
      cString (named b.bytes i.pathlen i.name) = i.filled := by
  by_cases hfound : i.image.found = true
  · by_cases h : i.Hidden
    · exact buffer_hidden h hlen hlt
    · exact buffer_cut hfound h hlen hlt
  · exact buffer_absent (Bool.eq_false_iff.mpr hfound)

/-- The name in the buffer. -/
lemma writeText_ok {b : Buffer} (name : Option (List UInt8)) {off : Nat}
    (h : name.isSome = true → off + (name.getD []).length ≤ STR_BUFF) :
    ∃ b', b.writeText off name = .ok ((name.getD []).length, b') ∧
      b'.bytes = named b.bytes off name := by
  cases name with
  | none => exact ⟨b, rfl, rfl⟩
  | some name =>
    obtain ⟨b', hok, hbytes⟩ := b.strncpy_ok name (h rfl)
    refine ⟨b', ?_, hbytes⟩
    unfold Buffer.writeText
    dsimp only
    rw [Option.getD_some] at hok
    rw [hok]
    rfl

lemma length_path_le (image : ImageInput) : image.path.length ≤ image.length := by
  cases image with
  | noRoot | noParameters => exact Nat.le_refl _
  | text str => exact cString_length_le _

lemma length_filled_lt (hfits : i.Fits) : i.filled.length < STR_BUFF := by
  have hpath := length_path_le i.image
  have himage := hfits.1
  have hname : i.objectName.length ≤ (i.name.getD []).length := cString_length_le _
  unfold filled
  by_cases h : i.Hidden
  · rw [if_pos h]
    omega
  · have hroom := hfits.2
    rw [pathlen, if_neg h] at hroom
    have hleft : i.leftover.length ≤ i.image.path.length - (i.directory.length + i.objectName.length) := by
      unfold leftover
      split
      · exact Nat.zero_le _
      · rw [List.length_drop]
    rw [if_neg h, assembled, List.length_append, List.length_append]
    omega

/-- Four bytes less if the path has `\??\` anywhere. -/
def skipDevice (path : CStr) : CStr := if devicePrefix <:+: path then path.drop 4 else path

/-- Nothing is written past the end of the buffer, and the string ends in it. -/
structure Assembles (i : PathInputs) : Prop where
  image_le : i.image.length ≤ STR_BUFF
  path_lt : i.image.path.length < STR_BUFF
  name_le : i.name.isSome = true → i.pathlen + (i.name.getD []).length ≤ STR_BUFF
  filled_lt : i.filled.length < STR_BUFF

lemma Fits.assembles (hfits : i.Fits) : i.Assembles where
  image_le := Nat.le_of_lt hfits.1
  path_lt := Nat.lt_of_le_of_lt (length_path_le i.image) hfits.1
  name_le := fun _ => Nat.le_of_lt hfits.2
  filled_lt := length_filled_lt hfits

/-- What is passed to `filter_match`, and the sum of the lengths. -/
theorem assemble_ok (h : i.Assembles) : ∃ start,
    i.assemble = .ok (start, i.pathlen + (i.name.getD []).length) ∧
      start.str = skipDevice i.filled := by
  obtain ⟨b, hbuffer, hstring⟩ := buffer_ok h.image_le h.path_lt
  obtain ⟨b', hwrite, hbytes⟩ := writeText_ok (b := b) i.name h.name_le
  rw [← hbytes] at hstring
  obtain ⟨a, ha, hstr⟩ := Buffer.string_ok hstring h.filled_lt
  refine ⟨startFilepath a, ?_, ?_⟩
  · unfold assemble
    rw [hbuffer]
    simp only [bind, Except.bind, hwrite, ha]
    rfl
  · unfold startFilepath skipDevice devicePrefix
    rw [← hstr]
    split <;> rfl

lemma imageBuffer_error {text : Option (List UInt8)}
    (h : ¬((text.getD []).length ≤ STR_BUFF ∧ (cString (text.getD [])).length < STR_BUFF)) :
    ∃ fault, imageBuffer text = .error fault := by
  unfold imageBuffer
  by_cases hlen : (text.getD []).length ≤ STR_BUFF
  · obtain ⟨b, hwrite, hbytes⟩ := writeText_image text hlen
    have hstring := cString_takeD (text.getD [])
    rw [← hbytes] at hstring
    have hge : STR_BUFF ≤ (cString b.bytes).length := by
      rw [hstring]
      exact Nat.le_of_not_lt fun hlt => h ⟨hlen, hlt⟩
    have herror := Buffer.string_error hge
    rw [hwrite]
    simp only [bind, Except.bind, herror]
    exact ⟨_, rfl⟩
  · cases text with
    | none => exact absurd (Nat.zero_le _) hlen
    | some str =>
      have hgt : STR_BUFF < 0 + str.length := by
        rw [Nat.zero_add]
        exact Nat.lt_of_not_le hlen
      have herror := Buffer.empty.strncpy_error str hgt
      unfold Buffer.writeText
      simp only [bind, Except.bind, herror]
      exact ⟨_, rfl⟩

/-- A text of the image that does not fit. -/
lemma buffer_error
    (h : ¬(i.image.length ≤ STR_BUFF ∧ i.image.path.length < STR_BUFF)) :
    ∃ fault, i.image.buffer = .error fault := by
  obtain ⟨image, name⟩ := i
  cases image with
  | noRoot | noParameters => exact absurd ⟨Nat.zero_le _, STR_BUFF_pos⟩ h
  | text str => exact imageBuffer_error h

theorem assemble_error (h : ¬i.Assembles) : ∃ fault, i.assemble = .error fault := by
  unfold assemble
  by_cases himage : i.image.length ≤ STR_BUFF ∧ i.image.path.length < STR_BUFF
  · obtain ⟨b, hbuffer, hstring⟩ := buffer_ok himage.1 himage.2
    rw [hbuffer]
    simp only [bind, Except.bind]
    by_cases hname : i.name.isSome = true → i.pathlen + (i.name.getD []).length ≤ STR_BUFF
    · obtain ⟨b', hwrite, hbytes⟩ := writeText_ok (b := b) i.name hname
      rw [← hbytes] at hstring
      have hge : STR_BUFF ≤ (cString b'.bytes).length := by
        rw [hstring]
        exact Nat.le_of_not_lt fun hlt => h ⟨himage.1, himage.2, hname, hlt⟩
      simp only [hwrite, Buffer.string_error hge]
      exact ⟨_, rfl⟩
    · cases hsome : i.name with
      | none =>
        rw [hsome] at hname
        exact absurd (fun hnone => by cases hnone) hname
      | some name =>
        rw [hsome] at hname
        have hgt : STR_BUFF < i.pathlen + name.length := by
          by_contra hle
          exact hname fun _ => Nat.le_of_not_lt hle
        unfold Buffer.writeText
        simp only [b.strncpy_error name hgt, bind, Except.bind]
        exact ⟨_, rfl⟩
  · obtain ⟨fault, herror⟩ := buffer_error himage
    rw [herror]
    exact ⟨fault, rfl⟩

/-- The path that is passed is the one that is meant, and not empty unless the name is. -/
def Correct (i : PathInputs) (path : CStr) : Prop :=
  path = i.expected ∧ (i.objectName ≠ [] → path ≠ [])

/-- Where it is. -/
def Kept (i : PathInputs) : Prop :=
  if i.Hidden then i.image.path = i.expected ∧ (i.objectName ≠ [] → i.image.path ≠ [])
  else i.leftover = [] ∧ (devicePrefix <:+: i.assembled → devicePrefix <+: i.assembled) ∧
    (i.objectName ≠ [] → i.assembled ≠ devicePrefix)

/-- The second backslash of `\??\` would be behind the first character. -/
lemma skipDevice_of_hidden (h : i.Hidden) : skipDevice i.image.path = i.image.path := by
  apply if_neg
  rintro ⟨u, v, heq⟩
  apply h.2
  rw [← heq]
  cases u with
  | nil => exact List.mem_append_left v (by decide)
  | cons c u => exact List.mem_append_left v (List.mem_append_right u (by decide))

lemma backslash_notMem_leftover (h : ¬i.Hidden) : 0x5c ∉ i.leftover := by
  intro hmem
  have hdrop : 0x5c ∈ i.image.path.drop (i.directory.length + i.objectName.length) := by
    unfold leftover at hmem
    split at hmem
    · cases hmem
    · exact hmem
  by_cases hfound : i.image.found = true
  · obtain ⟨u, v, hpath, -, hv, hdir⟩ := directory_of_not_hidden hfound h
    rw [hpath, hdir, List.append_cons u 0x5c v, ← List.drop_drop, List.drop_left] at hdrop
    exact hv (List.mem_of_mem_drop hdrop)
  · have hpath : i.image.path = [] := by
      cases himage : i.image with
      | noRoot | noParameters => rfl
      | text str =>
        rw [himage] at hfound
        exact absurd rfl hfound
    rw [hpath, List.drop_nil] at hdrop
    cases hdrop

/-- Four bytes later there would be a backslash behind the last one. -/
lemma drop_ne_of_leftover {a rest : CStr} (hrest : 0x5c ∉ rest) (hmem : 0x5c ∈ a ++ rest) :
    (a ++ rest).drop 4 ≠ a := by
  intro heq
  obtain ⟨u, v, hlast, hv⟩ := exists_last hmem
  have hat : (a ++ rest)[u.length]? = some 0x5c := by
    rw [hlast, List.getElem?_append_right (Nat.le_refl _), Nat.sub_self, List.getElem?_cons_zero]
  have hin : u.length < a.length := by
    by_contra hge
    rw [List.getElem?_append_right (Nat.le_of_not_lt hge)] at hat
    exact hrest (List.mem_of_getElem? hat)
  rw [List.getElem?_append_left hin, ← heq, List.getElem?_drop, hlast,
    List.getElem?_append_right (Nat.le_add_left _ _), Nat.add_sub_cancel,
    List.getElem?_cons_succ] at hat
  exact hv (List.mem_of_getElem? hat)

lemma mem_of_device {path : CStr} (h : devicePrefix <:+: path) : 0x5c ∈ path :=
  h.subset (by decide)

lemma length_of_device {path : CStr} (h : devicePrefix <:+: path) : 4 ≤ path.length :=
  h.length_le

/-- A path with nothing of the image behind it. -/
lemma correct_of_whole : i.Correct (skipDevice i.assembled) ↔
    (devicePrefix <:+: i.assembled → devicePrefix <+: i.assembled) ∧
      (i.objectName ≠ [] → i.assembled ≠ devicePrefix) := by
  unfold Correct expected
  by_cases hp : devicePrefix <+: i.assembled
  · have hskip : skipDevice i.assembled = i.assembled.drop 4 := if_pos hp.isInfix
    have hwithout : withoutDevice i.assembled = i.assembled.drop 4 := if_pos hp
    obtain ⟨w, hw⟩ := hp
    have hrest : (devicePrefix ++ w).drop 4 = w := rfl
    rw [hskip, hwithout, ← hw, hrest]
    constructor
    · rintro ⟨-, hne⟩
      refine ⟨fun _ => List.prefix_append _ _, fun hname hself => hne hname ?_⟩
      exact List.append_cancel_left (hself.trans (List.append_nil _).symm)
    · rintro ⟨-, hne⟩
      refine ⟨rfl, fun hname hnil => hne hname ?_⟩
      rw [hnil, List.append_nil]
  · have hwithout : withoutDevice i.assembled = i.assembled := if_neg hp
    rw [hwithout]
    by_cases hi : devicePrefix <:+: i.assembled
    · have hskip : skipDevice i.assembled = i.assembled.drop 4 := if_pos hi
      rw [hskip]
      constructor
      · rintro ⟨heq, -⟩
        have hlen := congrArg List.length heq
        have := length_of_device hi
        rw [List.length_drop] at hlen
        omega
      · rintro ⟨hbegins, -⟩
        exact absurd (hbegins hi) hp
    · have hskip : skipDevice i.assembled = i.assembled := if_neg hi
      rw [hskip]
      constructor
      · rintro -
        exact ⟨fun hinfix => absurd hinfix hi, fun _ hself => hp (hself ▸ List.prefix_rfl)⟩
      · rintro -
        refine ⟨rfl, fun hname hnil => hname ?_⟩
        exact (List.append_eq_nil_iff.mp hnil).2

/-- With a rest of the file name of the image behind it the path is never right. -/
lemma not_correct_of_leftover (h : ¬i.Hidden) (hleft : i.leftover ≠ []) :
    ¬i.Correct (skipDevice (i.assembled ++ i.leftover)) := by
  rintro ⟨heq, -⟩
  have hpos := List.length_pos_of_ne_nil hleft
  unfold expected at heq
  by_cases hi : devicePrefix <:+: i.assembled ++ i.leftover
  · have hskip : skipDevice (i.assembled ++ i.leftover) = (i.assembled ++ i.leftover).drop 4 :=
      if_pos hi
    rw [hskip] at heq
    by_cases hp : devicePrefix <+: i.assembled
    · have hwithout : withoutDevice i.assembled = i.assembled.drop 4 := if_pos hp
      have hlen := congrArg List.length (heq.trans hwithout)
      have := length_of_device hp.isInfix
      rw [List.length_drop, List.length_drop, List.length_append] at hlen
      omega
    · have hwithout : withoutDevice i.assembled = i.assembled := if_neg hp
      exact drop_ne_of_leftover (backslash_notMem_leftover h) (mem_of_device hi)
        (heq.trans hwithout)
  · have hskip : skipDevice (i.assembled ++ i.leftover) = i.assembled ++ i.leftover := if_neg hi
    have hp : ¬devicePrefix <+: i.assembled := fun hp =>
      hi (hp.trans (List.prefix_append _ _)).isInfix
    have hwithout : withoutDevice i.assembled = i.assembled := if_neg hp
    have hlen := congrArg List.length ((hskip.symm.trans heq).trans hwithout)
    rw [List.length_append] at hlen
    omega

theorem correct_iff : i.Correct (skipDevice i.filled) ↔ i.Kept := by
  unfold filled Kept
  by_cases h : i.Hidden
  · rw [if_pos h, if_pos h, skipDevice_of_hidden h]
    exact Iff.rfl
  · rw [if_neg h, if_neg h]
    by_cases hleft : i.leftover = []
    · rw [hleft, List.append_nil, correct_of_whole]
      exact ⟨fun hwhole => ⟨rfl, hwhole⟩, fun hkept => hkept.2⟩
    · exact ⟨fun hcorrect => absurd hcorrect (not_correct_of_leftover h hleft),
        fun hkept => absurd hkept.1 hleft⟩

end PathInputs

end Hfm

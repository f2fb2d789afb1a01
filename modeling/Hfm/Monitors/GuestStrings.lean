import Hfm.Monitors.FileName

/-!
# Strings of the guest in the buffers of the program

`hfm_read_unicode` admits a string by its length in UTF-16, and writes it in UTF-8 to a buffer whose
size it is not told.
-/

namespace Hfm

open Support

/-! ### What is read before it is converted -/

/-- The context with a conversion that leaves the bytes as they are. -/
def Context.raw {κ ε : Type} (ctx : Context κ ε) : Context κ ε :=
  { ctx with calls := { ctx.calls with convertStrEncoding := some } }

def ImageInput.convert (f : List UInt8 → Option (List UInt8)) : ImageInput → ImageInput
  | .text contents => .text (contents.bind f)
  | image => image

def PathInputs.convert (f : List UInt8 → Option (List UInt8)) (i : PathInputs) : PathInputs :=
  ⟨i.image.convert f, i.name.bind f⟩

def NameInputs.convert (f : List UInt8 → Option (List UInt8)) (i : NameInputs) : NameInputs :=
  ⟨i.device.bind f, i.file.bind f⟩

section Raw

variable (ctx : MonContext)

lemma hfmUnicode_raw (addr : UInt64) : hfmUnicode ctx addr =
    (fun contents => contents.bind ctx.calls.convertStrEncoding) <$> hfmUnicode ctx.raw addr := by
  unfold hfmUnicode
  rw [map_bind]
  apply bind_congr
  intro length
  by_cases hlen : length = 0 ∨ VMI_PS_4KB < length.toUInt64
  · rw [if_pos hlen, if_pos hlen]
    rfl
  · rw [if_neg hlen, if_neg hlen, map_bind]
    apply bind_congr
    intro bufferAddr
    by_cases hbuf : bufferAddr = 0
    · rw [if_pos hbuf, if_pos hbuf]
      rfl
    · rw [if_neg hbuf, if_neg hbuf, map_bind]
      apply bind_congr
      intro contents
      by_cases hread : contents.length ≠ length.toNat
      · rw [if_pos hread, if_pos hread]
        rfl
      · rw [if_neg hread, if_neg hread]
        rfl

lemma processImage_raw : processImage ctx =
    ImageInput.convert ctx.calls.convertStrEncoding <$> processImage ctx.raw := by
  unfold processImage
  rw [map_bind]
  apply bind_congr
  intro process
  by_cases hp : process = 0
  · rw [if_pos hp, if_pos hp]
    rfl
  · rw [if_neg hp, if_neg hp, map_bind]
    apply bind_congr
    intro peb
    by_cases hpeb : peb = 0
    · rw [if_pos hpeb, if_pos hpeb]
      rfl
    · rw [if_neg hpeb, if_neg hpeb, map_bind]
      apply bind_congr
      intro params
      by_cases hparams : params = 0
      · rw [if_pos hparams, if_pos hparams]
        rfl
      · rw [if_neg hparams, if_neg hparams, hfmUnicode_raw, map_bind, bind_map_left]
        rfl

lemma pathInputs_raw (objattrAddr : UInt64) : pathInputs ctx objattrAddr =
    PathInputs.convert ctx.calls.convertStrEncoding <$> pathInputs ctx.raw objattrAddr := by
  unfold pathInputs imageInput
  simp only [bind_assoc, map_bind]
  apply bind_congr
  intro rootdirAddr
  apply bind_congr
  intro objectnameAddr
  by_cases h : rootdirAddr = 0
  · rw [if_pos h, if_pos h, pure_bind, pure_bind, hfmUnicode_raw, bind_map_left]
    rfl
  · rw [if_neg h, if_neg h, processImage_raw, bind_assoc, bind_assoc, bind_map_left]
    apply bind_congr
    intro image
    rw [pure_bind, pure_bind, hfmUnicode_raw, bind_map_left]
    rfl

lemma nameInputs_raw (fileObject : UInt64) : nameInputs ctx fileObject =
    NameInputs.convert ctx.calls.convertStrEncoding <$> nameInputs ctx.raw fileObject := by
  unfold nameInputs
  simp only [map_bind]
  apply bind_congr
  intro deviceObject
  rw [hfmUnicode_raw, bind_map_left]
  apply bind_congr
  intro device
  rw [hfmUnicode_raw, bind_map_left]
  rfl

end Raw

/-! ### What is written -/

/-- A call of `hfm_read_unicode`: where in its buffer it writes, and how many bytes. -/
structure UnicodeWrite where
  off : Nat
  len : Nat

/-- Nothing is written, or the bytes and a NUL behind them lie in the buffer. -/
def UnicodeWrite.Inside (w : UnicodeWrite) : Prop := w.len = 0 ∨ w.off + w.len < STR_BUFF

/-- The writes of `createfile_cb`: that of `_read_process_path`, and the one behind it. -/
def PathInputs.writes (i : PathInputs) : List UnicodeWrite :=
  match i.image.buffer with
  | .error _ => [⟨0, i.image.length⟩]
  | .ok (pathlen, _) => [⟨0, i.image.length⟩, ⟨pathlen, (i.name.getD []).length⟩]

/-- The writes of `hfm_read_filename_from_object`, each to a buffer of its own. -/
def NameInputs.writes (i : NameInputs) : List UnicodeWrite :=
  [⟨0, (i.device.getD []).length⟩, ⟨0, (i.file.getD []).length⟩]

/-- `createfile_cb` assembles its path, with all that it writes inside the buffer. -/
def PathStringsFit (ctx : MonContext) (objattrAddr : UInt64) (s : ContextState) : Prop :=
  ∃ i r s', pathInputs ctx objattrAddr s = .ok (i, s') ∧
    readObjectPath ctx objattrAddr s = .ok (r, s') ∧ ∀ w ∈ i.writes, w.Inside

/-- `hfm_read_filename_from_object` comes to its end, with all that it writes inside its buffers. -/
def NameStringsFit (ctx : MonContext) (fileObject : UInt64) (s : ContextState) : Prop :=
  ∃ i r s', nameInputs ctx fileObject s = .ok (i, s') ∧
    hfmReadFilenameFromObject ctx fileObject s = .ok (r, s') ∧ ∀ w ∈ i.writes, w.Inside

/-! ### Which strings fit -/

/-- The contents of the image, if any. -/
def ImageInput.contents : ImageInput → List UInt8
  | .text contents => contents.getD []
  | _ => []

/-- The image takes less than the buffer in UTF-8, and so does the name from `pathlen` on. -/
def PathInputs.Roomy (i : PathInputs) : Prop :=
  utf8Size i.image.contents < STR_BUFF ∧
    (utf8Size (i.name.getD []) = 0 ∨
      (i.convert utf8OfUtf16).pathlen + utf8Size (i.name.getD []) < STR_BUFF)

def NameInputs.Roomy (i : NameInputs) : Prop :=
  utf8Size (i.device.getD []) < STR_BUFF ∧ utf8Size (i.file.getD []) < STR_BUFF

lemma length_convert (contents : Option (List UInt8)) :
    ((contents.bind utf8OfUtf16).getD []).length = utf8Size (contents.getD []) := by
  cases contents with
  | none => rfl
  | some contents => exact length_utf8OfUtf16 contents

lemma length_convert_image (image : ImageInput) :
    (image.convert utf8OfUtf16).length = utf8Size image.contents := by
  cases image with
  | noRoot | noParameters => rfl
  | text contents => exact length_convert contents

namespace PathInputs

variable {i : PathInputs}

lemma length_directory_le (i : PathInputs) : i.directory.length ≤ i.image.length := by
  apply Nat.le_trans ?_ (length_path_le i.image)
  unfold directory upToBackslash
  split
  · exact List.length_take_le' _ _
  · exact Nat.zero_le _

/-- A name of no bytes changes nothing. -/
lemma length_filled_of_nil (hname : (i.name.getD []).length = 0) :
    i.filled.length ≤ i.image.length := by
  have hnil : i.name.getD [] = [] := List.eq_nil_of_length_eq_zero hname
  have hobject : i.objectName = [] := by
    rw [objectName, hnil]
    rfl
  have hleft : i.leftover = [] := if_pos (.inl hnil)
  unfold filled
  split
  · exact length_path_le i.image
  · rw [assembled, hobject, hleft, List.append_nil, List.append_nil]
    exact length_directory_le i

/-- What fits with its NULs is assembled. -/
lemma assembles_of_room (himage : i.image.length < STR_BUFF)
    (hname : (i.name.getD []).length = 0 ∨ i.pathlen + (i.name.getD []).length < STR_BUFF) :
    i.Assembles := by
  rcases hname with hname | hname
  · refine ⟨Nat.le_of_lt himage, Nat.lt_of_le_of_lt (length_path_le i.image) himage, fun _ => ?_,
      Nat.lt_of_le_of_lt (length_filled_of_nil hname) himage⟩
    have hdir := length_directory_le i
    unfold pathlen
    split <;> omega
  · exact (show i.Fits from ⟨himage, hname⟩).assembles

/-- The writes lie in the buffer exactly if the two texts do. -/
lemma writes_iff : ((∃ r, i.assemble = .ok r) ∧ ∀ w ∈ i.writes, w.Inside) ↔
    i.image.length < STR_BUFF ∧
      ((i.name.getD []).length = 0 ∨ i.pathlen + (i.name.getD []).length < STR_BUFF) := by
  have hpos := STR_BUFF_pos
  constructor
  · rintro ⟨⟨r, hok⟩, hinside⟩
    have hassembles : i.Assembles := by
      by_contra hnot
      obtain ⟨fault, herror⟩ := assemble_error hnot
      rw [hok] at herror
      cases herror
    obtain ⟨b, hbuffer, -⟩ := buffer_ok hassembles.image_le hassembles.path_lt
    have hwrites : i.writes = [⟨0, i.image.length⟩, ⟨i.pathlen, (i.name.getD []).length⟩] := by
      unfold writes
      rw [hbuffer]
    rw [hwrites] at hinside
    have hfirst := hinside _ List.mem_cons_self
    have hsecond := hinside _ (List.mem_cons_of_mem _ List.mem_cons_self)
    unfold UnicodeWrite.Inside at hfirst hsecond
    refine ⟨?_, hsecond⟩
    rcases hfirst with hzero | hlt <;> dsimp only at *
    · omega
    · omega
  · rintro ⟨himage, hname⟩
    have hassembles := assembles_of_room himage hname
    obtain ⟨start, hok, -⟩ := assemble_ok hassembles
    obtain ⟨b, hbuffer, -⟩ := buffer_ok hassembles.image_le hassembles.path_lt
    refine ⟨⟨_, hok⟩, ?_⟩
    unfold writes
    rw [hbuffer]
    intro w hw
    rcases List.mem_cons.mp hw with rfl | hw
    · exact .inr (by dsimp only; omega)
    · rw [List.mem_singleton.mp hw]
      exact hname

end PathInputs

namespace NameInputs

variable {ctx : MonContext} {i : NameInputs}

lemma writes_iff (hdrives : ∀ drive ∈ ctx.hdlr.drives, drive.dosName.length < STR_BUFF) :
    ((∃ r, i.assemble ctx = .ok r) ∧ ∀ w ∈ i.writes, w.Inside) ↔
      (i.device.getD []).length < STR_BUFF ∧ (i.file.getD []).length < STR_BUFF := by
  have hpos := STR_BUFF_pos
  constructor
  · rintro ⟨-, hinside⟩
    have hfirst := hinside _ List.mem_cons_self
    have hsecond := hinside _ (List.mem_cons_of_mem _ List.mem_cons_self)
    unfold UnicodeWrite.Inside at hfirst hsecond
    dsimp only at hfirst hsecond
    omega
  · rintro ⟨hdevice, hfile⟩
    have hfits : i.Fits ctx := ⟨hdevice, hfile, hdrives⟩
    obtain ⟨name, hok, -⟩ := assemble_ok hfits
    refine ⟨⟨_, hok⟩, fun w hw => ?_⟩
    rcases List.mem_cons.mp hw with rfl | hw
    · exact .inr (by dsimp only; omega)
    · rw [List.mem_singleton.mp hw]
      exact .inr (by dsimp only; omega)

end NameInputs

lemma map_run_eq_ok {α β : Type} {f : α → β} {x : ContextM α} {s s' : ContextState} {a : α}
    (h : x s = .ok (a, s')) : (f <$> x) s = .ok (f a, s') := by
  rw [map_eq_pure_bind]
  exact bind_run h _

section Fit

variable {ctx : MonContext} {s s' : ContextState}

lemma pathStringsFit_iff (hconvert : ctx.calls.convertStrEncoding = utf8OfUtf16)
    {objattrAddr : UInt64} {i : PathInputs} (hraw : pathInputs ctx.raw objattrAddr s = .ok (i, s')) :
    PathStringsFit ctx objattrAddr s ↔ i.Roomy := by
  have hinputs : pathInputs ctx objattrAddr s = .ok (i.convert utf8OfUtf16, s') := by
    rw [pathInputs_raw, hconvert]
    exact map_run_eq_ok hraw
  have hrun := readObjectPath_run hinputs
  have himage : (i.convert utf8OfUtf16).image.length = utf8Size i.image.contents :=
    length_convert_image i.image
  have hname : ((i.convert utf8OfUtf16).name.getD []).length = utf8Size (i.name.getD []) :=
    length_convert i.name
  have hiff := PathInputs.writes_iff (i := i.convert utf8OfUtf16)
  rw [himage, hname] at hiff
  unfold PathInputs.Roomy
  rw [← hiff]
  constructor
  · rintro ⟨i', r, s₁, hinputs', hread, hinside⟩
    rw [hinputs] at hinputs'
    cases hinputs'
    rw [hrun] at hread
    obtain ⟨r', hok, -⟩ := map_eq_ok.mp hread
    exact ⟨⟨r', hok⟩, hinside⟩
  · rintro ⟨⟨r, hok⟩, hinside⟩
    rw [hok] at hrun
    exact ⟨_, r, s', hinputs, hrun, hinside⟩

lemma nameStringsFit_iff (hconvert : ctx.calls.convertStrEncoding = utf8OfUtf16)
    (hdrives : ∀ drive ∈ ctx.hdlr.drives, drive.dosName.length < STR_BUFF) {fileObject : UInt64}
    {i : NameInputs} (hraw : nameInputs ctx.raw fileObject s = .ok (i, s')) :
    NameStringsFit ctx fileObject s ↔ i.Roomy := by
  have hinputs : nameInputs ctx fileObject s = .ok (i.convert utf8OfUtf16, s') := by
    rw [nameInputs_raw, hconvert]
    exact map_run_eq_ok hraw
  have hrun := hfmReadFilenameFromObject_run hinputs
  have hdevice : ((i.convert utf8OfUtf16).device.getD []).length = utf8Size (i.device.getD []) :=
    length_convert i.device
  have hfile : ((i.convert utf8OfUtf16).file.getD []).length = utf8Size (i.file.getD []) :=
    length_convert i.file
  have hiff := NameInputs.writes_iff (i := i.convert utf8OfUtf16) hdrives
  rw [hdevice, hfile] at hiff
  unfold NameInputs.Roomy
  rw [← hiff]
  constructor
  · rintro ⟨i', r, s₁, hinputs', hread, hinside⟩
    rw [hinputs] at hinputs'
    cases hinputs'
    rw [hrun] at hread
    obtain ⟨r', hok, -⟩ := map_eq_ok.mp hread
    exact ⟨⟨r', hok⟩, hinside⟩
  · rintro ⟨⟨r, hok⟩, hinside⟩
    rw [hok] at hrun
    exact ⟨_, r, s', hinputs, hrun, hinside⟩

end Fit

/-- The strings of the guest fit their buffers exactly if they do in UTF-8. -/
theorem guest_strings_fit_iff {ctx : MonContext} {objattrAddr fileObject : UInt64}
    {s s₁ s₂ : ContextState} {i : PathInputs} {j : NameInputs}
    (hconvert : ctx.calls.convertStrEncoding = utf8OfUtf16)
    (hdrives : ∀ drive ∈ ctx.hdlr.drives, drive.dosName.length < STR_BUFF)
    (hpath : pathInputs ctx.raw objattrAddr s = .ok (i, s₁))
    (hname : nameInputs ctx.raw fileObject s = .ok (j, s₂)) :
    (PathStringsFit ctx objattrAddr s ↔ i.Roomy) ∧ (NameStringsFit ctx fileObject s ↔ j.Roomy) :=
  ⟨pathStringsFit_iff hconvert hpath, nameStringsFit_iff hconvert hdrives hname⟩

/-- `relativeName` with the conversion of LibVMI. -/
def convertedName (name : CStr) : MonContext :=
  { relativeName name with
    calls := { (relativeName name).calls with convertStrEncoding := utf8OfUtf16 } }

/-- The same texts in UTF-16. -/
def convertedInputs (name : CStr) : PathInputs :=
  ⟨.text (some ((cstr "C:\\a\\b.exe").flatMap fun c => [c, 0])), some (name.flatMap fun c => [c, 0])⟩

theorem guest_strings_fit_iff_notes :
    (PathStringsFit (convertedName (cstr "notes.txt")) 0x100 ⟨0, 0⟩ ↔
      (convertedInputs (cstr "notes.txt")).Roomy) ∧
    (NameStringsFit (convertedName (cstr "notes.txt")) 0x900 ⟨0, 0⟩ ↔
      (⟨none, none⟩ : NameInputs).Roomy) :=
  have hpath : pathInputs (convertedName (cstr "notes.txt")).raw 0x100 ⟨0, 0⟩ =
      .ok (convertedInputs (cstr "notes.txt"), ⟨12, 0⟩) := by rfl
  have hname : nameInputs (convertedName (cstr "notes.txt")).raw 0x900 ⟨0, 0⟩ =
      .ok (⟨none, none⟩, ⟨3, 0⟩) := by rfl
  guest_strings_fit_iff rfl (fun drive h => by cases h) hpath hname

/-- 400 times the character U+20AC, of two bytes each in UTF-16, of three in UTF-8. -/
def wideName : List UInt8 := (List.replicate 400 [0xac, 0x20]).flatten

/-- A path of 800 admitted bytes takes 1200 in the buffer. -/
theorem wide_name_overrun :
    nameInputs (fileWith wideName) 0x100 ⟨0, 0⟩ =
      .ok (⟨some (cstr "HarddiskVolume2"), utf8OfUtf16 wideName⟩, ⟨7, 0⟩) ∧
    wideName.length = 800 ∧ ((utf8OfUtf16 wideName).getD []).length = 1200 ∧
    ¬NameStringsFit (fileWith wideName) 0x100 ⟨0, 0⟩ := by
  have hlen : wideName.length = 800 := by decide +kernel
  have hsize : ((utf8OfUtf16 wideName).getD []).length = 1200 := by
    rw [length_utf8OfUtf16]
    decide +kernel
  have hinputs := nameInputs_fileWith wideName 800 hlen (List.cons_ne_nil _ _) (by omega)
  refine ⟨hinputs, hlen, hsize, ?_⟩
  rintro ⟨i, r, s', hinputs', -, hinside⟩
  rw [hinputs] at hinputs'
  cases hinputs'
  have hfile := hinside _ (List.mem_cons_of_mem _ List.mem_cons_self)
  unfold UnicodeWrite.Inside STR_BUFF at hfile
  dsimp only at hfile
  omega

end Hfm

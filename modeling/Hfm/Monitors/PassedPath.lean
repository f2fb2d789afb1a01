import Hfm.Monitors.ObjectPath

/-!
# The path that is passed to the filters

`createfile_cb` of the two monitors up to `filter_match`, and from there on.
-/

namespace Hfm

open Support

lemma guest_bind {α β : Type} (x : ContextM α) (f : α → ContextM β) :
    guest (x >>= f) = guest x >>= fun a => guest (f a) := by
  funext s
  unfold guest zoom
  simp only [bind, StateT.bind, Except.bind]
  cases x s.context with
  | error fault => rfl
  | ok r => rfl

lemma guest_ok {α : Type} {x : ContextM α} {s : MonState} {a : α} {context : ContextState}
    (h : x s.context = .ok (a, context)) : guest x s = .ok (a, { s with context }) := by
  unfold guest zoom
  rw [h]
  rfl

lemma stackArg_total (ctx : MonContext) (n size : UInt64) : Total (stackArg ctx n size) :=
  fun _ => ⟨_, rfl⟩

lemma createfileArgs_total (ctx : MonContext) : Total (createfileArgs ctx) := by
  have hread : ∀ addr, Total (vmiRead32Va ctx addr) := fun _ _ => ⟨_, rfl⟩
  apply Total.ite
  · exact (hread _).bind fun create => .pure _
  · apply (hread _).bind
    intro objattrAddr
    apply (hread _).bind
    intro ioStatusAddr
    exact (hread _).bind fun create => .pure _

namespace FileCreated

variable (ctx : MonContext)

/-- `createfile_cb` up to `filter_match`: what is kept for the return, the path, and the sum of
the lengths. -/
def createfilePath : ContextM ((UInt64 × UInt32) × CharArray STR_BUFF × Nat) := do
  let (objattrAddr, ioStatusAddr, createMode) ← createfileArgs ctx
  return ((ioStatusAddr, createMode), ← readObjectPath ctx objattrAddr)

/-- `createfile_cb` from `filter_match` on. -/
def createfileMatch (read : (UInt64 × UInt32) × CharArray STR_BUFF × Nat) : MonM (Option Extra) := do
  let ((ioStatusAddr, createMode), start, len) := read
  let policyId ← filterMatchOf .fileCreated start.str
  if 0 ≤ policyId then
    let filename ← start.strncpy (len + 1)
    return some (.create { filename, ioStatusAddr, createMode, policyId, matched := start.str })
  else return none

lemma createfileCb_eq : createfileCb ctx = guest (createfilePath ctx) >>= createfileMatch := by
  unfold createfileCb createfilePath
  rw [guest_bind, bind_assoc]
  apply bind_congr
  intro args
  rw [guest_bind, bind_assoc]
  rfl

/-- `createfile_cb` comes to `filter_match`, with this path. -/
def Passes (s : MonState) (path : CharArray STR_BUFF) : Prop :=
  ∃ kept len context, createfilePath ctx s.context = .ok ((kept, path, len), context) ∧
    createfileCb ctx s = createfileMatch (kept, path, len) { s with context }

/-- What it reads: what is kept for the return, and what the path is made of. -/
def inputs : ContextM ((UInt64 × UInt32) × PathInputs) := do
  let (objattrAddr, ioStatusAddr, createMode) ← createfileArgs ctx
  return ((ioStatusAddr, createMode), ← pathInputs ctx objattrAddr)

variable {ctx}

lemma createfilePath_run {s s' : ContextState} {kept : UInt64 × UInt32} {i : PathInputs}
    (h : inputs ctx s = .ok ((kept, i), s')) :
    createfilePath ctx s = i.assemble.map fun r => ((kept, r), s') := by
  obtain ⟨⟨objattrAddr, ioStatusAddr, createMode⟩, s₁, hargs, h⟩ := bind_run_eq_ok.mp h
  obtain ⟨i', s₂, hread, h⟩ := bind_run_eq_ok.mp h
  cases h
  have hpath := readObjectPath_run hread
  unfold createfilePath
  rw [bind_run hargs]
  cases hassemble : i.assemble with
  | error fault =>
    rw [hassemble] at hpath
    exact bind_run_error hpath _
  | ok r =>
    rw [hassemble] at hpath
    exact bind_run hpath _

lemma passes_iff {s : MonState} {s' : ContextState} {kept : UInt64 × UInt32} {i : PathInputs}
    (h : inputs ctx s.context = .ok ((kept, i), s')) (hfits : i.Fits) :
    (∃ path, Passes ctx s path ∧ i.Correct path.str) ↔ i.Correct (PathInputs.skipDevice i.filled) := by
  have hrun := createfilePath_run h
  obtain ⟨start, hok, hstart⟩ := PathInputs.assemble_ok hfits.assembles
  rw [hok] at hrun
  constructor
  · rintro ⟨path, ⟨kept', len, context, hpath, -⟩, hcorrect⟩
    rw [hrun] at hpath
    cases hpath
    rwa [hstart] at hcorrect
  · intro hcorrect
    refine ⟨start, ⟨kept, _, s', hrun, ?_⟩, by rwa [hstart]⟩
    rw [createfileCb_eq]
    exact bind_run (guest_ok hrun) createfileMatch

end FileCreated

namespace FileDeleted

variable (env : MonEnv) (ctx : MonContext)

/-- `createfile_cb` up to `filter_match`; none if the file is not to be deleted. -/
def createfilePath : ContextM (Option (CharArray STR_BUFF × Nat)) := do
  let (objattrAddr, _, _) ← createfileArgs ctx
  let (desiredAccess, createOptions) ← accessArgs ctx
  if desiredAccess &&& DESIRED_ACCESS_DELETE ≠ 0 ∧ createOptions &&& FILE_DELETE_ON_CLOSE ≠ 0 then
    return some (← readObjectPath ctx objattrAddr)
  else return none

/-- `createfile_cb` from `filter_match` on. -/
def createfileMatch : Option (CharArray STR_BUFF × Nat) → MonM (Option Extra)
  | some (start, _) => do
    let policyId ← filterMatchOf .fileDeleted start.str
    if 0 ≤ policyId then
      sendOutput env ctx ⟨.fileDeleted, start.str, .delete, policyId, start, noData, 0⟩
      return none
    else return none
  | none => return none

lemma createfileCb_eq :
    createfileCb env ctx = guest (createfilePath ctx) >>= createfileMatch env ctx := by
  unfold createfileCb createfilePath
  rw [guest_bind, bind_assoc]
  apply bind_congr
  intro args
  rw [guest_bind, bind_assoc]
  apply bind_congr
  intro access
  by_cases h : access.1 &&& DESIRED_ACCESS_DELETE ≠ 0 ∧ access.2 &&& FILE_DELETE_ON_CLOSE ≠ 0
  · dsimp only
    rw [if_pos h, if_pos h, guest_bind, bind_assoc]
    rfl
  · dsimp only
    rw [if_neg h, if_neg h]
    rfl

/-- `createfile_cb` comes to `filter_match`, with this path. -/
def Passes (s : MonState) (path : CharArray STR_BUFF) : Prop :=
  ∃ len context, createfilePath ctx s.context = .ok (some (path, len), context) ∧
    createfileCb env ctx s = createfileMatch env ctx (some (path, len)) { s with context }

/-- What it reads for the path, if the file is to be deleted. -/
def inputs : ContextM (Option PathInputs) := do
  let (objattrAddr, _, _) ← createfileArgs ctx
  let (desiredAccess, createOptions) ← accessArgs ctx
  if desiredAccess &&& DESIRED_ACCESS_DELETE ≠ 0 ∧ createOptions &&& FILE_DELETE_ON_CLOSE ≠ 0 then
    return some (← pathInputs ctx objattrAddr)
  else return none

lemma accessArgs_total : Total (accessArgs ctx) := by
  apply Total.ite
  · exact (stackArg_total ctx _ _).bind fun createOptions => .pure _
  · apply (stackArg_total ctx _ _).bind
    intro desiredAccess
    exact (stackArg_total ctx _ _).bind fun createOptions => .pure _

variable {env ctx}

lemma createfilePath_run {s s' : ContextState} {i : PathInputs}
    (h : inputs ctx s = .ok (some i, s')) :
    createfilePath ctx s = i.assemble.map fun r => (some r, s') := by
  obtain ⟨⟨objattrAddr, ioStatusAddr, createMode⟩, s₁, hargs, h⟩ := bind_run_eq_ok.mp h
  obtain ⟨⟨desiredAccess, createOptions⟩, s₂, haccess, h⟩ := bind_run_eq_ok.mp h
  unfold createfilePath
  rw [bind_run hargs]
  dsimp only
  rw [bind_run haccess]
  dsimp only at h ⊢
  by_cases hdelete : desiredAccess &&& DESIRED_ACCESS_DELETE ≠ 0 ∧
      createOptions &&& FILE_DELETE_ON_CLOSE ≠ 0
  · rw [if_pos hdelete] at h
    obtain ⟨i', s₃, hread, h⟩ := bind_run_eq_ok.mp h
    cases h
    have hpath := readObjectPath_run hread
    rw [if_pos hdelete]
    cases hassemble : i.assemble with
    | error fault =>
      rw [hassemble] at hpath
      exact bind_run_error hpath _
    | ok r =>
      rw [hassemble] at hpath
      exact bind_run hpath _
  · rw [if_neg hdelete] at h
    cases h

lemma passes_iff {s : MonState} {s' : ContextState} {i : PathInputs}
    (h : inputs ctx s.context = .ok (some i, s')) (hfits : i.Fits) :
    (∃ path, Passes env ctx s path ∧ i.Correct path.str) ↔
      i.Correct (PathInputs.skipDevice i.filled) := by
  have hrun := createfilePath_run h
  obtain ⟨start, hok, hstart⟩ := PathInputs.assemble_ok hfits.assembles
  rw [hok] at hrun
  constructor
  · rintro ⟨path, ⟨len, context, hpath, -⟩, hcorrect⟩
    rw [hrun] at hpath
    cases hpath
    rwa [hstart] at hcorrect
  · intro hcorrect
    refine ⟨start, ⟨_, s', hrun, ?_⟩, by rwa [hstart]⟩
    rw [createfileCb_eq]
    exact bind_run (guest_ok hrun) (createfileMatch env ctx)

end FileDeleted

/-- Both monitors pass the path that is meant exactly if the name of the object shows, nothing of
the image shows behind it, and `\??\` is only where the path begins. -/
theorem passed_path_iff (env : MonEnv) (ctx : MonContext) (s : MonState) {i : PathInputs}
    (hfits : i.Fits) :
    (∀ kept s', FileCreated.inputs ctx s.context = .ok ((kept, i), s') →
      ((∃ path, FileCreated.Passes ctx s path ∧ i.Correct path.str) ↔ i.Kept)) ∧
    (∀ s', FileDeleted.inputs ctx s.context = .ok (some i, s') →
      ((∃ path, FileDeleted.Passes env ctx s path ∧ i.Correct path.str) ↔ i.Kept)) := by
  constructor
  · intro kept s' hinputs
    rw [FileCreated.passes_iff hinputs hfits, PathInputs.correct_iff]
  · intro s' hinputs
    rw [FileDeleted.passes_iff hinputs hfits, PathInputs.correct_iff]

/-- The process of `C:\a\b.exe` creates a file with a name below a root directory, to be deleted
when it is closed. -/
def relativeName (name : CStr) : MonContext where
  regs :=
    { rax := 0, rcx := 0, rdx := 0xffffffff, r8 := 0x100, r9 := 0, rsp := 0x600, cr3 := 0
      fsBase := 0, gsBase := 0x400 }
  trap := ⟨0, cstr "NtCreateFile", none, none, 0, false, none⟩
  hdlr :=
    { (Vm.start fun _ => 0x90 : Vm MonCb Extra).hdlr with
      offsets := fun
        | .objectAttributesObjectName | .unicodeStringBuffer => 8
        | _ => 0 }
  calls :=
    { read := fun _ addr =>
        [(0x100, 1), (0x108, 0x200), (0x200, (2 * name.length).toUInt64), (0x208, 0x300),
          (0x400, 0x410), (0x410, 0x420), (0x420, 0x430), (0x430, 0x440), (0x440, 20),
          (0x448, 0x500), (0x648, 0xffffffff)].lookup addr
      readBytes := fun _ addr _ =>
        (if addr = 0x300 then name else cstr "C:\\a\\b.exe").flatMap fun c => [c, 0]
      convertStrEncoding := fun contents => some (contents.filter (· ≠ 0))
      gettimeofday := fun _ => (0, 0)
      fopen := fun _ => false
      indeterminate := fun _ => 0 }

def relativeInputs (name : CStr) : PathInputs := ⟨.text (some (cstr "C:\\a\\b.exe")), some name⟩

def unfiltered : MonState := ⟨⟨0, 0⟩, fun _ => none, []⟩

def quietEnv (name : CStr) : MonEnv := ⟨0, ⟨0, none⟩, (relativeName name).calls⟩

theorem passed_path_iff_notes :
    ((∃ path, FileCreated.Passes (relativeName (cstr "notes.txt")) unfiltered path ∧
        (relativeInputs (cstr "notes.txt")).Correct path.str) ↔
      (relativeInputs (cstr "notes.txt")).Kept) ∧
    ((∃ path, FileDeleted.Passes (quietEnv []) (relativeName (cstr "notes.txt")) unfiltered path ∧
        (relativeInputs (cstr "notes.txt")).Correct path.str) ↔
      (relativeInputs (cstr "notes.txt")).Kept) :=
  have hfits : (relativeInputs (cstr "notes.txt")).Fits := ⟨by decide, by decide⟩
  ⟨(passed_path_iff (quietEnv []) _ unfiltered hfits).1 (0, 0) ⟨13, 0⟩ rfl,
    (passed_path_iff (quietEnv []) _ unfiltered hfits).2 ⟨14, 0⟩ rfl⟩

/-- The end of the file name of the image shows behind a short name. -/
theorem image_behind_name :
    FileCreated.inputs (relativeName (cstr "x")) ⟨0, 0⟩ =
        .ok (((0, 0), relativeInputs (cstr "x")), ⟨13, 0⟩) ∧
      (relativeInputs (cstr "x")).Fits ∧
      (relativeInputs (cstr "x")).expected = cstr "C:\\a\\x" ∧
      ∃ path, FileCreated.Passes (relativeName (cstr "x")) unfiltered path ∧
        path.str = cstr "C:\\a\\x.exe" ∧ ¬(relativeInputs (cstr "x")).Correct path.str := by
  have hrun : FileCreated.createfilePath (relativeName (cstr "x")) ⟨0, 0⟩ =
      .ok (((0, 0), ⟨cstr "C:\\a\\x.exe", by decide, by decide⟩, 6), ⟨13, 0⟩) := by rfl
  have hwrong : cstr "C:\\a\\x.exe" ≠ (relativeInputs (cstr "x")).expected := by decide
  refine ⟨rfl, ⟨by decide, by decide⟩, by decide, _, ⟨_, _, _, hrun, ?_⟩, rfl, fun h => hwrong h.1⟩
  rw [FileCreated.createfileCb_eq]
  exact bind_run (guest_ok hrun) FileCreated.createfileMatch

end Hfm

import Hfm.HandleTable
import Hfm.Monitors.PassedPath

/-!
# What divides in a callback

`VMI_PS_4KB` is divided by the size of an entry of a handle table, and the index of a handle by
the quotient. Nothing else in the callbacks divides by what is not a constant.
-/

namespace Hfm

open Support

/-! ### Texts and filters -/

lemma sprintf_ne {n : Nat} (str : CStr) : CharArray.sprintf n str ≠ .error .divisionByZero := by
  unfold CharArray.sprintf
  split <;> exact fun h => by cases h

lemma strncpy_ne {n : Nat} (src : CharArray n) (len : Nat) :
    src.strncpy len ≠ .error .divisionByZero := by
  unfold CharArray.strncpy
  split <;> exact fun h => by cases h

lemma bufferStrncpy_ne (buffer : Buffer) (off : Nat) (src : List UInt8) (n : Nat) :
    buffer.strncpy off src n ≠ .error .divisionByZero := by
  unfold Buffer.strncpy
  dsimp only
  split <;> exact fun h => by cases h

lemma bufferString_ne (buffer : Buffer) : buffer.string ≠ .error .divisionByZero := by
  unfold Buffer.string
  dsimp only
  split <;> exact fun h => by cases h

lemma translateLoop_ne (str : CStr) (st : TranslateState) :
    translateLoop str st ≠ .error .divisionByZero := by
  have hmark (st : TranslateState) : st.markOffset ≠ .error .divisionByZero := by
    unfold TranslateState.markOffset
    split <;> exact fun h => by cases h
  have hput (st : TranslateState) (ch : UInt8) : st.putChar ch ≠ .error .divisionByZero := by
    unfold TranslateState.putChar
    split <;> exact fun h => by cases h
  induction str generalizing st with
  | nil => exact fun h => by cases h
  | cons ch rest ih =>
    unfold translateLoop
    split
    · exact fun h => by cases h
    · split
      · split
        · exact fun h => by cases h
        · exact ih _
      · split
        · exact bind_ne_error (hmark _) fun st => bind_ne_error (hput _ _) fun st => ih _
        · exact bind_ne_error (hput _ _) fun st => ih _

lemma fnTranslate_ne (str : CStr) (isPattern : Bool) :
    fnTranslate str isPattern ≠ .error .divisionByZero := by
  unfold fnTranslate
  refine bind_ne_error (translateLoop_ne _ _) fun st => ?_
  cases st with
  | none => exact fun h => by cases h
  | some st =>
    dsimp only
    split <;> exact fun h => by cases h

lemma matchNodes_ne (fuel : Nat) (pattern exp : Nodelist) :
    matchNodes fuel pattern exp ≠ .error .divisionByZero := by
  induction fuel generalizing pattern exp with
  | zero => exact fun h => by cases h
  | succ fuel ih =>
    unfold matchNodes
    split
    · exact fun h => by cases h
    · split
      · exact fun h => by cases h
      · split
        · exact fun h => by cases h
        · split
          · split
            · rename_i e hrun
              exact fun h => ih _ _ (hrun.trans (congrArg _ (Except.error.inj h)))
            · exact fun h => by cases h
            · exact ih _ _
          · split
            · exact fun h => by cases h
            · exact ih _ _

lemma matchPatterns_ne (ids : Vector Int MAX_PATTERNS) (nodes : Nodelist) (i : Nat)
    (patterns : List Nodelist) : matchPatterns ids nodes i patterns ≠ .error .divisionByZero := by
  induction patterns generalizing nodes i with
  | nil => exact fun h => by cases h
  | cons pattern patterns ih =>
    unfold matchPatterns
    refine bind_ne_error ?_ fun r => ?_
    · exact bind_ne_error (matchNodes_ne _ _ _) fun r => fun h => by cases h
    · dsimp only
      split
      · split <;> exact fun h => by cases h
      · exact bind_ne_error (ih _ _) fun r => fun h => by cases h

lemma filterMatch_ne (filter : Filter) (filepath : CStr) :
    filterMatch filter filepath ≠ .error .divisionByZero := by
  unfold filterMatch
  refine bind_ne_error (fnTranslate_ne _ _) fun nodes => ?_
  cases nodes with
  | none => exact fun h => by cases h
  | some nodes =>
    dsimp only
    split
    · rename_i fault hrun
      exact fun h => matchPatterns_ne _ _ _ _ (hrun.trans (congrArg _ (Except.error.inj h)))
    · exact fun h => by cases h

/-! ### Reads of the guest -/

abbrev Divides {σ α : Type} (x : StateT σ (Except Fault) α) (s : σ) : Prop :=
  x s = .error .divisionByZero

abbrev NeverDivides {σ α : Type} (x : StateT σ (Except Fault) α) : Prop :=
  Avoids Fault.divisionByZero x

section Reads

variable {κ ε : Type} (ctx : Context κ ε)

lemma ask_avoids {α : Type} (answer : Nat → α) : NeverDivides (ask answer) :=
  fun _ h => by cases h

lemma hfmReadAddr_avoids (addr : UInt64) : NeverDivides (hfmReadAddr ctx addr) :=
  fun _ h => by cases h

lemma hfmRead32_avoids (addr : UInt64) : NeverDivides (hfmRead32 ctx addr) := fun _ h => by cases h

lemma hfmRead16_avoids (addr : UInt64) : NeverDivides (hfmRead16 ctx addr) := fun _ h => by cases h

lemma hfmRead8_avoids (addr : UInt64) : NeverDivides (hfmRead8 ctx addr) := fun _ h => by cases h

lemma hfmRead_avoids (addr : UInt64) (count : Nat) : NeverDivides (hfmRead ctx addr count) :=
  fun _ h => by cases h

lemma hfmReadUnicode_avoids (addr : UInt64) (buffer : Buffer) (off : Nat) :
    NeverDivides (hfmReadUnicode ctx addr buffer off) := by
  unfold hfmReadUnicode
  refine Avoids.bind (hfmRead16_avoids ctx _) fun length => ?_
  refine Avoids.ite (fun _ => Avoids.pure _) fun _ => ?_
  refine Avoids.bind (hfmReadAddr_avoids ctx _) fun bufferAddr => ?_
  refine Avoids.ite (fun _ => Avoids.pure _) fun _ => ?_
  refine Avoids.bind (hfmRead_avoids ctx _ _) fun contents => ?_
  refine Avoids.ite (fun _ => Avoids.pure _) fun _ => ?_
  cases ctx.calls.convertStrEncoding contents with
  | none => exact Avoids.pure _
  | some str2 =>
    exact Avoids.bind (Avoids.lift (bufferStrncpy_ne _ _ _ _)) fun _ => Avoids.pure _

lemma hfmReadFilenameFromObject_avoids (fileObject : UInt64) :
    NeverDivides (hfmReadFilenameFromObject ctx fileObject) := by
  have hlabel (drivename : CharArray STR_BUFF) :
      driveLabel ctx drivename ≠ .error .divisionByZero := by
    unfold driveLabel
    cases ctx.hdlr.drives.find? fun drive => drivename.str = drive.winName with
    | none => exact fun h => by cases h
    | some drive => exact sprintf_ne _
  unfold hfmReadFilenameFromObject
  refine Avoids.bind (hfmReadAddr_avoids ctx _) fun deviceObject => ?_
  refine Avoids.bind (hfmReadUnicode_avoids ctx _ _ _) fun ⟨_, buffer⟩ => ?_
  refine Avoids.bind (Avoids.lift (bufferString_ne buffer)) fun device => ?_
  refine Avoids.bind (Avoids.lift (hlabel device)) fun drivename => ?_
  refine Avoids.bind (hfmReadUnicode_avoids ctx _ _ _) fun ⟨filepathLen, buffer⟩ => ?_
  exact Avoids.bind (Avoids.lift (bufferString_ne buffer)) fun filepath => Avoids.pure _

lemma extractCaFile_avoids (controlArea : UInt64) : NeverDivides (extractCaFile ctx controlArea) := by
  unfold extractCaFile
  refine Avoids.bind (hfmReadAddr_avoids ctx _) fun segment => ?_
  refine Avoids.bind (hfmReadAddr_avoids ctx _) fun test => ?_
  refine Avoids.ite (fun _ => Avoids.pure _) fun _ => ?_
  refine Avoids.bind (hfmReadAddr_avoids ctx _) fun test => ?_
  refine Avoids.bind (hfmRead32_avoids ctx _) fun test2 => ?_
  refine Avoids.ite (fun _ => Avoids.pure _) fun _ => ?_
  refine Avoids.bind (ask_avoids _) fun created => ?_
  exact Avoids.ite (fun _ => Avoids.bind (ask_avoids _) fun _ => Avoids.pure _)
    fun _ => Avoids.pure _

lemma hfmExtractFile_avoids (object : UInt64) : NeverDivides (hfmExtractFile ctx object) := by
  have hextracted (section' : UInt64) (skip : Bool) : NeverDivides
      (if skip = true then pure 0
      else do return if (← extractCaFile ctx section') = 0 then 1 else 0 : ContextM Nat) :=
    Avoids.ite (fun _ => Avoids.pure _) fun _ =>
      Avoids.bind (extractCaFile_avoids ctx _) fun _ => Avoids.pure _
  unfold hfmExtractFile
  refine Avoids.bind (hfmReadAddr_avoids ctx _) fun sop => ?_
  refine Avoids.bind (hfmReadAddr_avoids ctx _) fun datasection => ?_
  refine Avoids.bind (hextracted _ _) fun data => ?_
  refine Avoids.bind (hfmReadAddr_avoids ctx _) fun sharedcachemap => ?_
  refine Avoids.bind (hfmReadAddr_avoids ctx _) fun imagesection => ?_
  exact Avoids.bind (hextracted _ _) fun image => Avoids.pure _

lemma hfmExtractSid_avoids {n : Nat} (sidAddr : UInt64) (sid : CharArray n) :
    NeverDivides (hfmExtractSid ctx sidAddr sid) := by
  unfold hfmExtractSid
  refine Avoids.bind (hfmRead8_avoids ctx _) fun firstByte => ?_
  refine Avoids.ite (fun _ => Avoids.pure _) fun _ => ?_
  refine Avoids.bind (Avoids.mapM (fun i => hfmRead8_avoids ctx _) _) fun bytes => ?_
  refine Avoids.bind (hfmRead8_avoids ctx _) fun subAuthNo => ?_
  refine Avoids.bind (Avoids.mapM (fun i => hfmRead32_avoids ctx _) _) fun subAuths => ?_
  refine Avoids.bind (Avoids.lift (sprintf_ne _)) fun written => ?_
  exact Avoids.lift (sprintf_ne _)

lemma hfmGetProcessSid_avoids (processAddr : UInt64) :
    NeverDivides (hfmGetProcessSid ctx processAddr) := by
  unfold hfmGetProcessSid
  refine Avoids.bind (hfmReadAddr_avoids ctx _) fun fastRef => ?_
  refine Avoids.bind (hfmReadAddr_avoids ctx _) fun usrGroupAddr => ?_
  refine Avoids.bind (hfmReadAddr_avoids ctx _) fun sidAddr => ?_
  exact hfmExtractSid_avoids ctx _ _

lemma hfmGetProcessPid_avoids (processAddr : UInt64) :
    NeverDivides (hfmGetProcessPid ctx processAddr) := by
  unfold hfmGetProcessPid
  refine Avoids.bind (fun _ h => by cases h) fun _ => ?_
  refine Avoids.bind (fun _ h => by cases h) fun s => ?_
  refine Avoids.bind (ask_avoids _) fun pid => ?_
  cases pid with
  | none => exact Avoids.pure _
  | some pid => exact Avoids.pure _

end Reads

/-! ### The lookup of a handle -/

section Lookup

variable {κ ε : Type}

/-- The number of entries of a table, by which the index of a handle is divided, is not zero. -/
def EntriesFit (hdlr : Vmhdlr κ ε) : Prop :=
  0 < hdlr.sizes .handleTableEntry ∧ hdlr.sizes .handleTableEntry ≤ VMI_PS_4KB

lemma lowestCount_eq_zero (entry : UInt64) :
    (VMI_PS_4KB / entry).toUInt32.toUInt64 = 0 ↔ entry = 0 ∨ VMI_PS_4KB < entry := by
  have hcount : (VMI_PS_4KB / entry).toUInt32.toUInt64.toNat = 0x1000 / entry.toNat := by
    rw [UInt32.toNat_toUInt64, toNat_lowestCount]
  rw [← UInt64.toNat_inj, hcount, ← UInt64.toNat_inj, UInt64.lt_iff_toNat_lt, UInt64.toNat_zero]
  exact Nat.div_eq_zero_iff

lemma divide_eq (a : UInt64) {b : UInt64} (h : b ≠ 0) : divide a b = pure (a / b, a % b) :=
  if_neg h

/-- The two divisions in front of the tables of a lookup. -/
lemma divides_counts {α : Type} (ctx : Context κ ε) (idx : UInt64) (s : ContextState)
    {f : UInt64 × UInt64 → ContextM α} (hf : ∀ digits, NeverDivides (f digits)) :
    Divides (do
      let lowestCount := (← divide VMI_PS_4KB (ctx.hdlr.sizes .handleTableEntry)).1.toUInt32.toUInt64
      f (← divide idx lowestCount)) s ↔ ¬EntriesFit ctx.hdlr := by
  unfold EntriesFit
  generalize ctx.hdlr.sizes .handleTableEntry = entry
  by_cases hentry : entry = 0
  · rw [hentry]
    exact iff_of_true rfl fun h => UInt64.lt_irrefl 0 h.1
  · rw [divide_eq _ hentry, pure_bind]
    by_cases hcount : (VMI_PS_4KB / entry).toUInt32.toUInt64 = 0
    · have hlt := ((lowestCount_eq_zero entry).mp hcount).resolve_left hentry
      refine iff_of_true ?_ fun h => absurd hlt (UInt64.not_lt.mpr h.2)
      dsimp only
      rw [hcount]
      rfl
    · have hle : ¬VMI_PS_4KB < entry := fun h => hcount ((lowestCount_eq_zero entry).mpr (.inr h))
      have hpos : 0 < entry := UInt64.pos_iff_ne_zero.mpr hentry
      refine iff_of_false ?_ (not_not_intro ⟨hpos, UInt64.not_lt.mp hle⟩)
      dsimp only
      rw [divide_eq _ hcount, pure_bind]
      exact hf _ s

/-- Where the table is of level 1 or 2, its number of entries divides. -/
def SplitsIndex (tablecode : UInt64) : Prop :=
  (tablecode &&& EX_FAST_REF_MASK).toNat = 1 ∨ (tablecode &&& EX_FAST_REF_MASK).toNat = 2

lemma handleTableEntry_divides (ctx : Context κ ε) (tablecode idx : UInt64) (s : ContextState) :
    Divides (handleTableEntry ctx tablecode idx) s ↔
      SplitsIndex tablecode ∧ ¬EntriesFit ctx.hdlr := by
  have hmid : VMI_PS_4KB / (if ctx.hdlr.pm = .ia32e then 8 else 4) ≠ 0 := by
    split <;> decide
  unfold handleTableEntry SplitsIndex
  generalize (tablecode &&& EX_FAST_REF_MASK).toNat = levels
  match levels with
  | 0 => exact iff_of_false (hfmReadAddr_avoids ctx _ s) (by simp)
  | 1 =>
    rw [and_iff_right (.inl rfl)]
    refine divides_counts ctx idx s fun ⟨j, i⟩ => ?_
    refine Avoids.bind (hfmReadAddr_avoids ctx _) fun table => ?_
    exact Avoids.ite (fun _ => Avoids.pure _) fun _ => hfmReadAddr_avoids ctx _
  | 2 =>
    rw [and_iff_right (.inr rfl)]
    refine divides_counts ctx idx s fun ⟨j, i⟩ => ?_
    dsimp only
    rw [divide_eq _ hmid, pure_bind]
    refine Avoids.bind (hfmReadAddr_avoids ctx _) fun table => ?_
    refine Avoids.ite (fun _ => Avoids.pure _) fun _ => ?_
    refine Avoids.bind (hfmReadAddr_avoids ctx _) fun table2 => ?_
    exact Avoids.ite (fun _ => Avoids.pure _) fun _ => hfmReadAddr_avoids ctx _
  | levels + 3 => exact iff_of_false (Avoids.pure _ s) (by simp)

/-- Where the pointer to the thread that runs is. -/
def currentThreadAddr (ctx : Context κ ε) : UInt64 :=
  let (kpcr, prcb) :=
    if ctx.hdlr.pm = .ia32e then (ctx.regs.gsBase, ctx.hdlr.offsets .kpcrPrcb)
    else (ctx.regs.fsBase, ctx.hdlr.offsets .kpcrPrcbData)
  kpcr + prcb + ctx.hdlr.offsets .kprcbCurrentThread

/-- Where the pointer to the process of a thread is. -/
def threadProcessAddr (ctx : Context κ ε) (thread : UInt64) : UInt64 :=
  let offsets := ctx.hdlr.offsets
  if ctx.hdlr.winver = .windowsXp then thread + offsets .kthreadApcState + offsets .kapcStateProcess
  else thread + offsets .kthreadProcess

/-- The process of the thread that runs. -/
def Memory.currentProcess (mem : Memory) (ctx : Context κ ε) : UInt64 :=
  let thread := mem.value (currentThreadAddr ctx)
  if thread = 0 then 0 else mem.value (threadProcessAddr ctx thread)

/-- The code of the handle table of that process; none where the table is not found. -/
def Memory.tablecode (mem : Memory) (ctx : Context κ ε) : Option UInt64 :=
  let offsets := ctx.hdlr.offsets
  let process := mem.currentProcess ctx
  let handletable := mem.value (process + offsets .eprocessObjectTable)
  let tablecode := mem.value (handletable + offsets .handleTableTableCode)
  let handlecount := (mem.value (handletable + offsets .handleTableHandleCount)).toUInt32
  if process = 0 then none
  else if handletable = 0 then none
  else if tablecode = 0 then none
  else if handlecount = 0 then none
  else some tablecode

lemma hfmGetCurrentProcess_eq (ctx : Context κ ε) :
    hfmGetCurrentProcess ctx = (do
      let thread ← hfmReadAddr ctx (currentThreadAddr ctx)
      if thread = 0 then return 0
      else hfmReadAddr ctx (threadProcessAddr ctx thread) : ContextM UInt64) := by
  apply bind_congr
  intro thread
  unfold threadProcessAddr
  split
  · rfl
  · split
    · rfl
    · rfl

lemma hfmGetCurrentProcess_withMem (ctx : Context κ ε) (mem : Memory) :
    Returns (hfmGetCurrentProcess (ctx.withMem mem)) (mem.currentProcess ctx) := by
  rw [hfmGetCurrentProcess_eq]
  unfold Memory.currentProcess
  refine Returns.bind (fun s => ⟨_, hfmReadAddr_withMem ctx mem _ s⟩) ?_
  refine Returns.ite (fun _ => Returns.pure _) fun _ => ?_
  exact fun s => ⟨_, hfmReadAddr_withMem ctx mem _ s⟩

lemma foundTablecode_withMem (ctx : Context κ ε) (mem : Memory) :
    Returns (foundTablecode (ctx.withMem mem)) (mem.tablecode ctx) := by
  unfold foundTablecode Memory.tablecode
  refine Returns.bind (hfmGetCurrentProcess_withMem ctx mem) ?_
  refine Returns.ite (fun _ => Returns.pure _) fun _ => ?_
  refine Returns.bind (fun s => ⟨_, hfmReadAddr_withMem ctx mem _ s⟩) ?_
  refine Returns.ite (fun _ => Returns.pure _) fun _ => ?_
  refine Returns.bind (fun s => ⟨_, hfmReadAddr_withMem ctx mem _ s⟩) ?_
  refine Returns.ite (fun _ => Returns.pure _) fun _ => ?_
  refine Returns.bind (fun s => ⟨_, hfmRead32_withMem ctx mem _ s⟩) ?_
  exact Returns.ite (fun _ => Returns.pure _) fun _ => Returns.pure _

/-- A lookup in memory `mem` divides by zero. -/
def LookupDivides (mem : Memory) (ctx : Context κ ε) : Prop :=
  ¬EntriesFit ctx.hdlr ∧ ∃ tablecode, mem.tablecode ctx = some tablecode ∧ SplitsIndex tablecode

lemma hfmFileobjFromHandle_divides (ctx : Context κ ε) (mem : Memory) (handle : UInt64)
    (s : ContextState) :
    Divides (hfmFileobjFromHandle (ctx.withMem mem) handle) s ↔ LookupDivides mem ctx := by
  obtain ⟨s', hfound⟩ := foundTablecode_withMem ctx mem s
  unfold Divides LookupDivides
  rw [hfmFileobjFromHandle_eq, bind_run hfound]
  cases mem.tablecode ctx with
  | none => exact iff_of_false (fun h => by cases h) fun h => by obtain ⟨-, _, h, -⟩ := h; cases h
  | some tablecode =>
    dsimp only
    rw [Avoids.bind_eq_error fun _ => Avoids.pure _]
    refine (handleTableEntry_divides (ctx.withMem mem) tablecode _ s').trans ?_
    constructor
    · exact fun ⟨hsplits, hfit⟩ => ⟨hfit, tablecode, rfl, hsplits⟩
    · rintro ⟨hfit, _, hsome, hsplits⟩
      cases hsome
      exact ⟨hsplits, hfit⟩

lemma readFilename_divides (ctx : MonContext) (mem : Memory) (handle : UInt64) (s : ContextState) :
    Divides (readFilename (ctx.withMem mem) handle) s ↔ LookupDivides mem ctx := by
  have hname (fileObject : UInt64) : NeverDivides (do
      return (fileObject, ← hfmReadFilenameFromObject (ctx.withMem mem) fileObject) :
        ContextM (UInt64 × Nat × CharArray STR_BUFF)) :=
    Avoids.bind (hfmReadFilenameFromObject_avoids _ _) fun _ => Avoids.pure _
  refine (Avoids.bind_eq_error hname s).trans ?_
  exact hfmFileobjFromHandle_divides ctx mem handle s

end Lookup

/-! ### The callbacks -/

section Callbacks

variable (env : MonEnv) (ctx : MonContext)

lemma hfmGetCurrentProcess_avoids : NeverDivides (hfmGetCurrentProcess ctx) :=
  hfmGetCurrentProcess_total.avoids _

lemma filterMatchOf_avoids (plugin : Plugin) (path : CStr) :
    NeverDivides (filterMatchOf plugin path) := by
  intro s h
  unfold filterMatchOf at h
  cases hfilter : s.filters plugin with
  | none =>
    rw [hfilter] at h
    cases h
  | some filter =>
    rw [hfilter] at h
    exact bind_ne_error (filterMatch_ne filter path) (fun r h => by cases h) h

lemma extractPath_avoids (call : SendCall) (timeSec timeUsec : UInt32) :
    NeverDivides (extractPath env ctx call timeSec timeUsec) := by
  unfold extractPath
  refine Avoids.ite (fun _ => ?_) fun _ => Avoids.pure _
  cases ctx.hdlr.policies.bind fun policies => policies.lookup call.policyId with
  | none => exact Avoids.throw (by decide)
  | some policy =>
    refine Avoids.ite (fun _ => Avoids.pure _) fun _ => ?_
    refine Avoids.bind (Avoids.lift (sprintf_ne _)) fun extpath => ?_
    exact Avoids.bind (hfmExtractFile_avoids ctx _) fun extracted => Avoids.pure _

lemma sendOutput_avoids (call : SendCall) : NeverDivides (sendOutput env ctx call) := by
  unfold sendOutput
  refine Avoids.bind (hfmGetCurrentProcess_avoids ctx).zoom fun curProcess => ?_
  refine Avoids.bind (hfmGetProcessPid_avoids ctx _).zoom fun pid => ?_
  refine Avoids.bind (hfmGetProcessSid_avoids ctx _).zoom fun sid => ?_
  refine Avoids.bind (ask_avoids _).zoom fun ⟨timeSec, timeUsec⟩ => ?_
  refine Avoids.bind (extractPath_avoids env ctx _ _ _).zoom fun extpath => ?_
  exact fun _ h => by cases h

lemma send_avoids (call : SendCall) (extra : Option Extra) :
    NeverDivides (sendOutput env ctx call >>= fun _ => pure extra) :=
  Avoids.bind (sendOutput_avoids env ctx call) fun _ => Avoids.pure _

/-! ### Arguments -/

lemma writefileArgs_total : Total (FileModified.writefileArgs ctx) := by
  unfold FileModified.writefileArgs
  refine Total.ite ?_ ?_
  · refine Total.bind (fun _ => ⟨_, rfl⟩) fun ioStatusAddr => ?_
    exact Total.bind (stackArg_total ctx _ _) fun _ => Total.pure _
  · refine Total.bind (stackArg_total ctx _ _) fun handle => ?_
    refine Total.bind (stackArg_total ctx _ _) fun ioStatusAddr => ?_
    exact Total.bind (stackArg_total ctx _ _) fun _ => Total.pure _

lemma setsecurityArgs_total : Total (AccessChanged.setsecurityArgs ctx) := by
  unfold AccessChanged.setsecurityArgs
  refine Total.ite (Total.pure _) ?_
  refine Total.bind (stackArg_total ctx _ _) fun handle => ?_
  refine Total.bind (stackArg_total ctx _ _) fun securityInfo => ?_
  exact Total.bind (stackArg_total ctx _ _) fun securityDescAddr => Total.pure _

/-- `fileinfo_class` of a call of `NtSetInformationFile`. -/
def Memory.fileinfoClass (mem : Memory) (ctx : MonContext) : UInt32 :=
  (mem.value (ctx.regs.rsp + 5 * if ctx.hdlr.pm = .ia32e then 8 else 4)).toUInt32

lemma setinformationArgs_withMem (mem : Memory) : ∃ handle fileinfoAddr,
    Returns (setinformationArgs (ctx.withMem mem))
      (handle, fileinfoAddr, mem.fileinfoClass ctx) := by
  unfold setinformationArgs Memory.fileinfoClass
  have hpm : (ctx.withMem mem).hdlr.pm = ctx.hdlr.pm := rfl
  rw [hpm]
  by_cases h : ctx.hdlr.pm = .ia32e
  · refine ⟨ctx.regs.rcx, ctx.regs.r8, ?_⟩
    rw [if_pos h, if_pos h]
    exact Returns.bind (fun s => ⟨_, hfmRead32_withMem ctx mem _ s⟩) (Returns.pure _)
  · refine ⟨(mem.value (ctx.regs.rsp + 1 * 4)).toUInt32.toUInt64,
      (mem.value (ctx.regs.rsp + 3 * 4)).toUInt32.toUInt64, ?_⟩
    rw [if_neg h, if_neg h]
    refine Returns.bind (fun s => ⟨_, hfmRead32_withMem ctx mem _ s⟩) ?_
    refine Returns.bind (fun s => ⟨_, hfmRead32_withMem ctx mem _ s⟩) ?_
    exact Returns.bind (fun s => ⟨_, hfmRead32_withMem ctx mem _ s⟩) (Returns.pure _)

/-! ### Where a callback divides -/

lemma guest_readFilename_divides (mem : Memory) (handle : UInt64) (s : MonState) :
    Divides (guest (readFilename (ctx.withMem mem) handle)) s ↔ LookupDivides mem ctx :=
  zoom_eq_error.trans (readFilename_divides ctx mem handle s.context)

/-- The callback looks a handle up. -/
def LooksUp (mem : Memory) (ctx : MonContext) : MonCb → Prop
  | .fileDeleted .setinformationCb => mem.fileinfoClass ctx = FILE_DISPOSITION_INFORMATION
  | .attrChanged .setinformationCb => mem.fileinfoClass ctx = FILE_BASIC_INFORMATION
  | .fileModified .writefileCb | .accessChanged .setsecurityCb => True
  | _ => False

/-- What comes behind the lookup of a handle does not divide. -/
lemma lookup_divides {α : Type} (mem : Memory) (handle : UInt64)
    {f : UInt64 × Nat × CharArray STR_BUFF → MonM α}
    (hf : ¬LookupDivides mem ctx → ∀ r, NeverDivides (f r)) (s : MonState) :
    Divides (guest (readFilename (ctx.withMem mem) handle) >>= f) s ↔ LookupDivides mem ctx := by
  by_cases h : LookupDivides mem ctx
  · exact iff_of_true (bind_run_error ((guest_readFilename_divides ctx mem handle s).mpr h) f) h
  · exact (Avoids.bind_eq_error (hf h) s).trans (guest_readFilename_divides ctx mem handle s)

lemma FileDeleted.setinformationCb_divides (mem : Memory) (s : MonState) :
    Divides (FileDeleted.setinformationCb env (ctx.withMem mem)) s ↔
      mem.fileinfoClass ctx = FILE_DISPOSITION_INFORMATION ∧ LookupDivides mem ctx := by
  obtain ⟨handle, fileinfoAddr, hargs⟩ := setinformationArgs_withMem ctx mem
  refine Returns.bind_eq_error hargs.zoom (fun s => ?_) s
  dsimp only
  by_cases hclass : mem.fileinfoClass ctx = FILE_DISPOSITION_INFORMATION
  · rw [if_pos hclass, and_iff_right hclass]
    refine lookup_divides ctx mem handle (fun _ => ?_) s
    rintro ⟨fileObject, len, filename⟩
    refine Avoids.bind (filterMatchOf_avoids _ _) fun policyId => ?_
    refine Avoids.ite (fun _ => ?_) fun _ => Avoids.pure _
    refine Avoids.bind (hfmRead8_avoids _ _).zoom fun delete => ?_
    exact Avoids.ite (fun _ => send_avoids env _ _ _) fun _ => Avoids.pure _
  · rw [if_neg hclass]
    exact iff_of_false (Avoids.pure _ s) fun h => hclass h.1

lemma FileModified.writefileCb_divides (mem : Memory) (s : MonState) :
    Divides (FileModified.writefileCb (ctx.withMem mem)) s ↔ LookupDivides mem ctx := by
  refine Total.bind_eq_error (writefileArgs_total _).zoom ?_ s
  rintro ⟨handle, ioStatusAddr⟩ s
  refine lookup_divides ctx mem handle (fun _ => ?_) s
  rintro ⟨fileObject, len, filename⟩
  refine Avoids.ite (fun _ => Avoids.pure _) fun _ => ?_
  refine Avoids.bind (filterMatchOf_avoids _ _) fun policyId => ?_
  refine Avoids.ite (fun _ => ?_) fun _ => Avoids.pure _
  exact Avoids.bind (Avoids.lift (strncpy_ne _ _)) fun copied => Avoids.pure _

lemma AttrChanged.setinformationCb_divides (mem : Memory) (s : MonState) :
    Divides (AttrChanged.setinformationCb env (ctx.withMem mem)) s ↔
      mem.fileinfoClass ctx = FILE_BASIC_INFORMATION ∧ LookupDivides mem ctx := by
  obtain ⟨handle, fileinfoAddr, hargs⟩ := setinformationArgs_withMem ctx mem
  refine Returns.bind_eq_error hargs.zoom (fun s => ?_) s
  dsimp only
  by_cases hclass : mem.fileinfoClass ctx = FILE_BASIC_INFORMATION
  · rw [if_pos hclass, and_iff_right hclass]
    refine Total.bind_eq_error (Total.zoom fun _ => ⟨_, rfl⟩) (fun fileAttributes s => ?_) s
    refine lookup_divides ctx mem handle (fun h => ?_) s
    rintro ⟨_, _, filename⟩
    refine Avoids.bind (filterMatchOf_avoids _ _) fun _ => ?_
    refine Avoids.ite (fun _ => ?_) fun _ => Avoids.pure _
    -- the second lookup reads the same memory
    refine Avoids.bind (fun s hs => h ((guest_readFilename_divides ctx mem handle s).mp hs)) ?_
    rintro ⟨_, _, filename⟩
    refine Avoids.bind (filterMatchOf_avoids _ _) fun policyId => ?_
    exact Avoids.ite (fun _ => send_avoids env _ _ _) fun _ => Avoids.pure _
  · rw [if_neg hclass]
    exact iff_of_false (Avoids.pure _ s) fun h => hclass h.1

lemma AccessChanged.setSecurityInfoText_avoids (info : UInt32) (sdAddr : UInt64) :
    NeverDivides (AccessChanged.setSecurityInfoText ctx info sdAddr) := by
  have hsid (relative absolute : WinOffset) (detail : CharArray STR_BUFF) :
      NeverDivides (AccessChanged.sidText ctx sdAddr relative absolute detail) := by
    refine Avoids.bind (hfmRead16_avoids ctx _) fun control => ?_
    refine Avoids.ite (fun _ => ?_) fun _ => ?_
    · exact Avoids.bind (hfmRead32_avoids ctx _) fun _ => hfmExtractSid_avoids ctx _ _
    · exact Avoids.bind (hfmReadAddr_avoids ctx _) fun _ => hfmExtractSid_avoids ctx _ _
  refine Avoids.ite_bind (hsid _ _ _) (Avoids.pure _) fun owner => ?_
  refine Avoids.ite_bind (hsid _ _ _) (Avoids.pure _) fun group => ?_
  exact Avoids.lift (sprintf_ne _)

lemma AccessChanged.setsecurityCb_divides (mem : Memory) (s : MonState) :
    Divides (AccessChanged.setsecurityCb (ctx.withMem mem)) s ↔ LookupDivides mem ctx := by
  refine Total.bind_eq_error (setsecurityArgs_total _).zoom ?_ s
  rintro ⟨handle, securityInfo, securityDescAddr⟩ s
  refine lookup_divides ctx mem handle (fun _ => ?_) s
  rintro ⟨_, _, filename⟩
  refine Avoids.bind (filterMatchOf_avoids _ _) fun policyId => ?_
  refine Avoids.ite (fun _ => ?_) fun _ => Avoids.pure _
  exact Avoids.bind (AccessChanged.setSecurityInfoText_avoids _ _ _).zoom fun detail =>
    Avoids.pure _

lemma readProcessPath_avoids : NeverDivides (readProcessPath ctx) := by
  unfold readProcessPath
  refine Avoids.bind (hfmGetCurrentProcess_avoids ctx) fun process => ?_
  refine Avoids.ite (fun _ => Avoids.pure _) fun _ => ?_
  refine Avoids.bind (hfmReadAddr_avoids ctx _) fun peb => ?_
  refine Avoids.ite (fun _ => Avoids.pure _) fun _ => ?_
  refine Avoids.bind (hfmReadAddr_avoids ctx _) fun processParameters => ?_
  refine Avoids.ite (fun _ => Avoids.pure _) fun _ => ?_
  refine Avoids.bind (hfmReadUnicode_avoids ctx _ _ _) fun ⟨len, path⟩ => ?_
  refine Avoids.bind (Avoids.lift (bufferString_ne path)) fun str => ?_
  match strrchr str.str 0x5c with
  | some (pos + 1) =>
    exact Avoids.bind (Avoids.lift (bufferStrncpy_ne _ _ _ _)) fun _ => Avoids.pure _
  | some 0 => exact Avoids.pure _
  | none => exact Avoids.pure _

lemma readObjectPath_avoids (objattrAddr : UInt64) :
    NeverDivides (readObjectPath ctx objattrAddr) := by
  unfold readObjectPath
  refine Avoids.bind (hfmReadAddr_avoids ctx _) fun rootdirAddr => ?_
  refine Avoids.bind (hfmReadAddr_avoids ctx _) fun objectnameAddr => ?_
  refine Avoids.ite_bind (Avoids.pure _) (readProcessPath_avoids ctx) fun ⟨pathlen, filepath⟩ => ?_
  refine Avoids.bind (hfmReadUnicode_avoids ctx _ _ _) fun ⟨namelen, filepath⟩ => ?_
  exact Avoids.bind (Avoids.lift (bufferString_ne _)) fun _ => Avoids.pure _

lemma FileCreated.createfileCb_avoids : NeverDivides (FileCreated.createfileCb ctx) := by
  refine Avoids.bind ((createfileArgs_total ctx).avoids _).zoom ?_
  rintro ⟨objattrAddr, ioStatusAddr, createMode⟩
  refine Avoids.bind (readObjectPath_avoids ctx _).zoom fun ⟨start, len⟩ => ?_
  refine Avoids.bind (filterMatchOf_avoids _ _) fun policyId => ?_
  refine Avoids.ite (fun _ => ?_) fun _ => Avoids.pure _
  exact Avoids.bind (Avoids.lift (strncpy_ne _ _)) fun _ => Avoids.pure _

lemma FileCreated.createfileRetCb_avoids : NeverDivides (FileCreated.createfileRetCb env ctx) := by
  unfold FileCreated.createfileRetCb
  cases ctx.trap.extra with
  | none => exact Avoids.throw (by decide)
  | some extra =>
    cases extra with
    | create params =>
      refine Avoids.bind (hfmReadAddr_avoids ctx _).zoom fun information => ?_
      refine Avoids.bind (hfmRead32_avoids ctx _).zoom fun _ => ?_
      exact Avoids.ite (fun _ => send_avoids env ctx _ _) fun _ => Avoids.pure _
    | modify params => exact Avoids.throw (by decide)
    | access params => exact Avoids.throw (by decide)
    | indeterminate => exact Avoids.throw (by decide)

lemma FileCreated.setinformationCb_avoids : NeverDivides (FileCreated.setinformationCb ctx) := by
  have hcontents (fileinfo : UInt64 × UInt32) : NeverDivides
      (if fileinfo.2 = FILE_RENAME_INFORMATION then do
        let offsets := ctx.hdlr.offsets
        let length ← hfmRead32 ctx (fileinfo.1 + offsets .fileRenameInformationFileNameLength)
        if 0 < length then
          let _contents ← hfmRead ctx (fileinfo.1 + offsets .fileRenameInformationFileName)
            length.toNat
          return ()
        else return ()
      else return () : ContextM Unit) := by
    refine Avoids.ite (fun _ => ?_) fun _ => Avoids.pure _
    refine Avoids.bind (hfmRead32_avoids ctx _) fun length => ?_
    refine Avoids.ite (fun _ => ?_) fun _ => Avoids.pure _
    exact Avoids.bind (hfmRead_avoids ctx _ _) fun _ => Avoids.pure _
  refine Avoids.bind (Avoids.zoom ?_) fun _ => ?_
  · unfold FileCreated.readRename
    refine Avoids.ite (fun _ => ?_) fun _ => ?_
    · exact Avoids.bind ((stackArg_total ctx _ _).avoids _) fun _ => hcontents _
    · refine Avoids.bind ((stackArg_total ctx _ _).avoids _) fun _ => ?_
      refine Avoids.bind ((stackArg_total ctx _ _).avoids _) fun _ => ?_
      exact Avoids.bind ((stackArg_total ctx _ _).avoids _) fun _ => hcontents _
  · exact Avoids.bind (ask_avoids _).zoom fun _ => Avoids.pure _

lemma FileDeleted.createfileCb_avoids : NeverDivides (FileDeleted.createfileCb env ctx) := by
  refine Avoids.bind ((createfileArgs_total ctx).avoids _).zoom fun ⟨objattrAddr, _, _⟩ => ?_
  refine Avoids.bind ((FileDeleted.accessArgs_total ctx).avoids _).zoom fun ⟨desiredAccess, createOptions⟩ => ?_
  refine Avoids.ite (fun _ => ?_) fun _ => Avoids.pure _
  refine Avoids.bind (readObjectPath_avoids ctx _).zoom fun ⟨start, _⟩ => ?_
  refine Avoids.bind (filterMatchOf_avoids _ _) fun policyId => ?_
  exact Avoids.ite (fun _ => send_avoids env ctx _ _) fun _ => Avoids.pure _

lemma FileModified.writefileRetCb_avoids : NeverDivides (FileModified.writefileRetCb env ctx) := by
  unfold FileModified.writefileRetCb
  cases ctx.trap.extra with
  | none => exact Avoids.throw (by decide)
  | some extra =>
    cases extra with
    | modify params =>
      refine Avoids.bind (hfmReadAddr_avoids ctx _).zoom fun _ => ?_
      exact Avoids.ite (fun _ => send_avoids env ctx _ _) fun _ => Avoids.pure _
    | create params => exact Avoids.throw (by decide)
    | access params => exact Avoids.throw (by decide)
    | indeterminate => exact Avoids.throw (by decide)

lemma AccessChanged.setsecurityRetCb_avoids :
    NeverDivides (AccessChanged.setsecurityRetCb env ctx) := by
  unfold AccessChanged.setsecurityRetCb
  cases ctx.trap.extra with
  | none => exact Avoids.throw (by decide)
  | some extra =>
    cases extra with
    | access params => exact Avoids.ite (fun _ => send_avoids env ctx _ _) fun _ => Avoids.pure _
    | create params => exact Avoids.throw (by decide)
    | modify params => exact Avoids.throw (by decide)
    | indeterminate => exact Avoids.throw (by decide)

/-- A callback divides by zero where it looks a handle up that has to be divided. -/
theorem callback_divides (mem : Memory) (cb : MonCb) (s : MonState) :
    Divides (callback env (ctx.withMem mem) cb) s ↔ LooksUp mem ctx cb ∧ LookupDivides mem ctx := by
  have hnever {x : MonM (Option Extra)} (hx : NeverDivides x) :
      Divides x s ↔ False ∧ LookupDivides mem ctx := iff_of_false (hx s) fun h => h.1
  have halways {x : MonM (Option Extra)} (hx : Divides x s ↔ LookupDivides mem ctx) :
      Divides x s ↔ True ∧ LookupDivides mem ctx := hx.trans (and_iff_right trivial).symm
  cases cb with
  | fileCreated cb =>
    cases cb with
    | createfileCb => exact hnever (FileCreated.createfileCb_avoids _)
    | createfileRetCb => exact hnever (FileCreated.createfileRetCb_avoids env _)
    | setinformationCb => exact hnever (FileCreated.setinformationCb_avoids _)
    | setinformationRetCb => exact hnever (Avoids.pure _)
  | fileDeleted cb =>
    cases cb with
    | setinformationCb => exact FileDeleted.setinformationCb_divides env ctx mem s
    | setinformationRetCb => exact hnever (Avoids.pure _)
    | createfileCb => exact hnever (FileDeleted.createfileCb_avoids env _)
  | fileModified cb =>
    cases cb with
    | writefileCb => exact halways (FileModified.writefileCb_divides ctx mem s)
    | writefileRetCb => exact hnever (FileModified.writefileRetCb_avoids env _)
  | attrChanged cb =>
    cases cb with
    | setinformationCb => exact AttrChanged.setinformationCb_divides env ctx mem s
    | setinformationRetCb => exact hnever (Avoids.pure _)
  | accessChanged cb =>
    cases cb with
    | setsecurityCb => exact halways (AccessChanged.setsecurityCb_divides ctx mem s)
    | setsecurityRetCb => exact hnever (AccessChanged.setsecurityRetCb_avoids env _)

end Callbacks

end Hfm

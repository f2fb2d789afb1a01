import Hfm.Basic
import Hfm.Support.Triple
import Mathlib.Logic.Function.Basic

/-!
# The log

`src/log.c`: a table of entries, the first for the program itself and one for each VM. The time in
front of a line is left out.
-/

namespace Hfm

open Support

/-- `level_t`. -/
inductive Level where
  | fatal
  | error
  | warn
  | info
  | debug
  deriving DecidableEq, Repr

def Level.toNat : Level → Nat
  | .fatal => 0
  | .error => 1
  | .warn => 2
  | .info => 3
  | .debug => 4

/-- `logger_t`. -/
inductive LoggerType where
  | console
  | textfile
  deriving DecidableEq, Repr

/-- The `FILE` that the lines of an entry go to. -/
inductive LogFile where
  | stdout
  | file (path : CStr)
  deriving DecidableEq, Repr

/-- A line of the log. Only those on the console name the entry. -/
structure LogLine where
  fp : LogFile
  level : Level
  threadName : Option CStr
  message : CStr

/-- Who calls `writelog`: the program for itself, or for one of its VMs. -/
inductive LogCaller where
  | main
  | vm (name : CStr)
  deriving DecidableEq, Repr

structure LogCall where
  caller : LogCaller
  id : UInt32
  deriving DecidableEq

/-- The variables of `log.c`, the lines that were written and the calls of `writelog`. -/
structure Logger where
  logger : LoggerType
  logdir : CStr
  curLevel : Level
  fps : Nat → Option LogFile
  names : Nat → CStr
  entryCount : Nat
  lines : List LogLine
  calls : List LogCall

abbrev LogM := StateT Logger (Except Fault)

namespace Logger

/-- The size of `fps` and `names`. -/
def MAX : Nat := 20

def MAINLOG : CStr := cstr "hfm.log"
def MAINTHREAD : CStr := cstr "MAIN THREAD"

/-- A text that is printed to a `char [1024]`. -/
def printed (text : CStr) : Except Fault CStr :=
  if text.length < 1024 then .ok text else .error .outOfBounds

/-- `log_init`; `opens` tells whether `fopen` succeeds. -/
def logInit (level : Level) (logType : LoggerType) (logdir : CStr) (opens : Bool) :
    Except Fault Logger :=
  let l : Logger := ⟨logType, logdir, level, fun _ => none, fun _ => [], 1, [], []⟩
  match logType with
  | .console =>
    .ok { l with
      fps := Function.update l.fps 0 (some .stdout)
      names := Function.update l.names 0 MAINTHREAD }
  | .textfile => do
    let filepath ← printed (logdir ++ cstr "/" ++ MAINLOG)
    return { l with fps := Function.update l.fps 0 (if opens then some (.file filepath) else none) }

def called (c : LogCall) (l : Logger) : Logger := { l with calls := l.calls ++ [c] }

def wrote (line : LogLine) (l : Logger) : Logger := { l with lines := l.lines ++ [line] }

end Logger

/-- `writelog` with a formatted message. -/
def writelog (caller : LogCaller) (id : UInt32) (level : Level) (message : CStr) : LogM Unit := do
  modify (Logger.called ⟨caller, id⟩)
  let l ← get
  if l.curLevel.toNat < level.toNat then return ()
  else if id.toNat < Logger.MAX then
    -- an entry whose file is not open writes to the console
    let fp := (l.fps id.toNat).getD .stdout
    let threadName := if fp = .stdout then some (l.names id.toNat) else none
    modify (Logger.wrote ⟨fp, level, threadName, message⟩)
  else throw .outOfBounds

/-- `log_add_entry`. -/
def logAddEntry (name : CStr) (opens : Bool) : LogM Int32 := do
  let l ← get
  if Logger.MAX ≤ l.entryCount then do
    writelog .main 0 .warn (cstr "Number of log entry exceeds the maximum (20 entries)")
    return -1
  else do
    let entryName ← Logger.printed name
    let names := Function.update l.names l.entryCount entryName
    match l.logger with
    | .console =>
      let fps := Function.update l.fps l.entryCount (some .stdout)
      set { l with names, fps, entryCount := l.entryCount + 1 }
      return Int32.ofNat l.entryCount
    | .textfile =>
      let filepath ← Logger.printed (l.logdir ++ cstr "/" ++ name ++ cstr ".log")
      if opens then do
        let fps := Function.update l.fps l.entryCount (some (.file filepath))
        set { l with names, fps, entryCount := l.entryCount + 1 }
        return Int32.ofNat l.entryCount
      else do
        -- the entry keeps the name, and is given away again
        set { l with names, fps := Function.update l.fps l.entryCount none }
        return -1

/-! ### Entries -/

namespace Logger

/-- The file for the lines of a VM. -/
def fpOf (l : Logger) (name : CStr) : LogFile :=
  match l.logger with
  | .console => .stdout
  | .textfile => .file (l.logdir ++ cstr "/" ++ name ++ cstr ".log")

/-- The entry numbered `id` was set up by `log_init`, or by `log_add_entry` for the VM. -/
def Entry (l : Logger) : LogCaller → Nat → Prop
  | .main, id => id = 0 ∧ 0 < l.entryCount
  | .vm name, id => 0 < id ∧ id < l.entryCount ∧ l.names id = name ∧ l.fps id = some (l.fpOf name)

def Valid (l : Logger) (c : LogCall) : Prop := c.id.toNat < MAX ∧ l.Entry c.caller c.id.toNat

/-- Every id that `writelog` was called with is in range, and that of an entry of the caller. -/
def IdsValid (l : Logger) : Prop := ∀ c ∈ l.calls, l.Valid c

/-- The entries are the same. -/
structure SameTable (l l' : Logger) : Prop where
  logger : l'.logger = l.logger
  logdir : l'.logdir = l.logdir
  fps : l'.fps = l.fps
  names : l'.names = l.names
  entryCount : l'.entryCount = l.entryCount

lemma SameTable.refl (l : Logger) : l.SameTable l := ⟨rfl, rfl, rfl, rfl, rfl⟩

lemma SameTable.trans {l l' l'' : Logger} (h : l.SameTable l') (h' : l'.SameTable l'') :
    l.SameTable l'' :=
  ⟨h'.logger.trans h.logger, h'.logdir.trans h.logdir, h'.fps.trans h.fps, h'.names.trans h.names,
    h'.entryCount.trans h.entryCount⟩

lemma SameTable.valid_iff {l l' : Logger} (h : l.SameTable l') (c : LogCall) :
    l'.Valid c ↔ l.Valid c := by
  unfold Valid Entry fpOf
  rw [h.logger, h.logdir, h.fps, h.names, h.entryCount]

/-- What a VM needs for an entry of its own. -/
structure Available (l : Logger) (name : CStr) (opens : Bool) : Prop where
  count : l.entryCount < MAX
  fits : name.length < 1024
  file : l.logger = .textfile →
    (l.logdir ++ cstr "/" ++ name ++ cstr ".log").length < 1024 ∧ opens = true

/-- The log with an entry for the VM. -/
def added (l : Logger) (name : CStr) : Logger :=
  { l with
    names := Function.update l.names l.entryCount name
    fps := Function.update l.fps l.entryCount (some (l.fpOf name))
    entryCount := l.entryCount + 1 }

/-- Entries that are there stay. -/
lemma Valid.added {l : Logger} {c : LogCall} (h : l.Valid c) (name : CStr) :
    (l.added name).Valid c := by
  obtain ⟨caller, id⟩ := c
  obtain ⟨hid, hentry⟩ := h
  refine ⟨hid, ?_⟩
  cases caller with
  | main => exact ⟨hentry.1, Nat.succ_pos _⟩
  | vm vmName =>
    obtain ⟨hpos, hlt, hname, hfp⟩ := hentry
    refine ⟨hpos, Nat.lt_succ_of_lt hlt, ?_, ?_⟩
    · exact (Function.update_of_ne hlt.ne _ _).trans hname
    · exact (Function.update_of_ne hlt.ne _ _).trans hfp

lemma valid_main {l : Logger} (h : 0 < l.entryCount) : l.Valid ⟨.main, 0⟩ :=
  ⟨by decide, rfl, h⟩

lemma toNat_logid {n : Nat} (h : n < MAX) : (Int32.ofNat n).toUInt32.toNat = n := by
  have hlt : n < 2 ^ 32 := h.trans (by decide)
  change n % 2 ^ 32 = n
  exact Nat.mod_eq_of_lt hlt

lemma valid_added {l : Logger} {name : CStr} (hpos : 0 < l.entryCount) (hlt : l.entryCount < MAX) :
    (l.added name).Valid ⟨.vm name, (Int32.ofNat l.entryCount).toUInt32⟩ := by
  unfold Valid Entry
  dsimp only
  rw [toNat_logid hlt]
  exact ⟨hlt, hpos, Nat.lt_succ_self _, Function.update_self _ _ _, Function.update_self _ _ _⟩

end Logger

section

variable {l l' : Logger} {caller : LogCaller} {id : UInt32} {level : Level} {message : CStr}

lemma writelog_eq : writelog caller id level message l =
    (if l.curLevel.toNat < level.toNat then pure ()
      else if id.toNat < Logger.MAX then
        let fp := (l.fps id.toNat).getD .stdout
        let threadName := if fp = .stdout then some (l.names id.toNat) else none
        modify (Logger.wrote ⟨fp, level, threadName, message⟩)
      else throw .outOfBounds : LogM Unit) (l.called ⟨caller, id⟩) := rfl

/-- An id in range makes a line, if the level asks for one. -/
lemma writelog_ok (l : Logger) (caller : LogCaller) (level : Level) (message : CStr)
    (hid : id.toNat < Logger.MAX) :
    ∃ l', writelog caller id level message l = .ok ((), l') ∧ l.SameTable l' ∧
      l'.calls = l.calls ++ [⟨caller, id⟩] := by
  rw [writelog_eq]
  by_cases hlevel : l.curLevel.toNat < level.toNat
  · rw [if_pos hlevel]
    exact ⟨l.called ⟨caller, id⟩, rfl, ⟨rfl, rfl, rfl, rfl, rfl⟩, rfl⟩
  · rw [if_neg hlevel, if_pos hid]
    exact ⟨(l.called ⟨caller, id⟩).wrote _, rfl, ⟨rfl, rfl, rfl, rfl, rfl⟩, rfl⟩

/-- Wherever it has an end, the call was made. -/
lemma writelog_called (h : writelog caller id level message l = .ok ((), l')) :
    l.SameTable l' ∧ l'.calls = l.calls ++ [⟨caller, id⟩] := by
  by_cases hid : id.toNat < Logger.MAX
  · obtain ⟨l₁, hok, hsame⟩ := writelog_ok l caller level message hid
    rw [hok] at h
    cases h
    exact hsame
  · rw [writelog_eq, if_neg hid] at h
    split at h
    · cases h
      exact ⟨⟨rfl, rfl, rfl, rfl, rfl⟩, rfl⟩
    · cases h

variable {name : CStr} {opens : Bool}

lemma printed_eq_ok {text out : CStr} :
    Logger.printed text = .ok out ↔ text.length < 1024 ∧ out = text := by
  unfold Logger.printed
  split
  · rename_i h
    rw [and_iff_right h, Except.ok.injEq, eq_comm]
  · rename_i h
    exact iff_of_false (fun hok => by cases hok) fun hlen => h hlen.1

lemma lift_printed {text out : CStr} {s s' : Logger}
    (h : (liftM (Logger.printed text) : LogM CStr) s = .ok (out, s')) :
    text.length < 1024 ∧ text = out ∧ s = s' := by
  cases hprinted : Logger.printed text with
  | error f =>
    rw [hprinted] at h
    cases h
  | ok printed =>
    rw [hprinted] at h
    cases h
    obtain ⟨hlen, rfl⟩ := printed_eq_ok.mp hprinted
    exact ⟨hlen, rfl, rfl⟩

/-- A VM gets an entry where it is available. -/
lemma logAddEntry_ok (h : l.Available name opens) :
    logAddEntry name opens l = .ok (Int32.ofNat l.entryCount, l.added name) := by
  have hname : Logger.printed name = .ok name := printed_eq_ok.mpr ⟨h.fits, rfl⟩
  unfold logAddEntry
  have hget : (get : LogM Logger) l = .ok (l, l) := rfl
  have hlift : (liftM (Except.ok name : Except Fault CStr) : LogM CStr) l = .ok (name, l) := rfl
  rw [bind_run hget, if_neg (Nat.not_le.mpr h.count), hname, bind_run hlift]
  cases hlog : l.logger with
  | console =>
    unfold Logger.added Logger.fpOf
    rw [hlog]
    rfl
  | textfile =>
    obtain ⟨hlen, rfl⟩ := h.file hlog
    dsimp only
    rw [printed_eq_ok.mpr ⟨hlen, rfl⟩]
    unfold Logger.added Logger.fpOf
    rw [hlog]
    rfl

/-- Elsewhere its id is -1, if there is an end. -/
lemma logAddEntry_unavailable (h : ¬l.Available name opens) {logid : Int32}
    (hok : logAddEntry name opens l = .ok (logid, l')) : logid = -1 ∧ l.calls ⊆ l'.calls := by
  unfold logAddEntry at hok
  have hget : (get : LogM Logger) l = .ok (l, l) := rfl
  rw [bind_run hget] at hok
  by_cases hcount : Logger.MAX ≤ l.entryCount
  · rw [if_pos hcount] at hok
    obtain ⟨⟨⟩, s₁, hlog, hret⟩ := bind_run_eq_ok.mp hok
    cases hret
    refine ⟨rfl, ?_⟩
    rw [(writelog_called hlog).2]
    exact List.subset_append_left _ _
  · rw [if_neg hcount] at hok
    obtain ⟨entryName, s₁, hname, hok⟩ := bind_run_eq_ok.mp hok
    obtain ⟨hfits, rfl, rfl⟩ := lift_printed hname
    cases hlog : l.logger with
    | console =>
      have hall : l.Available name opens :=
        ⟨Nat.not_le.mp hcount, hfits, fun htext => by rw [hlog] at htext; cases htext⟩
      exact absurd hall h
    | textfile =>
      rw [hlog] at hok
      obtain ⟨filepath, s₂, hfile, hok⟩ := bind_run_eq_ok.mp hok
      obtain ⟨hlen, rfl, rfl⟩ := lift_printed hfile
      cases opens with
      | true => exact absurd ⟨Nat.not_le.mp hcount, hfits, fun _ => ⟨hlen, rfl⟩⟩ h
      | false =>
        cases hok
        exact ⟨rfl, List.Subset.refl _⟩

lemma logAddEntry_calls {logid : Int32} (hok : logAddEntry name opens l = .ok (logid, l')) :
    l.calls ⊆ l'.calls := by
  by_cases h : l.Available name opens
  · rw [logAddEntry_ok h] at hok
    cases hok
    exact List.Subset.refl _
  · exact (logAddEntry_unavailable h hok).2

end

end Hfm

import Hfm.Monitors.Lookups
import Hfm.Rekall
import Hfm.Support.Run

/-!
# Divisors from the profile

The size of an entry of a handle table is what the profile has for it, and stays 0 if it has none.
`hfm_init` divides a page by it, and so do the callbacks that look a handle up in a table of level
1 or 2, which divide by the quotient as well.
-/

namespace Hfm

open Support

/-! ### The start -/

section Start

variable {κ ε : Type}

lemma winTableSlots_divides (hdlr : Vmhdlr κ ε) (read : UInt64 → Option UInt64) (tablecode : UInt64) :
    winTableSlots hdlr read tablecode = .error .divisionByZero ↔
      (tablecode &&& EX_FAST_REF_MASK).toNat ≤ 2 ∧ hdlr.sizes .handleTableEntry = 0 := by
  unfold winTableSlots
  dsimp only
  split
  · exact iff_of_true rfl ‹_›
  · exact iff_of_false (fun h => by cases h) ‹_›

/-- The number of entries of the table of a process is divided by zero. -/
def TableDivides (hdlr : Vmhdlr κ ε) (mem : Memory) (process : UInt64) : Prop :=
  ∃ tablecode, mem (handleTable hdlr mem process + hdlr.offsets .handleTableTableCode) = some tablecode ∧
    (tablecode &&& EX_FAST_REF_MASK).toNat ≤ 2 ∧ hdlr.sizes .handleTableEntry = 0

lemma winTableObjects_divides (hdlr : Vmhdlr κ ε) (mem : Memory) (process : UInt64) :
    winTableObjects hdlr mem process = .error .divisionByZero ↔ TableDivides hdlr mem process := by
  unfold winTableObjects TableDivides
  cases mem (handleTable hdlr mem process + hdlr.offsets .handleTableTableCode) with
  | none => exact iff_of_false (fun h => by cases h) fun ⟨_, h, _⟩ => by cases h
  | some tablecode =>
    refine (bind_eq_error.trans (or_iff_left ?_)).trans ((winTableSlots_divides _ _ _).trans ?_)
    · rintro ⟨_, -, h⟩
      cases h
    · constructor
      · exact fun h => ⟨tablecode, rfl, h⟩
      · rintro ⟨_, hsome, h⟩
        cases hsome
        exact h

lemma drivesObjects_divides (hdlr : Vmhdlr κ ε) (guest : WinGuest) (rounds : Nat) :
    drivesObjects hdlr guest rounds = .error .divisionByZero ↔
      ∃ processes, winCurProcesses hdlr guest rounds = some processes ∧
        TableDivides hdlr guest.system (drivesProcess hdlr processes) := by
  unfold drivesObjects
  cases winCurProcesses hdlr guest rounds with
  | none => exact iff_of_false (fun h => by cases h) fun ⟨_, h, _⟩ => by cases h
  | some processes =>
    refine (bind_eq_error.trans (or_iff_left ?_)).trans ((winTableObjects_divides _ _ _).trans ?_)
    · rintro ⟨_, -, h⟩
      cases h
    · constructor
      · exact fun h => ⟨processes, rfl, h⟩
      · rintro ⟨_, hsome, h⟩
        cases hsome
        exact h

/-- The processes do not depend on how far the loop may go. -/
lemma winCurProcesses_unique {hdlr : Vmhdlr κ ε} {guest : WinGuest} {rounds rounds' : Nat}
    {processes processes' : List Process}
    (h : winCurProcesses hdlr guest rounds = some processes)
    (h' : winCurProcesses hdlr guest rounds' = some processes') : processes = processes' := by
  unfold winCurProcesses at h h'
  cases hhead : guest.psActiveProcessHead with
  | none =>
    rw [hhead] at h h'
    cases h
    cases h'
    rfl
  | some listHead =>
    rw [hhead] at h h'
    obtain ⟨entries, hfollow, rfl⟩ := Option.map_eq_some_iff.mp h
    obtain ⟨entries', hfollow', rfl⟩ := Option.map_eq_some_iff.mp h'
    rw [(path_of_follow hfollow).unique (path_of_follow hfollow')]

lemma entryDrive_ne (hdlr : Vmhdlr κ ε) (guest : WinGuest) (dirEntry : UInt64) :
    entryDrive hdlr guest dirEntry ≠ .error .divisionByZero := by
  unfold entryDrive
  dsimp only
  split
  · exact fun h => by cases h
  · split
    · exact fun h => by cases h
    · split
      · exact fun h => by cases h
      · exact bind_ne_error (sprintf_ne _) fun _ h => by cases h

lemma winListDrives_divides (hdlr : Vmhdlr κ ε) (guest : WinGuest) (rounds : Nat) :
    winListDrives hdlr guest rounds = .error .divisionByZero ↔
      hdlr.winver ≠ .unknown ∧ ∃ processes, winCurProcesses hdlr guest rounds = some processes ∧
        TableDivides hdlr guest.system (drivesProcess hdlr processes) := by
  unfold winListDrives
  by_cases h : hdlr.winver = .unknown
  · rw [if_pos h]
    exact iff_of_false (fun h => by cases h) fun h' => h'.1 h
  · rw [if_neg h, and_iff_right h, ← drivesObjects_divides]
    refine bind_eq_error.trans (or_iff_left ?_)
    rintro ⟨objs, -, h⟩
    cases objs with
    | none => cases h
    | some objs =>
      dsimp only at h
      split at h
      · cases h
      · split at h
        · cases h
        · exact bind_ne_error (mapM_ne_error (entryDrive_ne hdlr guest) _) (fun _ h => by cases h) h

lemma rekallLookup_ne (int64 : Json → UInt64) (profile : Option Json) (symbol : CStr)
    (subsymbol : Option CStr) (size : Bool) :
    rekallLookup int64 profile symbol subsymbol size ≠ .error .divisionByZero := by
  have hidx (value : Json) (idx : Nat) : arrayGetIdx value idx ≠ .error .divisionByZero := by
    cases value <;> exact fun h => by cases h
  unfold rekallLookup
  split
  · exact fun h => by cases h
  · split
    · exact fun h => by cases h
    · split
      · exact fun h => by cases h
      · split
        · exact bind_ne_error (hidx _ _) fun _ h => by cases h
        · refine bind_ne_error (hidx _ _) fun members => ?_
          split
          · exact fun h => by cases h
          · exact bind_ne_error (hidx _ _) fun _ h => by cases h

lemma fill_ne {ι : Type} [DecidableEq ι] {lookup : ι → Except Fault (Option UInt64)}
    (h : ∀ i, lookup i ≠ .error .divisionByZero) (table : ι → UInt64) (places : List ι) :
    fill lookup table places ≠ .error .divisionByZero := by
  unfold fill
  induction places generalizing table with
  | nil => exact fun h => by cases h
  | cons i places ih =>
    rw [List.foldlM_cons]
    refine bind_ne_error (bind_ne_error (h i) fun value => ?_) fun table => ih table
    cases value <;> exact fun h => by cases h

variable {int64 : Json → UInt64}

lemma winFillOffsets_ne (profile : Option Json) (offsets : WinOffset → UInt64) :
    winFillOffsets int64 profile offsets ≠ .error .divisionByZero := by
  refine bind_ne_error (fill_ne (fun _ => rekallLookup_ne int64 profile _ _ _) _ _) ?_
  exact fun _ h => by cases h

lemma winFillSizes_ne (profile : Option Json) (sizes : WinSize → UInt64) :
    winFillSizes int64 profile sizes ≠ .error .divisionByZero :=
  fill_ne (fun _ => rekallLookup_ne int64 profile _ _ _) _ _

/-- What a call of `hfm_init` is given. -/
structure InitInput (κ ε : Type) where
  calls : InitCalls
  profile : Option Json
  guest : WinGuest
  hdlr : Vmhdlr κ ε

namespace InitInput

variable (int64) (i : InitInput κ ε)

/-- The profile has no size for an entry of a handle table, or 0. -/
def NoEntrySize : Prop :=
  rekallLookup int64 i.profile (cstr "_HANDLE_TABLE_ENTRY") none true = .ok none ∨
    rekallLookup int64 i.profile (cstr "_HANDLE_TABLE_ENTRY") none true = .ok (some 0)

/-- The handler with the tables of the profile. -/
def Filled (hdlr : Vmhdlr κ ε) : Prop :=
  ∃ offsets sizes, winFillOffsets int64 i.profile (fun _ => 0) = .ok offsets ∧
    winFillSizes int64 i.profile (fun _ => 0) = .ok sizes ∧ hdlr = { i.hdlr with offsets, sizes }

/-- The table of the process with these drives is of level 0, 1 or 2. -/
def EntriesCounted (hdlr : Vmhdlr κ ε) (processes : List Process) : Prop :=
  ∃ tablecode, i.guest.system (handleTable hdlr i.guest.system (drivesProcess hdlr processes) +
      hdlr.offsets .handleTableTableCode) = some tablecode ∧
    (tablecode &&& EX_FAST_REF_MASK).toNat ≤ 2

/-- `hfm_init` comes to a division by the size of an entry, which is not there. -/
def DividesByZero : Prop :=
  i.NoEntrySize int64 ∧ i.calls.reachesDrives = true ∧ i.hdlr.winver ≠ .unknown ∧
    ∃ hdlr, i.Filled int64 hdlr ∧ ∃ rounds processes,
      winCurProcesses hdlr i.guest rounds = some processes ∧ i.EntriesCounted hdlr processes

/-- `hfm_init`. -/
def run (rounds : Nat) : Except Fault (Option (HfmStatus × Vmhdlr κ ε)) :=
  Vmhdlr.hfmInit int64 rounds i.calls i.profile i.guest i.hdlr

variable {int64 i}

lemma entry_eq_zero {sizes : WinSize → UInt64}
    (h : winFillSizes int64 i.profile (fun _ => 0) = .ok sizes) :
    sizes .handleTableEntry = 0 ↔ i.NoEntrySize int64 := by
  obtain ⟨value, hlookup, hsize⟩ := winFillSizes_entry int64 h
  unfold NoEntrySize
  rw [hsize, hlookup]
  cases value with
  | none => exact iff_of_true rfl (.inl rfl)
  | some value =>
    constructor
    · intro hzero
      change value = 0 at hzero
      exact .inr (by rw [hzero])
    · rintro (hnone | hzero)
      · cases hnone
      · cases hzero
        rfl

/-- What `hfm_init` does once the tables are filled. -/
lemma run_eq {offsets : WinOffset → UInt64} {sizes : WinSize → UInt64} (rounds : Nat)
    (hoffsets : winFillOffsets int64 i.profile (fun _ => 0) = .ok offsets)
    (hsizes : winFillSizes int64 i.profile (fun _ => 0) = .ok sizes)
    (hreached : i.calls.reachesDrives = true) :
    i.run int64 rounds = winListDrives { i.hdlr with offsets, sizes } i.guest rounds >>= fun
      | none => pure none
      | some drives =>
        if i.calls.registerMemEvent && i.calls.setupAltp2m && i.calls.tmInit && i.calls.outInit then
          pure (some (.success, { i.hdlr with offsets, sizes, drives }))
        else pure (some (.fail, { i.hdlr with offsets, sizes, drives })) := by
  have hxen : i.calls.xenInitInterface ≠ false := by
    intro hxen
    unfold InitCalls.reachesDrives at hreached
    rw [hxen] at hreached
    cases hreached
  unfold run Vmhdlr.hfmInit
  rw [if_neg hxen, hoffsets, hsizes]
  change (if i.calls.reachesDrives = false then _ else _) = _
  refine (if_neg (ne_false_of_eq_true hreached)).trans (bind_congr ?_)
  rintro (_ | drives)
  · rfl
  · rfl

/-- A division by zero is one of `win_list_drives`. -/
lemma reached_of_divides {rounds : Nat} (h : i.run int64 rounds = .error .divisionByZero) :
    i.calls.reachesDrives = true ∧ ∃ offsets sizes,
      winFillOffsets int64 i.profile (fun _ => 0) = .ok offsets ∧
        winFillSizes int64 i.profile (fun _ => 0) = .ok sizes := by
  unfold run Vmhdlr.hfmInit at h
  split at h
  · cases h
  · obtain ⟨offsets, hoffsets, h⟩ := (bind_eq_error.mp h).resolve_left (winFillOffsets_ne _ _)
    obtain ⟨sizes, hsizes, h⟩ := (bind_eq_error.mp h).resolve_left (winFillSizes_ne _ _)
    dsimp only at h
    split at h
    · cases h
    · exact ⟨eq_true_of_ne_false ‹_›, offsets, sizes, hoffsets, hsizes⟩

lemma run_divides_iff {offsets : WinOffset → UInt64} {sizes : WinSize → UInt64} {rounds : Nat}
    (hoffsets : winFillOffsets int64 i.profile (fun _ => 0) = .ok offsets)
    (hsizes : winFillSizes int64 i.profile (fun _ => 0) = .ok sizes)
    (hreached : i.calls.reachesDrives = true) :
    i.run int64 rounds = .error .divisionByZero ↔
      winListDrives { i.hdlr with offsets, sizes } i.guest rounds = .error .divisionByZero := by
  rw [run_eq rounds hoffsets hsizes hreached]
  refine bind_eq_error.trans (or_iff_left ?_)
  rintro ⟨_ | drives, -, h⟩
  · cases h
  · dsimp only at h
    split at h
    · cases h
    · cases h

/-- Where `hfm_init` comes to an end, it divides by zero exactly in this case. -/
lemma run_divides {rounds : Nat} (hends : i.run int64 rounds ≠ .ok none) :
    i.run int64 rounds = .error .divisionByZero ↔ i.DividesByZero int64 := by
  constructor
  · intro h
    obtain ⟨hreached, offsets, sizes, hoffsets, hsizes⟩ := reached_of_divides h
    rw [run_divides_iff hoffsets hsizes hreached, winListDrives_divides] at h
    obtain ⟨hwinver, processes, hprocesses, tablecode, hcode, hlevels, hentry⟩ := h
    exact ⟨(entry_eq_zero hsizes).mp hentry, hreached, hwinver, _,
      ⟨offsets, sizes, hoffsets, hsizes, rfl⟩, rounds, processes, hprocesses, tablecode, hcode,
      hlevels⟩
  · rintro ⟨hentry, hreached, hwinver, _, ⟨offsets, sizes, hoffsets, hsizes, rfl⟩, rounds', processes,
      hprocesses, tablecode, hcode, hlevels⟩
    rw [run_divides_iff hoffsets hsizes hreached, winListDrives_divides]
    have hzero : sizes .handleTableEntry = 0 := (entry_eq_zero hsizes).mpr hentry
    refine ⟨hwinver, processes, ?_, tablecode, hcode, hlevels, hzero⟩
    -- the loop over the processes ends, with the same processes
    cases hrounds : winCurProcesses { i.hdlr with offsets, sizes } i.guest rounds with
    | some processes' => rw [winCurProcesses_unique hprocesses hrounds]
    | none =>
      refine absurd ?_ hends
      rw [run_eq rounds hoffsets hsizes hreached]
      unfold winListDrives drivesObjects
      rw [if_neg hwinver, hrounds]
      rfl

end InitInput

end Start

/-! ### Sessions -/

/-- A handler, from its allocation on. After a fault nothing is known any more. -/
inductive Session where
  | start
  | failed
  | monitoring (hdlr : Vmhdlr MonCb Extra) (s : MonState)
  | fault (f : Fault)

/-- An event that is served by a callback, in a guest that has `mem`. -/
structure ServedEvent where
  env : MonEnv
  regs : X86Registers
  trap : Trap MonCb Extra
  cb : MonCb
  mem : Memory

def ServedEvent.context (e : ServedEvent) (hdlr : Vmhdlr MonCb Extra) : MonContext :=
  ⟨e.regs, e.trap, hdlr, e.env.calls⟩

def ServedEvent.run (e : ServedEvent) (hdlr : Vmhdlr MonCb Extra) : MonM (Option Extra) :=
  callback e.env ((e.context hdlr).withMem e.mem) e.cb

/-- What the rest of the program does between two events leaves the tables of the profile. -/
inductive SessionAction where
  | init (i : InitInput MonCb Extra) (s : MonState)
  | event (e : ServedEvent)
  | between (hdlr : Vmhdlr MonCb Extra) (s : MonState)

namespace Session

variable (int64 : Json → UInt64)

/-- A call of `hfm_init` that does not come to an end leads to no session. -/
def Step : Session → SessionAction → Session → Prop
  | .start, .init i s, next => ∃ rounds, match i.run int64 rounds with
    | .ok none => False
    | .ok (some (.success, hdlr)) => next = .monitoring hdlr s
    | .ok (some (.fail, _)) => next = .failed
    | .error f => next = .fault f
  | .monitoring hdlr s, .event e, next => match e.run hdlr s with
    | .ok (_, s') => next = .monitoring hdlr s'
    | .error f => next = .fault f
  | .monitoring hdlr _, .between hdlr' s', next =>
    hdlr'.offsets = hdlr.offsets ∧ hdlr'.sizes = hdlr.sizes ∧ next = .monitoring hdlr' s'
  | _, _, _ => False

/-- `hfm_init` finds the size of an entry in the profile before it divides by it, and a callback
looks no handle up in a table of level 1 or 2 unless the size is at most that of a page. -/
def SizeFits : Session → SessionAction → Prop
  | .start, .init i _ => ¬i.DividesByZero int64
  | .monitoring hdlr _, .event e =>
    ¬(LooksUp e.mem (e.context hdlr) e.cb ∧ LookupDivides e.mem (e.context hdlr))
  | _, _ => True

variable {int64}

lemma step_init {i : InitInput MonCb Extra} {s : MonState} {next : Session}
    (h : Step int64 .start (.init i s) next) :
    next ≠ .fault .divisionByZero ↔ ¬i.DividesByZero int64 := by
  obtain ⟨rounds, h⟩ := h
  apply not_congr
  cases hrun : i.run int64 rounds with
  | error f =>
    rw [hrun] at h
    subst h
    rw [← InitInput.run_divides (by rw [hrun]; exact fun h => by cases h), hrun]
    constructor
    · intro h
      cases h
      rfl
    · intro h
      cases h
      rfl
  | ok r =>
    rw [hrun] at h
    obtain _ | ⟨status, hdlr⟩ := r
    · exact h.elim
    · rw [← InitInput.run_divides (by rw [hrun]; exact fun h => by cases h), hrun]
      cases status with
      | success =>
        subst h
        exact iff_of_false (fun h => by cases h) fun h => by cases h
      | fail =>
        subst h
        exact iff_of_false (fun h => by cases h) fun h => by cases h

lemma step_event {hdlr : Vmhdlr MonCb Extra} {s : MonState} {e : ServedEvent} {next : Session}
    (h : Step int64 (.monitoring hdlr s) (.event e) next) :
    next ≠ .fault .divisionByZero ↔
      ¬(LooksUp e.mem (e.context hdlr) e.cb ∧ LookupDivides e.mem (e.context hdlr)) := by
  apply not_congr
  rw [← callback_divides e.env (e.context hdlr) e.mem e.cb s]
  change (match e.run hdlr s with
    | .ok (_, s') => next = .monitoring hdlr s'
    | .error f => next = .fault f) at h
  change _ ↔ e.run hdlr s = _
  cases hrun : e.run hdlr s with
  | error f =>
    rw [hrun] at h
    subst h
    constructor
    · intro h
      cases h
      rfl
    · intro h
      cases h
      rfl
  | ok r =>
    rw [hrun] at h
    subst h
    exact iff_of_false (fun h => by cases h) fun h => by cases h

lemma step_iff {s next : Session} {a : SessionAction} (h : Step int64 s a next) :
    next ≠ .fault .divisionByZero ↔ SizeFits int64 s a := by
  cases s with
  | start =>
    cases a with
    | init i s => exact step_init h
    | event e => exact h.elim
    | between hdlr s => exact h.elim
  | failed => exact h.elim
  | fault f => exact h.elim
  | monitoring hdlr s =>
    cases a with
    | init i s => exact h.elim
    | event e => exact step_event h
    | between hdlr' s' =>
      obtain ⟨-, -, rfl⟩ := h
      exact iff_of_true (fun h => by cases h) trivial

end Session

/-- From `hfm_init` on nothing divides by zero exactly if the size of an entry fits each step. -/
theorem never_divides_by_zero_iff {int64 : Json → UInt64} {tr : List (SessionAction × Session)}
    (h : IsRun (Session.Step int64) .start tr) :
    Always (· ≠ .fault .divisionByZero) .start tr ↔ Meets (Session.SizeFits int64) .start tr :=
  h.always_iff_meets (fun _ _ _ _ _ _ => trivial) (fun _ _ _ _ _ hstep => Session.step_iff hstep)
    (trivial : (fun _ => True) Session.start) (fun h => by cases h)

/-- `json_object_get_int64` of a short number. -/
def decimalInt64 : Json → UInt64
  | .num text => text.foldl (fun n digit => 10 * n + (digit - 0x30).toUInt64) 0
  | _ => 0

/-- A profile with two structures of Windows 7, and with `entries`. -/
def tableProfile (entries : List (CStr × Json)) : Json :=
  let jmember (name : String) (offset : Nat) := (cstr name, Json.arr [.num (decimal offset)])
  .obj [(cstr "$STRUCTS", .obj ([
    (cstr "_EPROCESS", .arr [.num (decimal 1232), .obj [jmember "UniqueProcessId" 384,
      jmember "ActiveProcessLinks" 392, jmember "ObjectTable" 512, jmember "ImageFileName" 736]]),
    (cstr "_HANDLE_TABLE", .arr [.num (decimal 104), .obj [jmember "TableCode" 0]])] ++ entries))]

/-- A call of `hfm_init` in a guest whose one process, at 0x2000, has the handle table at 0x3000. -/
def systemInput (entries : List (CStr × Json)) : InitInput MonCb Extra where
  calls := ⟨true, true, true, true, true, true, true, true, true, true⟩
  profile := some (tableProfile entries)
  guest :=
    { kernel := fun addr => [(0x2188, 0x1000), (0x1000, 0x2188), (0x2180, 4)].lookup addr
      system := fun addr => [(0x2200, 0x3000), (0x3000, 0x4000)].lookup addr
      readStr := fun addr => if addr = 0x22e0 then some (cstr "System") else none
      readUnicodeStr := fun _ => none
      convertStrEncoding := fun _ => none
      psActiveProcessHead := some 0x2188
      obHeaderCookie := none }
  hdlr := { (Vm.start fun _ => 0x90).hdlr with winver := .windows7 }

def freshState : MonState := ⟨⟨0, 0⟩, fun _ => none, []⟩

/-- `systemInput` with the size of an entry. -/
def sizedInput : InitInput MonCb Extra :=
  systemInput [(cstr "_HANDLE_TABLE_ENTRY", .arr [.num (decimal 16)])]

/-- The process 0x3000 has a table of level 1, with a file at 0x8000 for the handle 0x404. -/
def writerMemory : Memory := fun addr => [(0x1000, 0x2000), (0x2000, 0x3000), (0x3200, 0x5000),
  (0x5000, 0x6001), (0x6008, 0x7000), (0x7010, 0x8000), (0x8000, 8)].lookup addr

/-- `NtWriteFile` on that handle. -/
def writeEvent : ServedEvent where
  env :=
    { vm := 0
      config := ⟨0, none⟩
      calls :=
        { read := fun _ _ => none
          readBytes := fun _ _ n => (cstr "/a.t").flatMap (fun c => [c, 0]) |>.take n
          convertStrEncoding := fun str => some (str.filter (· ≠ 0))
          gettimeofday := fun _ => (0, 0)
          fopen := fun _ => false
          indeterminate := fun _ => 0 } }
  regs := { rax := 0, rcx := 0x404, rdx := 0, r8 := 0, r9 := 0, rsp := 0xa000, cr3 := 0, fsBase := 0
            gsBase := 0x1000 }
  trap := ⟨0, cstr "NtWriteFile", some (.fileModified .writefileCb), none, 0, false, none⟩
  cb := .fileModified .writefileCb
  mem := writerMemory

/-- The handler and the states of a session with that event. -/
def writeSession : Except Fault (Vmhdlr MonCb Extra × MonState × Option Extra × MonState) := do
  let (_, filter) ← filterAdd filterInit (cstr "/*.t") 7
  let s : MonState := { freshState with filters := fun _ => some filter }
  match ← sizedInput.run decimalInt64 2 with
  | some (.success, hdlr) =>
    let (extra, s') ← writeEvent.run hdlr s
    return (hdlr, s, extra, s')
  | _ => throw .nullPointer

def writeTrace (hdlr : Vmhdlr MonCb Extra) (s s' : MonState) : List (SessionAction × Session) :=
  [(.init sizedInput s, .monitoring hdlr s), (.event writeEvent, .monitoring hdlr s')]

lemma writeTrace_run {hdlr : Vmhdlr MonCb Extra} {s s' : MonState} {extra : Option Extra}
    (h : writeSession = .ok (hdlr, s, extra, s')) :
    IsRun (Session.Step decimalInt64) .start (writeTrace hdlr s s') := by
  obtain ⟨⟨status, filter⟩, -, h⟩ := bind_eq_ok.mp h
  obtain ⟨result, hinit, h⟩ := bind_eq_ok.mp h
  dsimp only at h
  split at h
  · rename_i hdlr'
    obtain ⟨⟨extra', s₁⟩, hevent, h⟩ := bind_eq_ok.mp h
    cases h
    refine ⟨⟨2, by rw [hinit]⟩, ?_, trivial⟩
    simp only [Session.Step, hevent]
  · cases h

/-- With the size of an entry in the profile, monitoring starts and finds the file of a handle. -/
theorem never_divides_by_zero_iff_write : ∃ hdlr s extra s',
    writeSession = .ok (hdlr, s, some extra, s') ∧
    writerMemory.tablecode (writeEvent.context hdlr) = some 0x6001 ∧
    (Always (· ≠ .fault .divisionByZero) Session.start (writeTrace hdlr s s') ↔
      Meets (Session.SizeFits decimalInt64) .start (writeTrace hdlr s s')) := by
  obtain ⟨⟨hdlr, s, extra, s'⟩, hsession, hobs⟩ := exists_ok (x := writeSession)
    (f := fun r => (r.2.2.1.isSome, writerMemory.tablecode (writeEvent.context r.1)))
    (b := (true, some 0x6001)) (by decide +kernel)
  obtain ⟨hextra, hcode⟩ := Prod.mk.injEq .. ▸ hobs
  obtain ⟨extra, rfl⟩ := Option.isSome_iff_exists.mp hextra
  exact ⟨hdlr, s, extra, s', hsession, hcode, never_divides_by_zero_iff (writeTrace_run hsession)⟩

/-- A profile without `_HANDLE_TABLE_ENTRY`, and a table of level 0. -/
theorem missing_entry_size_divides :
    ∃ tr, IsRun (Session.Step decimalInt64) .start tr ∧
      ¬Always (· ≠ .fault .divisionByZero) .start tr := by
  refine ⟨[(.init (systemInput []) freshState, .fault .divisionByZero)], ⟨⟨2, ?_⟩, trivial⟩,
    fun h => h.2 rfl⟩
  have hrun : (systemInput []).run decimalInt64 2 = .error .divisionByZero := by rfl
  rw [hrun]

end Hfm

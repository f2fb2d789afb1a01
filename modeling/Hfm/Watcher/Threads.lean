import Hfm.Support.Handles
import Hfm.Watcher.Multiwatch

/-!
# The threads of the program

`src/main.c` from the start of the threads on. A signal interrupts the VMs, the thread of each
closes and frees its handler, and `main` joins them and frees what they shared. The watcher and
its boot threads go on until `wv_close` has freed their records.
-/

namespace Hfm

open Support

/-- What the threads of the program share: the table of `get_policies`, the files of the log, the
configuration, the patterns of the filters, each `vmhdlr_t` and each `vm_hdlr_t` of the watcher. -/
inductive Shared where
  | policies
  | log
  | config
  | patterns
  | vm (i : Nat)
  | watched (i : Nat)
  deriving DecidableEq

/-- `auto_restart`, `vmnum`, whether there is a policy file, and how often a call of
`hfm_restart_vmi` comes to what the threads share at most. -/
structure Setup where
  autoRestart : Bool
  vmnum : Nat
  policies : Bool
  restartUses : Nat

/-- Where a thread of `_monitor_vm` is. -/
inductive MonitorAt where
  | loop
  | listen
  | close
  | free
  | ended
  deriving DecidableEq

/-- The call of `main` that comes next; those of `wv_close` are taken apart. -/
inductive MainAt where
  | join (i : Nat)
  | freePolicies
  | logClose
  | configClose
  | monClose
  | wvFree (i : Nat)
  | wvClosed
  | wvJoin
  | returned
  deriving DecidableEq

/-- Where `_monitor_fc` is: in front of its outer loop, in front of or in `_get_vm_state`, or in
the callback, which has some uses left. Without `auto_restart` there is no such thread. -/
inductive WatcherAt where
  | head
  | visiting (i : Nat)
  | inVisit (i : Nat)
  | restarting (i left : Nat)
  | ended
  deriving DecidableEq

/-- The program while its threads run. `opened` are the boot threads, by VM and cycle, that
have read the name of their VM. -/
structure Program where
  interrupted : Nat → Bool
  monitor : Nat → MonitorAt
  main : MainAt
  closed : Bool
  wv : Watcher
  watcher : WatcherAt
  opened : List (Nat × Nat)
  memory : Handles Shared

/-- What the callbacks of a VM read besides its handler. `send_output` looks up the policy
whose file it extracts. -/
inductive ListenUse where
  | log
  | config
  | patterns
  | policies
  deriving DecidableEq

def ListenUse.shared : ListenUse → Shared
  | .log => .log
  | .config => .config
  | .patterns => .patterns
  | .policies => .policies

/-- What `hfm_restart_vmi` reads. -/
inductive RestartUse where
  | handler
  | log
  | config
  | policies
  deriving DecidableEq

def RestartUse.shared (i : Nat) : RestartUse → Shared
  | .handler => .vm i
  | .log => .log
  | .config => .config
  | .policies => .policies

/-- A step of one of the threads. `check` is the test of `_monitor_vm` and `listen` the call behind
it; a visit of the watcher begins, ends, and may call `hfm_restart_vmi` in between. -/
inductive ProgramAction where
  | signal
  | check (i : Nat)
  | listen (i : Nat) (calls : List ListenUse) (interrupted : Bool)
  | close (i : Nat)
  | free (i : Nat)
  | round
  | visit (i : Nat)
  | visited (i : Nat) (ans : VisitAnswers)
  | restart (i : Nat) (k : RestartUse)
  | restarted (i : Nat) (result : Int)
  | bootOpen (i n : Nat)
  | bootThread (i n : Nat) (vmi : Bool)
  | main

/-! ### The steps -/

/-- One more use of the callback. -/
def WatcherAt.used : WatcherAt → WatcherAt
  | .restarting i left => .restarting i (left - 1)
  | pos => pos

/-- The loop of `main` over its threads. -/
def MainAt.joining (vmnum i : Nat) : MainAt := if i < vmnum then .join i else .freePolicies

/-- The loop of `wv_close`. -/
def MainAt.freeing (size i : Nat) : MainAt := if i < size then .wvFree i else .wvClosed

namespace Program

variable (setup : Setup) (s : Program)

/-- The arguments of `wv_add_vm`; the instance of a VM is numbered as the VM. -/
def registrations (names : Nat → CStr) : List Registration :=
  if setup.autoRestart then (List.range setup.vmnum).map fun i => ⟨i, names i, some 0, i⟩ else []

def resources : List Shared :=
  (if setup.policies then [.policies] else []) ++ [.log, .config, .patterns] ++
    (List.range setup.vmnum).map .vm ++
    if setup.autoRestart then (List.range setup.vmnum).map .watched else []

/-- All threads have been started. -/
def start (wv : Watcher) : Program where
  interrupted := fun _ => false
  monitor := fun _ => .loop
  main := .joining setup.vmnum 0
  closed := false
  wv := wv
  watcher := if setup.autoRestart then .head else .ended
  opened := []
  memory := Handles.empty.creates (resources setup)

/-- `_get_vm_state` dereferences the pointer to the instance. -/
def readsVmi (i : Nat) : Bool :=
  match (s.wv.hdlr i).hdlr.state with
  | .running => (s.wv.hdlr i).hdlr.okay
  | .destroy => true
  | _ => false

/-- The visit leads to a call of `hfm_restart_vmi`. -/
def booted (i : Nat) : Bool :=
  (s.wv.hdlr i).hdlr.state = .booting && (s.wv.hdlr i).hdlr.bootDone

def afterVisit (i : Nat) : WatcherAt := if i + 1 < s.wv.size then .visiting (i + 1) else .head

def goes (i : Nat) (pos : MonitorAt) : Program :=
  { s with monitor := Function.update s.monitor i pos }

def sets (i : Nat) (vm : WatchedVm) : Program := { s with wv := s.wv.set i vm }

def mainNext : MainAt :=
  match s.main with
  | .join i => .joining setup.vmnum (i + 1)
  | .freePolicies => .logClose
  | .logClose => .configClose
  | .configClose => .monClose
  | .monClose => if setup.autoRestart then .freeing s.wv.size 0 else .returned
  | .wvFree i => .freeing s.wv.size (i + 1)
  | .wvClosed => .wvJoin
  | .wvJoin | .returned => .returned

/-- When an action can come. With `main` the process ends. -/
def Enabled : ProgramAction → Prop
  | .signal => s.main ≠ .returned
  | .check i => s.main ≠ .returned ∧ i < setup.vmnum ∧ s.monitor i = .loop
  | .listen i calls _ => s.main ≠ .returned ∧ i < setup.vmnum ∧ s.monitor i = .listen ∧
      (.policies ∈ calls → setup.policies = true)
  | .close i => s.main ≠ .returned ∧ i < setup.vmnum ∧ s.monitor i = .close
  | .free i => s.main ≠ .returned ∧ i < setup.vmnum ∧ s.monitor i = .free
  | .round => s.main ≠ .returned ∧ s.watcher = .head
  | .visit i => s.main ≠ .returned ∧ s.watcher = .visiting i
  | .visited i _ => s.main ≠ .returned ∧ s.watcher = .inVisit i
  | .restart i k => s.main ≠ .returned ∧ (∃ left, s.watcher = .restarting i (left + 1)) ∧
      (k = .policies → setup.policies = true)
  | .restarted i _ => s.main ≠ .returned ∧ ∃ left, s.watcher = .restarting i left
  | .bootOpen i n => s.main ≠ .returned ∧ i < s.wv.size ∧ n ∈ (s.wv.hdlr i).threads ∧
      (i, n) ∉ s.opened
  | .bootThread i n _ => s.main ≠ .returned ∧ i < s.wv.size ∧ n ∈ (s.wv.hdlr i).threads ∧
      (i, n) ∈ s.opened
  | .main =>
    match s.main with
    | .join i => s.monitor i = .ended
    | .wvJoin => s.watcher = .ended
    | .returned => False
    | _ => True

/-- What an action changes, but for the memory. -/
def act : ProgramAction → Program
  | .signal =>
    { s with interrupted := fun i => if i < setup.vmnum then true else s.interrupted i }
  | .check i =>
    if s.interrupted i then s.goes i .close
    else if setup.autoRestart = true ∧ wvVmiOkay s.wv i = 0 then s
    else s.goes i .listen
  | .listen i _ interrupted =>
    { s.goes i .loop with
      interrupted := Function.update s.interrupted i (s.interrupted i || interrupted) }
  | .close i => s.goes i .free
  | .free i => s.goes i .ended
  | .round =>
    { s with
      watcher := if s.closed then .ended else if 0 < s.wv.size then .visiting 0 else .head }
  | .visit i => { s with watcher := .inVisit i }
  | .visited i ans =>
    if s.booted i then { s with watcher := .restarting i setup.restartUses }
    else { s.sets i (visitVm (s.wv.hdlr i) ans) with watcher := s.afterVisit i }
  | .restart _ _ => { s with watcher := s.watcher.used }
  | .restarted i result =>
    { s.sets i (visitVm (s.wv.hdlr i) ⟨none, false, false, result⟩) with
      watcher := s.afterVisit i }
  | .bootOpen i n => { s with opened := (i, n) :: s.opened }
  | .bootThread i n vmi => s.sets i (waitBootFc (s.wv.hdlr i) n vmi)
  | .main => { s with main := s.mainNext setup, closed := s.closed || s.main = .wvClosed }

/-- What the action reads or writes, before it frees anything. `wv_vmi_okay` comes to the record
of the VM, and reads the flag of the first one. -/
def touched : ProgramAction → List Shared
  | .signal => (List.range setup.vmnum).map .vm
  | .check i =>
    .vm i ::
      if s.interrupted i = false ∧ setup.autoRestart = true then
        (List.range (i + 1)).map .watched ++ [.watched 0]
      else []
  | .listen i calls _ => .vm i :: calls.map ListenUse.shared
  | .close i => [.vm i, .log]
  | .visit i => .watched i :: if s.readsVmi i then [.vm i] else []
  | .visited i _ => [.watched i]
  | .restart i k => [k.shared i]
  | .restarted i result => if result = 0 then [.watched i] else []
  | .bootOpen i _ => [.watched i]
  | .bootThread i _ vmi => if vmi then [.watched i] else []
  | .main =>
    match s.main with
    | .wvFree i => [.watched i]
    | _ => []
  | .free _ | .round => []

def freed : ProgramAction → Option Shared
  | .free i => some (.vm i)
  | .main =>
    match s.main with
    | .freePolicies => if setup.policies then some .policies else none
    | .logClose => some .log
    | .configClose => some .config
    | .monClose => some .patterns
    | .wvFree i => some (.watched i)
    | _ => none
  | _ => none

def next (a : ProgramAction) : Program :=
  let memory := s.memory.uses (s.touched setup a)
  { s.act setup a with
    memory := match s.freed setup a with
      | some k => memory.release k
      | none => memory }

end Program

def ProgramStep (setup : Setup) (s : Program) (a : ProgramAction) (s' : Program) : Prop :=
  s.Enabled setup a ∧ s' = s.next setup a

/-! ### Where the threads can be -/

/-- `main` has joined the thread of the VM. -/
def MainAt.Joined (i : Nat) (pos : MainAt) : Prop :=
  match pos with
  | .join j => i < j
  | _ => True

namespace MainAt

lemma freeing_lt {size i j : Nat} (h : freeing size j = .wvFree i) : i < size := by
  unfold freeing at h
  split at h
  · rename_i hlt
    cases h
    exact hlt
  · cases h

lemma joining_lt {n i j : Nat} (h : joining n j = .join i) : i < n := by
  unfold joining at h
  split at h
  · rename_i hlt
    cases h
    exact hlt
  · cases h

lemma joining_ne (n i j : Nat) : joining n i ≠ .wvFree j := by
  unfold joining
  split
  · exact nofun
  · exact nofun

end MainAt

/-- The VM that the watcher is at. -/
def WatcherAt.vm : WatcherAt → Option Nat
  | .visiting i | .inVisit i | .restarting i _ => some i
  | .head | .ended => none

namespace Program

/-- What holds at each point of every run. -/
structure Placed (setup : Setup) (s : Program) : Prop where
  joined : ∀ i < setup.vmnum, s.main.Joined i → s.monitor i = .ended
  joining : ∀ i, s.main = .join i → i < setup.vmnum
  size_eq : s.wv.size = if setup.autoRestart then setup.vmnum else 0
  freeing : ∀ i, s.main = .wvFree i → i < s.wv.size
  closing : s.main = .wvJoin → s.closed = true
  watching : ∀ i, s.watcher.vm = some i → i < s.wv.size
  uses : ∀ i left, s.watcher = .restarting i left → left ≤ setup.restartUses

variable {setup : Setup} {s : Program}

lemma act_check (setup : Setup) (s : Program) (i : Nat) : s.act setup (.check i) = s ∨
    ∃ pos, pos ≠ .ended ∧ s.act setup (.check i) = s.goes i pos := by
  simp only [act]
  split
  · exact .inr ⟨.close, by decide, rfl⟩
  · split
    · exact .inl rfl
    · exact .inr ⟨.listen, by decide, rfl⟩

/-- A thread that has ended does nothing. -/
lemma act_ended {a : ProgramAction} (ha : s.Enabled setup a) {i : Nat}
    (hended : s.monitor i = .ended) : (s.act setup a).monitor i = .ended := by
  have hgoes {j : Nat} {old pos : MonitorAt} (hold : s.monitor j = old) (hne : old ≠ .ended) :
      (s.goes j pos).monitor i = .ended := by
    have hij : i ≠ j := by
      rintro rfl
      exact hne (hold.symm.trans hended)
    exact (Function.update_of_ne hij _ _).trans hended
  cases a with
  | check j =>
    rcases act_check setup s j with hact | ⟨pos, -, hact⟩
    · rw [hact]
      exact hended
    · rw [hact]
      exact hgoes ha.2.2 (by decide)
  | listen j calls interrupted => exact hgoes ha.2.2.1 (by decide)
  | close j => exact hgoes ha.2.2 (by decide)
  | free j => exact hgoes ha.2.2 (by decide)
  | visited j ans =>
    simp only [act]
    split
    · exact hended
    · exact hended
  | _ => exact hended

lemma act_main {a : ProgramAction} (ha : a ≠ .main) : (s.act setup a).main = s.main := by
  cases a with
  | main => exact absurd rfl ha
  | check j =>
    rcases act_check setup s j with hact | ⟨pos, -, hact⟩
    · rw [hact]
    · rw [hact]
      rfl
  | visited j ans =>
    simp only [act]
    split
    · rfl
    · rfl
  | _ => rfl

lemma act_closed {a : ProgramAction} (ha : a ≠ .main) : (s.act setup a).closed = s.closed := by
  cases a with
  | main => exact absurd rfl ha
  | check j =>
    rcases act_check setup s j with hact | ⟨pos, -, hact⟩
    · rw [hact]
    · rw [hact]
      rfl
  | visited j ans =>
    simp only [act]
    split
    · rfl
    · rfl
  | _ => rfl

lemma act_size (a : ProgramAction) : (s.act setup a).wv.size = s.wv.size := by
  cases a with
  | check j =>
    rcases act_check setup s j with hact | ⟨pos, -, hact⟩
    · rw [hact]
    · rw [hact]
      rfl
  | visited j ans =>
    simp only [act]
    split
    · rfl
    · rfl
  | _ => rfl

lemma afterVisit_ne {i left : Nat} (j : Nat) : s.afterVisit j ≠ .restarting i left := by
  unfold afterVisit
  split
  · exact nofun
  · exact nofun

lemma afterVisit_lt {i j : Nat} (h : (s.afterVisit i).vm = some j) : j < s.wv.size := by
  unfold afterVisit at h
  split at h
  · rename_i hlt
    cases h
    exact hlt
  · cases h

namespace Placed

lemma joined_act (h : s.Placed setup) {a : ProgramAction} (ha : s.Enabled setup a) {i : Nat}
    (hi : i < setup.vmnum) (hjoined : (s.act setup a).main.Joined i) :
    (s.act setup a).monitor i = .ended := by
  apply act_ended ha
  by_cases hmain : a = .main
  · subst hmain
    cases hpos : s.main with
    | join j =>
      simp only [Enabled, hpos] at ha
      by_cases hij : i = j
      · rw [hij]
        exact ha
      · apply h.joined i hi
        rw [hpos]
        simp only [act, mainNext, hpos, MainAt.joining] at hjoined
        split at hjoined
        · change i < j + 1 at hjoined
          change i < j
          omega
        · change i < j
          omega
    | _ =>
      apply h.joined i hi
      rw [hpos]
      trivial
  · rw [act_main hmain] at hjoined
    exact h.joined i hi hjoined

lemma act_freeing (h : s.Placed setup) {a : ProgramAction} {i : Nat}
    (hmain : (s.act setup a).main = .wvFree i) : i < s.wv.size := by
  by_cases ha : a = .main
  · subst ha
    cases hpos : s.main with
    | join j =>
      simp only [act, mainNext, hpos] at hmain
      exact absurd hmain (MainAt.joining_ne _ _ _)
    | monClose =>
      simp only [act, mainNext, hpos] at hmain
      split at hmain
      · exact MainAt.freeing_lt hmain
      · cases hmain
    | wvFree j =>
      simp only [act, mainNext, hpos] at hmain
      exact MainAt.freeing_lt hmain
    | _ =>
      simp only [act, mainNext, hpos] at hmain
      cases hmain
  · rw [act_main ha] at hmain
    exact h.freeing i hmain

lemma act_joining (h : s.Placed setup) {a : ProgramAction} {i : Nat}
    (hmain : (s.act setup a).main = .join i) : i < setup.vmnum := by
  by_cases ha : a = .main
  · subst ha
    cases hpos : s.main with
    | join j =>
      simp only [act, mainNext, hpos] at hmain
      exact MainAt.joining_lt hmain
    | monClose =>
      simp only [act, mainNext, hpos, MainAt.freeing] at hmain
      split_ifs at hmain
    | wvFree j =>
      simp only [act, mainNext, hpos, MainAt.freeing] at hmain
      split_ifs at hmain
    | _ =>
      simp only [act, mainNext, hpos] at hmain
      cases hmain
  · rw [act_main ha] at hmain
    exact h.joining i hmain

lemma act_closing (h : s.Placed setup) {a : ProgramAction}
    (hmain : (s.act setup a).main = .wvJoin) : (s.act setup a).closed = true := by
  by_cases ha : a = .main
  · subst ha
    cases hpos : s.main with
    | join j =>
      simp only [act, mainNext, hpos, MainAt.joining] at hmain
      split_ifs at hmain
    | monClose =>
      simp only [act, mainNext, hpos, MainAt.freeing] at hmain
      split_ifs at hmain
    | wvFree j =>
      simp only [act, mainNext, hpos, MainAt.freeing] at hmain
      split_ifs at hmain
    | wvClosed => simp [act, hpos]
    | _ =>
      simp only [act, mainNext, hpos] at hmain
      cases hmain
  · rw [act_main ha] at hmain
    rw [act_closed ha]
    exact h.closing hmain

lemma act_watching (h : s.Placed setup) {a : ProgramAction} (ha : s.Enabled setup a) {i : Nat}
    (hwatcher : (s.act setup a).watcher.vm = some i) : i < s.wv.size := by
  cases a with
  | check j =>
    rcases act_check setup s j with hact | ⟨pos, -, hact⟩
    · rw [hact] at hwatcher
      exact h.watching i hwatcher
    · rw [hact] at hwatcher
      exact h.watching i hwatcher
  | round =>
    simp only [act] at hwatcher
    split at hwatcher
    · cases hwatcher
    · split at hwatcher
      · rename_i hpos
        cases hwatcher
        exact hpos
      · cases hwatcher
  | visit j =>
    cases hwatcher
    exact h.watching _ (congrArg WatcherAt.vm ha.2)
  | visited j ans =>
    simp only [act] at hwatcher
    split at hwatcher
    · cases hwatcher
      exact h.watching _ (congrArg WatcherAt.vm ha.2)
    · exact afterVisit_lt hwatcher
  | restart j k =>
    obtain ⟨-, ⟨left, hrestarting⟩, -⟩ := ha
    simp only [act, hrestarting, WatcherAt.used] at hwatcher
    cases hwatcher
    exact h.watching _ (congrArg WatcherAt.vm hrestarting)
  | restarted j result => exact afterVisit_lt hwatcher
  | _ => exact h.watching i hwatcher

lemma act_uses (h : s.Placed setup) {a : ProgramAction} {i left : Nat}
    (hwatcher : (s.act setup a).watcher = .restarting i left) : left ≤ setup.restartUses := by
  cases a with
  | check j =>
    rcases act_check setup s j with hact | ⟨pos, -, hact⟩
    · rw [hact] at hwatcher
      exact h.uses i left hwatcher
    · rw [hact] at hwatcher
      exact h.uses i left hwatcher
  | round =>
    simp only [act] at hwatcher
    split_ifs at hwatcher
  | visit j => cases hwatcher
  | visited j ans =>
    simp only [act] at hwatcher
    split at hwatcher
    · cases hwatcher
      exact Nat.le_refl _
    · exact absurd hwatcher (afterVisit_ne j)
  | restart j k =>
    cases hbefore : s.watcher with
    | restarting i' left' =>
      simp only [act, hbefore, WatcherAt.used] at hwatcher
      cases hwatcher
      exact (Nat.sub_le left' 1).trans (h.uses i left' hbefore)
    | _ =>
      simp only [act, hbefore, WatcherAt.used] at hwatcher
      cases hwatcher
  | restarted j result => exact absurd hwatcher (afterVisit_ne j)
  | _ => exact h.uses i left hwatcher

lemma step (h : s.Placed setup) {a : ProgramAction} {s' : Program}
    (hstep : ProgramStep setup s a s') : s'.Placed setup := by
  obtain ⟨ha, rfl⟩ := hstep
  refine ⟨fun i => h.joined_act ha, fun i hmain => h.act_joining hmain,
    (act_size a).trans h.size_eq, fun i hmain => ?_, h.act_closing, fun i hwatcher => ?_,
    fun i left => h.act_uses⟩
  · exact (h.act_freeing hmain).trans_eq (act_size a).symm
  · exact (h.act_watching ha hwatcher).trans_eq (act_size a).symm

end Placed

lemma addVms_size {regs : List Registration} : ∀ {wv wv' : Watcher},
    addVms wv regs = .ok wv' → wv'.size = wv.size + regs.length := by
  induction regs with
  | nil =>
    intro wv wv' h
    cases h
    rfl
  | cons r regs ih =>
    intro wv wv' h
    obtain ⟨wv₁, hadd, h⟩ := bind_eq_ok.mp h
    unfold wvAddVm at hadd
    split at hadd
    · cases hadd
      rw [ih h, List.length_cons]
      change wv.size + 1 + regs.length = _
      omega
    · cases hadd

lemma start_placed {names : Nat → CStr} {wv : Watcher}
    (hadd : addVms wvInit (registrations setup names) = .ok wv) :
    (start setup wv).Placed setup := by
  refine ⟨fun i hi hjoined => ?_, fun i hmain => MainAt.joining_lt hmain, ?_,
    fun i hmain => ?_, fun hmain => ?_, fun i hwatcher => ?_, fun i left hwatcher => ?_⟩
  · have hpos : 0 < setup.vmnum := Nat.zero_lt_of_lt hi
    simp only [start, MainAt.joining, if_pos hpos] at hjoined
    exact absurd hjoined (Nat.not_lt_zero i)
  · have hsize := addVms_size hadd
    change wv.size = _
    rw [hsize]
    unfold registrations
    cases setup.autoRestart with
    | false => rfl
    | true => simp [wvInit]
  · exact absurd hmain (MainAt.joining_ne _ _ _)
  · simp only [start, MainAt.joining] at hmain
    split_ifs at hmain
  · simp only [start] at hwatcher
    split at hwatcher
    · cases hwatcher
    · cases hwatcher
  · simp only [start] at hwatcher
    split_ifs at hwatcher

end Program

end Hfm

import Hfm.Basic
import Mathlib.Data.List.TakeWhile

/-!
# Parsing the policy file

`src/policy.c`: each line is `<id> <severity> <action> <filepath> [options]`. Lines that
do not pass `_check_valid` are reported on standard error by their number.
-/

namespace Hfm

inductive Severity where
  | invalid
  | warning
  | critical
  deriving DecidableEq, Repr

/-- `monitor_t`. -/
inductive Monitor where
  | invalid
  | create
  | delete
  | modifyContent
  | modifyLogfile
  | changeAttr
  | changeAccess
  | changeAttrReadonly
  | changeAttrPermission
  | changeAttrOwnership
  | changeAttrHidden
  deriving DecidableEq, Repr

def POLICY_OPTIONS_EXTRACT : UInt8 := 0x04

/-- `policy_t`; the identifier is a C `int`. -/
structure Policy where
  id : Int
  path : CStr
  type : Monitor
  options : UInt8
  severity : Severity
  deriving DecidableEq

/-! ### The C library -/

/-- `fgets`: at most `n` bytes, up to a newline, and what is left of the file. -/
def fgets : Nat → List UInt8 → List UInt8 × List UInt8
  | 0, file => ([], file)
  | _ + 1, [] => ([], [])
  | n + 1, c :: file =>
    if c = 0x0a then ([c], file)
    else
      let (line, file) := fgets n file
      (c :: line, file)

/-- The C string in a buffer. -/
def cString (buff : List UInt8) : CStr := buff.takeWhile (· ≠ 0)

lemma cString_of_nul {buff : List UInt8} (hnul : 0 ∉ buff) : cString buff = buff := by
  unfold cString
  rw [List.takeWhile_eq_self_iff]
  intro c hc
  have : c ≠ 0 := fun heq => hnul (heq ▸ hc)
  simpa using this

/-- `strtok`: the next token, and the string the following call continues on. -/
def strtok (s : CStr) (delim : CStr) : Option CStr × CStr :=
  let s := s.dropWhile (delim.contains ·)
  if s = [] then (none, [])
  else (some (s.takeWhile (!delim.contains ·)), (s.dropWhile (!delim.contains ·)).drop 1)

def isspace (c : UInt8) : Bool := c = 0x20 || 0x09 ≤ c && c ≤ 0x0d

def isdigit (c : UInt8) : Bool := 0x30 ≤ c && c ≤ 0x39

/-- `strtol` to base ten, which saturates at the ends of `long`. -/
def strtol (s : CStr) : Int :=
  let s := s.dropWhile isspace
  let (neg, s) :=
    match s with
    | 0x2d :: s => (true, s)
    | 0x2b :: s => (false, s)
    | s => (false, s)
  let n := (s.takeWhile isdigit).foldl (fun (n : Nat) c => 10 * n + (c.toNat - 0x30)) 0
  max (-2 ^ 63) (min (2 ^ 63 - 1) (if neg then -(n : Int) else n))

/-- `atoi` keeps the low half of the `long`. -/
def atoi : Option CStr → Except Fault Int
  | none => .error .nullPointer
  | some s => .ok ((strtol s).bmod (2 ^ 32))

def tolower (c : UInt8) : UInt8 := if 0x41 ≤ c && c ≤ 0x5a then c + 0x20 else c

/-! ### The parser -/

def trimLeft (str : CStr) : CStr := str.dropWhile fun c => c = 0x20 || c = 0x09

/-- Whether `strcicmp` returns 0. -/
def strcicmpEq (a b : CStr) : Bool := a.map tolower = b.map tolower

def lookupSeverity : Option CStr → Except Fault Severity
  | none => .error .nullPointer
  | some str =>
    if strcicmpEq str (cstr "WARNING") then .ok .warning
    else if strcicmpEq str (cstr "CRITICAL") then .ok .critical
    else .ok .invalid

def lookupAction : Option CStr → Except Fault Monitor
  | none => .error .nullPointer
  | some str =>
    if strcicmpEq str (cstr "CREATE") then .ok .create
    else if strcicmpEq str (cstr "DELETE") then .ok .delete
    else if strcicmpEq str (cstr "MODIFY_CONTENT") then .ok .modifyContent
    else if strcicmpEq str (cstr "CHANGE_ATTR") then .ok .changeAttr
    else if strcicmpEq str (cstr "CHANGE_ACCESS") then .ok .changeAccess
    else .ok .invalid

/-- The loop of `_parse_options` over the tokens of `str`. -/
def optionTokens : Nat → CStr → UInt8 → UInt8
  | 0, _, options => options
  | fuel + 1, str, options =>
    match strtok str (cstr " \t\n\"") with
    | (none, _) => options
    | (some opt, rest) =>
      optionTokens fuel rest
        (if strcicmpEq opt (cstr "EXTRACT") then options ||| POLICY_OPTIONS_EXTRACT else options)

/-- Without a string the tokenizer is at the end of the line, and yields nothing. -/
def parseOptions : Option CStr → UInt8
  | none => 0
  | some str => optionTokens (str.length + 1) str 0

def checkValid (policy : Policy) : Bool :=
  !(policy.id = 0 || policy.severity = .invalid || policy.type = .invalid || policy.path = [])

def parsePolicy (line : CStr) : Except Fault Policy := do
  let blank := cstr " \t\r\n"
  let (token, line) := strtok line blank
  let id ← atoi token
  let (token, line) := strtok line blank
  let severity ← lookupSeverity token
  let (token, line) := strtok line blank
  let type ← lookupAction token
  let (filepath, line) := strtok line blank
  let options := parseOptions (strtok line (cstr "\r\n")).1
  return { id, path := filepath.getD [], type, options, severity }

/-- A comment or an empty line. -/
def ignored (line : CStr) : Bool :=
  line.head? = some 0x23 || line.head? = some 0x0a || line.head? = some 0x0d

/-- The table of policies, and the numbers of the lines reported as invalid. -/
structure PolicyTable where
  table : GHashTable Int Policy
  invalid : List Nat

/-- One pass of the loop of `get_policies`, on the line numbered `linecnt`. -/
def policyLine (linecnt : Nat) (buff : List UInt8) (policies : PolicyTable) :
    Except Fault PolicyTable :=
  let line := trimLeft (cString buff)
  if ignored line then .ok policies
  else do
    let policy ← parsePolicy line
    if checkValid policy then
      return { policies with table := policies.table.insert policy.id policy }
    else
      return { policies with invalid := policies.invalid ++ [linecnt] }

/-- The loop of `get_policies`; a line takes at least one byte off the file. -/
def policyLines : Nat → Nat → List UInt8 → PolicyTable → Except Fault PolicyTable
  | 0, _, _, policies => .ok policies
  | fuel + 1, linecnt, file, policies =>
    if file = [] then .ok policies
    else do
      let (buff, file) := fgets (STR_BUFF - 1) file
      let policies ← policyLine (linecnt + 1) buff policies
      policyLines fuel (linecnt + 1) file policies

/-- `get_policies` on the bytes of the policy file, or on no file at all. -/
def getPolicies : Option (List UInt8) → Except Fault (Option PolicyTable)
  | none => .ok none
  | some file => do
    let policies ← policyLines file.length 0 file ⟨∅, []⟩
    return some policies

/-! ### Accepted policies -/

/-- Every policy of the table is stored under its identifier, and is in `P`. -/
def PolicyTable.Stores (policies : PolicyTable) (P : Policy → Prop) : Prop :=
  ∀ id policy, policies.table.lookup id = some policy → P policy ∧ policy.id = id

/-- Every policy of the table is valid and stored under its identifier. -/
def PolicyTable.Accepted (policies : PolicyTable) : Prop :=
  ∀ id policy, policies.table.lookup id = some policy → checkValid policy = true ∧ policy.id = id

section Stores

variable {P : Policy → Prop}
  (hP : ∀ line policy, parsePolicy line = .ok policy → checkValid policy = true → P policy)
include hP

lemma policyLine_stores {linecnt : Nat} {buff : List UInt8} {policies policies' : PolicyTable}
    (h : policyLine linecnt buff policies = .ok policies') (hstores : policies.Stores P) :
    policies'.Stores P := by
  unfold policyLine at h
  dsimp only at h
  split at h
  · cases h
    exact hstores
  · obtain ⟨policy, hparse, h⟩ := bind_eq_ok.mp h
    split at h
    · rename_i hvalid
      cases h
      intro id found hlook
      by_cases hid : id = policy.id
      · subst hid
        rw [AList.lookup_insert, Option.some_inj] at hlook
        subst hlook
        exact ⟨hP _ policy hparse hvalid, rfl⟩
      · rw [AList.lookup_insert_ne hid] at hlook
        exact hstores id found hlook
    · cases h
      exact hstores

lemma policyLines_stores (fuel : Nat) : ∀ {linecnt : Nat} {file : List UInt8}
    {policies policies' : PolicyTable},
    policyLines fuel linecnt file policies = .ok policies' → policies.Stores P →
      policies'.Stores P := by
  induction fuel with
  | zero =>
    intro linecnt file policies policies' h hstores
    cases h
    exact hstores
  | succ fuel ih =>
    intro linecnt file policies policies' h hstores
    rw [policyLines] at h
    split at h
    · cases h
      exact hstores
    · obtain ⟨next, hline, h⟩ := bind_eq_ok.mp h
      exact ih h (policyLine_stores hP hline hstores)

/-- What holds of the valid policies that lines are parsed to holds of those in the table. -/
lemma getPolicies_stores {file : Option (List UInt8)} {policies : PolicyTable}
    (h : getPolicies file = .ok (some policies)) : policies.Stores P := by
  cases file with
  | none => cases h
  | some file =>
    obtain ⟨found, hlines, h⟩ := bind_eq_ok.mp h
    cases h
    exact policyLines_stores hP _ hlines fun id policy hlook => by simp at hlook

end Stores

/-- What `get_policies` returns holds valid policies only, each under its own identifier. -/
theorem getPolicies_accepted {file : Option (List UInt8)} {policies : PolicyTable}
    (h : getPolicies file = .ok (some policies)) : policies.Accepted :=
  getPolicies_stores (P := fun policy => checkValid policy = true) (fun _ _ _ hvalid => hvalid) h

lemma parsePolicy_id {line : CStr} {policy : Policy} (h : parsePolicy line = .ok policy) :
    -2 ^ 31 ≤ policy.id ∧ policy.id < 2 ^ 31 := by
  obtain ⟨id, hid, h⟩ := bind_eq_ok.mp h
  obtain ⟨severity, -, h⟩ := bind_eq_ok.mp h
  obtain ⟨type, -, h⟩ := bind_eq_ok.mp h
  cases h
  unfold atoi at hid
  split at hid
  · cases hid
  · cases hid
    exact ⟨Int.le_bmod (by decide), Int.bmod_lt (by decide)⟩

/-- The identifiers are those of a C `int`. -/
lemma getPolicies_id {file : Option (List UInt8)} {policies : PolicyTable}
    (h : getPolicies file = .ok (some policies)) {id : Int} {policy : Policy}
    (hlook : policies.table.lookup id = some policy) : -2 ^ 31 ≤ id ∧ id < 2 ^ 31 := by
  obtain ⟨hrange, rfl⟩ := getPolicies_stores (fun _ _ hparse _ => parsePolicy_id hparse) h id policy hlook
  exact hrange

end Hfm

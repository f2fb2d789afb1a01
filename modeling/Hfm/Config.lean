import Hfm.Basic

/-!
# Settings

`src/config.c` and `_read_config` of `src/main.c`: the settings of a file of groups and keys, in one
table, and those of the command line over them.
-/

namespace Hfm

/-! ### The file -/

/-- What GLib answers about a file that it could load: the groups, the keys of a group and the value
of a key. The last two may come with an error. -/
structure GKeyFile where
  groups : List CStr
  keys : CStr → Option (List CStr)
  value : CStr → CStr → Option CStr

/-- `config_t`. -/
abbrev ConfigTable := GHashTable CStr CStr

def configGetStr (cfg : ConfigTable) (key : CStr) : Option CStr := cfg.lookup key

def configSetStr (cfg : ConfigTable) (key value : CStr) : ConfigTable := cfg.insert key value

/-- The inner loop of `config_init`. -/
def insertKeys (keyfile : GKeyFile) (group : CStr) : List CStr → ConfigTable → ConfigTable
  | [], cfg => cfg
  | key :: keys, cfg =>
    match keyfile.value group key with
    | none => insertKeys keyfile group keys cfg
    | some value => insertKeys keyfile group keys (cfg.insert key value)

def insertGroups (keyfile : GKeyFile) : List CStr → ConfigTable → ConfigTable
  | [], cfg => cfg
  | group :: groups, cfg =>
    match keyfile.keys group with
    | none => insertGroups keyfile groups cfg
    | some keys => insertGroups keyfile groups (insertKeys keyfile group keys cfg)

/-- `config_init`; `load` stands for `g_key_file_load_from_file`. -/
def configInit (load : CStr → Option GKeyFile) (configFile : CStr) : ConfigTable :=
  match load configFile with
  | none => ∅
  | some keyfile => insertGroups keyfile keyfile.groups ∅

/-! ### The command line -/

/-- `'?'`, the answer of `getopt` where it does not know an option or misses its argument. -/
def badOption : UInt8 × Option CStr := (0x3f, none)

/-- Whether an option takes an argument, if it is one: by the colon behind it in `optstring`. -/
def takesArgument (optstring : CStr) (c : UInt8) : Option Bool :=
  match optstring.dropWhile (· ≠ c) with
  | [] => none
  | _ :: rest => if c = 0x3a then none else some (rest.head? = some 0x3a)

/-- The options in one argument behind its `-`, and the arguments that are left. -/
def optionsIn (optstring : CStr) : CStr → List CStr → List (UInt8 × Option CStr) × List CStr
  | [], argv => ([], argv)
  | c :: rest, argv =>
    match takesArgument optstring c with
    | none =>
      (badOption :: (optionsIn optstring rest argv).1, (optionsIn optstring rest argv).2)
    | some false =>
      ((c, none) :: (optionsIn optstring rest argv).1, (optionsIn optstring rest argv).2)
    | some true =>
      if rest ≠ [] then ([(c, some rest)], argv)
      else
        match argv with
        | [] => ([badOption], [])
        | optarg :: argv => ([(c, some optarg)], argv)

/-- The answers of `getopt`, call by call. Other arguments are passed over, or end the options
under `POSIXLY_CORRECT`. -/
def getoptLoop (optstring : CStr) (posixlyCorrect : Bool) : Nat → List CStr →
    List (UInt8 × Option CStr)
  | 0, _ => []
  | _, [] => []
  | fuel + 1, arg :: argv =>
    if arg = cstr "--" then []
    else
      match arg with
      | 0x2d :: c :: rest =>
        (optionsIn optstring (c :: rest) argv).1 ++
          getoptLoop optstring posixlyCorrect fuel (optionsIn optstring (c :: rest) argv).2
      | _ => if posixlyCorrect then [] else getoptLoop optstring posixlyCorrect fuel argv

def getopt (posixlyCorrect : Bool) (argv : List CStr) (optstring : CStr) :
    List (UInt8 × Option CStr) :=
  getoptLoop optstring posixlyCorrect argv.length argv

/-- The arrays of `_read_config`, each up to its first NUL, if it has one. -/
structure ConfigArgs where
  cfgFile : CStr
  policyFile : CStr
  logFile : CStr
  vmlist : CStr

namespace ConfigArgs

/-- A pass of the loop of `_read_config`; `none` is its `exit`. -/
def option (args : ConfigArgs) : UInt8 × Option CStr → Option ConfigArgs
  | (c, some optarg) =>
    -- `strncpy`
    if c = 0x70 then some { args with policyFile := optarg.take PATH_MAX_LEN }
    else if c = 0x63 then some { args with cfgFile := optarg.take PATH_MAX_LEN }
    else if c = 0x6c then some { args with logFile := optarg.take PATH_MAX_LEN }
    else if c = 0x76 then some { args with vmlist := optarg.take 1024 }
    else none
  | _ => none

def read (args : ConfigArgs) : List (UInt8 × Option CStr) → Option ConfigArgs
  | [] => some args
  | o :: opts =>
    match args.option o with
    | none => none
    | some args => args.read opts

end ConfigArgs

/-- The string in an array of 1024 bytes. -/
def arrayString (array : CStr) : Except Fault CStr :=
  if array.length < 1024 then .ok array else .error .outOfBounds

def DEFAULT_CONFIG : CStr := cstr "/etc/hfm/hfm.cfg"

def mergeStr (cfg : ConfigTable) (key array : CStr) : Except Fault ConfigTable :=
  if array = [] then .ok cfg
  else do
    let value ← arrayString array
    return configSetStr cfg key value

/-- The part of `_read_config` behind its loop. -/
def mergeConfig (load : CStr → Option GKeyFile) (args : ConfigArgs) : Except Fault ConfigTable := do
  let cfgFile ← if args.cfgFile = [] then .ok DEFAULT_CONFIG else arrayString args.cfgFile
  let cfg ← mergeStr (configInit load cfgFile) (cstr "policy_file") args.policyFile
  let cfg ← mergeStr cfg (cstr "log_file") args.logFile
  mergeStr cfg (cstr "vmlist") args.vmlist

/-- `_read_config`; `none` for a command line that is not accepted. -/
def readConfig (load : CStr → Option GKeyFile) (posixlyCorrect : Bool) (argv : List CStr) :
    Except Fault (Option ConfigTable) :=
  match (ConfigArgs.mk [] [] [] []).read (getopt posixlyCorrect argv (cstr "p:c:l:v:")) with
  | none => .ok none
  | some args => (mergeConfig load args).map some

/-! ### What the settings are to be -/

/-- The keys of a file with their values, in the order of the file. -/
def GKeyFile.pairs (keyfile : GKeyFile) : List (CStr × CStr) :=
  keyfile.groups.flatMap fun group => ((keyfile.keys group).getD []).filterMap fun key =>
    (keyfile.value group key).map (key, ·)

def lastValue (pairs : List (CStr × CStr)) (key : CStr) : Option CStr :=
  (pairs.reverse.find? (·.1 = key)).map Prod.snd

/-- The last argument given for an option. -/
def givenOption (opts : List (UInt8 × Option CStr)) (c : UInt8) : Option CStr :=
  (opts.filterMap fun o => if o.1 = c then o.2 else none).getLast?

/-- A call of the program: the files there are, and the command line. -/
structure ConfigInput where
  load : CStr → Option GKeyFile
  posixlyCorrect : Bool
  argv : List CStr

namespace ConfigInput

variable (i : ConfigInput)

def opts : List (UInt8 × Option CStr) := getopt i.posixlyCorrect i.argv (cstr "p:c:l:v:")

/-- All options are known, and have their arguments. -/
def Accepted : Prop := ∀ o ∈ i.opts, o.1 ∈ cstr "pclv" ∧ o.2.isSome = true

instance : Decidable i.Accepted := inferInstanceAs (Decidable (∀ o ∈ i.opts, _))

def cfgPath : CStr :=
  match givenOption i.opts 0x63 with
  | none => DEFAULT_CONFIG
  | some path => if path = [] then DEFAULT_CONFIG else path

/-- The last value that the file has for a key. -/
def fileValue (key : CStr) : Option CStr :=
  (i.load i.cfgPath).bind fun keyfile => lastValue keyfile.pairs key

/-- The options `-p`, `-v` and `-l` come before what the file has for the policy file, the list of
VMs and the destination of the log, and nothing else changes. -/
def SettingsRight : Prop :=
  ∃ cfg, readConfig i.load i.posixlyCorrect i.argv = .ok (some cfg) ∧
    configGetStr cfg (cstr "policy-file") =
      (givenOption i.opts 0x70).or (i.fileValue (cstr "policy-file")) ∧
    configGetStr cfg (cstr "vmlist") = (givenOption i.opts 0x76).or (i.fileValue (cstr "vmlist")) ∧
    configGetStr cfg (cstr "log-dir") = (givenOption i.opts 0x6c).or (i.fileValue (cstr "log-dir")) ∧
    ∀ key, key ∉ [cstr "policy-file", cstr "vmlist", cstr "log-dir"] →
      configGetStr cfg key = i.fileValue key

/-- Options that the program does not lose: short ones, where the file has the same value already
for the key that is read and for the one that is written. -/
structure FileAgrees : Prop where
  short : ∀ c ∈ cstr "pclv", ∀ arg, givenOption i.opts c = some arg → arg.length < 1024
  policyFile : ∀ arg, givenOption i.opts 0x70 = some arg →
    i.fileValue (cstr "policy-file") = some arg ∧
      (arg ≠ [] → i.fileValue (cstr "policy_file") = some arg)
  logFile : ∀ arg, givenOption i.opts 0x6c = some arg →
    i.fileValue (cstr "log-dir") = some arg ∧ (arg ≠ [] → i.fileValue (cstr "log_file") = some arg)
  vmlist : givenOption i.opts 0x76 = some [] → i.fileValue (cstr "vmlist") = some []

end ConfigInput

/-! ### The table of the file -/

lemma lastValue_append (ps qs : List (CStr × CStr)) (key : CStr) :
    lastValue (ps ++ qs) key = (lastValue qs key).or (lastValue ps key) := by
  unfold lastValue
  rw [List.reverse_append, List.find?_append]
  cases qs.reverse.find? (·.1 = key) with
  | none => rfl
  | some q => rfl

lemma lookup_insertKeys (keyfile : GKeyFile) (group key : CStr) (keys : List CStr) (cfg : ConfigTable) :
    (insertKeys keyfile group keys cfg).lookup key =
      (lastValue (keys.filterMap fun key => (keyfile.value group key).map (key, ·)) key).or
        (cfg.lookup key) := by
  induction keys generalizing cfg with
  | nil => rfl
  | cons k keys ih =>
    rw [insertKeys]
    cases hvalue : keyfile.value group k with
    | none =>
      rw [List.filterMap_cons_none (by rw [hvalue]; rfl)]
      exact ih cfg
    | some value =>
      rw [List.filterMap_cons_some (by rw [hvalue]; rfl)]
      dsimp only
      rw [ih, ← List.singleton_append, lastValue_append, Option.or_assoc]
      congr 1
      unfold lastValue
      by_cases hkey : k = key
      · subst hkey
        simp
      · simp [hkey, AList.lookup_insert_ne (Ne.symm hkey)]

lemma lookup_insertGroups (keyfile : GKeyFile) (key : CStr) (groups : List CStr) (cfg : ConfigTable) :
    (insertGroups keyfile groups cfg).lookup key =
      (lastValue (groups.flatMap fun group => ((keyfile.keys group).getD []).filterMap fun key =>
        (keyfile.value group key).map (key, ·)) key).or (cfg.lookup key) := by
  induction groups generalizing cfg with
  | nil => rfl
  | cons group groups ih =>
    rw [insertGroups, List.flatMap_cons, lastValue_append, Option.or_assoc]
    cases hkeys : keyfile.keys group with
    | none => exact ih cfg
    | some keys =>
      dsimp only [Option.getD_some]
      rw [ih, lookup_insertKeys]

lemma lookup_configInit (load : CStr → Option GKeyFile) (path key : CStr) :
    configGetStr (configInit load path) key =
      (load path).bind fun keyfile => lastValue keyfile.pairs key := by
  unfold configGetStr configInit
  cases load path with
  | none => rfl
  | some keyfile =>
    refine (lookup_insertGroups keyfile key keyfile.groups ∅).trans ?_
    rw [AList.lookup_empty, Option.or_none]
    rfl

/-! ### The arrays -/

section Options

variable {opts : List (UInt8 × Option CStr)}

lemma givenOption_cons (o : UInt8 × Option CStr) (opts : List (UInt8 × Option CStr)) (c : UInt8) :
    givenOption (o :: opts) c = (givenOption opts c).or (if o.1 = c then o.2 else none) := by
  unfold givenOption
  rw [List.filterMap_cons]
  cases (if o.1 = c then o.2 else none) with
  | none => rw [Option.or_none]
  | some arg =>
    dsimp only
    rw [List.getLast?_cons]
    cases (opts.filterMap fun o => if o.1 = c then o.2 else none).getLast? with
    | none => rfl
    | some arg' => rfl

/-- What an array holds after the loop. -/
def arrayOf (opts : List (UInt8 × Option CStr)) (c : UInt8) (array : CStr) : CStr :=
  ((givenOption opts c).map (List.take 1024)).getD array

lemma arrayOf_cons (o : UInt8 × Option CStr) (opts : List (UInt8 × Option CStr)) (c : UInt8)
    (array : CStr) : arrayOf (o :: opts) c array =
      arrayOf opts c (((if o.1 = c then o.2 else none).map (List.take 1024)).getD array) := by
  unfold arrayOf
  rw [givenOption_cons]
  cases givenOption opts c with
  | none => rfl
  | some arg => rfl

lemma read_accepted (opts : List (UInt8 × Option CStr)) (args : ConfigArgs)
    (h : ∀ o ∈ opts, o.1 ∈ cstr "pclv" ∧ o.2.isSome = true) :
    args.read opts = some ⟨arrayOf opts 0x63 args.cfgFile, arrayOf opts 0x70 args.policyFile,
      arrayOf opts 0x6c args.logFile, arrayOf opts 0x76 args.vmlist⟩ := by
  induction opts generalizing args with
  | nil => rfl
  | cons o opts ih =>
    obtain ⟨c, optarg⟩ := o
    obtain ⟨hc, hsome⟩ := h _ List.mem_cons_self
    obtain ⟨arg, rfl⟩ := Option.isSome_iff_exists.mp hsome
    have htail := fun args => ih args fun o ho => h o (List.mem_cons_of_mem _ ho)
    rw [ConfigArgs.read]
    simp only [arrayOf_cons]
    have hcases : c = 0x70 ∨ c = 0x63 ∨ c = 0x6c ∨ c = 0x76 := by simpa [cstr] using hc
    rcases hcases with rfl | rfl | rfl | rfl
    · exact htail _
    · exact htail _
    · exact htail _
    · exact htail _

end Options

/-! ### The merge -/

lemma mergeStr_ok {cfg cfg' : ConfigTable} {key array : CStr} :
    mergeStr cfg key array = .ok cfg' ↔
      array.length < 1024 ∧ cfg' = if array = [] then cfg else configSetStr cfg key array := by
  unfold mergeStr arrayString
  by_cases hempty : array = []
  · rw [if_pos hempty, if_pos hempty, hempty, Except.ok.injEq, eq_comm]
    exact (and_iff_right (by decide)).symm
  · rw [if_neg hempty, if_neg hempty]
    split
    · rename_i hlen
      rw [and_iff_right hlen]
      exact ⟨fun h => (Except.ok.inj h).symm, fun h => congrArg Except.ok h.symm⟩
    · rename_i hlen
      exact iff_of_false (fun h => by cases h) fun h => hlen h.1

lemma configGetStr_set (cfg : ConfigTable) (key key' value : CStr) :
    configGetStr (configSetStr cfg key value) key' =
      if key' = key then some value else configGetStr cfg key' := by
  unfold configGetStr configSetStr
  split
  · rename_i h
    rw [h, AList.lookup_insert]
  · rename_i h
    rw [AList.lookup_insert_ne h]

lemma mergeStr_getStr {cfg cfg' : ConfigTable} {key array : CStr} (h : mergeStr cfg key array = .ok cfg')
    (key' : CStr) : configGetStr cfg' key' =
      if key' = key ∧ array ≠ [] then some array else configGetStr cfg key' := by
  obtain ⟨-, rfl⟩ := mergeStr_ok.mp h
  by_cases hempty : array = []
  · rw [if_pos hempty, if_neg fun h => h.2 hempty]
  · rw [if_neg hempty, configGetStr_set]
    simp only [ne_eq, hempty, not_false_eq_true, and_true]

lemma cfgFile_ok {array path : CStr} :
    (if array = [] then .ok DEFAULT_CONFIG else arrayString array) = Except.ok path ↔
      array.length < 1024 ∧ path = if array = [] then DEFAULT_CONFIG else array := by
  unfold arrayString
  by_cases hempty : array = []
  · rw [if_pos hempty, if_pos hempty, hempty, Except.ok.injEq, eq_comm]
    exact (and_iff_right (by decide)).symm
  · rw [if_neg hempty, if_neg hempty]
    split
    · rename_i hlen
      rw [and_iff_right hlen, Except.ok.injEq, eq_comm]
    · rename_i hlen
      exact iff_of_false (fun h => by cases h) fun h => hlen h.1

lemma mergeConfig_bind {load : CStr → Option GKeyFile} {args : ConfigArgs} {cfg : ConfigTable} :
    mergeConfig load args = .ok cfg ↔ ∃ cfg₁ cfg₂, args.cfgFile.length < 1024 ∧
      mergeStr (configInit load (if args.cfgFile = [] then DEFAULT_CONFIG else args.cfgFile))
        (cstr "policy_file") args.policyFile = .ok cfg₁ ∧
      mergeStr cfg₁ (cstr "log_file") args.logFile = .ok cfg₂ ∧
      mergeStr cfg₂ (cstr "vmlist") args.vmlist = .ok cfg := by
  have hbind : mergeConfig load args =
      (if args.cfgFile = [] then .ok DEFAULT_CONFIG else arrayString args.cfgFile) >>= fun path =>
        mergeStr (configInit load path) (cstr "policy_file") args.policyFile >>= fun cfg =>
          mergeStr cfg (cstr "log_file") args.logFile >>= fun cfg =>
            mergeStr cfg (cstr "vmlist") args.vmlist := by
    unfold mergeConfig
    split
    · rfl
    · rfl
  rw [hbind, bind_eq_ok]
  constructor
  · rintro ⟨path, hpath, h⟩
    obtain ⟨hlen, rfl⟩ := cfgFile_ok.mp hpath
    obtain ⟨cfg₁, hp, h⟩ := bind_eq_ok.mp h
    obtain ⟨cfg₂, hl, hv⟩ := bind_eq_ok.mp h
    exact ⟨cfg₁, cfg₂, hlen, hp, hl, hv⟩
  · rintro ⟨cfg₁, cfg₂, hlen, hp, hl, hv⟩
    exact ⟨_, cfgFile_ok.mpr ⟨hlen, rfl⟩, bind_eq_ok.mpr ⟨cfg₁, hp, bind_eq_ok.mpr ⟨cfg₂, hl, hv⟩⟩⟩

lemma length_arrayOf (opts : List (UInt8 × Option CStr)) (c : UInt8) :
    (arrayOf opts c []).length < 1024 ↔ ∀ arg, givenOption opts c = some arg → arg.length < 1024 := by
  unfold arrayOf
  cases givenOption opts c with
  | none => exact iff_of_true (by decide) fun _ h => by cases h
  | some arg =>
    rw [Option.map_some, Option.getD_some, List.length_take]
    constructor
    · rintro h _ ⟨⟩
      omega
    · intro h
      have := h arg rfl
      omega

lemma arrayOf_short {opts : List (UInt8 × Option CStr)} {c : UInt8}
    (h : (arrayOf opts c []).length < 1024) : arrayOf opts c [] = (givenOption opts c).getD [] := by
  unfold arrayOf at h ⊢
  cases hgiven : givenOption opts c with
  | none => rfl
  | some arg =>
    rw [hgiven, Option.map_some, Option.getD_some, List.length_take] at h
    exact List.take_of_length_le (by omega)

namespace ConfigInput

variable {i : ConfigInput}

/-- Every argument fits its array. -/
def Short (i : ConfigInput) : Prop := ∀ c ∈ cstr "pclv", (arrayOf i.opts c []).length < 1024

/-- What a key has after the merge. -/
def merged (i : ConfigInput) (key : CStr) : Option CStr :=
  if key = cstr "vmlist" ∧ (givenOption i.opts 0x76).getD [] ≠ [] then givenOption i.opts 0x76
  else if key = cstr "log_file" ∧ (givenOption i.opts 0x6c).getD [] ≠ [] then givenOption i.opts 0x6c
  else if key = cstr "policy_file" ∧ (givenOption i.opts 0x70).getD [] ≠ [] then
    givenOption i.opts 0x70
  else i.fileValue key

lemma given_ite {p : Prop} [Decidable p] {given rest rest' : Option CStr} (h : rest = rest') :
    (if p ∧ given.getD [] ≠ [] then some (given.getD []) else rest) =
      if p ∧ given.getD [] ≠ [] then given else rest' := by
  cases given with
  | none => rw [if_neg fun hp => hp.2 rfl, if_neg fun hp => hp.2 rfl, h]
  | some arg => rw [h, Option.getD_some]

lemma mergeConfig_ok (hacc : i.Accepted) :
    readConfig i.load i.posixlyCorrect i.argv = (mergeConfig i.load
      ⟨arrayOf i.opts 0x63 [], arrayOf i.opts 0x70 [], arrayOf i.opts 0x6c [],
        arrayOf i.opts 0x76 []⟩).map some := by
  unfold readConfig
  rw [show getopt i.posixlyCorrect i.argv (cstr "p:c:l:v:") = i.opts from rfl,
    read_accepted i.opts ⟨[], [], [], []⟩ hacc]

lemma readConfig_eq_ok (hacc : i.Accepted) {cfg : ConfigTable} :
    readConfig i.load i.posixlyCorrect i.argv = .ok (some cfg) ↔ mergeConfig i.load
      ⟨arrayOf i.opts 0x63 [], arrayOf i.opts 0x70 [], arrayOf i.opts 0x6c [],
        arrayOf i.opts 0x76 []⟩ = .ok cfg := by
  rw [mergeConfig_ok hacc, map_eq_ok]
  constructor
  · rintro ⟨cfg', h, hcfg⟩
    rw [h, Option.some.inj hcfg]
  · intro h
    exact ⟨cfg, h, rfl⟩

lemma readConfig_iff (hacc : i.Accepted) :
    (∃ cfg, readConfig i.load i.posixlyCorrect i.argv = .ok (some cfg)) ↔ i.Short := by
  have hshort : i.Short ↔ (arrayOf i.opts 0x70 []).length < 1024 ∧
      (arrayOf i.opts 0x63 []).length < 1024 ∧ (arrayOf i.opts 0x6c []).length < 1024 ∧
      (arrayOf i.opts 0x76 []).length < 1024 := by
    simp [Short, cstr]
  rw [hshort]
  constructor
  · rintro ⟨cfg, h⟩
    obtain ⟨cfg₁, cfg₂, hc, hp, hl, hv⟩ := mergeConfig_bind.mp ((readConfig_eq_ok hacc).mp h)
    exact ⟨(mergeStr_ok.mp hp).1, hc, (mergeStr_ok.mp hl).1, (mergeStr_ok.mp hv).1⟩
  · rintro ⟨hp, hc, hl, hv⟩
    exact ⟨_, (readConfig_eq_ok hacc).mpr (mergeConfig_bind.mpr ⟨_, _, hc,
      mergeStr_ok.mpr ⟨hp, rfl⟩, mergeStr_ok.mpr ⟨hl, rfl⟩, mergeStr_ok.mpr ⟨hv, rfl⟩⟩)⟩

lemma readConfig_getStr (hacc : i.Accepted) {cfg : ConfigTable}
    (h : readConfig i.load i.posixlyCorrect i.argv = .ok (some cfg)) (key : CStr) :
    configGetStr cfg key = i.merged key := by
  obtain ⟨cfg₁, cfg₂, hc, hp, hl, hv⟩ := mergeConfig_bind.mp ((readConfig_eq_ok hacc).mp h)
  have hfile : (i.load (if (givenOption i.opts 0x63).getD [] = [] then DEFAULT_CONFIG
      else (givenOption i.opts 0x63).getD [])).bind (fun keyfile => lastValue keyfile.pairs key) =
      i.fileValue key := by
    unfold fileValue cfgPath
    cases givenOption i.opts 0x63 with
    | none => rfl
    | some path => rfl
  rw [mergeStr_getStr hv, mergeStr_getStr hl, mergeStr_getStr hp, lookup_configInit,
    arrayOf_short (mergeStr_ok.mp hv).1, arrayOf_short (mergeStr_ok.mp hl).1,
    arrayOf_short (mergeStr_ok.mp hp).1, arrayOf_short hc, hfile]
  unfold merged
  exact given_ite (given_ite (given_ite rfl))

/-! ### Options and the file -/

lemma or_eq_self_iff {given value : Option CStr} :
    value = given.or value ↔ ∀ arg, given = some arg → value = some arg := by
  cases given with
  | none => exact iff_of_true rfl fun _ h => by cases h
  | some arg =>
    rw [Option.some_or]
    exact ⟨fun h _ harg => h.trans harg, fun h => h arg rfl⟩

lemma ite_eq_or_iff {given value : Option CStr} :
    (if given.getD [] ≠ [] then given else value) = given.or value ↔
      (given = some [] → value = some []) := by
  cases given with
  | none => exact iff_of_true rfl fun h => by cases h
  | some arg =>
    by_cases harg : arg = []
    · subst harg
      exact ⟨fun h _ => h, fun h => h rfl⟩
    · exact iff_of_true (if_pos harg) fun h => absurd (Option.some.inj h) harg

lemma ite_eq_iff {given value : Option CStr} :
    (if given.getD [] ≠ [] then given else value) = value ↔
      ∀ arg, given = some arg → arg ≠ [] → value = some arg := by
  cases given with
  | none => exact iff_of_true rfl fun _ h => by cases h
  | some arg =>
    by_cases harg : arg = []
    · exact iff_of_true (if_neg fun h => h harg) fun _ h hne =>
        absurd ((Option.some.inj h).symm.trans harg) hne
    · rw [if_pos (show (some arg).getD [] ≠ [] from harg), eq_comm]
      constructor
      · intro h _ harg _
        exact h.trans harg
      · intro h
        exact h arg rfl harg

lemma merged_vmlist : i.merged (cstr "vmlist") =
    if (givenOption i.opts 0x76).getD [] ≠ [] then givenOption i.opts 0x76
    else i.fileValue (cstr "vmlist") := by
  simp [merged, show cstr "vmlist" ≠ cstr "log_file" by decide,
    show cstr "vmlist" ≠ cstr "policy_file" by decide]

lemma merged_log_file : i.merged (cstr "log_file") =
    if (givenOption i.opts 0x6c).getD [] ≠ [] then givenOption i.opts 0x6c
    else i.fileValue (cstr "log_file") := by
  simp [merged, show cstr "log_file" ≠ cstr "vmlist" by decide,
    show cstr "log_file" ≠ cstr "policy_file" by decide]

lemma merged_policy_file : i.merged (cstr "policy_file") =
    if (givenOption i.opts 0x70).getD [] ≠ [] then givenOption i.opts 0x70
    else i.fileValue (cstr "policy_file") := by
  simp [merged, show cstr "policy_file" ≠ cstr "vmlist" by decide,
    show cstr "policy_file" ≠ cstr "log_file" by decide]

lemma merged_other {key : CStr} (hv : key ≠ cstr "vmlist") (hl : key ≠ cstr "log_file")
    (hp : key ≠ cstr "policy_file") : i.merged key = i.fileValue key := by
  simp only [merged, hv, hl, hp, false_and, if_false]

/-- Outside of the three keys that are read, only the two that are written can change. -/
lemma merged_rest_iff :
    (∀ key, key ∉ [cstr "policy-file", cstr "vmlist", cstr "log-dir"] →
      i.merged key = i.fileValue key) ↔
    i.merged (cstr "policy_file") = i.fileValue (cstr "policy_file") ∧
      i.merged (cstr "log_file") = i.fileValue (cstr "log_file") := by
  constructor
  · intro h
    exact ⟨h _ (by decide), h _ (by decide)⟩
  · rintro ⟨hp, hl⟩ key hkey
    by_cases hkp : key = cstr "policy_file"
    · rw [hkp, hp]
    · by_cases hkl : key = cstr "log_file"
      · rw [hkl, hl]
      · exact merged_other (fun h => hkey (by simp [h])) hkl hkp

lemma short_iff : i.Short ↔
    ∀ c ∈ cstr "pclv", ∀ arg, givenOption i.opts c = some arg → arg.length < 1024 :=
  forall_congr' fun c => imp_congr_right fun _ => length_arrayOf i.opts c

lemma settingsRight_iff (hacc : i.Accepted) : i.SettingsRight ↔ i.Short ∧
    i.merged (cstr "policy-file") =
      (givenOption i.opts 0x70).or (i.fileValue (cstr "policy-file")) ∧
    i.merged (cstr "vmlist") = (givenOption i.opts 0x76).or (i.fileValue (cstr "vmlist")) ∧
    i.merged (cstr "log-dir") = (givenOption i.opts 0x6c).or (i.fileValue (cstr "log-dir")) ∧
    ∀ key, key ∉ [cstr "policy-file", cstr "vmlist", cstr "log-dir"] →
      i.merged key = i.fileValue key := by
  constructor
  · rintro ⟨cfg, hcfg, h⟩
    simp only [readConfig_getStr hacc hcfg] at h
    exact ⟨(readConfig_iff hacc).mp ⟨cfg, hcfg⟩, h⟩
  · rintro ⟨hshort, h⟩
    obtain ⟨cfg, hcfg⟩ := (readConfig_iff hacc).mpr hshort
    refine ⟨cfg, hcfg, ?_⟩
    simp only [readConfig_getStr hacc hcfg]
    exact h

/-- The options come before the file exactly where the file says the same. -/
theorem settings_override_iff (i : ConfigInput) (hacc : i.Accepted) :
    i.SettingsRight ↔ i.FileAgrees := by
  rw [settingsRight_iff hacc, merged_rest_iff, short_iff, merged_vmlist, merged_log_file,
    merged_policy_file,
    merged_other (show cstr "policy-file" ≠ cstr "vmlist" by decide) (by decide) (by decide),
    merged_other (show cstr "log-dir" ≠ cstr "vmlist" by decide) (by decide) (by decide),
    or_eq_self_iff, ite_eq_or_iff, or_eq_self_iff, ite_eq_iff, ite_eq_iff]
  constructor
  · rintro ⟨hshort, hpolicy, hvmlist, hlog, hpolicy', hlog'⟩
    exact ⟨hshort, fun arg h => ⟨hpolicy arg h, hpolicy' arg h⟩,
      fun arg h => ⟨hlog arg h, hlog' arg h⟩, hvmlist⟩
  · rintro ⟨hshort, hpolicy, hlog, hvmlist⟩
    exact ⟨hshort, fun arg h => (hpolicy arg h).1, hvmlist, fun arg h => (hlog arg h).1,
      fun arg h => (hpolicy arg h).2, fun arg h => (hlog arg h).2⟩

/-- `hfm.cfg`, as far as the options are concerned. -/
def hfmCfg : GKeyFile where
  groups := [cstr "DEFAULT_GROUP"]
  keys group :=
    if group = cstr "DEFAULT_GROUP" then some [cstr "vmlist", cstr "policy-file"] else none
  value group key :=
    if group ≠ cstr "DEFAULT_GROUP" then none
    else if key = cstr "vmlist" then some (cstr "windows")
    else if key = cstr "policy-file" then some (cstr "/etc/hfm/policy.cfg")
    else none

def hfmInput (argv : List CStr) : ConfigInput where
  load path := if path = DEFAULT_CONFIG then some hfmCfg else none
  posixlyCorrect := false
  argv := argv

/-- `-v win7`. -/
theorem settings_override_vmlist :
    (hfmInput [cstr "-v", cstr "win7"]).Accepted ∧
      ((hfmInput [cstr "-v", cstr "win7"]).SettingsRight ↔
        (hfmInput [cstr "-v", cstr "win7"]).FileAgrees) :=
  have hacc : (hfmInput [cstr "-v", cstr "win7"]).Accepted := by decide
  ⟨hacc, settings_override_iff _ hacc⟩

/-- `-p /root/p.cfg` leaves the policy file as it is in `hfm.cfg`. -/
theorem policyFile_not_overridden :
    (hfmInput [cstr "-p", cstr "/root/p.cfg"]).Accepted ∧
      ¬ (hfmInput [cstr "-p", cstr "/root/p.cfg"]).SettingsRight := by
  have hacc : (hfmInput [cstr "-p", cstr "/root/p.cfg"]).Accepted := by decide
  refine ⟨hacc, fun h => ?_⟩
  have hpolicy := ((settingsRight_iff hacc).mp h).2.1
  revert hpolicy
  decide

end ConfigInput

end Hfm

import Hfm.Policy
import Hfm.Support.Text
import Mathlib.Data.List.TakeWhile

/-!
# What a policy file says

The format of a line, as it is meant, next to `get_policies`. A line is what stands in front
of a line feed.
-/

namespace Hfm

open Support

def isBlank (c : UInt8) : Bool := c = 0x20 || c = 0x09 || c = 0x0d || c = 0x0a

def isDoubleQuote (c : UInt8) : Bool := c = 0x22

/-- The number that a token starts with. -/
def leadingInt (s : CStr) : Int :=
  let s := s.dropWhile isspace
  let (neg, s) :=
    match s with
    | 0x2d :: s => (true, s)
    | 0x2b :: s => (false, s)
    | s => (false, s)
  let n := (s.takeWhile isdigit).foldl (fun (n : Nat) c => 10 * n + (c.toNat - 0x30)) 0
  if neg then -(n : Int) else n

def severityNames : List (CStr × Severity) :=
  [(cstr "WARNING", .warning), (cstr "CRITICAL", .critical)]

def actionNames : List (CStr × Monitor) :=
  [(cstr "CREATE", .create), (cstr "DELETE", .delete), (cstr "MODIFY_CONTENT", .modifyContent),
    (cstr "CHANGE_ATTR", .changeAttr), (cstr "CHANGE_ACCESS", .changeAccess)]

/-- What a token names, in letters of any case. -/
def named {α : Type} (names : List (CStr × α)) (token : CStr) : Option α :=
  (names.find? fun name => strcicmpEq token name.1).map Prod.snd

/-- One of the tokens behind the path, split at double quotes too, is the option. -/
def hasExtract (rest : List CStr) : Bool :=
  rest.any fun token => (tokens isDoubleQuote token).any fun opt => strcicmpEq opt (cstr "EXTRACT")

/-- A comment or an empty line, up to leading spaces and tabs. -/
def IgnoredLine (line : CStr) : Prop :=
  match line.dropWhile (fun c => c = 0x20 || c = 0x09) with
  | [] => True
  | c :: _ => c = 0x23 ∨ c = 0x0d

instance (line : CStr) : Decidable (IgnoredLine line) := by
  unfold IgnoredLine
  split <;> infer_instance

/-- The policy that a valid line states. -/
def linePolicy (line : CStr) : Option Policy :=
  if IgnoredLine line then none
  else
    match tokens isBlank line with
    | id :: severity :: action :: path :: rest =>
      match named severityNames severity, named actionNames action with
      | some severity, some type =>
        if leadingInt id = 0 then none
        else
          some
            { id := leadingInt id, path, type, severity
              options := if hasExtract rest then POLICY_OPTIONS_EXTRACT else 0 }
      | _, _ => none
    | _ => none

/-- A line as it may stand in a file: a carriage return only in front of the line feed, room
in the buffer, and at least the three tokens that the parser relies on. -/
structure LineOk (line : CStr) : Prop where
  nul : 0 ∉ line
  lf : (0x0a : UInt8) ∉ line
  cr : (0x0d : UInt8) ∉ line.dropLast
  short : line.length < STR_BUFF - 1
  fields : ¬IgnoredLine line → 3 ≤ (tokens isBlank line).length ∧
    ∀ id ∈ (tokens isBlank line).head?, -2 ^ 31 ≤ leadingInt id ∧ leadingInt id < 2 ^ 31

/-! ### The C library on tokens -/

section Strtok

variable {p : UInt8 → Bool} {delim : CStr}

lemma strtok_none (hp : ∀ c, delim.contains c = p c) {s : CStr} (h : tokens p s = []) :
    strtok s delim = (none, []) := by
  have hp : (delim.contains ·) = p := funext hp
  rw [tokens_split] at h
  unfold strtok
  rw [hp]
  cases hs : s.dropWhile p with
  | nil => rfl
  | cons c s' =>
    rw [hs] at h
    cases h

lemma strtok_some (hp : ∀ c, delim.contains c = p c) {s token : CStr} {rest : List CStr}
    (h : tokens p s = token :: rest) :
    ∃ s', strtok s delim = (some token, s') ∧ tokens p s' = rest ∧ s' <:+ s ∧
      s'.length < s.length := by
  have hp : (delim.contains ·) = p := funext hp
  have hnot : (fun c => !delim.contains c) = fun c => !p c := by
    funext c
    rw [← hp]
  rw [tokens_split] at h
  unfold strtok
  rw [hp, hnot]
  cases hs : s.dropWhile p with
  | nil =>
    rw [hs] at h
    cases h
  | cons c s' =>
    rw [hs] at h
    dsimp only at h
    rw [List.cons.injEq] at h
    obtain ⟨rfl, hrest⟩ := h
    have hsuffix : c :: s' <:+ s := by
      rw [← hs]
      exact List.dropWhile_suffix p
    refine ⟨_, if_neg (List.cons_ne_nil _ _), hrest, ?_, ?_⟩
    · exact (List.drop_suffix _ _).trans ((List.dropWhile_suffix _).trans hsuffix)
    · have hle := hsuffix.length_le
      have hle' := (List.dropWhile_suffix (l := c :: s') (!p ·)).length_le
      rw [List.length_drop]
      rw [List.length_cons] at hle hle'
      omega

end Strtok

/-! ### One line -/

lemma atoi_eq {token : CStr} (h : -2 ^ 31 ≤ leadingInt token ∧ leadingInt token < 2 ^ 31) :
    atoi (some token) = .ok (leadingInt token) := by
  have hstrtol : strtol token = max (-2 ^ 63) (min (2 ^ 63 - 1) (leadingInt token)) := rfl
  have hbmod : (strtol token).bmod (2 ^ 32) = leadingInt token := by
    rw [hstrtol, max_eq_right (by omega), min_eq_right (by omega)]
    exact Int.bmod_eq_of_le (by omega) (by omega)
  rw [atoi, hbmod]

lemma lookupSeverity_eq (token : CStr) :
    lookupSeverity (some token) = .ok ((named severityNames token).getD .invalid) := by
  unfold lookupSeverity named severityNames
  simp only [List.find?_cons, List.find?_nil]
  cases strcicmpEq token (cstr "WARNING") with
  | true => rfl
  | false => cases strcicmpEq token (cstr "CRITICAL") <;> rfl

lemma lookupAction_eq (token : CStr) :
    lookupAction (some token) = .ok ((named actionNames token).getD .invalid) := by
  unfold lookupAction named actionNames
  simp only [List.find?_cons, List.find?_nil]
  cases strcicmpEq token (cstr "CREATE") with
  | true => rfl
  | false =>
    cases strcicmpEq token (cstr "DELETE") with
    | true => rfl
    | false =>
      cases strcicmpEq token (cstr "MODIFY_CONTENT") with
      | true => rfl
      | false =>
        cases strcicmpEq token (cstr "CHANGE_ATTR") with
        | true => rfl
        | false => cases strcicmpEq token (cstr "CHANGE_ACCESS") <;> rfl

def isOptionSep (c : UInt8) : Bool := (cstr " \t\n\"").contains c

lemma optionTokens_eq (fuel : Nat) : ∀ (s : CStr) (options : UInt8), s.length < fuel →
    optionTokens fuel s options =
      if (tokens isOptionSep s).any (strcicmpEq · (cstr "EXTRACT")) then
        options ||| POLICY_OPTIONS_EXTRACT
      else options := by
  induction fuel with
  | zero => exact fun _ _ h => absurd h (Nat.not_lt_zero _)
  | succ fuel ih =>
    intro s options hlen
    rw [optionTokens]
    cases htokens : tokens isOptionSep s with
    | nil =>
      rw [strtok_none (fun _ => rfl) htokens]
      rfl
    | cons opt rest =>
      obtain ⟨s', hstrtok, hrest, -, hlt⟩ := strtok_some (p := isOptionSep) (fun _ => rfl) htokens
      rw [hstrtok]
      dsimp only
      rw [ih s' _ (by omega), hrest, List.any_cons]
      cases strcicmpEq opt (cstr "EXTRACT") with
      | false => simp
      | true =>
        cases rest.any (strcicmpEq · (cstr "EXTRACT")) with
        | false => simp
        | true => simp [UInt8.or_assoc]

def isLineEnd (c : UInt8) : Bool := (cstr "\r\n").contains c

/-- Nothing stands behind the end of the line. -/
def Ended (s : CStr) : Prop :=
  ∃ body e, s = body ++ e ∧ (∀ c ∈ body, isLineEnd c = false) ∧ ∀ c ∈ e, isLineEnd c = true

lemma Ended.suffix {s s' : CStr} (h : Ended s) (hs : s' <:+ s) : Ended s' := by
  obtain ⟨body, e, rfl, hbody, he⟩ := h
  obtain ⟨front, heq⟩ := hs
  rcases List.append_eq_append_iff.mp heq with ⟨mid, rfl, rfl⟩ | ⟨mid, rfl, rfl⟩
  · exact ⟨mid, e, rfl, fun c hc => hbody c (List.mem_append_right _ hc), he⟩
  · exact ⟨[], s', rfl, by simp, fun c hc => he c (List.mem_append_right _ hc)⟩

lemma mem_lineEnd {c : UInt8} : isLineEnd c = true ↔ c = 0x0d ∨ c = 0x0a := by
  unfold isLineEnd
  rw [List.contains_iff_mem, show cstr "\r\n" = [0x0d, 0x0a] from rfl]
  simp

lemma isBlank_of_lineEnd (c : UInt8) (h : isLineEnd c = true) : isBlank c = true := by
  rcases mem_lineEnd.mp h with rfl | rfl <;> decide

/-- The options of the rest of a line. -/
lemma parseOptions_eq {s : CStr} (h : Ended s) :
    parseOptions (strtok s (cstr "\r\n")).1 =
      if hasExtract (tokens isBlank s) then POLICY_OPTIONS_EXTRACT else 0 := by
  obtain ⟨body, e, rfl, hbody, he⟩ := h
  have hblank : tokens isBlank (body ++ e) = tokens isBlank body :=
    tokens_append_seps body fun c hc => isBlank_of_lineEnd c (he c hc)
  have hends : tokens isLineEnd (body ++ e) = tokens isLineEnd body := tokens_append_seps body he
  rw [hblank]
  cases body with
  | nil =>
    rw [strtok_none (fun _ => rfl) hends]
    rfl
  | cons c body =>
    rw [tokens_singleton hbody (List.cons_ne_nil _ _)] at hends
    obtain ⟨s', hstrtok, -⟩ := strtok_some (fun _ => rfl) hends
    rw [hstrtok]
    dsimp only [parseOptions]
    rw [optionTokens_eq _ _ _ (Nat.lt_succ_self _)]
    have hsep : tokens isOptionSep (c :: body) =
        (tokens isBlank (c :: body)).flatMap (tokens isDoubleQuote) := by
      rw [← tokens_or]
      apply tokens_congr
      intro d hd
      have hnot : ¬(d = 0x0d ∨ d = 0x0a) := by
        rw [← mem_lineEnd, hbody d hd]
        exact Bool.false_ne_true
      rw [Bool.eq_iff_iff]
      unfold isOptionSep isBlank isDoubleQuote
      rw [List.contains_iff_mem, show cstr " \t\n\"" = [0x20, 0x09, 0x0a, 0x22] from rfl]
      simp only [List.mem_cons, List.not_mem_nil, or_false, Bool.or_eq_true, decide_eq_true_eq]
      tauto
    rw [hsep, hasExtract, List.any_flatMap]
    simp only [UInt8.zero_or]

lemma contains_blank (c : UInt8) : (cstr " \t\r\n").contains c = isBlank c := by
  rw [Bool.eq_iff_iff, List.contains_iff_mem, show cstr " \t\r\n" = [0x20, 0x09, 0x0d, 0x0a] from rfl]
  unfold isBlank
  simp only [List.mem_cons, List.not_mem_nil, or_false, Bool.or_eq_true, decide_eq_true_eq]
  tauto

/-- The policy that the parser makes of the tokens of a line. -/
lemma parsePolicy_eq {s id severity action : CStr} {rest : List CStr} (h : Ended s)
    (htokens : tokens isBlank s = id :: severity :: action :: rest)
    (hid : -2 ^ 31 ≤ leadingInt id ∧ leadingInt id < 2 ^ 31) :
    parsePolicy s = .ok
      { id := leadingInt id
        path := rest.head?.getD []
        type := (named actionNames action).getD .invalid
        options := if hasExtract rest.tail then POLICY_OPTIONS_EXTRACT else 0
        severity := (named severityNames severity).getD .invalid } := by
  obtain ⟨s₁, h₁, ht₁, hs₁, -⟩ := strtok_some contains_blank htokens
  obtain ⟨s₂, h₂, ht₂, hs₂, -⟩ := strtok_some contains_blank ht₁
  obtain ⟨s₃, h₃, ht₃, hs₃, -⟩ := strtok_some contains_blank ht₂
  have hpath : ∃ s₄, strtok s₃ (cstr " \t\r\n") = (rest.head?, s₄) ∧ tokens isBlank s₄ = rest.tail ∧
      Ended s₄ := by
    cases rest with
    | nil => exact ⟨[], strtok_none contains_blank ht₃, rfl, [], [], rfl, by simp, by simp⟩
    | cons path rest =>
      obtain ⟨s₄, h₄, ht₄, hs₄, -⟩ := strtok_some contains_blank ht₃
      exact ⟨s₄, h₄, ht₄, h.suffix (hs₄.trans (hs₃.trans (hs₂.trans hs₁)))⟩
  obtain ⟨s₄, h₄, ht₄, hended⟩ := hpath
  have hoptions := parseOptions_eq hended
  rw [ht₄] at hoptions
  unfold parsePolicy
  simp only [h₁, h₂, h₃, h₄, atoi_eq hid, lookupSeverity_eq, lookupAction_eq, hoptions, bind,
    Except.bind, pure, Except.pure]

lemma fgets_line {line : CStr} (hlf : (0x0a : UInt8) ∉ line) : ∀ {n : Nat} (file : List UInt8),
    line.length < n → fgets n (line ++ 0x0a :: file) = (line ++ [0x0a], file) := by
  induction line with
  | nil =>
    intro n file hn
    cases n with
    | zero => exact absurd hn (Nat.not_lt_zero _)
    | succ n => rfl
  | cons c line ih =>
    intro n file hn
    cases n with
    | zero => exact absurd hn (Nat.not_lt_zero _)
    | succ n =>
      rw [List.mem_cons, not_or] at hlf
      rw [List.cons_append, fgets, if_neg (Ne.symm hlf.1),
        ih hlf.2 file (by simpa using hn)]
      rfl

section LineOk

variable {line : CStr} (h : LineOk line)
include h

lemma LineOk.cString : cString (line ++ [0x0a]) = line ++ [0x0a] := by
  unfold Hfm.cString
  rw [List.takeWhile_eq_self_iff]
  intro c hc
  rcases List.mem_append.mp hc with hc | hc
  · have : c ≠ 0 := fun heq => h.nul (heq ▸ hc)
    simpa using this
  · rw [List.mem_singleton.mp hc]
    decide

lemma LineOk.ended : Ended (line ++ [0x0a]) := by
  have hbody : ∀ c ∈ line.dropLast, isLineEnd c = false := by
    intro c hc
    rw [← Bool.not_eq_true, mem_lineEnd]
    rintro (rfl | rfl)
    · exact h.cr hc
    · exact h.lf (List.dropLast_subset line hc)
  cases hlast : line.getLast? with
  | none =>
    rw [List.getLast?_eq_none_iff] at hlast
    rw [hlast]
    exact ⟨[], [0x0a], rfl, by simp, List.forall_mem_singleton.mpr rfl⟩
  | some c =>
    have hline : line = line.dropLast ++ [c] := (List.dropLast_append_getLast? c hlast).symm
    cases hc : isLineEnd c with
    | true =>
      refine ⟨line.dropLast, [c, 0x0a], ?_, hbody, ?_⟩
      · conv_lhs => rw [hline]
        simp
      · intro d hd
        rcases List.mem_cons.mp hd with rfl | hd
        · exact hc
        · rw [List.mem_singleton.mp hd]
          decide
    | false =>
      refine ⟨line, [0x0a], rfl, ?_, List.forall_mem_singleton.mpr rfl⟩
      rw [hline]
      intro d hd
      rcases List.mem_append.mp hd with hd | hd
      · exact hbody d hd
      · rwa [List.mem_singleton.mp hd]

end LineOk

lemma trimLeft_line (line : CStr) : trimLeft (line ++ [0x0a]) =
    line.dropWhile (fun c => c = 0x20 || c = 0x09) ++ [0x0a] := by
  unfold trimLeft
  rw [List.dropWhile_append]
  split
  · rename_i hempty
    rw [List.isEmpty_iff.mp hempty]
    rfl
  · rfl

lemma mem_named {α : Type} {names : List (CStr × α)} {token : CStr} {a : α}
    (h : named names token = some a) : a ∈ names.map Prod.snd := by
  obtain ⟨name, hfind, rfl⟩ := Option.map_eq_some_iff.mp h
  exact List.mem_map_of_mem (List.mem_of_find?_eq_some hfind)

lemma token_ne_nil {s token : CStr} (h : token ∈ tokens isBlank s) : token ≠ [] := by
  have := (List.mem_filter.mp h).2
  simpa using this

lemma ignored_iff {line : CStr} (hlf : (0x0a : UInt8) ∉ line) :
    ignored (line.dropWhile (fun c => c = 0x20 || c = 0x09) ++ [0x0a]) = true ↔ IgnoredLine line := by
  unfold ignored IgnoredLine
  have hsub := (List.dropWhile_suffix (l := line) (fun c => c = 0x20 || c = 0x09)).subset
  cases hs : line.dropWhile (fun c => c = 0x20 || c = 0x09) with
  | nil => simp
  | cons c s =>
    rw [hs] at hsub
    have hc : c ≠ 0x0a := fun heq => hlf (heq ▸ hsub List.mem_cons_self)
    simp [hc]

/-- The parser agrees with the format on every line. -/
lemma LineOk.policyLine {line : CStr} (h : LineOk line) (linecnt : Nat) (policies : PolicyTable) :
    ∃ invalid, policyLine linecnt (line ++ [0x0a]) policies = .ok
      ⟨(linePolicy line).elim policies.table fun p => policies.table.insert p.id p, invalid⟩ := by
  unfold Hfm.policyLine
  dsimp only
  rw [h.cString, trimLeft_line]
  have hended : Ended (line.dropWhile (fun c => c = 0x20 || c = 0x09) ++ [0x0a]) := by
    rw [← trimLeft_line]
    exact h.ended.suffix (List.dropWhile_suffix _)
  have htokens : tokens isBlank (line.dropWhile (fun c => c = 0x20 || c = 0x09) ++ [0x0a]) =
      tokens isBlank line := by
    rw [tokens_append_seps _ (List.forall_mem_singleton.mpr rfl)]
    apply tokens_dropWhile
    intro c hc
    unfold isBlank
    rw [hc]
    rfl
  have hignored := ignored_iff h.lf
  by_cases hign : IgnoredLine line
  · rw [if_pos (hignored.mpr hign), linePolicy, if_pos hign]
    exact ⟨policies.invalid, rfl⟩
  rw [if_neg (fun h => hign (hignored.mp h)), linePolicy, if_neg hign]
  obtain ⟨hthree, hint⟩ := h.fields hign
  match hline : tokens isBlank line, hthree with
  | id :: severity :: action :: rest, _ =>
    rw [hline] at hint
    rw [parsePolicy_eq hended (htokens.trans hline) (hint id rfl)]
    simp only [bind, Except.bind, pure, Except.pure]
    cases rest with
    | nil =>
      refine ⟨policies.invalid ++ [linecnt], ?_⟩
      simp [checkValid]
    | cons path rest =>
      have hpath : path ≠ [] := token_ne_nil (s := line) (by rw [hline]; simp)
      dsimp only
      cases hsev : named severityNames severity with
      | none =>
        refine ⟨policies.invalid ++ [linecnt], ?_⟩
        simp [checkValid]
      | some sev =>
        have hsev' : sev ≠ .invalid := by
          rintro rfl
          exact absurd (mem_named hsev) (by decide)
        cases hact : named actionNames action with
        | none =>
          refine ⟨policies.invalid ++ [linecnt], ?_⟩
          simp [checkValid]
        | some act =>
          have hact' : act ≠ .invalid := by
            rintro rfl
            exact absurd (mem_named hact) (by decide)
          by_cases hzero : leadingInt id = 0
          · refine ⟨policies.invalid ++ [linecnt], ?_⟩
            simp [checkValid, hzero]
          · refine ⟨policies.invalid, ?_⟩
            simp [checkValid, hzero, hsev', hact', hpath]
            rfl

/-! ### The whole file -/

/-- The policy of the last valid line with the identifier. -/
def lastPolicy (lines : List CStr) (id : Int) : Option Policy :=
  (lines.filterMap linePolicy).reverse.find? (·.id = id)

lemma policyLines_eq (lines : List CStr) : ∀ {fuel : Nat} (linecnt : Nat) (policies : PolicyTable),
    (∀ line ∈ lines, LineOk line) → (lines.flatMap (· ++ [0x0a])).length ≤ fuel →
      ∃ policies', policyLines fuel linecnt (lines.flatMap (· ++ [0x0a])) policies = .ok policies' ∧
        ∀ id, policies'.table.lookup id = (lastPolicy lines id).or (policies.table.lookup id) := by
  induction lines with
  | nil =>
    intro fuel linecnt policies _ _
    refine ⟨policies, ?_, fun id => rfl⟩
    cases fuel <;> rfl
  | cons line lines ih =>
    intro fuel linecnt policies hok hfuel
    have hline := hok line List.mem_cons_self
    rw [List.flatMap_cons, List.append_assoc, List.singleton_append] at hfuel ⊢
    cases fuel with
    | zero => simp at hfuel
    | succ fuel =>
      have hlen : (lines.flatMap (· ++ [0x0a])).length ≤ fuel := by
        simp only [List.length_append, List.length_cons] at hfuel
        omega
      obtain ⟨invalid, hpolicy⟩ := hline.policyLine (linecnt + 1) policies
      obtain ⟨policies', hrest, hlookup⟩ :=
        ih _ _ (fun l hl => hok l (List.mem_cons_of_mem _ hl)) hlen
      refine ⟨policies', ?_, fun id => ?_⟩
      · rw [policyLines, if_neg (by simp), fgets_line hline.lf _ hline.short]
        dsimp only
        rw [hpolicy]
        exact hrest
      · rw [hlookup]
        unfold lastPolicy
        rw [List.filterMap_cons]
        cases linePolicy line with
        | none => rfl
        | some policy =>
          rw [List.reverse_cons, List.find?_append, Option.or_assoc]
          congr 1
          change AList.lookup id (policies.table.insert policy.id policy) = _
          by_cases hid : policy.id = id
          · subst hid
            rw [AList.lookup_insert]
            simp
          · rw [AList.lookup_insert_ne (Ne.symm hid)]
            simp [hid]

/-- A file of such lines is parsed to the table of what they say. -/
theorem getPolicies_exact {lines : List CStr} (hok : ∀ line ∈ lines, LineOk line) :
    ∃ policies, getPolicies (some (lines.flatMap (· ++ [0x0a]))) = .ok (some policies) ∧
      ∀ id, policies.table.lookup id = lastPolicy lines id := by
  obtain ⟨policies, hlines, hlookup⟩ := policyLines_eq lines 0 ⟨∅, []⟩ hok (Nat.le_refl _)
  refine ⟨policies, ?_, fun id => ?_⟩
  · rw [getPolicies, hlines]
    rfl
  · rw [hlookup]
    simp

def extractLine : CStr := cstr "7 warning create /a \"extract\""

theorem getPolicies_exact_extract :
    lastPolicy [extractLine] 7 =
      some ⟨7, cstr "/a", .create, POLICY_OPTIONS_EXTRACT, .warning⟩ ∧
    ∃ policies, getPolicies (some ([extractLine].flatMap (· ++ [0x0a]))) = .ok (some policies) ∧
      ∀ id, policies.table.lookup id = lastPolicy [extractLine] id := by
  have hok : LineOk extractLine := ⟨by decide, by decide, by decide, by decide, fun _ => by decide⟩
  refine ⟨by decide, getPolicies_exact fun line hline => ?_⟩
  rwa [List.mem_singleton.mp hline]

end Hfm

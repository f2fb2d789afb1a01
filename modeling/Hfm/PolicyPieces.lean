import Hfm.PolicyFile

/-!
# Policy files of any shape

`fgets` hands out a line of the file, or a piece of one that does not fit in the buffer. The
loop of `get_policies` takes every piece for a line, and reads up to four fields of it before
anything is checked.
-/

namespace Hfm

open Support

/-! ### Lines and pieces -/

/-- The lines of a file, each with its line feed, if it has one. -/
def physicalLines : List UInt8 → List (List UInt8)
  | [] => []
  | c :: file =>
    if c = 0x0a then [c] :: physicalLines file
    else
      match physicalLines file with
      | [] => [[c]]
      | line :: lines => (c :: line) :: lines

/-- What `fgets` takes at most. -/
def PIECE_LEN : Nat := STR_BUFF - 1

/-- A line cut into stretches of at most `PIECE_LEN` bytes. -/
def cutLine : Nat → List UInt8 → List (List UInt8)
  | 0, _ => []
  | fuel + 1, line => if line = [] then [] else line.take PIECE_LEN :: cutLine fuel (line.drop PIECE_LEN)

/-- The pieces in which `fgets` hands out a line. -/
def pieces (line : List UInt8) : List (List UInt8) := cutLine line.length line

/-- The policy that the loop inserts for one piece, if any. -/
def pieceInserts (buff : List UInt8) : Except Fault (Option Policy) :=
  let line := trimLeft (cString buff)
  if ignored line then .ok none
  else do
    let policy ← parsePolicy line
    return if checkValid policy then some policy else none

/-- The policies it inserts for the pieces of one line. -/
def lineInserts (line : List UInt8) : Except Fault (List (Option Policy)) :=
  (pieces line).mapM pieceInserts

def insertAll (table : GHashTable Int Policy) (inserted : List (Option Policy)) :
    GHashTable Int Policy :=
  inserted.foldl (fun table policy => policy.elim table fun p => table.insert p.id p) table

lemma physicalLines_flatten (file : List UInt8) : (physicalLines file).flatten = file := by
  induction file with
  | nil => rfl
  | cons c file ih =>
    rw [physicalLines]
    split
    · rw [List.flatten_cons, ih]
      rfl
    · split
      · rename_i hlines
        rw [hlines] at ih
        rw [← ih]
        rfl
      · rename_i line lines hlines
        rw [hlines] at ih
        rw [← ih]
        rfl

lemma physicalLines_eq_nil {file : List UInt8} : physicalLines file = [] ↔ file = [] := by
  constructor
  · intro h
    rw [← physicalLines_flatten file, h]
    rfl
  · rintro rfl
    rfl

lemma line_ne_nil {file line : List UInt8} (h : line ∈ physicalLines file) : line ≠ [] := by
  induction file generalizing line with
  | nil => cases h
  | cons c file ih =>
    rw [physicalLines] at h
    split at h
    · rcases List.mem_cons.mp h with rfl | h
      · exact List.cons_ne_nil _ _
      · exact ih h
    · split at h
      · rw [List.mem_singleton.mp h]
        exact List.cons_ne_nil _ _
      · rename_i line' lines hlines
        rcases List.mem_cons.mp h with rfl | h
        · exact List.cons_ne_nil _ _
        · exact ih (hlines ▸ List.mem_cons_of_mem _ h)

/-- What is left of a file whose first line was read up to byte `k`. -/
lemma physicalLines_drop : ∀ {file line : List UInt8} {lines : List (List UInt8)} {k : Nat},
    physicalLines file = line :: lines → k ≤ line.length →
    physicalLines (file.drop k) = if line.drop k = [] then lines else line.drop k :: lines := by
  intro file
  induction file with
  | nil => exact fun h => by cases h
  | cons c file ih =>
    intro line lines k h hk
    cases k with
    | zero =>
      rw [List.drop_zero, List.drop_zero, h, if_neg (line_ne_nil (h ▸ List.mem_cons_self))]
    | succ k =>
      rw [List.drop_succ_cons]
      rw [physicalLines] at h
      split at h
      · cases h
        obtain rfl : k = 0 := by simpa using hk
        rfl
      · split at h
        · rename_i hlines
          cases h
          rw [physicalLines_eq_nil.mp hlines, List.drop_nil]
          simp [physicalLines]
        · rename_i line' lines' hlines
          cases h
          rw [List.drop_succ_cons]
          exact ih hlines (by simpa using hk)

/-- `fgets` takes the first line, or as much of it as there is room for. -/
lemma fgets_eq : ∀ {file line : List UInt8} {lines : List (List UInt8)} {n : Nat},
    physicalLines file = line :: lines → fgets n file = (line.take n, file.drop (min n line.length)) := by
  intro file
  induction file with
  | nil => exact fun h => by cases h
  | cons c file ih =>
    intro line lines n h
    cases n with
    | zero => simp [fgets]
    | succ n =>
      rw [fgets]
      rw [physicalLines] at h
      split at h
      · rename_i hlf
        cases h
        rw [if_pos hlf]
        simp
      · rename_i hlf
        rw [if_neg hlf]
        split at h
        · rename_i hlines
          cases h
          rw [physicalLines_eq_nil.mp hlines]
          cases n <;> simp [fgets]
        · rename_i line' lines' hlines
          cases h
          rw [ih hlines, List.take_succ_cons, List.length_cons, Nat.succ_min_succ, List.drop_succ_cons]

lemma cutLine_fuel (fuel : Nat) : ∀ {fuel' : Nat} {line : List UInt8}, line.length ≤ fuel →
    line.length ≤ fuel' → cutLine fuel line = cutLine fuel' line := by
  induction fuel with
  | zero =>
    intro fuel' line h h'
    rw [List.eq_nil_of_length_eq_zero (by omega : line.length = 0)]
    cases fuel' <;> rfl
  | succ fuel ih =>
    intro fuel' line h h'
    by_cases hnil : line = []
    · rw [hnil]
      cases fuel' <;> rfl
    · have hpos := List.length_pos_iff.mpr hnil
      obtain ⟨fuel', rfl⟩ : ∃ k, fuel' = k + 1 := ⟨fuel' - 1, by omega⟩
      have hdrop : (line.drop PIECE_LEN).length + 1 ≤ line.length := by
        rw [List.length_drop]
        unfold PIECE_LEN STR_BUFF
        omega
      rw [cutLine, cutLine, ih (by omega) (by omega : (line.drop PIECE_LEN).length ≤ fuel')]

lemma pieces_eq {line : List UInt8} (hne : line ≠ []) :
    pieces line = line.take PIECE_LEN :: pieces (line.drop PIECE_LEN) := by
  have hpos := List.length_pos_iff.mpr hne
  have hdrop : (line.drop PIECE_LEN).length + 1 ≤ line.length := by
    rw [List.length_drop]
    unfold PIECE_LEN STR_BUFF
    omega
  unfold pieces
  obtain ⟨k, hk⟩ : ∃ k, line.length = k + 1 := ⟨line.length - 1, by omega⟩
  rw [hk, cutLine, if_neg hne, cutLine_fuel k (by omega) (Nat.le_refl _)]

/-- Behind the first piece of a file stand the others. -/
lemma pieces_step {file line : List UInt8} {lines : List (List UInt8)}
    (h : physicalLines file = line :: lines) :
    ∃ file', fgets PIECE_LEN file = (line.take PIECE_LEN, file') ∧ file'.length < file.length ∧
      (physicalLines file).flatMap pieces =
        line.take PIECE_LEN :: (physicalLines file').flatMap pieces := by
  have hne : line ≠ [] := line_ne_nil (h ▸ List.mem_cons_self)
  have hpos := List.length_pos_iff.mpr hne
  refine ⟨_, fgets_eq h, ?_, ?_⟩
  · have hfile : line.length ≤ file.length := by
      rw [← physicalLines_flatten file, h, List.flatten_cons, List.length_append]
      omega
    rw [List.length_drop]
    unfold PIECE_LEN STR_BUFF
    omega
  · have hdrop : line.drop (min PIECE_LEN line.length) = line.drop PIECE_LEN := by
      rcases Nat.le_total PIECE_LEN line.length with hle | hle
      · rw [Nat.min_eq_left hle]
      · rw [Nat.min_eq_right hle, List.drop_length, List.drop_of_length_le hle]
    rw [physicalLines_drop h (Nat.min_le_right _ _), hdrop, h, List.flatMap_cons, pieces_eq hne]
    split
    · rename_i hnil
      rw [hnil]
      rfl
    · rfl

/-! ### One piece -/

/-- A line that is neither a comment nor empty, with a valid identifier, severity and action, and
with a path. -/
def PolicyLine (line : List UInt8) : Prop :=
  ignored (trimLeft line) = false ∧
    match tokens isBlank line with
    | id :: severity :: action :: _ :: _ =>
      (strtol id).bmod (2 ^ 32) ≠ 0 ∧ named severityNames severity ≠ none ∧
        named actionNames action ≠ none
    | _ => False

/-- The fields that `get_policies` looks up before it checks any of them. -/
def FieldsPresent (piece : List UInt8) : Prop :=
  ignored (trimLeft piece) = false → 3 ≤ (tokens isBlank piece).length

lemma tokens_trimLeft (line : CStr) : tokens isBlank (trimLeft line) = tokens isBlank line := by
  apply tokens_dropWhile
  intro c hc
  unfold isBlank
  rw [hc]
  rfl

/-- With fewer than three tokens a lookup is handed NULL. -/
lemma parsePolicy_missing {s : CStr} (h : (tokens isBlank s).length < 3) :
    ∃ fault, parsePolicy s = .error fault := by
  unfold parsePolicy
  match ht : tokens isBlank s with
  | [] =>
    simp only [strtok_none contains_blank ht]
    exact ⟨_, rfl⟩
  | [id] =>
    obtain ⟨s₁, h₁, ht₁, -⟩ := strtok_some contains_blank ht
    simp only [h₁, strtok_none contains_blank ht₁]
    exact ⟨_, rfl⟩
  | [id, severity] =>
    obtain ⟨s₁, h₁, ht₁, -⟩ := strtok_some contains_blank ht
    obtain ⟨s₂, h₂, ht₂, -⟩ := strtok_some contains_blank ht₁
    simp only [h₁, h₂, strtok_none contains_blank ht₂, lookupSeverity_eq]
    exact ⟨_, rfl⟩
  | id :: severity :: action :: rest =>
    rw [ht] at h
    simp only [List.length_cons] at h
    omega

lemma parsePolicy_fields {s id severity action : CStr} {rest : List CStr}
    (ht : tokens isBlank s = id :: severity :: action :: rest) : ∃ options, parsePolicy s = .ok
      { id := (strtol id).bmod (2 ^ 32), path := rest.head?.getD []
        type := (named actionNames action).getD .invalid, options
        severity := (named severityNames severity).getD .invalid } := by
  obtain ⟨s₁, h₁, ht₁, -⟩ := strtok_some contains_blank ht
  obtain ⟨s₂, h₂, ht₂, -⟩ := strtok_some contains_blank ht₁
  obtain ⟨s₃, h₃, ht₃, -⟩ := strtok_some contains_blank ht₂
  have hpath : (strtok s₃ (cstr " \t\r\n")).1 = rest.head? := by
    cases rest with
    | nil => rw [strtok_none contains_blank ht₃]; rfl
    | cons path rest =>
      obtain ⟨s₄, h₄, -⟩ := strtok_some contains_blank ht₃
      rw [h₄]
      rfl
  refine ⟨parseOptions (strtok (strtok s₃ (cstr " \t\r\n")).2 (cstr "\r\n")).1, ?_⟩
  unfold parsePolicy
  simp only [h₁, h₂, h₃, atoi, lookupSeverity_eq, lookupAction_eq, ← hpath, bind, Except.bind, pure,
    Except.pure]

lemma named_valid {α : Type} {names : List (CStr × α)} {a : α} (ha : a ∉ names.map Prod.snd)
    (token : CStr) : (named names token).getD a = a ↔ named names token = none := by
  cases hn : named names token with
  | none => simp
  | some b =>
    have hb := mem_named hn
    have hne : b ≠ a := fun heq => ha (heq ▸ hb)
    simpa using hne

/-- What one piece does: the loop goes on exactly if the fields are there, and inserts a policy
exactly if the piece is a valid line. -/
lemma pieceInserts_spec {piece : List UInt8} (hnul : 0 ∉ piece) :
    if ignored (trimLeft piece) = false ∧ (tokens isBlank piece).length < 3 then
      ∃ fault, pieceInserts piece = .error fault
    else ∃ policy, pieceInserts piece = .ok policy ∧ (policy ≠ none ↔ PolicyLine piece) := by
  unfold pieceInserts
  rw [cString_of_nul hnul]
  dsimp only
  by_cases hign : ignored (trimLeft piece) = true
  · rw [if_neg (by simp [hign]), if_pos hign]
    refine ⟨none, rfl, ?_⟩
    simp [PolicyLine, hign]
  · have hign' : ignored (trimLeft piece) = false := Bool.eq_false_iff.mpr hign
    rw [if_neg hign]
    by_cases hlen : (tokens isBlank piece).length < 3
    · rw [if_pos ⟨hign', hlen⟩]
      rw [← tokens_trimLeft] at hlen
      obtain ⟨fault, hfault⟩ := parsePolicy_missing hlen
      rw [hfault]
      exact ⟨fault, rfl⟩
    · rw [if_neg (fun h => hlen h.2)]
      match ht : tokens isBlank piece with
      | [] => simp [ht] at hlen
      | [_] => simp [ht] at hlen
      | [_, _] => simp [ht] at hlen
      | id :: severity :: action :: rest =>
        obtain ⟨options, hparse⟩ := parsePolicy_fields ((tokens_trimLeft piece).trans ht)
        have hsev : (named severityNames severity).getD .invalid = .invalid ↔
            named severityNames severity = none := named_valid (by decide) severity
        have hact : (named actionNames action).getD .invalid = .invalid ↔
            named actionNames action = none := named_valid (by decide) action
        rw [hparse]
        refine ⟨_, rfl, ?_⟩
        unfold PolicyLine checkValid
        rw [ht]
        cases rest with
        | nil => simp
        | cons path rest =>
          have hpath : path ≠ [] := token_ne_nil (s := piece) (by rw [ht]; simp)
          simp [hign', hsev, hact, hpath]

/-- A valid first piece makes a valid line: no field in front of the path is cut. -/
lemma PolicyLine.of_take {line : List UInt8} {n : Nat} (h : PolicyLine (line.take n)) :
    PolicyLine line := by
  obtain ⟨hign, hfields⟩ := h
  conv => rw [← List.take_append_drop n line]
  generalize line.take n = a at *
  generalize line.drop n = b at *
  split at hfields
  · rename_i id severity action path rest ht
    have hne : tokens isBlank a ≠ [] := by rw [ht]; exact List.cons_ne_nil _ _
    obtain ⟨t, ts, happ⟩ := tokens_append b hne
    rw [ht] at happ
    have htrim : trimLeft (a ++ b) = trimLeft a ++ b := by
      unfold trimLeft
      rw [List.dropWhile_append, if_neg]
      intro hempty
      have hnil : trimLeft a = [] := List.isEmpty_iff.mp hempty
      rw [← tokens_trimLeft, hnil] at hne
      exact hne rfl
    refine ⟨?_, ?_⟩
    · have hhead : (trimLeft a ++ b).head? = (trimLeft a).head? := by
        cases htl : trimLeft a with
        | nil =>
          rw [← tokens_trimLeft, htl] at hne
          exact absurd rfl hne
        | cons c s => rfl
      rw [htrim]
      unfold ignored at hign ⊢
      rw [hhead]
      exact hign
    · rw [happ]
      cases rest with
      | nil => exact hfields
      | cons _ _ => exact hfields
  · exact absurd hfields not_false

/-! ### The run -/

lemma policyLine_pieceInserts (linecnt : Nat) (buff : List UInt8) (policies : PolicyTable) :
    match pieceInserts buff with
    | .error fault => policyLine linecnt buff policies = .error fault
    | .ok policy => ∃ invalid, policyLine linecnt buff policies =
        .ok ⟨insertAll policies.table [policy], invalid⟩ := by
  unfold pieceInserts policyLine
  dsimp only
  by_cases hign : ignored (trimLeft (cString buff)) = true
  · rw [if_pos hign, if_pos hign]
    exact ⟨policies.invalid, rfl⟩
  · rw [if_neg hign, if_neg hign]
    cases hparse : parsePolicy (trimLeft (cString buff)) with
    | error fault => rfl
    | ok policy =>
      cases hvalid : checkValid policy with
      | true => exact ⟨policies.invalid, by simp [hvalid, bind, Except.bind, pure, Except.pure, insertAll]⟩
      | false =>
        exact ⟨policies.invalid ++ [linecnt],
          by simp [hvalid, bind, Except.bind, pure, Except.pure, insertAll]⟩

lemma mapM_cons_except {α β ε : Type} (f : α → Except ε β) (a : α) (l : List α) :
    (a :: l).mapM f = match f a with
      | .error e => .error e
      | .ok b => match l.mapM f with
        | .error e => .error e
        | .ok bs => .ok (b :: bs) := by
  rw [List.mapM_cons]
  cases f a with
  | error e => rfl
  | ok b => cases l.mapM f <;> rfl

/-- The loop of `get_policies` goes through the pieces of the file in order. -/
lemma policyLines_pieces (fuel : Nat) : ∀ {file : List UInt8} (linecnt : Nat) (policies : PolicyTable),
    file.length ≤ fuel →
    match ((physicalLines file).flatMap pieces).mapM pieceInserts with
    | .error fault => policyLines fuel linecnt file policies = .error fault
    | .ok inserted => ∃ invalid, policyLines fuel linecnt file policies =
        .ok ⟨insertAll policies.table inserted, invalid⟩ := by
  induction fuel with
  | zero =>
    intro file linecnt policies hlen
    rw [List.eq_nil_of_length_eq_zero (by omega : file.length = 0)]
    exact ⟨policies.invalid, rfl⟩
  | succ fuel ih =>
    intro file linecnt policies hlen
    by_cases hnil : file = []
    · subst hnil
      exact ⟨policies.invalid, rfl⟩
    · obtain ⟨line, lines, hlines⟩ :=
        List.exists_cons_of_ne_nil (fun h => hnil (physicalLines_eq_nil.mp h))
      obtain ⟨file', hfgets, hlt, hpieces⟩ := pieces_step hlines
      have hline := policyLine_pieceInserts (linecnt + 1) (line.take PIECE_LEN) policies
      rw [hpieces, mapM_cons_except, policyLines, if_neg hnil]
      change fgets (STR_BUFF - 1) file = _ at hfgets
      rw [hfgets]
      dsimp only
      cases hpiece : pieceInserts (line.take PIECE_LEN) with
      | error fault =>
        rw [hpiece] at hline
        rw [hline]
        rfl
      | ok policy =>
        rw [hpiece] at hline
        obtain ⟨invalid, hline⟩ := hline
        rw [hline]
        have hrest := ih (linecnt + 1) ⟨insertAll policies.table [policy], invalid⟩
          (show file'.length ≤ fuel by omega)
        cases hmap : ((physicalLines file').flatMap pieces).mapM pieceInserts with
        | error fault =>
          rw [hmap] at hrest
          exact hrest
        | ok inserted =>
          rw [hmap] at hrest
          exact hrest

/-! ### Files that are read right -/

lemma mapM_eq_ok_iff {α β ε : Type} {f : α → Except ε β} : ∀ {l : List α} {bs : List β},
    l.mapM f = .ok bs ↔ List.Forall₂ (fun a b => f a = .ok b) l bs := by
  intro l
  induction l with
  | nil =>
    intro bs
    constructor
    · intro h
      cases h
      exact .nil
    · intro h
      cases h
      rfl
  | cons a l ih =>
    intro bs
    rw [mapM_cons_except]
    constructor
    · intro h
      cases ha : f a with
      | error e =>
        rw [ha] at h
        cases h
      | ok b =>
        cases hl : l.mapM f with
        | error e =>
          rw [ha, hl] at h
          cases h
        | ok rest =>
          rw [ha, hl] at h
          cases h
          exact .cons ha (ih.mp hl)
    · intro h
      cases h with
      | cons ha hl =>
        rw [ha, ih.mpr hl]

lemma forall₂_flatten {α β : Type} {R : α → β → Prop} {as : List (List α)} {bs : List (List β)}
    (h : List.Forall₂ (List.Forall₂ R) as bs) : List.Forall₂ R as.flatten bs.flatten := by
  induction h with
  | nil => exact .nil
  | cons hhead _ ih => exact List.rel_append hhead ih

lemma exists_mapM_ok {α β ε : Type} {f : α → Except ε β} {l : List α}
    (h : ∀ a ∈ l, ∃ b, f a = .ok b) : ∃ bs, l.mapM f = .ok bs := by
  induction l with
  | nil => exact ⟨[], rfl⟩
  | cons a l ih =>
    obtain ⟨b, ha⟩ := h a List.mem_cons_self
    obtain ⟨bs, hl⟩ := ih fun c hc => h c (List.mem_cons_of_mem _ hc)
    exact ⟨b :: bs, by rw [mapM_cons_except, ha, hl]⟩

lemma exists_of_forall₂ {α β : Type} {R : α → β → Prop} {as : List α} {bs : List β}
    (h : List.Forall₂ R as bs) {a : α} (ha : a ∈ as) : ∃ b ∈ bs, R a b := by
  induction h with
  | nil => cases ha
  | cons hhead _ ih =>
    rcases List.mem_cons.mp ha with rfl | ha
    · exact ⟨_, List.mem_cons_self, hhead⟩
    · obtain ⟨b, hb, hR⟩ := ih ha
      exact ⟨b, List.mem_cons_of_mem _ hb, hR⟩

/-- `get_policies` comes to its end, and the table holds what the lines inserted, one after the
other: a line at most one policy, which stands at its beginning, and only if the line is valid. -/
structure MalformedRejected (file : List UInt8) : Prop where
  ends : ∃ policies inserted, getPolicies (some file) = .ok (some policies) ∧
    (physicalLines file).mapM lineInserts = .ok inserted ∧
    policies.table = insertAll ∅ inserted.flatten
  once : ∀ line ∈ physicalLines file, ∀ first rest, lineInserts line = .ok (first :: rest) →
    (∀ policy ∈ rest, policy = none) ∧ (first ≠ none → PolicyLine line)

/-- Every piece that is not a comment has the fields that are looked up, and no piece from
inside a line reads as a valid line. -/
def PiecesRight (file : List UInt8) : Prop :=
  ∀ line ∈ physicalLines file, (∀ piece ∈ pieces line, FieldsPresent piece) ∧
    ∀ piece ∈ (pieces line).tail, ¬PolicyLine piece

lemma mem_cutLine (fuel : Nat) : ∀ {line piece : List UInt8}, piece ∈ cutLine fuel line →
    ∀ c ∈ piece, c ∈ line := by
  induction fuel with
  | zero => exact fun h => by cases h
  | succ fuel ih =>
    intro line piece h c hc
    rw [cutLine] at h
    split at h
    · cases h
    · rcases List.mem_cons.mp h with rfl | h
      · exact List.mem_of_mem_take hc
      · exact List.mem_of_mem_drop (ih h c hc)

section Right

variable {file line piece : List UInt8}

lemma piece_nul (hnul : 0 ∉ file) (hline : line ∈ physicalLines file) (hpiece : piece ∈ pieces line) :
    0 ∉ piece := by
  intro h0
  have hmem : (0 : UInt8) ∈ (physicalLines file).flatten :=
    List.mem_flatten.mpr ⟨line, hline, mem_cutLine _ hpiece 0 h0⟩
  rw [physicalLines_flatten] at hmem
  exact hnul hmem

lemma pieceInserts_ok (hnul : 0 ∉ piece) (h : FieldsPresent piece) :
    ∃ policy, pieceInserts piece = .ok policy ∧ (policy ≠ none ↔ PolicyLine piece) := by
  have hspec := pieceInserts_spec hnul
  rw [if_neg] at hspec
  · exact hspec
  · rintro ⟨hign, hlen⟩
    have := h hign
    omega

lemma fieldsPresent_of_ok (hnul : 0 ∉ piece) {policy : Option Policy}
    (h : pieceInserts piece = .ok policy) :
    FieldsPresent piece ∧ (policy ≠ none ↔ PolicyLine piece) := by
  have hspec := pieceInserts_spec hnul
  split at hspec
  · obtain ⟨fault, hfault⟩ := hspec
    rw [h] at hfault
    cases hfault
  · rename_i hfields
    obtain ⟨policy', hok, hvalid⟩ := hspec
    rw [h] at hok
    cases hok
    refine ⟨fun hign => ?_, hvalid⟩
    by_contra hlen
    exact hfields ⟨hign, by omega⟩

/-- Where no line is fatal, the reading ends with what the lines insert. -/
lemma getPolicies_of_lines {inserted : List (List (Option Policy))}
    (h : (physicalLines file).mapM lineInserts = .ok inserted) :
    ∃ policies, getPolicies (some file) = .ok (some policies) ∧
      policies.table = insertAll ∅ inserted.flatten := by
  have hall : ((physicalLines file).flatMap pieces).mapM pieceInserts = .ok inserted.flatten := by
    rw [mapM_eq_ok_iff, List.flatMap_def]
    apply forall₂_flatten
    rw [List.forall₂_map_left_iff]
    exact (mapM_eq_ok_iff.mp h).imp fun _ _ h => mapM_eq_ok_iff.mp h
  have hrun := policyLines_pieces file.length 0 ⟨∅, []⟩ (Nat.le_refl _)
  rw [hall] at hrun
  obtain ⟨invalid, hrun⟩ := hrun
  refine ⟨⟨insertAll ∅ inserted.flatten, invalid⟩, ?_, rfl⟩
  rw [getPolicies, hrun]
  rfl

/-- A file is read right exactly if its pieces are right. -/
theorem malformedRejected_iff (hnul : 0 ∉ file) : MalformedRejected file ↔ PiecesRight file := by
  constructor
  · rintro ⟨⟨policies, inserted, -, hinserted, -⟩, honce⟩ line hline
    obtain ⟨policiesOf, -, hlineOk⟩ := exists_of_forall₂ (mapM_eq_ok_iff.mp hinserted) hline
    have hpieces := mapM_eq_ok_iff.mp hlineOk
    refine ⟨fun piece hpiece => ?_, ?_⟩
    · obtain ⟨policy, -, hok⟩ := exists_of_forall₂ hpieces hpiece
      exact (fieldsPresent_of_ok (piece_nul hnul hline hpiece) hok).1
    · rw [pieces_eq (line_ne_nil hline)] at hpieces ⊢
      intro piece hpiece hvalid
      cases hpieces with
      | cons hfirst hrest =>
        obtain ⟨policy, hmem, hok⟩ := exists_of_forall₂ hrest hpiece
        have hnone := (honce line hline _ _ hlineOk).1 policy hmem
        have hpiece' : piece ∈ pieces line := by
          rw [pieces_eq (line_ne_nil hline)]
          exact List.mem_cons_of_mem _ hpiece
        exact (fieldsPresent_of_ok (piece_nul hnul hline hpiece') hok).2.mpr hvalid hnone
  · intro hright
    have hlineOk : ∀ line ∈ physicalLines file, ∃ policies, lineInserts line = .ok policies := by
      intro line hline
      apply exists_mapM_ok
      intro piece hpiece
      obtain ⟨policy, hok, -⟩ :=
        pieceInserts_ok (piece_nul hnul hline hpiece) ((hright line hline).1 piece hpiece)
      exact ⟨policy, hok⟩
    obtain ⟨inserted, hinserted⟩ := exists_mapM_ok hlineOk
    obtain ⟨policies, hpolicies, htable⟩ := getPolicies_of_lines hinserted
    refine ⟨⟨policies, inserted, hpolicies, hinserted, htable⟩, fun line hline first rest hok => ?_⟩
    have hpieces := mapM_eq_ok_iff.mp hok
    have hne := line_ne_nil hline
    have hmem : ∀ piece ∈ line.take PIECE_LEN :: pieces (line.drop PIECE_LEN), piece ∈ pieces line := by
      intro piece hpiece
      rw [pieces_eq hne]
      exact hpiece
    have htail := (hright line hline).2
    rw [pieces_eq hne] at hpieces htail
    cases hpieces with
    | cons hfirst hrest =>
      constructor
      · intro policy hpolicy
        obtain ⟨piece, hpiece, hok'⟩ := exists_of_forall₂ hrest.flip hpolicy
        have hspec := fieldsPresent_of_ok
          (piece_nul hnul hline (hmem piece (List.mem_cons_of_mem _ hpiece))) hok'
        by_contra hsome
        exact htail piece hpiece (hspec.2.mp hsome)
      · intro hsome
        have hspec := fieldsPresent_of_ok
          (piece_nul hnul hline (hmem _ List.mem_cons_self)) hfirst
        exact (hspec.2.mp hsome).of_take

end Right

theorem malformedRejected_three_fields :
    MalformedRejected (cstr "7 WARNING CREATE\n") ↔ PiecesRight (cstr "7 WARNING CREATE\n") :=
  malformedRejected_iff (by decide)

/-- A line with two fields hands NULL to the lookup of the action. -/
theorem two_fields_fatal : getPolicies (some (cstr "7 WARNING\n")) = .error .nullPointer ∧
    ¬MalformedRejected (cstr "7 WARNING\n") := by
  have hfault : getPolicies (some (cstr "7 WARNING\n")) = .error .nullPointer := by rfl
  refine ⟨hfault, ?_⟩
  rintro ⟨⟨policies, inserted, hok, -⟩, -⟩
  rw [hfault] at hok
  cases hok

end Hfm

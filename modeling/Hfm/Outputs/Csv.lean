import Hfm.Outputs.Format
import Hfm.Support.Text

/-!
# CSV files

`src/outputs/csv.c` writes a record as a line of ten fields, without any quoting.
-/

namespace Hfm

open Support

def COMMA : UInt8 := 0x2c
def LF : UInt8 := 0x0a

/-- The fields in the order of the format. -/
def csvFields (info : OutputInfo) : List CStr :=
  [decimal info.timeSec.toNat, decimal info.timeUsec.toNat, signedDecimal info.pid.toInt,
    info.sid.str, signedDecimal info.vmid.toInt, signedDecimal info.policyId.toInt,
    signedDecimal info.action.toInt, info.filepath.str, info.extpath.str, info.data.str]

def csvLine (info : OutputInfo) : List UInt8 := [COMMA].intercalate (csvFields info)

def outCsvWrite (output : Output) (info : OutputInfo) : Output :=
  match output.fp with
  | some file => { output with fp := some (file ++ (csvLine info ++ [LF])) }
  | none => output

/-- The file that the records are written to, one after the other. -/
def csvFile (infos : List OutputInfo) : Option (List UInt8) :=
  (infos.foldl outCsvWrite ⟨some [], [], []⟩).fp

/-! ### Reading back -/

def readCsvLine (line : List UInt8) : Option Row :=
  match line.splitOn COMMA with
  | [timeSec, timeUsec, pid, sid, vmid, policyId, action, filepath, extpath, data] => do
    let timeSec ← readDecimal timeSec
    let timeUsec ← readDecimal timeUsec
    let pid ← readSigned pid
    let vmid ← readSigned vmid
    let policyId ← readSigned policyId
    let action ← readSigned action
    return { timeSec, timeUsec, pid, vmid, policyId, action, sid, data, filepath, extpath }
  | _ => none

/-- The rows of a file in which every line is ended. -/
def readCsv (file : List UInt8) : Option (List Row) :=
  let lines := file.splitOn LF
  if lines.getLast? = some [] then lines.dropLast.mapM readCsvLine else none

/-- No field of the record is broken by a separator. -/
def CsvPlain (info : OutputInfo) : Prop :=
  ∀ s ∈ [info.sid.str, info.filepath.str, info.extpath.str, info.data.str], COMMA ∉ s ∧ LF ∉ s

/-! ### Round trips -/

lemma csvFile_eq (infos : List OutputInfo) :
    csvFile infos = some ((infos.map csvLine).flatMap (· ++ [LF])) := by
  have hfold : ∀ (infos : List OutputInfo) (file : List UInt8),
      (infos.foldl outCsvWrite ⟨some file, [], []⟩).fp =
        some (file ++ (infos.map csvLine).flatMap (· ++ [LF])) := by
    intro infos
    induction infos with
    | nil => simp
    | cons info infos ih =>
      intro file
      rw [List.foldl_cons]
      change (infos.foldl outCsvWrite ⟨some (file ++ (csvLine info ++ [LF])), [], []⟩).fp = _
      rw [ih, List.map_cons, List.flatMap_cons, List.append_assoc]
  exact hfold infos []

lemma number_plain {s : CStr} (h : ∀ c ∈ s, isDigit c = true ∨ c = 0x2d) : COMMA ∉ s ∧ LF ∉ s := by
  constructor
  · intro hc
    rcases h _ hc with h | h
    · exact absurd h (by decide)
    · exact absurd h (by decide)
  · intro hc
    rcases h _ hc with h | h
    · exact absurd h (by decide)
    · exact absurd h (by decide)

/-- The numbers never hold a separator. -/
lemma fields_plain_iff (info : OutputInfo) :
    (∀ s ∈ csvFields info, COMMA ∉ s ∧ LF ∉ s) ↔ CsvPlain info := by
  have hdec : ∀ n, COMMA ∉ decimal n ∧ LF ∉ decimal n :=
    fun n => number_plain fun c hc => .inl (mem_decimal hc)
  have hsigned : ∀ n, COMMA ∉ signedDecimal n ∧ LF ∉ signedDecimal n :=
    fun n => number_plain fun c hc => mem_signedDecimal hc
  simp only [csvFields, CsvPlain, List.forall_mem_cons, hdec, hsigned,
    List.not_mem_nil, false_imp_iff, implies_true, and_true]
  tauto

lemma readCsvLine_csvLine {info : OutputInfo} (h : CsvPlain info) :
    readCsvLine (csvLine info) = some info.row := by
  have hsplit : (csvLine info).splitOn COMMA = csvFields info :=
    List.splitOn_intercalate COMMA (fun s hs => ((fields_plain_iff info).mpr h s hs).1)
      (List.cons_ne_nil _ _)
  unfold readCsvLine
  rw [hsplit]
  simp only [csvFields, readDecimal_decimal, readSigned_signedDecimal]
  rfl

lemma mapM_eq_some_iff {α β : Type} {f : α → Option β} {l : List α} : ∀ {r : List β},
    l.mapM f = some r ↔ List.Forall₂ (fun a b => f a = some b) l r := by
  induction l with
  | nil =>
    intro r
    simp [eq_comm]
  | cons a l ih =>
    intro r
    rw [List.mapM_cons, List.forall₂_cons_left_iff]
    cases ha : f a with
    | none => simp
    | some b =>
      cases hl : l.mapM f with
      | none =>
        simp only [← ih, hl]
        simp
      | some bs =>
        simp only [← ih, hl]
        simp [eq_comm]

/-- A line that can be read has its ten fields apart. -/
lemma csvLine_fields {info : OutputInfo} (h : (readCsvLine (csvLine info)).isSome = true) :
    ∀ s ∈ csvFields info, COMMA ∉ s := by
  have hne : csvFields info ≠ [] := List.cons_ne_nil _ _
  rw [← count_intercalate_eq_iff COMMA hne, ← csvLine, ← length_splitOn]
  unfold readCsvLine at h
  split at h
  · rename_i heq
    rw [heq]
    rfl
  · cases h

lemma csvLine_lf (info : OutputInfo) : LF ∉ csvLine info ↔ ∀ s ∈ csvFields info, LF ∉ s := by
  unfold csvLine csvFields
  simp [List.intercalate, List.intersperse, COMMA, LF]

/-- The file can be read back exactly if no string of any record holds a comma or a line
break. -/
theorem csv_roundTrip_iff (infos : List OutputInfo) :
    (csvFile infos).bind readCsv = some (infos.map OutputInfo.row) ↔ ∀ info ∈ infos, CsvPlain info := by
  rw [csvFile_eq, Option.bind_some]
  unfold readCsv
  dsimp only
  constructor
  · intro h
    split at h
    · rw [mapM_eq_some_iff] at h
      have hlength := h.length_eq
      rw [List.length_dropLast, length_splitOn, Nat.add_sub_cancel, List.length_map] at hlength
      have hlf : ∀ line ∈ infos.map csvLine, LF ∉ line := by
        rw [← count_flatMap_eq_iff, hlength, List.length_map]
      rw [splitOn_flatMap hlf, List.dropLast_concat, List.forall₂_map_left_iff,
        List.forall₂_map_right_iff, List.forall₂_same] at h
      intro info hinfo
      rw [← fields_plain_iff]
      intro s hs
      exact ⟨csvLine_fields (by rw [h info hinfo]; rfl) s hs,
        (csvLine_lf info).mp (hlf _ (List.mem_map_of_mem hinfo)) s hs⟩
    · cases h
  · intro h
    have hlf : ∀ line ∈ infos.map csvLine, LF ∉ line := by
      intro line hline
      obtain ⟨info, hinfo, rfl⟩ := List.mem_map.mp hline
      exact (csvLine_lf info).mpr fun s hs => ((fields_plain_iff info).mpr (h info hinfo) s hs).2
    rw [splitOn_flatMap hlf, List.getLast?_concat, if_pos rfl, List.dropLast_concat,
      mapM_eq_some_iff, List.forall₂_map_left_iff, List.forall₂_map_right_iff, List.forall₂_same]
    exact fun info hinfo => readCsvLine_csvLine (h info hinfo)

/-- A record for the file `/a,b`. -/
def commaInfo : OutputInfo :=
  ⟨0, 0, 4, 1, 7, 1, .empty SID_LEN_pos, .empty PATH_MAX_LEN_pos,
    ⟨cstr "/a,b", by decide, by decide⟩, .empty PATH_MAX_LEN_pos⟩

/-- The comma of the path is read as a separator. -/
theorem csv_comma_shifts :
    (csvFile [commaInfo]).bind readCsv ≠ some ([commaInfo].map OutputInfo.row) := by
  decide

end Hfm

import Hfm.Basic
import Hfm.Support.Stream

/-!
# Duplicate files

`util_checkdup` of `src/fcleaner/fileutil.c`: two files are compared by their sizes, their
digests and then byte by byte, where each call may fail.
-/

namespace Hfm

open Support

def BUFF_LEN : Nat := 1024

/-- A file of the check: what it holds, and how the calls for it go. It is opened once for its
digest and once to be compared. -/
structure CheckedFile where
  content : List UInt8
  stat : Bool
  digestOpen : Bool
  digestRead : Nat → ReadOutcome
  compareOpen : Bool
  compareRead : Nat → ReadOutcome

namespace CheckedFile

variable (file : CheckedFile)

def digestStream : Stream UInt8 := ⟨file.content, file.digestRead⟩

def compareStream : Stream UInt8 := ⟨file.content, file.compareRead⟩

/-- No call fails. -/
structure NoFailure : Prop where
  stat : file.stat = true
  digestOpen : file.digestOpen = true
  digestRead : file.digestStream.Reliable
  compareOpen : file.compareOpen = true
  compareRead : file.compareStream.Reliable

end CheckedFile

/-! ### The stages -/

/-- `_get_file_size`. -/
def getFileSize (file : CheckedFile) : Int := if file.stat then file.content.length else -1

/-- The loop of `_get_checksum`, with the bytes that `MD5_Update` has got. -/
def digestLoop : Nat → Stream UInt8 → List UInt8 → Except Fault (List UInt8 × Stream UInt8)
  | 0, _, _ => .error .diverges
  | fuel + 1, fp, bytes =>
    if (fp.read BUFF_LEN).1.length ≠ 0 then
      digestLoop fuel (fp.read BUFF_LEN).2 (bytes ++ (fp.read BUFF_LEN).1)
    else .ok (bytes, (fp.read BUFF_LEN).2)

def hexDigit (n : UInt8) : UInt8 := if n < 10 then 0x30 + n else 0x57 + n

/-- `"%02x"`. -/
def hexByte (c : UInt8) : CStr := [hexDigit (c / 16), hexDigit (c % 16)]

/-- `_get_checksum`, the text and the stream as the reads leave it; `none` for -1. -/
def getChecksum (md5 : List UInt8 → Vector UInt8 16) (file : CheckedFile) :
    Except Fault (Option (CStr × Stream UInt8)) :=
  if file.digestOpen = false then .ok none
  else do
    let (bytes, fp) ← digestLoop (file.content.length + 1) file.digestStream []
    return some ((md5 bytes).toList.flatMap hexByte, fp)

/-- The difference of the first two bytes that differ. -/
def memcmp : List UInt8 → List UInt8 → Int
  | a :: as, b :: bs => if a = b then memcmp as bs else (a.toNat : Int) - b.toNat
  | _, _ => 0

/-- What `_cmp_file_content` returns, and its streams where it reads. -/
structure Comparison where
  cmp : Int
  streams : Option (Stream UInt8 × Stream UInt8)

/-- The loop of `_cmp_file_content`. -/
def compareLoop : Nat → Stream UInt8 → Stream UInt8 → Except Fault Comparison
  | 0, _, _ => .error .diverges
  | fuel + 1, fp1, fp2 =>
    let (buff1, fp1) := fp1.read BUFF_LEN
    let (buff2, fp2) := fp2.read BUFF_LEN
    if buff1.length ≠ buff2.length then
      .ok ⟨(buff1.length : Int) - buff2.length, some (fp1, fp2)⟩
    else if memcmp buff1 buff2 ≠ 0 then .ok ⟨memcmp buff1 buff2, some (fp1, fp2)⟩
    else if 0 < buff1.length then compareLoop fuel fp1 fp2
    else .ok ⟨0, some (fp1, fp2)⟩

/-- `_cmp_file_content`. -/
def cmpFileContent (file1 file2 : CheckedFile) : Except Fault Comparison :=
  if file1.compareOpen = false ∨ file2.compareOpen = false then .ok ⟨0, none⟩
  else compareLoop (file1.content.length + 1) file1.compareStream file2.compareStream

/-- A check that is done: its result, and the streams that it read. -/
structure Checkdup where
  result : Int
  digested1 : Option (Stream UInt8) := none
  digested2 : Option (Stream UInt8) := none
  compared : Option (Stream UInt8 × Stream UInt8) := none

/-- `util_checkdup`. -/
def utilCheckdup (md5 : List UInt8 → Vector UInt8 16) (file1 file2 : CheckedFile) :
    Except Fault Checkdup := do
  let size1 := getFileSize file1
  let size2 := getFileSize file2
  if size1 = -1 ∨ size2 = -1 then return { result := 0 }
  if size1 ≠ size2 then return { result := 0 }
  let some (cs1, fp1) ← getChecksum md5 file1 | return { result := 0 }
  let some (cs2, fp2) ← getChecksum md5 file2 | return { result := 0, digested1 := fp1 }
  if cs1 ≠ cs2 then return { result := 0, digested1 := fp1, digested2 := fp2 }
  let c ← cmpFileContent file1 file2
  return { result := if c.cmp = 0 then 1 else 0, digested1 := fp1, digested2 := fp2,
           compared := c.streams }

/-! ### Duplicates -/

namespace Checkdup

/-- The comparison came to the ends of both files. -/
def ComparedToEnd (run : Checkdup) : Prop :=
  ∃ fp1 fp2, run.compared = some (fp1, fp2) ∧ fp1.content = [] ∧ fp2.content = []

/-- Both files were read to their ends, for the digest or in the comparison. -/
def ReadToEnd (run : Checkdup) : Prop :=
  ((∃ fp, run.digested1 = some fp ∧ fp.content = []) ∨
      ∃ fps, run.compared = some fps ∧ fps.1.content = []) ∧
    ((∃ fp, run.digested2 = some fp ∧ fp.content = []) ∨
      ∃ fps, run.compared = some fps ∧ fps.2.content = [])

end Checkdup

section Duplicates

variable (md5 : List UInt8 → Vector UInt8 16) (file1 file2 : CheckedFile)

/-- The check ends; its result is 1 only for equal files that were read completely, and it is 1
for equal files if no call fails. -/
def DuplicatesRight (complete : Checkdup → Prop) : Prop :=
  ∃ run, utilCheckdup md5 file1 file2 = .ok run ∧
    (run.result = 1 → complete run ∧ file1.content = file2.content) ∧
    (file1.NoFailure → file2.NoFailure → file1.content = file2.content → run.result = 1)

/-- The files come to the comparison: what was read of them has one digest. -/
structure ComesToComparison : Prop where
  stat1 : file1.stat = true
  stat2 : file2.stat = true
  length : file1.content.length = file2.content.length
  open1 : file1.digestOpen = true
  open2 : file2.digestOpen = true
  digest : ∀ n m, file1.digestStream.EndsAt BUFF_LEN n → file2.digestStream.EndsAt BUFF_LEN m →
    md5 (file1.digestStream.taken BUFF_LEN n) = md5 (file2.digestStream.taken BUFF_LEN m)

/-- A file does not open again, or reads of both fail at one place after equal chunks. -/
def ComparisonFails : Prop :=
  file1.compareOpen = false ∨ file2.compareOpen = false ∨
    ∃ n, file1.compareStream.AgreeUntil BUFF_LEN file2.compareStream n ∧
      (file1.compareStream.after BUFF_LEN n).content ≠ []

end Duplicates

/-- No read for the digest fails in front of the end. -/
def CheckedFile.DigestComplete (file : CheckedFile) : Prop :=
  ∀ n, file.digestStream.EndsAt BUFF_LEN n → (file.digestStream.after BUFF_LEN n).content = []

/-! ### The text of a digest -/

def hexValue (c : UInt8) : UInt8 := if c < 0x3a then c - 0x30 else c - 0x57

lemma hexValue_hexByte (c : UInt8) :
    hexValue (hexDigit (c / 16)) * 16 + hexValue (hexDigit (c % 16)) = c := by
  have hfin : ∀ n : Fin 256, hexValue (hexDigit (UInt8.ofFin n / 16)) * 16 +
      hexValue (hexDigit (UInt8.ofFin n % 16)) = UInt8.ofFin n := by
    decide +kernel
  exact hfin c.toFin

lemma hexByte_inj {a b : UInt8} (h : hexByte a = hexByte b) : a = b := by
  obtain ⟨hhigh, hlow⟩ : hexDigit (a / 16) = hexDigit (b / 16) ∧
      hexDigit (a % 16) = hexDigit (b % 16) := by
    simpa [hexByte] using h
  rw [← hexValue_hexByte a, ← hexValue_hexByte b, hhigh, hlow]

lemma hexText_inj : ∀ {as bs : List UInt8}, as.flatMap hexByte = bs.flatMap hexByte → as = bs
  | [], [], _ => rfl
  | [], _ :: _, h => by cases h
  | _ :: _, [], h => by cases h
  | a :: as, b :: bs, h => by
    rw [List.flatMap_cons, List.flatMap_cons] at h
    obtain ⟨hab, hrest⟩ := List.append_inj h rfl
    rw [hexByte_inj hab, hexText_inj hrest]

/-! ### The digests -/

lemma digestLoop_ok {fuel n : Nat} {fp : Stream UInt8} (bytes : List UInt8)
    (hends : fp.EndsAt BUFF_LEN n) (hfuel : n < fuel) :
    ∃ fp', digestLoop fuel fp bytes = .ok (bytes ++ fp.taken BUFF_LEN n, fp') ∧
      fp'.content = (fp.after BUFF_LEN n).content := by
  induction n generalizing fuel fp bytes with
  | zero =>
    obtain ⟨fuel, rfl⟩ : ∃ f, fuel = f + 1 := ⟨fuel - 1, by omega⟩
    have hread := Stream.endsAt_zero.mp hends
    refine ⟨(fp.read BUFF_LEN).2, ?_, ?_⟩
    · rw [digestLoop, if_neg (by rw [hread]; decide), Stream.taken_zero, List.append_nil]
    · have happend := Stream.read_append BUFF_LEN fp
      rw [hread] at happend
      exact happend
  | succ n ih =>
    obtain ⟨fuel, rfl⟩ : ∃ f, fuel = f + 1 := ⟨fuel - 1, by omega⟩
    obtain ⟨hne, hends⟩ := Stream.endsAt_succ.mp hends
    obtain ⟨fp', hloop, hcontent⟩ :=
      ih (bytes ++ (fp.read BUFF_LEN).1) hends (Nat.lt_of_succ_lt_succ hfuel)
    refine ⟨fp', ?_, hcontent⟩
    rw [digestLoop, if_pos (fun h => hne (List.length_eq_zero_iff.mp h)), hloop, Stream.taken_succ,
      List.append_assoc]

lemma getChecksum_ok (md5 : List UInt8 → Vector UInt8 16) {file : CheckedFile} {n : Nat}
    (hopen : file.digestOpen = true) (hends : file.digestStream.EndsAt BUFF_LEN n) :
    ∃ fp, getChecksum md5 file =
        .ok (some ((md5 (file.digestStream.taken BUFF_LEN n)).toList.flatMap hexByte, fp)) ∧
      fp.content = (file.digestStream.after BUFF_LEN n).content := by
  obtain ⟨m, hm, hends'⟩ := Stream.exists_endsAt BUFF_LEN file.digestStream
  obtain rfl := hends.unique hends'
  obtain ⟨fp, hloop, hcontent⟩ := digestLoop_ok [] hends
    (Nat.lt_succ_of_le hm : n < file.content.length + 1)
  refine ⟨fp, ?_, hcontent⟩
  unfold getChecksum
  rw [if_neg (by rw [hopen]; decide), hloop]
  rfl

lemma getChecksum_unopened (md5 : List UInt8 → Vector UInt8 16) {file : CheckedFile}
    (hopen : file.digestOpen = false) : getChecksum md5 file = .ok none :=
  if_pos hopen

/-! ### The comparison -/

lemma memcmp_eq_zero : ∀ {as bs : List UInt8}, as.length = bs.length →
    (memcmp as bs = 0 ↔ as = bs)
  | [], [], _ => iff_of_true rfl rfl
  | a :: as, b :: bs, hlen => by
    rw [memcmp]
    split
    · rename_i hab
      rw [memcmp_eq_zero (Nat.succ.inj hlen), hab, List.cons.injEq, and_iff_right rfl]
    · rename_i hab
      refine iff_of_false (fun h => hab (UInt8.toNat_inj.mp ?_)) fun h => hab (List.cons.inj h).1
      omega

lemma compareLoop_ok {fuel : Nat} {fp1 fp2 : Stream UInt8} (hfuel : fp1.content.length < fuel) :
    ∃ c, compareLoop fuel fp1 fp2 = .ok c ∧ ∃ left1 left2, c.streams = some (left1, left2) ∧
      (c.cmp = 0 ↔ ∃ n, fp1.AgreeUntil BUFF_LEN fp2 n) ∧
      ∀ n, fp1.AgreeUntil BUFF_LEN fp2 n → left1.content = (fp1.after BUFF_LEN n).content ∧
        left2.content = (fp2.after BUFF_LEN n).content := by
  induction fuel generalizing fp1 fp2 with
  | zero => exact absurd hfuel (Nat.not_lt_zero _)
  | succ fuel ih =>
    have hdiffer : (fp1.read BUFF_LEN).1 ≠ (fp2.read BUFF_LEN).1 →
        ∀ n, ¬ fp1.AgreeUntil BUFF_LEN fp2 n := fun hne n h => hne (h.2 0 (Nat.zero_le n))
    rw [compareLoop]
    dsimp only
    by_cases hlen : (fp1.read BUFF_LEN).1.length = (fp2.read BUFF_LEN).1.length
    · rw [if_neg (not_not.mpr hlen)]
      by_cases heq : (fp1.read BUFF_LEN).1 = (fp2.read BUFF_LEN).1
      · rw [if_neg (not_not.mpr ((memcmp_eq_zero hlen).mpr heq))]
        by_cases hempty : (fp1.read BUFF_LEN).1 = []
        · rw [if_neg (by rw [hempty]; decide)]
          have hagree : fp1.AgreeUntil BUFF_LEN fp2 0 :=
            Stream.agreeUntil_zero.mpr ⟨hempty, heq ▸ hempty⟩
          refine ⟨_, rfl, _, _, rfl, iff_of_true rfl ⟨0, hagree⟩, fun n h => ?_⟩
          obtain rfl := h.1.unique hagree.1
          have happend1 := Stream.read_append BUFF_LEN fp1
          have happend2 := Stream.read_append BUFF_LEN fp2
          rw [hempty] at happend1
          rw [← heq, hempty] at happend2
          exact ⟨happend1, happend2⟩
        · rw [if_pos (List.length_pos_iff.mpr hempty)]
          have hlt := Stream.length_read_lt hempty
          have hagree : ∀ n, fp1.AgreeUntil BUFF_LEN fp2 n → ∃ m, n = m + 1 ∧
              (fp1.read BUFF_LEN).2.AgreeUntil BUFF_LEN (fp2.read BUFF_LEN).2 m := by
            intro n h
            cases n with
            | zero => exact absurd (Stream.agreeUntil_zero.mp h).1 hempty
            | succ m => exact ⟨m, rfl, (Stream.agreeUntil_succ.mp h).2.2⟩
          obtain ⟨c, hloop, left1, left2, hstreams, hcmp, hleft⟩ :=
            @ih (fp1.read BUFF_LEN).2 (fp2.read BUFF_LEN).2 (by omega)
          refine ⟨c, hloop, left1, left2, hstreams, hcmp.trans ⟨?_, ?_⟩, fun n h => ?_⟩
          · rintro ⟨m, h⟩
            exact ⟨m + 1, Stream.agreeUntil_succ.mpr ⟨heq, hempty, h⟩⟩
          · rintro ⟨n, h⟩
            obtain ⟨m, -, h'⟩ := hagree n h
            exact ⟨m, h'⟩
          · obtain ⟨m, rfl, h'⟩ := hagree n h
            exact hleft m h'
      · rw [if_pos (fun h => heq ((memcmp_eq_zero hlen).mp h))]
        refine ⟨_, rfl, _, _, rfl, ?_, fun n h => absurd h (hdiffer heq n)⟩
        exact iff_of_false (fun h => heq ((memcmp_eq_zero hlen).mp h)) fun ⟨n, h⟩ => hdiffer heq n h
    · rw [if_pos hlen]
      have heq : (fp1.read BUFF_LEN).1 ≠ (fp2.read BUFF_LEN).1 := fun h => hlen (congrArg _ h)
      refine ⟨_, rfl, _, _, rfl, ?_, fun n h => absurd h (hdiffer heq n)⟩
      refine iff_of_false (fun h => hlen ?_) fun ⟨n, h⟩ => hdiffer heq n h
      have : ((fp1.read BUFF_LEN).1.length : Int) - (fp2.read BUFF_LEN).1.length = 0 := h
      omega

/-! ### The check -/

section Check

variable {md5 : List UInt8 → Vector UInt8 16} {file1 file2 : CheckedFile}

lemma getFileSize_ne (file : CheckedFile) : getFileSize file ≠ -1 ↔ file.stat = true := by
  unfold getFileSize
  split
  · rename_i h
    exact iff_of_true (by omega) h
  · rename_i h
    exact iff_of_false (not_not.mpr rfl) h

lemma digest_text_inj {d e : Vector UInt8 16}
    (h : d.toList.flatMap hexByte = e.toList.flatMap hexByte) : d = e :=
  Vector.toList_inj.mp (hexText_inj h)

/-- Where the sizes agree, the check goes on with the digests. -/
lemma utilCheckdup_sized (hstat1 : file1.stat = true) (hstat2 : file2.stat = true)
    (hlen : file1.content.length = file2.content.length) :
    utilCheckdup md5 file1 file2 = (do
      let some (cs1, fp1) ← getChecksum md5 file1 | return { result := 0 }
      let some (cs2, fp2) ← getChecksum md5 file2 | return { result := 0, digested1 := fp1 }
      if cs1 ≠ cs2 then return { result := 0, digested1 := fp1, digested2 := fp2 }
      let c ← cmpFileContent file1 file2
      return { result := if c.cmp = 0 then 1 else 0, digested1 := fp1, digested2 := fp2,
               compared := c.streams }) := by
  have hsize : getFileSize file1 = getFileSize file2 := by
    unfold getFileSize
    rw [if_pos hstat1, if_pos hstat2, hlen]
  unfold utilCheckdup
  rw [if_neg (not_or.mpr ⟨(getFileSize_ne file1).mpr hstat1, (getFileSize_ne file2).mpr hstat2⟩),
    if_neg (not_not.mpr hsize)]

lemma utilCheckdup_unsized (h : ¬ (file1.stat = true ∧ file2.stat = true ∧
    file1.content.length = file2.content.length)) :
    utilCheckdup md5 file1 file2 = .ok { result := 0 } := by
  unfold utilCheckdup
  dsimp only
  split
  · rfl
  · rename_i hsize
    rw [not_or] at hsize
    have hstat1 := (getFileSize_ne file1).mp hsize.1
    have hstat2 := (getFileSize_ne file2).mp hsize.2
    rw [if_pos]
    · rfl
    · unfold getFileSize
      rw [if_pos hstat1, if_pos hstat2]
      intro hlen
      exact h ⟨hstat1, hstat2, Int.ofNat.inj hlen⟩

lemma digestComplete_iff {file : CheckedFile} {n : Nat} (hends : file.digestStream.EndsAt BUFF_LEN n) :
    (file.digestStream.after BUFF_LEN n).content = [] ↔ file.DigestComplete := by
  constructor
  · intro h m hm
    rwa [hm.unique hends]
  · intro h
    exact h n hends

lemma utilCheckdup_early (h : ¬ ComesToComparison md5 file1 file2) :
    ∃ run, utilCheckdup md5 file1 file2 = .ok run ∧ run.result = 0 := by
  by_cases hsized : file1.stat = true ∧ file2.stat = true ∧
      file1.content.length = file2.content.length
  · rw [utilCheckdup_sized hsized.1 hsized.2.1 hsized.2.2]
    cases hopen1 : file1.digestOpen with
    | false =>
      rw [getChecksum_unopened md5 hopen1]
      exact ⟨_, rfl, rfl⟩
    | true =>
      obtain ⟨n, -, hn⟩ := Stream.exists_endsAt BUFF_LEN file1.digestStream
      obtain ⟨fp1, hsum1, -⟩ := getChecksum_ok md5 hopen1 hn
      rw [hsum1]
      cases hopen2 : file2.digestOpen with
      | false =>
        rw [getChecksum_unopened md5 hopen2]
        exact ⟨_, rfl, rfl⟩
      | true =>
        obtain ⟨m, -, hm⟩ := Stream.exists_endsAt BUFF_LEN file2.digestStream
        obtain ⟨fp2, hsum2, -⟩ := getChecksum_ok md5 hopen2 hm
        rw [hsum2]
        refine ⟨_, if_pos fun htext => h ?_, rfl⟩
        refine ⟨hsized.1, hsized.2.1, hsized.2.2, hopen1, hopen2, fun n' m' hn' hm' => ?_⟩
        rw [hn'.unique hn, hm'.unique hm]
        exact digest_text_inj htext
  · exact ⟨_, utilCheckdup_unsized hsized, rfl⟩

lemma cmpFileContent_unopened (h : file1.compareOpen = false ∨ file2.compareOpen = false) :
    cmpFileContent file1 file2 = .ok ⟨0, none⟩ :=
  if_pos h

lemma cmpFileContent_opened (h : ¬ (file1.compareOpen = false ∨ file2.compareOpen = false)) :
    ∃ c left1 left2, cmpFileContent file1 file2 = .ok c ∧ c.streams = some (left1, left2) ∧
      (c.cmp = 0 ↔ ∃ n, file1.compareStream.AgreeUntil BUFF_LEN file2.compareStream n) ∧
      ∀ n, file1.compareStream.AgreeUntil BUFF_LEN file2.compareStream n →
        left1.content = (file1.compareStream.after BUFF_LEN n).content ∧
          left2.content = (file2.compareStream.after BUFF_LEN n).content := by
  obtain ⟨c, hloop, left1, left2, hspec⟩ :=
    @compareLoop_ok _ file1.compareStream file2.compareStream (Nat.lt_succ_self _)
  exact ⟨c, left1, left2, (if_neg h).trans hloop, hspec⟩

lemma cmpFileContent_ok (file1 file2 : CheckedFile) : ∃ c, cmpFileContent file1 file2 = .ok c := by
  by_cases hopen : file1.compareOpen = false ∨ file2.compareOpen = false
  · exact ⟨_, cmpFileContent_unopened hopen⟩
  · obtain ⟨c, -, -, hc, -⟩ := cmpFileContent_opened hopen
    exact ⟨c, hc⟩

lemma utilCheckdup_compares (h : ComesToComparison md5 file1 file2) :
    ∃ c fp1 fp2, cmpFileContent file1 file2 = .ok c ∧ utilCheckdup md5 file1 file2 =
        .ok ⟨if c.cmp = 0 then 1 else 0, some fp1, some fp2, c.streams⟩ ∧
      (fp1.content = [] ↔ file1.DigestComplete) ∧ (fp2.content = [] ↔ file2.DigestComplete) := by
  obtain ⟨n, -, hn⟩ := Stream.exists_endsAt BUFF_LEN file1.digestStream
  obtain ⟨m, -, hm⟩ := Stream.exists_endsAt BUFF_LEN file2.digestStream
  obtain ⟨fp1, hsum1, hfp1⟩ := getChecksum_ok md5 h.open1 hn
  obtain ⟨fp2, hsum2, hfp2⟩ := getChecksum_ok md5 h.open2 hm
  obtain ⟨c, hc⟩ := cmpFileContent_ok file1 file2
  refine ⟨c, fp1, fp2, hc, ?_, hfp1 ▸ digestComplete_iff hn, hfp2 ▸ digestComplete_iff hm⟩
  rw [utilCheckdup_sized h.stat1 h.stat2 h.length, hsum1, hsum2, h.digest n m hn hm, hc]
  exact if_neg (not_not.mpr rfl)

/-- A failed comparison counts as an agreement. -/
lemma utilCheckdup_lost (h : ComesToComparison md5 file1 file2) (hfails : ComparisonFails file1 file2) :
    ∃ run fp1 fp2, utilCheckdup md5 file1 file2 = .ok run ∧ run.result = 1 ∧
      (run.digested1 = some fp1 ∧ (fp1.content = [] ↔ file1.DigestComplete)) ∧
      (run.digested2 = some fp2 ∧ (fp2.content = [] ↔ file2.DigestComplete)) ∧
      ∀ fps, run.compared = some fps → fps.1.content ≠ [] ∧ fps.2.content ≠ [] := by
  obtain ⟨c, fp1, fp2, hc, hrun, hfp1, hfp2⟩ := utilCheckdup_compares h
  suffices hlost : c.cmp = 0 ∧
      ∀ fps, c.streams = some fps → fps.1.content ≠ [] ∧ fps.2.content ≠ [] from
    ⟨_, fp1, fp2, hrun, if_pos hlost.1, ⟨rfl, hfp1⟩, ⟨rfl, hfp2⟩, hlost.2⟩
  by_cases hopen : file1.compareOpen = false ∨ file2.compareOpen = false
  · rw [cmpFileContent_unopened hopen] at hc
    cases hc
    exact ⟨rfl, fun _ hfps => by cases hfps⟩
  · obtain ⟨_, left1, left2, hc', hstreams, hcmp, hcontent⟩ := cmpFileContent_opened hopen
    obtain rfl := Except.ok.inj (hc'.symm.trans hc)
    rw [not_or] at hopen
    obtain ⟨n, hagree, hleft⟩ := (hfails.resolve_left hopen.1).resolve_left hopen.2
    refine ⟨hcmp.mpr ⟨n, hagree⟩, fun fps hfps => ?_⟩
    obtain rfl := Option.some.inj (hstreams.symm.trans hfps)
    obtain ⟨hleft1, hleft2⟩ := hcontent n hagree
    refine ⟨hleft1 ▸ hleft, fun hempty => hleft (List.length_eq_zero_iff.mp ?_)⟩
    rw [hagree.length_after h.length, ← hleft2, hempty]
    rfl

lemma CheckedFile.NoFailure.comesToComparison (h1 : file1.NoFailure) (h2 : file2.NoFailure)
    (heq : file1.content = file2.content) : ComesToComparison md5 file1 file2 := by
  refine ⟨h1.stat, h2.stat, congrArg _ heq, h1.digestOpen, h2.digestOpen, fun n m hn hm => ?_⟩
  rw [h1.digestRead.taken_endsAt (by decide) hn, h2.digestRead.taken_endsAt (by decide) hm]
  exact congrArg md5 heq

lemma CheckedFile.NoFailure.agree (h1 : file1.NoFailure) (h2 : file2.NoFailure)
    (heq : file1.content = file2.content) :
    ∃ n, file1.compareStream.AgreeUntil BUFF_LEN file2.compareStream n := by
  obtain ⟨n, -, hn⟩ := Stream.exists_endsAt BUFF_LEN file1.compareStream
  rw [← h1.compareRead.eq h2.compareRead heq]
  exact ⟨n, hn, fun _ _ => rfl⟩

lemma duplicatesRight_compared
    (h : ¬ (ComesToComparison md5 file1 file2 ∧ ComparisonFails file1 file2)) :
    DuplicatesRight md5 file1 file2 Checkdup.ComparedToEnd := by
  by_cases hcomes : ComesToComparison md5 file1 file2
  · have hfails : ¬ ComparisonFails file1 file2 := fun hfails => h ⟨hcomes, hfails⟩
    unfold ComparisonFails at hfails
    rw [not_or, not_or] at hfails
    obtain ⟨hopen1, hopen2, hend⟩ := hfails
    obtain ⟨c, fp1, fp2, hc, hrun, -⟩ := utilCheckdup_compares hcomes
    obtain ⟨_, left1, left2, hc', hstreams, hcmp, hcontent⟩ :=
      cmpFileContent_opened (not_or.mpr ⟨hopen1, hopen2⟩)
    obtain rfl := Except.ok.inj (hc'.symm.trans hc)
    refine ⟨_, hrun, fun hone => ?_, fun h1 h2 heq => if_pos (hcmp.mpr (h1.agree h2 heq))⟩
    obtain ⟨n, hagree⟩ := hcmp.mp (by_contra fun hne => by rw [if_neg hne] at hone; cases hone)
    obtain ⟨hleft1, hleft2⟩ := hcontent n hagree
    have hend1 : (file1.compareStream.after BUFF_LEN n).content = [] :=
      by_contra fun hne => hend ⟨n, hagree, hne⟩
    have hend2 : (file2.compareStream.after BUFF_LEN n).content = [] := by
      refine List.length_eq_zero_iff.mp ?_
      rw [← hagree.length_after hcomes.length, hend1]
      rfl
    exact ⟨⟨left1, left2, hstreams, hleft1.trans hend1, hleft2.trans hend2⟩,
      hagree.content_eq hend1 hend2⟩
  · obtain ⟨run, hrun, hzero⟩ := utilCheckdup_early hcomes
    refine ⟨run, hrun, fun hone => ?_, fun h1 h2 heq => absurd (h1.comesToComparison h2 heq) hcomes⟩
    rw [hzero] at hone
    cases hone

lemma Checkdup.ComparedToEnd.readToEnd {run : Checkdup} (h : run.ComparedToEnd) :
    run.ReadToEnd := by
  obtain ⟨fp1, fp2, hstreams, hfp1, hfp2⟩ := h
  exact ⟨.inr ⟨_, hstreams, hfp1⟩, .inr ⟨_, hstreams, hfp2⟩⟩

end Check

/-- The check is right with its comparison exactly where the comparison does not fail. Where it
does, the result is 1 whatever the files hold; it is right all the same where they are equal and
were read for their digests. -/
theorem duplicates_right_iff (md5 : List UInt8 → Vector UInt8 16) (file1 file2 : CheckedFile) :
    (DuplicatesRight md5 file1 file2 Checkdup.ComparedToEnd ↔
      ¬ (ComesToComparison md5 file1 file2 ∧ ComparisonFails file1 file2)) ∧
    (DuplicatesRight md5 file1 file2 Checkdup.ReadToEnd ↔
      (ComesToComparison md5 file1 file2 ∧ ComparisonFails file1 file2 →
        file1.content = file2.content ∧ file1.DigestComplete ∧ file2.DigestComplete)) := by
  refine ⟨⟨?_, duplicatesRight_compared⟩, ?_, ?_⟩
  · rintro ⟨run, hrun, hone, -⟩ ⟨hcomes, hfails⟩
    obtain ⟨_, fp1, fp2, hrun', hresult, -, -, hcompared⟩ := utilCheckdup_lost hcomes hfails
    obtain rfl := Except.ok.inj (hrun.symm.trans hrun')
    obtain ⟨fp1, fp2, hstreams, hempty, -⟩ := (hone hresult).1
    exact (hcompared _ hstreams).1 hempty
  · rintro ⟨run, hrun, hone, -⟩ ⟨hcomes, hfails⟩
    obtain ⟨_, fp1, fp2, hrun', hresult, ⟨hsum1, hfp1⟩, ⟨hsum2, hfp2⟩, hcompared⟩ :=
      utilCheckdup_lost hcomes hfails
    obtain rfl := Except.ok.inj (hrun.symm.trans hrun')
    obtain ⟨⟨hread1, hread2⟩, heq⟩ := hone hresult
    refine ⟨heq, hfp1.mp ?_, hfp2.mp ?_⟩
    · rcases hread1 with ⟨fp, hsum, hend⟩ | ⟨fps, hfps, hend⟩
      · rwa [Option.some.inj (hsum1.symm.trans hsum)]
      · exact absurd hend (hcompared fps hfps).1
    · rcases hread2 with ⟨fp, hsum, hend⟩ | ⟨fps, hfps, hend⟩
      · rwa [Option.some.inj (hsum2.symm.trans hsum)]
      · exact absurd hend (hcompared fps hfps).2
  · intro h
    by_cases hlost : ComesToComparison md5 file1 file2 ∧ ComparisonFails file1 file2
    · obtain ⟨heq, hdigest1, hdigest2⟩ := h hlost
      obtain ⟨run, fp1, fp2, hrun, hresult, ⟨hsum1, hfp1⟩, ⟨hsum2, hfp2⟩, -⟩ :=
        utilCheckdup_lost hlost.1 hlost.2
      exact ⟨run, hrun, fun _ => ⟨⟨.inl ⟨fp1, hsum1, hfp1.mpr hdigest1⟩,
        .inl ⟨fp2, hsum2, hfp2.mpr hdigest2⟩⟩, heq⟩, fun _ _ _ => hresult⟩
    · obtain ⟨run, hrun, hone, hequal⟩ := duplicatesRight_compared hlost
      exact ⟨run, hrun, fun hresult => ⟨(hone hresult).1.readToEnd, (hone hresult).2⟩, hequal⟩

/-- A file of one byte, of which no read gets anything. -/
def unreadable (c : UInt8) : CheckedFile where
  content := [c]
  stat := true
  digestOpen := true
  digestRead _ := .fails 0
  compareOpen := true
  compareRead _ := .fails 0

/-- Two files that cannot be read are duplicates, whatever the digest. -/
theorem unreadable_duplicates : (unreadable 1).content ≠ (unreadable 2).content ∧
    ∀ md5 : List UInt8 → Vector UInt8 16,
      ¬ DuplicatesRight md5 (unreadable 1) (unreadable 2) Checkdup.ComparedToEnd ∧
        ¬ DuplicatesRight md5 (unreadable 1) (unreadable 2) Checkdup.ReadToEnd := by
  have hdiffer : (unreadable 1).content ≠ (unreadable 2).content := by decide
  refine ⟨hdiffer, fun md5 => ?_⟩
  have hends : ∀ c, (unreadable c).digestStream.EndsAt BUFF_LEN 0 := fun c =>
    Stream.endsAt_zero.mpr rfl
  have hcomes : ComesToComparison md5 (unreadable 1) (unreadable 2) := by
    refine ⟨rfl, rfl, rfl, rfl, rfl, fun n m hn hm => ?_⟩
    rw [hn.unique (hends 1), hm.unique (hends 2)]
    rfl
  have hfails : ComparisonFails (unreadable 1) (unreadable 2) :=
    .inr (.inr ⟨0, Stream.agreeUntil_zero.mpr ⟨rfl, rfl⟩, List.cons_ne_nil _ _⟩)
  obtain ⟨run, -, -, hrun, hresult, -⟩ := utilCheckdup_lost hcomes hfails
  constructor
  · rintro ⟨_, hrun', hone, -⟩
    obtain rfl := Except.ok.inj (hrun.symm.trans hrun')
    exact hdiffer (hone hresult).2
  · rintro ⟨_, hrun', hone, -⟩
    obtain rfl := Except.ok.inj (hrun.symm.trans hrun')
    exact hdiffer (hone hresult).2

end Hfm

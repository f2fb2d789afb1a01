import Hfm.Monitors.Subtree
import Hfm.Support.Text

/-!
# Translation as tokenisation

What `fn_translate` makes of a string depends on the parts between its separators only.
-/

namespace Hfm

open Support

/-- The text of the node numbered `i`, read through `offsets`. -/
def Nodelist.nodeText (nodes : Nodelist) (i : Nat) : CStr :=
  (List.range' (nodes.offset i).toNat
    ((nodes.offset (i + 1)).toNat - (nodes.offset i).toNat)).map fun k : Nat => charAt nodes.str k

/-- The nodes are the nonempty components of the string, one after the other, and have their
types in a pattern. -/
structure Nodelist.Tokenises (nodes : Nodelist) (str : CStr) (isPattern : Bool) : Prop where
  nodeCnt : nodes.nodeCnt = (tokens isSlash str).length
  nodeText : ∀ i (h : i < (tokens isSlash str).length), nodes.nodeText i = (tokens isSlash str)[i]
  nodetype : ∀ i (h : i < (tokens isSlash str).length), isPattern = true →
    nodes.nodetypes[i]?.getD .invalid = kindOf (tokens isSlash str)[i]

/-- The translation is `NULL` for two adjacent separators, and otherwise the tokens. -/
def TranslatesTokens (str : CStr) (isPattern : Bool) : Prop :=
  ∃ nodes?, fnTranslate str isPattern = .ok nodes? ∧ (nodes? = none ↔ Adjacent isSlash str) ∧
    ∀ nodes, nodes? = some nodes → nodes.Tokenises str isPattern

/-- `fn_match` on the translations of a pattern and a path, if there are any. -/
def matchOutcome (pattern path : CStr) : Except Fault (Option Int) := do
  match ← fnTranslate pattern true, ← fnTranslate path false with
  | some pattern, some exp =>
    let (outcome, _, _) ← fnMatch pattern exp
    return some outcome
  | _, _ => return none

/-- The same string with other separators, with or without one in front and one behind. -/
inductive Respelled : CStr → CStr → Prop where
  | separator (u v : CStr) {a b : UInt8} (ha : isSlash a = true) (hb : isSlash b = true) :
      Respelled (u ++ a :: v) (u ++ b :: v)
  | leading {str : CStr} {a : UInt8} (ha : isSlash a = true)
      (hstr : ∀ c ∈ str.head?, isSlash c = false) : Respelled str (a :: str)
  | trailing {str : CStr} {a : UInt8} (ha : isSlash a = true)
      (hstr : ∀ c ∈ str.getLast?, isSlash c = false) (hnul : 0 ∉ str) : Respelled str (str ++ [a])
  | refl (str : CStr) : Respelled str str
  | symm {str str' : CStr} (h : Respelled str str') : Respelled str' str
  | trans {str str' str'' : CStr} (h : Respelled str str') (h' : Respelled str' str'') :
      Respelled str str''

/-! ### Components and tokens -/

lemma separated_iff (str : CStr) : Separated str ↔ ¬Adjacent isSlash str := by
  unfold Separated body
  cases str with
  | nil => exact iff_of_true (by simp) not_adjacent_nil
  | cons c s =>
    dsimp only
    rw [adjacent_cons]
    cases hc : isSlash c with
    | true =>
      rw [if_pos rfl, (nil_mem_parts s).2]
      simp
    | false =>
      rw [if_neg Bool.false_ne_true, (nil_mem_parts (c :: s)).2, adjacent_cons, hc]
      simp [hc]

lemma tokens_body (str : CStr) : tokens isSlash (body str) = tokens isSlash str := by
  unfold body
  cases str with
  | nil => rfl
  | cons c s =>
    dsimp only
    split
    · rename_i hc
      rw [tokens_cons_sep hc]
    · rfl

lemma fullParts_eq (s : CStr) :
    fullParts s = (s.splitOnP isSlash).takeWhile (!·.isEmpty) := by
  unfold fullParts
  congr 1
  funext l
  cases l with
  | nil => rfl
  | cons c l => rfl

/-- In a string without adjacent separators the components are the tokens. -/
lemma components_eq_tokens {str : CStr} (hsep : Separated str) :
    components str = tokens isSlash str := by
  unfold components
  rw [fullParts_eq, takeWhile_parts hsep, ← tokens_body str]
  rfl

lemma components_prefix_tokens (str : CStr) : components str <+: tokens isSlash str := by
  unfold components
  rw [fullParts_eq, ← tokens_body str]
  exact takeWhile_prefix_filter _ _

/-! ### The nodes -/

section Nodes

variable {nodes : Nodelist} {comps : List CStr} {isPattern : Bool}

lemma Nodelist.Lists.toNat_offset (h : nodes.Lists comps isPattern)
    (hlen : comps.flatten.length < MAX_PATH_LEN) {k : Nat} (hk : k ≤ comps.length) :
    (nodes.offset k).toNat = startOf comps k := by
  have hle := startOf_le comps k
  unfold MAX_PATH_LEN at hlen
  rw [h.offset k hk]
  simp only [Nat.toUInt8_eq, UInt8.toNat_ofNat']
  omega

lemma Nodelist.Lists.nodeText (h : nodes.Lists comps isPattern)
    (hlen : comps.flatten.length < MAX_PATH_LEN) {k : Nat} (hk : k < comps.length) :
    nodes.nodeText k = comps[k] := by
  have hholds := h.holdsFrom hk
  unfold Nodelist.nodeText
  rw [h.toNat_offset hlen hk.le, h.toNat_offset hlen hk, startOf_succ comps hk,
    Nat.add_sub_cancel_left]
  apply List.ext_getElem
  · rw [List.length_map, List.length_range']
  · intro t _ ht
    rw [List.getElem_map, List.getElem_range']
    have hcell := hholds t ht
    rw [← hcell]
    congr 1

lemma Nodelist.Lists.kindOf_eq (h : nodes.Lists comps true)
    (hlen : comps.flatten.length < MAX_PATH_LEN) {k : Nat} (hk : k < comps.length) :
    nodes.nodetypes[k]?.getD .invalid = kindOf comps[k] := by
  rw [h.nodetype k hk rfl]
  apply findNodeType_eq
  · rw [h.toNat_offset hlen hk.le]
    exact h.holdsFrom hk
  · rw [h.toNat_offset hlen hk.le, h.toNat_offset hlen hk, startOf_succ comps hk]

end Nodes

/-- Within the limits a translation is a tokenisation. -/
lemma translatesTokens {str : CStr} (hnul : 0 ∉ str)
    (hlen : (tokens isSlash str).flatten.length < MAX_PATH_LEN)
    (hcnt : (tokens isSlash str).length < MAX_DIR_LEVEL) (isPattern : Bool) :
    TranslatesTokens str isPattern := by
  obtain ⟨more, hmore⟩ := components_prefix_tokens str
  have hroom : Room (components str) := by
    rw [← hmore, List.flatten_append, List.length_append] at hlen
    rw [← hmore, List.length_append] at hcnt
    exact ⟨by omega, by omega⟩
  by_cases hsep : Separated str
  · have hcomps := components_eq_tokens hsep
    obtain ⟨nodes, hok, hlists⟩ :=
      fnTranslate_lists hnul hsep hroom (by rw [hcomps]; exact hcnt) isPattern
    rw [hcomps] at hlists
    refine ⟨some nodes, hok, iff_of_false (by simp) ((separated_iff str).mp hsep), ?_⟩
    rintro _ ⟨⟩
    refine ⟨hlists.nodeCnt, fun i hi => hlists.nodeText hlen hi, fun i hi hp => ?_⟩
    subst hp
    exact hlists.kindOf_eq hlen hi
  · refine ⟨none, fnTranslate_rejected hnul hsep hroom isPattern, iff_of_true rfl ?_, ?_⟩
    · exact not_not.mp fun hadj => hsep ((separated_iff str).mpr hadj)
    · exact fun _ h => by cases h

/-! ### Other spellings -/

namespace TranslateState

/-- The same state with other source pointers. -/
def withPointers (st : TranslateState) (strPtr lastSlash : Int) : TranslateState :=
  { st with strPtr, lastSlash }

/-- A state without its source pointers. -/
def written (st : TranslateState) : TranslateState := st.withPointers 0 0

lemma markOffset_withPointers (st : TranslateState) (p l : Int) :
    (st.withPointers p l).markOffset = st.markOffset.map (·.withPointers p l) := by
  unfold markOffset withPointers
  dsimp only
  split
  · rfl
  · rfl

lemma putChar_withPointers (st : TranslateState) (ch : UInt8) (p l : Int) :
    (st.withPointers p l).putChar ch = (st.putChar ch).map (·.withPointers p l) := by
  unfold putChar withPointers
  dsimp only
  split
  · rfl
  · rfl

lemma markOffset_pointers {st st' : TranslateState} (h : st.markOffset = .ok st') :
    st'.strPtr = st.strPtr ∧ st'.lastSlash = st.lastSlash := by
  unfold markOffset at h
  split at h
  · cases h
    exact ⟨rfl, rfl⟩
  · cases h

lemma putChar_pointers {st st' : TranslateState} {ch : UInt8} (h : st.putChar ch = .ok st') :
    st'.strPtr = st.strPtr ∧ st'.lastSlash = st.lastSlash := by
  unfold putChar at h
  split at h
  · cases h
    exact ⟨rfl, rfl⟩
  · cases h

/-- The stores for a character that is not a separator, and the step over it. -/
def putNext (st : TranslateState) (ch : UInt8) : Except Fault TranslateState :=
  if st.strPtr - st.lastSlash = 1 then do
    let st ← st.markOffset
    let st ← st.putChar ch
    return { st with nodeCnt := st.nodeCnt + 1, strPtr := st.strPtr + 1 }
  else do
    let st ← st.putChar ch
    return { st with strPtr := st.strPtr + 1 }

lemma putNext_pointers {st st' : TranslateState} {ch : UInt8} (h : st.putNext ch = .ok st') :
    st'.strPtr = st.strPtr + 1 ∧ st'.lastSlash = st.lastSlash := by
  unfold putNext at h
  split at h
  · obtain ⟨st₁, hmark, h⟩ := bind_eq_ok.mp h
    obtain ⟨st₂, hput, h⟩ := bind_eq_ok.mp h
    cases h
    obtain ⟨hptr₁, hlast₁⟩ := markOffset_pointers hmark
    obtain ⟨hptr₂, hlast₂⟩ := putChar_pointers hput
    exact ⟨by rw [hptr₂, hptr₁], by rw [hlast₂, hlast₁]⟩
  · obtain ⟨st₂, hput, h⟩ := bind_eq_ok.mp h
    cases h
    obtain ⟨hptr₂, hlast₂⟩ := putChar_pointers hput
    exact ⟨by rw [hptr₂], by rw [hlast₂]⟩

lemma putNext_withPointers (st : TranslateState) (ch : UInt8) {p l : Int}
    (h : p - l = st.strPtr - st.lastSlash) :
    (st.withPointers p l).putNext ch = (st.putNext ch).map (·.withPointers (p + 1) l) := by
  have hptr : (st.withPointers p l).strPtr - (st.withPointers p l).lastSlash =
      st.strPtr - st.lastSlash := h
  unfold putNext
  rw [hptr, markOffset_withPointers, putChar_withPointers]
  split
  · cases st.markOffset with
    | error e => rfl
    | ok st₁ =>
      change (st₁.withPointers p l).putChar ch >>= _ = _
      rw [putChar_withPointers]
      change _ = (st₁.putChar ch >>= _).map _
      cases st₁.putChar ch with
      | error e => rfl
      | ok st₂ => rfl
  · cases st.putChar ch with
    | error e => rfl
    | ok st₂ => rfl

end TranslateState

/-- What the loop writes. -/
def loopWritten (s : CStr) (st : TranslateState) : Except Fault (Option TranslateState) :=
  (translateLoop s st).map (Option.map TranslateState.written)

section Loop

variable {ch : UInt8} {s : CStr} {st : TranslateState}

lemma loopWritten_char (hnul : ch ≠ 0) (hch : isSlash ch = false) :
    loopWritten (ch :: s) st = st.putNext ch >>= loopWritten s := by
  unfold loopWritten TranslateState.putNext
  rw [translateLoop, if_neg hnul, hch, if_neg Bool.false_ne_true]
  split
  · cases st.markOffset with
    | error e => rfl
    | ok st₁ =>
      change (st₁.putChar ch >>= _).map _ = (st₁.putChar ch >>= _) >>= _
      cases st₁.putChar ch with
      | error e => rfl
      | ok st₂ => rfl
  · cases st.putChar ch with
    | error e => rfl
    | ok st₂ => rfl

lemma loopWritten_slash (hch : isSlash ch = true) : loopWritten (ch :: s) st =
    if st.strPtr - st.lastSlash = 1 then .ok none
    else loopWritten s (st.withPointers (st.strPtr + 1) st.strPtr) := by
  have hnul : ch ≠ 0 := by
    rintro rfl
    cases hch
  unfold loopWritten
  rw [translateLoop, if_neg hnul, hch, if_pos rfl]
  split
  · rfl
  · rfl

/-- Only the distance of the two source pointers counts. -/
lemma loopWritten_withPointers (s : CStr) : ∀ (st : TranslateState) {p l : Int},
    p - l = st.strPtr - st.lastSlash → loopWritten s (st.withPointers p l) = loopWritten s st := by
  induction s with
  | nil => exact fun _ _ _ _ => rfl
  | cons ch s ih =>
    intro st p l h
    by_cases hnul : ch = 0
    · subst hnul
      rfl
    cases hch : isSlash ch with
    | true =>
      rw [loopWritten_slash hch, loopWritten_slash hch]
      have hptr : (st.withPointers p l).strPtr - (st.withPointers p l).lastSlash =
          st.strPtr - st.lastSlash := h
      rw [hptr]
      split
      · rfl
      · change loopWritten s ((st.withPointers (st.strPtr + 1) st.strPtr).withPointers (p + 1) p) = _
        apply ih
        change p + 1 - p = st.strPtr + 1 - st.strPtr
        omega
    | false =>
      rw [loopWritten_char hnul hch, loopWritten_char hnul hch, TranslateState.putNext_withPointers st ch h]
      cases hput : st.putNext ch with
      | error e => rfl
      | ok st' =>
        obtain ⟨hptr, hlast⟩ := TranslateState.putNext_pointers hput
        apply ih
        omega

/-- One separator behind a character that is none. -/
lemma loopWritten_trailing {a : UInt8} (ha : isSlash a = true) (s : CStr) :
    ∀ {st : TranslateState}, 0 ∉ s → (∀ c ∈ s.getLast?, isSlash c = false) →
      1 ≤ st.strPtr - st.lastSlash → (s = [] → 2 ≤ st.strPtr - st.lastSlash) →
      loopWritten (s ++ [a]) st = loopWritten s st := by
  induction s with
  | nil =>
    intro st _ _ _ hdiff
    have := hdiff rfl
    rw [List.nil_append, loopWritten_slash ha, if_neg (by omega)]
    rfl
  | cons ch s ih =>
    intro st hnul hlast hpos _
    rw [List.mem_cons, not_or] at hnul
    have htail : ∀ c ∈ s.getLast?, isSlash c = false := by
      intro c hc
      refine hlast c ?_
      cases s with
      | nil => cases hc
      | cons d s => rwa [List.getLast?_cons_cons]
    rw [List.cons_append]
    cases hch : isSlash ch with
    | true =>
      rw [loopWritten_slash hch, loopWritten_slash hch]
      split
      · rfl
      · have hdiff : st.strPtr + 1 - st.strPtr = 1 := by omega
        refine ih hnul.2 htail (le_of_eq hdiff.symm) fun hs => ?_
        subst hs
        rw [hlast ch rfl] at hch
        cases hch
    | false =>
      rw [loopWritten_char (Ne.symm hnul.1) hch, loopWritten_char (Ne.symm hnul.1) hch]
      cases hput : st.putNext ch with
      | error e => rfl
      | ok st' =>
        obtain ⟨hptr, hlast'⟩ := TranslateState.putNext_pointers hput
        exact ih hnul.2 htail (by omega) fun _ => by omega

/-- Which separator it is does not matter. -/
lemma loopWritten_separator {a b : UInt8} (ha : isSlash a = true) (hb : isSlash b = true)
    (u v : CStr) : ∀ st, loopWritten (u ++ a :: v) st = loopWritten (u ++ b :: v) st := by
  induction u with
  | nil =>
    intro st
    rw [List.nil_append, List.nil_append, loopWritten_slash ha, loopWritten_slash hb]
  | cons ch u ih =>
    intro st
    by_cases hnul : ch = 0
    · subst hnul
      rfl
    rw [List.cons_append, List.cons_append]
    cases hch : isSlash ch with
    | true =>
      rw [loopWritten_slash hch, loopWritten_slash hch, ih]
    | false =>
      rw [loopWritten_char hnul hch, loopWritten_char hnul hch]
      exact congrArg _ (funext ih)

end Loop

lemma fnTranslate_written (str : CStr) (isPattern : Bool) : fnTranslate str isPattern =
    loopWritten (body str) (translateStart str) >>= fun st? =>
      match st? with
      | none => .ok none
      | some st => markEnd isPattern st := by
  rw [fnTranslate_eq]
  unfold loopWritten
  cases translateLoop (body str) (translateStart str) with
  | error e => rfl
  | ok st? =>
    cases st? with
    | none => rfl
    | some st => rfl

lemma body_cons_slash {a : UInt8} (ha : isSlash a = true) (str : CStr) : body (a :: str) = str :=
  if_pos ha

lemma body_of_head {str : CStr} (h : ∀ c ∈ str.head?, isSlash c = false) : body str = str := by
  cases str with
  | nil => rfl
  | cons c s => exact if_neg (by rw [h c rfl]; exact Bool.false_ne_true)

lemma translateStart_slash {a : UInt8} (ha : isSlash a = true) (str : CStr) :
    translateStart (a :: str) = (translateStart []).withPointers 1 0 :=
  if_pos ha

lemma translateStart_of_head {str : CStr} (h : ∀ c ∈ str.head?, isSlash c = false) :
    translateStart str = translateStart [] := by
  cases str with
  | nil => rfl
  | cons c s => exact if_neg (by rw [h c rfl]; exact Bool.false_ne_true)

lemma fnTranslate_separator {a b : UInt8} (ha : isSlash a = true) (hb : isSlash b = true)
    (u v : CStr) (isPattern : Bool) :
    fnTranslate (u ++ a :: v) isPattern = fnTranslate (u ++ b :: v) isPattern := by
  rw [fnTranslate_written, fnTranslate_written]
  cases u with
  | nil =>
    rw [List.nil_append, List.nil_append, body_cons_slash ha, body_cons_slash hb,
      translateStart_slash ha, translateStart_slash hb]
  | cons c u =>
    have hstart : translateStart (c :: u ++ a :: v) = translateStart (c :: u ++ b :: v) := rfl
    rw [hstart]
    congr 1
    cases hc : isSlash c with
    | true =>
      rw [List.cons_append, List.cons_append, body_cons_slash hc, body_cons_slash hc]
      exact loopWritten_separator ha hb u v _
    | false =>
      have hhead : ∀ w : CStr, body (c :: u ++ w) = c :: u ++ w := fun w =>
        body_of_head fun d hd => by
          cases hd
          exact hc
      rw [hhead, hhead]
      exact loopWritten_separator ha hb (c :: u) v _

lemma fnTranslate_leading {str : CStr} {a : UInt8} (ha : isSlash a = true)
    (hstr : ∀ c ∈ str.head?, isSlash c = false) (isPattern : Bool) :
    fnTranslate (a :: str) isPattern = fnTranslate str isPattern := by
  rw [fnTranslate_written, fnTranslate_written, body_cons_slash ha, body_of_head hstr,
    translateStart_slash ha, translateStart_of_head hstr]
  congr 1
  exact loopWritten_withPointers str _ rfl

lemma fnTranslate_trailing {str : CStr} {a : UInt8} (ha : isSlash a = true)
    (hstr : ∀ c ∈ str.getLast?, isSlash c = false) (hnul : 0 ∉ str) (isPattern : Bool) :
    fnTranslate (str ++ [a]) isPattern = fnTranslate str isPattern := by
  cases str with
  | nil => exact fnTranslate_leading ha (by simp) isPattern
  | cons c s =>
    have hstart : translateStart (c :: s ++ [a]) = translateStart (c :: s) := rfl
    have hdiff := (translateStart_holds (c :: s)).2
    rw [fnTranslate_written, fnTranslate_written, hstart]
    congr 1
    cases hc : isSlash c with
    | true =>
      have hne : s ≠ [] := by
        rintro rfl
        rw [hstr c rfl] at hc
        cases hc
      rw [List.cons_append, body_cons_slash hc, body_cons_slash hc]
      refine loopWritten_trailing ha s (fun h => hnul (List.mem_cons_of_mem _ h)) (fun d hd => ?_)
        hdiff.ge fun h => absurd h hne
      obtain ⟨e, s, rfl⟩ := List.exists_cons_of_ne_nil hne
      exact hstr d (by rwa [List.getLast?_cons_cons])
    | false =>
      have hhead : ∀ w : CStr, body (c :: s ++ w) = c :: s ++ w := fun w =>
        body_of_head fun d hd => by
          cases hd
          exact hc
      have hself := hhead []
      rw [List.append_nil] at hself
      rw [hhead, hself]
      exact loopWritten_trailing ha (c :: s) hnul hstr hdiff.ge fun h => by cases h

lemma Respelled.fnTranslate_eq {str str' : CStr} (h : Respelled str str') (isPattern : Bool) :
    fnTranslate str' isPattern = fnTranslate str isPattern := by
  induction h with
  | separator u v ha hb => exact fnTranslate_separator hb ha u v isPattern
  | leading ha hstr => exact fnTranslate_leading ha hstr isPattern
  | trailing ha hstr hnul => exact fnTranslate_trailing ha hstr hnul isPattern
  | refl => rfl
  | symm _ ih => exact ih.symm
  | trans _ _ ih ih' => exact ih'.trans ih

/-- Within the limits a translation is a tokenisation; the choice of separators, one in front and
one behind never change the outcome of a match. -/
theorem translation_is_tokenisation :
    (∀ (str : CStr) (isPattern : Bool), 0 ∉ str →
      (tokens isSlash str).flatten.length < MAX_PATH_LEN →
      (tokens isSlash str).length < MAX_DIR_LEVEL → TranslatesTokens str isPattern) ∧
    ∀ pattern pattern' path path' : CStr, Respelled pattern pattern' → Respelled path path' →
      matchOutcome pattern' path' = matchOutcome pattern path := by
  refine ⟨fun str isPattern hnul hlen hcnt => translatesTokens hnul hlen hcnt isPattern, ?_⟩
  intro pattern pattern' path path' hpattern hpath
  unfold matchOutcome
  rw [hpattern.fnTranslate_eq, hpath.fnTranslate_eq]

theorem translation_is_tokenisation_mixed :
    TranslatesTokens (cstr "/a*\\**/b/") true ∧
      matchOutcome (cstr "/root\\*") (cstr "root/x/") = matchOutcome (cstr "/root/*") (cstr "root/x") :=
  ⟨translation_is_tokenisation.1 _ true (by decide) (by decide) (by decide),
    translation_is_tokenisation.2 _ _ _ _ (.separator (cstr "/root") (cstr "*") rfl rfl)
      (.trailing rfl (fun _ hc => by cases hc; rfl) (by decide))⟩

end Hfm

import Hfm.Monitors.Subtree
import Hfm.Support.GlobShape
import Mathlib.Data.List.Find

/-!
# Patterns that are matched as they read

`_match` goes on behind `**` from the first place where the next component fits. For patterns of
names, `*` and `**`, in which every component behind the first `**` stands between two of them,
that is the right place.
-/

namespace Hfm

open Support

/-- A pattern as it reads: `**` is for one or more components, `*` for any single one. -/
def nameGlob : Glob CStr CStr where
  star c := c = [starChar, starChar]
  accepts c e := c = [starChar] ∨ c = e

/-- Every component is a name, `*` or `**`. -/
def PlainPattern (pattern : CStr) : Prop :=
  ∀ c ∈ components pattern, starChar ∈ c → c = [starChar] ∨ c = [starChar, starChar]

instance (pattern : CStr) : Decidable (PlainPattern pattern) :=
  inferInstanceAs (Decidable (∀ c ∈ components pattern, _ → _))

/-- A pattern of which the matcher finds every path. -/
structure Findable (pattern : CStr) : Prop where
  plain : PlainPattern pattern
  steady : nameGlob.Steady (components pattern)

instance (pattern : CStr) : Decidable (Findable pattern) :=
  decidable_of_iff (PlainPattern pattern ∧ nameGlob.Steady (components pattern))
    ⟨fun h => ⟨h.1, h.2⟩, fun h => ⟨h.plain, h.steady⟩⟩

lemma kindOf_eq_doubleStar {c : CStr} : kindOf c = .doubleStar ↔ c = [starChar, starChar] := by
  unfold kindOf
  split
  · rename_i hc
    simp [hc]
  · split
    · rename_i hc
      simp [hc]
    · rename_i hc
      split <;> simp [hc]

section Nodes

variable {pat exp : Nodelist} {comps path : List CStr} {flag : Bool}

/-- The numbers of the nodes and their texts. -/
lemma Nodelist.Lists.nodes_related {nodes : Nodelist} (h : nodes.Lists comps flag) :
    List.Forall₂ (fun i c => comps[i]? = some c) nodes.nodes comps := by
  unfold Nodelist.nodes
  rw [h.nodeCnt, List.forall₂_iff_get]
  refine ⟨List.length_range, fun i hi hi' => ?_⟩
  simp

variable (h : pat.Lists comps true) (he : exp.Lists path flag)
  (hplim : ∀ i, ¬EndsAtLimit comps i) (helim : ∀ j, ¬EndsAtLimit path j)
  (hne : ∀ c ∈ comps, c ≠ []) (hne' : ∀ e ∈ path, e ≠ [])

include h hplim hne in
lemma star_related {i : Nat} {c : CStr} (hc : comps[i]? = some c) :
    (nodeGlob pat exp).star i = nameGlob.star c := by
  obtain ⟨hi, rfl⟩ := List.getElem?_eq_some_iff.mp hc
  rw [nodeGlob_star h hi (hplim i) (hne _ (List.getElem_mem hi))]
  exact decide_eq_decide.mpr kindOf_eq_doubleStar

include h he hplim helim hne hne' in
lemma accepts_related
    (hplain : ∀ c ∈ comps, starChar ∈ c → c = [starChar] ∨ c = [starChar, starChar])
    (hnul : ∀ c ∈ comps, 0 ∉ c) {i j : Nat} {c e : CStr} (hc : comps[i]? = some c)
    (hpath : path[j]? = some e) (hstar : nameGlob.star c = false) :
    (nodeGlob pat exp).accepts i j = nameGlob.accepts c e := by
  obtain ⟨hi, rfl⟩ := List.getElem?_eq_some_iff.mp hc
  obtain ⟨hj, rfl⟩ := List.getElem?_eq_some_iff.mp hpath
  have hmem := List.getElem_mem hi
  by_cases hname : starChar ∈ comps[i]
  · have hone : comps[i] = [starChar] :=
      (hplain _ hmem hname).resolve_right (of_decide_eq_false hstar)
    refine (matchCurNode_star h hi (hplim i) hone _).trans ?_
    exact (decide_eq_true (.inl hone)).symm
  · have hother : comps[i] ≠ [starChar] := by
      intro hone
      rw [hone] at hname
      exact hname List.mem_cons_self
    refine (matchCurNode_name h he hi hj (hplim i) (helim j) (hne _ hmem)
      (hne' _ (List.getElem_mem hj)) (hnul _ hmem) hname).trans ?_
    exact decide_eq_decide.mpr (or_iff_right hother).symm

end Nodes

/-- The matcher decides what such a pattern reads. -/
lemma Findable.accepts_iff {pattern path : CStr} (h : Findable pattern) (hnul : 0 ∉ pattern)
    (hnul' : 0 ∉ path) (hsep : Separated pattern) (hsep' : Separated path)
    (hlim : WithinLimits pattern) (hlim' : WithinLimits path) :
    accepts pattern path = true ↔ nameGlob.Cut (components pattern) (components path) := by
  obtain ⟨pat, hpat, hlists⟩ := hlim.translated hnul hsep true
  obtain ⟨exp, hexp, hlists'⟩ := hlim'.translated hnul' hsep' false
  have hplim := not_endsAtLimit (hlim.flatten_lt hsep)
  have helim := not_endsAtLimit (hlim'.flatten_lt hsep')
  have hne : ∀ {str : CStr}, ∀ c ∈ components str, c ≠ [] := fun c hc => ne_nil_of_mem_components hc
  have hstar : ∀ i c, (components pattern)[i]? = some c →
      (nodeGlob pat exp).star i = nameGlob.star c := fun i c => star_related hlists hplim hne
  have hfit : (nodeGlob pat exp).firstFit pat.nodes exp.nodes = true :=
    ((Glob.steady_congr hstar hlists.nodes_related).mpr h.steady).firstFit _
  have hcut := Glob.cut_congr hstar
    (fun i c j e hc he hs => accepts_related hlists hlists' hplim helim hne hne h.plain
      (fun c hc => nul_notMem_components hnul hc) hc he hs)
    hlists.nodes_related hlists'.nodes_related
  rw [← hcut]
  rw [pat.nodes_eq, exp.nodes_eq] at hfit ⊢
  obtain ⟨b, i, j, hw, hb⟩ := walk_firstFit (exp.nodeCnt + 1) 0 0 (Nat.zero_le _) (Nat.zero_le _)
    (by omega) hfit
  rw [← hb]
  unfold accepts
  rw [hpat, hexp]
  dsimp only
  unfold Nodelist.fits
  rw [fnMatch_walk pat exp hw]
  cases b <;> simp [MATCH, NO_MATCH]

open Classical in
/-- The identifier of the oldest pattern that the path reads along, or -1. -/
noncomputable def firstReading (added : Added) (path : CStr) : Int :=
  if Separated path then
    ((added.find? fun a => nameGlob.Cut (components a.1) (components path)).map Prod.snd).getD (-1)
  else -1

section Filter

variable {calls : List FilterCall} (hnul : ∀ call ∈ calls, 0 ∉ call.str)
  (hlim : ∀ call ∈ calls, WithinLimits call.str)

include hnul hlim in
/-- A pattern that got into the filter. -/
lemma separated_of_succeeded {pattern : CStr} {id : Int} (h : (pattern, id) ∈ succeeded calls) :
    0 ∉ pattern ∧ WithinLimits pattern ∧ Separated pattern := by
  obtain ⟨call, hcall, hput⟩ := List.mem_filterMap.mp h
  cases call with
  | ask path => cases hput
  | add pattern' id' =>
    change (if (translated pattern').isSome then some (pattern', id') else none) = _ at hput
    by_cases hsome : (translated pattern').isSome = true
    · rw [if_pos hsome] at hput
      cases hput
      have hnul₁ : 0 ∉ pattern := hnul _ hcall
      have hlim₁ : WithinLimits pattern := hlim _ hcall
      refine ⟨hnul₁, hlim₁, ?_⟩
      by_contra hsep
      have hrejected := fnTranslate_rejected hnul₁ hsep hlim₁.room true
      unfold translated at hsome
      rw [hrejected] at hsome
      cases hsome
    · rw [if_neg hsome] at hput
      cases hput

include hnul hlim in
lemma firstId_eq_firstReading (hfind : ∀ a ∈ succeeded calls, Findable a.1) {added : Added}
    (hadded : ∀ a ∈ added, a ∈ succeeded calls) {path : CStr} (hnul' : 0 ∉ path)
    (hlim' : WithinLimits path) : firstId added path = firstReading added path := by
  unfold firstId firstReading
  by_cases hsep : Separated path
  · rw [if_pos hsep]
    congr 2
    apply List.find?_congr
    intro a ha
    classical
    obtain ⟨hnul₁, hlim₁, hsep₁⟩ := separated_of_succeeded hnul hlim (hadded a ha)
    exact Bool.eq_iff_iff.mpr (((hfind a (hadded a ha)).accepts_iff hnul₁ hnul' hsep₁ hsep hlim₁
      hlim').trans decide_eq_true_iff.symm)
  · have hnone : added.find? (fun a => accepts a.1 path) = none := by
      rw [List.find?_eq_none]
      intro a _ hacc
      obtain ⟨-, exp, -, hexp⟩ := translate_of_accepts hacc
      rw [fnTranslate_rejected hnul' hsep hlim'.room] at hexp
      cases hexp
    rw [if_neg hsep, hnone]
    rfl

end Filter

/-- If all patterns in a filter are of this kind, every question is answered by the oldest of
them that the path reads along, whatever the calls before were. -/
theorem findable_patterns_exact {calls : List FilterCall} (hnul : ∀ call ∈ calls, 0 ∉ call.str)
    (hlim : ∀ call ∈ calls, WithinLimits call.str)
    (hroom : (succeeded calls).length ≤ MAX_PATTERNS)
    (hfind : ∀ a ∈ succeeded calls, Findable a.1) :
    ∃ answers filter, runCalls filterInit calls = .ok (answers, filter) ∧
      ∀ i path, calls[i]? = some (.ask path) →
        answers[i]? = some (firstReading (succeeded (calls.take i)) path) := by
  obtain ⟨answers, filter, hrun, -, hanswers⟩ := runCalls_spec calls
    (show filterInit.entries = kept [] from rfl) hnul hlim hroom
  refine ⟨answers, filter, hrun, fun i path hask => ?_⟩
  have hmem := List.mem_of_getElem? hask
  have hadded : ∀ a ∈ succeeded (calls.take i), a ∈ succeeded calls := fun a ha =>
    ((List.take_sublist i calls).filterMap FilterCall.put).subset ha
  rw [hanswers i _ hask, List.nil_append]
  exact congrArg some (firstId_eq_firstReading hnul hlim hfind hadded (hnul _ hmem) (hlim _ hmem))

theorem findable_patterns_exact_subtree :
    ∃ answers filter, runCalls filterInit [.add (cstr "/root/**") 3, .add (cstr "/**/a/**") 7,
        .ask (cstr "/root/x/a/y/a/z")] = .ok (answers, filter) ∧
      ∀ i path, [FilterCall.add (cstr "/root/**") 3, .add (cstr "/**/a/**") 7,
          .ask (cstr "/root/x/a/y/a/z")][i]? = some (.ask path) →
        answers[i]? = some (firstReading (succeeded ([FilterCall.add (cstr "/root/**") 3,
          .add (cstr "/**/a/**") 7, .ask (cstr "/root/x/a/y/a/z")].take i)) path) :=
  findable_patterns_exact (by decide) (by decide) (by decide) (by decide)

/-- The policy that the README gives for a directory is not of this kind. -/
example : Findable (cstr "/root/**") ∧ ¬Findable (cstr "/root/**/*") := by decide

end Hfm

import Hfm.Monitors.FileFilter
import Hfm.Monitors.Translate

/-!
# Runs of calls on a filter

Patterns are added to a filter between the questions put to it. Whatever the earlier calls
were, a question is answered by the patterns that got into the filter.
-/

namespace Hfm

/-- A call on a filter. -/
inductive FilterCall where
  | add (pattern : CStr) (id : Int)
  | ask (path : CStr)
  deriving DecidableEq

namespace FilterCall

/-- The string that comes in. -/
def str : FilterCall → CStr
  | .add pattern _ => pattern
  | .ask path => path

/-- The pattern that gets into the filter, with its identifier. -/
def put : FilterCall → Option (CStr × Int)
  | .add pattern id => if (translated pattern).isSome then some (pattern, id) else none
  | .ask _ => none

def run (filter : Filter) : FilterCall → Except Fault (Int × Filter)
  | .add pattern id => filterAdd filter pattern id
  | .ask path => filterMatch filter path

/-- What the call has to answer when `added` are the patterns in the filter. -/
def answer (added : Added) : FilterCall → Int
  | .add pattern _ => if (translated pattern).isSome then 0 else -1
  | .ask path => firstId added path

end FilterCall

/-- The patterns that the calls put into the filter, the oldest first. -/
def succeeded (calls : List FilterCall) : Added := calls.filterMap FilterCall.put

/-- The answers of the calls, one after the other. -/
def runCalls : Filter → List FilterCall → Except Fault (List Int × Filter)
  | filter, [] => .ok ([], filter)
  | filter, call :: calls => do
    let (answer, filter) ← call.run filter
    let (answers, filter) ← runCalls filter calls
    .ok (answer :: answers, filter)

lemma succeeded_cons (call : FilterCall) (calls : List FilterCall) :
    succeeded (call :: calls) = call.put.toList ++ succeeded calls := by
  unfold succeeded
  cases hput : call.put <;> simp [hput]

lemma length_kept_le (added : Added) : (kept added).length ≤ added.length :=
  List.length_filterMap_le _ _

lemma length_patterns_le {filter : Filter} {added : Added} (hf : filter.entries = kept added) :
    filter.patterns.length ≤ added.length := by
  rw [← length_entries, hf]
  exact length_kept_le added

lemma fnTranslate_withinLimits {str : CStr} (hnul : 0 ∉ str) (hlim : WithinLimits str)
    (isPattern : Bool) : ∃ nodes?, fnTranslate str isPattern = .ok nodes? :=
  ((translatesInside_iff hnul isPattern).mpr hlim).inRange

section Run

variable {filter : Filter} {added : Added}

/-- One call on a filter that keeps the patterns `added`. -/
lemma FilterCall.run_spec (hf : filter.entries = kept added) {call : FilterCall}
    (hnul : 0 ∉ call.str) (hlim : WithinLimits call.str)
    (hroom : (added ++ call.put.toList).length ≤ MAX_PATTERNS) :
    ∃ filter', call.run filter = .ok (call.answer added, filter') ∧
      filter'.entries = kept (added ++ call.put.toList) := by
  cases call with
  | add pattern id =>
    obtain ⟨nodes?, htr⟩ := fnTranslate_withinLimits hnul hlim true
    change fnTranslate pattern true = .ok nodes? at htr
    have htr' : translated pattern = nodes? := by
      unfold translated
      rw [htr]
    cases nodes? with
    | none =>
      refine ⟨filter, ?_, ?_⟩
      · simpa [run, answer, htr'] using filterAdd_rejected filter htr id
      · simpa [put, htr'] using hf
    | some nodes =>
      have hput : (FilterCall.add pattern id).put = some (pattern, id) := by simp [put, htr']
      rw [hput, Option.toList_some, List.length_append, List.length_singleton] at hroom
      have hle := length_patterns_le hf
      obtain ⟨filter', hadd, -⟩ := filterAdd_translated filter htr (by omega) id
      refine ⟨filter', ?_, ?_⟩
      · simpa [run, answer, htr'] using hadd
      · rw [hput]
        exact filterAdd_kept hf hadd
  | ask path =>
    obtain ⟨nodes?, htr⟩ := fnTranslate_withinLimits hnul hlim false
    obtain ⟨filter', hmatch, hf'⟩ := filterMatch_eq filter hf htr
    refine ⟨filter', hmatch, ?_⟩
    simpa [put] using hf'

/-- What a run answers, call by call. -/
lemma runCalls_spec (calls : List FilterCall) : ∀ {filter : Filter} {added : Added},
    filter.entries = kept added → (∀ call ∈ calls, 0 ∉ call.str) →
      (∀ call ∈ calls, WithinLimits call.str) →
      (added ++ succeeded calls).length ≤ MAX_PATTERNS →
      ∃ answers filter', runCalls filter calls = .ok (answers, filter') ∧
        answers.length = calls.length ∧
        ∀ (i : Nat) (call : FilterCall), calls[i]? = some call →
          answers[i]? = some (call.answer (added ++ succeeded (calls.take i))) := by
  induction calls with
  | nil =>
    intro filter added _ _ _ _
    exact ⟨[], filter, rfl, rfl, by simp⟩
  | cons call calls ih =>
    intro filter added hf hnul hlim hroom
    rw [succeeded_cons, ← List.append_assoc] at hroom
    have hfirst : (added ++ call.put.toList).length ≤ MAX_PATTERNS := by
      rw [List.length_append] at hroom
      omega
    obtain ⟨filter₁, hrun, hf₁⟩ := FilterCall.run_spec hf (hnul call (by simp))
      (hlim call (by simp)) hfirst
    obtain ⟨answers, filter₂, hrest, hlen, hanswers⟩ := ih hf₁
      (fun c hc => hnul c (List.mem_cons_of_mem _ hc))
      (fun c hc => hlim c (List.mem_cons_of_mem _ hc)) hroom
    refine ⟨call.answer added :: answers, filter₂, ?_, ?_, ?_⟩
    · rw [runCalls, hrun]
      simp only [bind, Except.bind]
      rw [hrest]
    · rw [List.length_cons, List.length_cons, hlen]
    · intro i c hc
      cases i with
      | zero =>
        rw [List.getElem?_cons_zero] at hc ⊢
        cases hc
        simp [succeeded]
      | succ i =>
        rw [List.getElem?_cons_succ] at hc ⊢
        rw [hanswers i c hc, List.take_succ_cons, succeeded_cons, List.append_assoc]

end Run

/-- Only the calls that put a pattern into the filter count. -/
lemma succeeded_filter (calls : List FilterCall) :
    succeeded (calls.filter fun call => call.put.isSome) = succeeded calls := by
  unfold succeeded
  rw [List.filterMap_filter]
  congr 1
  funext call
  cases call.put <;> simp

lemma length_succeeded_take_le (calls : List FilterCall) (i : Nat) :
    (succeeded (calls.take i)).length ≤ (succeeded calls).length := by
  unfold succeeded
  exact ((List.take_sublist i calls).filterMap _).length_le

/-- Every question is answered by the oldest pattern in the filter that accepts a fresh
translation of the path; and it is answered like that in a filter that saw no rejected
pattern and no question before. -/
theorem filter_answers {calls : List FilterCall} (hnul : ∀ call ∈ calls, 0 ∉ call.str)
    (hlim : ∀ call ∈ calls, WithinLimits call.str)
    (hroom : (succeeded calls).length ≤ MAX_PATTERNS) :
    ∃ answers filter, runCalls filterInit calls = .ok (answers, filter) ∧
      ∀ i path, calls[i]? = some (.ask path) →
        answers[i]? = some (firstId (succeeded (calls.take i)) path) ∧
        ∃ fewer filter', runCalls filterInit
            ((calls.take i).filter (fun call => call.put.isSome) ++ [.ask path]) =
            .ok (fewer, filter') ∧
          fewer.getLast? = answers[i]? := by
  obtain ⟨answers, filter, hrun, -, hanswers⟩ := runCalls_spec calls
    (show filterInit.entries = kept [] from rfl) hnul hlim hroom
  refine ⟨answers, filter, hrun, fun i path hask => ?_⟩
  have hanswer : answers[i]? = some (firstId (succeeded (calls.take i)) path) :=
    hanswers i (.ask path) hask
  refine ⟨hanswer, ?_⟩
  have hmem : ∀ call ∈ (calls.take i).filter (fun call => call.put.isSome) ++ [.ask path],
      call ∈ calls := by
    intro call hcall
    rcases List.mem_append.mp hcall with hcall | hcall
    · exact List.mem_of_mem_take (List.mem_of_mem_filter hcall)
    · rw [List.mem_singleton.mp hcall]
      exact List.mem_of_getElem? hask
  have hlast : succeeded ((calls.take i).filter (fun call => call.put.isSome) ++ [.ask path]) =
      succeeded (calls.take i) := by
    rw [← succeeded_filter (calls.take i)]
    simp [succeeded, FilterCall.put]
  obtain ⟨fewer, filter', hfewer, hlen, hans⟩ := runCalls_spec
    ((calls.take i).filter (fun call => call.put.isSome) ++ [.ask path])
    (show filterInit.entries = kept [] from rfl) (fun call hcall => hnul call (hmem call hcall))
    (fun call hcall => hlim call (hmem call hcall))
    (by rw [List.nil_append, hlast]; exact (length_succeeded_take_le calls i).trans hroom)
  refine ⟨fewer, filter', hfewer, ?_⟩
  have hend := hans ((calls.take i).filter (fun call => call.put.isSome)).length (.ask path)
    (by simp)
  rw [List.take_left, List.nil_append, succeeded_filter] at hend
  rw [List.getLast?_eq_getElem?, hlen, List.length_append, List.length_singleton,
    Nat.add_sub_cancel, hend, hanswer]
  rfl

theorem filter_answers_rejected_between :
    ∃ answers filter, runCalls filterInit [.add (cstr "/a//b") 3, .ask (cstr "/a/b"),
        .add (cstr "/a/*") 7, .ask (cstr "/a/b")] = .ok (answers, filter) ∧
      ∀ i path, [FilterCall.add (cstr "/a//b") 3, .ask (cstr "/a/b"), .add (cstr "/a/*") 7,
          .ask (cstr "/a/b")][i]? = some (.ask path) →
        answers[i]? = some (firstId (succeeded ([FilterCall.add (cstr "/a//b") 3,
          .ask (cstr "/a/b"), .add (cstr "/a/*") 7, .ask (cstr "/a/b")].take i)) path) ∧
        ∃ fewer filter', runCalls filterInit
            (([FilterCall.add (cstr "/a//b") 3, .ask (cstr "/a/b"), .add (cstr "/a/*") 7,
              .ask (cstr "/a/b")].take i).filter (fun call => call.put.isSome) ++ [.ask path]) =
            .ok (fewer, filter') ∧
          fewer.getLast? = answers[i]? :=
  filter_answers (by decide) (by decide) (by decide)

end Hfm

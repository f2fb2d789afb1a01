import Mathlib.Data.List.Basic
import Mathlib.Logic.Function.Basic

/-!
# Items that wait in queues

Items come in at the end of a queue, one queue for each key, and are taken from its front.
So those under a key are taken in the order in which they came in.
-/

namespace Hfm.Support

/-- The items that wait under each key, and those taken, with the time and their key. -/
structure Ledger (κ ρ : Type*) where
  waiting : κ → List ρ
  taken : List (Nat × κ × ρ)

namespace Ledger

variable {κ ρ : Type*}

def empty : Ledger κ ρ := ⟨fun _ => [], []⟩

variable [DecidableEq κ]

/-- The items `filed` come in under `key`. -/
def file (l : Ledger κ ρ) (key : κ) (filed : List ρ) : Ledger κ ρ :=
  { l with waiting := Function.update l.waiting key (l.waiting key ++ filed) }

/-- At `time` the first `g` of the items under `key` are taken. -/
def take (l : Ledger κ ρ) (time : Nat) (key : κ) (g : Nat) : Ledger κ ρ where
  waiting := Function.update l.waiting key ((l.waiting key).drop g)
  taken := l.taken ++ ((l.waiting key).take g).map (time, key, ·)

@[simp] lemma file_waiting (l : Ledger κ ρ) (key : κ) (filed : List ρ) :
    (l.file key filed).waiting = Function.update l.waiting key (l.waiting key ++ filed) := rfl

@[simp] lemma file_taken (l : Ledger κ ρ) (key : κ) (filed : List ρ) :
    (l.file key filed).taken = l.taken := rfl

@[simp] lemma take_waiting (l : Ledger κ ρ) (time : Nat) (key : κ) (g : Nat) :
    (l.take time key g).waiting = Function.update l.waiting key ((l.waiting key).drop g) := rfl

@[simp] lemma take_taken (l : Ledger κ ρ) (time : Nat) (key : κ) (g : Nat) :
    (l.take time key g).taken = l.taken ++ ((l.waiting key).take g).map (time, key, ·) := rfl

/-- The items that were taken under `key`, and then those that wait there. -/
def history (l : Ledger κ ρ) (key : κ) : List ρ :=
  (l.taken.filter (·.2.1 = key)).map (·.2.2) ++ l.waiting key

lemma history_file (l : Ledger κ ρ) (key : κ) (filed : List ρ) (k : κ) :
    (l.file key filed).history k = l.history k ++ if k = key then filed else [] := by
  unfold history
  by_cases hk : k = key
  · subst hk
    simp [List.append_assoc]
  · simp [hk]

/-- Taking items from the front of a queue changes nothing in their order. -/
lemma history_take (l : Ledger κ ρ) (time : Nat) (key : κ) (g : Nat) (k : κ) :
    (l.take time key g).history k = l.history k := by
  have hnow : ((((l.waiting key).take g).map fun x => (time, key, x)).filter (·.2.1 = k)).map
      (·.2.2) = if k = key then (l.waiting key).take g else [] := by
    rw [List.filter_map, List.map_map]
    by_cases hk : k = key
    · subst hk
      simp [Function.comp_def]
    · simp [Function.comp_def, hk, Ne.symm hk]
  unfold history
  rw [take_taken, take_waiting, List.filter_append, List.map_append, hnow, List.append_assoc]
  by_cases hk : k = key
  · subst hk
    rw [if_pos rfl, Function.update_self, List.take_append_drop]
  · rw [if_neg hk, Function.update_of_ne hk, List.nil_append]

end Ledger

end Hfm.Support

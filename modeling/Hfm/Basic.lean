import Mathlib.Algebra.Group.Int.Defs
import Mathlib.Algebra.Group.Nat.Defs
import Mathlib.Data.List.AList
import Mathlib.Data.List.Infix

/-!
# C values shared by the models

Strings, status codes and the faults at which the C program stops having a defined
behaviour. Every modelled function that can reach such a point returns `Except Fault`.
-/

namespace Hfm

/-- A C string: the bytes in front of its terminating NUL. -/
abbrev CStr := List UInt8

/-- An ASCII literal of the source as a C string. -/
def cstr (s : String) : CStr := s.toList.map (fun c => c.toNat.toUInt8)

/-- Points at which the C program has no defined continuation. `diverges` marks a loop
that did not finish within the fuel of its model. -/
inductive Fault where
  | outOfBounds
  | nullPointer
  | useAfterFree
  | divisionByZero
  | badCast
  | diverges
  deriving DecidableEq, Repr

/-- `hfm_status_t`. -/
inductive HfmStatus where
  | success
  | fail
  deriving DecidableEq, Repr

lemma bind_eq_ok {α β ε : Type} {x : Except ε α} {f : α → Except ε β} {b : β} :
    x >>= f = .ok b ↔ ∃ a, x = .ok a ∧ f a = .ok b := by
  cases x with
  | error e => simp [bind, Except.bind]
  | ok a => simp [bind, Except.bind]

lemma bind_ne_error {α β ε : Type} {x : Except ε α} {f : α → Except ε β} {e : ε}
    (hx : x ≠ .error e) (hf : ∀ a, f a ≠ .error e) : x >>= f ≠ .error e := by
  cases x with
  | error e' => exact fun h => hx (congrArg _ (Except.error.inj h))
  | ok a => exact hf a

lemma bind_eq_error {α β ε : Type} {x : Except ε α} {f : α → Except ε β} {e : ε} :
    x >>= f = .error e ↔ x = .error e ∨ ∃ a, x = .ok a ∧ f a = .error e := by
  cases x with
  | error e' => simp [bind, Except.bind]
  | ok a => simp [bind, Except.bind]

lemma mapM_ne_error {α β ε : Type} {f : α → Except ε β} {e : ε} (hf : ∀ a, f a ≠ .error e)
    (l : List α) : l.mapM f ≠ .error e := by
  induction l with
  | nil => exact fun h => by cases h
  | cons a l ih =>
    rw [List.mapM_cons]
    exact bind_ne_error (hf a) fun _ => bind_ne_error ih fun _ h => by cases h

lemma map_eq_ok {ε α β : Type} {f : α → β} {x : Except ε α} {b : β} :
    x.map f = .ok b ↔ ∃ a, x = .ok a ∧ f a = b := by
  cases x with
  | error e =>
    constructor
    · intro h
      cases h
    · rintro ⟨a, h, -⟩
      cases h
  | ok a =>
    constructor
    · intro h
      exact ⟨a, rfl, Except.ok.inj h⟩
    · rintro ⟨a', ha, rfl⟩
      cases ha
      rfl

lemma exists_ok {ε α β : Type} {x : Except ε α} {f : α → β} {b : β}
    (h : x.toOption.map f = some b) : ∃ a, x = .ok a ∧ f a = b := by
  cases x with
  | error e => cases h
  | ok a => exact ⟨a, rfl, Option.some_inj.mp h⟩

/-- A GLib hash table. Inserting at a present key replaces its value. -/
abbrev GHashTable (κ υ : Type) := AList (fun _ : κ => υ)

def STR_BUFF : Nat := 1024
def PATH_MAX_LEN : Nat := 1024

end Hfm

import Hfm.Monitors.PassedPath

/-!
# One call that may create a file

`file_created.c`: the entry callback of `NtOpenFile` and `NtCreateFile` hands its parameters to the
return callback, in the `extra` of the return trap.
-/

namespace Hfm

open Support

/-! ### Sending a record -/

section Send

variable {env : MonEnv} {ctx : MonContext} {call : SendCall}

end Send

/-! ### The call -/

namespace FileCreated

/-- `filter_match` of the create filter. -/
def Answers (s : MonState) (path : CStr) (id : Int) : Prop :=
  ∃ filter filter', s.filters .fileCreated = some filter ∧
    filterMatch filter path = .ok (id, filter')

/-- `Information` of the `IO_STATUS_BLOCK`; none if it cannot be read. -/
def information (ret : MonContext) (context : ContextState) (ioStatusAddr : UInt64) :
    Option UInt64 :=
  ret.calls.read context.calls (ioStatusAddr + ret.hdlr.offsets .ioStatusBlockInformation)

section Entry

variable {entry : MonContext} {s : MonState} {s₁ : ContextState} {ioStatusAddr : UInt64}
  {createMode : UInt32} {i : PathInputs}

lemma Answers.unique {path : CStr} {id id' : Int} (h : Answers s path id) (h' : Answers s path id') :
    id = id' := by
  obtain ⟨filter, r, hfilter, hmatch⟩ := h
  obtain ⟨filter', r', hfilter', hmatch'⟩ := h'
  rw [hfilter] at hfilter'
  cases hfilter'
  rw [hmatch] at hmatch'
  cases hmatch'
  rfl

end Entry

section Return

variable {env : MonEnv} {ret : MonContext} {s : MonState} {params : Params}

/-- The condition of the return callback. What cannot be read counts as 0. -/
def Accepted (ret : MonContext) (context : ContextState) (ioStatusAddr : UInt64) : Prop :=
  (information ret context ioStatusAddr).getD 0 = FILE_CREATED ∨
    (information ret context ioStatusAddr).getD 0 = FILE_SUPERSEDED ∧
      ntSuccess ret.regs.rax.toNat = true

instance decidableAccepted (ret : MonContext) (context : ContextState) (ioStatusAddr : UInt64) :
    Decidable (Accepted ret context ioStatusAddr) := inferInstanceAs (Decidable (_ ∨ _))

end Return

/-! ### When it is right -/

section Call

variable {env : MonEnv} {entry ret : MonContext} {context : ContextState} {s : MonState}

variable {s₁ : ContextState} {ioStatusAddr : UInt64} {createMode : UInt32} {i : PathInputs}

end Call

end FileCreated

end Hfm

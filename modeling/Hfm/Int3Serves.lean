import Hfm.Int3Loop
import Hfm.ShadowPages

/-!
# One INT3 event serves the traps at its address

The loop of `_int3_cb` once more, with a record of each trap it visits: whether the byte was
restored, and whether the list node was still alive when the loop read its link.
-/

namespace Hfm

open Support NodeHeap

variable {κ ε σ : Type}

section Log

variable [DecidableEq κ] [DecidableEq ε]

end Log

section Serves

variable [DecidableEq κ] [DecidableEq ε] {vm : Vm κ ε} {reg : List (Trap κ ε)}

end Serves

end Hfm

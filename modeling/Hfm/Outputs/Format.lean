import Hfm.Basic

/-!
# Records

`src/outputs/output_format.h`: what a monitor hands to the output of its VM.
-/

namespace Hfm

def SID_LEN : Nat := 50

/-- A `char [n]` that holds a string. -/
structure CharArray (n : Nat) where
  str : CStr
  lt : str.length < n
  nul : 0 ∉ str
  deriving DecidableEq

def CharArray.empty {n : Nat} (h : 0 < n) : CharArray n := ⟨[], h, List.not_mem_nil⟩

lemma STR_BUFF_pos : 0 < STR_BUFF := by decide
lemma PATH_MAX_LEN_pos : 0 < PATH_MAX_LEN := by decide
lemma SID_LEN_pos : 0 < SID_LEN := by decide

/-- `output_info_t`. No output reads the member `time`. -/
structure OutputInfo where
  timeSec : UInt32
  timeUsec : UInt32
  pid : Int32
  vmid : Int32
  policyId : Int32
  action : Int32
  sid : CharArray SID_LEN
  data : CharArray PATH_MAX_LEN
  filepath : CharArray PATH_MAX_LEN
  extpath : CharArray PATH_MAX_LEN
  deriving DecidableEq

/-- A call of `clastic_insert`. -/
structure ClasticInsert where
  index : CStr
  type : CStr
  query : CStr

/-- `output_t`: the bytes of the file, if it could be opened, and the calls to the server. -/
structure Output where
  fp : Option (List UInt8)
  esType : CStr
  inserted : List ClasticInsert

/-- What a reader gets out of a record. -/
structure Row where
  timeSec : Nat
  timeUsec : Nat
  pid : Int
  vmid : Int
  policyId : Int
  action : Int
  sid : CStr
  data : CStr
  filepath : CStr
  extpath : CStr
  deriving DecidableEq

def OutputInfo.row (info : OutputInfo) : Row where
  timeSec := info.timeSec.toNat
  timeUsec := info.timeUsec.toNat
  pid := info.pid.toInt
  vmid := info.vmid.toInt
  policyId := info.policyId.toInt
  action := info.action.toInt
  sid := info.sid.str
  data := info.data.str
  filepath := info.filepath.str
  extpath := info.extpath.str

end Hfm

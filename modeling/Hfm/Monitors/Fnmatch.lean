import Hfm.Basic

/-!
# Patterns and paths as node lists

`src/monitors/fnmatch.c`: a pattern or a path is split at `/` and `\` into nodes, stored
back to back in one buffer, and matched node by node through two cursors.
-/

namespace Hfm

def MAX_PATH_LEN : Nat := 256
def MAX_DIR_LEVEL : Nat := 13

def MATCH : Int := 0
def NO_MATCH : Int := 1

/-- `'/'` or `'\\'`. -/
def isSlash (ch : UInt8) : Bool := ch == 47 || ch == 92

/-- `'*'`. -/
def starChar : UInt8 := 42

/-- `node_t`. -/
inductive NodeType where
  | invalid
  | character
  | star
  | doubleStar
  | mixedStar
  deriving DecidableEq, Repr

/-- `struct _nodes`. The end mark needs an offset of its own, so a list that could be
built has fewer than `MAX_DIR_LEVEL` nodes. -/
structure Nodelist where
  nodeCnt : Nat
  curNode : UInt8
  offsets : Vector UInt8 MAX_DIR_LEVEL
  nodetypes : Vector NodeType MAX_DIR_LEVEL
  str : Vector UInt8 MAX_PATH_LEN
  cnt_lt : nodeCnt < MAX_DIR_LEVEL
  deriving DecidableEq

/-- A character of the raw buffer. The byte in front of it is the high byte of the last
`nodetypes` entry, which is zero; no loop below goes past a zero byte. -/
def charAt (str : Vector UInt8 MAX_PATH_LEN) (i : Int) : UInt8 :=
  if i < 0 then 0 else str[i.toNat]?.getD 0

/-! ### Translation -/

/-- The variables of the loop of `fn_translate`; the two source pointers are counted from
the start of the string. -/
structure TranslateState where
  strPtr : Int
  lastSlash : Int
  destPtr : Nat
  nodeCnt : Nat
  offsets : Vector UInt8 MAX_DIR_LEVEL
  str : Vector UInt8 MAX_PATH_LEN

/-- `pattern->offsets[pattern->node_cnt] = destPtr - pattern->str` -/
def TranslateState.markOffset (st : TranslateState) : Except Fault TranslateState :=
  if h : st.nodeCnt < MAX_DIR_LEVEL then
    .ok { st with offsets := st.offsets.set st.nodeCnt st.destPtr.toUInt8 }
  else .error .outOfBounds

/-- `*destPtr++ = ch` -/
def TranslateState.putChar (st : TranslateState) (ch : UInt8) : Except Fault TranslateState :=
  if h : st.destPtr < MAX_PATH_LEN then
    .ok { st with str := st.str.set st.destPtr ch, destPtr := st.destPtr + 1 }
  else .error .outOfBounds

/-- The loop of `fn_translate`; `none` is its `goto error`. -/
def translateLoop : CStr → TranslateState → Except Fault (Option TranslateState)
  | [], st => .ok (some st)
  | ch :: rest, st =>
    if ch = 0 then .ok (some st)
    else if isSlash ch then
      if st.strPtr - st.lastSlash = 1 then .ok none
      else translateLoop rest { st with lastSlash := st.strPtr, strPtr := st.strPtr + 1 }
    else if st.strPtr - st.lastSlash = 1 then do
      let st ← st.markOffset
      let st ← st.putChar ch
      translateLoop rest { st with nodeCnt := st.nodeCnt + 1, strPtr := st.strPtr + 1 }
    else do
      let st ← st.putChar ch
      translateLoop rest { st with strPtr := st.strPtr + 1 }

/-- `_find_node_type` -/
def findNodeType (str : Vector UInt8 MAX_PATH_LEN) (start stop : UInt8) : NodeType :=
  let len : Int := (stop.toNat : Int) - start.toNat
  if len = 1 ∧ charAt str start.toNat = starChar then .star
  else if len = 2 ∧ charAt str start.toNat = starChar ∧ charAt str (start.toNat + 1) = starChar then
    .doubleStar
  else if (List.range' start.toNat (stop.toNat - start.toNat)).any
      (fun i => charAt str i = starChar) then .mixedStar
  else .character

/-- `fn_translate`; `none` is the NULL it returns for two adjacent separators. -/
def fnTranslate (str : CStr) (isPattern : Bool) : Except Fault (Option Nodelist) := do
  let (rest, strPtr, lastSlash) : CStr × Int × Int :=
    match str with
    | [] => ([], 0, -1)
    | ch :: rest => if isSlash ch then (rest, 1, 0) else (str, 0, -1)
  let st? ← translateLoop rest
    ⟨strPtr, lastSlash, 0, 0, Vector.replicate _ 0, Vector.replicate _ 0⟩
  match st? with
  | none => .ok none
  | some st =>
    if h : st.nodeCnt < MAX_DIR_LEVEL then
      let offsets := st.offsets.set st.nodeCnt st.destPtr.toUInt8
      let nodetypes := Vector.ofFn fun i : Fin MAX_DIR_LEVEL =>
        if isPattern ∧ i.val < st.nodeCnt then
          findNodeType st.str offsets[i.val] (offsets[i.val + 1]?.getD 0)
        else .invalid
      .ok (some ⟨st.nodeCnt, 0, offsets, nodetypes, st.str, h⟩)
    else .error .outOfBounds

/-! ### Cursor macros -/

namespace Nodelist

/-- `NODE_RESET` -/
def reset (list : Nodelist) : Nodelist := { list with curNode := 0 }

/-- `NODE_NEXT` -/
def next (list : Nodelist) : Nodelist := { list with curNode := list.curNode + 1 }

/-- `NODE_BACK` -/
def back (list : Nodelist) : Nodelist := { list with curNode := list.curNode - 1 }

/-- `NODE_VISITTED_ALL` -/
def visittedAll (list : Nodelist) : Bool := list.nodeCnt ≤ list.curNode.toNat

/-- An entry of `offsets`; zero outside the array. -/
def offset (list : Nodelist) (i : Nat) : UInt8 := list.offsets[i]?.getD 0

/-- `NODE_TYPE` -/
def nodeType (list : Nodelist) : NodeType := list.nodetypes[list.curNode.toNat]?.getD .invalid

/-- `NODE_LEN`, an `int` -/
def nodeLen (list : Nodelist) : Int :=
  ((list.offset (list.curNode.toNat + 1)).toNat : Int) - (list.offset list.curNode.toNat).toNat

/-- `NODE_ADDR` as a position in the buffer. -/
def nodeAddr (list : Nodelist) : Int := (list.offset list.curNode.toNat).toNat

/-- The last character of the current node. -/
def nodeEnd (list : Nodelist) : Int := ((list.offset (list.curNode.toNat + 1)).toNat : Int) - 1

end Nodelist

/-! ### Matching one component -/

section
variable (p f : Vector UInt8 MAX_PATH_LEN)

/-- `strncmp(p + i, f + j, n) == 0` -/
def strncmpEq (i j : Int) : Nat → Bool
  | 0 => true
  | n + 1 =>
    if charAt p i ≠ charAt f j then false
    else if charAt p i = 0 then true
    else strncmpEq (i + 1) (j + 1) n

/-- `n` characters compared downwards: the loop of the form `*abc`. -/
def cmpDown (i j : Int) : Nat → Bool
  | 0 => true
  | n + 1 => if charAt p i ≠ charAt f j then false else cmpDown (i - 1) (j - 1) n

/-- `n` characters compared upwards: the loop of the form `abc*`. -/
def cmpUp (i j : Int) : Nat → Bool
  | 0 => true
  | n + 1 => if charAt p i ≠ charAt f j then false else cmpUp (i + 1) (j + 1) n

/-- `while (*pptr != '*')` upwards. The buffer ends before the fuel does. -/
def cmpUpToStar (i j : Int) : Nat → Bool
  | 0 => false
  | n + 1 =>
    if charAt p i = starChar then true
    else if charAt p i ≠ charAt f j then false
    else cmpUpToStar (i + 1) (j + 1) n

/-- `while (*pptr != '*')` downwards. The buffer ends before the fuel does. -/
def cmpDownToStar (i j : Int) : Nat → Bool
  | 0 => false
  | n + 1 =>
    if charAt p i = starChar then true
    else if charAt p i ≠ charAt f j then false
    else cmpDownToStar (i - 1) (j - 1) n

end

/-- `_match_cur_node` -/
def matchCurNode (pattern exp : Nodelist) : Bool :=
  match pattern.nodeType with
  | .character =>
    pattern.nodeLen = exp.nodeLen &&
      -- `plen` is converted to `size_t`
      strncmpEq pattern.str exp.str pattern.nodeAddr exp.nodeAddr (pattern.nodeLen % 2 ^ 64).toNat
  | .star => true
  | .mixedStar =>
    let start := pattern.nodeAddr
    let stop := pattern.nodeEnd
    if charAt pattern.str start = starChar then
      cmpDown pattern.str exp.str stop exp.nodeEnd (stop - start).toNat
    else if charAt pattern.str stop = starChar then
      cmpUp pattern.str exp.str start exp.nodeAddr (stop - start).toNat
    else
      cmpUpToStar pattern.str exp.str start exp.nodeAddr MAX_PATH_LEN &&
        cmpDownToStar pattern.str exp.str stop exp.nodeEnd MAX_PATH_LEN
  | _ => false

/-! ### Matching node lists -/

/-- `_match`, with the two lists as it leaves them. A call behind `**` that fails leaves
both cursors where the attempt stopped; only the pattern cursor is moved, by one. -/
def matchNodes : Nat → Nodelist → Nodelist → Except Fault (Bool × Nodelist × Nodelist)
  | 0, _, _ => .error .diverges
  | fuel + 1, pattern, exp =>
    if exp.visittedAll && pattern.visittedAll then .ok (true, pattern, exp)
    else if exp.visittedAll && !pattern.visittedAll then .ok (false, pattern, exp)
    else if !exp.visittedAll && pattern.visittedAll then .ok (false, pattern, exp)
    else if pattern.nodeType = .doubleStar then
      match matchNodes fuel pattern.next exp.next with
      | .error e => .error e
      | .ok (true, pattern, exp) => .ok (true, pattern, exp)
      | .ok (false, pattern, exp) => matchNodes fuel pattern.back exp
    else if !matchCurNode pattern exp then .ok (false, pattern, exp)
    else matchNodes fuel pattern.next exp.next

/-- `fn_match`, with the two lists as it leaves them. Every turn of `_match` consumes a path
node, which bounds its fuel. -/
def fnMatch (pattern exp : Nodelist) : Except Fault (Int × Nodelist × Nodelist) := do
  let (isMatch, pattern, exp) ← matchNodes (exp.nodeCnt + 1) pattern.reset exp.reset
  .ok (if isMatch then MATCH else NO_MATCH, pattern, exp)

end Hfm

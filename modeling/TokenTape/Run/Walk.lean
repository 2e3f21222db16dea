import TokenTape.Run.Basic

/-!
# Walking a tape

A walk goes over a view from left to right with a running result and at most one pending operator.
An operand meets the pending operator, or becomes the result where none is pending. A block is run
when its first marker is met, and the walk goes on behind its last one; the operator that was
pending before the block is still pending behind it.

Every view that a block evaluates is shorter than what is left of the view around it. So a walk
ends, unless a loop in it does not.
-/

namespace TokenTape.Run

/-- How far a walk has come. -/
structure Progress where
  result : Binary64
  pending : Option Operator

namespace Progress

def start : Progress :=
  ⟨0, none⟩

/-- The pending operator is applied to an operand. -/
def meet (progress : Progress) (operand : Binary64) : Progress :=
  match progress.pending with
  | some op => ⟨op.apply progress.result operand, none⟩
  | none => ⟨operand, none⟩

end Progress

/-! ## Operands -/

/-- The variable that a number at `offset` is assigned to: it stands two tokens before, in the
view. -/
def target? (setting : Setting) (start offset : Int) : Option Text :=
  if 1 < offset - start then
    match setting.tape.at? (offset - 2) with
    | some (.reference name) => some name
    | _ => none
  else none

def meetNumber (setting : Setting) (start offset : Int) (progress : Progress) (value : Binary64) :
    Run Progress := do
  if progress.pending = some .assign then
    match target? setting start offset with
    | some name => assign setting name value
    | none => fault (.noTarget offset)
  return progress.meet value

def meetVariable (progress : Progress) (name : Text) : Run Progress := do
  let value ← lookup name
  if progress.pending = some .assign then
    fault (.variableAssigned name)
  return progress.meet value

/-! ## Blocks -/

/-- The offset of a block's last marker. -/
structure BlockEnd (start stop : Int) where
  offset : Int
  start_le : start ≤ offset
  le_stop : offset ≤ stop

def findEnd (setting : Setting) (kind : Control) (start stop : Int) (h : start ≤ stop) :
    Run (BlockEnd start stop) :=
  match found : setting.tape.findMarker kind start stop true with
  | .ok offset => pure ⟨offset, (Tape.findMarker_mem h found).1, (Tape.findMarker_mem h found).2⟩
  | .error e => throw e

/-- The branches of an if block: `[start, thenStop)` and `[elseStart, last)`. -/
structure Branches (start stop : Int) where
  thenStop : Int
  elseStart : Int
  last : BlockEnd start stop
  thenStop_le : thenStop ≤ last.offset
  start_le : start ≤ elseStart

/-- With a marker between them, the else branch begins at it. Without one it is empty. -/
def findBranches (setting : Setting) (start stop : Int) (h : start ≤ stop) :
    Run (Branches start stop) :=
  match found : setting.tape.firstMarker? .orElse start stop with
  | .error e => throw e
  | .ok (some offset) => do
    have hmem := Tape.firstMarker?_mem found
    let last ← findEnd setting .endIf offset stop (by omega)
    return ⟨offset, offset, ⟨last.offset, by have := last.start_le; omega, last.le_stop⟩,
      last.start_le, hmem.1⟩
  | .ok none => do
    let last ← findEnd setting .endIf start stop h
    return ⟨last.offset, last.offset, last, Int.le_refl _, last.start_le⟩

/-- Runs the body of a loop for `count`, `count + 1` and so on up to `last`. Each time the count
goes to one variable before and the body's result to another one after. -/
def loopBody (setting : Setting) (name accumulator : Text) (body : Run Binary64)
    (last : Binary64) (rounds : Nat) (count result : Binary64) : Run Binary64 :=
  if count ≤ last then
    match rounds with
    | 0 => throw .unfinished
    | rounds + 1 => do
      assign setting name count
      let result ← body
      assign setting accumulator result
      loopBody setting name accumulator body last rounds (count + 1) result
  else pure result

/-- The name at an offset, where a block wants a variable. -/
def fetchName (setting : Setting) (offset : Int) (otherwise : Token → Fault) : Run Text := do
  match ← fetch setting offset with
  | .reference name => return name
  | token => fault (otherwise token)

/-! ## The walk -/

mutual

/-- The result of a view. -/
def range (setting : Setting) (start stop : Int) : Run Binary64 := do
  return (← walk setting start stop start .start).result
termination_by ((stop - start).toNat, 2)
decreasing_by exact Prod.Lex.right _ (by omega)

/-- Walks from an offset to the end of a view. -/
def walk (setting : Setting) (start stop offset : Int) (progress : Progress) : Run Progress :=
  if offset < stop then do
    let token ← fetch setting offset
    emit setting (.dispatched offset token progress.result progress.pending)
    match token with
    | .number value =>
      let progress ← meetNumber setting start offset progress value
      walk setting start stop (offset + 1) progress
    | .reference name =>
      let progress ← meetVariable progress name
      walk setting start stop (offset + 1) progress
    | .operator kind => walk setting start stop (offset + 1) ⟨progress.result, some kind⟩
    | .control .forLoop =>
      let (result, last) ← forBlock setting offset stop progress.result
      walk setting start stop (last.offset + 1) ⟨result, progress.pending⟩
    | .control .ifThen =>
      let (result, last) ← ifBlock setting offset stop
      walk setting start stop (last.offset + 1) ⟨result, progress.pending⟩
    | .control _ => walk setting start stop (offset + 1) progress
    | .unclassified => throw .unclassifiedToken
  else pure progress
termination_by ((stop - offset).toNat, 1)
decreasing_by
  · exact Prod.Lex.left _ _ (by omega)
  · exact Prod.Lex.left _ _ (by omega)
  · exact Prod.Lex.left _ _ (by omega)
  · exact Prod.Lex.right _ (by omega)
  · exact Prod.Lex.left _ _ (by have := last.start_le; omega)
  · exact Prod.Lex.right _ (by omega)
  · exact Prod.Lex.left _ _ (by have := last.start_le; omega)
  · exact Prod.Lex.left _ _ (by omega)

/-- Runs the block of the loop marker at an offset: its variable, its first and its last count, and
a body that begins with the variable its result is written to. The result is that of the last round,
or `result` where there was none. -/
def forBlock (setting : Setting) (offset stop : Int) (result : Binary64) :
    Run (Binary64 × BlockEnd (offset + 4) stop) :=
  if long : offset + 5 < stop then do
    let name ← fetchName setting (offset + 1) .loopVariable
    let first ← range setting (offset + 2) (offset + 3)
    let last ← range setting (offset + 3) (offset + 4)
    let bodyStop ← findEnd setting .endFor (offset + 4) stop (by omega)
    let accumulator ← fetchName setting (offset + 4) .loopBody
    emit setting (.loop name first last (offset + 4) bodyStop.offset)
    let result ← loopBody setting name accumulator
      (range setting (offset + 4) bodyStop.offset) last setting.rounds first result
    return (result, bodyStop)
  else fault .loopTooShort
termination_by ((stop - offset).toNat, 0)
decreasing_by
  · exact Prod.Lex.left _ _ (by omega)
  · exact Prod.Lex.left _ _ (by omega)
  · exact Prod.Lex.left _ _ (by have := bodyStop.le_stop; omega)

/-- Runs the block of the condition marker at an offset: three tokens of condition and one or two
branches. Any condition but zero takes the first. -/
def ifBlock (setting : Setting) (offset stop : Int) :
    Run (Binary64 × BlockEnd (offset + 4) stop) :=
  if long : offset + 3 < stop then do
    let condition ← range setting (offset + 1) (offset + 4)
    let branches ← findBranches setting (offset + 4) stop (by omega)
    emit setting (.branch condition (offset + 4) branches.thenStop branches.elseStart
      branches.last.offset)
    let result ←
      if condition.same 0 then range setting branches.elseStart branches.last.offset
      else range setting (offset + 4) branches.thenStop
    return (result, branches.last)
  else fault .conditionTooShort
termination_by ((stop - offset).toNat, 0)
decreasing_by
  · exact Prod.Lex.left _ _ (by omega)
  · exact Prod.Lex.left _ _ (by have := branches.start_le; have := branches.last.le_stop; omega)
  · exact Prod.Lex.left _ _ (by have := branches.thenStop_le; have := branches.last.le_stop; omega)

end

/-- The result of a whole tape. -/
def evaluate (setting : Setting) : Run Binary64 := do
  emit setting (.started setting.tape.size)
  let result ← range setting 0 setting.tape.size
  emit setting (.finished result)
  return result

end TokenTape.Run

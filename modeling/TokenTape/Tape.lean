import TokenTape.Run.Fault

/-!
# Tapes

A tape is a row of tokens, addressed by integer offsets. A negative offset counts from the end.
A view `[start, stop)` is a pair of offsets into one tape.

Blocks have no structure of their own: the end of one is the first marker of the right kind, and
markers of blocks inside it count too.
-/

namespace TokenTape

abbrev Tape := Array Token

namespace Tape

def at? (tape : Tape) (offset : Int) : Option Token :=
  let index := if offset < 0 then offset + tape.size else offset
  if index < 0 then none else tape[index.toNat]?

/-- The first marker of a kind in a view. Looking beyond the tape is a failure. -/
def firstMarker? (tape : Tape) (kind : Control) (start stop : Int) :
    Except Failure (Option Int) :=
  if start < stop then
    match tape.at? start with
    | none => .error .offsetOutOfRange
    | some token =>
      if token.isMarker kind then .ok (some start) else firstMarker? tape kind (start + 1) stop
  else .ok none
termination_by (stop - start).toNat
decreasing_by omega

/-- The offset of the first marker of a kind in a view. In an empty view that is `start`. Where
there is no marker the search fails if one is required, and ends at `start` again if not. -/
def findMarker (tape : Tape) (kind : Control) (start stop : Int) (required : Bool) :
    Except Failure Int :=
  if start = stop then .ok start
  else
    match tape.firstMarker? kind start stop with
    | .error e => .error e
    | .ok (some offset) => .ok offset
    | .ok none => if required then .error (.fault (.missingMarker kind)) else .ok start

/-- A search that is given no end goes on to the end of the tape. -/
def findMarkerFrom (tape : Tape) (kind : Control) (start : Int) (stop : Option Int)
    (required : Bool) : Except Failure Int :=
  tape.findMarker kind start (stop.getD tape.size) required

theorem firstMarker?_mem {tape : Tape} {kind : Control} {start stop offset : Int}
    (h : tape.firstMarker? kind start stop = .ok (some offset)) :
    start ≤ offset ∧ offset < stop := by
  fun_induction firstMarker? tape kind start stop with
  | case1 => simp at h
  | case2 start hlt => simp at h; omega
  | case3 start hlt token _ _ ih => have := ih h; omega
  | case4 => simp at h

theorem findMarker_mem {tape : Tape} {kind : Control} {start stop offset : Int} {required : Bool}
    (hle : start ≤ stop) (h : tape.findMarker kind start stop required = .ok offset) :
    start ≤ offset ∧ offset ≤ stop := by
  unfold findMarker at h
  split at h
  · cases h; omega
  · split at h
    · cases h
    · next hm =>
      cases h
      have := firstMarker?_mem hm
      omega
    · split at h <;> cases h
      omega

end Tape

end TokenTape

import Mathlib
import TokenTape.Proofs.Branching
import TokenTape.Proofs.Headers

/-!
# The calls of a run

A run of a tape walks a view; a walk runs blocks, and a block walks views again. Here every such call
is written down with the state it begins in, so that one can say what is run while something else
is. A call stays inside the view of the call that made it, and a failure of the one is the failure
of the other.
-/

namespace TokenTape.Run

variable {setting : Setting} {start stop offset : Int} {s t u : State} {e : Failure}

/-! ## Walks -/

/-- What a walk does with one token: where it goes on, and with what. -/
def visit (setting : Setting) (start stop offset : Int) (progress : Progress) :
    Token → Run (Int × Progress)
  | .number value => do return (offset + 1, ← meetNumber setting start offset progress value)
  | .reference name => do return (offset + 1, ← meetVariable progress name)
  | .operator kind => return (offset + 1, ⟨progress.result, some kind⟩)
  | .control .forLoop => do
    let (result, last) ← loopAt setting offset stop progress.result
    return (last + 1, ⟨result, progress.pending⟩)
  | .control .ifThen => do
    let (result, last) ← ifAt setting offset stop
    return (last + 1, ⟨result, progress.pending⟩)
  | .control _ => return (offset + 1, progress)
  | .unclassified => throw .unclassifiedToken

theorem dispatch_visit (progress : Progress) (token : Token) :
    dispatch setting start stop offset progress token =
      visit setting start stop offset progress token >>= fun next =>
        walk setting start stop next.1 next.2 := by
  cases token with
  | number value => simp only [dispatch, visit, bind_assoc, pure_bind]
  | reference name => simp only [dispatch, visit, bind_assoc, pure_bind]
  | operator kind => simp only [dispatch, visit, pure_bind]
  | control kind =>
    cases kind with
    | forLoop => simp only [dispatch, visit, loopAt, bind_assoc, pure_bind]
    | ifThen => simp only [dispatch, visit, ifAt, bind_assoc, pure_bind]
    | orElse | endFor | endIf => simp only [dispatch, visit, pure_bind]
  | unclassified => rfl

/-- The walk of a view from a state `s` gets to an offset. -/
inductive Arrives (setting : Setting) (start stop : Int) (s : State) :
    Int → Progress → State → Prop
  | start : Arrives setting start stop s start .start s
  | next {k k' : Int} {progress progress' : Progress} {t u v : State} {token : Token}
      (harrived : Arrives setting start stop s k progress t) (hlt : k < stop)
      (hat : setting.tape.at? k = some token)
      (hreport : (emit setting (.dispatched k token progress.result progress.pending)).outcome t =
        (.ok (), u))
      (hvisit : (visit setting start stop k progress token).outcome u = (.ok (k', progress'), v)) :
      Arrives setting start stop s k' progress' v

/-- The walk of a view dispatches the token at an offset, and has just reported it. -/
def Dispatches (setting : Setting) (start stop : Int) (s : State) (k : Int) (token : Token)
    (progress : Progress) (t : State) : Prop :=
  ∃ u, Arrives setting start stop s k progress u ∧ k < stop ∧ setting.tape.at? k = some token ∧
    (emit setting (.dispatched k token progress.result progress.pending)).outcome u = (.ok (), t)

/-! ## Rounds and branches -/

/-- The rounds of a loop, of which so many are left, get to the beginning of a body. -/
inductive Begins (setting : Setting) (name accumulator : Text) (body : Run Binary64)
    (last : Binary64) : Nat → Binary64 → State → State → Prop
  | now {rounds : Nat} {count : Binary64} {s t : State} (hle : count ≤ last)
      (hcount : (assign setting name count).outcome s = (.ok (), t)) :
      Begins setting name accumulator body last (rounds + 1) count s t
  | later {rounds : Nat} {count value : Binary64} {s t u : State} (hle : count ≤ last)
      (hround : (loopRound setting name accumulator body count).outcome s = (.ok value, t))
      (hbegins : Begins setting name accumulator body last rounds (count + 1) t u) :
      Begins setting name accumulator body last (rounds + 1) count s u

/-- What a view is walked for. -/
inductive Role where
  | whole
  | bound
  | body
  | condition
  | thenBranch
  /-- The branch of an if block without else. -/
  | onlyBranch
  | elseBranch
deriving DecidableEq

/-- The branches behind a condition: the first one is `[start, thenStop)`, in its role, and the
second one `[elseStart, last)`. -/
inductive Splits (tape : Tape) (start stop : Int) : Role → Int → Int → Int → Prop
  | atElse {middle last : Int} (helse : tape.firstMarker? .orElse start stop = .ok (some middle))
      (hlast : tape.findMarker .endIf middle stop true = .ok last) :
      Splits tape start stop .thenBranch middle middle last
  | alone {last : Int} (helse : tape.firstMarker? .orElse start stop = .ok none)
      (hlast : tape.findMarker .endIf start stop true = .ok last) :
      Splits tape start stop .onlyBranch last last last

/-! ## Calls -/

inductive Call where
  | tape
  | view (role : Role) (start stop : Int)
  | loop (offset stop : Int) (result : Binary64)
  | branch (offset stop : Int)

namespace Call

def run (setting : Setting) : Call → Run Binary64
  | tape => evaluate setting
  | view _ start stop => range setting start stop
  | loop offset stop result => do return (← loopAt setting offset stop result).1
  | branch offset stop => do return (← ifAt setting offset stop).1

/-- The first offset that a call is about. -/
def low : Call → Int
  | tape => 0
  | view _ start _ => start
  | loop offset _ _ => offset
  | branch offset _ => offset

def high (setting : Setting) : Call → Int
  | tape => setting.tape.size
  | view _ _ stop => stop
  | loop _ stop _ => stop
  | branch _ stop => stop

@[simp] theorem low_view (role : Role) (start stop : Int) : (view role start stop).low = start :=
  rfl

@[simp] theorem high_view (setting : Setting) (role : Role) (start stop : Int) :
    (view role start stop).high setting = stop := rfl

/-- The call ends with a failure. -/
def Fails (setting : Setting) (call : Call × State) (e : Failure) (t : State) : Prop :=
  (call.1.run setting).outcome call.2 = (.error e, t)

end Call

/-- One call makes another one. -/
inductive Calls (setting : Setting) : Call × State → Call × State → Prop
  | tape {s t : State}
      (hreport : (emit setting (.started setting.tape.size)).outcome s = (.ok (), t)) :
      Calls setting (.tape, s) (.view .whole 0 setting.tape.size, t)
  | loop {role : Role} {start stop k : Int} {progress : Progress} {s t : State}
      (h : Dispatches setting start stop s k (.control .forLoop) progress t) :
      Calls setting (.view role start stop, s) (.loop k stop progress.result, t)
  | branch {role : Role} {start stop k : Int} {progress : Progress} {s t : State}
      (h : Dispatches setting start stop s k (.control .ifThen) progress t) :
      Calls setting (.view role start stop, s) (.branch k stop, t)
  | first {offset stop : Int} {result : Binary64} {name : Text} {s : State}
      (long : offset + 5 < stop) (hname : setting.tape.at? (offset + 1) = some (.reference name)) :
      Calls setting (.loop offset stop result, s) (.view .bound (offset + 2) (offset + 3), s)
  | last {offset stop : Int} {result first : Binary64} {name : Text} {s t : State}
      (long : offset + 5 < stop) (hname : setting.tape.at? (offset + 1) = some (.reference name))
      (hfirst : (range setting (offset + 2) (offset + 3)).outcome s = (.ok first, t)) :
      Calls setting (.loop offset stop result, s) (.view .bound (offset + 3) (offset + 4), t)
  | body {offset stop : Int} {result first last : Binary64} {s t u v : State}
      (header : LoopHeader setting offset stop) (hbounds : Bounds setting offset s first last t)
      (hreport : (emit setting (header.event first last)).outcome t = (.ok (), u))
      (hbegins : Begins setting header.name header.accumulator header.body last setting.rounds
        first u v) :
      Calls setting (.loop offset stop result, s) (.view .body (offset + 4) header.bodyStop, v)
  | condition {offset stop : Int} {s : State} (long : offset + 3 < stop) :
      Calls setting (.branch offset stop, s) (.view .condition (offset + 1) (offset + 4), s)
  | yes {offset stop thenStop elseStart last : Int} {role : Role} {condition : Binary64}
      {s t u : State} (long : offset + 3 < stop)
      (hcondition : (range setting (offset + 1) (offset + 4)).outcome s = (.ok condition, t))
      (hsplits : Splits setting.tape (offset + 4) stop role thenStop elseStart last)
      (hreport : (emit setting
        (.branch condition (offset + 4) thenStop elseStart last)).outcome t = (.ok (), u))
      (hyes : condition.same 0 = false) :
      Calls setting (.branch offset stop, s) (.view role (offset + 4) thenStop, u)
  | no {offset stop thenStop elseStart last : Int} {role : Role} {condition : Binary64}
      {s t u : State} (long : offset + 3 < stop)
      (hcondition : (range setting (offset + 1) (offset + 4)).outcome s = (.ok condition, t))
      (hsplits : Splits setting.tape (offset + 4) stop role thenStop elseStart last)
      (hreport : (emit setting
        (.branch condition (offset + 4) thenStop elseStart last)).outcome t = (.ok (), u))
      (hno : condition.same 0 = true) :
      Calls setting (.branch offset stop, s) (.view .elseBranch elseStart last, u)

/-- One call leads to another one, over the calls in between. -/
abbrev Reaches (setting : Setting) : Call × State → Call × State → Prop :=
  Relation.ReflTransGen (Calls setting)

/-! ## Calls stay inside -/

theorem block_last_mem {block : Run (Binary64 × BlockEnd start stop)} {value : Binary64}
    {last : Int}
    (h : (block >>= fun ended => pure (ended.1, ended.2.offset)).outcome s =
      (.ok (value, last), t)) : start ≤ last ∧ last ≤ stop := by
  obtain ⟨ended, u, -, hended⟩ := exists_of_outcome_bind h
  cases hended
  exact ⟨ended.2.start_le, ended.2.le_stop⟩

theorem visit_lt {progress progress' : Progress} {token : Token} {k : Int}
    (h : (visit setting start stop offset progress token).outcome s = (.ok (k, progress'), t)) :
    offset < k := by
  cases token with
  | number value =>
    obtain ⟨next, u, -, hnext⟩ := exists_of_outcome_bind h
    cases hnext
    omega
  | reference name =>
    obtain ⟨next, u, -, hnext⟩ := exists_of_outcome_bind h
    cases hnext
    omega
  | operator kind =>
    cases h
    omega
  | control kind =>
    cases kind with
    | forLoop =>
      obtain ⟨⟨result, last⟩, u, hblock, hnext⟩ := exists_of_outcome_bind h
      cases hnext
      have := block_last_mem hblock
      omega
    | ifThen =>
      obtain ⟨⟨result, last⟩, u, hblock, hnext⟩ := exists_of_outcome_bind h
      cases hnext
      have := block_last_mem hblock
      omega
    | orElse | endFor | endIf =>
      cases h
      omega
  | unclassified => cases h

theorem Arrives.start_le {k : Int} {progress : Progress}
    (h : Arrives setting start stop s k progress t) : start ≤ k := by
  induction h with
  | start => exact Int.le_refl _
  | next _ _ _ _ hvisit ih =>
    have := visit_lt hvisit
    omega

theorem Splits.mem {tape : Tape} {thenStop elseStart last : Int} {role : Role}
    (h : Splits tape start stop role thenStop elseStart last) (hle : start ≤ stop) :
    start ≤ elseStart ∧ thenStop ≤ last ∧ last ≤ stop := by
  cases h with
  | atElse helse hlast =>
    have := Tape.firstMarker?_mem helse
    have := Tape.findMarker_mem (by omega) hlast
    omega
  | alone helse hlast =>
    have := Tape.findMarker_mem hle hlast
    omega

theorem Calls.inside {c d : Call × State} (h : Calls setting c d) :
    c.1.low ≤ d.1.low ∧ d.1.high setting ≤ c.1.high setting := by
  cases h with
  | tape => exact ⟨Int.le_refl _, Int.le_refl _⟩
  | loop h | branch h =>
    obtain ⟨u, harrived, -⟩ := h
    exact ⟨harrived.start_le, Int.le_refl _⟩
  | first long | last long =>
    simp only [Call.low, Call.high]
    omega
  | body header =>
    have hlong := header.long
    have := Tape.findMarker_mem (by omega) header.bodyStop_found
    simp only [Call.low, Call.high]
    omega
  | condition long =>
    simp only [Call.low, Call.high]
    omega
  | yes long _ hsplits | no long _ hsplits =>
    have := hsplits.mem (by omega)
    simp only [Call.low, Call.high]
    omega

theorem Reaches.inside {c d : Call × State} (h : Reaches setting c d) :
    c.1.low ≤ d.1.low ∧ d.1.high setting ≤ c.1.high setting := by
  induction h with
  | refl => exact ⟨Int.le_refl _, Int.le_refl _⟩
  | tail _ hcalls ih =>
    have := hcalls.inside
    omega

/-! ## Failures come out -/

theorem outcome_map_error_iff {α β : Type} {m : Run α} {f : α → β} :
    (m >>= fun a => pure (f a)).outcome s = (.error e, t) ↔ m.outcome s = (.error e, t) := by
  rcases hm : m.outcome s with ⟨e' | a, u⟩
  · rw [outcome_bind_error hm]
    simp
  · rw [outcome_bind_ok hm]
    simp

theorem fails_loop_iff {result : Binary64} :
    Call.Fails setting (.loop offset stop result, s) e t ↔
      (loopAt setting offset stop result).outcome s = (.error e, t) :=
  outcome_map_error_iff

theorem fails_branch_iff : Call.Fails setting (.branch offset stop, s) e t ↔
    (ifAt setting offset stop).outcome s = (.error e, t) :=
  outcome_map_error_iff

theorem Arrives.walk_eq {k : Int} {progress : Progress}
    (h : Arrives setting start stop s k progress t) :
    (walk setting start stop start .start).outcome s =
      (walk setting start stop k progress).outcome t := by
  induction h with
  | start => rfl
  | next _ hlt hat hreport hvisit ih =>
    rw [ih, walk_dispatch hlt hat, outcome_bind_ok hreport, dispatch_visit, outcome_bind_ok hvisit]

theorem Dispatches.outcome_range {k : Int} {token : Token} {progress : Progress}
    (h : Dispatches setting start stop s k token progress t) :
    (range setting start stop).outcome s =
      (dispatch setting start stop k progress token >>= fun progress =>
        pure progress.result).outcome t := by
  obtain ⟨v, harrived, hlt, hat, hreport⟩ := h
  unfold range
  rw [outcome_bind, harrived.walk_eq, walk_dispatch hlt hat, outcome_bind_ok hreport,
    ← outcome_bind]

theorem Dispatches.fails {k : Int} {token : Token} {progress : Progress}
    (h : Dispatches setting start stop s k token progress t)
    (hvisit : (visit setting start stop k progress token).outcome t = (.error e, u)) :
    (range setting start stop).outcome s = (.error e, u) := by
  rw [h.outcome_range, dispatch_visit]
  exact outcome_bind_error (outcome_bind_error hvisit)

theorem Begins.fails {name accumulator : Text} {body : Run Binary64} {last count : Binary64}
    {rounds : Nat} (h : Begins setting name accumulator body last rounds count s t)
    (hbody : body.outcome t = (.error e, u)) (result : Binary64) :
    (loopBody setting name accumulator body last rounds count result).outcome s =
      (.error e, u) := by
  induction h generalizing result with
  | now hle hcount =>
    unfold loopBody
    rw [if_pos hle, outcome_bind_ok hcount, outcome_bind_error hbody]
  | later hle hround _ ih =>
    unfold loopRound at hround
    obtain ⟨_, s₁, hcount, hround⟩ := exists_of_outcome_bind hround
    obtain ⟨value, s₂, hvalue, hround⟩ := exists_of_outcome_bind hround
    obtain ⟨_, s₃, haccumulate, hround⟩ := exists_of_outcome_bind hround
    cases hround
    unfold loopBody
    rw [if_pos hle, outcome_bind_ok hcount, outcome_bind_ok hvalue, outcome_bind_ok haccumulate]
    exact ih hbody _

theorem Splits.outcome_ifAt {thenStop elseStart last : Int} {role : Role} {condition : Binary64}
    (h : Splits setting.tape (offset + 4) stop role thenStop elseStart last)
    (long : offset + 3 < stop)
    (hcondition : (range setting (offset + 1) (offset + 4)).outcome s = (.ok condition, t))
    (hreport : (emit setting
      (.branch condition (offset + 4) thenStop elseStart last)).outcome t = (.ok (), u)) :
    (ifAt setting offset stop).outcome s =
      ((if condition.same 0 then range setting elseStart last
        else range setting (offset + 4) thenStop) >>= fun result => pure (result, last)).outcome
          u := by
  have hbranches : ∃ branches : Branches (offset + 4) stop, branches.thenStop = thenStop ∧
      branches.elseStart = elseStart ∧ branches.last.offset = last ∧
      findBranches setting (offset + 4) stop (by omega) = pure branches := by
    cases h with
    | atElse helse hlast => exact findBranches_else _ helse hlast
    | alone helse hlast => exact findBranches_alone _ helse hlast
  obtain ⟨branches, rfl, rfl, rfl, hfound⟩ := hbranches
  unfold ifAt ifBlock
  rw [dif_pos long]
  simp only [bind_assoc]
  rw [outcome_bind_ok hcondition, hfound, pure_bind, outcome_bind_ok hreport]
  split
  · simp only [bind_assoc, pure_bind]
  · simp only [bind_assoc, pure_bind]

/-- What fails in a call fails in the call that made it, in the same way and the same state. -/
theorem Calls.fails {c d : Call × State} (h : Calls setting c d) (hlow : 0 ≤ c.1.low)
    (hhigh : c.1.high setting ≤ setting.tape.size) (hd : Call.Fails setting d e t) :
    Call.Fails setting c e t := by
  cases h with
  | tape hreport =>
    unfold Call.Fails Call.run evaluate
    rw [outcome_bind_ok hreport]
    exact outcome_bind_error hd
  | loop h =>
    exact h.fails (outcome_bind_error (fails_loop_iff.1 hd))
  | branch h =>
    exact h.fails (outcome_bind_error (fails_branch_iff.1 hd))
  | first long hname =>
    exact fails_loop_iff.2 ((HeaderFails.first long hname hd).loopAt hlow hhigh _)
  | last long hname hfirst =>
    exact fails_loop_iff.2 ((HeaderFails.last long hname hfirst hd).loopAt hlow hhigh _)
  | body header hbounds hreport hbegins =>
    obtain ⟨v, hfirst, hlast⟩ := hbounds
    rw [fails_loop_iff, header.loopAt_eq hfirst hlast, outcome_bind_ok hreport]
    exact outcome_bind_error (hbegins.fails hd _)
  | condition long => exact fails_branch_iff.2 (ifAt_condition_failed long hd)
  | yes long hcondition hsplits hreport hyes =>
    rw [fails_branch_iff, hsplits.outcome_ifAt long hcondition hreport, hyes]
    exact outcome_bind_error hd
  | no long hcondition hsplits hreport hno =>
    rw [fails_branch_iff, hsplits.outcome_ifAt long hcondition hreport, hno]
    exact outcome_bind_error hd

theorem Reaches.fails {c d : Call × State} (h : Reaches setting c d) (hlow : 0 ≤ c.1.low)
    (hhigh : c.1.high setting ≤ setting.tape.size) (hd : Call.Fails setting d e t) :
    Call.Fails setting c e t := by
  induction h using Relation.ReflTransGen.head_induction_on with
  | refl => exact hd
  | head hcalls _ ih =>
    have := hcalls.inside
    exact hcalls.fails hlow hhigh (ih (by omega) (by omega))

end TokenTape.Run

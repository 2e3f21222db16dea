import Mathlib
import TokenTape.Proofs.Reports

/-!
# How far blocks nest

A block ends at the first marker of its kind, so a view that is walked for a block holds no such
marker, and neither does any view inside it. A loop in the body of a loop has no end then, and an if
block in certain branches has none.
-/

namespace TokenTape.Run

variable {setting : Setting} {start stop offset : Int} {s t u : State} {e : Failure}

/-! ## Blocks without an end -/

theorem loopAt_first {result value : Binary64} {last : Int} (hlo : 0 ≤ offset)
    (hhi : stop ≤ setting.tape.size)
    (h : (loopAt setting offset stop result).outcome s = (.ok (value, last), t)) :
    setting.tape.First .endFor (offset + 5) stop last := by
  rcases headerFails_or_reached hlo hhi s with
    ⟨e, u, hfails⟩ | ⟨header, first, bound, u, hend, v, hfirst, hbound⟩
  · rw [hfails.loopAt hlo hhi] at h
    cases h
  · rw [header.loopAt_eq hfirst hbound] at h
    obtain ⟨_, s₁, -, h⟩ := exists_of_outcome_bind h
    obtain ⟨_, s₂, -, h⟩ := exists_of_outcome_bind h
    cases h
    have hskip : setting.tape.First .endFor (offset + 4 + 1) stop header.bodyStop :=
      (Tape.first_skip_iff (by rw [header.accumulator_at]; simp)).1 hend
    rwa [Int.add_assoc] at hskip

theorem loopAt_lacks (hlo : 0 ≤ offset) (hhi : stop ≤ setting.tape.size)
    (h : setting.tape.Lacks .endFor offset stop) (result : Binary64) (s : State) :
    ∃ e t, e ≠ .unfinished ∧ (loopAt setting offset stop result).outcome s = (.error e, t) := by
  rcases headerFails_or_reached hlo hhi s with ⟨e, t, hfails⟩ | ⟨header, _, _, _, hend, -⟩
  · exact ⟨e, t, hfails.finished hlo hhi, hfails.loopAt hlo hhi result⟩
  · exact absurd (h.mono (by omega) (Int.le_refl _)) hend.not_lacks

theorem ifAt_condition_failed_finished (hlo : 0 ≤ offset) (hhi : stop ≤ setting.tape.size)
    (long : offset + 3 < stop)
    (h : (range setting (offset + 1) (offset + 4)).outcome s = (.error e, t)) :
    e ≠ .unfinished ∧ (ifAt setting offset stop).outcome s = (.error e, t) := by
  refine ⟨?_, ifAt_condition_failed long h⟩
  rintro rfl
  exact range_short_finished (by omega) (by omega) (by omega) s (congrArg Prod.fst h)

theorem ifAt_lacks (hlo : 0 ≤ offset) (hhi : stop ≤ setting.tape.size)
    (h : setting.tape.Lacks .endIf offset stop) (hne : offset + 4 ≠ stop) (s : State) :
    ∃ e t, e ≠ .unfinished ∧ (ifAt setting offset stop).outcome s = (.error e, t) := by
  by_cases long : offset + 3 < stop
  case neg =>
    refine ⟨.fault .conditionTooShort, s, by simp, ?_⟩
    rw [ifAt, ifBlock, dif_neg long]
    rfl
  rcases hcondition : (range setting (offset + 1) (offset + 4)).outcome s with ⟨e | value, t⟩
  case error => exact ⟨e, t, ifAt_condition_failed_finished hlo hhi long hcondition⟩
  refine ⟨.fault (.missingMarker .endIf), t, by simp, ?_⟩
  rcases setting.tape.firstMarker?_cases .orElse (by omega : 0 ≤ offset + 4) hhi with
    ⟨middle, hfound, hmiddle⟩ | ⟨hnone, -⟩
  · have hmem := hmiddle.1
    have := hmem.1
    have := hmem.2.1
    exact ifAt_missing hlo (by omega) hhi hcondition hfound (by rw [Option.getD_some]; omega)
      (h.mono (by rw [Option.getD_some]; omega) (Int.le_refl _))
  · exact ifAt_missing hlo (by omega) hhi hcondition hnone (by rw [Option.getD_none]; omega)
      (h.mono (by rw [Option.getD_none]; omega) (Int.le_refl _))

/-! ## Views that hold no end -/

/-- The marker that ends a block, if the view in that role reaches no further than the first. -/
def Role.closing? : Role → Option Control
  | .body => some .endFor
  | .onlyBranch => some .endIf
  | .elseBranch => some .endIf
  | .whole | .bound | .condition | .thenBranch => none

theorem Splits.lacks {tape : Tape} {thenStop elseStart last : Int} {role : Role}
    (h : Splits tape start stop role thenStop elseStart last) (hlo : 0 ≤ start)
    (hhi : stop ≤ tape.size) :
    (role.closing? = some .endIf → tape.Lacks .endIf start thenStop) ∧
      tape.Lacks .endIf elseStart last := by
  cases h with
  | atElse helse hlast =>
    have := Tape.firstMarker?_mem helse
    exact ⟨nofun, Tape.lacks_of_findMarker hlast (by omega) hhi⟩
  | alone helse hlast =>
    refine ⟨fun _ => Tape.lacks_of_findMarker hlast hlo hhi, ?_⟩
    rintro k ⟨hle, hlt, -⟩
    omega

theorem Calls.lacks {c : Call × State} {role : Role} {kind : Control}
    (h : Calls setting c (.view role start stop, t)) (hlow : 0 ≤ c.1.low)
    (hhigh : c.1.high setting ≤ setting.tape.size) (hclosing : role.closing? = some kind) :
    setting.tape.Lacks kind start stop := by
  cases h with
  | tape => cases hclosing
  | first => cases hclosing
  | last => cases hclosing
  | body header =>
    cases hclosing
    exact Tape.lacks_of_findMarker header.bodyStop_found (by simp only [Call.low] at hlow; omega)
      hhigh
  | condition => cases hclosing
  | yes long _ hsplits =>
    simp only [Call.low] at hlow
    obtain rfl : kind = .endIf := by
      cases hsplits with
      | atElse => cases hclosing
      | alone => cases hclosing; rfl
    exact (hsplits.lacks (by omega) hhigh).1 hclosing
  | no long _ hsplits =>
    simp only [Call.low] at hlow
    cases hclosing
    exact (hsplits.lacks (by omega) hhigh).2

/-- The calls that are made from outside: of the whole tape, or of a view or a block on it. -/
def Call.Outer (setting : Setting) : Call → Prop
  | tape => True
  | view role start stop => role = .whole ∧ 0 ≤ start ∧ stop ≤ setting.tape.size
  | loop offset stop _ => 0 ≤ offset ∧ stop ≤ setting.tape.size
  | branch offset stop => 0 ≤ offset ∧ stop ≤ setting.tape.size

theorem Call.Outer.on_tape {call : Call} (h : call.Outer setting) :
    0 ≤ call.low ∧ call.high setting ≤ setting.tape.size := by
  cases call with
  | tape => exact ⟨Int.le_refl _, Int.le_refl _⟩
  | view role start stop => exact h.2
  | loop offset stop result => exact h
  | branch offset stop => exact h

theorem Reaches.lacks {root : Call} {d : Call × State} {role : Role} {kind : Control}
    (hroot : root.Outer setting) (h : Reaches setting (root, s) (.view role start stop, t))
    (hd : Reaches setting (.view role start stop, t) d) (hclosing : role.closing? = some kind) :
    0 ≤ d.1.low ∧ d.1.high setting ≤ setting.tape.size ∧
      setting.tape.Lacks kind d.1.low (d.1.high setting) := by
  have htape := hroot.on_tape
  have hview := h.inside
  have hinside := hd.inside
  simp only [Call.low_view, Call.high_view] at hview hinside
  have hlacks : setting.tape.Lacks kind start stop := by
    rcases h.cases_tail with heq | ⟨c, hc, hcalls⟩
    · cases heq
      rw [hroot.1] at hclosing
      cases hclosing
    · have hcaller := Reaches.inside hc
      dsimp only at hcaller
      exact hcalls.lacks (by omega) (by omega) hclosing
  exact ⟨by omega, by omega, hlacks.mono (by omega) (by omega)⟩

/-! ## Blocks in blocks -/

/-- A call fails for good, and the run that led to it fails with it. -/
def Sinks (setting : Setting) (root call : Call × State) : Prop :=
  ∃ e t, e ≠ .unfinished ∧ Call.Fails setting call e t ∧ Call.Fails setting root e t

section Nested

variable {root : Call} {k stop' : Int} (hroot : root.Outer setting)
include hroot

theorem sinks_of_fails {call : Call × State} (h : Reaches setting (root, s) call)
    (hfinished : e ≠ .unfinished) (hcall : Call.Fails setting call e t) :
    Sinks setting (root, s) call :=
  ⟨e, t, hfinished, hcall, Reaches.fails h hroot.on_tape.1 hroot.on_tape.2 hcall⟩

theorem sinks_loop {result : Binary64}
    (hbody : Reaches setting (root, s) (.view .body start stop, t))
    (hloop : Reaches setting (.view .body start stop, t) (.loop k stop' result, u)) :
    Sinks setting (root, s) (.loop k stop' result, u) := by
  obtain ⟨hlow, hhigh, hlacks⟩ := Reaches.lacks hroot hbody hloop rfl
  obtain ⟨e, v, hfinished, hfails⟩ := loopAt_lacks hlow hhigh hlacks result u
  exact sinks_of_fails hroot (hbody.trans hloop) hfinished (fails_loop_iff.2 hfails)

theorem fails_of_reported {result : Binary64} {pending : Option Operator}
    (hbody : Reaches setting (root, s) (.view .body start stop, t))
    (hreported : Reported (range setting start stop) t
      (.dispatched k (.control .forLoop) result pending)) :
    ∃ e v, e ≠ .unfinished ∧ Call.Fails setting (root, s) e v := by
  have haccounted := (range_accounted .body start stop t).of_reported hreported
  obtain ⟨role, a, b, s₁, s₂, hview, hdispatches⟩ := haccounted k _ _ _ rfl
  obtain ⟨e, v, hfinished, -, hfails⟩ := sinks_loop hroot hbody (hview.tail (.loop hdispatches))
  exact ⟨e, v, hfinished, hfails⟩

section Branch

variable {role : Role} (hrole : role = .elseBranch ∨ role = .onlyBranch)
  (hview : Reaches setting (root, s) (.view role start stop, t))
  (hbranch : Reaches setting (.view role start stop, t) (.branch k stop', u))
include hrole hview hbranch

theorem branch_lacks : 0 ≤ k ∧ stop' ≤ setting.tape.size ∧ setting.tape.Lacks .endIf k stop' := by
  have hclosing : role.closing? = some .endIf := by
    rcases hrole with rfl | rfl <;> rfl
  exact Reaches.lacks hroot hview hbranch hclosing

theorem sinks_branch (hne : k + 4 ≠ stop') : Sinks setting (root, s) (.branch k stop', u) := by
  obtain ⟨hlow, hhigh, hlacks⟩ := branch_lacks hroot hrole hview hbranch
  obtain ⟨e, v, hfinished, hfails⟩ := ifAt_lacks hlow hhigh hlacks hne u
  exact sinks_of_fails hroot (hview.trans hbranch) hfinished (fails_branch_iff.2 hfails)

end Branch

end Nested

/-- A loop ends at the first marker behind its header. While a loop body is walked no other loop can
be run: it fails, and so does the whole run. While an else branch is walked, or the branch of an if
block without else, an if block fails likewise, unless the view ends with its condition. Then it
comes to zero, once the condition has come to something. -/
theorem nesting_limits (setting : Setting) :
    (∀ (offset stop : Int) (result value : Binary64) (last : Int) (s t : State), 0 ≤ offset →
      stop ≤ setting.tape.size →
      (loopAt setting offset stop result).outcome s = (.ok (value, last), t) →
      setting.tape.First .endFor (offset + 5) stop last) ∧
    (∀ (root : Call) (start stop : Int) (s t : State), root.Outer setting →
      Reaches setting (root, s) (.view .body start stop, t) →
      (∀ k stop' result u,
        Reaches setting (.view .body start stop, t) (.loop k stop' result, u) →
        Sinks setting (root, s) (.loop k stop' result, u)) ∧
      ∀ k result pending, Reported (range setting start stop) t
          (.dispatched k (.control .forLoop) result pending) →
        ∃ e v, e ≠ .unfinished ∧ Call.Fails setting (root, s) e v) ∧
    ∀ (root : Call) (role : Role) (start stop k stop' : Int) (s t u : State),
      root.Outer setting → role = .elseBranch ∨ role = .onlyBranch →
      Reaches setting (root, s) (.view role start stop, t) →
      Reaches setting (.view role start stop, t) (.branch k stop', u) →
      (k + 4 ≠ stop' → Sinks setting (root, s) (.branch k stop', u)) ∧
      (k + 4 = stop' →
        (∀ condition v, (range setting (k + 1) (k + 4)).outcome u = (.ok condition, v) →
          observed ((ifAt setting k stop').outcome u) = (.ok (0, stop'), v.store)) ∧
        ∀ e v, (range setting (k + 1) (k + 4)).outcome u = (.error e, v) →
          e ≠ .unfinished ∧ (ifAt setting k stop').outcome u = (.error e, v)) := by
  refine ⟨fun offset stop result value last s t hlo hhi h => loopAt_first hlo hhi h, ?_, ?_⟩
  · intro root start stop s t hroot hbody
    exact ⟨fun k stop' result u hloop => sinks_loop hroot hbody hloop,
      fun k result pending hreported => fails_of_reported hroot hbody hreported⟩
  · intro root role start stop k stop' s t u hroot hrole hview hbranch
    obtain ⟨hlow, hhigh, -⟩ := branch_lacks hroot hrole hview hbranch
    refine ⟨sinks_branch hroot hrole hview hbranch, fun hend => ⟨?_, ?_⟩⟩
    · intro condition v hcondition
      exact observed_ifAt_end hlow (by omega) hhigh hcondition hend
    · intro e v hfailed
      exact ifAt_condition_failed_finished hlow hhigh (by omega) hfailed

/-- A loop stands in a branch in the body of a loop, and the run fails there. In another run a branch
ends with a condition, and the block of that comes to zero. -/
theorem nesting_limits_branch :
    let looping : Setting :=
      ⟨#[.control .forLoop, .reference "i", .number 1, .number 1, .reference "x",
        .control .ifThen, .number 1, .operator .greaterThan, .number 0,
        .control .forLoop, .reference "j", .number 1, .number 2, .reference "x", .reference "x",
        .control .endIf, .control .endFor], 0, 1⟩
    let branching : Setting :=
      ⟨#[.control .ifThen, .number 1, .operator .greaterThan, .number 0,
        .control .ifThen, .number 1, .operator .greaterThan, .number 0, .control .endIf], 0, 0⟩
    let state : State := ⟨.ofList [("x", 0)], #[]⟩
    let inner : State := ⟨state.store.insert "i" 1, #[]⟩
    Sinks looping (.tape, state) (.loop 9 15 0, inner) ∧
      observed ((ifAt branching 4 8).outcome state) = (.ok (0, 8), state.store) := by
  intro looping branching state inner
  have htrue : Operator.greaterThan.apply 1 0 = 1 := by decide +kernel
  have hyes : (1 : Binary64).same 0 = false := by decide +kernel
  constructor
  · let header : LoopHeader looping 0 17 := ⟨"i", "x", 16, by decide, rfl, rfl, by cbv⟩
    have hbounds : Bounds looping 0 state 1 1 state := ⟨state, by cbv, by cbv⟩
    have hle : (1 : Binary64) ≤ 1 := by decide +kernel
    have hwhole : Reaches looping (.tape, state) (.loop 0 17 0, state) :=
      (Relation.ReflTransGen.single (.tape rfl)).tail
        (.loop ⟨state, .start, by decide, rfl, rfl⟩)
    have hbody : Reaches looping (.tape, state) (.view .body (0 + 4) 16, inner) :=
      hwhole.tail (.body header hbounds rfl (.now hle rfl))
    have hvisit : (visit looping (0 + 4) 16 (0 + 4) .start (.reference "x")).outcome inner =
        (.ok (5, ⟨0, none⟩), inner) := by cbv
    have hcondition : (range looping (5 + 1) (5 + 4)).outcome inner = (.ok 1, inner) := by
      rw [← htrue]
      exact range_compared (by decide) (by decide) rfl rfl rfl _
    have hsplits : Splits looping.tape (5 + 4) 16 .onlyBranch 15 15 15 :=
      .alone (by cbv) (by cbv)
    have hbranch : Reaches looping (.view .body (0 + 4) 16, inner) (.branch 5 16, inner) :=
      .single (.branch ⟨inner, .next .start (by decide) rfl rfl hvisit, by decide, rfl, rfl⟩)
    have hloop : Reaches looping (.view .body (0 + 4) 16, inner) (.loop 9 15 0, inner) :=
      (hbranch.tail (.yes (by decide) hcondition hsplits rfl hyes)).tail
        (.loop ⟨inner, .start, by decide, rfl, rfl⟩)
    exact ((nesting_limits looping).2.1 .tape _ _ state inner trivial hbody).1 9 15 0 inner hloop
  · have hcondition : (range branching (0 + 1) (0 + 4)).outcome state = (.ok 1, state) := by
      rw [← htrue]
      exact range_compared (by decide) (by decide) rfl rfl rfl _
    have hcondition' : (range branching (4 + 1) (4 + 4)).outcome state = (.ok 1, state) := by
      rw [← htrue]
      exact range_compared (by decide) (by decide) rfl rfl rfl _
    have hsplits : Splits branching.tape (0 + 4) 9 .onlyBranch 8 8 8 := .alone (by cbv) (by cbv)
    have hwhole : Reaches branching (.tape, state) (.branch 0 9, state) :=
      (Relation.ReflTransGen.single (.tape rfl)).tail
        (.branch ⟨state, .start, by decide, rfl, rfl⟩)
    have hview : Reaches branching (.tape, state) (.view .onlyBranch (0 + 4) 8, state) :=
      hwhole.tail (.yes (by decide) hcondition hsplits rfl hyes)
    have hbranch : Reaches branching (.view .onlyBranch (0 + 4) 8, state) (.branch 4 8, state) :=
      .single (.branch ⟨state, .start, by decide, rfl, rfl⟩)
    have hzero := ((nesting_limits branching).2.2 .tape .onlyBranch _ _ 4 8 state state state trivial
      (.inr rfl) hview hbranch).2 (by decide)
    exact hzero.1 1 state hcondition'

end TokenTape.Run

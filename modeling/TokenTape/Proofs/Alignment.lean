import TokenTape.Proofs.Simulation
import TokenTape.Proofs.Steps

/-!
# Aligned walks

Two tapes show the same tokens in a view, up to a shift of the offsets. What a walk does to the
state besides is named here once: it reports, reads variables, writes them at three kinds of places,
and fails in a few ways. Where all that is in step, so are the two walks.
-/

namespace TokenTape

/-! ## Shifted offsets -/

def Event.shift (d : Int) : Event → Event
  | .loop name first last bodyStart bodyStop =>
    .loop name first last (bodyStart + d) (bodyStop + d)
  | .branch condition thenStart thenStop elseStart elseStop =>
    .branch condition (thenStart + d) (thenStop + d) (elseStart + d) (elseStop + d)
  | .dispatched offset token result pending => .dispatched (offset + d) token result pending
  | event => event

/-- Only one fault tells an offset. -/
def Fault.shift (d : Int) : Fault → Fault
  | .noTarget offset => .noTarget (offset + d)
  | fault => fault

def Failure.shift (d : Int) : Failure → Failure
  | .fault f => .fault (f.shift d)
  | failure => failure

theorem Event.shift_zero (event : Event) : event.shift 0 = event := by
  cases event <;> simp [Event.shift]

theorem Failure.shift_zero (e : Failure) : e.shift 0 = e := by
  cases e with
  | fault f => cases f <;> simp [Failure.shift, Fault.shift]
  | unclassifiedToken | noOperator | offsetOutOfRange | unfinished => rfl

/-- A token stands at an offset of a view. -/
def Tape.Within (tape : Tape) (start stop offset : Int) (token : Token) : Prop :=
  start ≤ offset ∧ offset < stop ∧ tape.at? offset = some token

theorem Tape.Within.mono {tape : Tape} {start stop start' stop' offset : Int} {token : Token}
    (h : tape.Within start' stop' offset token) (hstart : start ≤ start') (hstop : stop' ≤ stop) :
    tape.Within start stop offset token :=
  ⟨by have := h.1; omega, by have := h.2.1; omega, h.2.2⟩

/-! ## Ways to fail -/

/-- What a fault says of a view: each is due to a token that stands there. A marker that is missing
is always the last one of a block, so there is none of another kind. -/
def Fault.Arises (tape : Tape) (start stop : Int) : Fault → Prop
  | .noTarget offset => ∃ value, tape.Within start stop offset (.number value)
  | .variableAssigned name => ∃ k, tape.Within start stop k (.reference name)
  | .undefinedVariable name => ∃ k, tape.Within start stop k (.reference name)
  | .loopTooShort => ∃ k, tape.Within start stop k (.control .forLoop)
  | .loopVariable _ => ∃ k, tape.Within start stop k (.control .forLoop)
  | .loopBody _ => ∃ k, tape.Within start stop k (.control .forLoop)
  | .conditionTooShort => ∃ k, tape.Within start stop k (.control .ifThen)
  | .missingMarker .endFor => ∃ k, tape.Within start stop k (.control .forLoop)
  | .missingMarker .endIf => ∃ k, tape.Within start stop k (.control .ifThen)
  | .missingMarker _ => False

/-- The ways in which the walk of a view can fail. It never looks beyond the tape. -/
def Failure.Arises (tape : Tape) (start stop : Int) : Failure → Prop
  | .fault f => f.Arises tape start stop
  | .unclassifiedToken => ∃ k, tape.Within start stop k .unclassified
  | .noOperator => False
  | .offsetOutOfRange => False
  | .unfinished => ∃ k, tape.Within start stop k (.control .forLoop)

theorem Failure.Arises.mono {tape : Tape} {start stop start' stop' : Int} {e : Failure}
    (h : e.Arises tape start' stop') (hstart : start ≤ start') (hstop : stop' ≤ stop) :
    e.Arises tape start stop := by
  have hwithin {k : Int} {token : Token} (hk : tape.Within start' stop' k token) :
      tape.Within start stop k token := hk.mono hstart hstop
  cases e with
  | fault f =>
    rcases f with k | _ | _ | _ | _ | _ | _ | kind
    case missingMarker => cases kind <;> first | exact h.elim | exact h.imp fun _ => hwithin
    all_goals exact h.imp fun _ => hwithin
  | unclassifiedToken | unfinished => exact h.imp fun _ => hwithin
  | noOperator | offsetOutOfRange => exact h

/-! ## What is told -/

/-- What the walk of a view tells of by itself: its blocks and the tokens that it stands on. What it
writes is told of with the write. -/
def Event.Arises (tape : Tape) (start stop : Int) : Event → Prop
  | .dispatched offset token _ _ => tape.Within start stop offset token
  | .loop name .. => ∃ k, tape.Within start stop k (.reference name)
  | .branch .. | .started _ | .finished _ => True
  | .assigned .. | .note _ => False

theorem Event.Arises.mono {tape : Tape} {start stop start' stop' : Int} {event : Event}
    (h : event.Arises tape start' stop') (hstart : start ≤ start') (hstop : stop' ≤ stop) :
    event.Arises tape start stop := by
  cases event with
  | dispatched offset token result pending => exact Tape.Within.mono h hstart hstop
  | loop name first last bodyStart bodyStop => exact h.imp fun _ hk => hk.mono hstart hstop
  | branch | started | finished => trivial
  | assigned | note => exact h

namespace Run

/-- What two settings have in common in a view `[start, stop)` of the second. The first tape shows
the same tokens `d` further on. -/
structure Aligned (ρ : Relation) (d : Int) (S T : Setting) (start stop : Int) : Prop where
  rounds : S.rounds = T.rounds
  token : ∀ k, start ≤ k → k < stop →
    ∃ token, T.tape.at? k = some token ∧ S.tape.at? (k + d) = some token
  emit : ∀ {event : Event}, event.Arises T.tape start stop →
    Sim ρ Eq (emit S (event.shift d)) (emit T event)
  read : ∀ {k name}, T.tape.Within start stop k (.reference name) →
    Sim ρ Eq (lookup name) (lookup name)
  /-- A number goes to the variable two tokens before it, if an assignment is pending. -/
  write : ∀ {j k name value}, T.tape.Within start stop j (.operator .assign) →
    T.tape.Within start stop (k - 2) (.reference name) →
    T.tape.Within start stop k (.number value) →
    Sim ρ Eq (assign S name value) (assign T name value)
  count : ∀ {k name} value, T.tape.Within start stop k (.control .forLoop) →
    T.tape.Within start stop (k + 1) (.reference name) →
    Sim ρ Eq (assign S name value) (assign T name value)
  accumulate : ∀ {k name} value, T.tape.Within start stop k (.control .forLoop) →
    T.tape.Within start stop (k + 4) (.reference name) →
    Sim ρ Eq (assign S name value) (assign T name value)
  /-- A variable that is not defined is told by `read` alone. -/
  failure : ∀ {e : Failure}, e.Arises T.tape start stop →
    (∀ name, e ≠ .fault (.undefinedVariable name)) → ρ.failure (e.shift d) e

variable {ρ : Relation} {d : Int} {S T : Setting} {start stop : Int}

theorem Aligned.mono {start' stop' : Int} (h : Aligned ρ d S T start stop)
    (hstart : start ≤ start') (hstop : stop' ≤ stop) : Aligned ρ d S T start' stop' where
  rounds := h.rounds
  token k hlo hhi := h.token k (by omega) (by omega)
  emit he := h.emit (he.mono hstart hstop)
  read hk := h.read (hk.mono hstart hstop)
  write hj hname hk :=
    h.write (hj.mono hstart hstop) (hname.mono hstart hstop) (hk.mono hstart hstop)
  count value hk hname := h.count value (hk.mono hstart hstop) (hname.mono hstart hstop)
  accumulate value hk hname := h.accumulate value (hk.mono hstart hstop) (hname.mono hstart hstop)
  failure he := h.failure (he.mono hstart hstop)

/-! ## Reading -/

theorem Aligned.firstMarker? (h : Aligned ρ d S T start stop) (kind : Control) :
    ∃ found, T.tape.firstMarker? kind start stop = .ok found ∧
      S.tape.firstMarker? kind (start + d) (stop + d) = .ok (found.map (· + d)) := by
  fun_induction Tape.firstMarker? T.tape kind start stop with
  | case1 start hlt hat =>
    obtain ⟨token, htoken, _⟩ := h.token start (by omega) hlt
    rw [hat] at htoken
    cases htoken
  | case2 start hlt token hat hmarker =>
    obtain ⟨token', htoken, hS⟩ := h.token start (by omega) hlt
    obtain rfl : token = token' := by simpa [hat] using htoken
    refine ⟨some start, rfl, ?_⟩
    rw [Tape.firstMarker?, if_pos (by omega), hS]
    simp [hmarker]
  | case3 start hlt token hat hmarker ih =>
    obtain ⟨token', htoken, hS⟩ := h.token start (by omega) hlt
    obtain rfl : token = token' := by simpa [hat] using htoken
    obtain ⟨found, hfound, hshifted⟩ := ih (h.mono (by omega) (by omega))
    refine ⟨found, hfound, ?_⟩
    rw [Tape.firstMarker?, if_pos (by omega), hS]
    simp only [hmarker, Bool.false_eq_true, if_false]
    rwa [show start + d + 1 = start + 1 + d by omega]
  | case4 start hge =>
    refine ⟨none, rfl, ?_⟩
    rw [Tape.firstMarker?, if_neg (by omega)]
    rfl

theorem Aligned.target? (h : Aligned ρ d S T start stop) {k : Int} (hhi : k < stop) :
    target? S (start + d) (k + d) = target? T start k := by
  unfold Run.target?
  by_cases hlong : 1 < k - start
  · obtain ⟨token, hT, hS⟩ := h.token (k - 2) (by omega) (by omega)
    rw [if_pos hlong, if_pos (by omega), hT, show k + d - 2 = k - 2 + d by omega, hS]
  · rw [if_neg hlong, if_neg (by omega)]

theorem target?_within {k : Int} {name : Text} (hhi : k < stop)
    (h : target? T start k = some name) : T.tape.Within start stop (k - 2) (.reference name) := by
  unfold target? at h
  split at h
  · refine ⟨by omega, by omega, ?_⟩
    split at h
    · cases h; assumption
    · cases h
  · cases h

theorem Aligned.findMarker (h : Aligned ρ d S T start stop) (kind : Control) :
    (∃ offset, T.tape.findMarker kind start stop true = .ok offset ∧
      S.tape.findMarker kind (start + d) (stop + d) true = .ok (offset + d)) ∨
    (T.tape.findMarker kind start stop true = .error (.fault (.missingMarker kind)) ∧
      S.tape.findMarker kind (start + d) (stop + d) true =
        .error (.fault (.missingMarker kind))) := by
  unfold Tape.findMarker
  by_cases hempty : start = stop
  · subst hempty
    rw [if_pos rfl, if_pos rfl]
    exact .inl ⟨start, rfl, rfl⟩
  · have hshifted : ¬start + d = stop + d := by omega
    rw [if_neg hempty, if_neg hshifted]
    obtain ⟨found, hT, hS⟩ := h.firstMarker? kind
    rw [hT, hS]
    cases found with
    | none => exact .inr ⟨rfl, rfl⟩
    | some offset => exact .inl ⟨offset, rfl, rfl⟩

/-! ## Finding the ends -/

theorem sim_findEnd (h : Aligned ρ d S T start stop) {kind : Control}
    (hmissing : ρ.failure (.fault (.missingMarker kind)) (.fault (.missingMarker kind)))
    {a b : Int} (ha : a = start + d) (hb : b = stop + d) (hS : a ≤ b) (hT : start ≤ stop) :
    Sim ρ (fun x y => x.offset = y.offset + d) (findEnd S kind a b hS)
      (findEnd T kind start stop hT) := by
  subst ha hb
  rcases h.findMarker kind with ⟨offset, hfT, hfS⟩ | ⟨hfT, hfS⟩
  · obtain ⟨x, hx, hxeq⟩ := findEnd_found hS hfS
    obtain ⟨y, hy, hyeq⟩ := findEnd_found hT hfT
    rw [hxeq, hyeq]
    exact sim_pure (by omega)
  · rw [findEnd_failed hS hfS, findEnd_failed hT hfT]
    exact sim_throw hmissing

theorem sim_findBranches (h : Aligned ρ d S T start stop)
    (hmissing : ρ.failure (.fault (.missingMarker .endIf)) (.fault (.missingMarker .endIf)))
    {a b : Int} (ha : a = start + d) (hb : b = stop + d) (hS : a ≤ b) (hT : start ≤ stop) :
    Sim ρ (fun x y => x.thenStop = y.thenStop + d ∧ x.elseStart = y.elseStart + d ∧
        x.last.offset = y.last.offset + d)
      (findBranches S a b hS) (findBranches T start stop hT) := by
  subst ha hb
  obtain ⟨found, heT, heS⟩ := h.firstMarker? .orElse
  cases found with
  | none =>
    rcases h.findMarker .endIf with ⟨offset, hfT, hfS⟩ | ⟨hfT, hfS⟩
    · obtain ⟨x, hx1, hx2, hx3, hxeq⟩ := findBranches_alone hS heS hfS
      obtain ⟨y, hy1, hy2, hy3, hyeq⟩ := findBranches_alone hT heT hfT
      rw [hxeq, hyeq]
      exact sim_pure ⟨by omega, by omega, by omega⟩
    · rw [findBranches_failed hS heS hfS, findBranches_failed hT heT hfT]
      exact sim_throw hmissing
  | some middle =>
    have hmem := Tape.firstMarker?_mem heT
    have heS : S.tape.firstMarker? .orElse (start + d) (stop + d) = .ok (some (middle + d)) := heS
    rcases (h.mono hmem.1 (Int.le_refl _)).findMarker .endIf with ⟨offset, hfT, hfS⟩ | ⟨hfT, hfS⟩
    · obtain ⟨x, hx1, hx2, hx3, hxeq⟩ := findBranches_else hS heS hfS
      obtain ⟨y, hy1, hy2, hy3, hyeq⟩ := findBranches_else hT heT hfT
      rw [hxeq, hyeq]
      exact sim_pure ⟨by omega, by omega, by omega⟩
    · rw [findBranches_failed hS heS hfS, findBranches_failed hT heT hfT]
      exact sim_throw hmissing

/-! ## Steps of a walk -/

theorem sim_fetchName (h : Aligned ρ d S T start stop) {k c : Int} (hlo : start ≤ k)
    (hhi : k < stop) (hc : c = k + d) {otherwise : Token → Fault}
    (hfault : ∀ token, ρ.failure (.fault (otherwise token)) (.fault (otherwise token))) :
    Sim ρ (fun x y => x = y ∧ T.tape.Within start stop k (.reference y))
      (fetchName S c otherwise) (fetchName T k otherwise) := by
  obtain ⟨token, hT, hS⟩ := h.token k hlo hhi
  have hwithin : T.tape.Within start stop k token := ⟨hlo, hhi, hT⟩
  unfold fetchName fetch
  rw [hT, hc, hS]
  simp only [pure_bind]
  cases token with
  | reference name => exact sim_pure ⟨rfl, hwithin⟩
  | number _ | operator _ | control _ | unclassified => exact sim_throw (hfault _)

theorem Progress.meet_pending (progress : Progress) (operand : Binary64) :
    (progress.meet operand).pending = none := by
  unfold Progress.meet
  split <;> rfl

theorem sim_meetNumber (h : Aligned ρ d S T start stop) {k : Int} {value : Binary64}
    (hk : T.tape.Within start stop k (.number value)) {progress : Progress}
    (hpending : ∀ op, progress.pending = some op →
      ∃ j, T.tape.Within start stop j (.operator op)) :
    Sim ρ (fun x y => x = y ∧ y.pending = none)
      (meetNumber S (start + d) (k + d) progress value) (meetNumber T start k progress value) := by
  have hmeet := progress.meet_pending value
  unfold meetNumber
  rw [h.target? hk.2.1]
  by_cases hassign : progress.pending = some .assign
  · simp only [if_pos hassign]
    obtain ⟨j, hj⟩ := hpending _ hassign
    cases htarget : target? T start k with
    | none =>
      have harises : (Failure.fault (.noTarget k)).Arises T.tape start stop := ⟨value, hk⟩
      exact sim_bind (sim_throw (V := Eq) (h.failure harises (by simp)))
        fun _ _ _ => sim_pure ⟨rfl, hmeet⟩
    | some name =>
      exact sim_bind (h.write hj (target?_within hk.2.1 htarget) hk)
        fun _ _ _ => sim_pure ⟨rfl, hmeet⟩
  · simp only [if_neg hassign]
    exact sim_pure ⟨rfl, hmeet⟩

theorem sim_meetVariable {name : Text} (hread : Sim ρ Eq (lookup name) (lookup name))
    (hassigned : ρ.failure (.fault (.variableAssigned name)) (.fault (.variableAssigned name)))
    (progress : Progress) :
    Sim ρ (fun x y => x = y ∧ y.pending = none) (meetVariable progress name)
      (meetVariable progress name) := by
  unfold meetVariable
  refine sim_bind hread ?_
  rintro value _ rfl
  have hmeet := progress.meet_pending value
  split
  · exact sim_bind (sim_throw (V := Eq) hassigned) fun _ _ _ => sim_pure ⟨rfl, hmeet⟩
  · exact sim_pure ⟨rfl, hmeet⟩

theorem sim_loopBody {name accumulator : Text} {body body' : Run Binary64}
    (hbody : Sim ρ Eq body body') (hcount : ∀ v, Sim ρ Eq (assign S name v) (assign T name v))
    (haccumulate : ∀ v, Sim ρ Eq (assign S accumulator v) (assign T accumulator v))
    (hunfinished : ρ.failure .unfinished .unfinished) (last : Binary64) (rounds : Nat)
    (count result : Binary64) :
    Sim ρ Eq (loopBody S name accumulator body last rounds count result)
      (loopBody T name accumulator body' last rounds count result) := by
  induction rounds generalizing count result with
  | zero =>
    unfold loopBody
    split
    · exact sim_throw hunfinished
    · exact sim_pure rfl
  | succ rounds ih =>
    unfold loopBody
    split
    · refine sim_bind (hcount count) fun _ _ _ => sim_bind hbody ?_
      rintro value _ rfl
      exact sim_bind (haccumulate value) fun _ _ _ => ih (count + 1) value
    · exact sim_pure rfl

/-! ## Whole walks -/

section Whole

variable (ρ : Relation) (d : Int) (S T : Setting)

/-- The results are the same, and the ends are as far apart as the offsets are. -/
def SameBlock {p q p' q' : Int} (x : Binary64 × BlockEnd p q) (y : Binary64 × BlockEnd p' q') :
    Prop :=
  x.1 = y.1 ∧ x.2.offset = y.2.offset + d

def RangeInStep (start stop : Int) : Prop :=
  ∀ a b, a = start + d → b = stop + d → Aligned ρ d S T start stop →
    Sim ρ Eq (range S a b) (range T start stop)

/-- A pending operator was read in the view before. -/
def WalkInStep (start stop offset : Int) (progress : Progress) : Prop :=
  ∀ a b c, a = start + d → b = stop + d → c = offset + d → start ≤ offset →
    (∀ op, progress.pending = some op → ∃ j, T.tape.Within start stop j (.operator op)) →
    Aligned ρ d S T start stop →
    Sim ρ Eq (walk S a b c progress) (walk T start stop offset progress)

def IfInStep (offset stop : Int) : Prop :=
  ∀ a b, a = offset + d → b = stop + d → T.tape.at? offset = some (.control .ifThen) →
    offset < stop → Aligned ρ d S T offset stop →
    Sim ρ (SameBlock d) (ifBlock S a b) (ifBlock T offset stop)

def ForInStep (offset stop : Int) (result : Binary64) : Prop :=
  ∀ a b, a = offset + d → b = stop + d → T.tape.at? offset = some (.control .forLoop) →
    offset < stop → Aligned ρ d S T offset stop →
    Sim ρ (SameBlock d) (forBlock S a b result) (forBlock T offset stop result)

end Whole

theorem walkInStep_step {offset : Int} {progress : Progress} (hlt : offset < stop)
    (hnext : ∀ progress, WalkInStep ρ d S T start stop (offset + 1) progress)
    (hfor : ForInStep ρ d S T offset stop progress.result) (hif : IfInStep ρ d S T offset stop)
    (hbehind : ∀ result (last : BlockEnd (offset + 4) stop),
      WalkInStep ρ d S T start stop (last.offset + 1) ⟨result, progress.pending⟩) :
    WalkInStep ρ d S T start stop offset progress := by
  rintro a b c rfl rfl rfl hle hpending h
  obtain ⟨token, hT, hS⟩ := h.token offset hle hlt
  have hwithin : T.tape.Within start stop offset token := ⟨hle, hlt, hT⟩
  have hview := h.mono hle (Int.le_refl stop)
  rw [walk_dispatch hlt hT, walk_dispatch (by omega) hS]
  have htold : (Event.dispatched offset token progress.result progress.pending).Arises T.tape start
      stop := hwithin
  refine sim_bind (h.emit htold) ?_
  rintro _ _ -
  -- Behind an operand nothing is pending; behind a block the same is as before it
  have hnone (next : Progress) (hn : next.pending = none) :
      Sim ρ Eq (walk S (start + d) (stop + d) (offset + d + 1) next)
        (walk T start stop (offset + 1) next) :=
    hnext next _ _ _ rfl rfl (by omega) (by omega) (by simp [hn]) h
  have hblock (block : Binary64 × BlockEnd (offset + d + 4) (stop + d))
      (block' : Binary64 × BlockEnd (offset + 4) stop) (hsame : SameBlock d block block') :
      Sim ρ Eq (walk S (start + d) (stop + d) (block.2.offset + 1) ⟨block.1, progress.pending⟩)
        (walk T start stop (block'.2.offset + 1) ⟨block'.1, progress.pending⟩) := by
    have hend := block'.2.start_le
    rw [hsame.1]
    exact hbehind block'.1 block'.2 _ _ _ rfl rfl (by have := hsame.2; omega) (by omega) hpending h
  cases token with
  | number value =>
    refine sim_bind (sim_meetNumber h hwithin hpending) ?_
    rintro next _ ⟨rfl, hn⟩
    exact hnone next hn
  | reference name =>
    have harises : (Failure.fault (.variableAssigned name)).Arises T.tape start stop :=
      ⟨offset, hwithin⟩
    refine sim_bind (sim_meetVariable (h.read hwithin) (h.failure harises (by simp)) progress) ?_
    rintro next _ ⟨rfl, hn⟩
    exact hnone next hn
  | operator kind =>
    refine hnext _ _ _ _ rfl rfl (by omega) (by omega) ?_ h
    rintro op ⟨⟩
    exact ⟨offset, hwithin⟩
  | control kind =>
    cases kind with
    | forLoop =>
      exact sim_bind (hfor _ _ rfl rfl hT hlt hview) hblock
    | ifThen => exact sim_bind (hif _ _ rfl rfl hT hlt hview) hblock
    | orElse | endFor | endIf =>
      exact hnext progress _ _ _ rfl rfl (by omega) (by omega) hpending h
  | unclassified =>
    have harises : Failure.unclassifiedToken.Arises T.tape start stop := ⟨offset, hwithin⟩
    exact sim_throw (h.failure harises (by simp))

theorem forInStep_step {offset : Int} {result : Binary64} (hlong : offset + 5 < stop)
    (hfirst : RangeInStep ρ d S T (offset + 2) (offset + 3))
    (hlast : RangeInStep ρ d S T (offset + 3) (offset + 4))
    (hbody : ∀ bodyStop : BlockEnd (offset + 4) stop,
      RangeInStep ρ d S T (offset + 4) bodyStop.offset) :
    ForInStep ρ d S T offset stop result := by
  rintro a b rfl rfl hmarker hlt h
  have hwithin : T.tape.Within offset stop offset (.control .forLoop) :=
    ⟨Int.le_refl _, hlt, hmarker⟩
  have hvariable (token : Token) : ρ.failure (.fault (.loopVariable token))
      (.fault (.loopVariable token)) :=
    h.failure (e := .fault (.loopVariable token)) ⟨offset, hwithin⟩ (by simp)
  have hleader (token : Token) : ρ.failure (.fault (.loopBody token)) (.fault (.loopBody token)) :=
    h.failure (e := .fault (.loopBody token)) ⟨offset, hwithin⟩ (by simp)
  have hmissing : ρ.failure (.fault (.missingMarker .endFor)) (.fault (.missingMarker .endFor)) :=
    h.failure (e := .fault (.missingMarker .endFor)) ⟨offset, hwithin⟩ (by simp)
  have hunfinished : ρ.failure .unfinished .unfinished :=
    h.failure (e := .unfinished) ⟨offset, hwithin⟩ (by simp)
  unfold forBlock
  rw [dif_pos hlong, dif_pos (by omega)]
  refine sim_bind (sim_fetchName h (k := offset + 1) (by omega) (by omega) (by omega) hvariable) ?_
  rintro name _ ⟨rfl, hname⟩
  refine sim_bind (hfirst _ _ (by omega) (by omega) (h.mono (by omega) (by omega))) ?_
  rintro first _ rfl
  refine sim_bind (hlast _ _ (by omega) (by omega) (h.mono (by omega) (by omega))) ?_
  rintro last _ rfl
  refine sim_bind (sim_findEnd (h.mono (by omega) (Int.le_refl _)) hmissing (by omega) rfl _ _) ?_
  intro bodyStop bodyStop' hstop
  refine sim_bind (sim_fetchName h (k := offset + 4) (by omega) (by omega) (by omega) hleader) ?_
  rintro accumulator _ ⟨rfl, haccumulator⟩
  have hevent : Event.loop name first last (offset + d + 4) bodyStop.offset =
      (Event.loop name first last (offset + 4) bodyStop'.offset).shift d := by
    simp only [Event.shift, hstop]
    congr 1
    omega
  rw [hevent, h.rounds]
  refine sim_bind (h.emit ⟨offset + 1, hname⟩) fun _ _ _ => ?_
  have hle := bodyStop'.le_stop
  have hin := hbody bodyStop' (offset + d + 4) _ (by omega) hstop (h.mono (by omega) hle)
  refine sim_bind (sim_loopBody hin (fun v => h.count v hwithin hname)
    (fun v => h.accumulate v hwithin haccumulator) hunfinished last _ first result) ?_
  rintro value _ rfl
  exact sim_pure ⟨rfl, hstop⟩

theorem ifInStep_step {offset : Int} (hlong : offset + 3 < stop)
    (hcondition : RangeInStep ρ d S T (offset + 1) (offset + 4))
    (helse : ∀ branches : Branches (offset + 4) stop,
      RangeInStep ρ d S T branches.elseStart branches.last.offset)
    (hthen : ∀ branches : Branches (offset + 4) stop,
      RangeInStep ρ d S T (offset + 4) branches.thenStop) :
    IfInStep ρ d S T offset stop := by
  rintro a b rfl rfl hmarker hlt h
  have hmissing : ρ.failure (.fault (.missingMarker .endIf)) (.fault (.missingMarker .endIf)) :=
    h.failure (e := .fault (.missingMarker .endIf)) ⟨offset, Int.le_refl _, hlt, hmarker⟩ (by simp)
  unfold ifBlock
  rw [dif_pos hlong, dif_pos (by omega)]
  refine sim_bind (hcondition _ _ (by omega) (by omega) (h.mono (by omega) (by omega))) ?_
  rintro condition _ rfl
  refine sim_bind (sim_findBranches (h.mono (by omega) (Int.le_refl _)) hmissing (by omega) rfl
    _ _) ?_
  rintro branches branches' ⟨hstop, hstart, hend⟩
  have hevent : Event.branch condition (offset + d + 4) branches.thenStop branches.elseStart
      branches.last.offset = (Event.branch condition (offset + 4) branches'.thenStop
        branches'.elseStart branches'.last.offset).shift d := by
    simp only [Event.shift, hstop, hstart, hend]
    congr 1
    omega
  rw [hevent]
  refine sim_bind (h.emit trivial) fun _ _ _ => ?_
  have hle := branches'.last.le_stop
  have := branches'.start_le
  have := branches'.thenStop_le
  split
  · refine sim_bind (helse branches' _ _ hstart hend (h.mono (by omega) hle)) ?_
    rintro value _ rfl
    exact sim_pure ⟨rfl, hend⟩
  · refine sim_bind (hthen branches' _ _ (by omega) hstop (h.mono (by omega) (by omega))) ?_
    rintro value _ rfl
    exact sim_pure ⟨rfl, hend⟩

theorem inStep (ρ : Relation) (d : Int) (S T : Setting) :
    (∀ start stop, RangeInStep ρ d S T start stop) ∧
    (∀ start stop offset progress, WalkInStep ρ d S T start stop offset progress) ∧
    (∀ offset stop, IfInStep ρ d S T offset stop) ∧
    (∀ offset stop result, ForInStep ρ d S T offset stop result) := by
  -- The induction is on the calls of the second walk. The first one follows it, so its offsets are
  -- bound again by equations
  apply range.mutual_induct
  case case1 =>
    rintro start stop hwalk a b rfl rfl h
    unfold range
    refine sim_bind (hwalk _ _ _ rfl rfl rfl (by omega) (by simp [Progress.start]) h) ?_
    rintro progress _ rfl
    exact sim_pure rfl
  case case2 =>
    intro start stop offset progress hlt hnext _ hfor hbehind hif _
    exact walkInStep_step hlt hnext hfor hif hbehind
  case case3 =>
    rintro start stop offset progress hge a b c rfl rfl rfl - - -
    rw [walk_end (by omega), walk_end (by omega)]
    exact sim_pure rfl
  case case4 =>
    intro offset stop hlong hcondition helse hthen
    exact ifInStep_step hlong hcondition helse hthen
  case case5 =>
    rintro offset stop hshort a b rfl rfl hmarker hlt h
    have harises : (Failure.fault .conditionTooShort).Arises T.tape offset stop :=
      ⟨offset, Int.le_refl _, hlt, hmarker⟩
    unfold ifBlock
    rw [dif_neg hshort, dif_neg (by omega)]
    exact sim_throw (h.failure harises (by simp))
  case case6 =>
    intro offset stop result hlong hfirst hlast hbody
    exact forInStep_step hlong hfirst hlast hbody
  case case7 =>
    rintro offset stop result hshort a b rfl rfl hmarker hlt h
    have harises : (Failure.fault .loopTooShort).Arises T.tape offset stop :=
      ⟨offset, Int.le_refl _, hlt, hmarker⟩
    unfold forBlock
    rw [dif_neg hshort, dif_neg (by omega)]
    exact sim_throw (h.failure harises (by simp))

/-- The result of a view depends on nothing but what aligned settings have in common. -/
theorem Aligned.range (h : Aligned ρ d S T start stop) :
    Sim ρ Eq (range S (start + d) (stop + d)) (range T start stop) :=
  (inStep ρ d S T).1 start stop _ _ rfl rfl h

end Run

end TokenTape

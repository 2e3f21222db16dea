import Mathlib
import TokenTape.Proofs.Counting
import TokenTape.Proofs.Failures

/-!
# Contracts

A contract says of a view what its run keeps true of the variables, and what holds where it fails.
It asks for that only at the places where a run reads, writes and fails. A loop may run out of
rounds, unless its counts are integers that there are enough rounds for.
-/

namespace TokenTape.Run

variable {setting : Setting} {lo hi : Int} {P : Store → Prop} {E : Failure → Store → Prop}

/-- The loop at an offset counts between two integers, and it has a round for each. -/
def Counted (setting : Setting) (offset : Int) : Prop :=
  ∃ (first last : Binary64) (a b : Int), setting.tape.at? (offset + 2) = some (.number first) ∧
    setting.tape.at? (offset + 3) = some (.number last) ∧ first.toInt? = some a ∧
    last.toInt? = some b ∧ -2 ^ 53 ≤ a ∧ b < 2 ^ 53 ∧ b + 1 - a ≤ setting.rounds

/-- A run of the view `[lo, hi)` keeps `P`, and where it fails `E` holds. -/
structure Contract (setting : Setting) (lo hi : Int) (P : Store → Prop)
    (E : Failure → Store → Prop) : Prop where
  low : 0 ≤ lo
  high : hi ≤ setting.tape.size
  write : ∀ {name} value {store}, setting.tape.Target lo hi name → P store →
    P (store.insert name value)
  read : ∀ {k name store}, setting.tape.Within lo hi k (.reference name) → P store →
    store.get? name = none → E (.fault (.undefinedVariable name)) store
  failure : ∀ {e : Failure} {store}, e.Arises setting.tape lo hi →
    (∀ name, e ≠ .fault (.undefinedVariable name)) → e ≠ .unfinished → P store → E e store
  loop : ∀ {k}, setting.tape.Within lo hi k (.control .forLoop) → k + 5 < hi →
    Counted setting k ∨ ∀ store, P store → E .unfinished store

/-! ## Steps -/

theorem findMarker_error {start stop : Int} (hlo : 0 ≤ start) (hhi : stop ≤ setting.tape.size)
    {kind : Control} {e : Failure}
    (h : setting.tape.findMarker kind start stop true = .error e) :
    e = .fault (.missingMarker kind) := by
  rcases (aligned_arises hlo hhi).findMarker kind with ⟨offset, hfound, -⟩ | ⟨hmissing, -⟩
  · rw [h] at hfound
    cases hfound
  · rw [h] at hmissing
    cases hmissing
    rfl

theorem firstMarker?_ne_error {start stop : Int} (hlo : 0 ≤ start)
    (hhi : stop ≤ setting.tape.size) (kind : Control) (e : Failure) :
    setting.tape.firstMarker? kind start stop ≠ .error e := by
  obtain ⟨found, hfound, -⟩ := (aligned_arises hlo hhi).firstMarker? kind
  rw [hfound]
  simp

theorem triple_bound {k stop : Int} (hstop : stop = k + 1)
    (h : Triple P (range setting k stop) (fun _ => P) E) :
    Triple P (range setting k stop)
      (fun value store => P store ∧ ∀ v, setting.tape.at? k = some (.number v) → value = v) E := by
  subst hstop
  by_cases hnumber : ∃ v, setting.tape.at? k = some (.number v)
  · obtain ⟨v, hat⟩ := hnumber
    rw [range_number hat]
    apply (triple_emit _).bind
    intro _
    refine triple_pure fun store hP => ⟨hP, fun w hw => ?_⟩
    rw [hat] at hw
    cases hw
    rfl
  · refine h.mono (fun _ hP => hP) (fun value store hP => ⟨hP, fun v hv => ?_⟩) fun _ _ hE => hE
    exact absurd ⟨v, hv⟩ hnumber

theorem triple_loopRounds {name accumulator : Text} {body : Run Binary64}
    (hcount : ∀ value store, P store → P (store.insert name value))
    (hbody : Triple P body (fun _ => P) E)
    (haccumulate : ∀ value store, P store → P (store.insert accumulator value))
    (counts : List Binary64) (result : Binary64) :
    Triple P (loopRounds setting name accumulator body counts result) (fun _ => P) E := by
  induction counts generalizing result with
  | nil => exact triple_pure fun _ hP => hP
  | cons count rest ih =>
    rw [loopRounds_cons]
    refine Triple.bind (Q := fun _ => P) ?_ ih
    unfold loopRound
    apply (triple_assign (Q := fun _ => P) (hcount count)).bind
    intro _
    apply hbody.bind
    intro value
    apply (triple_assign (Q := fun _ => P) (haccumulate value)).bind
    intro _
    exact triple_pure fun _ hP => hP

namespace Contract

variable (h : Contract setting lo hi P E) {start stop offset : Int}
include h

theorem triple_meetNumber {value : Binary64}
    (hat : setting.tape.Within lo hi offset (.number value)) (hstart : lo ≤ start)
    {progress : Progress}
    (hpending : ∀ op, progress.pending = some op →
      ∃ j, setting.tape.Within lo hi j (.operator op)) :
    Triple P (meetNumber setting start offset progress value)
      (fun next store => P store ∧ next.pending = none) E := by
  have hmeet := progress.meet_pending value
  unfold meetNumber
  split
  · next hassign =>
    obtain ⟨j, hj⟩ := hpending _ hassign
    cases htarget : target? setting start offset with
    | none =>
      have harises : (Failure.fault (.noTarget offset)).Arises setting.tape lo hi := ⟨value, hat⟩
      exact triple_throw fun _ hP => h.failure harises (by simp) (by simp) hP
    | some name =>
      have hname : setting.tape.Within lo hi (offset - 2) (.reference name) :=
        (target?_within hat.2.1 htarget).mono hstart (Int.le_refl _)
      have hnumber : setting.tape.Within lo hi (offset - 2 + 2) (.number value) := by
        rwa [Int.sub_add_cancel]
      have hwrite : setting.tape.Target lo hi name :=
        ⟨offset - 2, hname, .inr (.inr ⟨⟨value, hnumber⟩, j, hj⟩)⟩
      apply (triple_assign (Q := fun _ => P) fun _ hP => h.write value hwrite hP).bind
      intro _
      exact triple_pure fun _ hP => ⟨hP, hmeet⟩
  · exact triple_pure fun _ hP => ⟨hP, hmeet⟩

theorem triple_meetVariable {name : Text}
    (hat : setting.tape.Within lo hi offset (.reference name)) (progress : Progress) :
    Triple P (meetVariable progress name) (fun next store => P store ∧ next.pending = none) E := by
  have hread : Triple P (lookup name) (fun _ => P) E :=
    triple_lookup (fun _ _ hP _ => hP) fun _ hP hnone => h.read hat hP hnone
  have harises : (Failure.fault (.variableAssigned name)).Arises setting.tape lo hi := ⟨offset, hat⟩
  unfold meetVariable
  apply hread.bind
  intro value
  split
  · exact triple_throw fun _ hP => h.failure harises (by simp) (by simp) hP
  · exact triple_pure fun _ hP => ⟨hP, progress.meet_pending value⟩

theorem triple_fetchName (hlo : lo ≤ offset) (hhi : offset < hi) {otherwise : Token → Fault}
    (hother : ∀ token store, P store → E (.fault (otherwise token)) store) :
    Triple P (fetchName setting offset otherwise)
      (fun name store => P store ∧ setting.tape.Within lo hi offset (.reference name)) E := by
  refine Run.triple_fetchName (fun name _ hat hP => ⟨hP, hlo, hhi, hat⟩) ?_ hother
  intro store hnone
  have hlow := h.low
  have hhigh := h.high
  obtain ⟨token, -, hat⟩ := setting.tape.at?_of_size (k := offset) (by omega) (by omega)
  rw [hnone] at hat
  cases hat

theorem triple_loop (hfor : setting.tape.Within lo hi offset (.control .forLoop))
    (hlong : offset + 5 < hi) {name accumulator : Text}
    (hname : setting.tape.Within lo hi (offset + 1) (.reference name))
    (haccumulator : setting.tape.Within lo hi (offset + 4) (.reference accumulator))
    {body : Run Binary64} (hbody : Triple P body (fun _ => P) E) {first last : Binary64}
    (hfirst : ∀ v, setting.tape.at? (offset + 2) = some (.number v) → first = v)
    (hlast : ∀ v, setting.tape.at? (offset + 3) = some (.number v) → last = v)
    (result : Binary64) :
    Triple P (loopBody setting name accumulator body last setting.rounds first result)
      (fun _ => P) E := by
  have hcount (value : Binary64) (store : Store) (hP : P store) : P (store.insert name value) := by
    refine h.write value ⟨offset + 1, hname, .inl ?_⟩ hP
    rwa [Int.add_sub_cancel]
  have haccumulate (value : Binary64) (store : Store) (hP : P store) :
      P (store.insert accumulator value) := by
    refine h.write value ⟨offset + 4, haccumulator, .inr (.inl ?_)⟩ hP
    rwa [Int.add_sub_cancel]
  rcases h.loop hfor hlong with hcounted | hunfinished
  · obtain ⟨first', last', a, b, hat, hat', ha, hb, hlow, hhigh, hrounds⟩ := hcounted
    rw [hfirst first' hat, hlast last' hat',
      loopBody_counts ha hb hlow hhigh name accumulator body hrounds result]
    exact triple_loopRounds hcount hbody haccumulate _ _
  · exact triple_loopBody hcount hbody haccumulate hunfinished _ _ _ _

end Contract

/-! ## Whole walks -/

section Whole

variable (setting lo hi P E)

def RangeUpholds (start stop : Int) : Prop :=
  lo ≤ start → stop ≤ hi → Triple P (range setting start stop) (fun _ => P) E

/-- A pending operator was read in the view before. -/
def WalkUpholds (start stop offset : Int) (progress : Progress) : Prop :=
  lo ≤ start → start ≤ offset → stop ≤ hi →
    (∀ op, progress.pending = some op → ∃ j, setting.tape.Within lo hi j (.operator op)) →
    Triple P (walk setting start stop offset progress) (fun _ => P) E

def IfUpholds (offset stop : Int) : Prop :=
  stop ≤ hi → setting.tape.Within lo hi offset (.control .ifThen) →
    Triple P (ifBlock setting offset stop) (fun _ => P) E

def ForUpholds (offset stop : Int) (result : Binary64) : Prop :=
  stop ≤ hi → setting.tape.Within lo hi offset (.control .forLoop) →
    Triple P (forBlock setting offset stop result) (fun _ => P) E

end Whole

variable {start stop offset : Int}

theorem walkUpholds_step (h : Contract setting lo hi P E) {progress : Progress}
    (hlt : offset < stop)
    (hnext : ∀ progress, WalkUpholds setting lo hi P E start stop (offset + 1) progress)
    (hfor : ForUpholds setting lo hi P E offset stop progress.result)
    (hif : IfUpholds setting lo hi P E offset stop)
    (hbehind : ∀ result (last : BlockEnd (offset + 4) stop),
      WalkUpholds setting lo hi P E start stop (last.offset + 1) ⟨result, progress.pending⟩) :
    WalkUpholds setting lo hi P E start stop offset progress := by
  intro hstart hle hstop hpending
  have hlow := h.low
  have hhigh := h.high
  obtain ⟨token, -, hat⟩ := setting.tape.at?_of_size (k := offset) (by omega) (by omega)
  have hwithin : setting.tape.Within lo hi offset token := ⟨by omega, by omega, hat⟩
  rw [walk_dispatch hlt hat]
  apply (triple_emit _).bind
  intro _
  -- Behind an operand nothing is pending; behind a block the same is as before it
  have hoperand (next : Progress) : Triple (fun store => P store ∧ next.pending = none)
      (walk setting start stop (offset + 1) next) (fun _ => P) E :=
    triple_and fun hn => hnext next hstart (by omega) hstop (by simp [hn])
  have hblock (block : Binary64 × BlockEnd (offset + 4) stop) : Triple P
      (walk setting start stop (block.2.offset + 1) ⟨block.1, progress.pending⟩)
      (fun _ => P) E := by
    have := block.2.start_le
    exact hbehind block.1 block.2 hstart (by omega) hstop hpending
  cases token with
  | number value => exact (h.triple_meetNumber hwithin hstart hpending).bind hoperand
  | reference name => exact (h.triple_meetVariable hwithin progress).bind hoperand
  | operator kind =>
    refine hnext _ hstart (by omega) hstop ?_
    rintro op ⟨⟩
    exact ⟨offset, hwithin⟩
  | control kind =>
    cases kind with
    | forLoop => exact (hfor hstop hwithin).bind hblock
    | ifThen => exact (hif hstop hwithin).bind hblock
    | orElse | endFor | endIf => exact hnext progress hstart (by omega) hstop hpending
  | unclassified =>
    have harises : Failure.unclassifiedToken.Arises setting.tape lo hi := ⟨offset, hwithin⟩
    exact triple_throw fun _ hP => h.failure harises (by simp) (by simp) hP

theorem forUpholds_step (h : Contract setting lo hi P E) {result : Binary64}
    (hlong : offset + 5 < stop)
    (hfirst : RangeUpholds setting lo hi P E (offset + 2) (offset + 3))
    (hlast : RangeUpholds setting lo hi P E (offset + 3) (offset + 4))
    (hbody : ∀ bodyStop : BlockEnd (offset + 4) stop,
      RangeUpholds setting lo hi P E (offset + 4) bodyStop.offset) :
    ForUpholds setting lo hi P E offset stop result := by
  intro hstop hwithin
  have hlow := h.low
  have hhigh := h.high
  have hle := hwithin.1
  have hvariable (token : Token) (store : Store) (hP : P store) :
      E (.fault (.loopVariable token)) store :=
    h.failure (e := .fault (.loopVariable token)) ⟨offset, hwithin⟩ (by simp) (by simp) hP
  have hleader (token : Token) (store : Store) (hP : P store) :
      E (.fault (.loopBody token)) store :=
    h.failure (e := .fault (.loopBody token)) ⟨offset, hwithin⟩ (by simp) (by simp) hP
  unfold forBlock
  rw [dif_pos hlong]
  apply (h.triple_fetchName (by omega) (by omega) hvariable).bind
  intro name
  apply triple_and
  intro hname
  apply (triple_bound (by omega) (hfirst (by omega) (by omega))).bind
  intro first
  apply triple_and
  intro hfirst
  apply (triple_bound (by omega) (hlast (by omega) (by omega))).bind
  intro last
  apply triple_and
  intro hlast
  have hmissing : ∀ e store, setting.tape.findMarker .endFor (offset + 4) stop true = .error e →
      P store → E e store := by
    intro e store herror hP
    rw [findMarker_error (by omega) (by omega) herror]
    exact h.failure (e := .fault (.missingMarker .endFor)) ⟨offset, hwithin⟩ (by simp) (by simp) hP
  apply (triple_findEnd _ hmissing).bind
  intro bodyStop
  apply triple_and
  intro _
  apply (h.triple_fetchName (by omega) (by omega) hleader).bind
  intro accumulator
  apply triple_and
  intro haccumulator
  apply (triple_emit _).bind
  intro _
  have hend := bodyStop.le_stop
  have hin := hbody bodyStop (by omega) (by omega)
  apply (h.triple_loop hwithin (by omega) hname haccumulator hin hfirst hlast result).bind
  intro value
  exact triple_pure fun _ hP => hP

theorem ifUpholds_step (h : Contract setting lo hi P E) (hlong : offset + 3 < stop)
    (hcondition : RangeUpholds setting lo hi P E (offset + 1) (offset + 4))
    (helse : ∀ branches : Branches (offset + 4) stop,
      RangeUpholds setting lo hi P E branches.elseStart branches.last.offset)
    (hthen : ∀ branches : Branches (offset + 4) stop,
      RangeUpholds setting lo hi P E (offset + 4) branches.thenStop) :
    IfUpholds setting lo hi P E offset stop := by
  intro hstop hwithin
  have hlow := h.low
  have hhigh := h.high
  have hle := hwithin.1
  unfold ifBlock
  rw [dif_pos hlong]
  apply (hcondition (by omega) (by omega)).bind
  intro condition
  have hsearch : ∀ e store, setting.tape.firstMarker? .orElse (offset + 4) stop = .error e →
      P store → E e store := by
    intro e store herror
    exact absurd herror (firstMarker?_ne_error (by omega) (by omega) _ _)
  have hmissing : ∀ k e store, offset + 4 ≤ k → k ≤ stop →
      setting.tape.findMarker .endIf k stop true = .error e → P store → E e store := by
    intro k e store hk _ herror hP
    rw [findMarker_error (by omega) (by omega) herror]
    exact h.failure (e := .fault (.missingMarker .endIf)) ⟨offset, hwithin⟩ (by simp) (by simp) hP
  apply (triple_findBranches _ hsearch hmissing).bind
  intro branches
  apply triple_and
  intro _
  apply (triple_emit _).bind
  intro _
  have := branches.start_le
  have := branches.thenStop_le
  have := branches.last.le_stop
  have hend (value : Binary64) : Triple P (pure (value, branches.last)) (fun _ => P) E :=
    triple_pure fun _ hP => hP
  split
  · exact (helse branches (by omega) (by omega)).bind hend
  · exact (hthen branches (by omega) (by omega)).bind hend

theorem upholds (h : Contract setting lo hi P E) :
    (∀ start stop, RangeUpholds setting lo hi P E start stop) ∧
    (∀ start stop offset progress, WalkUpholds setting lo hi P E start stop offset progress) ∧
    (∀ offset stop, IfUpholds setting lo hi P E offset stop) ∧
    (∀ offset stop result, ForUpholds setting lo hi P E offset stop result) := by
  apply range.mutual_induct
  case case1 =>
    intro start stop hwalk hstart hstop
    unfold range
    apply (hwalk hstart (Int.le_refl _) hstop (by simp [Progress.start])).bind
    intro progress
    exact triple_pure fun _ hP => hP
  case case2 =>
    intro start stop offset progress hlt hnext _ hfor hbehind hif _
    exact walkUpholds_step h hlt hnext hfor hif hbehind
  case case3 =>
    intro start stop offset progress hge _ _ _ _
    rw [walk_end (by omega)]
    exact triple_pure fun _ hP => hP
  case case4 =>
    intro offset stop hlong hcondition helse hthen
    exact ifUpholds_step h hlong hcondition helse hthen
  case case5 =>
    intro offset stop hshort _ hwithin
    have harises : (Failure.fault .conditionTooShort).Arises setting.tape lo hi := ⟨offset, hwithin⟩
    unfold ifBlock
    rw [dif_neg hshort]
    exact triple_throw fun _ hP => h.failure harises (by simp) (by simp) hP
  case case6 =>
    intro offset stop result hlong hfirst hlast hbody
    exact forUpholds_step h hlong hfirst hlast hbody
  case case7 =>
    intro offset stop result hshort _ hwithin
    have harises : (Failure.fault .loopTooShort).Arises setting.tape lo hi := ⟨offset, hwithin⟩
    unfold forBlock
    rw [dif_neg hshort]
    exact triple_throw fun _ hP => h.failure harises (by simp) (by simp) hP

theorem Contract.range (h : Contract setting lo hi P E) :
    Triple P (range setting lo hi) (fun _ => P) E :=
  (upholds h).1 lo hi (Int.le_refl _) (Int.le_refl _)

theorem Contract.evaluate (h : Contract setting 0 setting.tape.size P E) :
    Triple P (evaluate setting) (fun _ => P) E := by
  unfold Run.evaluate
  apply (triple_emit _).bind
  intro _
  apply h.range.bind
  intro result
  apply (triple_emit _).bind
  intro _
  exact triple_pure fun _ hP => hP

end TokenTape.Run

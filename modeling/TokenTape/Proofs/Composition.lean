import Mathlib
import TokenTape.Proofs.Failures
import TokenTape.Proofs.Structured
import TokenTape.Session

/-!
# One tape after the other

Two tapes that are evaluated one after the other come to what they come to as one tape. In the one
tape the blocks of the first part are searched further, and the numbers of the second part find
more tokens before them. Neither matters under mild conditions on the seam.
-/

namespace TokenTape

namespace Run

variable {S T : Setting} {start stop stop' offset : Int} {s t : State}

/-! ## Longer views -/

theorem forBlock_stretch (hle : stop ≤ stop') {result value : Binary64}
    {last : BlockEnd (offset + 4) stop}
    (h : (forBlock S offset stop result).outcome s = (.ok (value, last), t)) :
    last.offset < stop ∧ ∃ last' : BlockEnd (offset + 4) stop', last'.offset = last.offset ∧
      (forBlock S offset stop' result).outcome s = (.ok (value, last'), t) := by
  unfold forBlock at h ⊢
  split at h
  · next hlong =>
    rw [dif_pos (by omega)]
    obtain ⟨name, s₁, hname, h⟩ := exists_of_outcome_bind h
    obtain ⟨first, s₂, hfirst, h⟩ := exists_of_outcome_bind h
    obtain ⟨bound, s₃, hbound, h⟩ := exists_of_outcome_bind h
    rw [outcome_bind_ok hname, outcome_bind_ok hfirst, outcome_bind_ok hbound]
    cases hfound : S.tape.findMarker .endFor (offset + 4) stop true with
    | error e =>
      rw [findEnd_failed (by omega) hfound] at h
      cases h
    | ok k =>
      obtain ⟨hk, hfound'⟩ := Tape.findMarker_stretch (by omega) hle hfound
      obtain ⟨bodyStop, hbodyStop, hend⟩ := findEnd_found (by omega) hfound
      obtain ⟨bodyStop', hbodyStop', hend'⟩ := findEnd_found (by omega) hfound'
      rw [hend, pure_bind] at h
      rw [hend', pure_bind, hbodyStop']
      rw [hbodyStop] at h
      obtain ⟨accumulator, s₄, haccumulator, h⟩ := exists_of_outcome_bind h
      obtain ⟨_, s₅, hevent, h⟩ := exists_of_outcome_bind h
      obtain ⟨result, s₆, hloop, h⟩ := exists_of_outcome_bind h
      rw [outcome_bind_ok haccumulator, outcome_bind_ok hevent, outcome_bind_ok hloop]
      cases h
      exact ⟨by omega, bodyStop', by omega, rfl⟩
  · cases h

theorem findBranches_stretch (hlt : start < stop) (hle : stop ≤ stop')
    (helse : S.tape.firstMarker? .orElse stop stop' = .ok none) {branches : Branches start stop}
    (h : (findBranches S start stop (by omega)).outcome s = (.ok branches, t)) :
    t = s ∧ branches.last.offset < stop ∧ ∃ branches' : Branches start stop',
      branches'.thenStop = branches.thenStop ∧ branches'.elseStart = branches.elseStart ∧
      branches'.last.offset = branches.last.offset ∧
      findBranches S start stop' (by omega) = pure branches' := by
  cases hfound : S.tape.firstMarker? .orElse start stop with
  | error e =>
    unfold findBranches at h
    split at h
    · cases h
    · next hok => rw [hfound] at hok; cases hok
    · next hok => rw [hfound] at hok; cases hok
  | ok found =>
    cases hlast : S.tape.findMarker .endIf (found.getD start) stop true with
    | error e =>
      rw [findBranches_failed (by omega) hfound hlast] at h
      cases h
    | ok last =>
      cases found with
      | none =>
        obtain ⟨k, hk₁, hk₂, hk₃, hk⟩ := findBranches_alone (by omega) hfound hlast
        obtain ⟨hlast', hfurther⟩ := Tape.findMarker_stretch hlt hle hlast
        have hnone : S.tape.firstMarker? .orElse start stop' = .ok none := by
          rw [Tape.firstMarker?_resume (by omega) hle hfound, helse]
        obtain ⟨l, hl₁, hl₂, hl₃, hl⟩ := findBranches_alone (by omega) hnone hfurther
        rw [hk] at h
        cases h
        exact ⟨rfl, by omega, l, by omega, by omega, by omega, hl⟩
      | some middle =>
        have hmiddle := Tape.firstMarker?_mem hfound
        obtain ⟨k, hk₁, hk₂, hk₃, hk⟩ := findBranches_else (by omega) hfound hlast
        obtain ⟨hlast', hfurther⟩ := Tape.findMarker_stretch hmiddle.2 hle hlast
        have hsome := Tape.firstMarker?_stretch hle hfound
        obtain ⟨l, hl₁, hl₂, hl₃, hl⟩ := findBranches_else (by omega) hsome hfurther
        rw [hk] at h
        cases h
        exact ⟨rfl, by omega, l, by omega, by omega, by omega, hl⟩

theorem ifBlock_stretch (hle : stop ≤ stop') (hshort : offset + 4 ≠ stop)
    (helse : S.tape.firstMarker? .orElse stop stop' = .ok none) {value : Binary64}
    {last : BlockEnd (offset + 4) stop}
    (h : (ifBlock S offset stop).outcome s = (.ok (value, last), t)) :
    last.offset < stop ∧ ∃ last' : BlockEnd (offset + 4) stop', last'.offset = last.offset ∧
      (ifBlock S offset stop').outcome s = (.ok (value, last'), t) := by
  unfold ifBlock at h ⊢
  split at h
  · next hlong =>
    rw [dif_pos (by omega)]
    obtain ⟨condition, s₁, hcondition, h⟩ := exists_of_outcome_bind h
    obtain ⟨branches, s₂, hbranches, h⟩ := exists_of_outcome_bind h
    obtain ⟨hsame, hend, branches', hthen, hstart, hlast, hfound⟩ :=
      findBranches_stretch (by omega) hle helse hbranches
    obtain ⟨_, s₃, hevent, h⟩ := exists_of_outcome_bind h
    rw [hsame] at hevent
    rw [outcome_bind_ok hcondition, hfound, pure_bind, hthen, hstart, hlast, outcome_bind_ok hevent]
    dsimp only at h ⊢
    split at h
    · next hzero =>
      rw [if_pos hzero]
      obtain ⟨result, s₄, hresult, h⟩ := exists_of_outcome_bind h
      rw [outcome_bind_ok hresult]
      cases h
      exact ⟨hend, branches'.last, hlast, rfl⟩
    · next hzero =>
      rw [if_neg hzero]
      obtain ⟨result, s₄, hresult, h⟩ := exists_of_outcome_bind h
      rw [outcome_bind_ok hresult]
      cases h
      exact ⟨hend, branches'.last, hlast, rfl⟩
  · cases h

/-- From an offset on, a walk that ends well goes on in the longer view. -/
def Resumes (S : Setting) (start stop stop' : Int) (done : Progress) (t : State) (k : Int) : Prop :=
  ∀ progress s, (walk S start stop k progress).outcome s = (.ok done, t) →
    (walk S start stop' k progress).outcome s = (walk S start stop' stop done).outcome t

section Stretch

variable {done : Progress}
  (hrest : ∀ k, offset < k → k ≤ stop → Resumes S start stop stop' done t k)
include hrest

theorem block_stretch {m : Run (Binary64 × BlockEnd (offset + 4) stop)}
    {m' : Run (Binary64 × BlockEnd (offset + 4) stop')} {pending : Option Operator}
    (hm : ∀ value last u, m.outcome s = (.ok (value, last), u) →
      last.offset < stop ∧ ∃ last' : BlockEnd (offset + 4) stop', last'.offset = last.offset ∧
        m'.outcome s = (.ok (value, last'), u))
    (h : (m >>= fun block => walk S start stop (block.2.offset + 1) ⟨block.1, pending⟩).outcome s =
      (.ok done, t)) :
    (m' >>= fun block => walk S start stop' (block.2.offset + 1) ⟨block.1, pending⟩).outcome s =
      (walk S start stop' stop done).outcome t := by
  obtain ⟨⟨value, last⟩, u, hblock, h⟩ := exists_of_outcome_bind h
  obtain ⟨hlast, last', hsame, hblock'⟩ := hm value last u hblock
  have hstart := last.start_le
  rw [outcome_bind_ok hblock']
  dsimp only
  rw [hsame]
  exact hrest (last.offset + 1) (by omega) (by omega) _ u h

theorem dispatch_stretch (hle : stop ≤ stop') (hlt : offset < stop)
    (helse : S.tape.firstMarker? .orElse stop stop' = .ok none) {progress : Progress}
    {token : Token} (hcut : token = .control .ifThen → offset + 4 ≠ stop)
    (h : (dispatch S start stop offset progress token).outcome s = (.ok done, t)) :
    (dispatch S start stop' offset progress token).outcome s =
      (walk S start stop' stop done).outcome t := by
  have hnext := hrest (offset + 1) (by omega) (by omega)
  cases token with
  | number value =>
    obtain ⟨next, u, hmeet, h⟩ := exists_of_outcome_bind h
    unfold dispatch
    rw [outcome_bind_ok hmeet]
    exact hnext next u h
  | reference name =>
    obtain ⟨next, u, hmeet, h⟩ := exists_of_outcome_bind h
    unfold dispatch
    rw [outcome_bind_ok hmeet]
    exact hnext next u h
  | operator kind => exact hnext _ s h
  | control kind =>
    cases kind with
    | forLoop => exact block_stretch hrest (fun _ _ _ => forBlock_stretch hle) h
    | ifThen => exact block_stretch hrest (fun _ _ _ => ifBlock_stretch hle (hcut rfl) helse) h
    | orElse | endFor | endIf => exact hnext _ s h
  | unclassified => cases h

end Stretch

/-- A walk that ends well goes on from there in a longer view. A condition at the end, where nothing
of the view is left for its branches, is left out. -/
theorem walk_stretch (hle : stop ≤ stop')
    (hcut : ∀ k, 0 ≤ k → S.tape.at? k = some (.control .ifThen) → k + 4 ≠ stop)
    (helse : S.tape.firstMarker? .orElse stop stop' = .ok none) {done : Progress}
    (hlo : 0 ≤ offset) (hhi : offset ≤ stop) : Resumes S start stop stop' done t offset := by
  -- The induction is on what is left of the shorter view
  obtain ⟨n, hn⟩ : ∃ n : Nat, stop - offset = n := ⟨(stop - offset).toNat, by omega⟩
  induction n using Nat.strong_induction_on generalizing offset with
  | _ n ih =>
    intro progress s h
    rcases Int.lt_or_eq_of_le hhi with hlt | rfl
    · cases hat : S.tape.at? offset with
      | none =>
        rw [walk_outside hlt hat] at h
        cases h
      | some token =>
        rw [walk_dispatch hlt hat] at h
        rw [walk_dispatch (by omega) hat]
        obtain ⟨_, u, hevent, h⟩ := exists_of_outcome_bind h
        rw [outcome_bind_ok hevent]
        have hrest (k : Int) (hk : offset < k) (hle : k ≤ stop) :
            Resumes S start stop stop' done t k :=
          ih (stop - k).toNat (by omega) (by omega) hle (by omega)
        exact dispatch_stretch hrest hle hlt helse (fun htoken => hcut offset hlo (htoken ▸ hat)) h
    · rw [walk_end (Int.le_refl _)] at h
      cases h
      rfl

/-! ## Views with more before them -/

theorem target?_start {start' : Int} (hle : start ≤ start') (hlong : start' + 1 < offset) :
    target? S start offset = target? S start' offset := by
  unfold target?
  rw [if_pos (by omega), if_pos (by omega)]

theorem walk_start {start' : Int} (hle : start ≤ start') {progress : Progress}
    (hfar : start' + 1 < offset ∨ start' < offset ∧ progress.pending = none) :
    walk S start stop offset progress = walk S start' stop offset progress := by
  apply walk_targets
  · intro hassign
    rcases hfar with hfar | ⟨-, hpending⟩
    · exact target?_start hle hfar
    · rw [hpending] at hassign
      cases hassign
  · exact fun k hk => target?_start hle (by omega)

/-! ## The seam -/

/-- The variables are the same, and failures tell offsets `d` further on. -/
def Relation.storesShifted (d : Int) : Relation :=
  .stores fun e f => e = f.shift d

theorem agree_storesShifted {α : Type} {d : Int} {x y : Except Failure α × State}
    (h : (Relation.storesShifted d).Agree Eq x y) :
    x.1 = y.1.mapError (·.shift d) ∧ x.2.store = y.2.store := by
  obtain ⟨houtcome, hstore⟩ := h.mapError (f := id) (g := (·.shift d)) fun _ _ he => he
  rw [mapError_id] at houtcome
  exact ⟨houtcome, hstore⟩

theorem aligned_storesShifted {d : Int} (hrounds : S.rounds = T.rounds)
    (htoken : ∀ k, start ≤ k → k < stop →
      ∃ token, T.tape.at? k = some token ∧ S.tape.at? (k + d) = some token) :
    Aligned (.storesShifted d) d S T start stop := by
  constructor
  case rounds => exact hrounds
  case token => exact htoken
  case emit => exact fun _ => sim_emit_stores _ _
  case read =>
    intro k name _ s t hs
    have hs : s.store = t.store := hs
    rw [outcome_lookup, outcome_lookup, hs]
    unfold Store.lookup
    cases t.store.get? name with
    | none => exact ⟨rfl, hs⟩
    | some value => exact ⟨rfl, hs⟩
  case write => exact fun _ _ _ => sim_assign_stores _ _
  case count => exact fun _ _ _ => sim_assign_stores _ _
  case accumulate => exact fun _ _ _ => sim_assign_stores _ _
  case failure => exact fun _ _ => rfl

theorem sim_walk_operand {d : Int} {operand : Operand} (hle : start ≤ d) (hlt : 0 < stop)
    (hat : T.tape.at? 0 = some operand.token) (h : Aligned (.storesShifted d) d S T 0 stop)
    (result result' : Binary64) :
    Sim (.storesShifted d) Eq (walk S start (stop + d) d ⟨result, none⟩)
      (walk T 0 stop 0 ⟨result', none⟩) := by
  have hat' : S.tape.at? d = some operand.token := by
    obtain ⟨token, hT, hS⟩ := h.token 0 (Int.le_refl 0) hlt
    rw [hat] at hT
    cases hT
    rwa [Int.zero_add] at hS
  have hnext (next : Progress) (hn : next.pending = none) : Sim (.storesShifted d) Eq
      (walk S start (stop + d) (d + 1) next) (walk T 0 stop (0 + 1) next) := by
    rw [walk_start hle (.inr ⟨by omega, hn⟩)]
    exact (inStep (.storesShifted d) d S T).2.1 0 stop (0 + 1) next d (stop + d) (d + 1)
      (by omega) rfl (by omega) (by omega) (by simp [hn]) h
  rw [walk_dispatch (by omega) hat', walk_dispatch hlt hat]
  refine sim_bind (sim_emit_stores _ _) fun _ _ _ => ?_
  cases operand with
  | number value => exact hnext ⟨value, none⟩ rfl
  | reference name =>
    have hread : Sim (.storesShifted d) Eq (lookup name) (lookup name) :=
      h.read ⟨Int.le_refl 0, hlt, hat⟩
    have hmeet : Sim (.storesShifted d) (fun x y => x = y ∧ y.pending = none)
        (meetVariable ⟨result, none⟩ name) (meetVariable ⟨result', none⟩ name) := by
      refine sim_bind hread ?_
      rintro value _ rfl
      exact sim_pure ⟨rfl, rfl⟩
    refine sim_bind hmeet ?_
    rintro next _ ⟨rfl, hn⟩
    exact hnext next hn

/-! ## Two parts of a tape -/

/-- The walk of a whole tape ends well, and no operator is pending then. -/
def EndsIdle (setting : Setting) (store : Store) : Prop :=
  ∃ result t, (walk setting 0 setting.tape.size 0 .start).outcome ⟨store, #[]⟩ =
    (.ok ⟨result, none⟩, t)

section Append

variable {p q : List Token} {verbosity : Int} {rounds : Nat}

theorem walk_common (hS : S.tape.Holds 0 p) (hT : T.tape.Holds 0 p) (hs : s.store = t.store)
    {done : Progress} {t' : State}
    (h : (walk T 0 p.length 0 .start).outcome t = (.ok done, t')) (hrounds : S.rounds = T.rounds) :
    ∃ s', s'.store = t'.store ∧ (walk S 0 p.length 0 .start).outcome s = (.ok done, s') := by
  have haligned : Aligned (.storesShifted 0) 0 S T 0 p.length :=
    aligned_storesShifted hrounds fun k hlo hhi => hT.common hS hlo (by omega)
  have hsim := (inStep (.storesShifted 0) 0 S T).2.1 0 p.length 0 .start 0 p.length 0 rfl
    (by omega) rfl (Int.le_refl 0) (by simp [Progress.start]) haligned s t hs
  rw [h] at hsim
  rcases hwalk : (walk S 0 p.length 0 .start).outcome s with ⟨e | done', s'⟩ <;>
    rw [hwalk] at hsim
  · exact hsim.elim
  · obtain ⟨rfl, hstore⟩ := hsim
    exact ⟨s', hstore, rfl⟩

theorem cut_of_reverse (h : p.reverse[3]? ≠ some (.control .ifThen)) {k : Int} (hlo : 0 ≤ k)
    (hat : Tape.at? (p ++ q).toArray k = some (.control .ifThen)) : k + 4 ≠ p.length := by
  intro hk
  obtain ⟨n, rfl⟩ := Int.eq_ofNat_of_zero_le hlo
  apply h
  rw [Tape.at?_natCast, List.getElem?_toArray, List.getElem?_append_left (by omega)] at hat
  rw [List.getElem?_reverse (by omega), show p.length - 1 - 3 = n by omega]
  exact hat

theorem sim_range_append {whole second : Setting}
    (hcut : p.reverse[3]? ≠ some (.control .ifThen)) (helse : .control .orElse ∉ q)
    {operand : Operand} (hhead : q.head? = some operand.token) {result : Binary64}
    (h : (walk whole 0 p.length 0 .start).outcome s = (.ok ⟨result, none⟩, t)) {u : State}
    (hu : u.store = t.store) (hwhole : whole.tape = (p ++ q).toArray)
    (hsecond : second.tape = q.toArray) (hrounds : whole.rounds = second.rounds) :
    (Relation.storesShifted p.length).Agree Eq
      ((range whole 0 (q.length + p.length)).outcome s)
      ((range second 0 q.length).outcome u) := by
  have hholds : whole.tape.Holds (0 + p.length) q := by
    rw [hwhole]
    exact (Tape.holds_append.1 (Tape.holds_toArray (p ++ q))).2
  have hnone : whole.tape.firstMarker? .orElse p.length (q.length + p.length) = .ok none := by
    rw [Int.zero_add] at hholds
    exact Tape.firstMarker?_absent hholds helse (by omega)
  have hlong : 0 < (q.length : Int) := by
    cases q with
    | nil => cases hhead
    | cons token rest => simp
  have hrow : second.tape.Holds 0 q := by
    rw [hsecond]
    exact Tape.holds_toArray q
  have hat : second.tape.at? 0 = some operand.token := by
    rw [List.head?_eq_getElem?] at hhead
    exact hrow 0 operand.token hhead
  have haligned : Aligned (.storesShifted p.length) p.length whole second 0 q.length :=
    aligned_storesShifted hrounds fun k hlo hhi => hrow.common hholds hlo (by omega)
  have hwalk : (walk whole 0 (q.length + p.length) 0 .start).outcome s =
      (walk whole 0 (q.length + p.length) p.length ⟨result, none⟩).outcome t := by
    refine walk_stretch (by omega) ?_ hnone (Int.le_refl 0) (by omega) _ s h
    intro k hlo hat
    rw [hwhole] at hat
    exact cut_of_reverse hcut hlo hat
  have hsim : Sim (.storesShifted p.length) Eq
      (walk whole 0 (q.length + p.length) p.length ⟨result, none⟩ >>= fun done => pure done.result)
      (range second 0 q.length) := by
    unfold range
    refine sim_bind (sim_walk_operand (by omega) hlong hat haligned result 0) ?_
    rintro done _ rfl
    exact sim_pure rfl
  have hrange : (range whole 0 (q.length + p.length)).outcome s =
      (walk whole 0 (q.length + p.length) p.length ⟨result, none⟩ >>= fun done =>
        pure done.result).outcome t := by
    rw [range, outcome_bind, outcome_bind, hwalk]
  rw [hrange]
  exact hsim t u hu.symm

end Append

end Run

namespace Session

open Run

theorem evaluate_range (session : Session) (tape : Tape) :
    ∃ s : State, s.store = session.store ∧
      (session.evaluate tape).outcome =
        ((range ⟨tape, session.verbosity, roundLimit⟩ 0 tape.size).outcome s).1 ∧
      (session.evaluate tape).session =
        { session with
          store :=
            ((range ⟨tape, session.verbosity, roundLimit⟩ 0 tape.size).outcome s).2.store } := by
  obtain ⟨s, hs, houtcome, hstore⟩ :=
    evaluate_outcome ⟨tape, session.verbosity, roundLimit⟩ ⟨session.store, #[]⟩
  refine ⟨s, hs, houtcome, ?_⟩
  rw [← hstore]
  rfl

/-- A tape evaluated after another one comes to what both of them come to as one tape. -/
theorem evaluate_append (session : Session) {p q : List Token} {operand : Operand}
    (hidle : EndsIdle ⟨p.toArray, session.verbosity, roundLimit⟩ session.store)
    (hcut : p.reverse[3]? ≠ some (.control .ifThen)) (helse : .control .orElse ∉ q)
    (hhead : q.head? = some operand.token) :
    let first := session.evaluate p.toArray
    let second := first.session.evaluate q.toArray
    let whole := session.evaluate (p ++ q).toArray
    whole.outcome = second.outcome.mapError (·.shift p.length) ∧
      whole.session = second.session := by
  intro first second whole
  obtain ⟨result, t, hwalk⟩ := hidle
  rw [List.size_toArray] at hwalk
  have hp := Tape.holds_toArray p
  -- The first tape alone
  obtain ⟨s₁, hs₁, -, hfirst⟩ := session.evaluate_range p.toArray
  obtain ⟨u₁, hu₁, hwalk₁⟩ := walk_common hp hp hs₁ hwalk rfl
  have hstore : first.session = { session with store := t.store } := by
    rw [show first.session = _ from hfirst, List.size_toArray, range, outcome_bind_ok hwalk₁, ← hu₁]
    rfl
  -- The whole tape up to the seam, and from there on
  obtain ⟨s₂, hs₂, houtcome, hsession⟩ := session.evaluate_range (p ++ q).toArray
  obtain ⟨s₃, hs₃, houtcome', hsession'⟩ := first.session.evaluate_range q.toArray
  obtain ⟨u₂, hu₂, hwalk₂⟩ : ∃ u, u.store = t.store ∧
      (walk ⟨(p ++ q).toArray, session.verbosity, roundLimit⟩ 0 p.length 0 .start).outcome s₂ =
        (.ok ⟨result, none⟩, u) :=
    walk_common (Tape.holds_append.1 (Tape.holds_toArray (p ++ q))).1 hp hs₂ hwalk rfl
  have hsame : s₃.store = u₂.store := by rw [hs₃, hstore, hu₂]
  have hsim : (Relation.storesShifted p.length).Agree Eq
      ((range ⟨(p ++ q).toArray, session.verbosity, roundLimit⟩ 0 (p ++ q).toArray.size).outcome s₂)
      ((range ⟨q.toArray, first.session.verbosity, roundLimit⟩ 0 q.toArray.size).outcome s₃) := by
    rw [List.size_toArray, List.size_toArray, List.length_append, Nat.add_comm, Nat.cast_add]
    exact sim_range_append hcut helse hhead hwalk₂ hsame rfl rfl rfl
  obtain ⟨hvalue, hvariables⟩ := agree_storesShifted hsim
  constructor
  · rw [show whole.outcome = _ from houtcome, show second.outcome = _ from houtcome', hvalue]
  · rw [show whole.session = _ from hsession, show second.session = _ from hsession', hvariables,
      hstore]

/-- The second tape fails at its offset 2, which is 5 in the whole tape. Before that the first one
has written a variable. -/
theorem evaluate_append_noTarget :
    let session : Session := ⟨Table.ofList [("x", 0)], 0, .output⟩
    let p : List Token := [.reference "x", .operator .assign, .number 4]
    let q : List Token := [.number 5, .operator .assign, .number 7]
    EndsIdle ⟨p.toArray, session.verbosity, roundLimit⟩ session.store ∧
      ((session.evaluate p.toArray).session.evaluate q.toArray).outcome =
        .error (.fault (.noTarget 2)) ∧
      (session.evaluate (p ++ q).toArray).outcome = .error (.fault (.noTarget 5)) ∧
      (session.evaluate (p ++ q).toArray).session.store = Table.ofList [("x", 4)] := by
  intro session p q
  -- The limit of the rounds is left open: there is no loop, and it is a large number
  have hidle : EndsIdle ⟨p.toArray, session.verbosity, roundLimit⟩ session.store := by
    generalize roundLimit = rounds
    exact ⟨4, ⟨Table.ofList [("x", 4)], #[]⟩, by cbv⟩
  have hsecond : ((session.evaluate p.toArray).session.evaluate q.toArray).outcome =
        .error (.fault (.noTarget 2)) ∧
      ((session.evaluate p.toArray).session.evaluate q.toArray).session.store =
        Table.ofList [("x", 4)] := by
    unfold Session.evaluate Session.perform
    generalize roundLimit = rounds
    constructor
    · cbv
    · cbv
  have hhead : q.head? = some (Operand.number 5).token := rfl
  obtain ⟨houtcome, hsession⟩ := session.evaluate_append hidle (by decide) (by decide) hhead
  refine ⟨hidle, hsecond.1, ?_, ?_⟩
  · rw [houtcome, hsecond.1]
    rfl
  · rw [hsession, hsecond.2]

end Session

end TokenTape

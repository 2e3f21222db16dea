import Mathlib
import TokenTape.Proofs.Reports
import TokenTape.Proofs.Tracing

/-!
# Tapes without loops

Without a loop a run goes over its tape once, from left to right: each view begins behind what was
dispatched before it, and a walk goes on behind the block that it has run. So no token is dispatched
twice, and none of a branch that is not taken.
-/

namespace TokenTape

theorem Tape.mem_of_at? {tape : Tape} {k : Int} {token : Token} (h : tape.at? k = some token) :
    token ∈ tape := by
  simp only [Tape.at?, Option.ite_none_left_eq_some] at h
  exact Array.mem_of_getElem? h.2

/-! ## Orderly reports -/

namespace Event

/-- The offset of the token that is dispatched. -/
def offset? : Event → Option Int
  | dispatched offset .. => some offset
  | _ => none

/-- The offsets of the dispatched tokens, in order. -/
def offsets (events : List Event) : List Int :=
  events.filterMap offset?

/-- The offset is in the branch that is not taken. -/
def Skips (k : Int) : Event → Prop
  | branch condition thenStart thenStop elseStart elseStop =>
    if condition.same 0 then thenStart ≤ k ∧ k < thenStop else elseStart ≤ k ∧ k < elseStop
  | _ => False

/-- The event is about no token. -/
def Silent (event : Event) : Prop :=
  event.offset? = none ∧ ∀ k, ¬event.Skips k

variable {xs ys : List Event} {event : Event} {k : Int}

theorem offsets_append : offsets (xs ++ ys) = offsets xs ++ offsets ys :=
  List.filterMap_append

theorem offsets_cons (h : event.offset? = none) : offsets (event :: xs) = offsets xs :=
  List.filterMap_cons_none h

theorem mem_offsets : k ∈ offsets xs ↔
    ∃ token result pending, dispatched k token result pending ∈ xs := by
  unfold offsets
  rw [List.mem_filterMap]
  constructor
  · rintro ⟨event, hmem, hoffset⟩
    unfold offset? at hoffset
    split at hoffset
    · cases hoffset
      exact ⟨_, _, _, hmem⟩
    · cases hoffset
  · rintro ⟨token, result, pending, hmem⟩
    exact ⟨_, hmem, rfl⟩

end Event

/-- Events of a run that goes over `[lo, hi)` once. -/
structure Climb (lo hi : Int) (events : List Event) : Prop where
  ordered : (Event.offsets events).Pairwise (· < ·)
  within : ∀ k ∈ Event.offsets events, lo ≤ k ∧ k < hi
  aside : ∀ event ∈ events, ∀ k, event.Skips k → lo ≤ k ∧ k < hi
  spared : ∀ event ∈ events, ∀ k ∈ Event.offsets events, ¬event.Skips k

namespace Climb

variable {lo mid hi start stop : Int} {events xs ys : List Event} {event : Event}

theorem nil (lo hi : Int) : Climb lo hi [] := by
  constructor <;> simp [Event.offsets]

theorem dispatched (k : Int) (token : Token) (result : Binary64) (pending : Option Operator) :
    Climb k (k + 1) [.dispatched k token result pending] := by
  constructor <;> simp [Event.offsets, Event.offset?, Event.Skips]

theorem cons (h : Climb start stop events) (hoffset : event.offset? = none)
    (hskips : ∀ k, event.Skips k → lo ≤ k ∧ k < hi ∧ (k < start ∨ stop ≤ k))
    (hlo : lo ≤ start) (hhi : stop ≤ hi) : Climb lo hi (event :: events) := by
  constructor
  case ordered =>
    rw [Event.offsets_cons hoffset]
    exact h.ordered
  case within =>
    rw [Event.offsets_cons hoffset]
    intro k hk
    have := h.within k hk
    omega
  case aside =>
    rw [List.forall_mem_cons]
    constructor
    · intro k hk
      have := hskips k hk
      omega
    · intro other hother k hk
      have := h.aside other hother k hk
      omega
  case spared =>
    rw [Event.offsets_cons hoffset, List.forall_mem_cons]
    refine ⟨fun k hk hskip => ?_, h.spared⟩
    have := hskips k hskip
    have := h.within k hk
    omega

theorem mono (h : Climb start stop events) (hlo : lo ≤ start) (hhi : stop ≤ hi) :
    Climb lo hi events := by
  refine ⟨h.ordered, fun k hk => ?_, fun event hevent k hk => ?_, h.spared⟩
  · have := h.within k hk
    omega
  · have := h.aside event hevent k hk
    omega

theorem of_silent (h : ∀ event ∈ events, event.Silent) (lo hi : Int) : Climb lo hi events := by
  induction events with
  | nil => exact nil lo hi
  | cons event events ih =>
    rw [List.forall_mem_cons] at h
    exact (ih h.2).cons h.1.1 (fun k hk => absurd hk (h.1.2 k)) (Int.le_refl _) (Int.le_refl _)

theorem append (hxs : Climb lo mid xs) (hys : Climb mid hi ys) (hlo : lo ≤ mid) (hhi : mid ≤ hi) :
    Climb lo hi (xs ++ ys) := by
  have hxs' := hxs.mono (Int.le_refl lo) hhi
  have hys' := hys.mono hlo (Int.le_refl hi)
  constructor
  case ordered =>
    rw [Event.offsets_append, List.pairwise_append]
    refine ⟨hxs.ordered, hys.ordered, fun j hj k hk => ?_⟩
    have := hxs.within j hj
    have := hys.within k hk
    omega
  case within =>
    rw [Event.offsets_append, List.forall_mem_append]
    exact ⟨hxs'.within, hys'.within⟩
  case aside =>
    rw [List.forall_mem_append]
    exact ⟨hxs'.aside, hys'.aside⟩
  case spared =>
    simp only [Event.offsets_append, List.forall_mem_append]
    refine ⟨fun event hevent => ⟨hxs.spared event hevent, fun k hk hskip => ?_⟩,
      fun event hevent => ⟨fun k hk hskip => ?_, hys.spared event hevent⟩⟩
    · have := hxs.aside event hevent k hskip
      have := hys.within k hk
      omega
    · have := hys.aside event hevent k hskip
      have := hxs.within k hk
      omega

theorem length_le {n : Nat} (h : Climb 0 n events) : (Event.offsets events).length ≤ n := by
  have hnodup : (Event.offsets events).Nodup := h.ordered.imp fun hlt => Int.ne_of_lt hlt
  have hsubset : (Event.offsets events).toFinset ⊆ Finset.Ico 0 (n : Int) := by
    intro k hk
    rw [Finset.mem_Ico]
    exact h.within k (List.mem_toFinset.1 hk)
  calc (Event.offsets events).length
      = (Event.offsets events).toFinset.card := (List.toFinset_card_of_nodup hnodup).symm
    _ ≤ (Finset.Ico 0 (n : Int)).card := Finset.card_le_card hsubset
    _ = n := by simp

end Climb

namespace Run

variable {setting : Setting} {start stop offset lo mid hi : Int} {s t : State} {α β : Type}

/-- What the run reports from a state goes over `[lo, hi)` once. -/
def Climbs (lo hi : Int) (m : Run α) (s : State) : Prop :=
  ∃ events : List Event, (m.outcome s).2.trace.toList = s.trace.toList ++ events ∧
    Climb lo hi events

theorem Reports.climbs {m : Run α} (h : Reports Event.Silent m s) (lo hi : Int) :
    Climbs lo hi m s := by
  obtain ⟨events, htrace, hevents⟩ := h
  exact ⟨events, htrace, .of_silent hevents lo hi⟩

theorem Climbs.mono {m : Run α} (h : Climbs start stop m s) (hlo : lo ≤ start) (hhi : stop ≤ hi) :
    Climbs lo hi m s := by
  obtain ⟨events, htrace, hevents⟩ := h
  exact ⟨events, htrace, hevents.mono hlo hhi⟩

theorem Climbs.bind {m : Run α} {f : α → Run β} (hm : Climbs lo mid m s)
    (hf : ∀ a t, m.outcome s = (.ok a, t) → Climbs mid hi (f a) t) (hlo : lo ≤ mid)
    (hhi : mid ≤ hi) : Climbs lo hi (m >>= f) s := by
  obtain ⟨events, htrace, hevents⟩ := hm
  rcases hrun : m.outcome s with ⟨e | a, t⟩ <;> rw [hrun] at htrace
  · exact ⟨events, by rw [outcome_bind_error hrun]; exact htrace, hevents.mono (Int.le_refl _) hhi⟩
  · obtain ⟨more, hmore, hclimb⟩ := hf a t hrun
    refine ⟨events ++ more, ?_, hevents.append hclimb hlo hhi⟩
    rw [outcome_bind_ok hrun, hmore, htrace, List.append_assoc]

theorem state_map (m : Run α) (f : α → β) (s : State) :
    ((m >>= fun a => pure (f a)).outcome s).2 = (m.outcome s).2 := by
  rcases hrun : m.outcome s with ⟨e | a, t⟩
  · rw [outcome_bind_error hrun]
  · rw [outcome_bind_ok hrun, outcome_pure]

theorem Climbs.map {m : Run α} (h : Climbs lo hi m s) (f : α → β) :
    Climbs lo hi (m >>= fun a => pure (f a)) s := by
  unfold Climbs
  rw [state_map]
  exact h

theorem climbs_dispatched (k : Int) (token : Token) (result : Binary64)
    (pending : Option Operator) (s : State) :
    Climbs k (k + 1) (emit setting (.dispatched k token result pending)) s := by
  unfold Climbs
  rw [outcome_emit]
  dsimp only
  split
  · exact ⟨[.dispatched k token result pending], by simp, .dispatched k token result pending⟩
  · exact ⟨[], by simp, .nil _ _⟩

theorem climbs_emit_bind {event : Event} {f : Unit → Run α} (hoffset : event.offset? = none)
    (hskips : ∀ k, event.Skips k → lo ≤ k ∧ k < hi ∧ (k < start ∨ stop ≤ k)) (hlo : lo ≤ start)
    (hhi : stop ≤ hi) (hf : ∀ t, Climbs start stop (f ()) t) (s : State) :
    Climbs lo hi (emit setting event >>= f) s := by
  have hemit := outcome_emit setting event s
  split at hemit
  · obtain ⟨events, htrace, hevents⟩ := hf ⟨s.store, s.trace.push event⟩
    refine ⟨event :: events, ?_, hevents.cons hoffset hskips hlo hhi⟩
    rw [outcome_bind_ok hemit, htrace]
    simp
  · obtain ⟨events, htrace, hevents⟩ := hf s
    refine ⟨events, ?_, hevents.mono hlo hhi⟩
    rw [outcome_bind_ok hemit, htrace]

theorem silent_assigned (name : Text) (value : Quantity) :
    (Event.assigned name value).Silent :=
  ⟨rfl, fun _ hskip => hskip⟩

theorem silent_finished (result : Binary64) : (Event.finished result).Silent :=
  ⟨rfl, fun _ hskip => hskip⟩

/-! ## Parts of a run -/

/-- What an if block does behind its condition. -/
def branchOn (setting : Setting) (offset stop : Int) (h : offset + 4 ≤ stop)
    (condition : Binary64) : Run (Binary64 × BlockEnd (offset + 4) stop) := do
  let branches ← findBranches setting (offset + 4) stop h
  emit setting (.branch condition (offset + 4) branches.thenStop branches.elseStart
    branches.last.offset)
  let result ←
    if condition.same 0 then range setting branches.elseStart branches.last.offset
    else range setting (offset + 4) branches.thenStop
  return (result, branches.last)

theorem ifBlock_eq (h : offset + 4 ≤ stop) :
    ifBlock setting offset stop =
      range setting (offset + 1) (offset + 4) >>= branchOn setting offset stop h := by
  unfold ifBlock
  rw [dif_pos (by omega)]
  rfl

/-- The block goes up to an offset, and ends there if it ends well. -/
def BlockClimbs (lo : Int) (block : Run (Binary64 × BlockEnd start stop)) (s : State) : Prop :=
  ∃ mid, lo ≤ mid ∧ mid ≤ stop ∧ Climbs lo mid block s ∧
    ∀ ended t, block.outcome s = (.ok ended, t) → ended.2.offset = mid

section Parts

variable (setting)

def RangeClimbs (start stop : Int) : Prop :=
  ∀ s, Climbs start stop (range setting start stop) s

def WalkClimbs (start stop offset : Int) (progress : Progress) : Prop :=
  ∀ s, Climbs offset stop (walk setting start stop offset progress) s

def IfClimbs (offset stop : Int) : Prop :=
  offset < stop → ∀ s, BlockClimbs (offset + 1) (ifBlock setting offset stop) s

end Parts

theorem blockClimbs_throw (e : Failure) (h : lo ≤ stop) (s : State) :
    BlockClimbs lo (throw e : Run (Binary64 × BlockEnd start stop)) s :=
  ⟨stop, h, Int.le_refl _, (reports_throw e s).climbs _ _, fun _ _ hended => by cases hended⟩

theorem BlockClimbs.after {m : Run α} {f : α → Run (Binary64 × BlockEnd start stop)}
    (hm : Climbs lo mid m s)
    (hf : ∀ a t, m.outcome s = (.ok a, t) → BlockClimbs mid (f a) t) (hlo : lo ≤ mid)
    (hhi : mid ≤ stop) : BlockClimbs lo (m >>= f) s := by
  rcases hrun : m.outcome s with ⟨e | a, t⟩
  · refine ⟨mid, hlo, hhi, hm.bind (fun a t h => ?_) hlo (Int.le_refl _), fun ended t h => ?_⟩
    · rw [hrun] at h
      cases h
    · rw [outcome_bind_error hrun] at h
      cases h
  · obtain ⟨last, hlast, hstop, hclimbs, hended⟩ := hf a t hrun
    refine ⟨last, by omega, hstop, hm.bind (fun b u h => ?_) hlo hlast, fun ended u h => ?_⟩
    · rw [hrun] at h
      cases h
      exact hclimbs
    · rw [outcome_bind_ok hrun] at h
      exact hended ended u h

theorem Splits.thenStop_eq {tape : Tape} {thenStop elseStart last : Int} {role : Role}
    (h : Splits tape start stop role thenStop elseStart last) : thenStop = elseStart := by
  cases h with
  | atElse => rfl
  | alone => rfl

theorem branchOn_climbs (h : offset + 4 ≤ stop)
    (helse : ∀ branches : Branches (offset + 4) stop,
      RangeClimbs setting branches.elseStart branches.last.offset)
    (hthen : ∀ branches : Branches (offset + 4) stop,
      RangeClimbs setting (offset + 4) branches.thenStop)
    (condition : Binary64) (s : State) :
    BlockClimbs (offset + 4) (branchOn setting offset stop h condition) s := by
  unfold branchOn
  rcases findBranches_cases setting h with ⟨role, branches, hsplits, heq⟩ | ⟨e, heq⟩ <;> rw [heq]
  case inr => exact blockClimbs_throw e h s
  rw [pure_bind]
  have hsame := hsplits.thenStop_eq
  have hstart := branches.start_le
  have hstop := branches.thenStop_le
  refine ⟨_, branches.last.start_le, branches.last.le_stop, ?_, ?_⟩
  · -- The branch that is run lies beside the one that is not
    by_cases hzero : condition.same 0
    · simp only [if_pos hzero]
      refine climbs_emit_bind rfl (fun k hk => ?_) hstart (Int.le_refl _) (fun t => ?_) s
      · simp only [Event.Skips, if_pos hzero] at hk
        omega
      · exact (helse branches t).map fun result => (result, branches.last)
    · simp only [if_neg hzero]
      refine climbs_emit_bind rfl (fun k hk => ?_) (Int.le_refl _) hstop (fun t => ?_) s
      · simp only [Event.Skips, if_neg hzero] at hk
        omega
      · exact (hthen branches t).map fun result => (result, branches.last)
  · intro ended t hended
    obtain ⟨_, u, -, hrest⟩ := exists_of_outcome_bind hended
    split at hrest
    · obtain ⟨result, v, -, hresult⟩ := exists_of_outcome_bind hrest
      cases hresult
      rfl
    · obtain ⟨result, v, -, hresult⟩ := exists_of_outcome_bind hrest
      cases hresult
      rfl

theorem ifBlock_climbs (hcondition : RangeClimbs setting (offset + 1) (offset + 4))
    (helse : ∀ branches : Branches (offset + 4) stop,
      RangeClimbs setting branches.elseStart branches.last.offset)
    (hthen : ∀ branches : Branches (offset + 4) stop,
      RangeClimbs setting (offset + 4) branches.thenStop) (hlong : offset + 3 < stop) :
    IfClimbs setting offset stop := by
  intro _ s
  have hle : offset + 4 ≤ stop := by omega
  rw [ifBlock_eq hle]
  exact BlockClimbs.after (hcondition s)
    (fun condition t _ => branchOn_climbs hle helse hthen condition t) (by omega) hle

theorem dispatch_climbs {progress : Progress} {token : Token}
    (htoken : token ≠ .control .forLoop) (hlt : offset < stop)
    (hnext : ∀ progress, WalkClimbs setting start stop (offset + 1) progress)
    (hif : IfClimbs setting offset stop)
    (hbehind : ∀ result (last : BlockEnd (offset + 4) stop),
      WalkClimbs setting start stop (last.offset + 1) ⟨result, progress.pending⟩) (s : State) :
    Climbs (offset + 1) stop (dispatch setting start stop offset progress token) s := by
  cases token with
  | number value =>
    exact ((reports_meetNumber silent_assigned start offset progress value s).climbs _ _).bind
      (fun next t _ => hnext next t) (Int.le_refl _) hlt
  | reference name =>
    exact ((reports_meetVariable progress name s).climbs _ _).bind (fun next t _ => hnext next t)
      (Int.le_refl _) hlt
  | operator kind => exact hnext _ s
  | control kind =>
    cases kind with
    | forLoop => exact absurd rfl htoken
    | ifThen =>
      obtain ⟨mid, hlo, hhi, hclimbs, hended⟩ := hif hlt s
      refine hclimbs.bind (fun block t hblock => ?_) hlo hhi
      have hlast := hended block t hblock
      exact (hbehind block.1 block.2 t).mono (by omega) (Int.le_refl _)
    | orElse | endFor | endIf => exact hnext progress s
  | unclassified => exact (reports_throw _ s).climbs _ _

section NoLoop

variable (hloop : .control .forLoop ∉ setting.tape)
include hloop

theorem walk_climbs {progress : Progress} (hlt : offset < stop)
    (hnext : ∀ progress, WalkClimbs setting start stop (offset + 1) progress)
    (hif : IfClimbs setting offset stop)
    (hbehind : ∀ result (last : BlockEnd (offset + 4) stop),
      WalkClimbs setting start stop (last.offset + 1) ⟨result, progress.pending⟩) :
    WalkClimbs setting start stop offset progress := by
  intro s
  cases hat : setting.tape.at? offset with
  | none =>
    rw [walk_outside hlt hat]
    exact (reports_throw _ s).climbs _ _
  | some token =>
    rw [walk_dispatch hlt hat]
    have htoken : token ≠ .control .forLoop := ne_of_mem_of_not_mem (Tape.mem_of_at? hat) hloop
    exact (climbs_dispatched offset token _ _ s).bind
      (fun _ t _ => dispatch_climbs htoken hlt hnext hif hbehind t) (by omega) hlt

/-! ## Whole runs -/

theorem climbs :
    (∀ start stop, RangeClimbs setting start stop) ∧
    (∀ start stop offset progress, WalkClimbs setting start stop offset progress) ∧
    (∀ offset stop, IfClimbs setting offset stop) := by
  have hall : (∀ start stop, RangeClimbs setting start stop) ∧
      (∀ start stop offset progress, WalkClimbs setting start stop offset progress) ∧
      (∀ offset stop, IfClimbs setting offset stop) ∧
      (∀ (_offset _stop : Int) (_result : Binary64), True) := by
    -- The walk meets no loop, so nothing is needed of the blocks of loops
    apply range.mutual_induct
    case case1 =>
      intro start stop hwalk s
      unfold range
      exact (hwalk s).map Progress.result
    case case2 =>
      intro start stop offset progress hlt hnext _ _ hbehind hif _
      exact walk_climbs hloop hlt hnext hif hbehind
    case case3 =>
      intro start stop offset progress hge s
      rw [walk_end (by omega)]
      exact (reports_pure _ s).climbs _ _
    case case4 =>
      intro offset stop hlong hcondition helse hthen
      exact ifBlock_climbs hcondition helse hthen hlong
    case case5 =>
      intro offset stop hshort hlt s
      unfold ifBlock
      rw [dif_neg hshort]
      exact blockClimbs_throw _ hlt s
    case case6 => exact fun _ _ _ _ _ _ _ => trivial
    case case7 => exact fun _ _ _ _ => trivial
  exact ⟨hall.1, hall.2.1, hall.2.2.1⟩

theorem evaluate_climbs (s : State) :
    Climbs 0 setting.tape.size (evaluate setting) s := by
  have hstarted : (Event.started setting.tape.size).Silent := ⟨rfl, fun _ hskip => hskip⟩
  have hsize : (0 : Int) ≤ setting.tape.size := by omega
  unfold evaluate
  refine ((reports_emit hstarted s).climbs 0 0).bind (fun _ t _ => ?_) (Int.le_refl _) hsize
  refine ((climbs hloop).1 0 setting.tape.size t).bind (fun result u _ => ?_) hsize (Int.le_refl _)
  exact ((reports_emit (silent_finished result) u).climbs _ _).map fun _ => result

end NoLoop

/-! ## Nothing is left out -/

/-- What has been reported when a call ends. -/
def Call.told (setting : Setting) (call : Call × State) : List Event :=
  ((call.1.run setting).outcome call.2).2.trace.toList

def Call.isLoop : Call → Bool
  | loop .. => true
  | tape | view .. | branch .. => false

theorem Climbs.grows {m : Run α} (h : Climbs lo hi m s) :
    s.trace.toList <+: (m.outcome s).2.trace.toList := by
  obtain ⟨events, htrace, -⟩ := h
  exact ⟨events, htrace.symm⟩

theorem told_bind {m : Run α} {f : α → Run β}
    (hf : ∀ a t, m.outcome s = (.ok a, t) → ∃ lo hi, Climbs lo hi (f a) t) :
    (m.outcome s).2.trace.toList <+: ((m >>= f).outcome s).2.trace.toList := by
  rcases hrun : m.outcome s with ⟨e | a, t⟩
  · rw [outcome_bind_error hrun]
  · obtain ⟨lo, hi, hclimbs⟩ := hf a t hrun
    rw [outcome_bind_ok hrun]
    exact hclimbs.grows

theorem told_view (role : Role) (start stop : Int) (s : State) :
    Call.told setting (.view role start stop, s) =
      ((range setting start stop).outcome s).2.trace.toList := rfl

theorem told_branch (offset stop : Int) (s : State) :
    Call.told setting (.branch offset stop, s) =
      ((ifAt setting offset stop).outcome s).2.trace.toList := by
  unfold Call.told Call.run
  rw [state_map]

theorem state_ifAt (offset stop : Int) (s : State) :
    ((ifAt setting offset stop).outcome s).2 = ((ifBlock setting offset stop).outcome s).2 :=
  state_map _ _ s

theorem mem_trace_emit {event : Event} (hlevel : event.level ≤ setting.verbosity)
    (h : (emit setting event).outcome s = (.ok (), t)) : event ∈ t.trace.toList := by
  rw [outcome_emit, if_pos hlevel] at h
  cases h
  simp

/-- The if block at an offset decides on a branch, and the other one is `[first, last)`. -/
inductive LeavesOut (setting : Setting) (offset stop : Int) (s : State) : Int → Int → Prop
  | elseBranch {thenStop elseStart last : Int} {role : Role} {condition : Binary64} {t : State}
      (long : offset + 3 < stop)
      (hcondition : (range setting (offset + 1) (offset + 4)).outcome s = (.ok condition, t))
      (hsplits : Splits setting.tape (offset + 4) stop role thenStop elseStart last)
      (hyes : condition.same 0 = false) : LeavesOut setting offset stop s elseStart last
  | thenBranch {thenStop elseStart last : Int} {role : Role} {condition : Binary64} {t : State}
      (long : offset + 3 < stop)
      (hcondition : (range setting (offset + 1) (offset + 4)).outcome s = (.ok condition, t))
      (hsplits : Splits setting.tape (offset + 4) stop role thenStop elseStart last)
      (hno : condition.same 0 = true) : LeavesOut setting offset stop s (offset + 4) thenStop

section Told

variable (hloop : .control .forLoop ∉ setting.tape)
include hloop

theorem Calls.told {c d : Call × State} (h : Calls setting c d) (hc : c.1.isLoop = false) :
    d.1.isLoop = false ∧ Call.told setting d <+: Call.told setting c := by
  obtain ⟨hrange, hwalk, hif⟩ := climbs hloop
  cases h with
  | tape hreport =>
    refine ⟨rfl, ?_⟩
    unfold Call.told Call.run evaluate
    rw [outcome_bind_ok hreport]
    exact told_bind fun result u _ =>
      ⟨0, 0, ((reports_emit (silent_finished result) u).climbs _ _).map fun _ => result⟩
  | loop h =>
    obtain ⟨_, _, _, hat, _⟩ := h
    exact absurd (Tape.mem_of_at? hat) hloop
  | branch h =>
    refine ⟨rfl, ?_⟩
    rw [told_branch, told_view, state_ifAt, h.outcome_range, state_map]
    exact told_bind fun block u _ => ⟨_, _, hwalk _ _ _ _ u⟩
  | first | last | body => cases hc
  | @condition offset stop _ long =>
    have hle : offset + 4 ≤ stop := by omega
    refine ⟨rfl, ?_⟩
    rw [told_branch, told_view, state_ifAt, ifBlock_eq hle]
    refine told_bind fun condition u _ => ?_
    obtain ⟨mid, -, -, hclimbs, -⟩ :=
      branchOn_climbs hle (fun _ => hrange _ _) (fun _ => hrange _ _) condition u
    exact ⟨_, _, hclimbs⟩
  | yes long hcondition hsplits hreport hyes =>
    refine ⟨rfl, ?_⟩
    rw [told_branch, told_view, hsplits.outcome_ifAt long hcondition hreport, state_map,
      if_neg (by simp [hyes])]
  | no long hcondition hsplits hreport hno =>
    refine ⟨rfl, ?_⟩
    rw [told_branch, told_view, hsplits.outcome_ifAt long hcondition hreport, state_map,
      if_pos hno]

theorem Reaches.told {c d : Call × State} (h : Reaches setting c d) (hc : c.1.isLoop = false) :
    d.1.isLoop = false ∧ Call.told setting d <+: Call.told setting c := by
  induction h with
  | refl => exact ⟨hc, List.prefix_rfl⟩
  | tail _ hcalls ih =>
    obtain ⟨hd, htold⟩ := hcalls.told hloop ih.1
    exact ⟨hd, htold.trans ih.2⟩

theorem Dispatches.told (hverbosity : 3 ≤ setting.verbosity) {k : Int} {token : Token}
    {progress : Progress}
    (h : Dispatches setting start stop s k token progress t) (role : Role) :
    .dispatched k token progress.result progress.pending ∈
      Call.told setting (.view role start stop, s) := by
  obtain ⟨hrange, hwalk, hif⟩ := climbs hloop
  rw [told_view, h.outcome_range, state_map]
  obtain ⟨u, -, hlt, hat, hreport⟩ := h
  have htoken : token ≠ .control .forLoop := ne_of_mem_of_not_mem (Tape.mem_of_at? hat) hloop
  have hrest : Climbs (k + 1) stop (dispatch setting start stop k progress token) t :=
    dispatch_climbs htoken hlt (hwalk _ _ _) (hif _ _) (fun _ _ => hwalk _ _ _ _) t
  exact hrest.grows.subset (mem_trace_emit hverbosity hreport)

theorem Splits.told (hverbosity : 3 ≤ setting.verbosity) {thenStop elseStart last : Int}
    {role : Role} {condition : Binary64}
    (h : Splits setting.tape (offset + 4) stop role thenStop elseStart last)
    (long : offset + 3 < stop)
    (hcondition : (range setting (offset + 1) (offset + 4)).outcome s = (.ok condition, t)) :
    .branch condition (offset + 4) thenStop elseStart last ∈
      Call.told setting (.branch offset stop, s) := by
  have hrange := (climbs hloop).1
  have hlevel : (Event.branch condition (offset + 4) thenStop elseStart last).level ≤
      setting.verbosity := Int.le_trans (Event.level_le_three _) hverbosity
  obtain ⟨u, hreport⟩ : ∃ u, (emit setting
      (.branch condition (offset + 4) thenStop elseStart last)).outcome t = (.ok (), u) :=
    ⟨_, outcome_emit _ _ _⟩
  have hmem := mem_trace_emit hlevel hreport
  rw [told_branch, h.outcome_ifAt long hcondition hreport, state_map]
  split
  · exact (hrange _ _ _).grows.subset hmem
  · exact (hrange _ _ _).grows.subset hmem

theorem LeavesOut.told (hverbosity : 3 ≤ setting.verbosity) {first last : Int}
    (h : LeavesOut setting offset stop s first last) :
    ∃ event ∈ Call.told setting (.branch offset stop, s),
      ∀ k, first ≤ k → k < last → event.Skips k := by
  cases h with
  | elseBranch long hcondition hsplits hyes =>
    refine ⟨_, hsplits.told hloop hverbosity long hcondition, fun k hfirst hlast => ?_⟩
    simp only [Event.Skips, hyes]
    exact ⟨hfirst, hlast⟩
  | thenBranch long hcondition hsplits hno =>
    refine ⟨_, hsplits.told hloop hverbosity long hcondition, fun k hfirst hlast => ?_⟩
    simp only [Event.Skips, hno]
    exact ⟨hfirst, hlast⟩

end Told

/-- Without loops the tokens of a tape are dispatched in order, each at most once, and none of a
branch that its block leaves out, however the run ends. -/
theorem evaluate_forward (hverbosity : 3 ≤ setting.verbosity)
    (hloop : .control .forLoop ∉ setting.tape) (store : Store) :
    let root : Call × State := (.tape, ⟨store, #[]⟩)
    let offsets := Event.offsets ((evaluate setting).outcome root.2).2.trace.toList
    (∀ k, k ∈ offsets ↔ ∃ role start stop s token progress t,
      Reaches setting root (.view role start stop, s) ∧
        Dispatches setting start stop s k token progress t) ∧
    offsets.Pairwise (· < ·) ∧
    offsets.Nodup ∧
    offsets.length ≤ setting.tape.size ∧
    ∀ i stop s first last, Reaches setting root (.branch i stop, s) →
      LeavesOut setting i stop s first last → ∀ k ∈ offsets, ¬(first ≤ k ∧ k < last) := by
  intro root offsets
  have hclimb : Climb 0 setting.tape.size (Call.told setting root) := by
    obtain ⟨events, htrace, hclimb⟩ := evaluate_climbs hloop root.2
    rw [show Call.told setting root = events from htrace]
    exact hclimb
  refine ⟨fun k => ⟨fun hk => ?_, ?_⟩, hclimb.ordered, hclimb.ordered.imp Int.ne_of_lt,
    hclimb.length_le, ?_⟩
  · obtain ⟨token, result, pending, hmem⟩ := Event.mem_offsets.1 hk
    have hreported : Reported (evaluate setting) root.2 (.dispatched k token result pending) :=
      ⟨_, (List.nil_append _).symm, hmem⟩
    have haccounted := (evaluate_accounted setting root.2).of_reported hreported
    obtain ⟨role, start, stop, s, t, hview, hdispatches⟩ := haccounted k _ _ _ rfl
    exact ⟨role, start, stop, s, token, _, t, hview, hdispatches⟩
  · rintro ⟨role, start, stop, s, token, progress, t, hreaches, hdispatches⟩
    have htold := (hreaches.told hloop rfl).2
    exact Event.mem_offsets.2 ⟨token, _, _, htold.subset (hdispatches.told hloop hverbosity role)⟩
  · rintro i stop s first last hreaches hout k hk ⟨hfirst, hlast⟩
    obtain ⟨event, hevent, hskips⟩ := hout.told hloop hverbosity
    have htold := (hreaches.told hloop rfl).2
    exact hclimb.spared event (htold.subset hevent) k hk (hskips k hfirst hlast)

theorem evaluate_forward_else :
    let setting : Setting :=
      ⟨#[.control .ifThen, .reference "x", .operator .assign, .number 0, .number 5,
        .control .orElse, .number 7, .control .endIf, .reference "q"], 3, 0⟩
    let store : Store := .ofList [("x", 1)]
    let offsets := Event.offsets ((evaluate setting).outcome ⟨store, #[]⟩).2.trace.toList
    offsets.Pairwise (· < ·) ∧ offsets.length ≤ 9 ∧ 0 ∈ offsets ∧ 4 ∉ offsets := by
  intro setting store offsets
  let state : State := ⟨store, #[.started 9, .dispatched 0 (.control .ifThen) 0 none]⟩
  have hlevel : 3 ≤ setting.verbosity := by decide
  have hloop : .control .forLoop ∉ setting.tape := by simp [setting]
  obtain ⟨hmem, hordered, -, hlength, hspared⟩ := evaluate_forward hlevel hloop store
  have hview : Reaches setting (.tape, ⟨store, #[]⟩) (.view .whole 0 9, ⟨store, #[.started 9]⟩) :=
    .single (.tape rfl)
  have hfirst : Dispatches setting 0 9 ⟨store, #[.started 9]⟩ 0 (.control .ifThen) .start state :=
    ⟨_, .start, by decide, rfl, rfl⟩
  have hcondition : ((range setting (0 + 1) (0 + 4)).outcome state).1 = .ok 0 := by cbv
  have hsplits : Splits setting.tape (0 + 4) 9 .thenBranch 5 5 7 := .atElse (by cbv) (by cbv)
  have hout : LeavesOut setting 0 9 state 4 5 :=
    .thenBranch (by decide) (Prod.ext hcondition rfl) hsplits (by decide +kernel)
  refine ⟨hordered, hlength, (hmem 0).2 ⟨_, _, _, _, _, _, _, hview, hfirst⟩, fun hfour => ?_⟩
  exact hspared 0 9 state 4 5 (hview.tail (.branch hfirst)) hout 4 hfour (by decide)

end Run

end TokenTape

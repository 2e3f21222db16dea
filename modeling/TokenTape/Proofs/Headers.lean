import Mathlib
import TokenTape.Proofs.Contracts
import TokenTape.Proofs.Markers

/-!
# Before the first round

The block of a loop asks for a variable, two bounds, an end and a body that begins with a variable.
Whatever of that is wrong, the block fails before it writes anything. The bounds are views of one
token, and no token writes on its own.
-/

namespace TokenTape.Run

variable {setting : Setting} {offset stop : Int} {s t : State} {e : Failure}

/-! ## Short views -/

/-- A view of five tokens has no room for a loop, so its walk ends. -/
theorem range_short_finished {start : Int} (hlo : 0 ≤ start) (hhi : stop ≤ setting.tape.size)
    (hshort : stop ≤ start + 5) (s : State) :
    ((range setting start stop).outcome s).1 ≠ .error .unfinished := by
  have hcontract : Contract setting start stop (fun _ => True) (fun e _ => e ≠ .unfinished) := by
    constructor
    case low => exact hlo
    case high => exact hhi
    case write => exact fun _ _ _ _ => trivial
    case read => exact fun _ _ _ => by simp
    case failure => exact fun _ _ hfinished _ => hfinished
    case loop =>
      intro k hk hlong
      have := hk.1
      omega
  intro h
  exact hcontract.range.error (s := s) trivial h rfl

/-! ## Headers -/

/-- The bounds of the loop at an offset come to `first` and `last`, from a state `s` to a state
`t`. -/
def Bounds (setting : Setting) (offset : Int) (s : State) (first last : Binary64) (t : State) :
    Prop :=
  ∃ u, (range setting (offset + 2) (offset + 3)).outcome s = (.ok first, u) ∧
    (range setting (offset + 3) (offset + 4)).outcome u = (.ok last, t)

theorem Bounds.store {first last : Binary64} (h : Bounds setting offset s first last t) :
    t.store = s.store := by
  obtain ⟨u, hfirst, hlast⟩ := h
  exact (store_of_single hlast (by omega)).trans (store_of_single hfirst (by omega))

/-- How the block of a loop fails before its first round, and in which state. -/
inductive HeaderFails (setting : Setting) (offset stop : Int) (s : State) :
    Failure → State → Prop
  | short (h : stop ≤ offset + 5) : HeaderFails setting offset stop s (.fault .loopTooShort) s
  | counter {token : Token} (long : offset + 5 < stop)
      (hat : setting.tape.at? (offset + 1) = some token)
      (hother : ∀ name, token ≠ .reference name) :
      HeaderFails setting offset stop s (.fault (.loopVariable token)) s
  | first {name : Text} {e : Failure} {t : State} (long : offset + 5 < stop)
      (hname : setting.tape.at? (offset + 1) = some (.reference name))
      (h : (range setting (offset + 2) (offset + 3)).outcome s = (.error e, t)) :
      HeaderFails setting offset stop s e t
  | last {name : Text} {first : Binary64} {e : Failure} {t u : State}
      (long : offset + 5 < stop) (hname : setting.tape.at? (offset + 1) = some (.reference name))
      (hfirst : (range setting (offset + 2) (offset + 3)).outcome s = (.ok first, u))
      (h : (range setting (offset + 3) (offset + 4)).outcome u = (.error e, t)) :
      HeaderFails setting offset stop s e t
  | marker {name : Text} {first last : Binary64} {t : State} (long : offset + 5 < stop)
      (hname : setting.tape.at? (offset + 1) = some (.reference name))
      (hbounds : Bounds setting offset s first last t)
      (h : setting.tape.Lacks .endFor (offset + 4) stop) :
      HeaderFails setting offset stop s (.fault (.missingMarker .endFor)) t
  | leader {name : Text} {first last : Binary64} {t : State} {token : Token} {bodyStop : Int}
      (long : offset + 5 < stop) (hname : setting.tape.at? (offset + 1) = some (.reference name))
      (hbounds : Bounds setting offset s first last t)
      (hend : setting.tape.First .endFor (offset + 4) stop bodyStop)
      (hat : setting.tape.at? (offset + 4) = some token)
      (hother : ∀ name, token ≠ .reference name) :
      HeaderFails setting offset stop s (.fault (.loopBody token)) t

theorem HeaderFails.store (h : HeaderFails setting offset stop s e t) : t.store = s.store := by
  cases h with
  | short => rfl
  | counter => rfl
  | first _ _ h => exact store_of_single h (by omega)
  | last _ _ hfirst h =>
    exact (store_of_single h (by omega)).trans (store_of_single hfirst (by omega))
  | marker _ _ hbounds => exact hbounds.store
  | leader _ _ hbounds => exact hbounds.store

theorem HeaderFails.finished (h : HeaderFails setting offset stop s e t) (hlo : 0 ≤ offset)
    (hhi : stop ≤ setting.tape.size) : e ≠ .unfinished := by
  have hbound {k : Int} {u v : State} (hk : 0 ≤ k) (hk' : k + 1 ≤ setting.tape.size)
      (hfails : (range setting k (k + 1)).outcome u = (.error e, v)) : e ≠ .unfinished := by
    rintro rfl
    exact range_short_finished hk hk' (by omega) u (congrArg Prod.fst hfails)
  cases h with
  | short => simp
  | counter => simp
  | first long _ h =>
    rw [show offset + 3 = offset + 2 + 1 by omega] at h
    exact hbound (by omega) (by omega) h
  | last long _ _ h =>
    rw [show offset + 4 = offset + 3 + 1 by omega] at h
    exact hbound (by omega) (by omega) h
  | marker => simp
  | leader => simp

theorem HeaderFails.loopAt (h : HeaderFails setting offset stop s e t) (hlo : 0 ≤ offset)
    (hhi : stop ≤ setting.tape.size) (result : Binary64) :
    (loopAt setting offset stop result).outcome s = (.error e, t) := by
  unfold Run.loopAt forBlock
  cases h with
  | short h =>
    rw [dif_neg (by omega)]
    rfl
  | counter long hat hother =>
    rw [dif_pos long, fetchName_other hat hother]
    rfl
  | first long hname h =>
    rw [dif_pos long, fetchName_reference hname, pure_bind]
    exact outcome_bind_error (outcome_bind_error h)
  | last long hname hfirst h =>
    rw [dif_pos long, fetchName_reference hname, pure_bind, bind_assoc, outcome_bind_ok hfirst]
    exact outcome_bind_error (outcome_bind_error h)
  | marker long hname hbounds h =>
    obtain ⟨u, hfirst, hlast⟩ := hbounds
    have hmissing := findEnd_failed (by omega) (h.findMarker (by omega) (by omega) hhi)
    rw [dif_pos long, fetchName_reference hname, pure_bind, bind_assoc, outcome_bind_ok hfirst,
      bind_assoc, outcome_bind_ok hlast, hmissing]
    rfl
  | leader long hname hbounds hend hat hother =>
    obtain ⟨u, hfirst, hlast⟩ := hbounds
    obtain ⟨bodyStop, -, hfound⟩ := findEnd_found (by omega) (hend.findMarker (by omega) hhi)
    rw [dif_pos long, fetchName_reference hname, pure_bind, bind_assoc, outcome_bind_ok hfirst,
      bind_assoc, outcome_bind_ok hlast, hfound, pure_bind, fetchName_other hat hother]
    rfl

theorem headerFails_or_reached (hlo : 0 ≤ offset) (hhi : stop ≤ setting.tape.size) (s : State) :
    (∃ e t, HeaderFails setting offset stop s e t) ∨
      ∃ (header : LoopHeader setting offset stop) (first last : Binary64) (t : State),
        setting.tape.First .endFor (offset + 4) stop header.bodyStop ∧
        Bounds setting offset s first last t := by
  by_cases long : offset + 5 < stop
  case neg => exact .inl ⟨_, _, .short (by omega)⟩
  obtain ⟨token, -, hat⟩ := setting.tape.at?_of_size (k := offset + 1) (by omega) (by omega)
  by_cases hname : ∃ name, token = .reference name
  case neg => exact .inl ⟨_, _, .counter long hat fun name h => hname ⟨name, h⟩⟩
  obtain ⟨name, rfl⟩ := hname
  rcases hfirst : (range setting (offset + 2) (offset + 3)).outcome s with ⟨e | first, u⟩
  case error => exact .inl ⟨_, _, .first long hat hfirst⟩
  rcases hlast : (range setting (offset + 3) (offset + 4)).outcome u with ⟨e | last, t⟩
  case error => exact .inl ⟨_, _, .last long hat hfirst hlast⟩
  have hbounds : Bounds setting offset s first last t := ⟨u, hfirst, hlast⟩
  have hsearch := setting.tape.first_or_lacks .endFor (by omega : 0 ≤ offset + 4) hhi
  rcases hsearch with ⟨bodyStop, hend⟩ | hmissing
  case inr => exact .inl ⟨_, _, .marker long hat hbounds hmissing⟩
  obtain ⟨token, -, hleader⟩ := setting.tape.at?_of_size (k := offset + 4) (by omega) (by omega)
  by_cases haccumulator : ∃ name, token = .reference name
  case neg => exact .inl ⟨_, _, .leader long hat hbounds hend hleader fun name h =>
    haccumulator ⟨name, h⟩⟩
  obtain ⟨accumulator, rfl⟩ := haccumulator
  let header : LoopHeader setting offset stop :=
    ⟨name, accumulator, bodyStop, long, hat, hleader, hend.findMarker (by omega) hhi⟩
  exact .inr ⟨header, first, last, t, hend, hbounds⟩

/-! ## Loops without rounds -/

/-- A loop that is reached has written nothing so far. If its first count is not at most the last
one, nothing is written at all, and the variable that it counts in stays as it was or undefined. -/
theorem LoopHeader.reached (header : LoopHeader setting offset stop) {first last : Binary64}
    (hbounds : Bounds setting offset s first last t) (result : Binary64) :
    ∃ ready : State, ready.store = s.store ∧
      (loopAt setting offset stop result).outcome s =
        (loopBody setting header.name header.accumulator header.body last setting.rounds first
          result >>= fun value => pure (value, header.bodyStop)).outcome ready ∧
      (¬first ≤ last →
        (loopAt setting offset stop result).outcome s = (.ok (result, header.bodyStop), ready)) := by
  obtain ⟨u, hfirst, hlast⟩ := hbounds
  obtain ⟨ready, hready, hloop⟩ := header.outcome_loopAt hfirst hlast result
  refine ⟨ready, hready, hloop, fun hgt => ?_⟩
  rw [hloop]
  unfold loopBody
  rw [if_neg hgt]
  rfl

theorem not_le_of_nan {first last : Binary64} (h : first = .nan ∨ last = .nan) : ¬first ≤ last := by
  show ¬first.le last = true
  rcases h with rfl | rfl
  · simp [Binary64.le]
  · cases first <;> simp [Binary64.le]

/-- The header of a loop writes nothing. It fails in one of six ways, and the variables are then as
they were before the block. Otherwise the loop is reached with these variables, and if its bounds
leave nothing to count, the block comes to the result of before and the variables stay. -/
theorem loopAt_header (hlo : 0 ≤ offset) (hhi : stop ≤ setting.tape.size) (result : Binary64)
    (s : State) :
    let block := (loopAt setting offset stop result).outcome s
    ((∃ e t, HeaderFails setting offset stop s e t) ∨
      ∃ (_ : LoopHeader setting offset stop) (first last : Binary64) (t : State),
        Bounds setting offset s first last t) ∧
    (∀ e t, HeaderFails setting offset stop s e t →
      block = (.error e, t) ∧ e ≠ .unfinished ∧ t.store = s.store) ∧
    ∀ (header : LoopHeader setting offset stop) (first last : Binary64) (t : State),
      Bounds setting offset s first last t →
      ∃ ready : State, ready.store = s.store ∧
        block = (loopBody setting header.name header.accumulator header.body last setting.rounds
          first result >>= fun value => pure (value, header.bodyStop)).outcome ready ∧
        (¬first ≤ last ∨ first = .nan ∨ last = .nan →
          block = (.ok (result, header.bodyStop), ready)) := by
  intro block
  refine ⟨?_, fun e t h => ⟨h.loopAt hlo hhi result, h.finished hlo hhi, h.store⟩, ?_⟩
  · rcases headerFails_or_reached hlo hhi s with hfails | ⟨header, first, last, t, -, hbounds⟩
    · exact .inl hfails
    · exact .inr ⟨header, first, last, t, hbounds⟩
  · intro header first last t hbounds
    obtain ⟨ready, hready, hloop, hnone⟩ := header.reached hbounds result
    refine ⟨ready, hready, hloop, ?_⟩
    rintro (hgt | hnan)
    · exact hnone hgt
    · exact hnone (not_le_of_nan hnan)

theorem loopAt_header_bounds :
    let setting (bound : Token) : Setting :=
      ⟨#[.control .forLoop, .reference "i", .number 1, bound, .reference "x", .number 2,
        .control .endFor], 0, 0⟩
    let state : State := ⟨.ofList [("x", 0)], #[]⟩
    (∃ t, (loopAt (setting (.control .ifThen)) 0 7 5).outcome state =
        (.error (.fault .conditionTooShort), t) ∧ t.store = state.store) ∧
      ∃ t, (loopAt (setting (.number .nan)) 0 7 5).outcome state = (.ok (5, 6), t) ∧
        t.store = state.store := by
  intro setting state
  constructor
  · have hlast : (range (setting (.control .ifThen)) (0 + 3) (0 + 4)).outcome state =
        (.error (.fault .conditionTooShort), state) := by cbv
    have hfirst : (range (setting (.control .ifThen)) (0 + 2) (0 + 3)).outcome state =
        (.ok 1, state) := by cbv
    have hfails : HeaderFails (setting (.control .ifThen)) 0 7 state (.fault .conditionTooShort)
        state := .last (by decide) rfl hfirst hlast
    obtain ⟨hblock, -, hstore⟩ :=
      (loopAt_header (by decide) (by decide) 5 state).2.1 _ _ hfails
    exact ⟨state, hblock, hstore⟩
  · let header : LoopHeader (setting (.number .nan)) 0 7 :=
      ⟨"i", "x", 6, by decide, rfl, rfl, by cbv⟩
    have hbounds : Bounds (setting (.number .nan)) 0 state 1 .nan state :=
      ⟨state, by cbv, by cbv⟩
    obtain ⟨ready, hready, -, hnone⟩ :=
      (loopAt_header (by decide) (by decide) 5 state).2.2 header 1 .nan state hbounds
    exact ⟨ready, hnone (.inr (.inr rfl)), hready⟩

end TokenTape.Run

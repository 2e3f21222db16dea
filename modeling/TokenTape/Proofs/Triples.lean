import TokenTape.Proofs.Segment
import TokenTape.Proofs.Simulation
import TokenTape.Proofs.Steps

/-!
# What a run does to the variables

A triple says what holds of the variables before a run, behind it, and where it fails. Reports do
not matter.
-/

namespace TokenTape.Run

variable {α β : Type} {setting : Setting}

def Triple (P : Store → Prop) (m : Run α) (Q : α → Store → Prop) (E : Failure → Store → Prop) :
    Prop :=
  ∀ s, P s.store →
    match m.outcome s with
    | (.ok a, t) => Q a t.store
    | (.error e, t) => E e t.store

variable {P P' : Store → Prop} {Q Q' : α → Store → Prop} {R : β → Store → Prop}
  {E E' : Failure → Store → Prop}

theorem triple_pure {a : α} (h : ∀ store, P store → Q a store) : Triple P (pure a) Q E :=
  fun s hs => h s.store hs

theorem triple_throw {e : Failure} (h : ∀ store, P store → E e store) :
    Triple P (throw e) Q E :=
  fun s hs => h s.store hs

theorem Triple.bind {m : Run α} {f : α → Run β} (hm : Triple P m Q E)
    (hf : ∀ a, Triple (Q a) (f a) R E) : Triple P (m >>= f) R E := by
  intro s hs
  have hm := hm s hs
  rcases h : m.outcome s with ⟨e | a, t⟩ <;> rw [h] at hm
  · rw [outcome_bind_error h]
    exact hm
  · rw [outcome_bind_ok h]
    exact hf a t hm

theorem Triple.mono {m : Run α} (h : Triple P m Q E) (hP : ∀ store, P' store → P store)
    (hQ : ∀ a store, Q a store → Q' a store) (hE : ∀ e store, E e store → E' e store) :
    Triple P' m Q' E' := by
  intro s hs
  have hm := h s (hP _ hs)
  rcases hrun : m.outcome s with ⟨e | a, t⟩ <;> rw [hrun] at hm
  · exact hE e _ hm
  · exact hQ a _ hm

theorem Triple.error {m : Run α} (h : Triple P m Q E) {s : State} (hs : P s.store) {e : Failure}
    (he : (m.outcome s).1 = .error e) : E e (m.outcome s).2.store := by
  have hm := h s hs
  rw [show m.outcome s = (.error e, (m.outcome s).2) from Prod.ext he rfl] at hm
  exact hm

theorem triple_and {p : Prop} {m : Run α} (h : p → Triple P m Q E) :
    Triple (fun store => P store ∧ p) m Q E :=
  fun s hs => h hs.2 s hs.1

theorem triple_emit (event : Event) : Triple P (emit setting event) (fun _ => P) E := by
  intro s hs
  rw [outcome_emit]
  dsimp only
  split
  · exact hs
  · exact hs

theorem triple_assign {Q : Unit → Store → Prop} {name : Text} {value : Binary64}
    (h : ∀ store, P store → Q () (store.insert name value)) :
    Triple P (assign setting name value) Q E := by
  intro s hs
  rw [outcome_assign]
  exact triple_emit (P := Q ()) (E := E) _ ⟨s.store.insert name value, s.trace⟩ (h s.store hs)

theorem triple_lookup {Q : Binary64 → Store → Prop} {name : Text}
    (hsome : ∀ store value, P store → store.get? name = some value → Q value store)
    (hnone : ∀ store, P store → store.get? name = none →
      E (.fault (.undefinedVariable name)) store) : Triple P (lookup name) Q E := by
  intro s hs
  rw [outcome_lookup]
  unfold Store.lookup
  cases hget : s.store.get? name with
  | some value => exact hsome s.store value hs hget
  | none => exact hnone s.store hs hget

/-! ## Parts of a block -/

theorem triple_fetchName {Q : Text → Store → Prop} {k : Int} {otherwise : Token → Fault}
    (hname : ∀ name store, setting.tape.at? k = some (.reference name) → P store → Q name store)
    (hnone : ∀ store, setting.tape.at? k = none → P store → E .offsetOutOfRange store)
    (hother : ∀ token store, P store → E (.fault (otherwise token)) store) :
    Triple P (fetchName setting k otherwise) Q E := by
  unfold fetchName fetch
  cases hat : setting.tape.at? k with
  | none => exact triple_throw fun store => hnone store hat
  | some token =>
    rw [pure_bind]
    cases token with
    | reference name => exact triple_pure fun store => hname name store hat
    | number _ | operator _ | control _ | unclassified => exact triple_throw (hother _)

theorem triple_findEnd {kind : Control} {start stop : Int} (h : start ≤ stop)
    (hE : ∀ e store, setting.tape.findMarker kind start stop true = .error e → P store →
      E e store) :
    Triple P (findEnd setting kind start stop h)
      (fun last store => P store ∧
        setting.tape.findMarker kind start stop true = .ok last.offset) E := by
  cases hfound : setting.tape.findMarker kind start stop true with
  | error e =>
    rw [findEnd_failed h hfound]
    exact triple_throw fun store => hE e store hfound
  | ok offset =>
    obtain ⟨last, rfl, heq⟩ := findEnd_found h hfound
    rw [heq]
    exact triple_pure fun _ hP => ⟨hP, rfl⟩

/-- What the branches come from: an else marker, if there is one, and the end behind it. -/
def Branches.Found {start stop : Int} (tape : Tape) (branches : Branches start stop) : Prop :=
  ∃ middle : Option Int, tape.firstMarker? .orElse start stop = .ok middle ∧
    tape.findMarker .endIf (middle.getD start) stop true = .ok branches.last.offset ∧
    branches.thenStop = middle.getD branches.last.offset ∧
    branches.elseStart = middle.getD branches.last.offset

theorem triple_findBranches {start stop : Int} (h : start ≤ stop)
    (helse : ∀ e store, setting.tape.firstMarker? .orElse start stop = .error e → P store →
      E e store)
    (hend : ∀ k e store, start ≤ k → k ≤ stop →
      setting.tape.findMarker .endIf k stop true = .error e → P store → E e store) :
    Triple P (findBranches setting start stop h)
      (fun branches store => P store ∧ branches.Found setting.tape) E := by
  unfold findBranches
  split
  · next hfailed => exact triple_throw fun store => helse _ store hfailed
  · next offset hfound =>
    have hmem := Tape.firstMarker?_mem hfound
    apply (triple_findEnd _ fun e store => hend offset e store hmem.1 (by omega)).bind
    intro last
    exact triple_pure fun _ hP => ⟨hP.1, some offset, hfound, hP.2, rfl, rfl⟩
  · next hfound =>
    apply (triple_findEnd h fun e store => hend start e store (Int.le_refl _) h).bind
    intro last
    exact triple_pure fun _ hP => ⟨hP.1, none, hfound, hP.2, rfl, rfl⟩

theorem triple_loopBody {name accumulator : Text} {body : Run Binary64} {R : Store → Prop}
    (hcount : ∀ value store, P store → P (store.insert name value))
    (hbody : Triple P body (fun _ => R) E)
    (haccumulate : ∀ value store, R store → P (store.insert accumulator value))
    (hunfinished : ∀ store, P store → E .unfinished store) (last : Binary64) (rounds : Nat)
    (count result : Binary64) :
    Triple P (loopBody setting name accumulator body last rounds count result) (fun _ => P) E := by
  induction rounds generalizing count result with
  | zero =>
    unfold loopBody
    split
    · exact triple_throw hunfinished
    · exact triple_pure fun _ hP => hP
  | succ rounds ih =>
    unfold loopBody
    split
    · apply (triple_assign (Q := fun _ => P) (hcount count)).bind
      intro _
      apply hbody.bind
      intro value
      apply (triple_assign (Q := fun _ => P) (haccumulate value)).bind
      intro _
      exact ih (count + 1) value
    · exact triple_pure fun _ hP => hP

/-! ## Runs that write nothing -/

def ReadOnly (m : Run α) : Prop :=
  ∀ store, Triple (· = store) m (fun _ => (· = store)) (fun _ => (· = store))

theorem ReadOnly.store_eq {m : Run α} (h : ReadOnly m) (s : State) :
    (m.outcome s).2.store = s.store := by
  have hs := h s.store s rfl
  rcases hrun : m.outcome s with ⟨e | a, t⟩ <;> rw [hrun] at hs <;> exact hs

/-- A single token is read at most. A block would need more of them. -/
theorem readOnly_range_single (setting : Setting) (k : Int) :
    ReadOnly (range setting k (k + 1)) := by
  intro store
  have hend (progress : Progress) : Triple (· = store) (walk setting k (k + 1) (k + 1) progress)
      (fun _ => (· = store)) (fun _ => (· = store)) := by
    rw [walk_end (Int.le_refl _)]
    exact triple_pure fun _ h => h
  have hwalk : Triple (· = store) (walk setting k (k + 1) k .start) (fun _ => (· = store))
      (fun _ => (· = store)) := by
    cases hat : setting.tape.at? k with
    | none =>
      rw [walk_outside (by omega) hat]
      exact triple_throw fun _ h => h
    | some token =>
      rw [walk_dispatch (by omega) hat]
      apply (triple_emit _).bind
      intro _
      unfold dispatch
      split
      · exact hend _
      · unfold meetVariable
        apply Triple.bind _ hend
        have hread (name : Text) : Triple (· = store) (lookup name) (fun _ => (· = store))
            (fun _ => (· = store)) := triple_lookup (fun _ _ h _ => h) (fun _ h _ => h)
        apply (hread _).bind
        intro value
        exact triple_pure fun _ h => h
      · exact hend _
      · unfold forBlock
        rw [dif_neg (by omega)]
        exact triple_throw fun _ h => h
      · unfold ifBlock
        rw [dif_neg (by omega)]
        exact triple_throw fun _ h => h
      · exact hend _
      · exact triple_throw fun _ h => h
  unfold range
  exact hwalk.bind fun progress => triple_pure fun _ h => h

theorem store_of_single {k stop : Int} {ending : Except Failure Binary64} {s t : State}
    (h : (range setting k stop).outcome s = (ending, t)) (hstop : stop = k + 1) :
    t.store = s.store := by
  subst hstop
  have hstore := (readOnly_range_single setting k).store_eq s
  rwa [h] at hstore

end TokenTape.Run

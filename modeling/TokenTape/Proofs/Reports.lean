import Mathlib
import TokenTape.Proofs.Calls

/-!
# Reports and calls

A run at the highest verbosity tells every token that it dispatches. Each of them was dispatched by
the walk of a view that the run was called for, or that a call in it led to. So the calls leave
nothing out.
-/

namespace TokenTape.Run

variable {setting : Setting} {start stop offset : Int} {s t u : State} {e : Failure}

/-! ## What a run reports -/

section Reports

variable {α β : Type} {P : Event → Prop}

/-- What the run reports from a state is all of one kind. -/
def Reports (P : Event → Prop) (m : Run α) (s : State) : Prop :=
  ∃ events : List Event, (m.outcome s).2.trace.toList = s.trace.toList ++ events ∧
    ∀ event ∈ events, P event

/-- The run reports an event from a state. -/
def Reported (m : Run α) (s : State) (event : Event) : Prop :=
  ∃ events : List Event, (m.outcome s).2.trace.toList = s.trace.toList ++ events ∧ event ∈ events

theorem Reports.of_reported {m : Run α} {event : Event} (h : Reports P m s)
    (hreported : Reported m s event) : P event := by
  obtain ⟨events, htrace, hevents⟩ := h
  obtain ⟨events', htrace', hmem⟩ := hreported
  rw [htrace, List.append_right_inj] at htrace'
  exact hevents event (htrace' ▸ hmem)

theorem reports_nothing {m : Run α} (h : (m.outcome s).2.trace = s.trace) : Reports P m s :=
  ⟨[], by rw [h, List.append_nil], by simp⟩

theorem reports_pure (a : α) (s : State) : Reports P (pure a) s :=
  reports_nothing rfl

theorem reports_throw (e : Failure) (s : State) : Reports P (throw e : Run α) s :=
  reports_nothing rfl

theorem Reports.bind {m : Run α} {f : α → Run β} (hm : Reports P m s)
    (hf : ∀ a t, m.outcome s = (.ok a, t) → Reports P (f a) t) : Reports P (m >>= f) s := by
  obtain ⟨events, htrace, hevents⟩ := hm
  rcases hrun : m.outcome s with ⟨e | a, t⟩ <;> rw [hrun] at htrace
  · exact ⟨events, by rw [outcome_bind_error hrun]; exact htrace, hevents⟩
  · obtain ⟨more, hmore, hmore'⟩ := hf a t hrun
    refine ⟨events ++ more, ?_, ?_⟩
    · rw [outcome_bind_ok hrun, hmore, htrace, List.append_assoc]
    · intro event hevent
      rcases List.mem_append.1 hevent with h | h
      · exact hevents event h
      · exact hmore' event h

theorem reports_emit {event : Event} (h : P event) (s : State) :
    Reports P (emit setting event) s := by
  by_cases hlevel : event.level ≤ setting.verbosity
  · refine ⟨[event], ?_, by simpa using h⟩
    rw [outcome_emit, if_pos hlevel]
    simp
  · apply reports_nothing
    rw [outcome_emit, if_neg hlevel]

theorem reports_lookup (name : Text) (s : State) : Reports P (lookup name) s := by
  apply reports_nothing
  rw [outcome_lookup]

theorem reports_assign (hP : ∀ name value, P (.assigned name value)) (name : Text)
    (value : Binary64) (s : State) : Reports P (assign setting name value) s := by
  have hreport : Reports P (emit setting (.assigned name (.number value)))
      ⟨s.store.insert name value, s.trace⟩ := reports_emit (hP _ _) _
  exact hreport

theorem reports_meetNumber (hP : ∀ name value, P (.assigned name value)) (start offset : Int)
    (progress : Progress) (value : Binary64) (s : State) :
    Reports P (meetNumber setting start offset progress value) s := by
  unfold meetNumber
  split
  · cases target? setting start offset with
    | some name => exact (reports_assign hP name value s).bind fun _ t _ => reports_pure _ t
    | none => exact reports_throw _ s
  · exact reports_pure _ s

theorem reports_meetVariable (progress : Progress) (name : Text) (s : State) :
    Reports P (meetVariable progress name) s := by
  unfold meetVariable
  refine (reports_lookup name s).bind fun value t _ => ?_
  split
  · exact reports_throw _ t
  · exact reports_pure _ t

end Reports

/-- A token that is reported was dispatched in a call that the first one led to. -/
def Accounted (setting : Setting) (root : Call × State) (event : Event) : Prop :=
  ∀ k token result pending, event = .dispatched k token result pending →
    ∃ role start stop s t, Reaches setting root (.view role start stop, s) ∧
      Dispatches setting start stop s k token ⟨result, pending⟩ t

variable {root : Call × State}

theorem accounted_assigned (name : Text) (value : Quantity) :
    Accounted setting root (.assigned name value) := by
  rintro _ _ _ _ ⟨⟩

theorem reports_loopBody {name accumulator : Text} {body : Run Binary64} {last : Binary64}
    {rounds : Nat} {count : Binary64} (result : Binary64)
    (hbody : ∀ t, Begins setting name accumulator body last rounds count s t →
      Reports (Accounted setting root) body t) :
    Reports (Accounted setting root)
      (loopBody setting name accumulator body last rounds count result) s := by
  induction rounds generalizing s count result with
  | zero =>
    unfold loopBody
    split
    · exact reports_throw _ s
    · exact reports_pure _ s
  | succ rounds ih =>
    unfold loopBody
    split
    · next hle =>
      refine (reports_assign accounted_assigned name count s).bind fun _ s₁ hcount => ?_
      refine (hbody s₁ (.now hle hcount)).bind fun value s₂ hvalue => ?_
      refine (reports_assign accounted_assigned accumulator value s₂).bind
        fun _ s₃ haccumulate => ?_
      have hround : (loopRound setting name accumulator body count).outcome s =
          (.ok value, s₃) := by
        unfold loopRound
        rw [outcome_bind_ok hcount, outcome_bind_ok hvalue, outcome_bind_ok haccumulate]
        rfl
      exact ih value fun t hbegins => hbody t (.later hle hround hbegins)
    · exact reports_pure _ s

/-! ## Whole runs -/

theorem fetchName_cases (setting : Setting) (k : Int) (otherwise : Token → Fault) :
    (∃ name, setting.tape.at? k = some (.reference name) ∧
      fetchName setting k otherwise = pure name) ∨
      ∃ e, fetchName setting k otherwise = throw e := by
  cases hat : setting.tape.at? k with
  | none => exact .inr ⟨.offsetOutOfRange, by rw [fetchName, fetch, hat]; rfl⟩
  | some token =>
    by_cases hname : ∃ name, token = .reference name
    · obtain ⟨name, rfl⟩ := hname
      exact .inl ⟨name, rfl, fetchName_reference hat⟩
    · exact .inr ⟨_, fetchName_other hat fun name h => hname ⟨name, h⟩⟩

theorem findEnd_cases (setting : Setting) (kind : Control) (h : start ≤ stop) :
    (∃ last : BlockEnd start stop, setting.tape.findMarker kind start stop true = .ok last.offset ∧
      findEnd setting kind start stop h = pure last) ∨
      ∃ e, findEnd setting kind start stop h = throw e := by
  cases hfound : setting.tape.findMarker kind start stop true with
  | error e => exact .inr ⟨e, findEnd_failed h hfound⟩
  | ok k =>
    obtain ⟨last, rfl, hlast⟩ := findEnd_found h hfound
    exact .inl ⟨last, rfl, hlast⟩

theorem findBranches_cases (setting : Setting) (h : start ≤ stop) :
    (∃ (role : Role) (branches : Branches start stop),
      Splits setting.tape start stop role branches.thenStop branches.elseStart
        branches.last.offset ∧ findBranches setting start stop h = pure branches) ∨
      ∃ e, findBranches setting start stop h = throw e := by
  cases helse : setting.tape.firstMarker? .orElse start stop with
  | error e =>
    refine .inr ⟨e, ?_⟩
    unfold findBranches
    split
    · next hok => rw [helse] at hok; cases hok; rfl
    · next hok => rw [helse] at hok; cases hok
    · next hok => rw [helse] at hok; cases hok
  | ok found =>
    cases hlast : setting.tape.findMarker .endIf (found.getD start) stop true with
    | error e => exact .inr ⟨e, findBranches_failed h helse hlast⟩
    | ok last =>
      cases found with
      | none =>
        obtain ⟨branches, hthen, hstart, hend, hfound⟩ := findBranches_alone h helse hlast
        refine .inl ⟨.onlyBranch, branches, ?_, hfound⟩
        rw [hthen, hstart, hend]
        exact .alone helse hlast
      | some middle =>
        obtain ⟨branches, hthen, hstart, hend, hfound⟩ := findBranches_else h helse hlast
        refine .inl ⟨.thenBranch, branches, ?_, hfound⟩
        rw [hthen, hstart, hend]
        exact .atElse helse hlast

section Whole

variable (setting root)

def RangeAccounted (start stop : Int) : Prop :=
  ∀ role s, Reaches setting root (.view role start stop, s) →
    Reports (Accounted setting root) (range setting start stop) s

def WalkAccounted (start stop offset : Int) (progress : Progress) : Prop :=
  ∀ role s t, Reaches setting root (.view role start stop, s) →
    Arrives setting start stop s offset progress t →
    Reports (Accounted setting root) (walk setting start stop offset progress) t

def IfAccounted (offset stop : Int) : Prop :=
  ∀ s, Reaches setting root (.branch offset stop, s) →
    Reports (Accounted setting root) (ifBlock setting offset stop) s

def ForAccounted (offset stop : Int) (result : Binary64) : Prop :=
  ∀ s, Reaches setting root (.loop offset stop result, s) →
    Reports (Accounted setting root) (forBlock setting offset stop result) s

end Whole

theorem walkAccounted_step {progress : Progress} (hlt : offset < stop)
    (hnext : ∀ progress, WalkAccounted setting root start stop (offset + 1) progress)
    (hfor : ForAccounted setting root offset stop progress.result)
    (hif : IfAccounted setting root offset stop)
    (hbehind : ∀ result (last : BlockEnd (offset + 4) stop),
      WalkAccounted setting root start stop (last.offset + 1) ⟨result, progress.pending⟩) :
    WalkAccounted setting root start stop offset progress := by
  intro role s t hreaches harrived
  cases hat : setting.tape.at? offset with
  | none =>
    rw [walk_outside hlt hat]
    exact reports_throw _ t
  | some token =>
    rw [walk_dispatch hlt hat]
    have haccounted : Accounted setting root
        (.dispatched offset token progress.result progress.pending) := by
      rintro _ _ _ _ ⟨⟩
      exact ⟨role, start, stop, s, _, hreaches, t, harrived, hlt, hat, outcome_emit _ _ _⟩
    refine (reports_emit haccounted t).bind fun _ u hreport => ?_
    have hdispatches : Dispatches setting start stop s offset token progress u :=
      ⟨t, harrived, hlt, hat, hreport⟩
    have harrives {k : Int} {next : Progress} {v : State}
        (hvisit : (visit setting start stop offset progress token).outcome u =
          (.ok (k, next), v)) : Arrives setting start stop s k next v :=
      harrived.next hlt hat hreport hvisit
    cases token with
    | number value =>
      refine (reports_meetNumber accounted_assigned start offset progress value u).bind
        fun next v hmeet => ?_
      exact hnext next role s v hreaches (harrives (outcome_bind_ok hmeet))
    | reference name =>
      refine (reports_meetVariable progress name u).bind fun next v hmeet => ?_
      exact hnext next role s v hreaches (harrives (outcome_bind_ok hmeet))
    | operator kind => exact hnext _ role s u hreaches (harrives rfl)
    | control kind =>
      cases kind with
      | forLoop =>
        refine (hfor u (hreaches.tail (.loop hdispatches))).bind fun block v hblock => ?_
        have hloop : (loopAt setting offset stop progress.result).outcome u =
            (.ok (block.1, block.2.offset), v) := outcome_bind_ok hblock
        exact hbehind block.1 block.2 role s v hreaches (harrives (outcome_bind_ok hloop))
      | ifThen =>
        refine (hif u (hreaches.tail (.branch hdispatches))).bind fun block v hblock => ?_
        have hbranch : (ifAt setting offset stop).outcome u =
            (.ok (block.1, block.2.offset), v) := outcome_bind_ok hblock
        exact hbehind block.1 block.2 role s v hreaches (harrives (outcome_bind_ok hbranch))
      | orElse | endFor | endIf => exact hnext progress role s u hreaches (harrives rfl)
    | unclassified => exact reports_throw _ u

theorem forAccounted_step {result : Binary64} (hlong : offset + 5 < stop)
    (hfirst : RangeAccounted setting root (offset + 2) (offset + 3))
    (hlast : RangeAccounted setting root (offset + 3) (offset + 4))
    (hbody : ∀ bodyStop : BlockEnd (offset + 4) stop,
      RangeAccounted setting root (offset + 4) bodyStop.offset) :
    ForAccounted setting root offset stop result := by
  intro s hreaches
  unfold forBlock
  rw [dif_pos hlong]
  rcases fetchName_cases setting (offset + 1) .loopVariable with ⟨name, hname, heq⟩ | ⟨e, heq⟩ <;>
    rw [heq]
  case inr => exact reports_throw e s
  rw [pure_bind]
  refine (hfirst .bound s (hreaches.tail (.first hlong hname))).bind fun first t ht => ?_
  refine (hlast .bound t (hreaches.tail (.last hlong hname ht))).bind fun last u hu => ?_
  rcases findEnd_cases setting .endFor (by omega : offset + 4 ≤ stop) with
    ⟨bodyStop, hfound, heq⟩ | ⟨e, heq⟩ <;> rw [heq]
  case inr => exact reports_throw e u
  rw [pure_bind]
  rcases fetchName_cases setting (offset + 4) .loopBody with
    ⟨accumulator, haccumulator, heq⟩ | ⟨e, heq⟩ <;> rw [heq]
  case inr => exact reports_throw e u
  rw [pure_bind]
  let header : LoopHeader setting offset stop :=
    ⟨name, accumulator, bodyStop.offset, hlong, hname, haccumulator, hfound⟩
  have haccounted : Accounted setting root (header.event first last) := by
    rintro _ _ _ _ ⟨⟩
  refine (reports_emit haccounted u).bind fun _ v hreport => ?_
  refine Reports.bind (reports_loopBody result fun w hbegins => ?_) fun _ w _ => reports_pure _ w
  exact hbody bodyStop .body w (hreaches.tail (.body header ⟨t, ht, hu⟩ hreport hbegins))

theorem ifAccounted_step (hlong : offset + 3 < stop)
    (hcondition : RangeAccounted setting root (offset + 1) (offset + 4))
    (helse : ∀ branches : Branches (offset + 4) stop,
      RangeAccounted setting root branches.elseStart branches.last.offset)
    (hthen : ∀ branches : Branches (offset + 4) stop,
      RangeAccounted setting root (offset + 4) branches.thenStop) :
    IfAccounted setting root offset stop := by
  intro s hreaches
  unfold ifBlock
  rw [dif_pos hlong]
  refine (hcondition .condition s (hreaches.tail (.condition hlong))).bind fun value t ht => ?_
  rcases findBranches_cases setting (by omega : offset + 4 ≤ stop) with
    ⟨role, branches, hsplits, heq⟩ | ⟨e, heq⟩ <;> rw [heq]
  case inr => exact reports_throw e t
  rw [pure_bind]
  have haccounted : Accounted setting root (.branch value (offset + 4) branches.thenStop
      branches.elseStart branches.last.offset) := by
    rintro _ _ _ _ ⟨⟩
  refine (reports_emit haccounted t).bind fun _ u hreport => ?_
  split
  · next hno =>
    have hcalls := hreaches.tail (.no hlong ht hsplits hreport hno)
    exact (helse branches _ u hcalls).bind fun _ v _ => reports_pure _ v
  · next hyes =>
    have hcalls := hreaches.tail (.yes hlong ht hsplits hreport (eq_false_of_ne_true hyes))
    exact (hthen branches _ u hcalls).bind fun _ v _ => reports_pure _ v

theorem accounted (setting : Setting) (root : Call × State) :
    (∀ start stop, RangeAccounted setting root start stop) ∧
    (∀ start stop offset progress, WalkAccounted setting root start stop offset progress) ∧
    (∀ offset stop, IfAccounted setting root offset stop) ∧
    (∀ offset stop result, ForAccounted setting root offset stop result) := by
  apply range.mutual_induct
  case case1 =>
    intro start stop hwalk role s hreaches
    unfold range
    exact (hwalk role s s hreaches .start).bind fun _ t _ => reports_pure _ t
  case case2 =>
    intro start stop offset progress hlt hnext _ hfor hbehind hif _
    exact walkAccounted_step hlt hnext hfor hif hbehind
  case case3 =>
    intro start stop offset progress hge role s t _ _
    rw [walk_end (by omega)]
    exact reports_pure _ t
  case case4 =>
    intro offset stop hlong hcondition helse hthen
    exact ifAccounted_step hlong hcondition helse hthen
  case case5 =>
    intro offset stop hshort s _
    unfold ifBlock
    rw [dif_neg hshort]
    exact reports_throw _ s
  case case6 =>
    intro offset stop result hlong hfirst hlast hbody
    exact forAccounted_step hlong hfirst hlast hbody
  case case7 =>
    intro offset stop result hshort s _
    unfold forBlock
    rw [dif_neg hshort]
    exact reports_throw _ s

theorem range_accounted (role : Role) (start stop : Int) (s : State) :
    Reports (Accounted setting (.view role start stop, s)) (range setting start stop) s :=
  (accounted setting _).1 start stop role s .refl

theorem evaluate_accounted (setting : Setting) (s : State) :
    Reports (Accounted setting (.tape, s)) (evaluate setting) s := by
  have hstarted : Accounted setting (.tape, s) (.started setting.tape.size) := by
    rintro _ _ _ _ ⟨⟩
  have hfinished (result : Binary64) : Accounted setting (.tape, s) (.finished result) := by
    rintro _ _ _ _ ⟨⟩
  unfold evaluate
  refine (reports_emit hstarted s).bind fun _ t hreport => ?_
  have hview : Reaches setting (.tape, s) (.view .whole 0 setting.tape.size, t) :=
    .single (.tape hreport)
  refine ((accounted setting _).1 _ _ .whole t hview).bind fun result u _ => ?_
  exact (reports_emit (hfinished result) u).bind fun _ v _ => reports_pure _ v

end TokenTape.Run

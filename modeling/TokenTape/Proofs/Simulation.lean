import TokenTape.Run.Walk

/-!
# Runs in step

Two runs are in step when states that go together lead them to outcomes that go together. What goes
together is a parameter: equal stores, stores that agree on some names, or one state that satisfies
an invariant.
-/

namespace TokenTape.Run

variable {α β γ δ : Type}

/-! ## Outcomes -/

@[simp] theorem outcome_pure (a : α) (s : State) : (pure a : Run α).outcome s = (.ok a, s) := rfl

@[simp] theorem outcome_throw (e : Failure) (s : State) :
    (throw e : Run α).outcome s = (.error e, s) := rfl

theorem outcome_bind (m : Run α) (f : α → Run β) (s : State) :
    (m >>= f).outcome s =
      match m.outcome s with
      | (.ok a, t) => (f a).outcome t
      | (.error e, t) => (.error e, t) := by
  show (match ExceptT.run m s with | (r, t) => ExceptT.bindCont f r t) = _
  unfold outcome
  rcases h : ExceptT.run m s with ⟨_ | _, t⟩ <;> simp [StateT.run, h] <;> rfl

theorem outcome_bind_ok {m : Run α} {f : α → Run β} {s t : State} {a : α}
    (h : m.outcome s = (.ok a, t)) : (m >>= f).outcome s = (f a).outcome t := by
  rw [outcome_bind, h]

theorem outcome_bind_error {m : Run α} {f : α → Run β} {s t : State} {e : Failure}
    (h : m.outcome s = (.error e, t)) : (m >>= f).outcome s = (.error e, t) := by
  rw [outcome_bind, h]

theorem exists_of_outcome_bind {m : Run α} {f : α → Run β} {s t : State} {b : β}
    (h : (m >>= f).outcome s = (.ok b, t)) :
    ∃ a u, m.outcome s = (.ok a, u) ∧ (f a).outcome u = (.ok b, t) := by
  rcases hm : m.outcome s with ⟨e | a, u⟩
  · rw [outcome_bind_error hm] at h
    cases h
  · rw [outcome_bind_ok hm] at h
    exact ⟨a, u, rfl, h⟩

theorem outcome_emit (setting : Setting) (event : Event) (s : State) :
    (emit setting event).outcome s =
      (.ok (), if event.level ≤ setting.verbosity then ⟨s.store, s.trace.push event⟩ else s) := by
  unfold emit
  split <;> rfl

theorem outcome_lookup (name : Text) (s : State) :
    (lookup name).outcome s = (s.store.lookup name, s) := by
  show (ofExcept (s.store.lookup name)).outcome s = _
  cases s.store.lookup name <;> rfl

theorem outcome_assign (setting : Setting) (name : Text) (value : Binary64) (s : State) :
    (assign setting name value).outcome s =
      (emit setting (.assigned name (.number value))).outcome
        ⟨s.store.insert name value, s.trace⟩ := rfl

/-! ## Keeping in step -/

/-- How two runs are compared: which states go together, and which failures do. -/
structure Relation where
  state : State → State → Prop
  failure : Failure → Failure → Prop

/-- Both outcomes are values that go together, or both are failures that do; and so are the states
they leave. -/
def Relation.Agree (ρ : Relation) (V : α → β → Prop) :
    Except Failure α × State → Except Failure β × State → Prop
  | (.ok a, s), (.ok b, t) => V a b ∧ ρ.state s t
  | (.error e, s), (.error f, t) => ρ.failure e f ∧ ρ.state s t
  | _, _ => False

def Sim (ρ : Relation) (V : α → β → Prop) (m : Run α) (n : Run β) : Prop :=
  ∀ s t, ρ.state s t → ρ.Agree V (m.outcome s) (n.outcome t)

variable {ρ : Relation} {V : α → β → Prop} {W : γ → δ → Prop}

theorem sim_pure {a : α} {b : β} (h : V a b) : Sim ρ V (pure a) (pure b) :=
  fun _ _ hs => ⟨h, hs⟩

theorem sim_throw {e f : Failure} (h : ρ.failure e f) : Sim ρ V (throw e) (throw f) :=
  fun _ _ hs => ⟨h, hs⟩

theorem sim_bind {m : Run α} {n : Run β} {f : α → Run γ} {g : β → Run δ} (hm : Sim ρ V m n)
    (hf : ∀ a b, V a b → Sim ρ W (f a) (g b)) : Sim ρ W (m >>= f) (n >>= g) := by
  intro s t hs
  have h := hm s t hs
  rcases h1 : m.outcome s with ⟨e | a, s1⟩ <;> rcases h2 : n.outcome t with ⟨e' | b, t1⟩ <;>
    rw [h1, h2] at h
  · rw [outcome_bind_error h1, outcome_bind_error h2]
    exact h
  · exact h.elim
  · exact h.elim
  · rw [outcome_bind_ok h1, outcome_bind_ok h2]
    exact hf a b h.1 s1 t1 h.2

section Agree

variable {x y : Except Failure α × State}

theorem Relation.Agree.mapError {f g : Failure → Failure}
    (hfailure : ∀ e e', ρ.failure e e' → f e = g e') (h : ρ.Agree Eq x y) :
    x.1.mapError f = y.1.mapError g ∧ ρ.state x.2 y.2 := by
  rcases x with ⟨e | a, s⟩ <;> rcases y with ⟨e' | b, t⟩
  · exact ⟨congrArg Except.error (hfailure e e' h.1), h.2⟩
  · exact h.elim
  · exact h.elim
  · exact ⟨congrArg Except.ok h.1, h.2⟩

theorem mapError_id (a : Except Failure α) : a.mapError id = a := by
  cases a <;> rfl

theorem Relation.Agree.eq (hfailure : ∀ e e', ρ.failure e e' → e = e') (h : ρ.Agree Eq x y) :
    x.1 = y.1 ∧ ρ.state x.2 y.2 := by
  have hmap := h.mapError (f := id) (g := id) hfailure
  rwa [mapError_id, mapError_id] at hmap

end Agree

/-! ## One run -/

/-- A run beside itself. What goes together is then what a single run keeps to. -/
def Relation.diagonal (invariant : State → Prop) (good : Failure → Prop) : Relation :=
  ⟨fun s t => s = t ∧ invariant s, fun e f => e = f ∧ good e⟩

theorem sim_diagonal_iff {invariant : State → Prop} {good : Failure → Prop} {m : Run α} :
    Sim (.diagonal invariant good) Eq m m ↔
      ∀ s, invariant s →
        (∀ e, (m.outcome s).1 = .error e → good e) ∧ invariant (m.outcome s).2 := by
  constructor
  · intro h s hs
    have hm := h s s ⟨rfl, hs⟩
    revert hm
    rcases m.outcome s with ⟨e | a, t⟩ <;> intro hm
    · refine ⟨?_, hm.2.2⟩
      rintro _ ⟨⟩
      exact hm.1.2
    · exact ⟨by simp, hm.2.2⟩
  · rintro h s _ ⟨rfl, hs⟩
    have hm := h s hs
    revert hm
    rcases m.outcome s with ⟨e | a, t⟩ <;> intro hm
    · exact ⟨⟨rfl, hm.1 e rfl⟩, rfl, hm.2⟩
    · exact ⟨rfl, rfl, hm.2⟩

/-! ## Equal stores -/

/-- Only the variables are compared, and not what was reported. -/
def Relation.stores (failure : Failure → Failure → Prop) : Relation :=
  ⟨fun s t => s.store = t.store, failure⟩

section Stores

variable {failure : Failure → Failure → Prop} {S T : Setting}

theorem sim_emit_stores (event event' : Event) :
    Sim (.stores failure) Eq (emit S event) (emit T event') := by
  intro s t hs
  rw [outcome_emit, outcome_emit]
  refine ⟨rfl, ?_⟩
  split <;> split <;> exact hs

theorem sim_emit_left {event : Event} {m : Unit → Run α} {n : Run β}
    (h : Sim (.stores failure) V (m ()) n) : Sim (.stores failure) V (emit S event >>= m) n := by
  intro s t hs
  rw [outcome_bind, outcome_emit]
  apply h
  split <;> exact hs

theorem sim_lookup_stores (hrefl : ∀ e, failure e e) (name : Text) :
    Sim (.stores failure) Eq (lookup name) (lookup name) := by
  intro s t hs
  have hs : s.store = t.store := hs
  rw [outcome_lookup, outcome_lookup, hs]
  cases t.store.lookup name with
  | error e => exact ⟨hrefl e, hs⟩
  | ok value => exact ⟨rfl, hs⟩

theorem sim_assign_stores (name : Text) (value : Binary64) :
    Sim (.stores failure) Eq (assign S name value) (assign T name value) := by
  intro s t hs
  have hs : s.store = t.store := hs
  rw [outcome_assign, outcome_assign, hs]
  exact sim_emit_stores _ _ _ _ rfl

end Stores

end TokenTape.Run

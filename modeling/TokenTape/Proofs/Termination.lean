import Mathlib
import TokenTape.Proofs.Contracts
import TokenTape.Session

/-!
# Termination

A run ends unless one of its loops takes all the rounds it is given. With more rounds a run comes to
the same, unless it ran out of them. Loops between integers never do, so a tape on which all loops
are of this kind has one outcome, whatever the rounds.
-/

namespace TokenTape

namespace Run

variable {α β : Type} {setting : Setting} {more : Nat}

/-! ## More rounds -/

/-- The second run comes to what the first one comes to, unless that ran out of rounds. -/
def Extends (m n : Run α) : Prop :=
  ∀ s, (m.outcome s).1 = .error .unfinished ∨ n.outcome s = m.outcome s

theorem extends_refl (m : Run α) : Extends m m :=
  fun _ => .inr rfl

theorem Extends.bind {m n : Run α} {f g : α → Run β} (hm : Extends m n)
    (hf : ∀ a, Extends (f a) (g a)) : Extends (m >>= f) (n >>= g) := by
  intro s
  rcases hrun : m.outcome s with ⟨e | a, t⟩
  · rw [outcome_bind_error hrun]
    rcases hm s with hunfinished | hsame
    · rw [hrun] at hunfinished
      cases hunfinished
      exact .inl rfl
    · exact .inr (outcome_bind_error (hsame.trans hrun))
  · rw [outcome_bind_ok hrun]
    rcases hm s with hunfinished | hsame
    · rw [hrun] at hunfinished
      cases hunfinished
    · rw [outcome_bind_ok (hsame.trans hrun)]
      exact hf a t

theorem extends_loopBody {name accumulator : Text} {body body' : Run Binary64}
    (hbody : Extends body body') (last : Binary64) {rounds rounds' : Nat} (hle : rounds ≤ rounds')
    (count result : Binary64) :
    Extends (loopBody setting name accumulator body last rounds count result)
      (loopBody { setting with rounds := more } name accumulator body' last rounds' count
        result) := by
  induction rounds generalizing rounds' count result with
  | zero =>
    intro s
    unfold loopBody
    split
    · exact .inl rfl
    · exact .inr rfl
  | succ rounds ih =>
    obtain ⟨rounds', rfl⟩ : ∃ n, rounds' = n + 1 := ⟨rounds' - 1, by omega⟩
    unfold loopBody
    split
    · refine (extends_refl (assign setting name count)).bind fun _ => hbody.bind fun value => ?_
      refine (extends_refl (assign setting accumulator value)).bind fun _ => ?_
      exact ih (by omega) (count + 1) value
    · exact extends_refl _

section Whole

variable (setting more)

def RangeExtends (start stop : Int) : Prop :=
  Extends (range setting start stop) (range { setting with rounds := more } start stop)

def WalkExtends (start stop offset : Int) (progress : Progress) : Prop :=
  Extends (walk setting start stop offset progress)
    (walk { setting with rounds := more } start stop offset progress)

def IfExtends (offset stop : Int) : Prop :=
  Extends (ifBlock setting offset stop) (ifBlock { setting with rounds := more } offset stop)

def ForExtends (offset stop : Int) (result : Binary64) : Prop :=
  Extends (forBlock setting offset stop result)
    (forBlock { setting with rounds := more } offset stop result)

end Whole

variable {start stop offset : Int}

theorem walkExtends_step {progress : Progress} (hlt : offset < stop)
    (hnext : ∀ progress, WalkExtends setting more start stop (offset + 1) progress)
    (hfor : ForExtends setting more offset stop progress.result)
    (hif : IfExtends setting more offset stop)
    (hbehind : ∀ result (last : BlockEnd (offset + 4) stop),
      WalkExtends setting more start stop (last.offset + 1) ⟨result, progress.pending⟩) :
    WalkExtends setting more start stop offset progress := by
  unfold WalkExtends
  have htape : ({ setting with rounds := more } : Setting).tape = setting.tape := rfl
  cases hat : setting.tape.at? offset with
  | none =>
    rw [walk_outside hlt hat, walk_outside hlt (htape ▸ hat)]
    exact extends_refl _
  | some token =>
    rw [walk_dispatch hlt hat, walk_dispatch hlt (htape ▸ hat)]
    refine (extends_refl (emit setting _)).bind fun _ => ?_
    cases token with
    | number value => exact (extends_refl (meetNumber setting _ _ _ _)).bind hnext
    | reference name => exact (extends_refl (meetVariable _ _)).bind hnext
    | operator kind => exact hnext _
    | control kind =>
      cases kind with
      | forLoop => exact hfor.bind fun block => hbehind block.1 block.2
      | ifThen => exact hif.bind fun block => hbehind block.1 block.2
      | orElse | endFor | endIf => exact hnext _
    | unclassified => exact extends_refl _

theorem forExtends_step (hmore : setting.rounds ≤ more) {result : Binary64}
    (hlong : offset + 5 < stop) (hfirst : RangeExtends setting more (offset + 2) (offset + 3))
    (hlast : RangeExtends setting more (offset + 3) (offset + 4))
    (hbody : ∀ bodyStop : BlockEnd (offset + 4) stop,
      RangeExtends setting more (offset + 4) bodyStop.offset) :
    ForExtends setting more offset stop result := by
  unfold ForExtends forBlock
  rw [dif_pos hlong, dif_pos hlong]
  refine (extends_refl (fetchName setting _ _)).bind fun name => hfirst.bind fun first => ?_
  refine hlast.bind fun last => (extends_refl (findEnd setting _ _ _ _)).bind fun bodyStop => ?_
  refine (extends_refl (fetchName setting _ _)).bind fun accumulator => ?_
  refine (extends_refl (emit setting _)).bind fun _ => ?_
  exact (extends_loopBody (hbody bodyStop) last hmore first result).bind fun _ => extends_refl _

theorem ifExtends_step (hlong : offset + 3 < stop)
    (hcondition : RangeExtends setting more (offset + 1) (offset + 4))
    (helse : ∀ branches : Branches (offset + 4) stop,
      RangeExtends setting more branches.elseStart branches.last.offset)
    (hthen : ∀ branches : Branches (offset + 4) stop,
      RangeExtends setting more (offset + 4) branches.thenStop) :
    IfExtends setting more offset stop := by
  unfold IfExtends ifBlock
  rw [dif_pos hlong, dif_pos hlong]
  refine hcondition.bind fun condition => ?_
  refine (extends_refl (findBranches setting _ _ _)).bind fun branches => ?_
  refine (extends_refl (emit setting _)).bind fun _ => ?_
  split
  · exact (helse branches).bind fun _ => extends_refl _
  · exact (hthen branches).bind fun _ => extends_refl _

theorem extends_more (hmore : setting.rounds ≤ more) :
    (∀ start stop, RangeExtends setting more start stop) ∧
    (∀ start stop offset progress, WalkExtends setting more start stop offset progress) ∧
    (∀ offset stop, IfExtends setting more offset stop) ∧
    (∀ offset stop result, ForExtends setting more offset stop result) := by
  apply range.mutual_induct
  case case1 =>
    intro start stop hwalk
    unfold RangeExtends range
    exact hwalk.bind fun _ => extends_refl _
  case case2 =>
    intro start stop offset progress hlt hnext _ hfor hbehind hif _
    exact walkExtends_step hlt hnext hfor hif hbehind
  case case3 =>
    intro start stop offset progress hge
    unfold WalkExtends
    rw [walk_end (by omega), walk_end (by omega)]
    exact extends_refl _
  case case4 =>
    intro offset stop hlong hcondition helse hthen
    exact ifExtends_step hlong hcondition helse hthen
  case case5 =>
    intro offset stop hshort
    unfold IfExtends ifBlock
    rw [dif_neg hshort, dif_neg hshort]
    exact extends_refl _
  case case6 =>
    intro offset stop result hlong hfirst hlast hbody
    exact forExtends_step hmore hlong hfirst hlast hbody
  case case7 =>
    intro offset stop result hshort
    unfold ForExtends forBlock
    rw [dif_neg hshort, dif_neg hshort]
    exact extends_refl _

theorem extends_evaluate (setting : Setting) {more : Nat} (hmore : setting.rounds ≤ more) :
    Extends (evaluate setting) (evaluate { setting with rounds := more }) := by
  unfold evaluate
  refine (extends_refl (emit setting _)).bind fun _ => ?_
  refine ((extends_more hmore).1 _ _).bind fun result => ?_
  exact (extends_refl (emit setting _)).bind fun _ => extends_refl _

end Run

/-! ## Loops between integers -/

/-- The bounds of every loop are integers, as far as they stand on the tape, and no loop counts
beyond the range in which each integer is a number. -/
def Tape.Counted (tape : Tape) : Prop :=
  ∀ i : Nat, tape[i]? = some (.control .forLoop) →
    (∀ token, tape[i + 2]? = some token → ∃ (first : Binary64) (a : Int),
      token = .number first ∧ first.toInt? = some a ∧ a.natAbs ≤ 2 ^ 53) ∧
    ∀ token, tape[i + 3]? = some token → ∃ (last : Binary64) (b : Int),
      token = .number last ∧ last.toInt? = some b ∧ b ≤ 2 ^ 53 - 1

namespace Run

variable {setting : Setting}

theorem counted_loop (h : setting.tape.Counted) (hrounds : 2 ^ 54 ≤ setting.rounds) {k : Int}
    (hfor : setting.tape.Within 0 setting.tape.size k (.control .forLoop))
    (hlong : k + 5 < setting.tape.size) : Counted setting k := by
  obtain ⟨hlo, -, hat⟩ := hfor
  obtain ⟨i, rfl⟩ := Int.eq_ofNat_of_zero_le hlo
  rw [Tape.at?_natCast] at hat
  obtain ⟨hfirst, hlast⟩ := h i hat
  have hthird : i + 2 < setting.tape.size := by omega
  have hfourth : i + 3 < setting.tape.size := by omega
  obtain ⟨first, a, htoken, ha, hlow⟩ := hfirst _ (Array.getElem?_eq_getElem hthird)
  obtain ⟨last, b, htoken', hb, hhigh⟩ := hlast _ (Array.getElem?_eq_getElem hfourth)
  refine ⟨first, last, a, b, ?_, ?_, ha, hb, by omega, by omega, by omega⟩
  · rw [show (i : Int) + 2 = ((i + 2 : Nat) : Int) by omega, Tape.at?_natCast,
      Array.getElem?_eq_getElem hthird, htoken]
  · rw [show (i : Int) + 3 = ((i + 3 : Nat) : Int) by omega, Tape.at?_natCast,
      Array.getElem?_eq_getElem hfourth, htoken']

theorem contract_finished (h : setting.tape.Counted) (hrounds : 2 ^ 54 ≤ setting.rounds) :
    Contract setting 0 setting.tape.size (fun _ => True) (fun e _ => e ≠ .unfinished) where
  low := Int.le_refl 0
  high := Int.le_refl _
  write _ _ _ _ := trivial
  read _ _ _ := by simp
  failure _ _ he _ := he
  loop hfor hlong := .inl (counted_loop h hrounds hfor hlong)

theorem evaluate_finished (h : setting.tape.Counted) (hrounds : 2 ^ 54 ≤ setting.rounds)
    (state : State) : ((evaluate setting).outcome state).1 ≠ .error .unfinished :=
  fun hunfinished => (contract_finished h hrounds).evaluate.error trivial hunfinished rfl

/-- A tape whose loops count between integers comes to a result or to a failure of its own: it does
so with any number of rounds from `2 ^ 54` on, and it is always the same. -/
theorem evaluate_terminates {tape : Tape} (h : tape.Counted) :
    (∀ (verbosity : Int) (state : State), ∃ outcome : Except Failure Binary64 × State,
      outcome.1 ≠ .error .unfinished ∧ ∀ rounds, 2 ^ 54 ≤ rounds →
        (evaluate ⟨tape, verbosity, rounds⟩).outcome state = outcome) ∧
    ∀ session : Session, (session.evaluate tape).outcome ≠ .error .unfinished := by
  have hfinished (verbosity : Int) (rounds : Nat) (hrounds : 2 ^ 54 ≤ rounds) (state : State) :
      ((evaluate ⟨tape, verbosity, rounds⟩).outcome state).1 ≠ .error .unfinished :=
    evaluate_finished h hrounds state
  constructor
  · intro verbosity state
    refine ⟨(evaluate ⟨tape, verbosity, 2 ^ 54⟩).outcome state,
      hfinished verbosity _ (Nat.le_refl _) state, fun rounds hrounds => ?_⟩
    rcases extends_evaluate ⟨tape, verbosity, 2 ^ 54⟩ hrounds state with hout | hsame
    · exact absurd hout (hfinished verbosity _ (Nat.le_refl _) state)
    · exact hsame
  · intro session
    have hlimit : 2 ^ 54 ≤ roundLimit := by decide
    exact hfinished session.verbosity roundLimit hlimit ⟨session.store, #[]⟩

theorem evaluate_terminates_cut_off :
    let tape : Tape :=
      #[.control .forLoop, .reference "i", .number 1, .number 3, .reference "x", .operator .add,
        .reference "i", .control .endFor, .control .forLoop, .reference "i"]
    let session : Session := ⟨.ofList [("x", 0)], 3, .output⟩
    tape.Counted ∧ (session.evaluate tape).outcome ≠ .error .unfinished := by
  intro tape session
  have hone : (1 : Binary64).toInt? = some 1 := Binary64.ofInt_exact (by norm_num)
  have hthree : (3 : Binary64).toInt? = some 3 := Binary64.ofInt_exact (by norm_num)
  have hcounted : tape.Counted := by
    intro i hfor
    obtain ⟨hlt, hat⟩ := Array.getElem?_eq_some_iff.1 hfor
    have hi : i = 0 ∨ i = 8 := by
      have hlt : i < 10 := hlt
      interval_cases i <;> simp [tape] at hat ⊢
    rcases hi with rfl | rfl
    · constructor
      · rintro token ⟨⟩
        exact ⟨1, 1, rfl, hone, by norm_num⟩
      · rintro token ⟨⟩
        exact ⟨3, 3, rfl, hthree, by norm_num⟩
    · constructor
      · rintro token ⟨⟩
      · rintro token ⟨⟩
  exact ⟨hcounted, (evaluate_terminates hcounted).2 session⟩

end Run

end TokenTape

import TokenTape.Run.Walk

/-!
# Steps of a walk

A walk reports the token it stands on and does what the token asks for. A block first looks for its
ends; here the searches are given and the ends follow.
-/

namespace TokenTape.Run

variable {setting : Setting} {kind : Control} {start stop offset last : Int} {progress : Progress}

/-! ## One token -/

/-- What a walk does with a token once it has reported it. -/
def dispatch (setting : Setting) (start stop offset : Int) (progress : Progress) :
    Token → Run Progress
  | .number value => do
    let progress ← meetNumber setting start offset progress value
    walk setting start stop (offset + 1) progress
  | .reference name => do
    let progress ← meetVariable progress name
    walk setting start stop (offset + 1) progress
  | .operator kind => walk setting start stop (offset + 1) ⟨progress.result, some kind⟩
  | .control .forLoop => do
    let (result, last) ← forBlock setting offset stop progress.result
    walk setting start stop (last.offset + 1) ⟨result, progress.pending⟩
  | .control .ifThen => do
    let (result, last) ← ifBlock setting offset stop
    walk setting start stop (last.offset + 1) ⟨result, progress.pending⟩
  | .control _ => walk setting start stop (offset + 1) progress
  | .unclassified => throw .unclassifiedToken

theorem walk_dispatch {token : Token} (hlt : offset < stop)
    (hat : setting.tape.at? offset = some token) :
    walk setting start stop offset progress =
      (emit setting (.dispatched offset token progress.result progress.pending) >>= fun _ =>
        dispatch setting start stop offset progress token) := by
  rw [walk, if_pos hlt, fetch, hat, pure_bind]
  rcases token with _ | _ | _ | ⟨_ | _ | _ | _ | _⟩ | _ <;> rfl

theorem walk_outside (hlt : offset < stop) (hat : setting.tape.at? offset = none) :
    walk setting start stop offset progress = throw .offsetOutOfRange := by
  rw [walk, if_pos hlt, fetch, hat]
  rfl

theorem walk_end (hge : stop ≤ offset) :
    walk setting start stop offset progress = pure progress := by
  rw [walk, if_neg (by omega)]

theorem range_empty (setting : Setting) (k : Int) : range setting k k = pure 0 := by
  rw [range, walk_end (Int.le_refl k), pure_bind]
  rfl

theorem range_number {value : Binary64} (hat : setting.tape.at? offset = some (.number value)) :
    range setting offset (offset + 1) =
      emit setting (.dispatched offset (.number value) 0 none) >>= fun _ => pure value := by
  rw [range, walk_dispatch (by omega) hat, bind_assoc]
  congr 1
  funext _
  rw [dispatch, meetNumber, if_neg (by simp [Progress.start]), pure_bind,
    walk_end (Int.le_refl _), pure_bind]
  rfl

theorem range_compared {left right : Binary64} {op : Operator}
    (hquiet : setting.verbosity < 3) (hassign : op ≠ .assign)
    (hleft : setting.tape.at? offset = some (.number left))
    (hop : setting.tape.at? (offset + 1) = some (.operator op))
    (hright : setting.tape.at? (offset + 2) = some (.number right)) (s : State) :
    (range setting offset (offset + 3)).outcome s = (.ok (op.apply left right), s) := by
  have hemit (k : Int) (token : Token) (result : Binary64) (pending : Option Operator) :
      emit setting (.dispatched k token result pending) = pure () :=
    if_neg (by simp only [Event.level]; omega)
  have hpending : ¬(some op = some Operator.assign) := by simpa using hassign
  rw [range, walk_dispatch (by omega) hleft, hemit, pure_bind, dispatch, meetNumber,
    if_neg (by simp [Progress.start]), pure_bind, walk_dispatch (by omega) hop, hemit, pure_bind,
    dispatch, walk_dispatch (by omega) (by rwa [Int.add_assoc]), hemit, pure_bind, dispatch,
    meetNumber, if_neg hpending, pure_bind, walk_end (by omega)]
  rfl

theorem fetchName_reference {name : Text} {otherwise : Token → Fault}
    (hat : setting.tape.at? offset = some (.reference name)) :
    fetchName setting offset otherwise = pure name := by
  rw [fetchName, fetch, hat, pure_bind]

theorem fetchName_other {token : Token} {otherwise : Token → Fault}
    (hat : setting.tape.at? offset = some token) (hother : ∀ name, token ≠ .reference name) :
    fetchName setting offset otherwise = fault (otherwise token) := by
  rw [fetchName, fetch, hat, pure_bind]
  cases token with
  | reference name => exact absurd rfl (hother name)
  | number _ | operator _ | control _ | unclassified => rfl

/-! ## The beginning of a view -/

/-- Where a view begins matters only for the variables that its numbers are assigned to. -/
theorem walk_targets {start' : Int}
    (hhere : progress.pending = some .assign →
      target? setting start offset = target? setting start' offset)
    (hbehind : ∀ k, offset < k → target? setting start k = target? setting start' k) :
    walk setting start stop offset progress = walk setting start' stop offset progress := by
  obtain ⟨n, hn⟩ : ∃ n : Nat, (stop - offset).toNat = n := ⟨_, rfl⟩
  induction n using Nat.strongRecOn generalizing offset progress with
  | ind n ih =>
    by_cases hlt : offset < stop
    · cases hat : setting.tape.at? offset with
      | none => rw [walk_outside hlt hat, walk_outside hlt hat]
      | some token =>
        have hnext (next : Progress) {k : Int} (hk : offset < k) :
            walk setting start stop k next = walk setting start' stop k next :=
          ih (stop - k).toNat (by omega) (fun _ => hbehind k hk)
            (fun l hl => hbehind l (by omega)) rfl
        have hnumber (value : Binary64) : meetNumber setting start offset progress value =
            meetNumber setting start' offset progress value := by
          unfold meetNumber
          by_cases hassign : progress.pending = some .assign
          · rw [hhere hassign]
          · simp only [if_neg hassign]
        rw [walk_dispatch hlt hat, walk_dispatch hlt hat]
        congr 1
        funext _
        cases token with
        | number value => simp only [dispatch, hnumber, hnext _ (Int.lt_succ offset)]
        | reference name => simp only [dispatch, hnext _ (Int.lt_succ offset)]
        | operator kind => exact hnext _ (Int.lt_succ offset)
        | control kind =>
          have hblock (last : BlockEnd (offset + 4) stop) : offset < last.offset + 1 := by
            have := last.start_le
            omega
          cases kind with
          | forLoop => simp only [dispatch, hnext _ (hblock _)]
          | ifThen => simp only [dispatch, hnext _ (hblock _)]
          | orElse | endFor | endIf => exact hnext _ (Int.lt_succ offset)
        | unclassified => rfl
    · rw [walk_end (by omega), walk_end (by omega)]

/-! ## The ends of a block -/

theorem findEnd_found (h : start ≤ stop)
    (hfound : setting.tape.findMarker kind start stop true = .ok offset) :
    ∃ blockEnd : BlockEnd start stop, blockEnd.offset = offset ∧
      findEnd setting kind start stop h = pure blockEnd := by
  unfold findEnd
  split
  · next found hok =>
    rw [hfound] at hok
    cases hok
    exact ⟨_, rfl, rfl⟩
  · next hok => rw [hfound] at hok; cases hok

theorem findEnd_failed (h : start ≤ stop) {e : Failure}
    (hfailed : setting.tape.findMarker kind start stop true = .error e) :
    findEnd setting kind start stop h = throw e := by
  unfold findEnd
  split
  · next hok => rw [hfailed] at hok; cases hok
  · next hok => rw [hfailed] at hok; cases hok; rfl

theorem findBranches_else (h : start ≤ stop)
    (helse : setting.tape.firstMarker? .orElse start stop = .ok (some offset))
    (hlast : setting.tape.findMarker .endIf offset stop true = .ok last) :
    ∃ branches : Branches start stop, branches.thenStop = offset ∧ branches.elseStart = offset ∧
      branches.last.offset = last ∧ findBranches setting start stop h = pure branches := by
  unfold findBranches
  split
  · next hok => rw [helse] at hok; cases hok
  · next found hok =>
    rw [helse] at hok
    cases hok
    have hmem := Tape.firstMarker?_mem helse
    obtain ⟨blockEnd, hoffset, heq⟩ := findEnd_found (by omega) hlast
    refine ⟨_, ?_, ?_, ?_, by dsimp only; rw [heq]; rfl⟩
    · rfl
    · rfl
    · exact hoffset
  · next hok => rw [helse] at hok; cases hok

theorem findBranches_alone (h : start ≤ stop)
    (helse : setting.tape.firstMarker? .orElse start stop = .ok none)
    (hlast : setting.tape.findMarker .endIf start stop true = .ok last) :
    ∃ branches : Branches start stop, branches.thenStop = last ∧ branches.elseStart = last ∧
      branches.last.offset = last ∧ findBranches setting start stop h = pure branches := by
  unfold findBranches
  split
  · next hok => rw [helse] at hok; cases hok
  · next hok => rw [helse] at hok; cases hok
  · obtain ⟨blockEnd, hoffset, heq⟩ := findEnd_found h hlast
    refine ⟨_, ?_, ?_, ?_, by rw [heq]; rfl⟩
    · exact hoffset
    · exact hoffset
    · exact hoffset

theorem findBranches_failed (h : start ≤ stop) {found : Option Int} {e : Failure}
    (helse : setting.tape.firstMarker? .orElse start stop = .ok found)
    (hlast : setting.tape.findMarker .endIf (found.getD start) stop true = .error e) :
    findBranches setting start stop h = throw e := by
  unfold findBranches
  split
  · next hok => rw [helse] at hok; cases hok
  · next found hok =>
    rw [helse] at hok
    cases hok
    have hmem := Tape.firstMarker?_mem helse
    simp only [Option.getD_some] at hlast
    dsimp only
    rw [findEnd_failed (by omega) hlast]
    rfl
  · next hok =>
    rw [helse] at hok
    cases hok
    rw [findEnd_failed h hlast]
    rfl

end TokenTape.Run

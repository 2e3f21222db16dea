import Mathlib
import TokenTape.Proofs.Locality
import TokenTape.Proofs.Markers
import TokenTape.Proofs.Rounding

/-!
# Which branch is taken

The condition of an if block decides between two views. One goes from the condition to the first
else marker, the other from there to the first end behind it. Without an else marker there is one
view, up to the first end.
-/

namespace TokenTape.Run

variable {setting : Setting} {offset stop middle last : Int} {condition : Binary64} {s t : State}

/-! ## The else marker -/

theorem target?_else (hat : setting.tape.at? middle = some (.control .orElse)) {k : Int}
    (hk : middle < k) : target? setting middle k = target? setting (middle + 1) k := by
  unfold target?
  obtain rfl | hlong : k = middle + 1 ∨ middle + 1 < k := by omega
  · rw [if_neg (by omega), if_neg (by omega)]
  obtain rfl | hlong : k = middle + 2 ∨ middle + 2 < k := by omega
  · rw [if_pos (by omega), if_neg (by omega), Int.add_sub_cancel, hat]
  · rw [if_pos (by omega), if_pos (by omega)]

theorem range_else (hat : setting.tape.at? middle = some (.control .orElse)) (hlt : middle < last) :
    range setting middle last =
      emit setting (.dispatched middle (.control .orElse) 0 none) >>= fun _ =>
        range setting (middle + 1) last := by
  unfold range
  rw [walk_dispatch hlt hat, bind_assoc]
  congr 1
  funext _
  have hpass : dispatch setting middle last middle .start (.control .orElse) =
      walk setting (middle + 1) last (middle + 1) .start :=
    walk_targets (fun _ => target?_else hat (Int.lt_succ middle))
      fun k hk => target?_else hat (by omega)
  rw [hpass]

theorem observed_range_else (hat : setting.tape.at? middle = some (.control .orElse))
    (hlt : middle < last) (hlo : 0 ≤ middle) (hhi : last ≤ setting.tape.size) :
    observed ((range setting middle last).outcome t) =
      observed ((range setting (middle + 1) last).outcome t) := by
  rw [range_else hat hlt]
  exact sim_observed (sim_emit_left (sim_range_self (by omega) hhi)) rfl

/-! ## The branches -/

section Branches

variable (hlo : 0 ≤ offset) (hlong : offset + 4 ≤ stop) (hhi : stop ≤ setting.tape.size)
  (hcondition : (range setting (offset + 1) (offset + 4)).outcome s = (.ok condition, t))
include hlo hlong hhi hcondition

theorem observed_ifAt {branches : Branches (offset + 4) stop}
    (hbranches : findBranches setting (offset + 4) stop hlong = pure branches) :
    observed ((ifAt setting offset stop).outcome s) = endingAt branches.last.offset
      (observed ((if condition.same 0 then range setting branches.elseStart branches.last.offset
        else range setting (offset + 4) branches.thenStop).outcome t)) := by
  rw [sim_observed (ifAt_found hlong hlo hhi hbranches) rfl, observed_conditional_ok hcondition]

theorem ifAt_missing {found : Option Int}
    (helse : setting.tape.firstMarker? .orElse (offset + 4) stop = .ok found)
    (hne : found.getD (offset + 4) ≠ stop)
    (hmissing : setting.tape.Lacks .endIf (found.getD (offset + 4)) stop) :
    (ifAt setting offset stop).outcome s = (.error (.fault (.missingMarker .endIf)), t) := by
  have hstart : 0 ≤ found.getD (offset + 4) := by
    cases found with
    | none => rw [Option.getD_none]; omega
    | some middle =>
      have := Tape.firstMarker?_mem helse
      rw [Option.getD_some]
      omega
  have hfailed := findBranches_failed hlong helse (hmissing.findMarker hne hstart hhi)
  rw [ifAt_failed hlong hfailed, outcome_bind_ok hcondition, outcome_throw]

theorem observed_ifAt_else (helse : setting.tape.First .orElse (offset + 4) stop middle)
    (hlast : setting.tape.First .endIf (middle + 1) stop last) :
    observed ((ifAt setting offset stop).outcome s) = endingAt last
      (observed ((if condition.same 0 then range setting (middle + 1) last
        else range setting (offset + 4) middle).outcome t)) := by
  obtain ⟨hmiddle, -, hat⟩ := helse.1
  obtain ⟨hend, hstop, -⟩ := hlast.1
  have hskip : setting.tape.First .endIf middle stop last :=
    (Tape.first_skip_iff (by rw [hat]; simp)).2 hlast
  obtain ⟨branches, hthen, hstart, hoffset, hbranches⟩ := findBranches_else hlong
    (helse.firstMarker? (by omega) hhi) (hskip.findMarker (by omega) hhi)
  rw [observed_ifAt hlo hlong hhi hcondition hbranches, hthen, hstart, hoffset]
  split
  · rw [observed_range_else hat (by omega) (by omega) (by omega)]
  · rfl

theorem observed_ifAt_alone (helse : setting.tape.Lacks .orElse (offset + 4) stop)
    (hlast : setting.tape.findMarker .endIf (offset + 4) stop true = .ok last) :
    observed ((ifAt setting offset stop).outcome s) = endingAt last
      (observed ((if condition.same 0 then pure 0
        else range setting (offset + 4) last).outcome t)) := by
  obtain ⟨branches, hthen, hstart, hoffset, hbranches⟩ := findBranches_alone hlong
    (helse.firstMarker? (by omega) hhi) hlast
  rw [observed_ifAt hlo hlong hhi hcondition hbranches, hthen, hstart, hoffset, range_empty]

theorem observed_ifAt_end (hend : offset + 4 = stop) :
    observed ((ifAt setting offset stop).outcome s) = (.ok (0, stop), t.store) := by
  have helse : setting.tape.Lacks .orElse (offset + 4) stop := by
    rintro k ⟨hle, hlt, -⟩
    omega
  have hfound : setting.tape.findMarker .endIf (offset + 4) stop true = .ok stop := by
    rw [Tape.findMarker, if_pos hend, hend]
  have hblock := observed_ifAt_alone hlo hlong hhi hcondition helse hfound
  rw [hend, range_empty, ite_self] at hblock
  exact hblock

end Branches

/-- Once the condition is known, the first else marker and the first end behind it decide what the
block comes to. The first branch is taken unless the condition is a zero; `nan` is none. If the end
is missing, neither branch is run. A condition at the end of the view needs no end, and the block
comes to zero. -/
theorem ifAt_branches (hlo : 0 ≤ offset) (hlong : offset + 4 ≤ stop)
    (hhi : stop ≤ setting.tape.size)
    (hcondition : (range setting (offset + 1) (offset + 4)).outcome s = (.ok condition, t)) :
    let tape := setting.tape
    let block := (ifAt setting offset stop).outcome s
    let missing : Failure := .fault (.missingMarker .endIf)
    (offset + 4 < stop →
      (∀ middle, tape.First .orElse (offset + 4) stop middle →
        (tape.Lacks .endIf (middle + 1) stop → block = (.error missing, t)) ∧
        ∀ last, tape.First .endIf (middle + 1) stop last →
          (condition.toInt? ≠ some 0 → observed block =
            endingAt last (observed ((range setting (offset + 4) middle).outcome t))) ∧
          (condition.toInt? = some 0 → observed block =
            endingAt last (observed ((range setting (middle + 1) last).outcome t)))) ∧
      (tape.Lacks .orElse (offset + 4) stop →
        (tape.Lacks .endIf (offset + 4) stop → block = (.error missing, t)) ∧
        ∀ last, tape.First .endIf (offset + 4) stop last →
          (condition.toInt? ≠ some 0 → observed block =
            endingAt last (observed ((range setting (offset + 4) last).outcome t))) ∧
          (condition.toInt? = some 0 → observed block = (.ok (0, last), t.store)))) ∧
    (offset + 4 = stop → observed block = (.ok (0, stop), t.store)) := by
  intro tape block missing
  simp only [ne_eq, ← Binary64.same_zero_iff]
  refine ⟨fun hlt => ⟨?_, ?_⟩, ?_⟩
  · intro middle helse
    have hmiddle := helse.1
    refine ⟨fun hmissing => ?_, fun last hlast => ?_⟩
    · have hskip : tape.Lacks .endIf middle stop :=
        (Tape.lacks_skip_iff (by rw [hmiddle.2.2]; simp)).2 hmissing
      have := hmiddle.2.1
      exact ifAt_missing hlo hlong hhi hcondition (helse.firstMarker? (by omega) hhi)
        (by rw [Option.getD_some]; omega) hskip
    · have hblock := observed_ifAt_else hlo hlong hhi hcondition helse hlast
      exact ⟨fun hne => by rwa [if_neg hne] at hblock, fun hzero => by rwa [if_pos hzero] at hblock⟩
  · intro helse
    refine ⟨fun hmissing => ?_, fun last hlast => ?_⟩
    · exact ifAt_missing hlo hlong hhi hcondition (helse.firstMarker? (by omega) hhi)
        (by rw [Option.getD_none]; omega) hmissing
    · have hblock := observed_ifAt_alone hlo hlong hhi hcondition helse
        (hlast.findMarker (by omega) hhi)
      exact ⟨fun hne => by rwa [if_neg hne] at hblock, fun hzero => by rwa [if_pos hzero] at hblock⟩
  · exact observed_ifAt_end hlo hlong hhi hcondition

/-- The number behind the else marker is assigned to no variable, although one stands before the
marker. -/
theorem ifAt_branches_else_assigned :
    let setting : Setting :=
      ⟨#[.control .ifThen, .number 0, .operator .greaterThan, .number 1, .reference "x",
        .control .orElse, .operator .assign, .number 7, .control .endIf], 0, 0⟩
    let state : State := ⟨.ofList [("x", 0)], #[]⟩
    setting.tape.First .orElse 4 9 5 ∧ setting.tape.First .endIf 6 9 8 ∧
      observed ((ifAt setting 0 9).outcome state) =
        endingAt 8 (observed ((range setting 6 8).outcome state)) ∧
      ((ifAt setting 0 9).outcome state).1 = .error (.fault (.noTarget 7)) := by
  intro setting state
  have helse : setting.tape.First .orElse (0 + 4) 9 5 :=
    Tape.first_of_firstMarker? (by cbv) (by decide) (by decide)
  have hlast : setting.tape.First .endIf (5 + 1) 9 8 :=
    Tape.first_of_firstMarker? (by cbv) (by decide) (by decide)
  have hcondition : (range setting (0 + 1) (0 + 4)).outcome state = (.ok 0, state) := by
    rw [show (0 : Binary64) = Operator.greaterThan.apply 0 1 by decide +kernel]
    exact range_compared (by decide) (by decide) rfl rfl rfl _
  have hzero : (0 : Binary64).toInt? = some 0 := Binary64.ofInt_exact (by norm_num)
  have hblock := (((ifAt_branches (by decide) (by decide) (by decide) hcondition).1
    (by decide)).1 5 helse).2 8 hlast
  have hbranch : observed ((range setting (5 + 1) 8).outcome state) =
      (.error (.fault (.noTarget 7)), state.store) := by cbv
  refine ⟨helse, hlast, hblock.2 hzero, ?_⟩
  have hfailed := hblock.2 hzero
  rw [hbranch] at hfailed
  exact congrArg Prod.fst hfailed

end TokenTape.Run

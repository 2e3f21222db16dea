import Mathlib
import TokenTape.Proofs.Failures
import TokenTape.Proofs.Markers
import TokenTape.Proofs.Triples

/-!
# Which variables a run creates

An assignment is meant for a variable that exists: the walk has read it two tokens before. This
fails where a block stands between the assignment and the number. The token two before the number is
then the last one of the block, and the walk may never have come there.
-/

namespace TokenTape

namespace Tape

/-- A loop counts in the variable. -/
def Counts (tape : Tape) (name : Text) : Prop :=
  ∃ k : Nat, tape[k]? = some (.control .forLoop) ∧ tape[k + 1]? = some (.reference name)

/-! ## Where a walk gets to -/

/-- The block that begins at an offset ends at `last`, in a view up to `stop`. -/
inductive Closes (tape : Tape) (stop offset : Int) : Int → Prop
  | loop {last : Int} (hat : tape.at? offset = some (.control .forLoop))
      (hend : tape.First .endFor (offset + 4) stop last) : Closes tape stop offset last
  | branch {last : Int} (hat : tape.at? offset = some (.control .ifThen))
      (helse : tape.Lacks .orElse (offset + 4) stop)
      (hend : tape.First .endIf (offset + 4) stop last) : Closes tape stop offset last
  | branches {middle last : Int} (hat : tape.at? offset = some (.control .ifThen))
      (helse : tape.First .orElse (offset + 4) stop middle)
      (hend : tape.First .endIf middle stop last) : Closes tape stop offset last

/-- The block that begins at an offset has a view inside it, from one offset up to another one. -/
inductive Encloses (tape : Tape) (stop offset : Int) : Int → Int → Prop
  | first (hat : tape.at? offset = some (.control .forLoop)) (hlong : offset + 5 < stop) :
      Encloses tape stop offset (offset + 2) (offset + 3)
  | last (hat : tape.at? offset = some (.control .forLoop)) (hlong : offset + 5 < stop) :
      Encloses tape stop offset (offset + 3) (offset + 4)
  | body {last : Int} (hat : tape.at? offset = some (.control .forLoop))
      (hend : tape.First .endFor (offset + 4) stop last) :
      Encloses tape stop offset (offset + 4) last
  | condition (hat : tape.at? offset = some (.control .ifThen)) (hlong : offset + 3 < stop) :
      Encloses tape stop offset (offset + 1) (offset + 4)
  | onlyBranch {last : Int} (hat : tape.at? offset = some (.control .ifThen))
      (helse : tape.Lacks .orElse (offset + 4) stop)
      (hend : tape.First .endIf (offset + 4) stop last) :
      Encloses tape stop offset (offset + 4) last
  | thenBranch {middle : Int} (hat : tape.at? offset = some (.control .ifThen))
      (helse : tape.First .orElse (offset + 4) stop middle) :
      Encloses tape stop offset (offset + 4) middle
  | elseBranch {middle last : Int} (hat : tape.at? offset = some (.control .ifThen))
      (helse : tape.First .orElse (offset + 4) stop middle)
      (hend : tape.First .endIf middle stop last) : Encloses tape stop offset middle last

/-- A walk of a view gets to an offset with an operator pending or none, if nothing fails before and
the blocks on the way run every view inside them. -/
inductive Passes (tape : Tape) : Int → Int → Int → Option Operator → Prop
  | whole : Passes tape 0 tape.size 0 none
  | inside {start stop k start' stop' : Int} {pending : Option Operator}
      (h : Passes tape start stop k pending) (hview : tape.Encloses stop k start' stop') :
      Passes tape start' stop' start' none
  | number {start stop k : Int} {pending : Option Operator} {value : Binary64}
      (h : Passes tape start stop k pending) (hat : tape.Within start stop k (.number value)) :
      Passes tape start stop (k + 1) none
  | reference {start stop k : Int} {pending : Option Operator} {name : Text}
      (h : Passes tape start stop k pending) (hat : tape.Within start stop k (.reference name)) :
      Passes tape start stop (k + 1) none
  | operator {start stop k : Int} {pending : Option Operator} {kind : Operator}
      (h : Passes tape start stop k pending) (hat : tape.Within start stop k (.operator kind)) :
      Passes tape start stop (k + 1) (some kind)
  | marker {start stop k : Int} {pending : Option Operator} {kind : Control}
      (h : Passes tape start stop k pending) (hat : tape.Within start stop k (.control kind))
      (hkind : kind ∈ [Control.orElse, .endFor, .endIf]) : Passes tape start stop (k + 1) pending
  | behind {start stop k last : Int} {pending : Option Operator}
      (h : Passes tape start stop k pending) (hblock : tape.Closes stop k last) :
      Passes tape start stop (last + 1) pending

/-- The variable is the last token of a block. An assignment is pending where the walk comes to the
block, and a number stands right behind it. -/
def Overlooks (tape : Tape) (name : Text) : Prop :=
  ∃ (start stop offset last : Int) (value : Binary64),
    tape.Passes start stop offset (some .assign) ∧ tape.Closes stop offset last ∧
    tape.at? (last - 1) = some (.reference name) ∧
    tape.Within start stop (last + 1) (.number value)

variable {tape : Tape} {start stop offset : Int}

theorem Closes.le_last {last : Int} (h : tape.Closes stop offset last) : offset + 4 ≤ last := by
  cases h with
  | loop _ hend => exact hend.1.1
  | branch _ _ hend => exact hend.1.1
  | branches _ helse hend => exact Int.le_trans helse.1.1 hend.1.1

theorem Closes.marker {last : Int} (h : tape.Closes stop offset last) :
    ∃ closing, tape.at? last = some (.control closing) := by
  cases h with
  | loop _ hend => exact ⟨_, hend.1.2.2⟩
  | branch _ _ hend => exact ⟨_, hend.1.2.2⟩
  | branches _ _ hend => exact ⟨_, hend.1.2.2⟩

theorem Encloses.bounds {start' stop' : Int} (h : tape.Encloses stop offset start' stop') :
    offset ≤ start' ∧ stop' ≤ stop := by
  cases h with
  | first _ hlong | last _ hlong | condition _ hlong => omega
  | body _ hend | onlyBranch _ _ hend | thenBranch _ hend =>
    have := hend.1.2.1
    omega
  | elseBranch _ helse hend =>
    have := helse.1.1
    have := hend.1.2.1
    omega

theorem Passes.bounds {k : Int} {pending : Option Operator}
    (h : tape.Passes start stop k pending) : 0 ≤ start ∧ start ≤ k ∧ stop ≤ tape.size := by
  induction h with
  | whole => simp
  | inside _ hview ih =>
    have := hview.bounds
    omega
  | number | reference | operator | marker => omega
  | behind _ hblock ih =>
    have := hblock.le_last
    omega

end Tape

namespace Run

variable {setting : Setting} {allowed K : Text → Prop} {start stop offset : Int}

/-- All variables are allowed, and those of `K` exist. -/
def Known (allowed K : Text → Prop) (store : Store) : Prop :=
  (∀ name, store.contains name → allowed name) ∧ ∀ name, K name → store.contains name

theorem Known.insert {store : Store} (h : Known allowed K store) {name : Text}
    (hname : allowed name) (value : Binary64) : Known allowed K (store.insert name value) := by
  constructor
  · intro other hother
    rcases Table.contains_insert.1 hother with rfl | hother
    · exact hname
    · exact h.1 other hother
  · intro other hother
    exact Table.contains_insert.2 (.inr (h.2 other hother))

theorem Known.allowed_of_mem {store : Store} (h : Known allowed K store) {name : Text}
    (hname : K name) : allowed name :=
  h.1 name (h.2 name hname)

theorem Known.weaken {K' : Text → Prop} {store : Store} (h : Known allowed K' store)
    (hK : ∀ name, K name → K' name) : Known allowed K store :=
  ⟨h.1, fun name hname => h.2 name (hK name hname)⟩

/-! ## What the walk keeps in mind -/

/-- What is known of the tokens before an offset. A reference right before it was read, and so was
the target of an assignment, unless it belongs to a block. -/
structure Watched (tape : Tape) (K : Text → Prop) (start stop offset : Int) (progress : Progress) :
    Prop where
  passes : tape.Passes start stop offset progress.pending
  seen : ∀ name, start < offset → tape.at? (offset - 1) = some (.reference name) → K name
  target : ∀ name, progress.pending = some .assign → start + 1 < offset →
    tape.at? (offset - 2) = some (.reference name) →
    K name ∨ ∃ k, tape.Passes start stop k (some .assign) ∧ tape.Closes stop k (offset - 1)

theorem watched_start {tape : Tape} (h : tape.Passes start stop start none) :
    Watched tape K start stop start .start where
  passes := h
  seen _ h := absurd h (by omega)
  target _ h := nomatch h

theorem Watched.clear {tape : Tape} {progress : Progress}
    (hpasses : tape.Passes start stop (offset + 1) none) (hpending : progress.pending = none)
    (hseen : ∀ name, tape.at? offset = some (.reference name) → K name) :
    Watched tape K start stop (offset + 1) progress where
  passes := hpending ▸ hpasses
  seen name _ hat := hseen name (by rwa [Int.add_sub_cancel] at hat)
  target _ h := by simp [hpending] at h

theorem Watched.next {tape : Tape} {progress progress' : Progress} {token : Token}
    (h : Watched tape K start stop offset progress) (hat : tape.at? offset = some token)
    (hno : ∀ name, token ≠ .reference name)
    (hpasses : tape.Passes start stop (offset + 1) progress'.pending) :
    Watched tape K start stop (offset + 1) progress' where
  passes := hpasses
  seen name _ hname := by
    rw [Int.add_sub_cancel, hat] at hname
    cases hname
    exact absurd rfl (hno name)
  target name _ hlt hname := by
    rw [show offset + 1 - 2 = offset - 1 by omega] at hname
    exact .inl (h.seen name (by omega) hname)

theorem Watched.behind {tape : Tape} {progress : Progress} {last : Int}
    (h : Watched tape K start stop offset progress) (hblock : tape.Closes stop offset last)
    (result : Binary64) :
    Watched tape K start stop (last + 1) ⟨result, progress.pending⟩ where
  passes := h.passes.behind hblock
  seen name _ hname := by
    obtain ⟨closing, hclosing⟩ := hblock.marker
    rw [Int.add_sub_cancel, hclosing] at hname
    cases hname
  target name hassign _ _ := by
    have hpending : progress.pending = some .assign := hassign
    refine .inr ⟨offset, hpending ▸ h.passes, ?_⟩
    rwa [Int.add_sub_cancel]

theorem Watched.overlooks {tape : Tape} {progress : Progress} {name : Text} {value : Binary64}
    (h : Watched tape K start stop offset progress) (hassign : progress.pending = some .assign)
    (hhi : offset < stop) (hlo : start + 1 < offset)
    (hname : tape.at? (offset - 2) = some (.reference name))
    (hvalue : tape.at? offset = some (.number value)) : K name ∨ tape.Overlooks name := by
  refine (h.target name hassign hlo hname).imp_right ?_
  rintro ⟨k, hpasses, hcloses⟩
  refine ⟨start, stop, k, offset - 1, value, hpasses, hcloses, ?_, ?_⟩
  · rwa [show offset - 1 - 1 = offset - 2 by omega]
  · rw [Int.sub_add_cancel]
    exact ⟨by omega, hhi, hvalue⟩

/-! ## Steps -/

/-- The names that a tape allows besides others. -/
structure Allows (tape : Tape) (allowed : Text → Prop) : Prop where
  counts : ∀ name, tape.Counts name → allowed name
  overlooks : ∀ name, tape.Overlooks name → allowed name

theorem triple_meetNumber (htape : Allows setting.tape allowed) {progress : Progress}
    (hwatched : Watched setting.tape K start stop offset progress) (hlt : offset < stop)
    {value : Binary64} (hat : setting.tape.at? offset = some (.number value)) :
    Triple (Known allowed K) (meetNumber setting start offset progress value)
      (fun next store => Known allowed K store ∧ next.pending = none)
      (fun _ => Known allowed K) := by
  unfold meetNumber
  split
  · next hassign =>
    cases htarget : target? setting start offset with
    | none => exact triple_throw fun _ h => h
    | some name =>
      obtain ⟨hlo, -, hname⟩ :
          setting.tape.Within start (offset + 1) (offset - 2) (.reference name) :=
        target?_within (by omega) htarget
      apply (triple_assign (Q := fun _ => Known allowed K) ?_).bind
      · intro _
        exact triple_pure fun _ h => ⟨h, progress.meet_pending value⟩
      · intro store h
        rcases hwatched.overlooks hassign hlt (by omega) hname hat with hK | hoverlooked
        · exact h.insert (h.allowed_of_mem hK) value
        · exact h.insert (htape.overlooks name hoverlooked) value
  · exact triple_pure fun _ h => ⟨h, progress.meet_pending value⟩

theorem triple_meetVariable (progress : Progress) (name : Text) :
    Triple (Known allowed K) (meetVariable progress name)
      (fun next store => Known allowed (fun other => other = name ∨ K other) store ∧
        next.pending = none)
      (fun _ => Known allowed K) := by
  have hread : Triple (Known allowed K) (lookup name)
      (fun _ => Known allowed fun other => other = name ∨ K other) (fun _ => Known allowed K) := by
    refine triple_lookup ?_ fun _ h _ => h
    intro store value h hget
    refine ⟨h.1, ?_⟩
    rintro other (rfl | hother)
    · unfold Table.contains
      rw [hget]
      rfl
    · exact h.2 other hother
  unfold meetVariable
  apply hread.bind
  intro value
  split
  · exact triple_throw fun _ h => h.weaken fun _ => .inr
  · exact triple_pure fun _ h => ⟨h, progress.meet_pending value⟩

section Whole

variable (setting allowed)

/-- The variables stay allowed. On success the token at `offset` is known too, if it is a
reference. -/
def KeepsFrom {α : Type} (K : Text → Prop) (offset stop : Int) (m : Run α) : Prop :=
  Triple (Known allowed K) m
    (fun _ store => Known allowed K store ∧ ∀ name, offset < stop →
      setting.tape.at? offset = some (.reference name) → store.contains name)
    (fun _ => Known allowed K)

def RangeKeeps (start stop : Int) : Prop :=
  (start < stop → setting.tape.Passes start stop start none) →
    ∀ K, KeepsFrom setting allowed K start stop (range setting start stop)

def WalkKeeps (start stop offset : Int) (progress : Progress) : Prop :=
  ∀ K, (offset < stop → Watched setting.tape K start stop offset progress) →
    KeepsFrom setting allowed K offset stop (walk setting start stop offset progress)

/-- A walk that comes to the block keeps the variables allowed there. The block ends where it
closes, or with the view. -/
def BlockKeeps (opening : Control) (offset stop : Int)
    (m : Run (Binary64 × BlockEnd (offset + 4) stop)) : Prop :=
  ∀ start pending, setting.tape.Passes start stop offset pending →
    setting.tape.at? offset = some (.control opening) → ∀ K,
    Triple (Known allowed K) m
      (fun block store => Known allowed K store ∧ (block.2.offset = stop ∨
        setting.tape.Closes stop offset block.2.offset))
      (fun _ => Known allowed K)

def IfKeeps (offset stop : Int) : Prop :=
  BlockKeeps setting allowed .ifThen offset stop (ifBlock setting offset stop)

def ForKeeps (offset stop : Int) (result : Binary64) : Prop :=
  BlockKeeps setting allowed .forLoop offset stop (forBlock setting offset stop result)

end Whole

theorem KeepsFrom.known {α : Type} {m : Run α} (h : KeepsFrom setting allowed K offset stop m) :
    Triple (Known allowed K) m (fun _ => Known allowed K) (fun _ => Known allowed K) :=
  h.mono (fun _ h => h) (fun _ _ h => h.1) (fun _ _ h => h)

theorem KeepsFrom.here {α : Type} {m : Run α} {k : Int} {token : Token}
    (h : KeepsFrom setting allowed K k stop m) (hat : setting.tape.at? offset = some token)
    (hno : ∀ name, token ≠ .reference name) : KeepsFrom setting allowed K offset stop m := by
  refine h.mono (fun _ h => h) (fun _ _ h => ⟨h.1, fun name _ hname => ?_⟩) (fun _ _ h => h)
  rw [hat] at hname
  exact absurd (Option.some.inj hname) (hno name)

section Tokens

variable {progress : Progress} (hwatched : Watched setting.tape K start stop offset progress)
include hwatched

theorem keeps_block {opening : Control}
    {m : Run (Binary64 × BlockEnd (offset + 4) stop)}
    (hm : BlockKeeps setting allowed opening offset stop m)
    (hbehind : ∀ result (last : BlockEnd (offset + 4) stop),
      WalkKeeps setting allowed start stop (last.offset + 1) ⟨result, progress.pending⟩)
    (hat : setting.tape.at? offset = some (.control opening)) :
    KeepsFrom setting allowed K offset stop (m >>= fun block =>
      walk setting start stop (block.2.offset + 1) ⟨block.1, progress.pending⟩) := by
  apply (hm start progress.pending hwatched.passes hat K).bind
  intro block
  apply triple_and
  intro hend
  refine (hbehind block.1 block.2 K fun hmore => ?_).here hat (by simp)
  rcases hend with hend | hcloses
  · omega
  · exact hwatched.behind hcloses block.1

variable (hlt : offset < stop)
include hlt

theorem Watched.within {token : Token} (hat : setting.tape.at? offset = some token) :
    setting.tape.Within start stop offset token :=
  ⟨hwatched.passes.bounds.2.1, hlt, hat⟩

theorem keeps_number (htape : Allows setting.tape allowed)
    (hnext : ∀ progress, WalkKeeps setting allowed start stop (offset + 1) progress)
    {value : Binary64} (hat : setting.tape.at? offset = some (.number value)) :
    KeepsFrom setting allowed K offset stop
      (dispatch setting start stop offset progress (.number value)) := by
  apply (triple_meetNumber htape hwatched hlt hat).bind
  intro next
  apply triple_and
  intro hpending
  have hpasses := hwatched.passes.number (hwatched.within hlt hat)
  exact (hnext next K fun _ => .clear hpasses hpending (by simp [hat])).here hat (by simp)

theorem keeps_reference
    (hnext : ∀ progress, WalkKeeps setting allowed start stop (offset + 1) progress)
    {name : Text} (hat : setting.tape.at? offset = some (.reference name)) :
    KeepsFrom setting allowed K offset stop
      (dispatch setting start stop offset progress (.reference name)) := by
  apply (triple_meetVariable progress name).bind
  intro next
  apply triple_and
  intro hpending
  have hpasses := hwatched.passes.reference (hwatched.within hlt hat)
  have hwalk := hnext next (fun other => other = name ∨ K other) fun _ =>
    .clear hpasses hpending (by simp [hat])
  refine hwalk.mono (fun _ h => h) ?_ (fun _ _ h => h.weaken fun _ => .inr)
  intro _ store h
  refine ⟨h.1.weaken fun _ => .inr, fun other _ hother => ?_⟩
  rw [hat] at hother
  cases hother
  exact h.1.2 name (.inl rfl)

end Tokens

theorem walkKeeps_step (htape : Allows setting.tape allowed) {progress : Progress}
    (hlt : offset < stop)
    (hnext : ∀ progress, WalkKeeps setting allowed start stop (offset + 1) progress)
    (hfor : ForKeeps setting allowed offset stop progress.result)
    (hif : IfKeeps setting allowed offset stop)
    (hbehind : ∀ result (last : BlockEnd (offset + 4) stop),
      WalkKeeps setting allowed start stop (last.offset + 1) ⟨result, progress.pending⟩) :
    WalkKeeps setting allowed start stop offset progress := by
  intro K hwatched
  have hwatched := hwatched hlt
  cases hat : setting.tape.at? offset with
  | none =>
    rw [walk_outside hlt hat]
    exact triple_throw fun _ h => h
  | some token =>
    have hwithin := hwatched.within hlt hat
    rw [walk_dispatch hlt hat]
    apply (triple_emit _).bind
    intro _
    cases token with
    | number value => exact keeps_number hwatched hlt htape hnext hat
    | reference name => exact keeps_reference hwatched hlt hnext hat
    | operator kind =>
      refine (hnext _ K fun _ => hwatched.next hat (by simp) ?_).here hat (by simp)
      exact hwatched.passes.operator hwithin
    | control kind =>
      cases kind with
      | forLoop => exact keeps_block hwatched hfor hbehind hat
      | ifThen => exact keeps_block hwatched hif hbehind hat
      | orElse | endFor | endIf =>
        refine (hnext _ K fun _ => hwatched.next hat (by simp) ?_).here hat (by simp)
        exact hwatched.passes.marker hwithin (by simp)
    | unclassified => exact triple_throw fun _ h => h

/-! ## Blocks -/

theorem triple_loopVariable (htape : Allows setting.tape allowed) (hlo : 0 ≤ offset)
    (hat : setting.tape.at? offset = some (.control .forLoop)) :
    Triple (Known allowed K) (fetchName setting (offset + 1) .loopVariable)
      (fun name store => Known allowed K store ∧ allowed name) (fun _ => Known allowed K) := by
  refine triple_fetchName ?_ (fun _ _ h => h) fun _ _ h => h
  intro name store hname h
  refine ⟨h, htape.counts name ?_⟩
  obtain ⟨k, rfl⟩ := Int.eq_ofNat_of_zero_le hlo
  rw [Tape.at?_natCast] at hat
  rw [show (k : Int) + 1 = ((k + 1 : Nat) : Int) by omega, Tape.at?_natCast] at hname
  exact ⟨k, hat, hname⟩

/-- The body begins with the variable that its result goes to. So it reads that before. -/
theorem triple_rounds {name accumulator : Text} (hname : allowed name) {bodyStop : Int}
    (hbody : KeepsFrom setting allowed K (offset + 4) bodyStop
      (range setting (offset + 4) bodyStop)) (hsome : offset + 4 < bodyStop)
    (hleader : setting.tape.at? (offset + 4) = some (.reference accumulator))
    (first last result : Binary64) :
    Triple (Known allowed K) (loopBody setting name accumulator
      (range setting (offset + 4) bodyStop) last setting.rounds first result)
      (fun _ => Known allowed K) (fun _ => Known allowed K) := by
  apply triple_loopBody
  · intro value store h
    exact h.insert hname value
  · exact hbody
  · intro value store h
    exact h.1.insert (h.1.1 _ (h.2 accumulator hsome hleader)) value
  · exact fun _ h => h

theorem forKeeps_step (htape : Allows setting.tape allowed) {result : Binary64}
    (hlong : offset + 5 < stop) (hfirst : RangeKeeps setting allowed (offset + 2) (offset + 3))
    (hlast : RangeKeeps setting allowed (offset + 3) (offset + 4))
    (hbody : ∀ bodyStop : BlockEnd (offset + 4) stop,
      RangeKeeps setting allowed (offset + 4) bodyStop.offset) :
    ForKeeps setting allowed offset stop result := by
  intro start pending hpasses hat K
  have hbounds := hpasses.bounds
  unfold forBlock
  rw [dif_pos hlong]
  apply (triple_loopVariable htape (by omega) hat).bind
  intro name
  apply triple_and
  intro hname
  apply (hfirst (fun _ => hpasses.inside (.first hat hlong)) K).known.bind
  intro first
  apply (hlast (fun _ => hpasses.inside (.last hat hlong)) K).known.bind
  intro last
  apply (triple_findEnd _ fun _ _ _ h => h).bind
  intro bodyStop
  apply triple_and
  intro hfound
  have hend : setting.tape.First .endFor (offset + 4) stop bodyStop.offset :=
    Tape.first_of_findMarker hfound (by omega) (by omega) hbounds.2.2
  have haccumulator : Triple (Known allowed K) (fetchName setting (offset + 4) .loopBody)
      (fun name store => Known allowed K store ∧
        setting.tape.at? (offset + 4) = some (.reference name)) (fun _ => Known allowed K) :=
    triple_fetchName (fun _ _ hname h => ⟨h, hname⟩) (fun _ _ h => h) fun _ _ h => h
  apply haccumulator.bind
  intro accumulator
  apply triple_and
  intro hleader
  have hsome : offset + 4 < bodyStop.offset := by
    have hne : bodyStop.offset ≠ offset + 4 := by
      intro heq
      have hmarker := hend.1.2.2
      rw [heq, hleader] at hmarker
      cases hmarker
    have := bodyStop.start_le
    omega
  apply (triple_emit _).bind
  intro _
  have hrange := hbody bodyStop (fun _ => hpasses.inside (.body hat hend)) K
  apply (triple_rounds hname hrange hsome hleader first last result).bind
  intro value
  exact triple_pure fun _ h => ⟨h, .inr (.loop hat hend)⟩

section Branches

variable {branches : Branches (offset + 4) stop} (h : branches.Found setting.tape)
  (hat : setting.tape.at? offset = some (.control .ifThen)) (hlo : 0 ≤ offset)
  (hhi : stop ≤ setting.tape.size)
include h hat hlo hhi

theorem Branches.Found.closes :
    branches.last.offset = stop ∨ setting.tape.Closes stop offset branches.last.offset := by
  obtain ⟨_ | middle, helse, hend, -, -⟩ := h
  · by_cases hempty : offset + 4 = stop
    · have := branches.last.start_le
      have := branches.last.le_stop
      exact .inl (by omega)
    · exact .inr (.branch hat (Tape.lacks_of_firstMarker? helse (by omega) hhi)
        (Tape.first_of_findMarker hend hempty (by omega) hhi))
  · have hmiddle := Tape.first_of_firstMarker? helse (by omega) hhi
    obtain ⟨hstart, hstop, -⟩ := hmiddle.1
    exact .inr (.branches hat hmiddle (Tape.first_of_findMarker hend hstop.ne (by omega) hhi))

theorem Branches.Found.thenBranch (hsome : offset + 4 < branches.thenStop) :
    setting.tape.Encloses stop offset (offset + 4) branches.thenStop := by
  obtain ⟨_ | middle, helse, hend, hthen, -⟩ := h
  · have := branches.last.le_stop
    rw [hthen] at hsome ⊢
    simp only [Option.getD_none] at hsome hend ⊢
    exact .onlyBranch hat (Tape.lacks_of_firstMarker? helse (by omega) hhi)
      (Tape.first_of_findMarker hend (by omega) (by omega) hhi)
  · rw [hthen, Option.getD_some]
    exact .thenBranch hat (Tape.first_of_firstMarker? helse (by omega) hhi)

theorem Branches.Found.elseBranch (hsome : branches.elseStart < branches.last.offset) :
    setting.tape.Encloses stop offset branches.elseStart branches.last.offset := by
  obtain ⟨_ | middle, helse, hend, -, hstart⟩ := h
  · rw [hstart] at hsome
    exact absurd hsome (Int.lt_irrefl _)
  · have hmiddle := Tape.first_of_firstMarker? helse (by omega) hhi
    obtain ⟨hlow, hhigh, -⟩ := hmiddle.1
    rw [hstart, Option.getD_some]
    exact .elseBranch hat hmiddle (Tape.first_of_findMarker hend hhigh.ne (by omega) hhi)

end Branches

theorem ifKeeps_step (hlong : offset + 3 < stop)
    (hcondition : RangeKeeps setting allowed (offset + 1) (offset + 4))
    (helse : ∀ branches : Branches (offset + 4) stop,
      RangeKeeps setting allowed branches.elseStart branches.last.offset)
    (hthen : ∀ branches : Branches (offset + 4) stop,
      RangeKeeps setting allowed (offset + 4) branches.thenStop) :
    IfKeeps setting allowed offset stop := by
  intro start pending hpasses hat K
  have hbounds := hpasses.bounds
  unfold ifBlock
  rw [dif_pos hlong]
  apply (hcondition (fun _ => hpasses.inside (.condition hat hlong)) K).known.bind
  intro condition
  apply (triple_findBranches _ (fun _ _ _ h => h) fun _ _ _ _ _ _ h => h).bind
  intro branches
  apply triple_and
  intro hfound
  apply (triple_emit _).bind
  intro _
  have hin := hfound.closes hat (by omega) hbounds.2.2
  have hend (value : Binary64) : Triple (Known allowed K) (pure (value, branches.last))
      (fun block store => Known allowed K store ∧ (block.2.offset = stop ∨
        setting.tape.Closes stop offset block.2.offset)) (fun _ => Known allowed K) :=
    triple_pure fun _ h => ⟨h, hin⟩
  split
  · refine (helse branches (fun hsome => hpasses.inside ?_) K).known.bind hend
    exact hfound.elseBranch hat (by omega) hbounds.2.2 hsome
  · refine (hthen branches (fun hsome => hpasses.inside ?_) K).known.bind hend
    exact hfound.thenBranch hat (by omega) hbounds.2.2 hsome

theorem keeps (htape : Allows setting.tape allowed) :
    (∀ start stop, RangeKeeps setting allowed start stop) ∧
    (∀ start stop offset progress, WalkKeeps setting allowed start stop offset progress) ∧
    (∀ offset stop, IfKeeps setting allowed offset stop) ∧
    (∀ offset stop result, ForKeeps setting allowed offset stop result) := by
  apply range.mutual_induct
  case case1 =>
    intro start stop hwalk hpasses K
    unfold range
    refine Triple.bind (hwalk K fun hlt => watched_start (hpasses hlt)) ?_
    intro progress
    exact triple_pure fun _ h => h
  case case2 =>
    intro start stop offset progress hlt hnext _ hfor hbehind hif _
    exact walkKeeps_step htape hlt hnext hfor hif hbehind
  case case3 =>
    intro start stop offset progress hge K _
    rw [walk_end (by omega)]
    exact triple_pure fun _ h => ⟨h, fun _ hlt => absurd hlt hge⟩
  case case4 =>
    intro offset stop hlong hcondition helse hthen
    exact ifKeeps_step hlong hcondition helse hthen
  case case5 =>
    intro offset stop hshort _ _ _ _ K
    unfold ifBlock
    rw [dif_neg hshort]
    exact triple_throw fun _ h => h
  case case6 =>
    intro offset stop result hlong hfirst hlast hbody
    exact forKeeps_step htape hlong hfirst hlast hbody
  case case7 =>
    intro offset stop result hshort _ _ _ _ K
    unfold forBlock
    rw [dif_neg hshort]
    exact triple_throw fun _ h => h

/-! ## Whole tapes -/

/-- A run creates the variables its loops count in, and those it assigns to without having read
them. All others were there before. -/
theorem evaluate_created (setting : Setting) (state : State) {name : Text}
    (h : ((evaluate setting).outcome state).2.store.contains name) :
    state.store.contains name ∨ setting.tape.Counts name ∨ setting.tape.Overlooks name := by
  let allowed : Text → Prop := fun name =>
    state.store.contains name ∨ setting.tape.Counts name ∨ setting.tape.Overlooks name
  have htape : Allows setting.tape allowed := ⟨fun _ h => .inr (.inl h), fun _ h => .inr (.inr h)⟩
  obtain ⟨s, hs, -, hstore⟩ := evaluate_outcome setting state
  rw [hstore] at h
  have hknown : Known allowed (fun _ => False) s.store := ⟨fun _ h => .inl (hs ▸ h), nofun⟩
  have hrange := (keeps htape).1 0 setting.tape.size (fun _ => .whole) _ s hknown
  rcases hrun : (range setting 0 setting.tape.size).outcome s with ⟨e | value, t⟩ <;>
    rw [hrun] at hrange h
  · exact hrange.1 name h
  · exact hrange.1.1 name h

/-- An assignment that is still pending behind a branch. -/
def assignedBranch : Setting :=
  ⟨#[.operator .assign, .control .ifThen, .number 0, .operator .greaterThan, .number 1,
    .reference "y", .control .endIf, .number 5], 0, 0⟩

theorem assignedBranch_ifBlock :
    ∃ last : BlockEnd (1 + 4) 8, last.offset = 6 ∧
      (ifBlock assignedBranch 1 8).outcome ⟨.empty, #[]⟩ = (.ok (0, last), ⟨.empty, #[]⟩) := by
  have helse : assignedBranch.tape.firstMarker? .orElse (1 + 4) 8 = .ok none := by cbv
  have hend : assignedBranch.tape.findMarker .endIf (1 + 4) 8 true = .ok 6 := by cbv
  obtain ⟨branches, -, hstart, hlast, hfound⟩ := findBranches_alone (by omega) helse hend
  have hcondition : (range assignedBranch (1 + 1) (1 + 4)).outcome ⟨.empty, #[]⟩ =
      (.ok 0, ⟨.empty, #[]⟩) := by
    rw [show (0 : Binary64) = Operator.greaterThan.apply 0 1 by decide +kernel]
    exact range_compared (by decide) (by decide) rfl rfl rfl _
  have hzero : Binary64.same 0 0 = true := by decide +kernel
  refine ⟨branches.last, hlast, ?_⟩
  unfold ifBlock
  rw [dif_pos (by omega), outcome_bind_ok hcondition, hfound, pure_bind, if_pos hzero, hstart,
    hlast, range_empty]
  rfl

theorem assignedBranch_outcome :
    (evaluate assignedBranch).outcome ⟨.empty, #[]⟩ =
      (.ok 5, ⟨Table.ofList [("y", 5)], #[]⟩) := by
  obtain ⟨last, hlast, hblock⟩ := assignedBranch_ifBlock
  have hassign : assignedBranch.tape.at? 0 = some (.operator .assign) := rfl
  have hif : assignedBranch.tape.at? (0 + 1) = some (.control .ifThen) := rfl
  have hsilent (event : Event) : emit assignedBranch event = pure () := by
    cases event <;> rfl
  have hbehind : (walk assignedBranch 0 8 (last.offset + 1) ⟨0, some .assign⟩).outcome
      ⟨.empty, #[]⟩ = (.ok ⟨5, none⟩, ⟨Table.ofList [("y", 5)], #[]⟩) := by
    rw [hlast]
    cbv
  have hwalk : (walk assignedBranch 0 8 0 .start).outcome ⟨.empty, #[]⟩ =
      (.ok ⟨5, none⟩, ⟨Table.ofList [("y", 5)], #[]⟩) := by
    rw [walk_dispatch (by omega) hassign, hsilent, pure_bind, dispatch,
      walk_dispatch (by omega) hif, hsilent, pure_bind]
    exact (outcome_bind_ok hblock).trans hbehind
  have hrange : (range assignedBranch 0 8).outcome ⟨.empty, #[]⟩ =
      (.ok 5, ⟨Table.ofList [("y", 5)], #[]⟩) := by
    unfold range
    exact outcome_bind_ok hwalk
  unfold evaluate
  rw [hsilent, pure_bind]
  refine (outcome_bind_ok hrange).trans ?_
  rw [hsilent]
  rfl

theorem evaluate_created_assignedBranch :
    ((evaluate assignedBranch).outcome ⟨.empty, #[]⟩).2.store.contains "y" ∧
      (Table.contains (.empty : Store) "y" ∨ assignedBranch.tape.Counts "y" ∨
        assignedBranch.tape.Overlooks "y") := by
  have h : ((evaluate assignedBranch).outcome ⟨.empty, #[]⟩).2.store.contains "y" := by
    rw [assignedBranch_outcome]
    cbv
  exact ⟨h, evaluate_created assignedBranch ⟨.empty, #[]⟩ h⟩

/-- The branch is not taken, and its last token is assigned to all the same: a variable that was not
there before, and that no loop counts in. -/
theorem assignedBranch_creates :
    ((evaluate assignedBranch).outcome ⟨.empty, #[]⟩).1 = .ok 5 ∧
      ((evaluate assignedBranch).outcome ⟨.empty, #[]⟩).2.store.get? "y" = some 5 ∧
      Table.get? (.empty : Store) "y" = none ∧ ¬assignedBranch.tape.Counts "y" := by
  rw [assignedBranch_outcome]
  refine ⟨rfl, by cbv, rfl, ?_⟩
  rintro ⟨k, hfor, -⟩
  have hmem : Token.control .forLoop ∈ assignedBranch.tape := Array.mem_of_getElem? hfor
  simp [assignedBranch] at hmem

end Run

end TokenTape

import TokenTape.Proofs.Failures
import TokenTape.Proofs.Structured

/-!
# Walking a tame block

The walk finds every marker again where the block had it: each search of the walk lands on the end
of its own block. So a tape that a tame block was written to has the result of the block.
-/

namespace TokenTape

/-! ## Markers of a block -/

/-- The markers that an item is written with. -/
def Item.markers : Item → List Control
  | .operand _ => []
  | .operator _ => []
  | .loop .. => [.forLoop, .endFor]
  | .branch _ _ _ _ none => [.ifThen, .endIf]
  | .branch _ _ _ _ (some _) => [.ifThen, .orElse, .endIf]

@[simp] theorem Operand.control_ne_token (operand : Operand) (kind : Control) :
    Token.control kind ≠ operand.token := by
  cases operand <;> exact Token.noConfusion

theorem control_mem_flatten (kind : Control) :
    (∀ item : Item, .control kind ∈ item.flatten ↔ ∃ part ∈ item.parts, kind ∈ part.markers) ∧
    (∀ block : List Item, .control kind ∈ Block.flatten block ↔
      ∃ part ∈ Block.parts block, kind ∈ part.markers) := by
  apply Item.flatten.mutual_induct
  case case1 => simp [Item.flatten, Item.parts, Item.markers]
  case case2 => simp [Item.flatten, Item.parts, Item.markers]
  case case3 =>
    intro name first last body ih
    simp [Item.flatten, Item.parts, Item.markers, ih, or_assoc, or_comm, or_left_comm]
  case case4 =>
    intro left comparison right yes ih
    simp [Item.flatten, Item.parts, Item.markers, ih, or_assoc, or_comm, or_left_comm]
  case case5 =>
    intro left comparison right yes no ihyes ihno
    simp only [Item.flatten, Item.parts, Item.markers, List.mem_append, List.mem_cons,
      List.not_mem_nil, Token.control.injEq, Operand.control_ne_token, reduceCtorEq, ihyes, ihno,
      or_and_right, exists_or, exists_eq_left, or_false]
    grind
  case case6 => simp [Block.flatten, Block.parts]
  case case7 =>
    intro item rest ihitem ihrest
    simp [Block.flatten, Block.parts, ihitem, ihrest, or_and_right, exists_or]

theorem mem_parts_iff (part : Item) (block : List Item) :
    part ∈ Block.parts block ↔ ∃ item ∈ block, part ∈ item.parts := by
  induction block with
  | nil => simp [Block.parts]
  | cons item rest ih => simp [Block.parts, ih]

theorem control_not_mem_flatten {kind : Control} {block : List Item} {allowed : Item → Bool}
    (hblock : ∀ part ∈ Block.parts block, allowed part = true)
    (hkind : ∀ part, allowed part = true → kind ∉ part.markers) :
    .control kind ∉ Block.flatten block := by
  rw [(control_mem_flatten kind).2]
  rintro ⟨part, hpart, hmem⟩
  exact hkind part (hblock part hpart) hmem

theorem Item.endFor_not_mem (item : Item) (h : (!item.isLoop) = true) :
    .endFor ∉ item.markers := by
  rcases item with _ | _ | _ | ⟨_, _, _, _, _ | _⟩ <;> simp_all [Item.markers, Item.isLoop]

theorem Item.endIf_not_mem (item : Item) (h : (!item.isBranch) = true) :
    .endIf ∉ item.markers := by
  rcases item with _ | _ | _ | ⟨_, _, _, _, _ | _⟩ <;> simp_all [Item.markers, Item.isBranch]

theorem Item.orElse_not_mem (item : Item) (h : (!item.hasElse) = true) :
    .orElse ∉ item.markers := by
  rcases item with _ | _ | _ | ⟨_, _, _, _, _ | _⟩ <;> simp_all [Item.markers, Item.hasElse]

theorem Item.hasElse_of_not_isBranch (item : Item) (h : (!item.isBranch) = true) :
    (!item.hasElse) = true := by
  rcases item with _ | _ | _ | ⟨_, _, _, _, _ | _⟩ <;> simp_all [Item.isBranch, Item.hasElse]

theorem Block.flatten_of_name {body : List Item} {name : Text}
    (h : body.head?.bind Item.name? = some name) :
    ∃ rest, Block.flatten body = .reference name :: rest := by
  cases body with
  | nil => simp at h
  | cons item rest =>
    rcases item with ⟨_ | found⟩ | _ | _ | _ <;> simp [Item.name?] at h
    exact ⟨_, by rw [h]; rfl⟩

def Token.name? : Token → Option Text
  | .reference name => some name
  | _ => none

/-! ## Equal stores -/

/-- The failure without the offset that a fault may tell. -/
def Failure.unplaced : Failure → Failure
  | .fault (.noTarget _) => .fault (.noTarget 0)
  | failure => failure

namespace Run

abbrev Relation.sameStore : Relation :=
  .stores fun e f => e.unplaced = f.unplaced

variable {α β : Type} {V : α → β → Prop} {S T : Setting}

/-- The same result and the same variables, or the same variables and the same failure up to its
offset. -/
def SameOutcome (x y : Except Failure α × State) : Prop :=
  x.1.mapError Failure.unplaced = y.1.mapError Failure.unplaced ∧ x.2.store = y.2.store

theorem SameOutcome.ok {x y : Except Failure α × State} (h : SameOutcome x y) {a : α}
    (hy : y.1 = .ok a) : x.1 = .ok a := by
  obtain ⟨hresult, -⟩ := h
  rw [hy] at hresult
  cases hx : x.1 with
  | ok b =>
    rw [hx] at hresult
    exact hresult
  | error e =>
    rw [hx] at hresult
    cases hresult

theorem agree_sameStore {x y : Except Failure α × State}
    (h : Relation.sameStore.Agree Eq x y) : SameOutcome x y :=
  h.mapError fun _ _ he => he

/-! ## Looking back -/

theorem target?_behind {start offset : Int} {token : Token} (hle : start ≤ offset)
    (hat : S.tape.at? offset = some token) :
    target? S start (offset + 2) = token.name? := by
  rw [target?, if_pos (by omega), show offset + 2 - 2 = offset by omega, hat]
  cases token <;> rfl

/-- What the walk sees behind it at `offset` is what the items `before` tell: the token before, and
the one before that if an operator is pending. -/
structure Passed (S : Setting) (start offset : Int) (before : List Item) (progress : Progress) :
    Prop where
  one : target? S start (offset + 1) = before.head?.bind Item.name?
  two : progress.pending.isSome = true → target? S start offset = before.tail.head?.bind Item.name?

variable {start stop offset : Int} {before : List Item} {progress : Progress}

theorem passed_nil (hstart : target? S start (offset + 1) = none) :
    Passed S start offset [] .start := by
  constructor
  · exact hstart
  · simp [Progress.start]

theorem passed_cons {item : Item} {token : Token} (hle : start ≤ offset)
    (hat : S.tape.at? offset = some token)
    (hname : token.name? = item.name?)
    (hpending : progress.pending.isSome = false) :
    Passed S start (offset + 1) (item :: before) progress := by
  constructor
  · rw [Int.add_assoc]
    exact (target?_behind hle hat).trans hname
  · simp [hpending]

/-! ## Items -/

/-- An item stands at an offset of a view, behind the items `before`. An if without else has no else
marker behind it in the view. -/
structure Stands (S : Setting) (start stop offset : Int) (before : List Item)
    (progress : Progress) (item : Item) : Prop where
  holds : S.tape.Holds offset item.flatten
  fits : offset + item.flatten.length ≤ stop
  start_le : start ≤ offset
  tame : ∀ part ∈ item.parts, part.Tame
  alone : item.isBranch = true → item.hasElse = false →
    S.tape.firstMarker? .orElse (offset + item.flatten.length) stop = .ok none
  settled : item.isLoop = true ∨ item.isBranch = true → progress.pending.isSome = false
  passed : Passed S start offset before progress

/-- The walk runs the item and goes on behind it. -/
def ItemSound (S : Setting) (item : Item) : Prop :=
  ∀ (start stop offset : Int) (before : List Item) (progress : Progress)
    (next : Progress → Run Progress), Stands S start stop offset before progress item →
    (∀ after : Progress, after.pending.isSome = item.waits progress.pending.isSome →
      Passed S start (offset + item.flatten.length) (item :: before) after →
      Sim .sameStore Eq (walk S start stop (offset + item.flatten.length) after) (next after)) →
    Sim .sameStore Eq (walk S start stop offset progress)
      (item.run S.rounds before progress >>= next)

theorem sim_walk {token : Token} {n : Run β} {V : Progress → β → Prop} (hlt : offset < stop)
    (hat : S.tape.at? offset = some token)
    (h : Sim .sameStore V (dispatch S start stop offset progress token) n) :
    Sim .sameStore V (walk S start stop offset progress) n := by
  rw [walk_dispatch hlt hat]
  exact sim_emit_left h

theorem sim_meet_number {value : Binary64} (rounds : Nat)
    (hpassed : Passed S start offset before progress) :
    Sim .sameStore (fun x y => x = y ∧ x.pending = none)
      (meetNumber S start offset progress value)
      ((Operand.number value).meet rounds before progress) := by
  have hmeet := progress.meet_pending value
  unfold meetNumber Operand.meet
  by_cases hassign : progress.pending = some .assign
  · simp only [if_pos hassign]
    rw [hpassed.two (by simp [hassign])]
    cases before.tail.head?.bind Item.name? with
    | none => exact sim_bind (sim_throw (V := Eq) rfl) fun _ _ _ => sim_pure ⟨rfl, hmeet⟩
    | some name => exact sim_bind (sim_assign_stores name value) fun _ _ _ => sim_pure ⟨rfl, hmeet⟩
  · simp only [if_neg hassign]
    exact sim_pure ⟨rfl, hmeet⟩

theorem operand_sound (S : Setting) (operand : Operand) : ItemSound S (.operand operand) := by
  intro start stop offset before progress next h hnext
  have hfits := h.fits
  simp only [Item.flatten, List.length_singleton, Int.cast_ofNat_Int] at hnext hfits
  have hat : S.tape.at? offset = some operand.token := (Tape.holds_cons.1 h.holds).1
  refine sim_walk (by omega) hat ?_
  cases operand with
  | number value =>
    refine sim_bind (sim_meet_number S.rounds h.passed) ?_
    rintro after _ ⟨rfl, hnone⟩
    exact hnext after (by simp [hnone, Item.waits])
      (passed_cons h.start_le hat rfl (by simp [hnone]))
  | reference name =>
    have hread : Sim .sameStore Eq (lookup name) (lookup name) :=
      sim_lookup_stores (by intro e; rfl) name
    refine sim_bind (sim_meetVariable hread rfl progress) ?_
    rintro after _ ⟨rfl, hnone⟩
    exact hnext after (by simp [hnone, Item.waits])
      (passed_cons h.start_le hat rfl (by simp [hnone]))

theorem operator_sound (S : Setting) (kind : Operator) : ItemSound S (.operator kind) := by
  intro start stop offset before progress next h hnext
  have hfits := h.fits
  simp only [Item.flatten, List.length_singleton, Int.cast_ofNat_Int] at hnext hfits
  have hat : S.tape.at? offset = some (.operator kind) := (Tape.holds_cons.1 h.holds).1
  refine sim_walk (by omega) hat ?_
  refine hnext ⟨progress.result, some kind⟩ rfl ⟨?_, fun _ => h.passed.one⟩
  rw [Int.add_assoc]
  exact target?_behind h.start_le hat

/-! ## Blocks -/

/-- The walk of a view that ends with a block runs the block. -/
def BlockSound (S : Setting) (block : List Item) : Prop :=
  ∀ (start stop offset : Int) (before : List Item) (progress : Progress),
    S.tape.Holds offset (Block.flatten block) → stop = offset + (Block.flatten block).length →
    start ≤ offset → (∀ part ∈ Block.parts block, part.Tame) → Block.Ordered block →
    Block.Settled progress.pending.isSome block → Passed S start offset before progress →
    Sim .sameStore Eq (walk S start stop offset progress) (Block.run S.rounds before progress block)

theorem block_sound_nil (S : Setting) : BlockSound S [] := by
  rintro start stop offset before progress - hstop - - - - -
  simp only [Block.flatten, List.length_nil] at hstop
  rw [walk_end (by omega)]
  exact sim_pure rfl

theorem block_sound_cons {item : Item} {rest : List Item} (hitem : ItemSound S item)
    (hrest : BlockSound S rest) : BlockSound S (item :: rest) := by
  rintro start stop offset before progress hholds hstop hle htame hordered hsettled hpassed
  rw [Block.flatten, Tape.holds_append] at hholds
  simp only [Block.flatten, List.length_append, Int.natCast_add] at hstop
  simp only [Block.parts, List.mem_append] at htame
  obtain ⟨hfirst, hordered⟩ := List.pairwise_cons.1 hordered
  -- The search for an else runs over all the items behind, so none of them may have one
  have halone (hbranch : item.isBranch = true) (helse : item.hasElse = false) :
      S.tape.firstMarker? .orElse (offset + item.flatten.length) stop = .ok none := by
    refine Tape.firstMarker?_absent hholds.2 ?_ (by omega)
    refine control_not_mem_flatten (fun part hpart => ?_) Item.orElse_not_mem
    obtain ⟨later, hlater, hpart⟩ := (mem_parts_iff part rest).1 hpart
    simp [hfirst later hlater hbranch helse part hpart]
  have hstands : Stands S start stop offset before progress item :=
    ⟨hholds.1, by omega, hle, fun part hpart => htame part (.inl hpart), halone, hsettled.1,
      hpassed⟩
  refine hitem start stop offset before progress _ hstands ?_
  intro after hafter hpassed
  exact hrest start stop _ _ after hholds.2 (by omega) (by omega)
    (fun part hpart => htame part (.inr hpart)) hordered (by rw [hafter]; exact hsettled.2) hpassed

theorem sim_range {block : List Item} (h : Sim .sameStore Eq (walk S start stop start .start)
    (Block.run S.rounds [] .start block)) :
    Sim .sameStore Eq (range S start stop) (Block.evaluate S.rounds block) := by
  unfold range Block.evaluate
  refine sim_bind h ?_
  rintro after _ rfl
  exact sim_pure rfl

theorem range_sound {block : List Item} (hblock : BlockSound S block) (htame : Block.Tame block)
    (hholds : S.tape.Holds start (Block.flatten block))
    (hstop : stop = start + (Block.flatten block).length) :
    Sim .sameStore Eq (range S start stop) (Block.evaluate S.rounds block) := by
  have hnone : target? S start (start + 1) = none := by rw [target?, if_neg (by omega)]
  exact sim_range (hblock start stop start [] .start hholds hstop (Int.le_refl _) htame.parts
    htame.ordered htame.settled (passed_nil hnone))

theorem range_sound_else {block : List Item} (hblock : BlockSound S block)
    (htame : Block.Tame block)
    (hholds : S.tape.Holds start (.control .orElse :: Block.flatten block))
    (hstop : stop = start + 1 + (Block.flatten block).length) :
    Sim .sameStore Eq (range S start stop) (Block.evaluate S.rounds block) := by
  obtain ⟨hat, hholds⟩ := Tape.holds_cons.1 hholds
  have hnone : target? S start (start + 1 + 1) = none := by
    rw [Int.add_assoc]
    exact target?_behind (Int.le_refl _) hat
  refine sim_range (sim_walk (by omega) hat ?_)
  exact hblock start stop (start + 1) [] .start hholds hstop (by omega) htame.parts htame.ordered
    htame.settled (passed_nil hnone)

theorem range_operand {operand : Operand} {k : Int} (hat : S.tape.at? k = some operand.token)
    (hstop : stop = k + 1) : Sim .sameStore Eq (range S k stop) operand.value := by
  have hvalue : Block.evaluate S.rounds [.operand operand] = operand.value := by
    cases operand <;> simp [Block.evaluate, Block.run, Item.run, Operand.meet, Operand.value,
      meetVariable, Progress.start, Progress.meet]
  have htame : Block.Tame [.operand operand] :=
    ⟨by simp [Block.parts, Item.parts, Item.Tame], by simp [Block.Ordered],
      by simp [Block.Settled, Item.isLoop, Item.isBranch]⟩
  rw [← hvalue]
  refine range_sound (block_sound_cons (operand_sound S operand) (block_sound_nil S)) htame ?_ ?_
  · simp [Block.flatten, Item.flatten, Tape.holds_cons, hat, Tape.holds_nil]
  · simpa [Block.flatten, Item.flatten] using hstop

theorem range_compare {left right : Operand} {comparison : Operator} {k : Int}
    (hholds : S.tape.Holds k [left.token, .operator comparison, right.token])
    (hstop : stop = k + 3) :
    Sim .sameStore Eq (range S k stop) (left.compare S.rounds comparison right) := by
  have hvalue : Block.evaluate S.rounds [.operand left, .operator comparison, .operand right] =
      left.compare S.rounds comparison right := by
    simp [Block.evaluate, Block.run, Item.run, Operand.compare]
  have htame : Block.Tame [.operand left, .operator comparison, .operand right] :=
    ⟨by simp [Block.parts, Item.parts, Item.Tame],
      by simp [Block.Ordered, Item.isBranch],
      by simp [Block.Settled, Item.isLoop, Item.isBranch]⟩
  rw [← hvalue]
  refine range_sound (block_sound_cons (operand_sound S left) (block_sound_cons
    (operator_sound S comparison) (block_sound_cons (operand_sound S right) (block_sound_nil S))))
    htame ?_ ?_
  · simpa [Block.flatten, Item.flatten] using hholds
  · simpa [Block.flatten, Item.flatten] using hstop

/-! ## Loops -/

theorem sim_forBlock {name : Text} {first last : Operand} {body : List Item}
    (hbody : BlockSound S body) (h : Stands S start stop offset before progress
      (.loop name first last body)) :
    Sim .sameStore (fun x y => y = ⟨x.1, progress.pending⟩ ∧
        x.2.offset + 1 = offset + (Item.loop name first last body).flatten.length)
      (forBlock S offset stop progress.result)
      ((Item.loop name first last body).run S.rounds before progress) := by
  obtain ⟨hleader, hallowed, hordered, hsettled⟩ :=
    h.tame (.loop name first last body) (by simp [Item.parts])
  have htame : Block.Tame body :=
    ⟨fun part hpart => h.tame part (by simp [Item.parts, hpart]), hordered, hsettled⟩
  obtain ⟨accumulator, haccumulator⟩ := Option.isSome_iff_exists.1 hleader
  obtain ⟨rest, hrest⟩ := Block.flatten_of_name haccumulator
  have hpos : 1 ≤ (Block.flatten body).length := by simp [hrest]
  have hfits := h.fits
  simp only [Item.flatten, List.length_append, List.length_cons, List.length_nil] at hfits
  obtain ⟨hfor, hname, hfirst, hlast, hbodyEnd⟩ : S.tape.at? offset = some (.control .forLoop) ∧
      S.tape.at? (offset + 1) = some (.reference name) ∧
      S.tape.at? (offset + 2) = some first.token ∧ S.tape.at? (offset + 3) = some last.token ∧
      S.tape.Holds (offset + 4) (Block.flatten body ++ [.control .endFor]) := by
    have hholds := h.holds
    simpa [Item.flatten, Tape.holds_cons, Int.add_assoc] using hholds
  have hstart : S.tape.at? (offset + 4) = some (.reference accumulator) := by
    have hholds := (Tape.holds_append.1 hbodyEnd).1
    rw [hrest, Tape.holds_cons] at hholds
    exact hholds.1
  obtain ⟨bodyStop, hoffset, hend⟩ := findEnd_found (by omega : offset + 4 ≤ stop)
    (Tape.findMarker_found hbodyEnd (control_not_mem_flatten hallowed Item.endFor_not_mem)
      (by omega) true)
  unfold forBlock
  rw [dif_pos (by omega), fetchName_reference hname, pure_bind, Item.run, haccumulator]
  refine sim_bind (range_operand hfirst (by omega)) ?_
  rintro first _ rfl
  refine sim_bind (range_operand hlast (by omega)) ?_
  rintro last _ rfl
  rw [hend, pure_bind, fetchName_reference hstart, pure_bind]
  refine sim_emit_left (sim_bind (sim_loopBody (range_sound hbody htame ?_ hoffset)
    (fun _ => sim_assign_stores _ _) (fun _ => sim_assign_stores _ _) rfl _ _ _ _) ?_)
  · exact (Tape.holds_append.1 hbodyEnd).1
  · rintro result _ rfl
    refine sim_pure ⟨rfl, ?_⟩
    simp only [Item.flatten, List.length_append, List.length_cons, List.length_nil]
    omega

theorem sim_behind {item : Item} {front : List Token} {kind : Control} {p q : Int}
    {m : Run (Binary64 × BlockEnd p q)} {next : Progress → Run Progress}
    (h : Stands S start stop offset before progress item)
    (hblock : item.isLoop = true ∨ item.isBranch = true)
    (hflatten : item.flatten = front ++ [.control kind])
    (hnext : ∀ after : Progress, after.pending.isSome = item.waits progress.pending.isSome →
      Passed S start (offset + item.flatten.length) (item :: before) after →
      Sim .sameStore Eq (walk S start stop (offset + item.flatten.length) after) (next after))
    (hm : Sim .sameStore (fun x y => y = ⟨x.1, progress.pending⟩ ∧
      x.2.offset + 1 = offset + item.flatten.length) m (item.run S.rounds before progress)) :
    Sim .sameStore Eq
      (m >>= fun x => walk S start stop (x.2.offset + 1) ⟨x.1, progress.pending⟩)
      (item.run S.rounds before progress >>= next) := by
  have hname : Token.name? (.control kind) = item.name? := by
    cases item <;> simp_all [Item.isLoop, Item.isBranch, Item.name?, Token.name?]
  have hwaits : item.waits progress.pending.isSome = progress.pending.isSome := by
    cases item <;> simp_all [Item.isLoop, Item.isBranch, Item.waits]
  have hholds := h.holds
  rw [hflatten, Tape.holds_append, Tape.holds_cons] at hholds
  refine sim_bind hm ?_
  rintro x _ ⟨rfl, hx⟩
  rw [hx]
  refine hnext _ hwaits.symm ?_
  -- The token before is the last marker, which is no variable. The one before that lies inside the
  -- block, but with nothing pending it is not asked for
  have hend : offset + item.flatten.length = offset + front.length + 1 := by
    rw [hflatten, List.length_append, List.length_singleton]
    omega
  rw [hend]
  exact passed_cons (by have := h.start_le; omega) hholds.2.1 hname (h.settled hblock)

theorem loop_sound {name : Text} {first last : Operand} {body : List Item}
    (hbody : BlockSound S body) : ItemSound S (.loop name first last body) := by
  intro start stop offset before progress next h hnext
  have hholds := h.holds
  have hfits := h.fits
  simp only [Item.flatten, List.append_assoc, List.cons_append, Tape.holds_cons] at hholds
  simp only [Item.flatten, List.length_append, List.length_cons] at hfits
  exact sim_walk (by omega) hholds.1 (sim_behind h (.inl rfl) rfl hnext (sim_forBlock hbody h))

/-! ## Conditions -/

/-- The result of an else branch. Where there is none it is zero. -/
def otherwise (rounds : Nat) : Option (List Item) → Run Binary64
  | none => pure 0
  | some no => Block.evaluate rounds no

theorem run_branch (rounds : Nat) (before : List Item) (progress : Progress)
    (left : Operand) (comparison : Operator) (right : Operand) (yes : List Item)
    (no : Option (List Item)) :
    (Item.branch left comparison right yes no).run rounds before progress = (do
      let condition ← left.compare rounds comparison right
      if condition.same 0 then
        return ⟨← otherwise rounds no, progress.pending⟩
      else
        return ⟨← Block.evaluate rounds yes, progress.pending⟩) := by
  cases no <;> simp [Item.run, otherwise, Block.evaluate]

theorem sim_ifBlock {left right : Operand} {comparison : Operator} {yes : List Item}
    {no : Option (List Item)} (hlong : offset + 4 ≤ stop)
    (hcondition : S.tape.Holds (offset + 1) [left.token, .operator comparison, right.token])
    {branches : Branches (offset + 4) stop}
    (hbranches : findBranches S (offset + 4) stop hlong = pure branches)
    (hlast : branches.last.offset + 1 =
      offset + (Item.branch left comparison right yes no).flatten.length)
    (hyes : Sim .sameStore Eq (range S (offset + 4) branches.thenStop)
      (Block.evaluate S.rounds yes))
    (hno : Sim .sameStore Eq (range S branches.elseStart branches.last.offset)
      (otherwise S.rounds no)) :
    Sim .sameStore (fun x y => y = ⟨x.1, progress.pending⟩ ∧
        x.2.offset + 1 = offset + (Item.branch left comparison right yes no).flatten.length)
      (ifBlock S offset stop)
      ((Item.branch left comparison right yes no).run S.rounds before progress) := by
  unfold ifBlock
  rw [dif_pos (by omega), run_branch]
  refine sim_bind (range_compare hcondition (by omega)) ?_
  rintro condition _ rfl
  rw [hbranches, pure_bind]
  refine sim_emit_left ?_
  split
  · refine sim_bind hno ?_
    rintro result _ rfl
    exact sim_pure ⟨rfl, hlast⟩
  · refine sim_bind hyes ?_
    rintro result _ rfl
    exact sim_pure ⟨rfl, hlast⟩

theorem branch_sound_alone {left right : Operand} {comparison : Operator} {yes : List Item}
    (hyes : BlockSound S yes) : ItemSound S (.branch left comparison right yes none) := by
  intro start stop offset before progress next h hnext
  obtain ⟨hallowed, hordered, hsettled⟩ :=
    h.tame (.branch left comparison right yes none) (by simp [Item.parts])
  have htame : Block.Tame yes :=
    ⟨fun part hpart => h.tame part (by simp [Item.parts, hpart]), hordered, hsettled⟩
  have hfits := h.fits
  have halone := h.alone rfl rfl
  simp only [Item.flatten, List.length_append, List.length_cons, List.length_nil] at hfits halone
  obtain ⟨hif, hcondition, hend⟩ : S.tape.at? offset = some (.control .ifThen) ∧
      S.tape.Holds (offset + 1) [left.token, .operator comparison, right.token] ∧
      S.tape.Holds (offset + 4) (Block.flatten yes ++ [.control .endIf]) := by
    have hholds := h.holds
    simpa [Item.flatten, Tape.holds_cons, Tape.holds_nil, Int.add_assoc, and_assoc] using hholds
  have hno : Token.control .orElse ∉ Block.flatten yes ++ [.control .endIf] := by
    simpa using control_not_mem_flatten hallowed
      fun part hpart => Item.orElse_not_mem part (Item.hasElse_of_not_isBranch part hpart)
  have helse : S.tape.firstMarker? .orElse (offset + 4) stop = .ok none := by
    have hlength : ((Block.flatten yes ++ [Token.control .endIf]).length : Int) =
        (Block.flatten yes).length + 1 := by simp
    rw [Tape.firstMarker?_skip hend hno (by omega), ← halone]
    congr 1
    omega
  obtain ⟨branches, hstop, hstart, hlast, hbranches⟩ := findBranches_alone
    (by omega : offset + 4 ≤ stop) helse (Tape.findMarker_found hend
      (control_not_mem_flatten hallowed Item.endIf_not_mem) (by omega) true)
  refine sim_walk (by omega) hif (sim_behind h (.inr rfl) rfl hnext
    (sim_ifBlock (by omega) hcondition hbranches ?_ ?_ ?_))
  · simp only [Item.flatten, List.length_append, List.length_cons, List.length_nil]
    omega
  · exact range_sound hyes htame (Tape.holds_append.1 hend).1 hstop
  · rw [hstart, hlast, range_empty]
    exact sim_pure rfl

theorem branch_sound_else {left right : Operand} {comparison : Operator} {yes no : List Item}
    (hyes : BlockSound S yes) (hno : BlockSound S no) :
    ItemSound S (.branch left comparison right yes (some no)) := by
  intro start stop offset before progress next h hnext
  obtain ⟨⟨hallowed, hordered, hsettled⟩, hallowed', hordered', hsettled'⟩ :=
    h.tame (.branch left comparison right yes (some no)) (by simp [Item.parts])
  have htame : Block.Tame yes :=
    ⟨fun part hpart => h.tame part (by simp [Item.parts, hpart]), hordered, hsettled⟩
  have htame' : Block.Tame no :=
    ⟨fun part hpart => h.tame part (by simp [Item.parts, hpart]), hordered', hsettled'⟩
  have hfits := h.fits
  simp only [Item.flatten, List.length_append, List.length_cons, List.length_nil] at hfits
  obtain ⟨hif, hcondition, helse, hend⟩ : S.tape.at? offset = some (.control .ifThen) ∧
      S.tape.Holds (offset + 1) [left.token, .operator comparison, right.token] ∧
      S.tape.Holds (offset + 4) (Block.flatten yes ++ [.control .orElse]) ∧
      S.tape.Holds (offset + 4 + (Block.flatten yes).length)
        ((.control .orElse :: Block.flatten no) ++ [.control .endIf]) := by
    have hholds := h.holds
    simp only [Item.flatten, List.cons_append, List.nil_append, List.append_assoc, Tape.holds_cons,
      Tape.holds_append, Tape.holds_nil, Int.add_assoc, Int.reduceAdd, and_true] at hholds ⊢
    obtain ⟨hif, hleft, hoperator, hright, hyes, helse, hno, hend⟩ := hholds
    exact ⟨hif, ⟨hleft, hoperator, hright⟩, ⟨hyes, helse⟩, helse, hno, hend⟩
  have hmarker := Tape.firstMarker?_found helse (control_not_mem_flatten hallowed
      fun part hpart => Item.orElse_not_mem part (Item.hasElse_of_not_isBranch part hpart))
    (by omega : _ < stop)
  obtain ⟨branches, hstop, hstart, hlast, hbranches⟩ := findBranches_else
    (by omega : offset + 4 ≤ stop) hmarker (Tape.findMarker_found hend
      (by simpa using control_not_mem_flatten hallowed' Item.endIf_not_mem)
      (by simp only [List.length_cons]; omega) true)
  simp only [List.length_cons] at hlast
  refine sim_walk (by omega) hif (sim_behind h (.inr rfl) rfl hnext
    (sim_ifBlock (by omega) hcondition hbranches ?_ ?_ ?_))
  · simp only [Item.flatten, List.length_append, List.length_cons, List.length_nil]
    omega
  · exact range_sound hyes htame (Tape.holds_append.1 helse).1 hstop
  · rw [hstart]
    exact range_sound_else hno htame' (Tape.holds_append.1 hend).1 (by omega)

/-! ## Programs -/

theorem block_sound (S : Setting) (block : List Item) : BlockSound S block := by
  refine (Item.flatten.mutual_induct (ItemSound S) (BlockSound S) ?_ ?_ ?_ ?_ ?_ ?_ ?_).2 block
  · exact operand_sound S
  · exact operator_sound S
  · exact fun _ _ _ _ hbody => loop_sound hbody
  · exact fun _ _ _ _ hyes => branch_sound_alone hyes
  · exact fun _ _ _ _ _ hyes hno => branch_sound_else hyes hno
  · exact block_sound_nil S
  · exact fun _ _ hitem hrest => block_sound_cons hitem hrest

/-- A tape that a tame block was written to comes to what the block comes to. -/
theorem evaluate_flatten {block : List Item} (htame : Block.Tame block) (verbosity : Int)
    (rounds : Nat) (store : Store) :
    SameOutcome
      ((evaluate ⟨(Block.flatten block).toArray, verbosity, rounds⟩).outcome ⟨store, #[]⟩)
      ((Block.evaluate rounds block).outcome ⟨store, #[]⟩) := by
  let S : Setting := ⟨(Block.flatten block).toArray, verbosity, rounds⟩
  obtain ⟨t, ht, hresult, hstore⟩ := evaluate_outcome S ⟨store, #[]⟩
  have hstop : (S.tape.size : Int) = 0 + (Block.flatten block).length := by simp [S]
  have hsim := range_sound (block_sound S block) htame (Tape.holds_toArray _) hstop
  have hagree := agree_sameStore (hsim t ⟨store, #[]⟩ ht)
  unfold SameOutcome at hagree ⊢
  rw [← hresult, ← hstore] at hagree
  exact hagree

theorem evaluate_flatten_nested :
    let block : List Item :=
      [.loop "i" (.number 1) (.reference "n")
        [.operand (.reference "s"),
          .branch (.reference "s") .greaterThan (.number 2)
            [.operand (.reference "s"), .operator .assign, .operand (.number 0)]
            (some [.operand (.reference "s")]),
          .operator .add, .operand (.reference "i")],
      .branch (.reference "s") .equals (.reference "n")
        [.loop "j" (.number 1) (.number 2)
          [.operand (.reference "s"), .operator .add, .operand (.reference "j")]] none]
    let start : State := ⟨Table.ofList [("n", 3), ("s", 0)], #[]⟩
    let ending := (evaluate ⟨(Block.flatten block).toArray, 3, 10⟩).outcome start
    let entries : List (Text × Binary64) := [("n", 3), ("s", 6), ("i", 3), ("j", 2)]
    Block.Tame block ∧ SameOutcome ending ((Block.evaluate 10 block).outcome start) ∧
      ending.1 = .ok 6 ∧ ending.2.store.entries = entries := by
  intro block start ending entries
  have htame : Block.Tame block := by decide
  have hsame : SameOutcome ending ((Block.evaluate 10 block).outcome start) :=
    evaluate_flatten htame 3 10 _
  have hresult : ((Block.evaluate 10 block).outcome start).1 = .ok 6 := by decide +kernel
  have hentries : ((Block.evaluate 10 block).outcome start).2.store.entries = entries := by
    decide +kernel
  refine ⟨htame, hsame, hsame.ok hresult, ?_⟩
  rw [hsame.2, hentries]

end Run

end TokenTape

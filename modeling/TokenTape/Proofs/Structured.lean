import TokenTape.Run.Walk

/-!
# Structured programs

The same language as a tree: a block is a list of items, and a loop or a condition holds its blocks.
Writing a block down gives a tape. The evaluator here recurses on the tree and never looks at a
tape.
-/

namespace TokenTape

inductive Operand where
  | number (value : Binary64)
  | reference (name : Text)
deriving DecidableEq

inductive Item where
  | operand (operand : Operand)
  | operator (kind : Operator)
  | loop (name : Text) (first last : Operand) (body : List Item)
  | branch (left : Operand) (comparison : Operator) (right : Operand) (yes : List Item)
      (no : Option (List Item))

/-! ## Writing down -/

def Operand.token : Operand → Token
  | number value => .number value
  | reference name => .reference name

mutual

def Item.flatten : Item → List Token
  | .operand operand => [operand.token]
  | .operator kind => [.operator kind]
  | .loop name first last body =>
    [.control .forLoop, .reference name, first.token, last.token] ++ Block.flatten body ++
      [.control .endFor]
  | .branch left comparison right yes none =>
    [.control .ifThen, left.token, .operator comparison, right.token] ++ Block.flatten yes ++
      [.control .endIf]
  | .branch left comparison right yes (some no) =>
    [.control .ifThen, left.token, .operator comparison, right.token] ++ Block.flatten yes ++
      [.control .orElse] ++ Block.flatten no ++ [.control .endIf]

def Block.flatten : List Item → List Token
  | [] => []
  | item :: rest => item.flatten ++ Block.flatten rest

end

/-! ## Evaluating -/

namespace Item

/-- The variable that an item is, if it is one. -/
def name? : Item → Option Text
  | .operand (.reference name) => some name
  | _ => none

end Item

namespace Run

/-- No tape, and nothing is reported. -/
def silent (rounds : Nat) : Setting :=
  ⟨#[], 0, rounds⟩

end Run

open Run

namespace Operand

def value : Operand → Run Binary64
  | number value => pure value
  | reference name => lookup name

/-- An operand behind the items `before`, the latest first. A number is assigned to the variable two
items back. -/
def meet (rounds : Nat) (before : List Item) (progress : Progress) : Operand → Run Progress
  | number value => do
    if progress.pending = some .assign then
      match before.tail.head?.bind Item.name? with
      | some name => assign (silent rounds) name value
      | none => fault (.noTarget before.length)
    return progress.meet value
  | reference name => meetVariable progress name

/-- The condition of an if block. -/
def compare (rounds : Nat) (left : Operand) (comparison : Operator) (right : Operand) :
    Run Binary64 := do
  let progress ← left.meet rounds [] .start
  let progress ← right.meet rounds [.operator comparison, .operand left]
    ⟨progress.result, some comparison⟩
  return progress.result

end Operand

mutual

def Item.run (rounds : Nat) (before : List Item) (progress : Progress) : Item → Run Progress
  | .operand operand => operand.meet rounds before progress
  | .operator kind => return ⟨progress.result, some kind⟩
  | .loop name first last body => do
    let first ← first.value
    let last ← last.value
    match body.head?.bind Item.name? with
    | some accumulator =>
      let result ← loopBody (silent rounds) name accumulator
        (do return (← Block.run rounds [] .start body).result) last rounds first progress.result
      return ⟨result, progress.pending⟩
    | none => fault .loopTooShort
  | .branch left comparison right yes none => do
    let condition ← left.compare rounds comparison right
    if condition.same 0 then
      return ⟨0, progress.pending⟩
    else
      return ⟨(← Block.run rounds [] .start yes).result, progress.pending⟩
  | .branch left comparison right yes (some no) => do
    let condition ← left.compare rounds comparison right
    if condition.same 0 then
      return ⟨(← Block.run rounds [] .start no).result, progress.pending⟩
    else
      return ⟨(← Block.run rounds [] .start yes).result, progress.pending⟩

/-- Runs the items of a block behind the items `before`, the latest first. -/
def Block.run (rounds : Nat) (before : List Item) (progress : Progress) :
    List Item → Run Progress
  | [] => return progress
  | item :: rest => do
    let progress ← item.run rounds before progress
    Block.run rounds (item :: before) progress rest

end

/-- The result of a block. -/
def Block.evaluate (rounds : Nat) (block : List Item) : Run Binary64 := do
  return (← Block.run rounds [] .start block).result

/-! ## Tame blocks

A tape has no brackets, so not every block keeps its shape when it is written down. These do.
-/

mutual

/-- An item and the items inside it, at every depth. -/
def Item.parts : Item → List Item
  | .operand operand => [.operand operand]
  | .operator kind => [.operator kind]
  | .loop name first last body => .loop name first last body :: Block.parts body
  | .branch left comparison right yes none =>
    .branch left comparison right yes none :: Block.parts yes
  | .branch left comparison right yes (some no) =>
    .branch left comparison right yes (some no) :: (Block.parts yes ++ Block.parts no)

def Block.parts : List Item → List Item
  | [] => []
  | item :: rest => item.parts ++ Block.parts rest

end

namespace Item

def isLoop : Item → Bool
  | .loop .. => true
  | _ => false

def isBranch : Item → Bool
  | .branch .. => true
  | _ => false

def hasElse : Item → Bool
  | .branch _ _ _ _ (some _) => true
  | _ => false

/-- Whether an operator waits for its operand behind the item, if one was `waiting` before it. -/
def waits (waiting : Bool) : Item → Bool
  | .operand _ => false
  | .operator _ => true
  | _ => waiting

end Item

namespace Block

/-- Behind an if without else there is no if with one, at any depth. -/
def Ordered (block : List Item) : Prop :=
  block.Pairwise fun item later =>
    item.isBranch = true → item.hasElse = false → ∀ part ∈ later.parts, part.hasElse = false

/-- No loop and no condition begins where an operator waits. -/
def Settled (waiting : Bool) : List Item → Prop
  | [] => True
  | item :: rest =>
    (item.isLoop = true ∨ item.isBranch = true → waiting = false) ∧
      Settled (item.waits waiting) rest

/-- What a block inside an item keeps to. -/
def Inner (allowed : Item → Bool) (block : List Item) : Prop :=
  (∀ part ∈ Block.parts block, allowed part = true) ∧ Ordered block ∧ Settled false block

end Block

/-- A body begins with a variable and holds no loop, and a branch holds no condition. -/
def Item.Tame : Item → Prop
  | .operand _ => True
  | .operator _ => True
  | .loop _ _ _ body =>
    (body.head?.bind Item.name?).isSome = true ∧ Block.Inner (fun part => !part.isLoop) body
  | .branch _ _ _ yes none => Block.Inner (fun part => !part.isBranch) yes
  | .branch _ _ _ yes (some no) =>
    Block.Inner (fun part => !part.isBranch) yes ∧ Block.Inner (fun part => !part.isBranch) no

structure Block.Tame (block : List Item) : Prop where
  parts : ∀ part ∈ Block.parts block, part.Tame
  ordered : Block.Ordered block
  settled : Block.Settled false block

/-! Tameness can be computed. -/

instance (block : List Item) : Decidable (Block.Ordered block) :=
  inferInstanceAs (Decidable (List.Pairwise _ block))

instance Block.decidableSettled : (waiting : Bool) → (block : List Item) →
    Decidable (Block.Settled waiting block)
  | _, [] => inferInstanceAs (Decidable True)
  | waiting, item :: rest =>
    have := Block.decidableSettled (item.waits waiting) rest
    inferInstanceAs (Decidable ((_ → _) ∧ _))

instance (allowed : Item → Bool) (block : List Item) : Decidable (Block.Inner allowed block) :=
  inferInstanceAs (Decidable (_ ∧ _ ∧ _))

instance : (item : Item) → Decidable item.Tame
  | .operand _ => inferInstanceAs (Decidable True)
  | .operator _ => inferInstanceAs (Decidable True)
  | .loop .. => inferInstanceAs (Decidable (_ ∧ _))
  | .branch _ _ _ _ none => inferInstanceAs (Decidable (Block.Inner _ _))
  | .branch _ _ _ _ (some _) => inferInstanceAs (Decidable (_ ∧ _))

instance (block : List Item) : Decidable (Block.Tame block) :=
  decidable_of_iff ((∀ part ∈ Block.parts block, part.Tame) ∧ Block.Ordered block ∧
    Block.Settled false block)
    ⟨fun h => ⟨h.1, h.2.1, h.2.2⟩, fun h => ⟨h.parts, h.ordered, h.settled⟩⟩

end TokenTape

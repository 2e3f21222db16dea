import Mathlib
import TokenTape.CommandLine.Run
import TokenTape.Proofs.Delivery
import TokenTape.Proofs.Format
import TokenTape.Proofs.JsonPlaces
import TokenTape.Proofs.Tracing

/-!
# Commands

A command that runs a program file answers with what running the file comes to. Any content of the
file gets a result or a report, except one with an integer that cannot be converted or with brackets
nested too deep, and one that gives a variable a name which cannot be printed.
-/

namespace TokenTape

/-! ## Overrides -/

namespace Table

variable {α : Type}

theorem get?_insertAll_entries (t s : Table α) (name : Text) :
    (t.insertAll s.entries).get? name = (s.get? name).or (t.get? name) := by
  have h := get?_ofList s.entries name
  rw [ofList_entries] at h
  rw [get?_insertAll, h]

theorem names_insertAll (t : Table α) {entries : List (Text × α)}
    (h : (entries.map Prod.fst).Nodup) :
    (t.insertAll entries).names = t.names ++ (entries.map Prod.fst).filter (· ∉ t.names) := by
  induction entries generalizing t with
  | nil => exact (List.append_nil _).symm
  | cons entry rest ih =>
    obtain ⟨hentry, hrest⟩ := List.nodup_cons.1 h
    change ((t.insert entry.1 entry.2).insertAll rest).names = _
    rw [ih _ hrest, names_insert, List.map_cons, List.filter_cons]
    by_cases hmem : entry.1 ∈ t.names
    · simp [hmem]
    · have hfilter : (rest.map Prod.fst).filter (· ∉ t.names ++ [entry.1]) =
          (rest.map Prod.fst).filter (· ∉ t.names) := by
        refine List.filter_congr fun name hname => ?_
        have hne : name ≠ entry.1 := by
          rintro rfl
          exact hentry hname
        simp [hne]
      simp only [hmem, if_false, hfilter]
      simp

end Table

/-! ## Files that hold no program -/

namespace Program

/-- The file goes beyond a limit: somewhere in its text stands an integer of too many digits, or a
bracket inside too many others, or an integer beyond all numbers is what is first wrong with the
program in it. -/
inductive Oversized (bytes : List UInt8) : ProgramError → Prop
  | tooLong {text : String} {digits : Nat} (hdecode : Text.decode bytes = .ok text)
      (h : Json.Overflows Json.nestingLimit (.ofText (Text.unifyLineEnds text.toList))
        (.integerTooLong digits)) : Oversized bytes (.integerTooLong digits)
  | tooDeep {text : String} {container : Json.Container} (hdecode : Text.decode bytes = .ok text)
      (h : Json.Overflows Json.nestingLimit (.ofText (Text.unifyLineEnds text.toList))
        (.nestedTooDeep container)) : Oversized bytes (.nestedTooDeep container)
  | tooLarge {text : String} {value : Json} (hdecode : Text.decode bytes = .ok text)
      (hread : Json.read (.ofList (Text.unifyLineEnds text.toList)) = .ok value)
      (h : Offends value .integerTooLarge) : Oversized bytes .integerTooLarge

theorem oversized_brackets {rest : List Char} (hlines : '\r' ∉ rest) :
    Oversized ((.replicate (Json.nestingLimit + 1) '[' ++ rest).flatMap String.utf8EncodeChar)
      (.nestedTooDeep .array) := by
  have hcs : '\r' ∉ List.replicate (Json.nestingLimit + 1) '[' ++ rest := by
    simp [hlines]
  refine .tooDeep (Text.decode_flatMap _) ?_
  rw [String.toList_ofList, Text.unifyLineEnds_of_not_mem hcs, Json.Cursor.ofText,
    List.replicate_succ, List.cons_append, Json.Cursor.skipGap_cons rfl]
  exact Json.overflows_brackets Json.nestingLimit 0 rest

theorem load_check (check : Except ProgramError Program → Bool) (cs : List Char) (path : Text)
    (hlines : '\r' ∉ cs)
    (h : (Json.readText cs).toOption.any fun value => check (ofJson value)) :
    check (load path (cs.flatMap String.utf8EncodeChar)) := by
  cases hread : Json.readText cs with
  | error stop =>
    rw [hread] at h
    cases h
  | ok value =>
    rw [hread] at h
    rw [load_of_readText hlines hread]
    exact h

/-- All else that is wrong with a file is an error of the format. -/
theorem oversized_iff (path : Text) {bytes : List UInt8} {e : ProgramError} :
    Oversized bytes e ↔ load path bytes = .error e ∧ ∀ cause, e ≠ .format cause := by
  constructor
  · rintro (⟨hdecode, h⟩ | ⟨hdecode, h⟩ | ⟨hdecode, hread, h⟩)
    · rw [← String.toList_ofList (l := Text.unifyLineEnds _), ← Json.read_eq_integerTooLong] at h
      simp [load, hdecode, h, bind, Except.bind, Except.mapError]
    · rw [← String.toList_ofList (l := Text.unifyLineEnds _), ← Json.read_eq_nestedTooDeep] at h
      simp [load, hdecode, h, bind, Except.bind, Except.mapError]
    · simp [load, hdecode, hread, ofJson_of_offends h, bind, Except.bind, Except.mapError]
  · rintro ⟨hload, hother⟩
    cases hdecode : Text.decode bytes with
    | error fault =>
      simp only [load, hdecode, Except.mapError, bind, Except.bind] at hload
      cases hload
      exact absurd rfl (hother _)
    | ok text =>
      simp only [load, hdecode, Except.mapError, bind, Except.bind] at hload
      split at hload
      · next value hread =>
        have hoffends := ((decides_ofJson value).error_iff e).1 hload
        rcases hoffends.ofValue with rfl | ⟨cause, rfl⟩
        · exact .tooLarge hdecode hread hoffends
        · exact absurd rfl (hother cause)
      · next digits hread =>
        cases hload
        rw [Json.read_eq_integerTooLong, String.toList_ofList] at hread
        exact .tooLong hdecode hread
      · next container hread =>
        cases hload
        rw [Json.read_eq_nestedTooDeep, String.toList_ofList] at hread
        exact .tooDeep hdecode hread
      · cases hload
        exact absurd rfl (hother _)

end Program

theorem runFile_program_iff {path : Text} {bytes : List UInt8} {overrides : Table Quantity}
    {verbosity : Int} {e : ProgramError} :
    (runFile path bytes overrides verbosity).outcome = .error (.program e) ↔
      Program.load path bytes = .error e := by
  unfold runFile
  cases Program.load path bytes with
  | error e' => simp
  | ok program =>
    dsimp only
    split
    · simp
    · split <;> simp

/-! ## How files fail -/

namespace Run

theorem fault_of_evaluate {setting : Setting} (h : .unclassified ∉ setting.tape) {state : State}
    {e : Failure} (he : ((evaluate setting).outcome state).1 = .error e) :
    e = .unfinished ∨ ∃ fault, e = .fault fault := by
  obtain ⟨t, -, houtcome, -⟩ := evaluate_outcome setting state
  have harises := range_arises (Int.le_refl 0) (Int.le_refl _) t (houtcome.symm.trans he)
  cases e with
  | fault f => exact .inr ⟨f, rfl⟩
  | unfinished => exact .inl rfl
  | unclassifiedToken =>
    obtain ⟨k, hk⟩ := harises
    exact absurd (hk.mem (Int.le_refl 0) (Int.le_refl _)) h
  | noOperator => exact harises.elim
  | offsetOutOfRange => exact harises.elim

end Run

theorem fault_of_runFile {path : Text} {bytes : List UInt8} {overrides : Table Quantity}
    {verbosity : Int} {e : Failure}
    (h : (runFile path bytes overrides verbosity).outcome = .error (.failure e)) :
    e = .unfinished ∨ ∃ fault, e = .fault fault := by
  unfold runFile at h
  cases hload : Program.load path bytes with
  | error e' => simp [hload] at h
  | ok program =>
    simp only [hload] at h
    split at h
    · cases h
    · split at h
      · cases h
      · next houtcome =>
        cases h
        refine Run.fault_of_evaluate ?_ (Session.outcome_of_deliver houtcome)
        intro hmem
        exact (Program.load_tokens hload _ (List.mem_toArray.1 hmem)).1 rfl
      · cases h

/-! ## Listings -/

theorem CodePoint.value_inj {a b : CodePoint} (h : a.value = b.value) : a = b := by
  have hchar (c : Char) (s : Surrogate) : c.toNat ≠ s.value := by
    have hvalid : c.toNat < 0xD800 ∨ 0xDFFF < c.toNat ∧ c.toNat < 0x110000 := c.valid
    have hs := s.isLt
    unfold Surrogate.value
    omega
  cases a with
  | char c =>
    cases b with
    | char d => rw [Char.toNat_inj.1 h]
    | surrogate t => exact absurd h (hchar c t)
  | surrogate s =>
    cases b with
    | char d => exact absurd h.symm (hchar d s)
    | surrogate t =>
      have hvalue : 0xD800 + s.val = 0xD800 + t.val := h
      rw [Fin.ext (Nat.add_left_cancel hvalue)]

theorem Text.values_inj {s t : Text} (h : s.values = t.values) : s = t :=
  congrArg mk ((List.map_inj_right fun _ _ => CodePoint.value_inj).1 h)

namespace CommandLine

/-- A line for each variable, in strictly increasing order of their names. -/
def Lists (store : Store) (lines : List Text) : Prop :=
  ∃ sorted : List (Text × Binary64), sorted.Perm store.entries ∧
    sorted.Pairwise (fun a b => a.1 < b.1) ∧
    lines = sorted.map fun entry => (entry.1 ++ " = " ++ entry.2.display : Text)

theorem pairwise_sorted (store : Store) :
    (store.entries.mergeSort fun a b => a.1 ≤ b.1).Pairwise (fun a b => a.1 < b.1) := by
  have hperm := List.mergeSort_perm store.entries fun a b => a.1 ≤ b.1
  have hsorted : (store.entries.mergeSort fun a b => a.1 ≤ b.1).Pairwise
      (fun a b => decide (a.1 ≤ b.1)) := by
    apply List.pairwise_mergeSort
    · intro a b c hab hbc
      simp only [decide_eq_true_eq] at hab hbc ⊢
      exact List.le_trans hab hbc
    · intro a b
      simp only [Bool.or_eq_true, decide_eq_true_eq]
      exact List.le_total a.1.values b.1.values
  have hnames : (store.entries.mergeSort fun a b => a.1 ≤ b.1).Pairwise
      (fun a b => a.1 ≠ b.1) :=
    List.pairwise_map.1 ((hperm.map Prod.fst).nodup_iff.2 store.nodup)
  refine hsorted.imp₂ (fun a b hle hne => ?_) hnames
  refine Classical.not_not.1 fun hnot => hne (Text.values_inj ?_)
  exact List.le_antisymm (of_decide_eq_true hle) hnot

theorem lists_iff {store : Store} {lines : List Text} :
    Lists store lines ↔ lines = dumpLines store := by
  have hperm := List.mergeSort_perm store.entries fun a b => a.1 ≤ b.1
  constructor
  · rintro ⟨sorted, hsorted, hpairwise, rfl⟩
    have hasymm {s t : Text} (h : s < t) : ¬t < s := lt_asymm (show s.values < t.values from h)
    -- A strict order leaves a list only one arrangement
    have heq : sorted = store.entries.mergeSort fun a b => a.1 ≤ b.1 :=
      List.Perm.eq_of_pairwise (fun a b _ _ hab hba => absurd hab (hasymm hba)) hpairwise
        (pairwise_sorted store) (hsorted.trans hperm.symm)
    rw [heq]
    rfl
  · rintro rfl
    exact ⟨_, hperm, pairwise_sorted store, rfl⟩

theorem takes_dumpLines {output : Outlet} {store : Store} :
    (∀ line ∈ dumpLines store, output.Takes line) ↔ ∀ name ∈ store.names, output.Takes name := by
  have hline (entry : Text × Binary64) :
      output.Takes (entry.1 ++ " = " ++ entry.2.display) ↔ output.Takes entry.1 := by
    simp [Outlet.Takes, Text.points_append, Text.surrogate_not_mem]
  simp only [dumpLines, List.forall_mem_map, hline, List.mem_mergeSort, Table.names]

/-- Printing the variables ends at a line that the output refuses; `before` are the lines before
it. -/
def BreaksOff (output : Outlet) (store : Store) (before : List Text) (fault : EncodeFault) : Prop :=
  ∃ line behind, Lists store (before ++ line :: behind) ∧
    (∀ earlier ∈ before, output.Takes earlier) ∧ output.refusal? line = some fault

theorem breaksOff_iff {output : Outlet} {store : Store} {before : List Text}
    {fault : EncodeFault} :
    BreaksOff output store before fault ↔
      output.writeAll (dumpLines store) = (before, some fault) := by
  rw [Outlet.writeAll_eq_refused]
  simp only [BreaksOff, lists_iff, eq_comm]

theorem exists_breaksOff {output : Outlet} {store : Store} :
    (∃ before fault, BreaksOff output store before fault) ↔
      ¬∀ name ∈ store.names, output.Takes name := by
  simp only [breaksOff_iff]
  rw [← takes_dumpLines]
  constructor
  · rintro ⟨before, fault, hrefused⟩ htaken
    rw [Outlet.writeAll_eq_taken.2 ⟨rfl, htaken⟩] at hrefused
    cases hrefused
  · exact Outlet.exists_writeAll_refused

theorem taken_or_breaksOff (output : Outlet) (dump : Bool) (store : Store) :
    (dump = true → ∀ name ∈ store.names, output.Takes name) ∨
      ∃ before fault, dump = true ∧ BreaksOff output store before fault := by
  simp only [exists_and_left, exists_breaksOff]
  tauto

theorem lineText_cons (line : Text) (lines : List Text) :
    lineText (line :: lines) = line ++ "\n" ++ lineText lines :=
  rfl

/-! ## Answers -/

/-- The words ask to run a program file without a trace, and give a value to each variable that they
set. -/
structure Quiet (workspace : Workspace) (words : List Text) (options : Options)
    (pairs : List (Text × Binary64)) (bytes : List UInt8) : Prop where
  request : request words = .ok (.run options)
  verbosity : options.verbosity = 0
  assignments : options.assignments = pairs.map some
  source : workspace.source (normalizePath options.program) = .bytes bytes

/-- What is printed of a result and of the variables, as far as the output takes it. -/
def printed (output : Outlet) (dump : Bool) (result : Binary64) (store : Store) : Answer :=
  let (lines, refusal) := output.writeAll (if dump then dumpLines store else [])
  ⟨refusal.elim (.exit 0) fun fault => .escape (.refused fault),
    lineText (result.display :: lines), "", none⟩

/-- The answer to a command says what running its file came to. -/
inductive Reports (output : Outlet) (dump : Bool) (answer : Answer)
    (outcome : Except FileRunError (Binary64 × Store)) : Prop
  | result {result : Binary64} {store : Store} (houtcome : outcome = .ok (result, store))
      (hanswer : answer = printed output dump result store)
  | format {error : FormatError} (houtcome : outcome = .error (.program (.format error)))
      (hanswer : answer = .exit 1 "" ("Error: " ++ error.message ++ "\n"))
  | fault {fault : Fault} (houtcome : outcome = .error (.failure (.fault fault)))
      (hanswer : answer = .exit 1 "" ("Runtime error: " ++ fault.report.text ++ "\n"))
  | program {error : ProgramError} (houtcome : outcome = .error (.program error))
      (hother : ∀ cause, error ≠ .format cause) (hanswer : answer = .escape (.program error))
  | failure {failure : Failure} (houtcome : outcome = .error (.failure failure))
      (hother : ∀ cause, failure ≠ .fault cause) (hanswer : answer = .escape (.failure failure))

section Printed

variable {output : Outlet} {dump : Bool} {result : Binary64} {store : Store}

theorem printed_taken (result : Binary64)
    (h : dump = true → ∀ name ∈ store.names, output.Takes name) :
    printed output dump result store =
      .exit 0 (lineText (result.display :: if dump then dumpLines store else [])) "" := by
  have hwrite : output.writeAll (if dump then dumpLines store else []) =
      (if dump then dumpLines store else [], none) := by
    refine Outlet.writeAll_eq_taken.2 ⟨rfl, ?_⟩
    split
    · next hdump => exact takes_dumpLines.2 (h hdump)
    · simp
  simp only [printed, hwrite]
  rfl

theorem printed_refused (result : Binary64) {before : List Text} {fault : EncodeFault}
    (hdump : dump = true) (h : BreaksOff output store before fault) :
    printed output dump result store =
      ⟨.escape (.refused fault), lineText (result.display :: before), "", none⟩ := by
  rw [breaksOff_iff] at h
  simp only [printed, hdump, if_true, h]
  rfl

theorem printed_eq_exit {status : Nat} {text errors : Text} :
    printed output dump result store = .exit status text errors ↔
      (dump = true → ∀ name ∈ store.names, output.Takes name) ∧ status = 0 ∧
        text = lineText (result.display :: if dump then dumpLines store else []) ∧ errors = "" := by
  rcases taken_or_breaksOff output dump store with htaken | ⟨before, fault, hdump, hbreaks⟩
  · rw [printed_taken result htaken]
    simp only [Answer.exit, Answer.mk.injEq, Ending.exit.injEq, eq_comm]
    tauto
  · have hrefused := exists_breaksOff.1 ⟨before, fault, hbreaks⟩
    rw [printed_refused result hdump hbreaks]
    simp only [Answer.exit, Answer.mk.injEq]
    tauto

theorem printed_eq_escape {escape : Escape} {text : Text} :
    printed output dump result store = ⟨.escape escape, text, "", none⟩ ↔
      ∃ before fault, dump = true ∧ BreaksOff output store before fault ∧
        escape = .refused fault ∧ text = lineText (result.display :: before) := by
  constructor
  · intro h
    rcases taken_or_breaksOff output dump store with htaken | ⟨before, fault, hdump, hbreaks⟩
    · rw [printed_taken result htaken] at h
      cases h
    · rw [printed_refused result hdump hbreaks] at h
      cases h
      exact ⟨before, fault, hdump, hbreaks, rfl, rfl⟩
  · rintro ⟨before, fault, hdump, hbreaks, rfl, rfl⟩
    exact printed_refused result hdump hbreaks

theorem ending_printed {escape : Escape} :
    (printed output dump result store).ending = .escape escape ↔
      ∃ before fault, dump = true ∧ BreaksOff output store before fault ∧
        escape = .refused fault := by
  constructor
  · intro h
    have heq : printed output dump result store =
        ⟨.escape escape, (printed output dump result store).output, "", none⟩ := by
      rw [← h]
      rfl
    obtain ⟨before, fault, hdump, hbreaks, rfl, -⟩ := printed_eq_escape.1 heq
    exact ⟨before, fault, hdump, hbreaks, rfl⟩
  · rintro ⟨before, fault, hdump, hbreaks, rfl⟩
    rw [printed_refused result hdump hbreaks]

end Printed

/-- The result is on the output, or a message is among the errors. -/
def Reported (answer : Answer) (outcome : Except FileRunError (Binary64 × Store)) : Prop :=
  (∃ result store rest, outcome = .ok (result, store) ∧
    answer = .exit 0 (result.display ++ "\n" ++ rest) "") ∨
  ∃ message, answer = .exit 1 "" ("Error: " ++ message) ∨
    answer = .exit 1 "" ("Runtime error: " ++ message)

namespace Answer

@[simp]
theorem exit_inj {status status' : Nat} {output output' errors errors' : Text} :
    exit status output errors = exit status' output' errors' ↔
      status = status' ∧ output = output' ∧ errors = errors' := by
  simp [exit]

@[simp]
theorem ending_exit (status : Nat) (output errors : Text) :
    (exit status output errors).ending = .exit status :=
  rfl

@[simp]
theorem ending_escape (error : Escape) : (escape error).ending = .escape error :=
  rfl

@[simp]
theorem escape_ne_exit {status : Nat} {output errors : Text} {error : Escape} :
    escape error ≠ exit status output errors := by
  simp [exit, escape]

end Answer

namespace Reports

variable {output : Outlet} {dump : Bool} {answer : Answer}
  {outcome : Except FileRunError (Binary64 × Store)}

theorem result_iff (h : Reports output dump answer outcome) (text : Text) :
    answer = .exit 0 text "" ↔
      ∃ result store lines, outcome = .ok (result, store) ∧ Lists store lines ∧
        (dump = true → ∀ name ∈ store.names, output.Takes name) ∧
        text = lineText (result.display :: if dump then lines else []) := by
  cases h with
  | result houtcome hanswer =>
    subst houtcome hanswer
    rw [printed_eq_exit]
    simp [lists_iff, and_assoc]
  | format houtcome hanswer => simp [houtcome, hanswer]
  | fault houtcome hanswer => simp [houtcome, hanswer]
  | program houtcome hother hanswer => simp [houtcome, hanswer]
  | failure houtcome hother hanswer => simp [houtcome, hanswer]

theorem label_ne (a b : Text) : ("Runtime error: " ++ a : Text) ≠ "Error: " ++ b := by
  intro h
  have hhead := congrArg (fun text : Text => text.points.head?) h
  cases hhead

theorem format_iff (h : Reports output dump answer outcome) (message : Text) :
    answer = .exit 1 "" ("Error: " ++ message ++ "\n") ↔
      ∃ error, outcome = .error (.program (.format error)) ∧ error.message = message := by
  cases h with
  | result houtcome hanswer => simp [houtcome, hanswer, printed_eq_exit]
  | format houtcome hanswer => simp [houtcome, hanswer]
  | fault houtcome hanswer => simp [houtcome, hanswer, label_ne]
  | program houtcome hother hanswer => simp [houtcome, hother, hanswer]
  | failure houtcome hother hanswer => simp [houtcome, hanswer]

theorem fault_iff (h : Reports output dump answer outcome) (message : Text) :
    answer = .exit 1 "" ("Runtime error: " ++ message ++ "\n") ↔
      ∃ fault, outcome = .error (.failure (.fault fault)) ∧ fault.report.text = message := by
  cases h with
  | result houtcome hanswer => simp [houtcome, hanswer, printed_eq_exit]
  | format houtcome hanswer => simp [houtcome, hanswer, (label_ne _ _).symm]
  | fault houtcome hanswer => simp [houtcome, hanswer]
  | program houtcome hother hanswer => simp [houtcome, hanswer]
  | failure houtcome hother hanswer => simp [houtcome, hother, hanswer]

theorem escape_iff (h : Reports output dump answer outcome) (escape : Escape) (text : Text) :
    answer = ⟨.escape escape, text, "", none⟩ ↔
      (∃ error, outcome = .error (.program error) ∧ (∀ cause, error ≠ .format cause) ∧
        escape = .program error ∧ text = "") ∨
      (∃ failure, outcome = .error (.failure failure) ∧ (∀ cause, failure ≠ .fault cause) ∧
        escape = .failure failure ∧ text = "") ∨
      ∃ result store before fault, outcome = .ok (result, store) ∧ dump = true ∧
        BreaksOff output store before fault ∧ escape = .refused fault ∧
        text = lineText (result.display :: before) := by
  cases h with
  | result houtcome hanswer => simp [houtcome, hanswer, printed_eq_escape]
  | format houtcome hanswer => simp [houtcome, hanswer, Answer.exit]
  | fault houtcome hanswer => simp [houtcome, hanswer, Answer.exit]
  | program houtcome hother hanswer =>
    simp [houtcome, hother, hanswer, Answer.escape, eq_comm]
  | failure houtcome hother hanswer =>
    simp [houtcome, hother, hanswer, Answer.escape, eq_comm]

theorem ne_quantity (h : Reports output dump answer outcome) (error : QuantityError) :
    outcome ≠ .error (.quantity error) := by
  cases h with
  | result houtcome => simp [houtcome]
  | format houtcome | fault houtcome | program houtcome | failure houtcome => simp [houtcome]

theorem ne_refused (h : Reports output dump answer outcome) (fault : EncodeFault) :
    outcome ≠ .error (.refused fault) := by
  cases h with
  | result houtcome => simp [houtcome]
  | format houtcome | fault houtcome | program houtcome | failure houtcome => simp [houtcome]

theorem ending_iff (h : Reports output dump answer outcome) (escape : Escape) :
    answer.ending = .escape escape ↔
      (∃ error, outcome = .error (.program error) ∧ (∀ cause, error ≠ .format cause) ∧
        escape = .program error) ∨
      (∃ failure, outcome = .error (.failure failure) ∧ (∀ cause, failure ≠ .fault cause) ∧
        escape = .failure failure) ∨
      ∃ result store before fault, outcome = .ok (result, store) ∧ dump = true ∧
        BreaksOff output store before fault ∧ escape = .refused fault := by
  cases h with
  | result houtcome hanswer => simp [houtcome, hanswer, ending_printed]
  | format houtcome hanswer => simp [houtcome, hanswer]
  | fault houtcome hanswer => simp [houtcome, hanswer]
  | program houtcome hother hanswer => simp [houtcome, hother, hanswer, eq_comm]
  | failure houtcome hother hanswer => simp [houtcome, hother, hanswer, eq_comm]

theorem reported_iff (h : Reports output dump answer outcome) :
    Reported answer outcome ↔ ∀ escape, answer.ending ≠ .escape escape := by
  cases h with
  | @result result store houtcome hanswer =>
    rcases taken_or_breaksOff output dump store with htaken | ⟨before, fault, hdump, hbreaks⟩
    · have hexit := hanswer.trans (printed_taken result htaken)
      rw [lineText_cons] at hexit
      exact iff_of_true (.inl ⟨_, _, _, houtcome, hexit⟩) (by simp [hexit])
    · have hescape := hanswer.trans (printed_refused result hdump hbreaks)
      refine iff_of_false ?_ fun hnone => hnone (.refused fault) (by rw [hescape])
      simp [Reported, hescape, Answer.exit]
  | format houtcome hanswer =>
    rw [Text.append_assoc] at hanswer
    exact iff_of_true (.inr ⟨_, .inl hanswer⟩) (by simp [hanswer])
  | fault houtcome hanswer =>
    rw [Text.append_assoc] at hanswer
    exact iff_of_true (.inr ⟨_, .inr hanswer⟩) (by simp [hanswer])
  | program houtcome hother hanswer => simp [Reported, hanswer]
  | failure houtcome hother hanswer => simp [Reported, hanswer]

end Reports

/-- Nothing of a quiet run shows but its result and its variables, wherever a trace would go. -/
theorem run_quiet (program : Program) (file : Option Text) (output : Outlet) :
    let run := (Session.start program.store 0 none).evaluate program.tokens.toArray
    program.run 0 file output = ⟨run.outcome.mapError .error, run.session, #[]⟩ ∧
      run.session.sink = .output := by
  intro run
  have htrace : run.trace = #[] :=
    Run.trace_evaluate ⟨program.tokens.toArray, 0, roundLimit⟩ (Int.le_refl 0) program.store
  have hstart : Session.start program.store 0 file = Session.start program.store 0 none := by
    cases file <;> rfl
  refine ⟨?_, rfl⟩
  unfold Program.run
  rw [hstart, Session.deliver_of_taken _ _ (by rw [htrace]; simp), htrace]

section Quiet

variable {workspace : Workspace} {words : List Text} {options : Options}
  {pairs : List (Text × Binary64)} {bytes : List UInt8}

theorem run_reports (output : Outlet) (h : Quiet workspace words options pairs bytes) :
    Reports output options.dump (run output workspace words)
      (runFile (normalizePath options.program) bytes (Store.quantities (.ofList pairs))
        0).outcome := by
  have hpresent : options.assignments.findIdx? (·.isNone) = none := by simp [h.assignments]
  have hpairs : options.assignments.filterMap id = pairs := by simp [h.assignments]
  simp only [run, h.request, h.source, perform, runFile]
  cases hload : Program.load (normalizePath options.program) bytes with
  | error e =>
    cases e with
    | format error => exact .format rfl rfl
    | integerTooLarge => exact .program rfl (by simp) rfl
    | integerTooLong digits => exact .program rfl (by simp) rfl
    | nestedTooDeep container => exact .program rfl (by simp) rfl
  | ok program =>
    have hsink : Session.sinkFor 0 (some options.debugFile) = .output := rfl
    have hrun (file : Option Text) (output : Outlet) :=
      (run_quiet (program.override (Table.ofList pairs)) file output).1
    have hoff := (run_quiet (program.override (Table.ofList pairs)) none output).2
    simp only [hpresent, h.verbosity, Nat.cast_zero, hsink, runProgram, hpairs, hrun, hoff,
      Store.ofTable_quantities]
    cases houtcome : ((Session.start (program.override (Table.ofList pairs)).store 0 none).evaluate
        (program.override (Table.ofList pairs)).tokens.toArray).outcome with
    | ok result =>
      have htaken : output.refusal? (.ofString result.display) = none :=
        Outlet.refusal?_eq_none.2 fun s hs => absurd hs (Text.surrogate_not_mem _ s)
      refine .result rfl ?_
      simp only [Except.mapError, Outlet.writeAll_cons_taken htaken]
      rfl
    | error failure =>
      cases failure with
      | fault fault => exact .fault rfl rfl
      | unclassifiedToken | noOperator | offsetOutOfRange | unfinished =>
        exact .failure rfl (by simp) rfl

theorem runFile_starts {path : Text} {overrides store : Store} {result : Binary64}
    (h : (runFile path bytes overrides.quantities 0).outcome = .ok (result, store)) :
    ∃ program start, Program.load path bytes = .ok program ∧
      start.names = program.store.names ++ overrides.names.filter (· ∉ program.store.names) ∧
      (∀ name, start.get? name = (overrides.get? name).or (program.store.get? name)) ∧
      ((Session.start start 0 none).evaluate program.tokens.toArray).outcome = .ok result ∧
      ((Session.start start 0 none).evaluate program.tokens.toArray).session.store = store := by
  unfold runFile at h
  cases hload : Program.load path bytes with
  | error e => simp [hload] at h
  | ok program =>
    simp only [hload, Store.ofTable_quantities,
      (run_quiet (program.override overrides) (some Session.defaultFile) .utf8).1] at h
    refine ⟨program, program.store.insertAll overrides.entries, rfl,
      Table.names_insertAll _ overrides.nodup, Table.get?_insertAll_entries _ _, ?_⟩
    cases houtcome : ((Session.start (program.override overrides).store 0 none).evaluate
        (program.override overrides).tokens.toArray).outcome with
    | ok value =>
      rw [houtcome] at h
      cases h
      exact ⟨houtcome, rfl⟩
    | error failure =>
      rw [houtcome] at h
      cases h

/-- A command answers with what running its file comes to, and the file is run with the last value
that the words give to each variable. Only where a variable is to be printed whose name the output
does not take, the command ends there. -/
theorem run_runFile_iff (output : Outlet) (h : Quiet workspace words options pairs bytes)
    (hpath : normalizePath options.program = options.program) :
    let overrides : Store := .ofList pairs
    let outcome := (runFile options.program bytes overrides.quantities 0).outcome
    let answer := run output workspace words
    (∀ text, answer = .exit 0 text "" ↔
        ∃ result store lines, outcome = .ok (result, store) ∧ Lists store lines ∧
          (options.dump = true → ∀ name ∈ store.names, output.Takes name) ∧
          text = lineText (result.display :: if options.dump then lines else [])) ∧
      (∀ message, answer = .exit 1 "" ("Error: " ++ message ++ "\n") ↔
        ∃ error, outcome = .error (.program (.format error)) ∧ error.message = message) ∧
      (∀ message, answer = .exit 1 "" ("Runtime error: " ++ message ++ "\n") ↔
        ∃ fault, outcome = .error (.failure (.fault fault)) ∧ fault.report.text = message) ∧
      (∀ escape text, answer = ⟨.escape escape, text, "", none⟩ ↔
        (∃ error, outcome = .error (.program error) ∧ (∀ cause, error ≠ .format cause) ∧
          escape = .program error ∧ text = "") ∨
        (∃ failure, outcome = .error (.failure failure) ∧ (∀ cause, failure ≠ .fault cause) ∧
          escape = .failure failure ∧ text = "") ∨
        ∃ result store before fault, outcome = .ok (result, store) ∧ options.dump = true ∧
          BreaksOff output store before fault ∧ escape = .refused fault ∧
          text = lineText (result.display :: before)) ∧
      (∀ error, outcome ≠ .error (.quantity error)) ∧
      (∀ fault, outcome ≠ .error (.refused fault)) ∧
      (∀ name, overrides.get? name = pairs.reverse.lookup name) ∧
      ∀ result store, outcome = .ok (result, store) →
        ∃ program start, Program.load options.program bytes = .ok program ∧
          start.names = program.store.names ++ overrides.names.filter (· ∉ program.store.names) ∧
          (∀ name, start.get? name = (overrides.get? name).or (program.store.get? name)) ∧
          ((Session.start start 0 none).evaluate program.tokens.toArray).outcome = .ok result ∧
          ((Session.start start 0 none).evaluate program.tokens.toArray).session.store = store := by
  have hreports := run_reports output h
  rw [hpath] at hreports
  exact ⟨hreports.result_iff, hreports.format_iff, hreports.fault_iff, hreports.escape_iff,
    hreports.ne_quantity, hreports.ne_refused, Table.get?_ofList pairs, fun _ _ => runFile_starts⟩

theorem run_runFile_twice :
    run .utf8 ⟨.ofList [("p", "[\x7b\"type\": \"Variable\", \"name\": \"x\"\x7d]".toList.flatMap
        String.utf8EncodeChar)]⟩ ["p", "--var", "x=nan", "--dump", "--var", "x=inf"] =
      .exit 0 "inf\nx = inf\n" "" := by
  have hload : Program.load "p" ("[\x7b\"type\": \"Variable\", \"name\": \"x\"\x7d]".toList.flatMap
      String.utf8EncodeChar) = .ok ⟨[.reference "x"], .empty⟩ := by
    cbv
  generalize "[\x7b\"type\": \"Variable\", \"name\": \"x\"\x7d]".toList.flatMap
    String.utf8EncodeChar = bytes at hload ⊢
  let pairs : List (Text × Binary64) := [("x", .nan), ("x", .infinite false)]
  have hquiet : Quiet ⟨.ofList [("p", bytes)]⟩ ["p", "--var", "x=nan", "--dump", "--var", "x=inf"]
      ⟨"p", 0, pairs.map some, true, "debug.txt"⟩ pairs bytes :=
    ⟨by decide +kernel, rfl, rfl, by cbv⟩
  have hpath : normalizePath "p" = "p" := by cbv
  have houtcome : (runFile "p" bytes (Store.quantities (.ofList pairs)) 0).outcome =
      .ok (.infinite false, .ofList [("x", .infinite false)]) := by
    simp only [runFile, hload, Store.ofTable_quantities, run_quiet, Session.evaluate,
      Session.perform]
    generalize roundLimit = rounds
    cbv
  refine ((run_runFile_iff .utf8 hquiet hpath).1 _).2
    ⟨.infinite false, .ofList [("x", .infinite false)], ["x = inf"], houtcome, ?_, ?_, ?_⟩
  · exact ⟨[("x", .infinite false)], .refl _, List.pairwise_singleton _ _, by cbv⟩
  · simp only [← Outlet.refusal?_eq_none]
    decide +kernel
  · cbv

/-- The file declares a variable with a surrogate for a name. It runs, and the command ends where
the variable is to be printed. -/
theorem run_surrogate_escapes :
    let cs := ("\x7b\"type\":\"Program\",\"variables\":\x7b\"\\ud800\":1\x7d," ++
      "\"tokens\":[]\x7d").toList
    let bytes := cs.flatMap String.utf8EncodeChar
    let store : Store := .ofList [(⟨[.surrogate 0]⟩, 1)]
    (runFile "p" bytes .empty 0).outcome = .ok (0, store) ∧
      run .utf8 ⟨.ofList [("p", bytes)]⟩ ["p", "--dump"] =
        ⟨.escape (.refused ⟨0, 0, 1⟩), "0\n", "", none⟩ := by
  intro cs bytes store
  have hload : Program.load "p" bytes = .ok ⟨[], store⟩ := by
    have hcheck := Program.load_check (fun loaded => loaded.toOption.any fun program =>
      program.tokens = [] && program.store.entries = [(⟨[.surrogate 0]⟩, 1)]) cs "p"
      (by decide +kernel) (by decide +kernel)
    change (Program.load "p" bytes).toOption.any _ = true at hcheck
    cases hloaded : Program.load "p" bytes with
    | error e =>
      rw [hloaded] at hcheck
      cases hcheck
    | ok program =>
      obtain ⟨tokens, entries, hnodup⟩ := program
      simp only [hloaded, Except.toOption, Option.any_some, Bool.and_eq_true,
        decide_eq_true_eq] at hcheck
      obtain ⟨rfl, rfl⟩ := hcheck
      rfl
  clear_value bytes
  have hquiet : Quiet ⟨.ofList [("p", bytes)]⟩ ["p", "--dump"] ⟨"p", 0, [], true, "debug.txt"⟩ []
      bytes :=
    ⟨by decide +kernel, rfl, rfl, by cbv⟩
  have houtcome : (runFile "p" bytes (Store.quantities (.ofList [])) 0).outcome =
      .ok (0, store) := by
    simp only [runFile, hload, Store.ofTable_quantities, run_quiet, Session.evaluate,
      Session.perform]
    generalize roundLimit = rounds
    cbv
  refine ⟨houtcome, ((run_reports .utf8 hquiet).escape_iff _ _).2 (.inr (.inr
    ⟨0, store, [], ⟨0, 0, 1⟩, houtcome, rfl, ?_, rfl, by decide +kernel⟩))⟩
  rw [breaksOff_iff]
  decide +kernel

/-- Whatever the file holds, a command that ends does so with a result or a report, unless the file
goes beyond a limit, or a variable is to be printed whose name the output does not take. Then that
is the error that it ends with. -/
theorem run_reported_iff (output : Outlet) (h : Quiet workspace words options pairs bytes)
    (hfinished : (run output workspace words).ending ≠ .escape (.failure .unfinished)) :
    let outcome := (runFile (normalizePath options.program) bytes (Store.quantities (.ofList pairs))
      0).outcome
    let answer := run output workspace words
    (Reported answer outcome ↔ (¬∃ error, Program.Oversized bytes error) ∧
      ∀ result store, outcome = .ok (result, store) → options.dump = true →
        ∀ name ∈ store.names, output.Takes name) ∧
    ∀ escape, answer.ending = .escape escape ↔
      (∃ error, Program.Oversized bytes error ∧ escape = .program error) ∨
      ∃ result store before fault, outcome = .ok (result, store) ∧ options.dump = true ∧
        BreaksOff output store before fault ∧ escape = .refused fault := by
  intro outcome answer
  have hreports := run_reports output h
  have hescape (escape : Escape) : answer.ending = .escape escape ↔
      (∃ error, Program.Oversized bytes error ∧ escape = .program error) ∨
      ∃ result store before fault, outcome = .ok (result, store) ∧ options.dump = true ∧
        BreaksOff output store before fault ∧ escape = .refused fault := by
    rw [hreports.ending_iff]
    constructor
    · rintro (⟨error, houtcome, hother, rfl⟩ | ⟨failure, houtcome, hother, rfl⟩ | hrefused)
      · have hoversized := (Program.oversized_iff _).2 ⟨runFile_program_iff.1 houtcome, hother⟩
        exact .inl ⟨error, hoversized, rfl⟩
      · rcases fault_of_runFile houtcome with rfl | ⟨fault, rfl⟩
        · have hending := (hreports.ending_iff _).2 (.inr (.inl ⟨_, houtcome, hother, rfl⟩))
          exact absurd hending hfinished
        · exact absurd rfl (hother fault)
      · exact .inr hrefused
    · rintro (⟨error, hoversized, rfl⟩ | hrefused)
      · obtain ⟨hload, hother⟩ := (Program.oversized_iff _).1 hoversized
        exact .inl ⟨error, runFile_program_iff.2 hload, hother, rfl⟩
      · exact .inr (.inr hrefused)
  refine ⟨?_, hescape⟩
  rw [hreports.reported_iff]
  constructor
  · intro hnone
    refine ⟨?_, fun result store houtcome hdump => ?_⟩
    · rintro ⟨error, hoversized⟩
      exact hnone _ ((hescape _).2 (.inl ⟨error, hoversized, rfl⟩))
    · by_contra htaken
      obtain ⟨before, fault, hbreaks⟩ := exists_breaksOff.2 htaken
      exact hnone _ ((hescape _).2
        (.inr ⟨result, store, before, fault, houtcome, hdump, hbreaks, rfl⟩))
  · rintro ⟨hsmall, htaken⟩ escape hending
    rcases (hescape escape).1 hending with ⟨error, hoversized, -⟩ |
      ⟨result, store, before, fault, houtcome, hdump, hbreaks, -⟩
    · exact hsmall ⟨error, hoversized⟩
    · exact exists_breaksOff.1 ⟨before, fault, hbreaks⟩ (htaken result store houtcome hdump)

theorem quiet_program (bytes : List UInt8) :
    Quiet ⟨.ofList [("p", bytes)]⟩ ["p"] ⟨"p", 0, [], false, "debug.txt"⟩ [] bytes :=
  ⟨by decide +kernel, rfl, rfl, by cbv⟩

theorem run_reported_cut_off :
    let message : Text := "p is not valid JSON: Expecting value: line 1 column 2 (char 1)"
    run .utf8 ⟨.ofList [("p", [91])]⟩ ["p"] = .exit 1 "" ("Error: " ++ message ++ "\n") ∧
      ¬∃ error, Program.Oversized [91] error := by
  intro message
  have hquiet := quiet_program [91]
  have hload : Program.load (normalizePath "p") [91] =
      .error (.format (.notJson "p" (.malformed .valueExpected ⟨1, 1, 2⟩))) := by
    cbv
  have hanswer := ((run_reports .utf8 hquiet).format_iff message).2
    ⟨_, runFile_program_iff.2 hload, by decide +kernel⟩
  refine ⟨hanswer, ((run_reported_iff .utf8 hquiet ?_).1.1 ?_).1⟩
  · simp [hanswer]
  · rw [Text.append_assoc] at hanswer
    exact .inr ⟨_, .inl hanswer⟩

/-- The errors of an integer of 310 digits and of a thousand brackets are not reported. -/
theorem run_oversized_escapes :
    let cs := "[\x7b\"type\": \"Number\", \"value\": 1".toList ++ .replicate 309 '0' ++
      "\x7d]".toList
    let brackets := List.replicate 1000 '['
    run .utf8 ⟨.ofList [("p", cs.flatMap String.utf8EncodeChar)]⟩ ["p"] =
        .escape (.program .integerTooLarge) ∧
      run .utf8 ⟨.ofList [("p", brackets.flatMap String.utf8EncodeChar)]⟩ ["p"] =
        .escape (.program (.nestedTooDeep .array)) := by
  intro cs brackets
  have hcheck := Program.load_check (fun loaded =>
      match loaded with
      | .error .integerTooLarge => true
      | .error (.format _) | .error (.integerTooLong _) | .error (.nestedTooDeep _)
      | .ok _ => false) cs (normalizePath "p") (by decide +kernel) (by decide +kernel)
  have hlarge : Program.load (normalizePath "p") (cs.flatMap String.utf8EncodeChar) =
      .error .integerTooLarge := by
    split at hcheck
    · next h => exact h
    all_goals cases hcheck
  have hdeep : Program.load (normalizePath "p") (brackets.flatMap String.utf8EncodeChar) =
      .error (.nestedTooDeep .array) := by
    have hbrackets : brackets = .replicate (Json.nestingLimit + 1) '[' ++ .replicate 10 '[' := by
      rw [List.replicate_append_replicate, Json.nestingLimit]
    rw [hbrackets]
    exact ((Program.oversized_iff _).1 (Program.oversized_brackets (by simp))).1
  exact ⟨((run_reports .utf8 (quiet_program _)).escape_iff _ _).2
      (.inl ⟨_, runFile_program_iff.2 hlarge, by simp, rfl, rfl⟩),
    ((run_reports .utf8 (quiet_program _)).escape_iff _ _).2
      (.inl ⟨_, runFile_program_iff.2 hdeep, by simp, rfl, rfl⟩)⟩

end Quiet

end CommandLine

end TokenTape

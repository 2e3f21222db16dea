import Mathlib
import TokenTape.Proofs.Overflow
import TokenTape.Store.Request

/-!
# What a store holds

The writes that a store has accepted tell everything about it. A name holds what was written to it
last, and the names stand in the order in which they were first written. A write that is refused is
as good as none.
-/

namespace TokenTape

/-! ## Tables -/

namespace Table

variable {α : Type}

theorem insertAll_append (t : Table α) (before behind : List (Text × α)) :
    t.insertAll (before ++ behind) = (t.insertAll before).insertAll behind :=
  List.foldl_append

theorem names_ofList (entries : List (Text × α)) :
    (ofList entries).names = (entries.map Prod.fst).eraseDups := by
  induction entries using List.reverseRecOn with
  | nil => rfl
  | append_singleton entries entry ih =>
    have hlast : ofList (entries ++ [entry]) = (ofList entries).insert entry.1 entry.2 :=
      insertAll_append empty entries [entry]
    rw [hlast, names_insert, ih, List.map_append, List.map_singleton, List.eraseDups_append]
    simp only [List.mem_eraseDups, List.removeAll, List.filter_cons, List.filter_nil]
    by_cases hmem : entry.1 ∈ entries.map Prod.fst
    · simp [hmem]
    · simp [hmem, List.eraseDups_cons]

theorem get?_of_mem (t : Table α) {entry : Text × α} (h : entry ∈ t.entries) :
    t.get? entry.1 = some entry.2 := by
  obtain ⟨before, behind, hentries⟩ := List.append_of_mem h
  refine List.lookup_eq_some_iff.2 ⟨before, behind, hentries, fun other hother => ?_⟩
  have hnodup := t.nodup
  rw [hentries, List.map_append, List.map_cons, List.nodup_append] at hnodup
  simpa using (hnodup.2.2 other.1 (List.mem_map_of_mem hother) entry.1 List.mem_cons_self).symm

theorem entries_eq (t : Table α) :
    t.entries = t.names.filterMap fun name => (t.get? name).map (name, ·) := by
  rw [names, List.filterMap_map]
  have hentry : ∀ entry ∈ t.entries,
      ((fun name => (t.get? name).map (name, ·)) ∘ Prod.fst) entry = some entry := by
    intro entry hmem
    simp [t.get?_of_mem hmem]
  rw [List.filterMap_congr hentry, List.filterMap_some]

end Table

/-! ## Accepted writes -/

/-- The number that a quantity stands for. An integer that would be rounded to `2 ^ 1024` or beyond
stands for none. -/
def Quantity.number? : Quantity → Option Binary64
  | number value => some value
  | integer n => if n.natAbs < Binary64.integerLimit then some (.ofInt n) else none

namespace Store

/-- The write that a request asks for. -/
def Request.write? : Request → Option (Text × Quantity)
  | assign name quantity => some (name, quantity)
  | lookup _ | contains _ | size | names | snapshot => none

/-- The numbers that writes leave behind, in the same order. -/
def accepted (writes : List (Text × Quantity)) : List (Text × Binary64) :=
  writes.filterMap fun write => write.2.number?.map (write.1, ·)

theorem assign_eq (store : Store) (name : Text) (quantity : Quantity) :
    store.assign name quantity =
      quantity.number?.elim (.error .tooLarge) fun value => .ok (store.insert name value) := by
  unfold assign Quantity.toNumber Quantity.number?
  cases quantity with
  | number value => rfl
  | integer n =>
    simp only [Binary64.ofInt?_eq]
    split <;> rfl

theorem ofTable_accepted {table : Table Quantity}
    (h : ∀ entry ∈ table.entries, entry.2.number?.isSome) :
    ofTable table = .ok (.ofList (accepted table.entries)) := by
  have hwrite (entries : List (Text × Quantity)) (store : Store)
      (hentries : ∀ entry ∈ entries, entry.2.number?.isSome) :
      entries.foldlM (fun store entry => store.assign entry.1 entry.2) store =
        .ok (store.insertAll (accepted entries)) := by
    induction entries generalizing store with
    | nil => rfl
    | cons entry rest ih =>
      rw [List.forall_mem_cons] at hentries
      obtain ⟨value, hvalue⟩ := Option.isSome_iff_exists.1 hentries.1
      have haccepted : accepted (entry :: rest) = (entry.1, value) :: accepted rest := by
        simp [accepted, hvalue]
      rw [List.foldlM_cons, assign_eq, hvalue, haccepted]
      exact ih (store.insert entry.1 value) hentries.2
  exact hwrite table.entries Table.empty h

theorem request_store (store : Store) (next : Request) :
    (store.request next).2 = store.insertAll (accepted next.write?.toList) := by
  cases next with
  | assign name quantity =>
    simp only [request, assign_eq, Request.write?, Option.toList_some, accepted,
      List.filterMap_cons, List.filterMap_nil]
    cases quantity.number? <;> rfl
  | lookup name =>
    unfold request
    dsimp only
    split <;> rfl
  | contains name | size | names | snapshot => rfl

theorem requests_cons (store : Store) (next : Request) (rest : List Request) :
    store.requests (next :: rest) =
      ((store.request next).1 :: ((store.request next).2.requests rest).1,
        ((store.request next).2.requests rest).2) := rfl

theorem requests_store (store : Store) (asked : List Request) :
    (store.requests asked).2 = store.insertAll (accepted (asked.filterMap Request.write?)) := by
  induction asked generalizing store with
  | nil => rfl
  | cons next rest ih =>
    rw [requests_cons, ih, request_store, ← Table.insertAll_append]
    congr 1
    unfold accepted
    rw [← List.filterMap_append]
    congr 1
    rw [List.filterMap_cons]
    cases next.write? <;> rfl

theorem requests_answer (store : Store) (before behind : List Request) (next : Request) :
    (store.requests (before ++ next :: behind)).1[before.length]? =
      some ((store.requests before).2.request next).1 := by
  induction before generalizing store with
  | nil => rfl
  | cons first rest ih =>
    rw [List.cons_append, requests_cons, requests_cons]
    exact ih (store.request first).2

/-! ## Answers from the writes -/

/-- What was written to a name last. -/
def lastWrite? (log : List (Text × Binary64)) (name : Text) : Option Binary64 :=
  log.reverse.lookup name

/-- The names in the order in which they were first written. -/
def firstWrites (log : List (Text × Binary64)) : List Text :=
  (log.map Prod.fst).eraseDups

/-- The answers that accepted writes call for. -/
def answerTo (log : List (Text × Binary64)) : Request → Answer
  | .assign _ quantity => if quantity.number?.isSome then .done else .refused .tooLarge
  | .lookup name =>
    match lastWrite? log name with
    | some value => .number value
    | none => .failed (.fault (.undefinedVariable name))
  | .contains name => .truth (lastWrite? log name).isSome
  | .size => .count (firstWrites log).length
  | .names => .names (firstWrites log)
  | .snapshot =>
    .entries ((firstWrites log).filterMap fun name => (lastWrite? log name).map (name, ·))

theorem firstWrites_nodup (log : List (Text × Binary64)) : (firstWrites log).Nodup := by
  unfold firstWrites
  rw [← Table.names_ofList]
  exact (Table.ofList log).nodup

theorem request_answer (log : List (Text × Binary64)) (next : Request) :
    (request (.ofList log) next).1 = answerTo log next := by
  have hget (name : Text) : Table.get? (.ofList log) name = lastWrite? log name :=
    Table.get?_ofList log name
  have hnames : Table.names (.ofList log) = firstWrites log := Table.names_ofList log
  cases next with
  | assign name quantity =>
    simp only [request, assign_eq, answerTo]
    cases quantity.number? <;> rfl
  | lookup name =>
    simp only [request, lookup, answerTo, hget]
    cases lastWrite? log name <;> rfl
  | contains name => simp only [request, Table.contains, answerTo, hget]
  | size =>
    simp only [request, answerTo, ← hnames]
    simp [Table.size, Table.names]
  | names => simp only [request, answerTo, hnames]
  | snapshot =>
    simp only [request, answerTo]
    rw [Table.entries_eq, hnames]
    simp only [hget]

/-- Whatever is asked of a store, and after whatever other requests, the writes that it has accepted
so far decide the answer, those of the table that it began with included. The names are listed
without repetition, and a write that is refused leaves the store as it was. -/
theorem requests_accepted (table : Table Quantity)
    (h : ∀ entry ∈ table.entries, entry.2.number?.isSome) :
    ∃ store, Store.ofTable table = .ok store ∧ ∀ before next behind,
      let log := accepted (table.entries ++ before.filterMap Request.write?)
      let after := (store.requests before).2
      (store.requests (before ++ next :: behind)).1[before.length]? = some (answerTo log next) ∧
      (firstWrites log).Nodup ∧
      ∀ name quantity, quantity.number? = none →
        after.request (.assign name quantity) = (.refused .tooLarge, after) := by
  refine ⟨_, ofTable_accepted h, fun before next behind => ?_⟩
  intro log after
  have hafter : after = .ofList log := by
    simp only [after, log, requests_store]
    unfold accepted
    rw [List.filterMap_append]
    exact (Table.insertAll_append Table.empty _ _).symm
  refine ⟨?_, firstWrites_nodup log, fun name quantity hnone => ?_⟩
  · rw [requests_answer, ← request_answer, ← hafter]
  · simp only [request, assign_eq, hnone, Option.elim_none]

theorem requests_accepted_refused :
    let table : Table Quantity := .ofList [("x", .number 2), ("y", .ofBool true)]
    let before : List Request :=
      [.assign "z" (.integer (2 ^ 1024)), .assign "x" (.integer 3), .lookup "z"]
    ∃ store, Store.ofTable table = .ok store ∧
      (store.requests (before ++ [.snapshot])).1[3]? =
        some (.entries [("x", 3), ("y", 1)]) ∧
      (store.requests (before ++ [.lookup "z"])).1[3]? =
        some (.failed (.fault (.undefinedVariable "z"))) := by
  intro table before
  have hnumbers : ∀ entry ∈ table.entries, entry.2.number?.isSome := by decide +kernel
  obtain ⟨store, hstore, hanswers⟩ := requests_accepted table hnumbers
  refine ⟨store, hstore, ?_, ?_⟩
  · refine (hanswers before .snapshot []).1.trans ?_
    decide +kernel
  · refine (hanswers before (.lookup "z") []).1.trans ?_
    decide +kernel

end Store

end TokenTape

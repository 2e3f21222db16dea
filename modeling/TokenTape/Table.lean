import TokenTape.Text.Basic

/-!
# Tables

A table holds named values in the order in which the names were first written. A later write changes
the value and leaves the name in its place.
-/

namespace TokenTape

structure Table (α : Type) where
  entries : List (Text × α)
  nodup : (entries.map Prod.fst).Nodup

namespace Table

variable {α : Type}

/-! ## Entries -/

/-- Writes a value to the first entry of that name, or to a new entry at the end. -/
def insertEntry (name : Text) (value : α) : List (Text × α) → List (Text × α)
  | [] => [(name, value)]
  | entry :: rest =>
    if entry.1 = name then (name, value) :: rest else entry :: insertEntry name value rest

theorem names_insertEntry (name : Text) (value : α) (entries : List (Text × α)) :
    (insertEntry name value entries).map Prod.fst =
      if name ∈ entries.map Prod.fst then entries.map Prod.fst
      else entries.map Prod.fst ++ [name] := by
  induction entries with
  | nil => simp [insertEntry]
  | cons entry rest ih =>
    by_cases h : entry.1 = name
    · simp [insertEntry, h]
    · simp only [insertEntry, h, if_false, List.map_cons, ih, List.mem_cons, Ne.symm h, false_or]
      split <;> simp

theorem insertEntry_of_not_mem {name : Text} {entries : List (Text × α)}
    (h : name ∉ entries.map Prod.fst) (value : α) :
    insertEntry name value entries = entries ++ [(name, value)] := by
  induction entries with
  | nil => rfl
  | cons entry rest ih =>
    rw [List.map_cons, List.mem_cons, not_or] at h
    rw [insertEntry, if_neg (Ne.symm h.1), ih h.2, List.cons_append]

theorem insertEntry_next {before behind : List (Text × α)} {entry : Text × α}
    (h : ((before ++ entry :: behind).map Prod.fst).Nodup) :
    insertEntry entry.1 entry.2 before = before ++ [entry] := by
  apply insertEntry_of_not_mem
  rw [List.map_append, List.map_cons, List.nodup_append] at h
  exact fun hmem => h.2.2 entry.1 hmem entry.1 List.mem_cons_self rfl

theorem nodup_insertEntry (name : Text) (value : α) {entries : List (Text × α)}
    (h : (entries.map Prod.fst).Nodup) : ((insertEntry name value entries).map Prod.fst).Nodup := by
  rw [names_insertEntry]
  split
  · exact h
  · next hn =>
    rw [List.nodup_append]
    refine ⟨h, by simp, fun a ha b hb hab => hn ?_⟩
    simp only [List.mem_singleton] at hb
    exact hb ▸ hab ▸ ha

theorem lookup_cons_eq (name other : Text) (value : α) (entries : List (Text × α)) :
    ((name, value) :: entries).lookup other =
      if other = name then some value else entries.lookup other := by
  rw [List.lookup_cons]
  by_cases h : other = name
  · rw [beq_iff_eq.2 h, if_pos h]
  · rw [beq_eq_false_iff_ne.2 h, if_neg h]

theorem lookup_insertEntry (name other : Text) (value : α) (entries : List (Text × α)) :
    (insertEntry name value entries).lookup other =
      if other = name then some value else entries.lookup other := by
  induction entries with
  | nil => exact lookup_cons_eq name other value []
  | cons entry rest ih =>
    obtain ⟨key, old⟩ := entry
    unfold insertEntry
    split
    · next hkey =>
      simp only at hkey
      rw [lookup_cons_eq, lookup_cons_eq, hkey]
      split <;> rfl
    · next hkey =>
      simp only at hkey
      rw [lookup_cons_eq, lookup_cons_eq, ih]
      split
      · next h => rw [if_neg (h ▸ hkey)]
      · rfl

/-! ## Tables -/

def empty : Table α :=
  ⟨[], List.nodup_nil⟩

def insert (t : Table α) (name : Text) (value : α) : Table α :=
  ⟨insertEntry name value t.entries, nodup_insertEntry name value t.nodup⟩

def get? (t : Table α) (name : Text) : Option α :=
  t.entries.lookup name

theorem get?_insert (t : Table α) (name other : Text) (value : α) :
    (t.insert name value).get? other = if other = name then some value else t.get? other :=
  lookup_insertEntry name other value t.entries

def contains (t : Table α) (name : Text) : Bool :=
  (t.get? name).isSome

theorem contains_insert {t : Table α} {name other : Text} {value : α} :
    (t.insert name value).contains other ↔ other = name ∨ t.contains other := by
  unfold contains
  rw [get?_insert]
  split
  · next h => simp [h]
  · next h => simp [h]

def names (t : Table α) : List Text :=
  t.entries.map Prod.fst

theorem names_insert (t : Table α) (name : Text) (value : α) :
    (t.insert name value).names = if name ∈ t.names then t.names else t.names ++ [name] :=
  names_insertEntry name value t.entries

def size (t : Table α) : Nat :=
  t.entries.length

/-- Writes the entries of a list, one after the other. -/
def insertAll (t : Table α) (entries : List (Text × α)) : Table α :=
  entries.foldl (fun t entry => t.insert entry.1 entry.2) t

def ofList (entries : List (Text × α)) : Table α :=
  empty.insertAll entries

theorem get?_insertAll (t : Table α) (entries : List (Text × α)) (name : Text) :
    (t.insertAll entries).get? name = (entries.reverse.lookup name).or (t.get? name) := by
  induction entries generalizing t with
  | nil => rfl
  | cons entry rest ih =>
    change ((t.insert entry.1 entry.2).insertAll rest).get? name = _
    rw [ih, get?_insert, List.reverse_cons, List.lookup_append, Option.or_assoc, lookup_cons_eq]
    split
    · rfl
    · rfl

theorem get?_ofList (entries : List (Text × α)) (name : Text) :
    (ofList entries).get? name = entries.reverse.lookup name :=
  (get?_insertAll empty entries name).trans Option.or_none

theorem entries_insertAll (t : Table α) {entries : List (Text × α)}
    (h : ((t.entries ++ entries).map Prod.fst).Nodup) :
    (t.insertAll entries).entries = t.entries ++ entries := by
  induction entries generalizing t with
  | nil => exact (List.append_nil _).symm
  | cons entry rest ih =>
    have hentries : (t.insert entry.1 entry.2).entries = t.entries ++ [entry] := insertEntry_next h
    have hrest : (t.insert entry.1 entry.2).entries ++ rest = t.entries ++ entry :: rest := by
      rw [hentries, List.append_assoc, List.singleton_append]
    rw [← hrest] at h ⊢
    exact ih (t.insert entry.1 entry.2) h

theorem ofList_entries (t : Table α) : ofList t.entries = t := by
  have h : (ofList t.entries).entries = t.entries := entries_insertAll empty t.nodup
  generalize ofList t.entries = s at h
  cases s
  cases t
  cases h
  rfl

end Table

end TokenTape

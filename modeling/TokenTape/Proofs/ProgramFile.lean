import Mathlib
import TokenTape.Program.Decode
import TokenTape.Program.Encode
import TokenTape.Proofs.JsonText
import TokenTape.Proofs.TextFile

/-!
# Program files

A program comes back from its file. What a file holds can be written to a file again.
-/

namespace TokenTape

/-! ## Rows -/

theorem mapM_eq_ok_iff {ε α β : Type} {f : α → Except ε β} {xs : List α} {ys : List β} :
    xs.mapM f = .ok ys ↔ List.Forall₂ (fun x y => f x = .ok y) xs ys := by
  induction xs generalizing ys with
  | nil => simp [pure, Except.pure, eq_comm]
  | cons x xs ih =>
    rw [List.mapM_cons, List.forall₂_cons_left_iff]
    cases hx : f x with
    | error e => simp [bind, Except.bind]
    | ok y =>
      cases hxs : xs.mapM f with
      | error e => simp [bind, Except.bind, ← ih, hxs]
      | ok ys => simp [bind, Except.bind, pure, Except.pure, ← ih, hxs, eq_comm]

theorem exists_of_mem_mapM {ε α β : Type} {f : α → Except ε β} {xs : List α} {ys : List β}
    (h : xs.mapM f = .ok ys) : ∀ y ∈ ys, ∃ x ∈ xs, f x = .ok y := by
  rw [mapM_eq_ok_iff] at h
  induction h with
  | nil => simp
  | @cons x y _ _ hxy _ ih =>
    rw [List.forall_mem_cons]
    refine ⟨⟨x, List.mem_cons_self, hxy⟩, fun y hy => ?_⟩
    obtain ⟨x, hx, hxy⟩ := ih y hy
    exact ⟨x, List.mem_cons_of_mem _ hx, hxy⟩

theorem exists_of_bind_ok {ε α β : Type} {x : Except ε α} {f : α → Except ε β} {b : β}
    (h : x >>= f = .ok b) : ∃ a, x = .ok a ∧ f a = .ok b := by
  cases x with
  | error e => cases h
  | ok a => exact ⟨a, rfl, h⟩

theorem foldlM_insert {ε α β : Type} {f : Table α → β → Except ε (Table α)} {g : Text × α → β}
    (h : ∀ t entry, f t (g entry) = .ok (t.insert entry.1 entry.2)) (entries : List (Text × α))
    (t : Table α) : (entries.map g).foldlM f t = .ok (t.insertAll entries) := by
  induction entries generalizing t with
  | nil => rfl
  | cons entry rest ih =>
    rw [List.map_cons, List.foldlM_cons, h]
    exact ih (t.insert entry.1 entry.2)

/-- Variables as a caller hands them over. -/
def Store.quantities (store : Store) : Table Quantity :=
  ⟨store.entries.map fun (name, value) => (name, .number value), by
    rw [List.map_map]
    exact store.nodup⟩

theorem Store.ofTable_quantities (store : Store) : ofTable store.quantities = .ok store := by
  unfold ofTable quantities
  rw [foldlM_insert fun _ _ => rfl]
  exact congrArg Except.ok (Table.ofList_entries store)

namespace Token

theorem ofJson_ne {token : Token} {value : Json} (h : ofJson value = .ok token) :
    token ≠ .unclassified ∧ token ≠ .reference "" := by
  unfold ofJson at h
  split at h
  · split at h
    · obtain ⟨field, -, h⟩ := exists_of_bind_ok h
      obtain ⟨x, -, h⟩ := exists_of_bind_ok h
      cases h
      simp
    · obtain ⟨field, -, h⟩ := exists_of_bind_ok h
      obtain ⟨name, hname, h⟩ := exists_of_bind_ok h
      cases h
      unfold decodeName at hname
      split at hname
      · split at hname
        · cases hname
        · next hne =>
          cases hname
          simp [hne]
      · cases hname
    · obtain ⟨field, -, h⟩ := exists_of_bind_ok h
      obtain ⟨kind, -, h⟩ := exists_of_bind_ok h
      cases h
      simp
    · obtain ⟨field, -, h⟩ := exists_of_bind_ok h
      obtain ⟨kind, -, h⟩ := exists_of_bind_ok h
      cases h
      simp
    · cases h
  · cases h

end Token

namespace Program

theorem load_of_readText {cs : List Char} {value : Json} (hlines : '\r' ∉ cs)
    (h : Json.readText cs = .ok value) (path : Text) :
    load path (cs.flatMap String.utf8EncodeChar) = ofJson value := by
  have hread : Json.read (String.ofList cs) = .ok value := by
    rw [Json.read, String.toList_ofList, h]
    rfl
  simp only [load, Text.decode_flatMap, Except.mapError, bind, Except.bind, String.toList_ofList,
    Text.unifyLineEnds_of_not_mem hlines, hread]

theorem ofJson_tokens {value : Json} {program : Program} (h : ofJson value = .ok program) :
    ∃ items : List Json, items.mapM Token.ofJson = .ok program.tokens := by
  unfold ofJson at h
  split at h
  · obtain ⟨tokens, htokens, h⟩ := exists_of_bind_ok h
    cases h
    exact ⟨_, htokens⟩
  · split at h
    · split at h
      · obtain ⟨tokens, htokens, h⟩ := exists_of_bind_ok h
        obtain ⟨store, -, h⟩ := exists_of_bind_ok h
        cases h
        exact ⟨_, htokens⟩
      · cases h
      · cases h
    · cases h
  · cases h

theorem load_ofJson {path : Text} {bytes : List UInt8} {program : Program}
    (h : load path bytes = .ok program) : ∃ value, ofJson value = .ok program := by
  unfold load at h
  obtain ⟨text, -, h⟩ := exists_of_bind_ok h
  dsimp only at h
  split at h
  · exact ⟨_, h⟩
  · cases h
  · cases h
  · cases h

theorem load_tokens {path : Text} {bytes : List UInt8} {program : Program}
    (h : load path bytes = .ok program) :
    ∀ token ∈ program.tokens, token ≠ .unclassified ∧ token ≠ .reference "" := by
  obtain ⟨value, hvalue⟩ := load_ofJson h
  obtain ⟨items, hitems⟩ := ofJson_tokens hvalue
  intro token hmem
  obtain ⟨item, -, hitem⟩ := exists_of_mem_mapM hitems token hmem
  exact Token.ofJson_ne hitem

end Program

end TokenTape

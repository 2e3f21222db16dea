import TokenTape.Run.Basic

/-!
# Requests to a store

A caller writes to a store and asks about it, one request after the other. A request that fails is
answered like any other, and the next one finds the store as it was.
-/

namespace TokenTape.Store

inductive Request where
  | assign (name : Text) (quantity : Quantity)
  | lookup (name : Text)
  | contains (name : Text)
  | size
  | names
  | snapshot
deriving DecidableEq

inductive Answer where
  | done
  | refused (error : QuantityError)
  | failed (failure : Failure)
  | number (value : Binary64)
  | truth (holds : Bool)
  | count (n : Nat)
  | names (names : List Text)
  | entries (entries : List (Text × Binary64))
deriving DecidableEq

/-- The answer to a request, and the store behind it. -/
def request (store : Store) : Request → Answer × Store
  | .assign name quantity =>
    match store.assign name quantity with
    | .ok store => (.done, store)
    | .error error => (.refused error, store)
  | .lookup name =>
    match store.lookup name with
    | .ok value => (.number value, store)
    | .error failure => (.failed failure, store)
  | .contains name => (.truth (store.contains name), store)
  | .size => (.count store.size, store)
  | .names => (.names store.names, store)
  | .snapshot => (.entries store.entries, store)

/-- The answers to requests that are made one after the other, and the store behind them. -/
def requests (store : Store) : List Request → List Answer × Store
  | [] => ([], store)
  | next :: rest =>
    let (answer, store) := store.request next
    let (answers, store) := requests store rest
    (answer :: answers, store)

end TokenTape.Store

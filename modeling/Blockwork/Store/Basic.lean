import Blockwork.Collection.NameMap
import Blockwork.Failure

/-!
# Stores

A store on the user's machine holds texts under keys and outlives the program. Writing to one
may fail; the state that is given back is the one that the failed write left. `Memory` is the
store in which nothing fails.

A store is read, written and erased from by one operation after the other, and opened again in
between. Each operation starts on the state that the one before left, also when that one failed.
-/

namespace Blockwork

/-- Stores of texts under keys, with states of type `σ`. -/
class Store (σ : Type) where
  /-- The text under a key. -/
  read : σ → String → Except Failure (Option String)
  /-- Puts a text under a key. -/
  write : σ → String → String → Except Failure Unit × σ
  /-- Takes the text under a key away. -/
  erase : σ → String → Except Failure Unit × σ

/-- A store that lives as long as the program. -/
abbrev Memory := NameMap String

instance : Store Memory where
  read store key := .ok (store.get? key)
  write store key text := (.ok (), store.insert key text)
  erase store key := (.ok (), store.erase key)

/-! ### Operations -/

/-- What is done with a store. -/
inductive StoreOperation where
  | read (key : String)
  | write (key text : String)
  | erase (key : String)
  | reopen

namespace Store

variable {σ : Type} [Store σ]

/-- Carries out an operation, where `reopened` is the store opened again, and answers with the
text that was read. A store that cannot be opened again stays as it is. -/
def operate (reopened : σ → Except Failure σ) (store : σ) :
    StoreOperation → Except Failure (Option String) × σ
  | .read key => (read store key, store)
  | .write key text =>
    let (outcome, store) := write store key text
    (outcome.map fun _ => none, store)
  | .erase key =>
    let (outcome, store) := erase store key
    (outcome.map fun _ => none, store)
  | .reopen =>
    match reopened store with
    | .ok store => (.ok none, store)
    | .error failure => (.error failure, store)

/-- The answers to operations that are carried out one after the other. -/
def answers (reopened : σ → Except Failure σ) :
    σ → List StoreOperation → List (Except Failure (Option String))
  | _, [] => []
  | store, operation :: rest =>
    let (answer, store) := operate reopened store operation
    answer :: answers reopened store rest

theorem answers_cons (reopened : σ → Except Failure σ) (store : σ) (operation : StoreOperation)
    (rest : List StoreOperation) :
    answers reopened store (operation :: rest) =
      (operate reopened store operation).1 ::
        answers reopened (operate reopened store operation).2 rest := rfl

end Store

end Blockwork

import SearchPolling.Dictionary

/-!
# State stores

A store keeps texts under keys.  The store in memory never fails; other stores may.
-/

namespace SearchPolling
namespace Store

/-- Why a store did not answer. -/
inductive Failure where
  | redis (reason : String)
  | unavailable (reason : String)
  deriving DecidableEq, Repr

namespace Failure

def message : Failure → String
  | redis reason => "Redis error: " ++ reason
  | unavailable reason => "Store unavailable: " ++ reason

end Failure

/-- A store in memory. -/
structure Memory where
  entries : Dictionary String
  deriving DecidableEq, Repr

namespace Memory

/-- The store that holds nothing. -/
def empty : Memory :=
  ⟨[]⟩

instance : Inhabited Memory := ⟨empty⟩

/-- The text under a key. -/
def load (m : Memory) (key : String) : Option String :=
  m.entries.get? key

/-- The store with a text under a key, in place of an earlier one. -/
def save (m : Memory) (key value : String) : Memory :=
  ⟨m.entries.put key value⟩

@[simp] theorem load_empty (key : String) : empty.load key = none := rfl

@[simp] theorem load_save_self (m : Memory) (key value : String) :
    (m.save key value).load key = some value :=
  Dictionary.get?_put_self key value m.entries

theorem load_save_of_ne (m : Memory) {key other : String} (h : other ≠ key) (value : String) :
    (m.save key value).load other = m.load other :=
  Dictionary.get?_put_of_ne h value m.entries

end Memory
end Store
end SearchPolling

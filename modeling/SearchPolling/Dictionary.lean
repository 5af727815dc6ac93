/-!
# Dictionaries in key order

A list of keyed values, each key once, in ascending order of the keys.  Text keys
are ordered by their code points, which is also the order of their bytes in UTF-8.
-/

namespace SearchPolling

/-- Keyed values in ascending order of their keys. -/
abbrev Dictionary (α : Type) := List (String × α)

namespace Dictionary

variable {α : Type}

/-- Binds a key, in its place; an earlier value of the key is replaced. -/
def put (key : String) (value : α) : Dictionary α → Dictionary α
  | [] => [(key, value)]
  | (k, v) :: rest =>
    if key < k then (key, value) :: (k, v) :: rest
    else if key = k then (key, value) :: rest
    else (k, v) :: put key value rest

/-- The value bound to a key. -/
def get? (key : String) : Dictionary α → Option α
  | [] => none
  | (k, v) :: rest => if k = key then some v else get? key rest

/-- The dictionary of a list of bindings, a later one of a key replacing an earlier one. -/
def ofBindings (bindings : List (String × α)) : Dictionary α :=
  bindings.foldl (fun d kv => put kv.1 kv.2 d) []

@[simp] theorem get?_nil (key : String) : get? key ([] : Dictionary α) = none := rfl

/-- A key just bound has its new value. -/
@[simp] theorem get?_put_self (key : String) (value : α) (d : Dictionary α) :
    get? key (put key value d) = some value := by
  induction d with
  | nil => simp [put, get?]
  | cons kv rest ih =>
    obtain ⟨k, v⟩ := kv
    simp only [put]
    split
    · simp [get?]
    · split
      · simp [get?]
      · next h => simp [get?, Ne.symm h, ih]

/-- Binding one key leaves every other key as it was. -/
theorem get?_put_of_ne {key other : String} (h : other ≠ key) (value : α) (d : Dictionary α) :
    get? other (put key value d) = get? other d := by
  induction d with
  | nil => simp [put, get?, h.symm]
  | cons kv rest ih =>
    obtain ⟨k, v⟩ := kv
    simp only [put]
    split
    · simp [get?, h.symm]
    · split
      · next hk => subst hk; simp [get?, h.symm]
      · simp [get?, ih]

end Dictionary
end SearchPolling

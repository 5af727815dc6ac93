import SearchPolling.Search.Request

/-!
# The search descriptor

The request that the next query will carry.  Everyone who holds the descriptor sees
the same request and may change it, in whole or in its query; a request taken from
the descriptor is not touched by later changes.
-/

namespace SearchPolling
namespace Search

/-- A change of the descriptor. -/
inductive Update where
  | query (query : String)
  | request (request : Request)

/-- The shared request. -/
structure Descriptor where
  request : Request
  deriving DecidableEq

namespace Descriptor

/-- The descriptor of the standard request. -/
def standard : Descriptor :=
  ⟨.standard⟩

instance : Inhabited Descriptor := ⟨standard⟩

/-- The descriptor after a change. -/
def apply (d : Descriptor) : Update → Descriptor
  | .query q => ⟨{ d.request with query := q }⟩
  | .request r => ⟨r⟩

/-- The descriptor after changes, in their order. -/
def applyAll (d : Descriptor) (updates : List Update) : Descriptor :=
  updates.foldl apply d

end Descriptor
end Search
end SearchPolling

import SearchPolling.Polling.Persistence
import SearchPolling.Proofs.Reading.Fields

/-!
# The record that is read back

A record that is stored and read again is the same record, and it is found valid if its
interval can be used.
-/

namespace SearchPolling
namespace Polling

open Json (Decoder)

namespace Record

theorem onKey_active (ctx : Json.Context) :
    shape.onKey ctx ⟨none, none⟩ "active" =
      .ok fun x => (Decoder.bool ctx x).map fun b => ⟨some b, none⟩ := rfl

theorem onKey_refreshInterval (ctx : Json.Context) (active : Option Bool) :
    shape.onKey ctx ⟨active, none⟩ "refreshInterval" =
      .ok fun x => (Decoder.nat ctx x).map fun n => ⟨active, some n⟩ := rfl

/-- A record is read back from its text as it was written. -/
theorem ofString_render (r : Record) : decoder.ofString r.render = .ok r := by
  rw [render, Decoder.ofString_render]
  refine Json.Shape.decoder_object_eq_ok.mpr ⟨⟨1, false⟩, rfl, ?_⟩
  refine ⟨⟨some r.active, some r.refreshInterval⟩, ?_, rfl⟩
  refine (Decoder.members_held_eq_ok (onKey_active _)).mpr ⟨_, Decoder.bool_node _ _, ?_⟩
  exact (Decoder.members_held_eq_ok (onKey_refreshInterval _ _)).mpr ⟨_, Decoder.nat_node _ _, rfl⟩

end Record

/-- A record whose interval can be used is found again in its own text. -/
theorem Restored.ofText_render {r : Record} (h : r.check = .ok ()) :
    Restored.ofText r.render = .found r := by
  simp only [Restored.ofText, Record.ofString_render, h]

end Polling
end SearchPolling

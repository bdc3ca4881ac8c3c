import ToolDock.Proofs.Handles

namespace ToolDock

namespace Host

variable {h h' h'' : Host} {a : Handle} {info : WindowInfo} {id : String}

theorem mem_buttonIds : id ∈ h.buttonIds ↔ ∃ k, h.button? k = some id := by
  simp only [buttonIds, HandleTable.values, List.mem_filterMap, List.mem_map, button?,
    Option.bind_eq_some_iff, HandleTable.get?_eq_some_iff]
  constructor
  · intro hq
    rcases hq with ⟨object, ⟨⟨k, y⟩, hrow, rfl⟩, hid⟩
    refine ⟨k, y, hrow, ?_⟩
    cases y with
    | button n => exact hid
    | decorator | external => cases hid
  · intro hq
    rcases hq with ⟨k, object, hrow, hid⟩
    refine ⟨object, ⟨(k, object), hrow, rfl⟩, ?_⟩
    cases object with
    | button n => exact hid
    | decorator | external => cases hid

def KeepsButtons (h h' : Host) : Prop := ∀ k, h'.button? k = h.button? k

namespace KeepsButtons

theorem of_objects (ho : h'.objects = h.objects) : h.KeepsButtons h' := fun k ↦ by
  rw [button?, ho, button?]

theorem refl : h.KeepsButtons h := fun _ ↦ rfl

theorem trans (hk : h.KeepsButtons h') (hk' : h'.KeepsButtons h'') : h.KeepsButtons h'' :=
  fun k ↦ (hk' k).trans (hk k)

end KeepsButtons

theorem keepsButtons_updateExternal {f : ExternalWindow → ExternalWindow} :
    h.KeepsButtons (h.updateExternal a f) := fun _ ↦ button?_updateExternal

theorem keepsButtons_closeExternal : h.KeepsButtons (h.closeExternal a) := fun _ ↦
  button?_closeExternal

theorem keepsButtons_decorator : h.KeepsButtons (h.decorator id).2 := fun _ ↦ button?_decorator

theorem keepsButtons_openExternal {kind : ExternalKind} :
    h.KeepsButtons (h.openExternal kind info).2 := fun _ ↦ button?_openExternal

theorem keepsButtons_moveExternal {bounds : Rect} : h.KeepsButtons (h.moveExternal id bounds) := by
  unfold moveExternal
  split
  · exact keepsButtons_updateExternal
  · exact .refl

theorem keepsButtons_maximizeExternal {maximized : Bool} :
    h.KeepsButtons (h.maximizeExternal id maximized) := by
  unfold maximizeExternal
  split
  · exact keepsButtons_updateExternal
  · exact .refl

end Host

end ToolDock

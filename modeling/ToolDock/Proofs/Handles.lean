import ToolDock.Engine.Decoration
import ToolDock.Proofs.SlotTable

namespace ToolDock

def HostObject.isExternal : HostObject → Bool
  | .external _ => true
  | _ => false

def HostObject.window? : HostObject → Option ExternalWindow
  | .external w => some w
  | _ => none

def HostObject.isButton : HostObject → Bool
  | .button _ => true
  | _ => false

def HostObject.button? : HostObject → Option String
  | .button id => some id
  | _ => none

namespace Host

variable {h h' : Host} {a k : Handle} {info : WindowInfo} {id : String}

def isOpen (h : Host) (k : Handle) : Bool := (h.objects.get? k).any HostObject.isExternal

def isButton (h : Host) (k : Handle) : Bool := (h.objects.get? k).any HostObject.isButton

def button? (h : Host) (k : Handle) : Option String := (h.objects.get? k).bind HostObject.button?

def next (h : Host) : Handle := h.objects.next

section Reading

variable {β : Type} {read : HostObject → Option β}

def reading (read : HostObject → Option β) (h : Host) (k : Handle) : Option β :=
  (h.objects.get? k).bind read

theorem reading_next : h.reading read h.next = none := by
  rw [reading, next, h.objects.get?_eq_none_of_le (Nat.le_refl _), Option.bind_none]

theorem reading_alloc (object : HostObject) (ho : h'.objects = (h.objects.alloc object).2) :
    h'.reading read k = if k = h.next then read object else h.reading read k := by
  rw [reading, ho, HandleTable.get?_alloc, ← next]
  split <;> rfl

theorem reading_alloc_other {object : HostObject} (hread : read object = none)
    (ho : h'.objects = (h.objects.alloc object).2) : h'.reading read k = h.reading read k := by
  rw [reading_alloc object ho, hread]
  split
  case isTrue hk => exact hk ▸ reading_next.symm
  case isFalse => rfl

theorem reading_free (ho : h'.objects = h.objects.free a) :
    h'.reading read k = if k = a then none else h.reading read k := by
  rw [reading, ho, HandleTable.get?_free]
  split <;> rfl

theorem reading_free_other (hread : h.reading read a = none)
    (ho : h'.objects = h.objects.free a) : h'.reading read k = h.reading read k := by
  rw [reading_free ho]
  split
  case isTrue hk => rw [hk, hread]
  case isFalse => rfl

theorem reading_decorator (hread : ∀ id, read (.decorator id) = none) :
    (h.decorator id).2.reading read k = h.reading read k := by
  unfold decorator
  split
  · rfl
  · exact reading_alloc_other (hread id) rfl

theorem reading_updateExternal {f : ExternalWindow → ExternalWindow}
    (hf : ∀ w, read (.external (f w)) = read (.external w)) :
    (h.updateExternal a f).reading read k = h.reading read k := by
  rw [reading, updateExternal, HandleTable.get?_modify, reading]
  split
  · cases h.objects.get? k with
    | none => rfl
    | some o =>
      cases o with
      | external w => exact hf w
      | decorator | button => rfl
  · rfl

end Reading

theorem external?_eq_reading : h.external? k = h.reading HostObject.window? k := by
  unfold external? reading
  cases h.objects.get? k with
  | none => rfl
  | some o => cases o <;> rfl

theorem get?_of_external? {w : ExternalWindow} (hw : h.external? a = some w) :
    h.objects.get? a = some (.external w) := by
  unfold external? at hw
  split at hw
  case h_1 hget => rw [hget, Option.some.inj hw]
  case h_2 => cases hw

theorem mem_externals {w : ExternalWindow} : (k, w) ∈ h.externals ↔ h.external? k = some w := by
  simp only [externals, List.mem_filterMap]
  constructor
  · intro hq
    obtain ⟨⟨j, object⟩, hrow, hobject⟩ := hq
    cases object with
    | external =>
      cases hobject
      rw [external?, HandleTable.get?_eq_some_iff.2 hrow]
    | decorator | button => cases hobject
  · intro hw
    exact ⟨(k, .external w), HandleTable.get?_eq_some_iff.1 (get?_of_external? hw), rfl⟩

theorem get?_of_button? (ha : h.button? a = some id) : h.objects.get? a = some (.button id) := by
  obtain ⟨o, ho, hid⟩ := Option.bind_eq_some_iff.1 ha
  cases o with
  | button => rw [ho, Option.some.inj hid]
  | decorator | external => cases hid

theorem isOpen_eq_isSome : h.isOpen k = (h.external? k).isSome := by
  unfold isOpen external?
  cases h.objects.get? k with
  | none => rfl
  | some o => cases o <;> rfl

theorem isButton_eq_isSome : h.isButton k = (h.button? k).isSome := by
  unfold isButton button?
  cases h.objects.get? k with
  | none => rfl
  | some o => cases o <;> rfl

theorem external?_next : h.external? h.next = none := external?_eq_reading.trans reading_next

theorem button?_next : h.button? h.next = none := reading_next

theorem isOpen_next : h.isOpen h.next = false := by rw [isOpen_eq_isSome, external?_next]; rfl

theorem isButton_next : h.isButton h.next = false := by rw [isButton_eq_isSome, button?_next]; rfl

theorem exists_external_of_isOpen (ha : h.isOpen a) :
    ∃ w, h.objects.get? a = some (.external w) := by
  rw [isOpen_eq_isSome] at ha
  obtain ⟨w, hw⟩ := Option.isSome_iff_exists.1 ha
  exact ⟨w, get?_of_external? hw⟩

theorem exists_button_of_isButton (ha : h.isButton a) :
    ∃ id, h.objects.get? a = some (.button id) := by
  rw [isButton_eq_isSome] at ha
  obtain ⟨id, hid⟩ := Option.isSome_iff_exists.1 ha
  exact ⟨id, get?_of_button? hid⟩

structure Keeps (h h' : Host) : Prop where
  isOpen : ∀ a, h'.isOpen a = h.isOpen a
  isButton : ∀ a, h'.isButton a = h.isButton a
  desktop : h'.desktop = h.desktop

theorem Keeps.refl : h.Keeps h := ⟨fun _ ↦ rfl, fun _ ↦ rfl, rfl⟩

theorem keeps_record {op : HostOp} : h.Keeps (h.record op) :=
  ⟨fun _ ↦ rfl, fun _ ↦ rfl, rfl⟩

section External

variable {f : ExternalWindow → ExternalWindow} {kind : ExternalKind}

@[simp] theorem external?_closeExternal :
    (h.closeExternal a).external? k = if k = a then none else h.external? k := by
  unfold closeExternal
  cases hw : h.external? a with
  | none => grind
  | some w =>
    simp only [external?_eq_reading]
    exact reading_free rfl

@[simp] theorem isOpen_closeExternal : (h.closeExternal a).isOpen k = (h.isOpen k && k != a) := by
  simp only [isOpen_eq_isSome, external?_closeExternal]
  by_cases hk : k = a <;> simp [hk]

@[simp] theorem button?_closeExternal : (h.closeExternal a).button? k = h.button? k := by
  unfold closeExternal
  split
  case h_1 w hw =>
    refine reading_free_other ?_ rfl
    rw [reading, get?_of_external? hw]
    rfl
  case h_2 => rfl

@[simp] theorem isButton_closeExternal : (h.closeExternal a).isButton k = h.isButton k := by
  rw [isButton_eq_isSome, button?_closeExternal, isButton_eq_isSome]

@[simp] theorem desktop_closeExternal : (h.closeExternal a).desktop = h.desktop := by
  unfold closeExternal
  split <;> rfl

theorem external?_openExternal (hk : k ≠ h.next) :
    (h.openExternal kind info).2.external? k = h.external? k := by
  simp only [external?_eq_reading]
  exact (reading_alloc _ rfl).trans (if_neg hk)

@[simp] theorem isOpen_openExternal :
    (h.openExternal kind info).2.isOpen k = if k = h.next then true else h.isOpen k := by
  simp only [isOpen_eq_isSome, external?_eq_reading]
  rw [reading_alloc (h := h) (.external _) rfl]
  split <;> rfl

@[simp] theorem button?_openExternal : (h.openExternal kind info).2.button? k = h.button? k :=
  reading_alloc_other rfl rfl

@[simp] theorem isButton_openExternal :
    (h.openExternal kind info).2.isButton k = h.isButton k := by
  rw [isButton_eq_isSome, button?_openExternal, isButton_eq_isSome]

theorem external?_updateExternal :
    (h.updateExternal a f).external? k =
      if k = a then (h.external? k).map f else h.external? k := by
  simp only [external?_eq_reading, reading, updateExternal, HandleTable.get?_modify]
  split
  · cases h.objects.get? k with
    | none => rfl
    | some o => cases o <;> rfl
  · rfl

@[simp] theorem isOpen_updateExternal : (h.updateExternal a f).isOpen k = h.isOpen k := by
  simp only [isOpen_eq_isSome, external?_updateExternal]
  split
  · rw [Option.isSome_map]
  · rfl

@[simp] theorem button?_updateExternal : (h.updateExternal a f).button? k = h.button? k :=
  reading_updateExternal fun _ ↦ rfl

@[simp] theorem isButton_updateExternal : (h.updateExternal a f).isButton k = h.isButton k := by
  rw [isButton_eq_isSome, button?_updateExternal, isButton_eq_isSome]

theorem keeps_setExternalBounds {bounds : Rect} : h.Keeps (h.setExternalBounds a bounds) :=
  ⟨fun _ ↦ isOpen_updateExternal, fun _ ↦ isButton_updateExternal, rfl⟩

theorem keeps_showExternal {focus : Bool} : h.Keeps (h.showExternal a focus) :=
  ⟨fun _ ↦ isOpen_updateExternal, fun _ ↦ isButton_updateExternal, rfl⟩

theorem keeps_setExternalMaximized {maximized : Bool} :
    h.Keeps (h.setExternalMaximized a maximized) :=
  ⟨fun _ ↦ isOpen_updateExternal, fun _ ↦ isButton_updateExternal, rfl⟩

end External

theorem external?_decorator : (h.decorator id).2.external? k = h.external? k := by
  simp only [external?_eq_reading]
  exact reading_decorator fun _ ↦ rfl

theorem button?_decorator : (h.decorator id).2.button? k = h.button? k :=
  reading_decorator fun _ ↦ rfl

theorem keeps_decorator : h.Keeps (h.decorator id).2 where
  isOpen k := by simp only [isOpen_eq_isSome, external?_decorator]
  isButton k := by simp only [isButton_eq_isSome, button?_decorator]
  desktop := by
    unfold decorator
    split <;> rfl

@[simp] theorem button?_createStripeButton :
    (h.createStripeButton info).2.button? k = if k = h.next then some info.id else h.button? k :=
  reading_alloc (.button info.id) rfl

@[simp] theorem isButton_createStripeButton :
    (h.createStripeButton info).2.isButton k = if k = h.next then true else h.isButton k := by
  simp only [isButton_eq_isSome, button?_createStripeButton]
  split <;> rfl

theorem external?_createStripeButton :
    (h.createStripeButton info).2.external? k = h.external? k := by
  simp only [external?_eq_reading]
  exact reading_alloc_other rfl rfl

@[simp] theorem isOpen_createStripeButton :
    (h.createStripeButton info).2.isOpen k = h.isOpen k := by
  simp only [isOpen_eq_isSome, external?_createStripeButton]

@[simp] theorem button?_removeStripeButton :
    (h.removeStripeButton a).button? k = if k = a then none else h.button? k := by
  unfold removeStripeButton
  split
  case h_1 => exact reading_free rfl
  case h_2 hget =>
    split
    case isTrue hk =>
      refine Option.eq_none_iff_forall_ne_some.2 fun id hid ↦ hget id ?_
      exact get?_of_button? (hk ▸ hid)
    case isFalse => rfl

@[simp] theorem isButton_removeStripeButton :
    (h.removeStripeButton a).isButton k = (h.isButton k && k != a) := by
  simp only [isButton_eq_isSome, button?_removeStripeButton]
  by_cases hk : k = a <;> simp [hk]

theorem external?_removeStripeButton : (h.removeStripeButton a).external? k = h.external? k := by
  unfold removeStripeButton
  split
  case h_1 hget =>
    simp only [external?_eq_reading]
    refine reading_free_other ?_ rfl
    rw [reading, hget]
    rfl
  case h_2 => rfl

@[simp] theorem isOpen_removeStripeButton : (h.removeStripeButton a).isOpen k = h.isOpen k := by
  simp only [isOpen_eq_isSome, external?_removeStripeButton]

@[simp] theorem desktop_removeStripeButton : (h.removeStripeButton a).desktop = h.desktop := by
  unfold removeStripeButton
  split <;> rfl

end Host

end ToolDock

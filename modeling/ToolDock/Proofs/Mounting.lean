import ToolDock.Proofs.Maintains
import ToolDock.Proofs.Recording

namespace ToolDock

/-- The decorator of an entry is that of its window, and an entry that is in a pane has one. -/
structure Entry.IsMounted (h : Host) (x : Entry) : Prop where
  decorator : ∀ d, x.decorator = some d → h.objects.get? d = some (.decorator x.id)
  attached : x.attached.isSome → x.decorator.isSome

def Entry.detaching (x : Entry) (dirty : Bool) : List HostOp :=
  x.attached.toList.map fun p ↦ .detach x.id p.slot dirty

variable {P : HostOp → Bool}

namespace Host

variable {h h' : Host} {id : String}

def docked (h : Host) : List HostOp := h.ops.filter HostOp.docks

theorem Records.docked_eq (hr : h.Records P h') (hP : ∀ op, P op → op.docks = false) :
    h'.docked = h.docked := by
  obtain ⟨ops, hops, hP'⟩ := hr.ops
  have hnone : ops.filter HostOp.docks = [] := by
    rw [List.filter_eq_nil_iff]
    intro op hop
    rw [hP op (hP' op hop)]
    exact Bool.false_ne_true
  rw [docked, hops, List.filter_append, hnone, List.append_nil, docked]

theorem Records.docked_of_adorns (hr : h.Records HostOp.adorns h') : h'.docked = h.docked :=
  hr.docked_eq fun _ ↦ HostOp.not_docks_of_adorns

theorem docked_record {op : HostOp} (hop : op.docks) : (h.record op).docked = h.docked ++ [op] := by
  simp [docked, record, hop]

theorem decoratorId_of_get? {d : Handle} (hd : h.objects.get? d = some (.decorator id)) :
    h.decoratorId d = id := by
  rw [decoratorId, hd]

theorem get?_decorator :
    (h.decorator id).2.objects.get? (h.decorator id).1 = some (.decorator id) := by
  unfold decorator
  split
  case h_1 row hrow =>
    have hobject : row.2 = .decorator id := by simpa using List.find?_some hrow
    rw [← hobject]
    exact HandleTable.get?_eq_some_iff.2 (List.mem_of_find?_eq_some hrow)
  case h_2 => exact (HandleTable.get?_alloc _ _ _).trans (if_pos rfl)

end Host

theorem Entry.IsMounted.keep {x x' : Entry} {h h' : Host} (hm : x.IsMounted h)
    (hr : h.Records P h') (hd : x'.decorator = x.decorator) (hid : x'.id = x.id)
    (ha : x'.attached.isSome → x.attached.isSome) : x'.IsMounted h' where
  decorator d hd' := hid ▸ hr.decorator (hm.decorator d (hd ▸ hd'))
  attached ha' := hd ▸ hm.attached (ha ha')

namespace Engine

variable {D : Prop} {e e' : Engine} {key k : SlotKey} {x x' : Entry} {info : WindowInfo}
  {dirty : Bool} {l : Layout}

def MountedAt (k : SlotKey) (e : Engine) : Prop :=
  ∀ x, e.entries.get? k = some x → x.IsMounted e.host

/-- Every entry is mounted. -/
def Mounted (e : Engine) : Prop := ∀ k, e.MountedAt k

theorem Records.docked (h : Records HostOp.adorns e e') : e'.host.docked = e.host.docked :=
  h.host.docked_of_adorns

namespace MountedAt

theorem congr (h : e.MountedAt k) (he : e'.entries = e.entries) (hr : e.host.Records P e'.host) :
    e'.MountedAt k :=
  fun x hx ↦ (h x (he ▸ hx)).keep hr rfl rfl fun ha ↦ ha

theorem onHost {f : Host → Host} (h : e.MountedAt k) (hr : e.host.Records P (f e.host)) :
    (e.onHost f).MountedAt k :=
  h.congr rfl hr

theorem updateEntry {f : Entry → Entry} (h : e.MountedAt k)
    (hf : ∀ x, (f x).decorator = x.decorator ∧ (f x).id = x.id ∧
      ((f x).attached.isSome → x.attached.isSome)) : (e.updateEntry key f).MountedAt k := by
  intro y hy
  rw [get?_updateEntry] at hy
  split at hy
  case isTrue =>
    obtain ⟨x, hx, rfl⟩ := Option.map_eq_some_iff.1 hy
    obtain ⟨hd, hid, ha⟩ := hf x
    exact (h x hx).keep (P := HostOp.adorns) .refl hd hid ha
  case isFalse => exact h y hy

theorem exchangeKept (h : e.MountedAt k) (hx : e.entries.get? key = some x)
    (hex : Exchanged D key x x' l e e') (hr : e.host.Records P e'.host)
    (hd : x'.decorator = x.decorator) (hid : x'.id = x.id)
    (ha : x'.attached.isSome → x.attached.isSome) : e'.MountedAt k := by
  intro y hy
  rw [hex.get?] at hy
  split at hy
  case isTrue hk =>
    cases hy
    exact (h x (hk ▸ hx)).keep hr hd hid ha
  case isFalse => exact (h y hy).keep hr rfl rfl fun ha ↦ ha

theorem removeInternalDecorator (h : e.MountedAt k) :
    (e.removeInternalDecorator key dirty).MountedAt k := by
  have hdetached : (e.updateEntry key fun x ↦ { x with attached := none }).MountedAt k :=
    h.updateEntry fun _ ↦ ⟨rfl, rfl, fun ha ↦ (nomatch ha)⟩
  unfold Engine.removeInternalDecorator
  split
  · exact h
  · dsimp only
    split
    · exact hdetached.onHost (P := fun _ ↦ true) (Host.records_record rfl)
    · exact hdetached

theorem closeHandle {a : Option Handle} (h : e.MountedAt k) : (e.closeHandle a).MountedAt k := by
  cases a with
  | none => exact h
  | some a => exact h.onHost Host.records_closeExternal

theorem removeExternalDecorators (h : e.MountedAt k) :
    (e.removeExternalDecorators key).MountedAt k := by
  have hclosed :
      (e.updateEntry key fun x ↦ { x with floating := none, windowed := none }).MountedAt k :=
    h.updateEntry fun _ ↦ ⟨rfl, rfl, fun ha ↦ ha⟩
  unfold Engine.removeExternalDecorators
  split
  · exact h
  · exact hclosed.closeHandle.closeHandle

theorem saveExternalState (info : WindowInfo) (h : e.MountedAt k) :
    (e.saveExternalState key info).2.MountedAt k := by
  cases hx : e.entries.get? key with
  | none =>
    unfold Engine.saveExternalState
    rwa [hx]
  | some x =>
    obtain ⟨-, heq | ⟨a, -, heq⟩⟩ := saveExternalState_eq info hx
    · rwa [heq]
    · rw [heq]
      exact h.onHost Host.records_setExternalMaximized

theorem removeDecorators (info : WindowInfo) (h : e.MountedAt k) :
    (e.removeDecorators key info dirty).2.MountedAt k :=
  (h.saveExternalState info).removeExternalDecorators.removeInternalDecorator

end MountedAt

theorem docked_removeInternalDecorator (dirty : Bool) (h : e.MountedAt key)
    (hx : e.entries.get? key = some x) :
    (e.removeInternalDecorator key dirty).host.docked =
      e.host.docked ++ x.detaching dirty := by
  unfold removeInternalDecorator Entry.detaching
  rw [hx]
  dsimp only
  cases ha : x.attached with
  | none => cases x.decorator <;> exact (List.append_nil _).symm
  | some p =>
    obtain ⟨d, hd⟩ := Option.isSome_iff_exists.1 ((h x hx).attached (by rw [ha]; rfl))
    have hid := Host.decoratorId_of_get? ((h x hx).decorator d hd)
    rw [hd]
    change (Host.record e.host (.detach (e.host.decoratorId d) p.slot dirty)).docked = _
    rw [Host.docked_record rfl, hid]
    rfl

theorem docked_removeDecorators (h : e.MountedAt key) (hx : e.entries.get? key = some x) :
    (e.removeDecorators key info dirty).2.host.docked = e.host.docked ++ x.detaching dirty := by
  have hsave := exchanged_saveExternalState (D := False) info hx (nomatch ·)
  have hext := exchanged_removeExternalDecorators (D := False) hsave.get?_self (nomatch ·)
  have hdocked := docked_removeInternalDecorator dirty
    (h.saveExternalState info).removeExternalDecorators hext.get?_self
  rw [records_removeExternalDecorators.docked, records_saveExternalState.docked] at hdocked
  exact hdocked

theorem exchanged_decoratorOf_mounted (h : e.MountedAt key) (hx : e.entries.get? key = some x) :
    Exchanged False key x { x with decorator := some (e.decoratorOf key).1 } e.layout e
        (e.decoratorOf key).2 ∧
      (e.decoratorOf key).2.host.objects.get? (e.decoratorOf key).1 = some (.decorator x.id) := by
  unfold decoratorOf
  rw [hx]
  dsimp only
  split
  case h_1 d hd =>
    refine ⟨?_, (h x hx).decorator d hd⟩
    rw [← hd]
    exact .refl hx (nomatch ·)
  case h_2 =>
    have hhost := (Exchanged.refl (D := False) hx (nomatch ·)).onHost
      (f := fun h ↦ (h.decorator x.id).2) Host.keeps_decorator
      (.of_eq (fun _ ha ↦ ha) fun _ ↦ Host.external?_decorator)
    refine ⟨?_, Host.get?_decorator⟩
    exact hhost.andThen (exchanged_updateEntry
      (f := ({ · with decorator := some (e.host.decorator x.id).1 }))
      hhost.get?_self (nomatch ·) rfl rfl rfl)

theorem docked_addInternalDecorator (h : e.MountedAt key) (hx : e.entries.get? key = some x) :
    (e.addInternalDecorator key info dirty).host.docked =
      e.host.docked ++ [.attach x.id info.slot dirty] := by
  obtain ⟨-, hget⟩ := exchanged_decoratorOf_mounted h hx
  change (Host.record (e.decoratorOf key).2.host
    (.attach ((e.decoratorOf key).2.host.decoratorId (e.decoratorOf key).1) info.slot dirty)).docked
      = _
  rw [Host.docked_record rfl, Host.decoratorId_of_get? hget,
    Records.docked (records_decoratorOf (P := HostOp.adorns))]

theorem isSome_of_decoratorOf (hx : (e.decoratorOf key).2.entries.get? key = some x) :
    x.decorator.isSome := by
  unfold decoratorOf at hx
  split at hx
  case h_1 hnone => cases hnone.symm.trans hx
  case h_2 y hy =>
    split at hx
    case h_1 d hd =>
      cases hy.symm.trans hx
      exact Option.isSome_of_eq_some hd
    case h_2 =>
      change (e.updateEntry key fun z ↦
        { z with decorator := some (e.host.decorator y.id).1 }).entries.get? key = some x at hx
      rw [get?_updateEntry_of_get? hy, if_pos rfl] at hx
      cases hx
      rfl

namespace MountedAt

theorem decoratorOf (h : e.MountedAt k) : (e.decoratorOf key).2.MountedAt k := by
  unfold Engine.decoratorOf
  split
  · exact h
  case h_2 x hx =>
    split
    · exact h
    · have hasked : e.host.Records HostOp.adorns (e.host.decorator x.id).2 := Host.records_decorator
      intro y hy
      change ((e.updateEntry key _).entries.get? k) = some y at hy
      rw [get?_updateEntry] at hy
      split at hy
      case isTrue hk =>
        subst hk
        rw [hx, Option.map_some] at hy
        cases hy
        exact ⟨fun d hd ↦ Option.some.inj hd ▸ Host.get?_decorator, fun _ ↦ rfl⟩
      case isFalse => exact (h y hy).keep hasked rfl rfl fun ha ↦ ha

theorem addInternalDecorator (info : WindowInfo) (h : e.MountedAt k) :
    (e.addInternalDecorator key info dirty).MountedAt k := by
  have hattached : ((e.decoratorOf key).2.onHost
      (·.attach (e.decoratorOf key).1 info dirty)).MountedAt k :=
    h.decoratorOf.onHost (P := fun _ ↦ true) (Host.records_record rfl)
  intro y hy
  change (((e.decoratorOf key).2.onHost (·.attach (e.decoratorOf key).1 info dirty)).updateEntry key
    fun x ↦ { x with attached := some info }).entries.get? k = some y at hy
  rw [get?_updateEntry] at hy
  split at hy
  case isTrue hk =>
    obtain ⟨x, hx, rfl⟩ := Option.map_eq_some_iff.1 hy
    have hsome : x.decorator.isSome := isSome_of_decoratorOf (hk ▸ hx :)
    exact ⟨(hattached x hx).decorator, fun _ ↦ hsome⟩
  case isFalse => exact hattached y hy

end MountedAt

theorem maintains_placeExternal {a : Handle} : Maintains (MountedAt k) (placeExternal a info) :=
  maintains_get.bind fun _ ↦ (maintains_check _).bind fun _ ↦
    maintains_modify fun _ h ↦ h.onHost Host.records_setExternalBounds

theorem maintains_openExternal {kind : ExternalKind} :
    Maintains (MountedAt k) (openExternal kind info) :=
  maintains_modifyGet fun _ h ↦ h.congr rfl Host.records_openExternal

theorem maintains_addFloatingDecorator : Maintains (MountedAt k) (addFloatingDecorator key info) :=
  (maintains_modify fun _ h ↦ h.decoratorOf).bind fun _ ↦ maintains_openExternal.bind fun _ ↦
    (maintains_modify fun _ h ↦ h.updateEntry fun _ ↦ ⟨rfl, rfl, fun ha ↦ ha⟩).bind fun _ ↦
      maintains_placeExternal.bind fun _ ↦
        maintains_modify fun _ h ↦ h.onHost Host.records_showExternal

theorem maintains_addWindowedDecorator : Maintains (MountedAt k) (addWindowedDecorator key info) :=
  maintains_get.bind fun _ ↦ (maintains_pure _).ite <|
    (maintains_modify fun _ h ↦ h.decoratorOf).bind fun _ ↦ maintains_openExternal.bind fun _ ↦
      maintains_placeExternal.bind fun _ ↦
        (maintains_modify fun _ h ↦ h.updateEntry fun _ ↦ ⟨rfl, rfl, fun ha ↦ ha⟩).bind fun _ ↦
          (maintains_modify fun _ h ↦ h.onHost Host.records_showExternal).bind fun _ ↦
            (maintains_modify fun _ h ↦ h.onHost Host.records_setExternalMaximized).ite
              (maintains_pure _)

theorem maintains_addDecorator : Maintains (MountedAt k) (addDecorator key info dirty) := by
  unfold addDecorator
  split
  · exact maintains_addFloatingDecorator
  · exact maintains_addWindowedDecorator
  all_goals exact maintains_modify fun _ h ↦ h.addInternalDecorator info

theorem docked_addDecorator (h : e.MountedAt key) (hx : e.entries.get? key = some x) :
    Ensures (addDecorator key info dirty) e fun _ e' ↦ e'.host.docked = e.host.docked ++
      if info.windowType.isInternal then [.attach x.id info.slot dirty] else [] := by
  unfold addDecorator
  split
  case h_1 ht =>
    refine records_addFloatingDecorator.mono fun _ _ hr ↦ hr.docked.trans ?_
    rw [ht]
    exact (List.append_nil _).symm
  case h_2 ht =>
    refine records_addWindowedDecorator.mono fun _ _ hr ↦ hr.docked.trans ?_
    rw [ht]
    exact (List.append_nil _).symm
  all_goals
    rename_i ht
    rw [ht]
    exact ensures_modify.2 (docked_addInternalDecorator h hx)

end Engine

end ToolDock

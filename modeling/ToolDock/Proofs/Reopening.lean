import ToolDock.Proofs.Belongings
import ToolDock.Proofs.Replacement

/-!
External windows that are hidden and shown again. What the user did to a window is saved when it is
hidden, so it opens where it was, if its bounds can be kept; and however often it is hidden and
shown after that, it stays where it opened then. Main statements: `Shelved.reveal` and
`Opened.hideWith` for one window, `Opened.abides` for any number of turns, and `abides_of_reopened`.
-/

namespace ToolDock

namespace Host

variable {h h' : Host} {a k : Handle} {id : String} {w v : ExternalWindow} {info : WindowInfo}

theorem external?_of_externalsOf (h₁ : h.externalsOf id = [(a, w)]) :
    h.external? a = some w ∧ w.id = id := by
  have hm : (a, w) ∈ h.externalsOf id := by rw [h₁]; exact List.mem_singleton_self _
  simp only [externalsOf, List.mem_filter, beq_iff_eq] at hm
  exact ⟨mem_externals.1 hm.1, hm.2⟩

theorem externals_alloc {object : HostObject} (ho : h'.objects = (h.objects.alloc object).2)
    (hobject : object.isExternal = false) : h'.externals = h.externals := by
  rw [externals, ho]
  refine (List.filterMap_append ..).trans ?_
  cases object with
  | external w => cases hobject
  | decorator | button => exact List.append_nil _

theorem externals_openExternal (kind : ExternalKind) : (h.openExternal kind info).2.externals =
    h.externals ++ [(h.next, ⟨info.id, kind, .ofParts h.desktop.externalOrigin ⟨0, 0⟩, false,
      false, false⟩)] :=
  List.filterMap_append ..

theorem externals_updateExternal (f : ExternalWindow → ExternalWindow) :
    (h.updateExternal a f).externals =
      h.externals.map fun r ↦ if r.1 = a then (r.1, f r.2) else r := by
  simp only [externals, updateExternal, HandleTable.modify, List.filterMap_map,
    List.map_filterMap]
  refine List.filterMap_congr fun r _ ↦ ?_
  obtain ⟨k, object⟩ := r
  by_cases hk : k = a <;> cases object <;> simp [hk]

theorem externals_closeExternal (hw : h.external? a = some w) :
    (h.closeExternal a).externals = h.externals.filter (·.1 != a) := by
  simp only [closeExternal, hw, externals, record, HandleTable.free, List.filterMap_filter,
    List.filter_filterMap]
  refine List.filterMap_congr fun r _ ↦ ?_
  obtain ⟨k, object⟩ := r
  by_cases hk : k = a <;> cases object <;> simp [hk, Option.filter]

theorem externals_removeStripeButton : (h.removeStripeButton a).externals = h.externals := by
  unfold removeStripeButton
  split
  case h_1 id hget =>
    simp only [externals, record, HandleTable.free, List.filterMap_filter]
    refine List.filterMap_congr fun r hr ↦ ?_
    obtain ⟨k, object⟩ := r
    by_cases hk : k = a
    · -- the freed handle is that of a button
      have hsome := HandleTable.get?_eq_some_iff.2 hr
      rw [hk, hget] at hsome
      cases hsome
      simp
    · simp [hk]
  case h_2 => rfl

theorem externals_decorator : (h.decorator id).2.externals = h.externals := by
  unfold decorator
  split
  · rfl
  · exact externals_alloc rfl rfl

theorem externalsOf_openExternal (kind : ExternalKind) (hnone : h.externalsOf info.id = []) :
    (h.openExternal kind info).2.externalsOf info.id = [(h.next,
      ⟨info.id, kind, .ofParts h.desktop.externalOrigin ⟨0, 0⟩, false, false, false⟩)] := by
  rw [externalsOf] at hnone ⊢
  rw [externals_openExternal, List.filter_append, hnone]
  simp

theorem externalsOf_updateExternal {f : ExternalWindow → ExternalWindow}
    (h₁ : h.externalsOf id = [(a, w)]) (hf : ∀ w, (f w).id = w.id) :
    (h.updateExternal a f).externalsOf id = [(a, f w)] := by
  have hids : ((·.2.id == id) ∘ fun r : Handle × ExternalWindow ↦
      if r.1 = a then (r.1, f r.2) else r) = (·.2.id == id) := by
    funext r
    by_cases hr : r.1 = a <;> simp [hr, hf]
  rw [externalsOf] at h₁ ⊢
  rw [externals_updateExternal, List.filter_map, hids, h₁]
  simp

theorem externalsOf_shown (kind : ExternalKind) (bounds : Rect)
    (hnone : h.externalsOf info.id = []) :
    (((h.openExternal kind info).2.setExternalBounds h.next bounds).showExternal h.next
      info.activeOnStart).externalsOf info.id =
        [(h.next, ⟨info.id, kind, bounds, true, info.activeOnStart, false⟩)] := by
  have hplaced := externalsOf_updateExternal (f := ({ · with bounds := bounds }))
    (externalsOf_openExternal kind hnone) fun _ ↦ rfl
  exact externalsOf_updateExternal
    (f := ({ · with showing := true, active := info.activeOnStart })) hplaced fun _ ↦ rfl

theorem externalsOf_closeExternal (h₁ : h.externalsOf id = [(a, w)]) :
    (h.closeExternal a).externalsOf id = [] := by
  rw [externalsOf, externals_closeExternal (external?_of_externalsOf h₁).1, List.filter_filter]
  simp only [Bool.and_comm]
  rw [← List.filter_filter]
  rw [externalsOf] at h₁
  rw [h₁]
  simp

theorem externalsOf_congr (hsame : h'.externals = h.externals) :
    h'.externalsOf id = h.externalsOf id := by
  rw [externalsOf, hsame, externalsOf]

end Host

inductive Entry.Holds (x : Entry) (a : Handle) : WindowType → Prop
  | floating (hf : x.floating = some a) (hw : x.windowed = none) : Holds x a .floating
  | windowed (hf : x.floating = none) (hw : x.windowed = some a) : Holds x a .windowed

theorem Entry.Holds.congr {x x' : Entry} {a : Handle} {type : WindowType} (h : x.Holds a type)
    (hf : x'.floating = x.floating) (hw : x'.windowed = x.windowed) : x'.Holds a type := by
  cases h with
  | floating hf' hw' => exact .floating (hf.trans hf') (hw.trans hw')
  | windowed hf' hw' => exact .windowed (hf.trans hf') (hw.trans hw')

theorem Entry.Holds.eq_of_holds {x : Entry} {a a' : Handle} {type : WindowType}
    (h : x.Holds a type) (ha : x.holds a') : a' = a := by
  cases h with
  | floating hf hw | windowed hf hw =>
    simp only [Entry.holds, hf, hw, reduceCtorEq, or_false, false_or, Option.some.injEq] at ha
    exact ha.symm

/-- The only external window of an id is on screen, at the given bounds and under the handle that an
entry holds. -/
def Entry.OnScreen (x : Entry) (h : Host) (id : String) (type : WindowType) (bounds : Rect)
    (maximized : Bool) : Prop :=
  ∃ a w, x.Holds a type ∧ h.externalsOf id = [(a, w)] ∧ w.showing ∧ w.bounds = bounds ∧
    (type = .windowed → w.maximized = maximized)

namespace Engine

variable {e : Engine} {key : SlotKey} {x : Entry} {info : WindowInfo} {dirty : Bool}
  {mutation : HideMutation} {id : String} {type : WindowType} {d : Desktop} {stored : Option Rect}
  {b : Rect} {maximized : Bool} {a : Handle} {w : ExternalWindow} {options : HideOptions}

theorem externals_decoratorOf : (e.decoratorOf key).2.host.externals = e.host.externals := by
  unfold decoratorOf
  split
  · rfl
  · split
    · rfl
    · exact Host.externals_decorator

theorem ensures_placeExternal_opened {Q : Unit → Engine → Prop}
    (h₁ : e.host.externalsOf id = [(a, w)]) (ho : w.bounds.origin = e.host.desktop.externalOrigin)
    (hQ : ∀ b, e.host.desktop.Places info.floatingBounds b →
      Q () (e.onHost (·.setExternalBounds a b))) : Ensures (placeExternal a info) e Q := by
  refine ensures_placeExternal.2 fun b hb ↦ hQ b (Desktop.places_of_place ?_)
  rw [← hb, externalPlacement_eq]
  rw [Host.externalBounds, (Host.external?_of_externalsOf h₁).1]
  exact ho

structure Opens (key : SlotKey) (x : Entry) (info : WindowInfo) (type : WindowType)
    (e e' : Engine) : Prop where
  layout : e'.layout = e.layout
  desktop : e'.host.desktop = e.host.desktop
  opened : ∃ b, e.host.desktop.Places info.floatingBounds b ∧ ∃ x', e'.entries.get? key = some x' ∧
    x'.standing = x.standing ∧ x'.OnScreen e'.host info.id type b info.maximized

theorem externalsOf_decoratorOf : (e.decoratorOf key).2.host.externalsOf id =
    e.host.externalsOf id := Host.externalsOf_congr externals_decoratorOf

theorem ensures_addFloatingDecorator_opens (hx : e.entries.get? key = some x)
    (hw : x.windowed = none) (hnone : e.host.externalsOf info.id = []) :
    Ensures (addFloatingDecorator key info) e fun _ e' ↦ Opens key x info .floating e e' := by
  obtain ⟨d, hdec⟩ := exchanged_decoratorOf (D := False) hx False.elim
  have hnone' : (e.decoratorOf key).2.host.externalsOf info.id = [] :=
    externalsOf_decoratorOf.trans hnone
  simp only [addFloatingDecorator, openExternal, ensures_bind, ensures_modify, ensures_modifyGet]
  refine ensures_placeExternal_opened (Host.externalsOf_openExternal .floating hnone') rfl
    fun b hb ↦ ⟨hdec.layout, hdec.desktop, b, hdec.desktop ▸ hb, _,
      (get?_updateEntry_of_get? hdec.get?_self key).trans (if_pos rfl), rfl, _, _,
      .floating rfl hw, Host.externalsOf_shown .floating b hnone', rfl, rfl, fun h ↦ by cases h⟩

theorem ensures_addWindowedDecorator_opens (hx : e.entries.get? key = some x)
    (hf : x.floating = none) (hnone : e.host.externalsOf info.id = [])
    (hhead : e.host.desktop.headless = false) :
    Ensures (addWindowedDecorator key info) e fun _ e' ↦ Opens key x info .windowed e e' := by
  obtain ⟨d, hdec⟩ := exchanged_decoratorOf (D := False) hx False.elim
  have hnone' : (e.decoratorOf key).2.host.externalsOf info.id = [] :=
    externalsOf_decoratorOf.trans hnone
  simp only [addWindowedDecorator, openExternal, ensures_bind, ensures_modify, ensures_modifyGet,
    ensures_get, ensures_ite, ensures_pure, hhead]
  refine ⟨fun h ↦ absurd h Bool.false_ne_true, fun _ ↦ ?_⟩
  refine ensures_placeExternal_opened (Host.externalsOf_openExternal .windowed hnone') rfl
    fun b hb ↦ ?_
  have hentry := (get?_updateEntry_of_get? (f := ({ · with
    windowed := some (e.decoratorOf key).2.host.next })) hdec.get?_self key).trans (if_pos rfl)
  have hshown := Host.externalsOf_shown .windowed b hnone'
  refine ⟨fun hm ↦ ?_, fun hm ↦ ?_⟩
  · have hmaximized := Host.externalsOf_updateExternal (f := ({ · with maximized := true })) hshown
      fun _ ↦ rfl
    exact ⟨hdec.layout, hdec.desktop, b, hdec.desktop ▸ hb, _, hentry, rfl, _, _, .windowed hf rfl,
      hmaximized, rfl, rfl, fun _ ↦ hm.symm⟩
  · exact ⟨hdec.layout, hdec.desktop, b, hdec.desktop ▸ hb, _, hentry, rfl, _, _, .windowed hf rfl,
      hshown, rfl, rfl, fun _ ↦ (Bool.eq_false_iff.2 hm).symm⟩

theorem ensures_addDecorator_opens (info : WindowInfo) (hx : e.entries.get? key = some x)
    (hf : x.floating = none) (hw : x.windowed = none) (hnone : e.host.externalsOf info.id = [])
    (hopens : info.windowType = .floating ∨
      info.windowType = .windowed ∧ e.host.desktop.headless = false) :
    Ensures (addDecorator key info dirty) e fun _ e' ↦
      Opens key x info info.windowType e e' := by
  rcases hopens with ht | ⟨ht, hhead⟩
  · simp only [addDecorator, ht]
    exact ensures_addFloatingDecorator_opens hx hw hnone
  · simp only [addDecorator, ht]
    exact ensures_addWindowedDecorator_opens hx hf hnone hhead

theorem externals_ensureStripeButton :
    (e.ensureStripeButton key info).host.externals = e.host.externals := by
  unfold ensureStripeButton
  split
  · exact Host.externals_alloc rfl rfl
  · rfl

theorem externals_removeStripeButton :
    (e.removeStripeButton key).host.externals = e.host.externals := by
  unfold removeStripeButton
  split
  · exact Host.externals_removeStripeButton
  · rfl

theorem ensures_showWindow_opens (hl : Located e key x info) (ha : x.available)
    (hf : x.floating = none) (hw : x.windowed = none) (hnone : e.host.externalsOf info.id = [])
    (hopens : info.windowType = .floating ∨
      info.windowType = .windowed ∧ e.host.desktop.headless = false) :
    Ensures (showWindow key info dirty) e fun res e' ↦ res = true ∧
      e'.host.desktop = e.host.desktop ∧ ∃ b, e.host.desktop.Places info.floatingBounds b ∧
        ∃ x' shown, Located e' key x' shown ∧ x'.name = x.name ∧ x'.available ∧
          shown.visible ∧ shown.windowType = info.windowType ∧
            x'.OnScreen e'.host info.id info.windowType b info.maximized := by
  have hexternal : info.windowType.isInternal = false := by
    rcases hopens with ht | ⟨ht, -⟩ <;> rw [ht] <;> rfl
  refine ensures_showWindow hl.entry ha fun order _ ↦ ?_
  rw [Engine.evictFor, if_neg (by simp [hexternal])]
  have hcommit := exchanged_commit (D := False) (info.shownAt order) hl.entry False.elim
  refine (ensures_addDecorator_opens (info.shownAt order) hcommit.get?_self hf hw hnone
    hopens).mono fun _ e₁ hq ↦ ?_
  obtain ⟨hlayout, hdesktop, b, hb, x₁, hx₁, hstanding, a, w, hholds, hone, hseen⟩ := hq
  have hforgot : (e₁.forgetEvicted info.id).entries.get? key = some x₁ := by
    rw [entries_forgetEvicted, hx₁]
  obtain ⟨button, -, hex⟩ := exchanged_ensureStripeButton (D := False) (info.shownAt order) hforgot
    False.elim
  simp only [Entry.standing, Standing.mk.injEq] at hstanding
  refine ⟨rfl, ?_, b, hb, { x₁ with stripeButton := button }, info.shownAt order,
    ⟨hex.get?_self, ?_⟩, hstanding.1, hstanding.2.2.2.trans ha, rfl, rfl, a, w, ?_, ?_, hseen⟩
  · refine hex.desktop.trans ?_
    rw [host_forgetEvicted, hdesktop]
    rfl
  · refine (congrArg (·.get? x₁.id) hex.layout).trans ?_
    rw [layout_forgetEvicted, hlayout, get?_commit_layout, if_pos]
    exact hstanding.2.1.trans (Layout.id_of_get? hl.placement).symm
  · exact hholds.congr rfl rfl
  · refine (Host.externalsOf_congr externals_ensureStripeButton).trans ?_
    rw [host_forgetEvicted]
    exact hone

structure Shelved (key : SlotKey) (id : String) (type : WindowType) (d : Desktop)
    (stored : Option Rect) (maximized : Bool) (e : Engine) : Prop where
  sound : Sound (fun _ ↦ ()) True ∅ ∅ e
  keyed : e.keyOf? id = some key
  entry : ∃ x, e.entries.get? key = some x ∧ x.available ∧ x.info.visible = false
  typed : (e.registeredInfo key).1.windowType = type
  saved : (e.registeredInfo key).1.floatingBounds = stored
  zoomed : type = .windowed → (e.registeredInfo key).1.maximized = maximized
  opens : type = .floating ∨ type = .windowed ∧ d.headless = false
  desktop : e.host.desktop = d
  closed : e.host.externalsOf id = []

structure Opened (key : SlotKey) (id : String) (type : WindowType) (d : Desktop) (bounds : Rect)
    (maximized : Bool) (e : Engine) : Prop where
  sound : Sound (fun _ ↦ ()) True ∅ ∅ e
  keyed : e.keyOf? id = some key
  located : ∃ x info, Located e key x info ∧ x.available ∧ info.visible ∧ info.windowType = type ∧
    x.OnScreen e.host id type bounds maximized
  opens : type = .floating ∨ type = .windowed ∧ d.headless = false
  desktop : e.host.desktop = d

theorem Sound.keyOf?_eq {κ : Type} {detail : Int32 × Bool × Bool → κ} {D : Prop} {s t : Set SlotKey}
    (h : Sound detail D s t e) (hx : e.entries.get? key = some x) :
    e.keyOf? x.name = some key :=
  h.coherent.namesUnique.keyOf?_eq hx

theorem Shelved.reveal (h : Shelved key id type d stored maximized e) :
    Ensures (Engine.reveal id).run e fun _ e' ↦
      ∃ b, d.Places stored b ∧ Opened key id type d b maximized e' := by
  refine (ensures_and (rule_sound.reveal h.sound) (R := fun _ e' ↦ Sound (fun _ ↦ ()) True ∅ ∅ e' →
    ∃ b, d.Places stored b ∧ Opened key id type d b maximized e') ?_).mono
      fun _ _ hq ↦ hq.2 hq.1
  obtain ⟨x, hx, ha, hv⟩ := h.entry
  obtain ⟨y, hy, hname⟩ := get?_of_keyOf? h.keyed
  cases hx.symm.trans hy
  obtain ⟨h₁, hl⟩ := h.sound.registeredInfo hx
  obtain ⟨-, hf, hw⟩ := (Entry.isDecorated_of_hidden hv).1
    ((h.sound.decorated trivial).shape (Set.notMem_empty key) hx)
  have hid : (e.registeredInfo key).1.id = id := (h₁.placement_id hl).trans hname
  have hhost : (e.registeredInfo key).2.host = e.host := by rw [snd_registeredInfo]
  have hclosed : (e.registeredInfo key).2.host.externalsOf (e.registeredInfo key).1.id = [] := by
    rw [hhost, hid, h.closed]
  have hopens := h.opens
  rw [← h.typed, ← h.desktop, ← hhost] at hopens
  simp only [Engine.reveal, ensures_keyOf_bind, ensures_run_get_bind, ensures_run_ite,
    ensures_run_pure, ensures_run_lift_bind, ensures_run_modify, ensures_takeInfo]
  refine ⟨fun k hk ↦ ?_, fun hnone ↦ by cases hnone.symm.trans h.keyed⟩
  cases hk.symm.trans h.keyed
  rw [entryIs_of_get? hx]
  refine ⟨fun hvis ↦ absurd hvis (by simp [hv]), fun _ ↦ ?_⟩
  refine (ensures_showWindow_opens hl ha hf hw hclosed hopens).mono fun res e' hq ↦ ?_
  obtain ⟨rfl, hdesktop, b, hb, x', shown, hl', hname', ha', hv', htype, hscreen⟩ := hq
  obtain ⟨a, w, hholds, hone, hshowing, hbounds, hzoomed⟩ := hscreen
  rw [hhost, h.desktop, h.saved] at hb
  rw [hhost, h.desktop] at hdesktop
  rw [hid] at hone
  rw [h.typed] at htype hholds hzoomed
  refine ⟨fun _ hsound ↦ ⟨b, hb, hsound, ?_, ⟨x', shown, ⟨hl'.entry, hl'.placement⟩, ha', hv',
    htype, a, w, hholds, hone, hshowing, hbounds, fun ht ↦ ?_⟩, h.opens, hdesktop⟩,
    fun hn ↦ absurd rfl hn⟩
  · rw [← hname, ← hname']
    exact hsound.keyOf?_eq hl'.entry
  · exact (hzoomed ht).trans (h.zoomed ht)

theorem externals_applyMutation :
    (e.applyMutation key info mutation).2.host.externals = e.host.externals := by
  cases mutation with
  | none => rfl
  | removeStripeButton | removeFromStripe => exact externals_removeStripeButton

theorem saveExternalState_of_onScreen (info : WindowInfo) (hx : e.entries.get? key = some x)
    (hs : x.OnScreen e.host id type b maximized) :
    (e.saveExternalState key info).1.floatingBounds = some b ∧
      (type = .windowed → (e.saveExternalState key info).1.maximized = maximized) ∧
      ∃ b' m', x.OnScreen (e.saveExternalState key info).2.host id type b' m' := by
  have hkept : ∃ b' m', x.OnScreen (e.saveExternalState key info).2.host id type b' m' := by
    obtain ⟨-, he | ⟨a', ha', he⟩⟩ := saveExternalState_eq info hx
    · exact ⟨b, maximized, he.symm ▸ hs⟩
    · obtain ⟨a, w, hholds, hone, hshowing, -⟩ := hs
      have hrestored := Host.externalsOf_updateExternal (f := ({ · with maximized := false })) hone
        fun _ ↦ rfl
      rw [he, hholds.eq_of_holds ha']
      exact ⟨w.bounds, false, a, _, hholds, hrestored, hshowing, rfl, fun _ ↦ rfl⟩
  obtain ⟨a, w, hholds, hone, hshowing, rfl, hzoomed⟩ := hs
  have hw := (Host.external?_of_externalsOf hone).1
  cases hholds with
  | floating hf =>
    have hsaved : (e.saveExternalState key info).1 = info.capturing .floating w :=
      saveExternalState_of_showsIn hx hf hw
    rw [hsaved]
    exact ⟨rfl, fun ht ↦ absurd ht (by decide), hkept⟩
  | windowed hf hwindowed =>
    have hsaved : (e.saveExternalState key info).1 = info.capturing .windowed w :=
      saveExternalState_of_showsIn hx ⟨hf, hwindowed⟩ hw
    rw [hsaved, WindowInfo.capturing, if_pos hshowing]
    exact ⟨rfl, hzoomed, hkept⟩

theorem externalsOf_removeExternalDecorators (hx : e.entries.get? key = some x)
    (hs : x.OnScreen e.host id type b maximized) :
    (e.removeExternalDecorators key).host.externalsOf id = [] := by
  obtain ⟨a, w, hholds, hone, -⟩ := hs
  cases hholds with
  | floating hf hw =>
    simp only [removeExternalDecorators, hx, hf, hw]
    exact Host.externalsOf_closeExternal hone
  | windowed hf hw =>
    simp only [removeExternalDecorators, hx, hf, hw]
    exact Host.externalsOf_closeExternal hone

theorem externals_removeInternalDecorator :
    (e.removeInternalDecorator key dirty).host.externals = e.host.externals := by
  rw [Host.externals, objects_removeInternalDecorator, Host.externals]

theorem deactivateWindow_of_onScreen (info : WindowInfo) (dirty : Bool) (mutation : HideMutation)
    (hx : e.entries.get? key = some x) (hs : x.OnScreen e.host id type b maximized) :
    (e.deactivateWindow key info dirty mutation).1.floatingBounds = some b ∧
      (type = .windowed →
        (e.deactivateWindow key info dirty mutation).1.maximized = maximized) ∧
      (e.deactivateWindow key info dirty mutation).2.host.externalsOf id = [] := by
  let quiet : Engine := { e with activeStack := e.activeStack.remove key false }
  let off : WindowInfo := { info with visible := false, activeOnStart := false }
  have hx₀ : quiet.entries.get? key = some x := hx
  have hs₀ : x.OnScreen quiet.host id type b maximized := hs
  obtain ⟨-, hex⟩ := exchanged_applyMutation (D := False) off mutation hx₀ False.elim
  have hs₁ : (afterMutation mutation x).OnScreen (quiet.applyMutation key off mutation).2.host id
      type b maximized := by
    obtain ⟨a, w, hholds, hone, hseen⟩ := hs₀
    refine ⟨a, w, ?_, (Host.externalsOf_congr externals_applyMutation).trans hone, hseen⟩
    cases mutation <;> exact hholds.congr rfl rfl
  obtain ⟨hbounds, hzoomed, b', m', hs₂⟩ := saveExternalState_of_onScreen
    (quiet.applyMutation key off mutation).1 hex.get?_self hs₁
  have hx₂ := (exchanged_saveExternalState (D := False) (quiet.applyMutation key off mutation).1
    hex.get?_self False.elim).get?_self
  refine ⟨hbounds, hzoomed, ?_⟩
  exact (Host.externalsOf_congr externals_removeInternalDecorator).trans
    (externalsOf_removeExternalDecorators hx₂ hs₂)

theorem hidden_of_onScreen (dirty : Bool) (mutation : HideMutation) (hl : Located e key x info)
    (hs : x.OnScreen e.host id type b maximized) : ∃ x' off,
      Located (e.hidden key info dirty mutation) key x' off ∧ x'.name = x.name ∧
      x'.available = x.available ∧ x'.info.visible = false ∧ off.windowType = info.windowType ∧
      off.floatingBounds = some b ∧ (type = .windowed → off.maximized = maximized) ∧
      (e.hidden key info dirty mutation).host.externalsOf id = [] ∧
      (e.hidden key info dirty mutation).host.desktop = e.host.desktop := by
  obtain ⟨off, saved, hoff, hsaved, hex⟩ := exchanged_hidden (D := False) info dirty mutation
    hl.entry False.elim
  obtain ⟨hbounds, hzoomed, hclosed⟩ := deactivateWindow_of_onScreen info dirty mutation hl.entry hs
  rw [hsaved] at hbounds hzoomed
  have hstanding := standing_undecorated mutation (x := x)
  simp only [Entry.standing, Standing.mk.injEq] at hstanding
  refine ⟨_, off, ⟨hex.get?_self, ?_⟩, hstanding.1, hstanding.2.2.2, ?_, ?_, hbounds, hzoomed,
    hclosed, hex.desktop⟩
  · rw [hex.layout, Layout.get?_put, if_pos]
    rw [hoff, WindowInfo.id_withState, id_mutated]
    exact hstanding.2.1.trans (Layout.id_of_get? hl.placement).symm
  · rw [hoff, WindowInfo.visible_withState, visible_mutated]
  · rw [hoff, WindowInfo.windowType_withState, windowType_mutated]

theorem Opened.hideWith (h : Opened key id type d b maximized e) :
    Ensures (Engine.hideWith id options).run e fun _ e' ↦
      Shelved key id type d (some b) maximized e' := by
  refine (ensures_and (rule_sound.hideWith h.sound) (R := fun _ e' ↦
    Sound (fun _ ↦ ()) True ∅ ∅ e' → Shelved key id type d (some b) maximized e') ?_).mono
      fun _ _ hq ↦ hq.2 hq.1
  obtain ⟨x, info, hl, ha, hv, htype, hs⟩ := h.located
  obtain ⟨y, hy, hname⟩ := get?_of_keyOf? h.keyed
  cases hl.entry.symm.trans hy
  have hexternal : info.windowType.isInternal = false := by
    rw [htype]
    rcases h.opens with ht | ⟨ht, -⟩ <;> rw [ht] <;> rfl
  simp only [Engine.hideWith, ensures_keyOf_bind, ensures_run_get_bind, ensures_run_ite,
    ensures_run_pure, ensures_run_lift_bind, ensures_run_modify, ensures_run_lift,
    ensures_run_modify_bind, ensures_takeInfo]
  refine ⟨fun k hk ↦ ?_, fun hnone ↦ by cases hnone.symm.trans h.keyed⟩
  cases hk.symm.trans h.keyed
  rw [hl.registeredInfo_eq]
  refine ⟨fun hhid ↦ by simp [hv] at hhid, fun _ ↦ ?_⟩
  generalize (if options.removeFromStripe = true then HideMutation.removeFromStripe else .none) =
    mutation
  obtain ⟨x', off, hl', hname', ha', hv', htype', hbounds, hzoomed, hclosed, hdesktop⟩ :=
    hidden_of_onScreen false mutation hl hs
  -- what follows concerns the host and the listeners only
  have hshelved : ∀ {e'}, Sound (fun _ ↦ ()) True ∅ ∅ e' →
      e'.entries = (e.hidden key info false mutation).entries →
      e'.layout = (e.hidden key info false mutation).layout →
      e'.host.desktop = (e.hidden key info false mutation).host.desktop →
      e'.host.externals = (e.hidden key info false mutation).host.externals →
      Shelved key id type d (some b) maximized e' := by
    intro e' hsound hentries hlayout hdesktop' hexternals
    have hl'' : Located e' key x' off := ⟨hentries ▸ hl'.entry, hlayout ▸ hl'.placement⟩
    have hinfo : (e'.registeredInfo key).1 = off := by rw [hl''.registeredInfo_eq]
    refine ⟨hsound, ?_, ⟨x', hl''.entry, ha'.trans ha, hv'⟩, ?_, ?_, fun ht ↦ ?_, h.opens, ?_, ?_⟩
    · rw [← hname, ← hname']
      exact hsound.keyOf?_eq hl''.entry
    · rw [hinfo, htype', htype]
    · rw [hinfo, hbounds]
    · rw [hinfo, hzoomed ht]
    · rw [hdesktop', hdesktop, h.desktop]
    · rw [Host.externalsOf_congr hexternals, hclosed]
  have hclear : e.clearFor key info false options.hideSide = e := if_neg (by simp [hexternal])
  refine ensures_hideWindow hclear rfl (fun hback ↦ ?_)
    fun _ ↦ ⟨fun _ hsound ↦ hshelved hsound rfl rfl rfl rfl,
      fun _ hsound ↦ hshelved hsound rfl rfl rfl rfl⟩
  obtain ⟨⟨saved, hsaved⟩, -⟩ := exchanged_deactivateWindow (D := False) info false mutation
    hl.entry False.elim
  rw [bringsBack, hsaved, WindowInfo.windowType_withState, windowType_mutated] at hback
  simp [hexternal] at hback

/-- What a user does to an external window. -/
inductive Touch where
  | move (bounds : Rect)
  | maximize (maximized : Bool)

def touch (id : String) (e : Engine) : Touch → Engine
  | .move bounds => e.onHost (·.moveExternal id bounds)
  | .maximize maximized => e.onHost (·.maximizeExternal id maximized)

def Touch.on : Rect × Bool → Touch → Rect × Bool
  | (_, maximized), .move bounds => (bounds, maximized)
  | (bounds, _), .maximize maximized => (bounds, maximized)

theorem Opened.onHost {f : ExternalWindow → ExternalWindow} {g : Host → Host} {b' : Rect}
    {maximized' : Bool} (h : Opened key id type d b maximized e)
    (hid : ∀ w, (f w).id = w.id) (hshowing : ∀ w, (f w).showing = w.showing)
    (hbounds : ∀ w, w.bounds = b → (f w).bounds = b')
    (hzoomed : ∀ w, w.maximized = maximized → (f w).maximized = maximized')
    (hg : ∀ a w, e.host.externalsOf id = [(a, w)] → g e.host = e.host.updateExternal a f) :
    Opened key id type d b' maximized' (e.onHost g) := by
  obtain ⟨x, info, hl, ha, hv, htype, a, w, hholds, hone, hshows, hb, hm⟩ := h.located
  have hchanged := Host.externalsOf_updateExternal hone hid
  rw [← hg a w hone] at hchanged
  have hkeeps : e.host.Keeps (g e.host) := by
    rw [hg a w hone]
    exact ⟨fun _ ↦ Host.isOpen_updateExternal, fun _ ↦ Host.isButton_updateExternal, rfl⟩
  exact ⟨h.sound.congr rfl rfl hkeeps, h.keyed,
    ⟨x, info, ⟨hl.entry, hl.placement⟩, ha, hv, htype, a, f w, hholds, hchanged,
      (hshowing w).trans hshows, hbounds w hb, fun ht ↦ hzoomed w (hm ht)⟩,
    h.opens, hkeeps.desktop.trans h.desktop⟩

theorem Opened.touch (h : Opened key id type d b maximized e) (t : Touch) :
    Opened key id type d (Touch.on (b, maximized) t).1 (Touch.on (b, maximized) t).2
      (e.touch id t) := by
  cases t with
  | move bounds =>
    refine h.onHost (f := ({ · with bounds := bounds })) (g := (·.moveExternal id bounds))
      (fun _ ↦ rfl) (fun _ ↦ rfl) (fun _ _ ↦ rfl) (fun _ hw ↦ hw) fun a w hone ↦ ?_
    rw [Host.moveExternal, hone]
    rfl
  | maximize maximized =>
    refine h.onHost (f := ({ · with maximized := maximized }))
      (g := (·.maximizeExternal id maximized)) (fun _ ↦ rfl) (fun _ ↦ rfl) (fun _ hw ↦ hw)
      (fun _ _ ↦ rfl) fun a w hone ↦ ?_
    rw [Host.maximizeExternal, hone]
    rfl

theorem Opened.touches (h : Opened key id type d b maximized e) (ts : List Touch) :
    Opened key id type d (ts.foldl Touch.on (b, maximized)).1
      (ts.foldl Touch.on (b, maximized)).2 (ts.foldl (Engine.touch id) e) := by
  induction ts generalizing b maximized e with
  | nil => exact h
  | cons t ts ih => exact ih (h.touch t)

/-- Hides a window and shows it again, once for each of the options. -/
def again (id : String) : List HideOptions → Operation Unit
  | [] => pure ()
  | options :: rest => do
    Engine.hideWith id options
    Engine.reveal id
    again id rest

theorem Opened.ensures_again_cons {P : Engine → Prop} {turns : List HideOptions}
    (h : Opened key id type d b maximized e)
    (hP : ∀ b' e', d.Places (some b) b' → Opened key id type d b' maximized e' →
      Ensures (again id turns).run e' fun res e' ↦ res = .ok () → P e') :
    Ensures (again id (options :: turns)).run e fun res e' ↦ res = .ok () → P e' := by
  rw [again, ensures_run_bind]
  refine h.hideWith.mono fun res e₁ hshelved ↦ ⟨fun _ _ ↦ ?_, fun _ _ hok ↦ nomatch hok⟩
  rw [ensures_run_bind]
  refine hshelved.reveal.mono fun res e₂ hopened ↦ ⟨fun _ _ ↦ ?_, fun _ _ hok ↦ nomatch hok⟩
  obtain ⟨b', hb', hopened⟩ := hopened
  exact hP b' e₂ hb' hopened

/-- A window that opened at some place stays there, however often it is hidden and shown. -/
theorem Opened.ensures_again (h : Opened key id type d b maximized e) (hb : d.Places stored b)
    (turns : List HideOptions) : Ensures (again id turns).run e fun res e' ↦
      res = .ok () → Opened key id type d b maximized e' := by
  induction turns generalizing e stored with
  | nil => exact ensures_run_pure.2 fun _ ↦ h
  | cons options turns ih =>
    refine h.ensures_again_cons fun b' e' hb' h' ↦ ?_
    cases hb.again hb'
    exact ih h' hb'

/-- The only external window of an id is on screen at the given bounds, and as maximized as given if
it is a windowed one; and so it is however often the window is hidden and shown. -/
def Abides (e : Engine) (id : String) (type : WindowType) (bounds : Rect) (maximized : Bool) :
    Prop :=
  ∀ turns e', (again id turns).run e = .ok (.ok ()) e' → ∃ a w, e'.host.externalsOf id = [(a, w)] ∧
    w.showing ∧ w.bounds = bounds ∧ (type = .windowed → w.maximized = maximized)

theorem Opened.abides (h : Opened key id type d b maximized e) (hb : d.Places stored b) :
    e.Abides id type b maximized := by
  intro turns e' hrun
  obtain ⟨_, _, -, -, -, -, a, w, -, hseen⟩ := (h.ensures_again hb turns hrun rfl).located
  exact ⟨a, w, hseen⟩

/-- Turns with what the user does before each of them. -/
inductive Reopened (id : String) (e : Engine) : Engine → Prop
  | start : Reopened id e e
  | turn {e₁ e₂ : Engine} (h : Reopened id e e₁) (touches : List Touch) (options : HideOptions)
    (hrun : (again id [options]).run (touches.foldl (touch id) e₁) = .ok (.ok ()) e₂) :
    Reopened id e e₂

theorem Opened.turn {e₁ : Engine} (h : Opened key id type d b maximized e) (touches : List Touch)
    (hrun : (again id [options]).run (touches.foldl (Engine.touch id) e) = .ok (.ok ()) e₁) :
    ∃ b', d.Places (some (touches.foldl Touch.on (b, maximized)).1) b' ∧
      Opened key id type d b' (touches.foldl Touch.on (b, maximized)).2 e₁ :=
  (h.touches touches).ensures_again_cons (P := fun e₁ ↦ ∃ b', d.Places _ b' ∧
      Opened key id type d b' (touches.foldl Touch.on (b, maximized)).2 e₁)
    (fun b' _ hb' h' ↦ ensures_run_pure.2 fun _ ↦ ⟨b', hb', h'⟩) hrun rfl

theorem Reopened.opened {e₁ : Engine} (hr : Reopened id e e₁)
    (h : Opened key id type d b maximized e) (hb : d.Places stored b) :
    ∃ stored' b' maximized', d.Places stored' b' ∧ Opened key id type d b' maximized' e₁ := by
  induction hr with
  | start => exact ⟨stored, b, maximized, hb, h⟩
  | turn _ touches options hrun ih =>
    obtain ⟨-, b', maximized', -, h'⟩ := ih
    obtain ⟨b'', hb'', h''⟩ := h'.turn touches hrun
    exact ⟨_, b'', _, hb'', h''⟩

/-- A hidden window that may be shown in an external window opens where its stored bounds say, with
its stored flag, and stays there however often it is hidden and shown. After any turns in which the
user did anything to it, the next one opens it at the bounds `r` that the user left it with, if they
can be kept, and with its size over the middle of the frame if they cannot and have an area, as
maximized as it was left; and there it stays again. -/
theorem abides_of_reopened {e₁ : Engine} (hcoherent : CoherentCore e) (hdecorated : Decorated e)
    (hkey : e.keyOf? id = some key) (hx : e.entries.get? key = some x) (ha : x.available)
    (hv : x.info.visible = false) (hclosed : e.host.externalsOf id = [])
    (htype : x.info.windowType = .floating ∨
      x.info.windowType = .windowed ∧ e.host.desktop.headless = false)
    (hshow : (Engine.reveal id).run e = .ok (.ok ()) e₁) :
    ∃ b, e.host.desktop.Places (e.registeredInfo key).1.floatingBounds b ∧
      e₁.Abides id x.info.windowType b (e.registeredInfo key).1.maximized ∧
      ∀ e₂, Reopened id e₁ e₂ → ∃ b maximized, e₂.Abides id x.info.windowType b maximized ∧
        ∀ (touches : List Touch) options e₃,
          (again id [options]).run (touches.foldl (touch id) e₂) = .ok (.ok ()) e₃ →
            let left := touches.foldl Touch.on (b, maximized)
            ∃ b', e₃.Abides id x.info.windowType b' left.2 ∧
              (e.host.desktop.keeps left.1 = .ok true → b' = left.1) ∧
              (e.host.desktop.keeps left.1 = .ok false → left.1.isEmpty = false →
                e.host.desktop.center left.1.size = .ok b') := by
  have hsound : Sound (fun _ ↦ ()) True ∅ ∅ e := ⟨hcoherent, fun _ ↦ hdecorated⟩
  obtain ⟨h₁, hl⟩ := hsound.registeredInfo hx
  have hshelved : Shelved key id x.info.windowType e.host.desktop
      (e.registeredInfo key).1.floatingBounds (e.registeredInfo key).1.maximized e :=
    ⟨hsound, hkey, ⟨x, hx, ha, hv⟩, h₁.type_of_located hl, rfl, fun _ ↦ rfl, htype, rfl, hclosed⟩
  obtain ⟨b, hb, hopened⟩ := hshelved.reveal hshow
  refine ⟨b, hb, hopened.abides hb, fun e₂ hr ↦ ?_⟩
  obtain ⟨stored, b, maximized, hb, hopened⟩ := hr.opened hopened hb
  refine ⟨b, maximized, hopened.abides hb, fun touches options e₃ hrun ↦ ?_⟩
  obtain ⟨b', hb', hopened'⟩ := hopened.turn touches hrun
  exact ⟨b', hopened'.abides hb', hb'.eq_of_keeps, hb'.center_of_not_keeps⟩

def floatingRequest : RegisterRequest where
  id := "A"
  anchor := .left
  split := false
  available := true
  hasContent := true
  placement := some { WindowInfo.new "A" .left with
    windowType := .floating, floatingBounds := some ⟨100, 100, 400, 300⟩ }

theorem abides_of_reopened_floatingRequest : ∃ e e₁ e₂,
    (Request.register floatingRequest).run.run blank = .ok (.ok ()) e ∧
      (Engine.reveal "A").run e = .ok (.ok ()) e₁ ∧
      (again "A" [.default]).run e₁ = .ok (.ok ()) e₂ ∧
      e₁.Abides "A" .floating ⟨100, 100, 400, 300⟩ false := by
  have hleads : blank.leadsTo (Engine.register floatingRequest) fun e ↦
      e.keyOf? "A" == some ⟨0, 0⟩ && e.host.externalsOf "A" == [] &&
      (e.entries.get? ⟨0, 0⟩).any (fun x ↦
        x.available && !x.info.visible && x.info.windowType == .floating) &&
      (e.registeredInfo ⟨0, 0⟩).1.floatingBounds == some ⟨100, 100, 400, 300⟩ &&
      !(e.registeredInfo ⟨0, 0⟩).1.maximized &&
      e.host.desktop.keeps ⟨100, 100, 400, 300⟩ == .ok true &&
      e.leadsTo (Engine.reveal "A") fun e₁ ↦ e₁.accepts (again "A" [.default]) := by
    decide +kernel
  obtain ⟨e, hregister, hready⟩ := exists_run_of_leadsTo hleads
  simp only [Bool.and_eq_true, beq_iff_eq, Option.any_eq_true, Bool.not_eq_true'] at hready
  obtain ⟨⟨⟨⟨⟨⟨hkey, hclosed⟩, x, hx, ⟨ha, hv⟩, htype⟩, hstored⟩, hzoomed⟩, hkeeps⟩, hshows⟩ :=
    hready
  obtain ⟨e₁, hshow, hagain⟩ := exists_run_of_leadsTo hshows
  obtain ⟨e₂, hrun⟩ := exists_run_of_accepts hagain
  have hpresents : (Request.register floatingRequest).Presents blank := by
    rintro _ ⟨⟩
    exact ⟨rfl, nofun⟩
  obtain ⟨hcoherent, hdecorated⟩ := decorated_run (coherentOn_of_empty rfl)
    (decoratedOn_of_empty rfl rfl) hpresents hregister
  obtain ⟨b, hb, habides, -⟩ :=
    abides_of_reopened hcoherent hdecorated hkey hx ha hv hclosed (.inl htype) hshow
  rw [hstored] at hb
  rw [hb.eq_of_keeps hkeeps, htype, hzoomed] at habides
  exact ⟨e, e₁, e₂, hregister, hshow, hrun, habides⟩

end Engine

end ToolDock

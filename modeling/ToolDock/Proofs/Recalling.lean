import ToolDock.Proofs.ButtonRequests
import ToolDock.Proofs.Remembering

namespace ToolDock

namespace Engine

variable {e e' e'' : Engine} {key k : SlotKey} {x x' y : Entry} {l : Layout}
  {info cur moved : WindowInfo} {dirty split showButton : Bool} {mutation : HideMutation}
  {id pane : String} {anchor : Anchor} {order : Int32} {type : WindowType} {request : Request}

theorem Recalls.removeStripeButton (h : e.Recalls) (hx : e.entries.get? key = some x) :
    Retains e (e.removeStripeButton key) ∧
      Exchanged False key x { x with stripeButton := none } e.layout e
        (e.removeStripeButton key) := by
  have hex := exchanged_removeStripeButton (D := False) hx False.elim
  exact ⟨h.same hx hex rfl rfl rfl, hex⟩

theorem Recalls.ensureStripeButton (info : WindowInfo) (h : e.Recalls)
    (hl : Located e key x cur) : Retains e (e.ensureStripeButton key info) ∧
      ∃ b, Located (e.ensureStripeButton key info) key { x with stripeButton := b } cur := by
  obtain ⟨b, -, hex⟩ := exchanged_ensureStripeButton (D := False) info hl.entry False.elim
  exact ⟨h.same hl.entry hex rfl rfl rfl, b, hl.exchanged hex rfl⟩

theorem Recalls.unlabelled (h : e.Recalls) (hl : Located e key x cur) (hid : info.id = cur.id)
    (hv : cur.visible = false → info.visible = false) :
    Retains e ((e.removeStripeButton key).commit key info) := by
  obtain ⟨hbare, hex⟩ := h.removeStripeButton hl.entry
  exact hbare.trans (hbare.recalls.commit (hl.exchanged hex rfl) hid hv)

theorem Recalls.applyToEntry (h : e.Recalls) (hl : Located e key x info) :
    Retains e (e.applyToEntry key info) := by
  have hinfo : e.layout.get? info.id = some info := by
    rw [Layout.id_of_get? hl.placement]
    exact hl.placement
  rw [applyToEntry_of_get? hinfo]
  exact h.commit hl rfl fun hoff ↦ hoff

theorem Recalls.moves (h : e.Recalls) (hl : Located e key x cur)
    (hm : Layout.Moves x.id moved e.layout l) (hv : moved.visible = cur.visible) :
    Retains e { e with layout := l } := by
  refine h.of_entries rfl rfl (fun _ ↦ List.Sublist.refl _) fun {id placed} hplaced hoff ↦ ?_
  by_cases hid : id = x.id
  · obtain ⟨placed', hre, hself⟩ := hm.self
    cases hl.eq (hid ▸ hplaced)
    exact ⟨placed', hid ▸ hself, (WindowInfo.visible_of_core hre.core_eq).trans (hv.trans hoff)⟩
  · obtain ⟨placed', hplaced', hre⟩ := exists_right_of_rel (hm.others id hid) hplaced
    exact ⟨placed', hplaced', (WindowInfo.visible_of_core hre.core_eq).trans hoff⟩

theorem Recalls.relabelEntry (h : e.Recalls) (hl : Located e key x info) :
    Retains e (e.relabelEntry info key) := by
  obtain ⟨b, hex⟩ := exchanged_refreshStripeButton (D := False) info hl.entry False.elim
  have hrefreshed := h.same hl.entry hex rfl rfl rfl
  exact hrefreshed.trans (hrefreshed.recalls.applyToEntry (hl.exchanged hex rfl))

theorem Recalls.setAnchor {changed : List WindowInfo} (h : e.Recalls) (hl : Located e key x info)
    (hset : Layout.setAnchor x.id pane anchor order (e.layout.put { info with split := split }) =
      .ok changed l) : Retains e { e with layout := l } := by
  have hstored : Retains e (e.storeInfo { info with split := split }) :=
    h.storeInfo hl rfl fun hoff ↦ hoff
  have hl' : Located (e.storeInfo { info with split := split }) key x
      { info with split := split } := hl.storeInfo rfl
  exact hstored.trans (hstored.recalls.moves hl'
    (Layout.setAnchor_cases hl'.placement hset).1 rfl)

theorem Recalls.shows (h : e.Recalls) (hl : Located e key x cur) (hid : info.id = cur.id) :
    Ensures (Engine.showWindow key info dirty) e fun _ e' ↦ Retains e e' :=
  (h.showWindow dirty hl.entry (hid.trans hl.id_eq)).mono fun _ _ hq ↦ hq.1

theorem fullRule_retains : FullRule Retains where
  settled h := h.recalls.refl
  trans h h' := h.trans h'
  idle h hi := h.trans (h.recalls.of_windows hi.entries hi.windows hi.settings fun _ ↦
    hi.sideStack ▸ List.Sublist.refl _)
  taken h hx := h.recalls.registeredInfo hx
  aside h hl := h.recalls.hideWindow true false .none hl.entry hl.id_eq
  reshown _ h hl hid _ _ := h.recalls.shows hl hid
  pushed h _ := h.trans (h.recalls.of_windows rfl rfl rfl fun _ ↦ List.Sublist.refl _)
  weighed _ h hl := h.recalls.storeInfo hl rfl fun hoff ↦ hoff
  committed h hl hr := h.recalls.commit hl hr.id fun hoff ↦
    (WindowInfo.visible_of_core hr.core).trans hoff
  hidden h hl := (h.recalls.hidden false .none hl.entry hl.id_eq).1
  unlisted h hl _ := h.recalls.unlabelled hl (id_mutated .removeFromStripe) fun hoff ↦
    (visible_mutated .removeFromStripe).trans hoff
  shown _ h hl _ := h.recalls.shows hl rfl
  hides dirty hideSide h hl _ := h.recalls.hideWindow dirty hideSide _ hl.entry hl.id_eq
  kept h hx := (h.names hx).imp fun _ hy ↦ hy.1
  bared h hl := h.recalls.same hl.entry
    (exchanged_removeInternalDecorator true hl.entry False.elim) rfl rfl rfl
  moved h hl hset := h.recalls.setAnchor hl hset
  relabelled h hl := h.recalls.relabelEntry hl
  sibling h hw := relabelSibling_of_named (fun hx ↦ (h.recalls.named hx).1) hw h
    fun hl ↦ h.recalls.relabelEntry hl

theorem Recalls.labelled (info : WindowInfo) (h : e.Recalls) (hl : Located e key x cur)
    (hid : info.id = cur.id) (hv : cur.visible = false → info.visible = false) :
    Retains e (((e.storeInfo info).ensureStripeButton key info).applyToEntry key info) := by
  have hstored := h.storeInfo hl hid hv
  obtain ⟨hbutton, b, hl'⟩ := hstored.recalls.ensureStripeButton info (hl.storeInfo hid)
  exact (hstored.trans hbutton).trans (hbutton.recalls.applyToEntry hl')

theorem Recalls.withdrawButton (info : WindowInfo) (h : e.Recalls) (hl : Located e key x cur)
    (hid : info.id = cur.id) (hv : cur.visible = false → info.visible = false) :
    Ensures (withdrawButton key info) e fun _ e' ↦ Retains e e' := by
  simp only [Engine.withdrawButton, ensures_bind, ensures_get, ensures_ite, ensures_modify]
  refine ⟨fun _ ↦ ?_, fun _ ↦ h.unlabelled hl hid hv⟩
  exact (h.hideWindow false false .removeStripeButton hl.entry (hid.trans hl.id_eq)).mono
    fun _ _ h' ↦ fullRule_retains.idles h' .validatePane

theorem retains_setShowStripeButton : Obeys Retains (setShowStripeButton id showButton) :=
  fun _ h ↦ fullRule_retains.setShowStripeButton h
    (fun _ _ _ _ _ _ _ info h₁ hl _ ↦
      h₁.recalls.labelled { info with showStripeButton := true } hl rfl fun hoff ↦ hoff)
    fun _ _ _ info h₁ hl ↦
      h₁.recalls.withdrawButton { info with showStripeButton := false } hl rfl fun hoff ↦ hoff

theorem Recalls.setAvailable {e₁ : Engine} {available : Bool} (h : e.Recalls)
    (hx : e.entries.get? key = some x)
    (htaken : (e.setAvailable key available).registeredInfo key = (info, e₁)) :
    Retains e e₁ ∧ Located e₁ key { x with available := available } info := by
  have hex := exchanged_updateEntry (D := False) (f := ({ · with available := available })) hx
    False.elim rfl rfl rfl
  have hset : Retains e (e.setAvailable key available) := h.same hx hex rfl rfl rfl
  have hlisted := hset.recalls.registeredInfo hex.get?_self
  rw [htaken] at hlisted
  exact ⟨hset.trans hlisted.1, hlisted.2⟩

theorem retains_makeAvailable : Obeys Retains (makeAvailable id) := by
  refine fullRule_retains.makeAvailable fun e key x h hx _ info e₁ e₂ htaken he₂ ↦ ?_
  obtain ⟨h₁, hl⟩ := h.recalls.setAvailable hx htaken
  have hshown : ∀ {y}, Retains e e₂ → Located e₂ key y info → Retains e e₂ ∧
      (info.visible = true → Ensures (showWindow key info false) e₂ fun _ e' ↦ Retains e e') :=
    fun h₂ hl₂ ↦ ⟨h₂, fun _ ↦ h₂.then (h₂.recalls.shows hl₂ rfl)⟩
  subst he₂
  split
  case isTrue hb =>
    rw [if_pos hb] at hshown
    obtain ⟨hbutton, b, hl₂⟩ := h₁.recalls.ensureStripeButton info hl
    exact hshown (h₁.trans hbutton) hl₂
  case isFalse hb =>
    rw [if_neg hb] at hshown
    exact hshown h₁ hl

theorem retains_makeUnavailable : Obeys Retains (makeUnavailable id) := by
  refine fullRule_retains.makeUnavailable fun e key x h hx _ info e₁ htaken ↦ ?_
  obtain ⟨h₁, hl⟩ := h.recalls.setAvailable hx htaken
  exact h₁.then (h₁.recalls.hideWindow false false .removeStripeButton hl.entry hl.id_eq)

theorem Recalls.retypeVisible (h : e.Recalls) (hl : Located e key x info)
    (hv : x.info.visible = true) :
    Ensures (retypeVisible key id info type) e fun _ e' ↦ Retains e e' := by
  obtain ⟨⟨saved, hsaved⟩, hex⟩ := exchanged_removeDecorators (D := False) info
    info.windowType.isInternal hl.entry False.elim
  refine fullRule_retains.retypeVisible hsaved fun e₂ he₂ ↦ ?_
  have hbare := h.same hl.entry hex rfl rfl rfl
  have hy := hex.get?_self
  generalize (e.removeDecorators key info info.windowType.isInternal).2 = e₁ at hbare hy he₂
  have hemptied : Retains e₁ e₂ ∧ e₂.entries.get? key = some x.undecorated := by
    obtain ⟨-, rfl⟩ | ⟨-, rfl⟩ := he₂
    · exact ⟨hbare.recalls.refl, hy⟩
    · obtain ⟨hemptied, hkey⟩ := hbare.recalls.evictSlot key ((info.withState saved).withType type)
        info.windowType.isInternal
      exact ⟨hemptied, hkey.trans hy⟩
  obtain ⟨h₂, hy₂⟩ := hemptied
  have hid : (info.withState saved).id = x.id := by
    rw [WindowInfo.id_withState]
    exact hl.id_eq
  have hcommit := exchanged_commit (D := False) ((info.withState saved).withType type) hy₂
    False.elim
  -- the window is visible, so nothing of it is in the stacks
  have hstored := h₂.recalls.put hy₂ hcommit hid ⟨rfl, rfl, hid⟩ fun _ _ hoff _ ↦ by
    cases hv.symm.trans hoff
  refine (ensures_addDecorator (D := False) hcommit.get?_self False.elim False.elim).mono ?_
  intro _ e₃ hq
  obtain ⟨x', hdressed, hstanding, -⟩ := hq
  obtain ⟨hname, hxid, hinfo, -⟩ := Standing.mk.inj hstanding
  exact (hbare.trans h₂).trans (hstored.trans
    (hstored.recalls.same hcommit.get?_self hdressed hxid hname hinfo))

theorem retains_setType : Obeys Retains (setType id type) := by
  refine fullRule_retains.setType (fun _ _ _ _ h hl hv ↦ h.recalls.retypeVisible hl hv)
    fun e key x info h hl _ ↦ ?_
  exact h.recalls.commit hl rfl fun hoff ↦ hoff

namespace Recalls

theorem admitted {r : RegisterRequest} {button : Bool} (h : e.Recalls)
    (hnew : e.isRegistered r.id = false) (hin : Intake r e.layout info button l)
    (hid : info.id = r.id) : (Engine.admitted { e with layout := l } r info button).2.Recalls := by
  have hother : ∀ {k y}, e.entries.get? k = some y → y.name ≠ r.id := fun hy ↦
    isNew_of_not_isRegistered hnew hy
  have hcases := get?_admitted { e with layout := l } r info button
  obtain ⟨entries, heq⟩ := admitted_eq { e with layout := l } r info button
  refine ⟨fun {k y} hy ↦ ?_, fun {k k' y y'} hy hy' hname ↦ ?_, ?_, fun w hw ↦ ?_, ?_⟩
  · rw [hcases] at hy
    split at hy
    · cases hy
      exact ⟨hid, hid⟩
    · exact h.named hy
  · rw [hcases] at hy hy'
    split at hy <;> split at hy'
    case isTrue.isTrue hk hk' => exact hk.trans hk'.symm
    case isTrue.isFalse =>
      cases hy
      exact absurd hname.symm (hother hy')
    case isFalse.isTrue =>
      cases hy'
      exact absurd hname (hother hy)
    case isFalse.isFalse => exact h.unique hy hy' hname
  · rw [heq]
    exact h.orderly
  · rw [heq] at hw
    obtain ⟨k, y, placed, hl, hy⟩ := h.off w hw
    refine ⟨k, y, placed, ⟨get?_admitted_of_get? hl.entry, ?_⟩, hy⟩
    rw [layout_admitted]
    refine (hin.get?_other fun heq ↦ hother hl.entry ?_).trans hl.placement
    exact (h.named hl.entry).1.symm.trans (heq.trans hid)
  · rw [heq]
    exact h.disabled

theorem register {r : RegisterRequest} (h : e.Recalls)
    (hown : (Call.request (.register r)).BringsOwn) :
    Ensures (register r).run e fun _ e' ↦ e'.Recalls := by
  refine ensures_register_admitted (fun _ ↦ h) fun hnew info button l hin ↦ ?_
  have hadmitted := (h.admitted hnew hin (hin.id_eq hown)).refl
  exact (fullRule_retains.toToggleRule.settle hadmitted hin).mono fun _ _ hq ↦ hq.2.recalls

theorem quieted (h : e.Recalls) (hl : Located e key x info) : Retains e (e.quieted key info) ∧
    (e.quieted key info).entries.get? key = some x.undecorated := by
  obtain ⟨⟨saved, hsaved⟩, hex⟩ := exchanged_removeDecorators (D := False) info false hl.entry
    False.elim
  have hbare := h.same hl.entry hex rfl rfl rfl
  have hstored : Retains (e.removeDecorators key info false).2
      ((e.removeDecorators key info false).2.storeInfo (e.removeDecorators key info false).1) := by
    rw [hsaved]
    exact hbare.recalls.storeInfo (hl.exchanged hex rfl) WindowInfo.id_withState fun hoff ↦
      WindowInfo.visible_withState.trans hoff
  exact ⟨(hbare.trans hstored).rest (rests_deactivate key true) rfl, hex.get?_self⟩

theorem stripped (h : e.Recalls) (hx : e.entries.get? key = some x) (hid : x.id = id) :
    Retains e (e.stripped key id) ∧ ∀ w ∈ (e.stripped key id).sideStack.evicted, w.id ≠ id := by
  cases hinfo : e.layout.get? id with
  | none =>
    -- what the layout lacks was never evicted
    rw [stripped_of_none hinfo]
    refine ⟨h.refl, fun w hw heq ↦ ?_⟩
    obtain ⟨-, placed, hplaced, -⟩ := h.off_self hx (hid ▸ heq ▸ h.off w hw)
    cases hinfo.symm.trans (hid ▸ hplaced)
  | some info =>
    obtain ⟨hquiet, hx₁⟩ := h.quieted ⟨hx, by rw [hid]; exact hinfo⟩
    obtain ⟨hsub, hforgot⟩ := hquiet.recalls.forgetting_spec id
    obtain ⟨pane, heq⟩ := stripped_of_get? key hinfo
    rw [heq, forgetEvicted_eq]
    have hrestacked := hquiet.recalls.restack hsub
    obtain ⟨hbare, hex⟩ := hrestacked.recalls.removeStripeButton hx₁
    have hkept := (hquiet.trans hrestacked).trans hbare
    refine ⟨fullRule_retains.idles hkept .validatePane, fun w hw ↦ ?_⟩
    exact hforgot w ((congrArg (w ∈ SideStack.evicted ·) hex.sideStack).mp hw)

theorem without (h : e.Recalls) (hx : e.entries.get? key = some x)
    (hforgot : ∀ w ∈ e.sideStack.evicted, w.id ≠ x.id) : (e.without key).Recalls := by
  have hbefore : ∀ {k y}, (e.without key).entries.get? k = some y →
      e.entries.get? k = some y := by
    intro k y hy
    rw [get?_without] at hy
    split at hy
    · cases hy
    · exact hy
  refine ⟨fun hy ↦ h.named (hbefore hy), fun hy hy' ↦ h.unique (hbefore hy) (hbefore hy'),
    h.orderly, fun w hw ↦ ?_, h.disabled⟩
  obtain ⟨k, y, placed, hl, hy, hv⟩ := h.off w hw
  refine ⟨k, y, placed, ⟨?_, hl.placement⟩, hy, hv⟩
  rw [get?_without, if_neg]
  · exact hl.entry
  · rintro rfl
    cases hx.symm.trans hl.entry
    exact hforgot w hw hy.symm

theorem unregister (h : e.Recalls) : (e.unregister id).Recalls := by
  cases hkey : e.keyOf? id with
  | none => rwa [unregister_of_none hkey]
  | some key =>
    obtain ⟨x, hx, hname⟩ := get?_of_keyOf? hkey
    have hid : x.id = id := (h.named hx).1.trans hname
    obtain ⟨hstripped, hforgot⟩ := h.stripped hx hid
    obtain ⟨y, hy, hnames⟩ := hstripped.names hx
    have hyid : y.id = id := (Prod.mk.inj hnames).2.trans hid
    have hgone := hstripped.recalls.without hy (hyid ▸ hforgot)
    rw [unregister_eq hkey]
    exact (fullRule_retains.idles hgone.refl .fire).recalls

end Recalls

theorem Recalls.run_request (h : e.Recalls) (hown : (Call.request request).BringsOwn) :
    Ensures request.run.run e fun _ e' ↦ e'.Recalls := by
  have hk : FullRule Retains := fullRule_retains
  have retains : Obeys Retains request.run → Ensures request.run.run e fun _ e' ↦ e'.Recalls :=
    fun hop ↦ (hop h.refl).mono fun _ _ h' ↦ h'.recalls
  cases request with
  | register r => exact h.register hown
  | unregister id => exact ensures_run_modify.2 h.unregister
  | reveal id => exact retains hk.reveal
  | hide id => exact retains hk.hideWith
  | hideWith id options => exact retains hk.hideWith
  | activate id autoFocus => exact retains hk.activate
  | deactivate id => exact retains hk.deactivate
  | toolWindowFocused id => exact retains hk.toolWindowFocused
  | focusMovedTo focused => exact retains fun _ h ↦ ensures_run_lift.2 (hk.focusMovedTo h)
  | focusByDefault => exact retains hk.focusByDefault.discard
  | setAnchor id pane anchor order => exact retains hk.setAnchor
  | setSideTool id split =>
    exact retains (hk.setSideTool fun _ _ _ _ h hl ↦ h.recalls.storeInfo hl rfl fun hoff ↦ hoff)
  | setSideToolAndAnchor id pane anchor order split => exact retains hk.setSideToolAndAnchor
  | setType id type => exact retains retains_setType
  | setAutoHide id autoHide => exact retains hk.setAutoHide
  | setContentUi id ui => exact retains hk.setContentUi
  | setShowStripeButton id showButton => exact retains retains_setShowStripeButton
  | makeAvailable id => exact retains retains_makeAvailable
  | makeUnavailable id => exact retains retains_makeUnavailable
  | movedOrResized id g => exact retains hk.movedOrResized
  | addPane pane => exact retains fun _ h ↦ ensures_run_modify.2 (hk.idle h .addPane)
  | removePane pane => exact retains fun _ h ↦ ensures_run_lift.2 (hk.removePane h)

end Engine

end ToolDock

import ToolDock.Proofs.Mounting
import ToolDock.Proofs.Requests

namespace ToolDock

theorem Host.records_requestFocus {h : Host} {id : String} :
    h.Records (fun _ ↦ true) (h.requestFocus id).2 := by
  unfold requestFocus
  dsimp only
  split <;> exact .of_objects (.requestFocus id) rfl rfl fun ho ↦ ho

theorem Host.records_activateEditor {h : Host} : h.Records (fun _ ↦ true) h.activateEditor :=
  .of_objects .activateEditor rfl rfl fun ho ↦ ho

namespace Engine

variable {e e' : Engine} {key k : SlotKey} {info : WindowInfo} {dirty hideSide autoFocus : Bool}
  {mutation : HideMutation} {id pane : String} {anchor : Anchor} {order : Int32} {slot : Slot}

namespace MountedAt

theorem applyToEntry (h : e.MountedAt k) : (e.applyToEntry key info).MountedAt k :=
  h.updateEntry fun _ ↦ ⟨rfl, rfl, fun ha ↦ ha⟩

theorem storeInfo (h : e.MountedAt k) : (e.storeInfo info).MountedAt k :=
  h.congr rfl (.refl (P := HostOp.adorns))

theorem commit (h : e.MountedAt k) : (e.commit key info).MountedAt k := h.storeInfo.applyToEntry

theorem registeredInfo (h : e.MountedAt k) : (e.registeredInfo key).2.MountedAt k :=
  h.congr entries_registeredInfo (records_registeredInfo (P := HostOp.adorns)).host

theorem fire {kind : EventKind} {id : Option String} (h : e.MountedAt k) :
    (e.fire kind id).MountedAt k :=
  h.congr rfl (.refl (P := HostOp.adorns))

theorem removeStripeButton (h : e.MountedAt k) : (e.removeStripeButton key).MountedAt k := by
  have hbare : (e.updateEntry key fun x ↦ { x with stripeButton := none }).MountedAt k :=
    h.updateEntry fun _ ↦ ⟨rfl, rfl, fun ha ↦ ha⟩
  unfold Engine.removeStripeButton
  split
  · exact hbare.onHost Host.records_removeStripeButton
  · exact h

theorem createStripeButton (h : e.MountedAt k) : (e.createStripeButton key info).MountedAt k := by
  have hhost : ({ e with host := (e.host.createStripeButton info).2 } : Engine).MountedAt k :=
    h.congr rfl Host.records_createStripeButton
  exact hhost.updateEntry fun _ ↦ ⟨rfl, rfl, fun ha ↦ ha⟩

theorem ensureStripeButton (h : e.MountedAt k) : (e.ensureStripeButton key info).MountedAt k := by
  unfold Engine.ensureStripeButton
  split
  · exact h.createStripeButton
  · exact h

theorem refreshStripeButton (h : e.MountedAt k) : (e.refreshStripeButton key info).MountedAt k := by
  unfold Engine.refreshStripeButton
  dsimp only
  repeat' split
  · exact h.removeStripeButton.createStripeButton
  · exact h.removeStripeButton
  · exact h

theorem deactivateWindow (h : e.MountedAt k) :
    (e.deactivateWindow key info dirty mutation).2.MountedAt k := by
  have hstack : ({ e with activeStack := e.activeStack.remove key false } : Engine).MountedAt k :=
    h.congr rfl (.refl (P := HostOp.adorns))
  unfold Engine.deactivateWindow
  cases mutation with
  | none => exact hstack.removeDecorators _
  | removeStripeButton | removeFromStripe => exact hstack.removeStripeButton.removeDecorators _

theorem hidden (h : e.MountedAt k) : (e.hidden key info dirty mutation).MountedAt k :=
  h.deactivateWindow.commit

theorem evict (h : e.MountedAt k) : (e.evict dirty key).MountedAt k := by
  have hpushed : ∀ s, ({ (e.registeredInfo key).2 with sideStack := s } : Engine).MountedAt k :=
    fun _ ↦ h.registeredInfo.congr rfl (.refl (P := HostOp.adorns))
  unfold Engine.evict
  dsimp only
  split
  · exact (hpushed _).deactivateWindow.commit.fire
  · exact h.registeredInfo.deactivateWindow.commit.fire

theorem evictSlot (h : e.MountedAt k) : (e.evictSlot key info dirty).MountedAt k :=
  List.foldlRecOn _ _ h fun _ h' _ _ ↦ h'.evict

theorem deactivateRegistered (h : e.MountedAt k) :
    (e.deactivateRegistered key dirty).MountedAt k := by
  unfold Engine.deactivateRegistered
  dsimp only
  exact h.registeredInfo.deactivateWindow.commit

theorem clearSide (h : e.MountedAt k) : (e.clearSide key info dirty).MountedAt k := by
  have hcleared : ((e.neighbours key info).foldl (·.deactivateRegistered · dirty) e).MountedAt k :=
    List.foldlRecOn _ _ h fun _ h' _ _ ↦ h'.deactivateRegistered
  exact hcleared.congr rfl (.refl (P := HostOp.adorns))

theorem forgetEvicted (h : e.MountedAt k) : (e.forgetEvicted id).MountedAt k :=
  h.congr entries_forgetEvicted (records_forgetEvicted (P := HostOp.adorns)).host

end MountedAt

theorem maintains_takeInfo : Maintains (MountedAt k) (takeInfo key) :=
  maintains_modifyGet fun _ h ↦ h.registeredInfo

theorem maintains_assignedOrder : Maintains (MountedAt k) (assignedOrder info) := by
  unfold assignedOrder
  exact (maintains_pure _).ite (maintains_get.bind fun _ ↦ maintains_check _)

theorem maintains_showWindow : Maintains (MountedAt k) (showWindow key info dirty) := by
  unfold showWindow
  refine maintains_get.bind fun _ ↦ (maintains_pure _).ite
    (maintains_assignedOrder.bind fun order ↦ ?_)
  dsimp only
  refine Maintains.ite ((maintains_modify fun _ h ↦ h.evictSlot).bind fun _ ↦ ?_) ?_
  all_goals exact (maintains_modify fun _ h ↦ h.commit).bind fun _ ↦
    maintains_addDecorator.bind fun _ ↦
      (maintains_modify fun _ h ↦ h.forgetEvicted.ensureStripeButton.fire).bind fun _ ↦
        maintains_pure _

theorem maintains_restoreFrom {stored : List WindowInfo} :
    Maintains (MountedAt k) (restoreFrom anchor slot dirty stored) := by
  induction stored with
  | nil => exact maintains_pure _
  | cons stored rest ih =>
    unfold restoreFrom
    refine (maintains_modify fun _ h ↦ h.congr rfl (.refl (P := HostOp.adorns))).bind fun _ ↦
      ih.ite (maintains_get.bind fun e ↦ ?_)
    split
    · exact ih
    · exact maintains_get.bind fun _ ↦ ih.ite (maintains_takeInfo.bind fun _ ↦ ih.ite
        (maintains_showWindow.bind fun _ ↦ (maintains_pure _).ite ih))

theorem maintains_hideWindow :
    Maintains (MountedAt k) (hideWindow key info dirty hideSide mutation) := by
  unfold hideWindow restoreEvicted
  dsimp only
  refine Maintains.ite ((maintains_modify fun _ h ↦ h.clearSide).bind fun _ ↦ ?_) ?_
  all_goals exact (maintains_modifyGet fun _ h ↦ h.hidden).bind fun _ ↦ maintains_get.bind fun _ ↦
    (maintains_get.bind fun _ ↦ maintains_restoreFrom).ite (maintains_pure _)

namespace MountedAt

theorem relabelEntry (h : e.MountedAt k) : (e.relabelEntry info key).MountedAt k :=
  h.refreshStripeButton.applyToEntry

theorem relabelSibling (h : e.MountedAt k) : (e.relabelSibling info).MountedAt k := by
  unfold Engine.relabelSibling
  split
  · exact h.relabelEntry
  · exact h

theorem requestFocus (h : e.MountedAt k) : (e.requestFocus id).MountedAt k :=
  h.onHost Host.records_requestFocus

theorem activateEditor (h : e.MountedAt k) : e.activateEditor.MountedAt k :=
  h.onHost Host.records_activateEditor

theorem validatePane (h : e.MountedAt k) : (e.validatePane pane).MountedAt k :=
  h.onHost (P := fun _ ↦ true) (Host.records_record rfl)

theorem repaintPane (h : e.MountedAt k) : (e.repaintPane pane).MountedAt k :=
  h.onHost (P := fun _ ↦ true) (Host.records_record rfl)

theorem validatePanes {first second : String} (h : e.MountedAt k) :
    (e.validatePanes first second).MountedAt k := by
  unfold Engine.validatePanes
  dsimp only
  split
  · exact h.validatePane
  · exact h.validatePane.validatePane

end MountedAt

theorem maintains_onLayout {α : Type} {change : EStateM Fault Layout α} :
    Maintains (MountedAt k) (onLayout change) := by
  intro e h a e' hrun
  unfold onLayout at hrun
  split at hrun
  · cases hrun
    exact h.congr rfl (.refl (P := HostOp.adorns))
  · cases hrun

theorem maintains_relabel : Maintains (MountedAt k) (relabel key pane anchor order) := by
  unfold relabel
  refine maintains_get.bind fun _ ↦ ?_
  split
  · exact maintains_pure _
  · refine maintains_onLayout.bind fun _ ↦ maintains_modify fun e h ↦ ?_
    refine List.foldlRecOn _ _ ?_ fun _ h' _ _ ↦ h'.relabelSibling
    split
    · exact h.relabelEntry
    · exact h

theorem maintains_moveVisible :
    Maintains (MountedAt k) (moveVisible key id info pane anchor order) := by
  unfold moveVisible
  refine maintains_get.bind fun _ ↦ ?_
  dsimp only
  refine (maintains_modify fun _ h ↦ h.removeInternalDecorator).bind fun _ ↦
    maintains_relabel.bind fun _ ↦ maintains_takeInfo.bind fun _ ↦
      maintains_showWindow.bind fun _ ↦ ?_
  refine Maintains.ite ((maintains_modify fun _ h ↦ h.requestFocus).bind fun _ ↦ ?_) ?_
  all_goals exact maintains_modify fun _ h ↦ h.validatePanes.repaintPane

theorem maintains_whileHidden {change : Action Unit} (hchange : Maintains (MountedAt k) change) :
    Maintains (MountedAt k) (whileHidden key change) := by
  unfold whileHidden
  refine maintains_takeInfo.bind fun info ↦ maintains_get.bind fun before ↦ ?_
  dsimp only
  refine Maintains.ite (maintains_hideWindow.bind fun _ ↦ ?_) ?_
  all_goals
    refine hchange.bind fun _ ↦ maintains_takeInfo.bind fun info' ↦ Maintains.ite
      (maintains_showWindow.bind fun _ ↦ Maintains.ite
        ((maintains_modify fun _ h ↦ h.requestFocus).bind fun _ ↦ ?_) ?_) ?_
    all_goals exact maintains_modify fun _ h ↦ h.validatePanes.repaintPane

theorem maintains_changeSplit {split : Bool} : Maintains (MountedAt k) (changeSplit key split) :=
  maintains_takeInfo.bind fun _ ↦
    maintains_modify fun _ h ↦ h.storeInfo.refreshStripeButton.applyToEntry

theorem maintains_changePlace {split : Bool} :
    Maintains (MountedAt k) (changePlace key pane anchor order split) :=
  maintains_takeInfo.bind fun _ ↦ (maintains_modify fun _ h ↦ h.storeInfo).bind fun _ ↦
    maintains_relabel

theorem maintains_retypeVisible {type : WindowType} :
    Maintains (MountedAt k) (retypeVisible key id info type) := by
  unfold retypeVisible
  dsimp only
  refine (maintains_modifyGet fun _ h ↦ h.removeDecorators _).bind fun saved ↦ ?_
  refine Maintains.ite ((maintains_modify fun _ h ↦ h.evictSlot).bind fun _ ↦ ?_) ?_
  all_goals
    refine (maintains_modify fun _ h ↦ h.commit).bind fun _ ↦ maintains_addDecorator.bind fun _ ↦ ?_
    refine maintains_modify fun e h ↦ ?_
    split
    · exact h.requestFocus.validatePane.repaintPane
    · exact h.validatePane.repaintPane

theorem maintains_reveal : Maintains (MountedAt k) (reveal id).run := by
  unfold reveal
  exact (maintains_keyOf id).run_bind fun _ ↦ maintains_run_get.run_bind fun _ ↦
    (maintains_run_pure _).run_ite <| maintains_takeInfo.run_lift.run_bind fun _ ↦
      maintains_showWindow.run_lift.run_bind fun _ ↦
        (maintains_run_modify fun _ h ↦ h.fire).run_ite (maintains_run_pure _)

theorem maintains_removeHiddenFromStripe :
    Maintains (MountedAt k) (removeHiddenFromStripe key id info) :=
  maintains_modify fun _ h ↦ h.removeStripeButton.commit.fire

theorem maintains_hideWith {options : HideOptions} :
    Maintains (MountedAt k) (hideWith id options).run := by
  unfold hideWith
  refine (maintains_keyOf id).run_bind fun _ ↦ maintains_takeInfo.run_lift.run_bind fun info ↦ ?_
  refine Maintains.run_ite (maintains_removeHiddenFromStripe.run_lift.run_ite
    (maintains_run_pure _)) (maintains_run_get.run_bind fun _ ↦ ?_)
  dsimp only
  exact maintains_hideWindow.run_lift.run_bind fun _ ↦
    (maintains_run_modify fun _ h ↦ h.validatePane.fire).run_bind fun _ ↦
      maintains_run_get.run_bind fun _ ↦
        (maintains_run_modify fun _ h ↦ h.activateEditor).run_ite (maintains_run_pure _)

theorem maintains_deactivate : Maintains (MountedAt k) (deactivate id).run := by
  unfold deactivate
  dsimp only
  exact (maintains_keyOf id).run_bind fun _ ↦ maintains_takeInfo.run_lift.run_bind fun info ↦
    (maintains_run_modify fun _ h ↦ h.deactivateWindow.commit.validatePane.fire).run_ite
      (maintains_run_pure _)

theorem maintains_tryFocus : Maintains (MountedAt k) (tryFocus id) := by
  refine maintains_modifyGet fun e h ↦ ?_
  split
  · exact h.requestFocus
  · exact h

theorem maintains_pushActive : Maintains (MountedAt k) (modify (·.pushActive key)) :=
  maintains_modify fun _ h ↦ h.congr rfl (.refl (P := HostOp.adorns))

theorem maintains_activateAvailable :
    Maintains (MountedAt k) (activateAvailable key id info autoFocus) := by
  have hfire : Maintains (MountedAt k) (modify (·.fire .activateToolWindow id)) :=
    maintains_modify fun _ h ↦ h.fire
  have hfront : Maintains (MountedAt k) (modify (·.onHost (·.record (.bringToFront id)))) :=
    maintains_modify fun _ h ↦ h.onHost (P := fun _ ↦ true) (Host.records_record rfl)
  have hlast : ∀ focused : Bool, Maintains (MountedAt k) (if (!focused) = true then
      modify (·.pushActive key) >>= fun _ ↦ modify (·.fire .activateToolWindow id)
      else modify (·.fire .activateToolWindow id)) := fun _ ↦
    (maintains_pushActive.bind fun _ ↦ hfire).ite hfire
  have hfocus : Maintains (MountedAt k) (tryFocus id) := maintains_tryFocus
  have hactive := Maintains.ite (c := autoFocus = true) (hfocus.bind hlast)
    ((maintains_pure false).bind hlast)
  unfold activateAvailable
  exact maintains_get.bind fun _ ↦ (maintains_showWindow.bind fun _ ↦ hactive).ite
    ((maintains_modify fun _ h ↦ h.applyToEntry).bind fun _ ↦
      (hfront.bind fun _ ↦ hactive).ite hactive)

theorem MountedAt.sharedWeight (h : e.MountedAt k) : (e.sharedWeight info).2.MountedAt k := by
  unfold Engine.sharedWeight
  split
  · exact h.storeInfo
  · exact h

theorem maintains_activate : Maintains (MountedAt k) (activate id autoFocus).run := by
  unfold activate
  refine (maintains_keyOf id).run_bind fun _ ↦ maintains_takeInfo.run_lift.run_bind fun info ↦ ?_
  have hshared : Maintains (MountedAt k) (modifyGet (·.sharedWeight info)) :=
    maintains_modifyGet fun _ h ↦ h.sharedWeight
  have hremember : Maintains (MountedAt k) (modify (·.remember id)) :=
    maintains_modify fun _ h ↦ h.congr rfl (.refl (P := HostOp.adorns))
  have hfocus : Maintains (MountedAt k) (modify (·.requestFocus id)) :=
    maintains_modify fun _ h ↦ h.requestFocus
  exact hshared.run_lift.run_bind fun _ ↦ hremember.run_lift.run_bind fun _ ↦
    maintains_run_get.run_bind fun _ ↦ Maintains.run_ite
      (maintains_run_get.run_bind fun _ ↦ hfocus.run_lift.run_ite (maintains_run_pure _))
      maintains_activateAvailable.run_lift

theorem maintains_toolWindowFocused : Maintains (MountedAt k) (toolWindowFocused id).run :=
  (maintains_keyOf id).run_bind fun _ ↦ maintains_pushActive.run_lift

theorem maintains_focusMovedTo {focused : Option String} :
    Maintains (MountedAt k) (focusMovedTo focused) := by
  unfold focusMovedTo
  refine maintains_get.bind fun _ ↦
    (Maintains.forIn _ fun _ ↦ maintains_deactivate.attempt).bind fun _ ↦ ?_
  split
  · refine maintains_get.bind fun _ ↦ maintains_toolWindowFocused.attempt.ite ?_
    exact maintains_modify fun _ h ↦ h.congr rfl (.refl (P := HostOp.adorns))
  · exact maintains_pure _

theorem maintains_focusByDefault : Maintains (MountedAt k) focusByDefault.run := by
  unfold focusByDefault
  refine maintains_run_get.run_bind fun _ ↦ (maintains_check _).run_lift.run_bind fun _ ↦ ?_
  split
  · exact maintains_activate.run_bind fun _ ↦ maintains_run_pure _
  · exact maintains_run_pure _

theorem maintains_setAnchor : Maintains (MountedAt k) (setAnchor id pane anchor order).run := by
  have hfire : Maintains (MountedAt k) (modify (·.fire .setToolWindowAnchor id)) :=
    maintains_modify fun _ h ↦ h.fire
  unfold setAnchor
  refine (maintains_keyOf id).run_bind fun _ ↦ ?_
  refine Maintains.run_ite ((maintains_run_throw _).run_bind fun _ ↦ ?_) ?_
  all_goals exact maintains_run_get.run_bind fun _ ↦ maintains_takeInfo.run_lift.run_bind fun _ ↦
    Maintains.run_ite (Maintains.run_ite
      (maintains_relabel.run_lift.run_bind fun _ ↦ hfire.run_lift)
      (maintains_moveVisible.run_lift.run_bind fun _ ↦ hfire.run_lift)) (maintains_run_pure _)

theorem maintains_setSideTool {split : Bool} :
    Maintains (MountedAt k) (setSideTool id split).run := by
  unfold setSideTool
  refine (maintains_keyOf id).run_bind fun _ ↦ maintains_takeInfo.run_lift.run_bind fun _ ↦
    Maintains.run_ite ?_ (maintains_run_pure _)
  exact (maintains_whileHidden maintains_changeSplit).run_lift.run_bind fun _ ↦
    maintains_run_modify fun _ h ↦ h.fire

theorem maintains_setSideToolAndAnchor {split : Bool} :
    Maintains (MountedAt k) (setSideToolAndAnchor id pane anchor order split).run := by
  unfold setSideToolAndAnchor
  refine (maintains_keyOf id).run_bind fun _ ↦ maintains_run_get.run_bind fun _ ↦
    maintains_takeInfo.run_lift.run_bind fun _ ↦ Maintains.run_ite ?_ (maintains_run_pure _)
  exact (maintains_whileHidden maintains_changePlace).run_lift.run_bind fun _ ↦
    maintains_run_modify fun _ h ↦ h.fire

theorem maintains_setType {type : WindowType} : Maintains (MountedAt k) (setType id type).run := by
  have hfire : Maintains (MountedAt k) (modify (·.fire .setToolWindowType id)) :=
    maintains_modify fun _ h ↦ h.fire
  have hcommit : ∀ key info, Maintains (MountedAt k) (modify (·.commit key info)) := fun _ _ ↦
    maintains_modify fun _ h ↦ h.commit
  unfold setType
  refine (maintains_keyOf id).run_bind fun _ ↦ maintains_takeInfo.run_lift.run_bind fun _ ↦
    Maintains.run_ite (maintains_run_get.run_bind fun _ ↦ ?_) (maintains_run_pure _)
  exact Maintains.run_ite (maintains_retypeVisible.run_lift.run_bind fun _ ↦ hfire.run_lift)
    ((hcommit _ _).run_lift.run_bind fun _ ↦ hfire.run_lift)

theorem maintains_changeProperty {differs : WindowInfo → Bool} {change : WindowInfo → WindowInfo}
    {kind : EventKind} : Maintains (MountedAt k) (changeProperty id differs change kind).run := by
  unfold changeProperty
  exact (maintains_keyOf id).run_bind fun _ ↦ maintains_takeInfo.run_lift.run_bind fun _ ↦
    Maintains.run_ite (maintains_run_modify fun _ h ↦ h.commit.fire) (maintains_run_pure _)

theorem maintains_withdrawButton : Maintains (MountedAt k) (withdrawButton key info) := by
  unfold withdrawButton
  refine Maintains.ite (maintains_get.bind fun _ ↦ maintains_hideWindow.bind fun _ ↦ ?_) ?_
  · exact maintains_modify fun _ h ↦ h.validatePane
  · exact maintains_modify fun _ h ↦ h.removeStripeButton.commit

theorem maintains_setShowStripeButton {showButton : Bool} :
    Maintains (MountedAt k) (setShowStripeButton id showButton).run := by
  have hfire : Maintains (MountedAt k) (modify (·.fire .setShowStripeButton id)) :=
    maintains_modify fun _ h ↦ h.fire
  have hensure : ∀ key info, Maintains (MountedAt k) (modify fun e ↦
      ((e.storeInfo info).ensureStripeButton key info).applyToEntry key info) := fun _ _ ↦
    maintains_modify fun _ h ↦ h.storeInfo.ensureStripeButton.applyToEntry
  unfold setShowStripeButton
  refine (maintains_keyOf id).run_bind fun _ ↦ maintains_takeInfo.run_lift.run_bind fun _ ↦
    Maintains.run_ite ?_ (maintains_run_pure _)
  exact Maintains.run_ite ((hensure _ _).run_lift.run_bind fun _ ↦ hfire.run_lift)
    (maintains_withdrawButton.run_lift.run_bind fun _ ↦ hfire.run_lift)

theorem MountedAt.setAvailable {available : Bool} (h : e.MountedAt k) :
    (e.setAvailable key available).MountedAt k :=
  h.updateEntry fun _ ↦ ⟨rfl, rfl, fun ha ↦ ha⟩

theorem maintains_makeAvailable : Maintains (MountedAt k) (makeAvailable id).run := by
  have hfire : Maintains (MountedAt k) (modify (·.fire .toolWindowAvailable id)) :=
    maintains_modify fun _ h ↦ h.fire
  have hset : ∀ key, Maintains (MountedAt k) (modify (·.setAvailable key true)) := fun _ ↦
    maintains_modify fun _ h ↦ h.setAvailable
  have hensure : ∀ key info, Maintains (MountedAt k) (modify (·.ensureStripeButton key info)) :=
    fun _ _ ↦ maintains_modify fun _ h ↦ h.ensureStripeButton
  unfold makeAvailable
  refine (maintains_keyOf id).run_bind fun _ ↦ maintains_run_get.run_bind fun _ ↦
    Maintains.run_ite ?_ (maintains_run_pure _)
  refine (hset _).run_lift.run_bind fun _ ↦ maintains_takeInfo.run_lift.run_bind fun _ ↦ ?_
  refine Maintains.run_ite ((hensure _ _).run_lift.run_bind fun _ ↦ ?_) ?_
  all_goals
    refine maintains_run_get.run_bind fun _ ↦ ?_
    exact Maintains.run_ite (maintains_showWindow.run_lift.run_bind fun _ ↦ hfire.run_lift)
      hfire.run_lift

theorem maintains_makeUnavailable : Maintains (MountedAt k) (makeUnavailable id).run := by
  have hset : ∀ key, Maintains (MountedAt k) (modify (·.setAvailable key false)) := fun _ ↦
    maintains_modify fun _ h ↦ h.setAvailable
  have hfire : Maintains (MountedAt k) (modify (·.fire .toolWindowUnavailable id)) :=
    maintains_modify fun _ h ↦ h.fire
  unfold makeUnavailable
  refine (maintains_keyOf id).run_bind fun _ ↦ maintains_run_get.run_bind fun _ ↦
    Maintains.run_ite ?_ (maintains_run_pure _)
  exact (hset _).run_lift.run_bind fun _ ↦ maintains_takeInfo.run_lift.run_bind fun _ ↦
    maintains_run_get.run_bind fun _ ↦ maintains_hideWindow.run_lift.run_bind fun _ ↦
      hfire.run_lift.run_bind fun _ ↦
        (maintains_run_modify fun _ h ↦ h.activateEditor).run_ite (maintains_run_pure _)

theorem maintains_movedOrResized {g : DecoratorGeometry} :
    Maintains (MountedAt k) (movedOrResized id g).run := by
  have hlearn : ∀ key info, Maintains (MountedAt k) (learnShares key info g) := fun _ _ ↦
    (maintains_check _).bind fun _ ↦ maintains_modify fun _ h ↦
      (h.congr rfl (.refl (P := HostOp.adorns))).commit
  unfold movedOrResized
  refine (maintains_keyOf id).run_bind fun _ ↦ Maintains.run_ite
    (maintains_takeInfo.run_lift.run_bind fun _ ↦ ?_) (maintains_run_pure _)
  refine Maintains.run_ite (maintains_run_get.run_bind fun _ ↦ ?_) (Maintains.run_ite ?_
    (maintains_run_pure _))
  · split
    · exact maintains_run_modify fun _ h ↦ h.commit.fire
    · exact maintains_run_pure _
  · exact (hlearn _ _).run_lift.run_bind fun _ ↦ maintains_run_modify fun _ h ↦ h.fire

theorem maintains_removePane : Maintains (MountedAt k) (removePane pane) := by
  unfold removePane
  refine Maintains.ite (maintains_get.bind fun _ ↦ ?_) (maintains_pure _)
  refine (Maintains.forIn _ fun _ ↦ maintains_hideWith.attempt).bind fun _ ↦ ?_
  exact maintains_modify fun _ h ↦ h.congr rfl (.refl (P := HostOp.adorns))

theorem MountedAt.addPane (h : e.MountedAt k) : (e.addPane pane).MountedAt k := by
  unfold Engine.addPane
  split
  · exact h
  · exact h.congr rfl (.refl (P := HostOp.adorns))

namespace MountedAt

theorem withdraw (h : e.MountedAt k) : (e.withdraw key id info).MountedAt k := by
  have hremoved : (e.removeDecorators key info false).2.MountedAt k := h.removeDecorators info
  have hstored : ∀ stack, ({ (e.removeDecorators key info false).2.storeInfo
      (e.removeDecorators key info false).1 with activeStack := stack } : Engine).MountedAt k :=
    fun _ ↦ hremoved.congr rfl (.refl (P := HostOp.adorns))
  exact (hstored _).forgetEvicted.removeStripeButton.validatePane

theorem unregister (h : e.MountedAt k) : (e.unregister id).MountedAt k := by
  have hremove : ∀ {e : Engine} {key : SlotKey}, e.MountedAt k →
      ({ e with entries := e.entries.remove key } : Engine).MountedAt k := by
    intro e key h y hy
    rw [SlotTable.get?_remove] at hy
    split at hy
    · cases hy
    · exact h y hy
  unfold Engine.unregister
  split
  · exact h
  · dsimp only
    split
    · exact (hremove h.withdraw).fire
    · exact (hremove h).fire

theorem insert {r : RegisterRequest} (h : e.MountedAt k) :
    ({ e with entries := (e.entries.insert
      (.new r.id info r.available r.hasContent)).2 } : Engine).MountedAt k := by
  intro y hy
  rw [SlotTable.get?_insert] at hy
  split at hy
  · cases hy
    exact ⟨fun _ hd ↦ (nomatch hd), fun ha ↦ (nomatch ha)⟩
  · exact h y hy

end MountedAt

theorem maintains_knownPlacement {r : RegisterRequest} :
    Maintains (MountedAt k) (knownPlacement r).run := by
  unfold knownPlacement
  split
  · refine maintains_run_get.run_bind fun _ ↦ ?_
    split
    · exact maintains_run_throw _
    · exact (maintains_run_modify fun _ h ↦ h.storeInfo).run_bind fun _ ↦ maintains_run_pure _
  · exact maintains_run_get.run_bind fun _ ↦ maintains_run_pure _

theorem maintains_newPlacement {r : RegisterRequest} {needsButton : Bool} :
    Maintains (MountedAt k) (newPlacement r needsButton) := by
  unfold newPlacement
  refine Maintains.ite (maintains_get.bind fun _ ↦ (maintains_check _).bind fun _ ↦ ?_)
    (maintains_pure _)
  exact (maintains_modify fun _ h ↦ h.congr rfl (.refl (P := HostOp.adorns))).bind fun _ ↦
    maintains_pure _

theorem maintains_insertEntry {r : RegisterRequest} {needsButton : Bool} :
    Maintains (MountedAt k) (insertEntry r info needsButton) := by
  refine maintains_modifyGet fun e h ↦ ?_
  cases needsButton with
  | true => exact h.insert.createStripeButton
  | false => exact h.insert

theorem maintains_register {r : RegisterRequest} : Maintains (MountedAt k) (register r).run := by
  have hsettle : ∀ needsButton info, Maintains (MountedAt k) (settle r needsButton info).run := by
    intro needsButton info
    have hlast : Maintains (MountedAt k) (modify fun e ↦ (e.validatePane
        (e.paneFor (entered r info).pane)).fire .registerToolWindow r.id) :=
      maintains_modify fun _ h ↦ h.validatePane.fire
    have hfocus : Maintains (MountedAt k) (modify (·.requestFocus r.id)) :=
      maintains_modify fun _ h ↦ h.requestFocus
    unfold settle
    refine maintains_insertEntry.run_lift.run_bind fun _ ↦ Maintains.run_ite
      (maintains_showWindow.run_lift.run_bind fun _ ↦ maintains_run_get.run_bind fun _ ↦ ?_)
      hlast.run_lift
    exact Maintains.run_ite (hfocus.run_lift.run_bind fun _ ↦ hlast.run_lift) hlast.run_lift
  unfold register
  refine maintains_run_get.run_bind fun _ ↦ ?_
  refine Maintains.run_ite ((maintains_run_throw _).run_bind fun _ ↦ ?_) ?_
  all_goals
    refine maintains_knownPlacement.run_bind fun known ↦ ?_
    cases known with
    | some info => exact hsettle _ info
    | none => exact maintains_newPlacement.run_lift.run_bind fun info ↦ hsettle _ info

theorem maintains_run (request : Request) : Maintains (MountedAt k) request.run.run := by
  cases request with
  | register r => exact maintains_register
  | unregister id => exact maintains_run_modify fun _ h ↦ h.unregister
  | reveal id => exact maintains_reveal
  | hide id => exact maintains_hideWith
  | hideWith id options => exact maintains_hideWith
  | activate id autoFocus => exact maintains_activate
  | deactivate id => exact maintains_deactivate
  | toolWindowFocused id => exact maintains_toolWindowFocused
  | focusMovedTo focused => exact maintains_focusMovedTo.run_lift
  | focusByDefault => exact maintains_focusByDefault.run_bind fun _ ↦ maintains_run_pure _
  | setAnchor id pane anchor order => exact maintains_setAnchor
  | setSideTool id split => exact maintains_setSideTool
  | setSideToolAndAnchor id pane anchor order split => exact maintains_setSideToolAndAnchor
  | setType id type => exact maintains_setType
  | setAutoHide id autoHide => exact maintains_changeProperty
  | setContentUi id ui => exact maintains_changeProperty
  | setShowStripeButton id showButton => exact maintains_setShowStripeButton
  | makeAvailable id => exact maintains_makeAvailable
  | makeUnavailable id => exact maintains_makeUnavailable
  | movedOrResized id g => exact maintains_movedOrResized
  | addPane pane => exact maintains_run_modify fun _ h ↦ h.addPane
  | removePane pane => exact maintains_removePane.run_lift

theorem Session.mounted {allowed : Engine → Request → Prop} (hs : Session allowed e e')
    (h : e.Mounted) : e'.Mounted := by
  induction hs with
  | start => exact h
  | step _ _ hrun ih => exact fun k ↦ maintains_run _ (ih k) hrun

namespace MountedAt

theorem foretold {l : Layout} {changes : List LayoutChange} (h : e.MountedAt k) :
    ((e.replaceLayout l).foretold changes).MountedAt k :=
  List.foldlRecOn _ _ (h.congr rfl (.refl (P := HostOp.adorns))) fun _ h' _ _ ↦ h'.applyToEntry

end MountedAt

end Engine

end ToolDock

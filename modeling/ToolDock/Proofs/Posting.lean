import ToolDock.Engine.Session

namespace ToolDock.Engine

variable {α β : Type} {e : Engine} {key : SlotKey} {info : WindowInfo} {dirty : Bool}
  {mutation : HideMutation}

def post (e : Engine) : Debouncer Nat Layout × List Layout := (e.scheduled, e.mailbox)

def leftBy (r : EStateM.Result Fault Engine α) : Engine :=
  match r with
  | .ok _ e => e
  | .error _ e => e

def LeavesPost (x : Action α) : Prop := ∀ e, (leftBy (x e)).post = e.post

theorem leavesPost_pure (a : α) : LeavesPost (pure a) := fun _ ↦ rfl

theorem leavesPost_get : LeavesPost get := fun _ ↦ rfl

theorem leavesPost_modify {f : Engine → Engine} (hf : ∀ e, (f e).post = e.post) :
    LeavesPost (modify f) := hf

theorem leavesPost_modifyGet {f : Engine → α × Engine} (hf : ∀ e, (f e).2.post = e.post) :
    LeavesPost (modifyGet f) := hf

theorem leavesPost_check (x : Checked α) : LeavesPost (check x) := by
  cases x with
  | ok a => exact leavesPost_pure a
  | error f => exact fun _ ↦ rfl

theorem LeavesPost.bind {x : Action α} {f : α → Action β} (hx : LeavesPost x)
    (hf : ∀ a, LeavesPost (f a)) : LeavesPost (x >>= f) := by
  intro e
  have hrun : (x >>= f) e = EStateM.bind x f e := rfl
  have he := hx e
  rw [hrun, EStateM.bind]
  cases hx : x e with
  | ok a e' =>
    rw [hx] at he
    exact (hf a e').trans he
  | error f e' =>
    rw [hx] at he
    exact he

theorem LeavesPost.ite {c : Prop} [Decidable c] {x y : Action α} (hx : LeavesPost x)
    (hy : LeavesPost y) : LeavesPost (if c then x else y) := by
  split
  · exact hx
  · exact hy

theorem LeavesPost.mapM {f : α → Action β} (hf : ∀ a, LeavesPost (f a)) (xs : List α) :
    LeavesPost (xs.mapM f) := by
  induction xs with
  | nil => exact leavesPost_pure _
  | cons x xs ih =>
    rw [List.mapM_cons]
    exact (hf x).bind fun _ ↦ ih.bind fun _ ↦ leavesPost_pure _

theorem LeavesPost.run_lift {x : Action α} (hx : LeavesPost x) :
    LeavesPost (liftM x : Operation α).run := .bind hx fun _ ↦ leavesPost_pure _

theorem LeavesPost.run_bind {x : Operation α} {f : α → Operation β} (hx : LeavesPost x.run)
    (hf : ∀ a, LeavesPost (f a).run) : LeavesPost (x >>= f).run := by
  rw [ExceptT.run_bind]
  refine .bind hx fun r ↦ ?_
  cases r with
  | ok a => exact hf a
  | error error => exact leavesPost_pure _

theorem post_updateEntry {f : Entry → Entry} : (e.updateEntry key f).post = e.post := rfl

theorem post_commit : (e.commit key info).post = e.post := rfl

theorem post_fire {kind : EventKind} {id : Option String} : (e.fire kind id).post = e.post := rfl

theorem post_foldl {f : Engine → α → Engine} (hf : ∀ e a, (f e a).post = e.post) (xs : List α) :
    (xs.foldl f e).post = e.post := by
  induction xs generalizing e with
  | nil => rfl
  | cons x xs ih => exact ih.trans (hf e x)

theorem post_registeredInfo : (e.registeredInfo key).2.post = e.post := by
  unfold registeredInfo
  split
  · rfl
  · split <;> rfl

theorem post_removeStripeButton : (e.removeStripeButton key).post = e.post := by
  unfold removeStripeButton
  split <;> rfl

theorem post_ensureStripeButton : (e.ensureStripeButton key info).post = e.post := by
  unfold ensureStripeButton
  split <;> rfl

theorem post_resetStripeButton : (e.resetStripeButton key info).post = e.post := by
  unfold resetStripeButton
  dsimp only
  split
  · rw [post_ensureStripeButton, post_removeStripeButton]
  · exact post_removeStripeButton

theorem post_decoratorOf : (e.decoratorOf key).2.post = e.post := by
  unfold decoratorOf
  split
  · rfl
  · split <;> rfl

theorem post_saveExternalState : (e.saveExternalState key info).2.post = e.post := by
  unfold saveExternalState
  split
  · rfl
  · split
    · rfl
    · dsimp only
      split
      · split <;> rfl
      · rfl
    · rfl

theorem post_closeHandle (handle : Option Handle) : (e.closeHandle handle).post = e.post := by
  unfold closeHandle
  split <;> rfl

theorem post_removeExternalDecorators : (e.removeExternalDecorators key).post = e.post := by
  unfold removeExternalDecorators
  split
  · rfl
  · rw [post_closeHandle, post_closeHandle, post_updateEntry]

theorem post_removeInternalDecorator : (e.removeInternalDecorator key dirty).post = e.post := by
  unfold removeInternalDecorator
  split
  · rfl
  · dsimp only
    split <;> rfl

theorem post_removeDecorators : (e.removeDecorators key info dirty).2.post = e.post := by
  unfold removeDecorators
  rw [post_removeInternalDecorator, post_removeExternalDecorators, post_saveExternalState]

theorem post_addInternalDecorator : (e.addInternalDecorator key info dirty).post = e.post :=
  post_decoratorOf (e := e)

theorem post_applyMutation : (e.applyMutation key info mutation).2.post = e.post := by
  cases mutation with
  | none => rfl
  | removeStripeButton | removeFromStripe => exact post_removeStripeButton

theorem post_deactivateWindow :
    (e.deactivateWindow key info dirty mutation).2.post = e.post := by
  unfold deactivateWindow
  rw [post_removeDecorators, post_applyMutation]
  rfl

theorem post_evict : (e.evict dirty key).post = e.post := by
  have hkept : ∀ {c : Prop} [Decidable c] {e : Engine} {stack : SideStack},
      (if c then { e with sideStack := stack } else e).post = e.post := by
    intro c _ e stack
    split <;> rfl
  unfold evict
  rw [post_fire, post_commit, post_deactivateWindow, hkept, post_registeredInfo]

theorem post_evictSlot : (e.evictSlot key info dirty).post = e.post :=
  post_foldl (fun _ _ ↦ post_evict) _

theorem post_forgetEvicted (id : String) : (e.forgetEvicted id).post = e.post := by
  unfold forgetEvicted
  split <;> rfl

theorem post_deactivateRegistered : (e.deactivateRegistered key dirty).post = e.post := by
  unfold deactivateRegistered
  rw [post_commit, post_deactivateWindow, post_registeredInfo]

theorem post_clearSide : (e.clearSide key info dirty).post = e.post :=
  post_foldl (f := fun e key ↦ e.deactivateRegistered key dirty)
    (fun _ _ ↦ post_deactivateRegistered) (e.neighbours key info)

theorem leavesPost_placeExternal (handle : Handle) : LeavesPost (placeExternal handle info) :=
  .bind leavesPost_get fun _ ↦ .bind (leavesPost_check _) fun _ ↦ leavesPost_modify fun _ ↦ rfl

theorem leavesPost_openExternal (kind : ExternalKind) : LeavesPost (openExternal kind info) :=
  leavesPost_modifyGet fun _ ↦ rfl

theorem leavesPost_addDecorator : LeavesPost (addDecorator key info dirty) := by
  have hdecorator : LeavesPost (modify fun e ↦ (e.decoratorOf key).2) :=
    leavesPost_modify fun _ ↦ post_decoratorOf
  unfold addDecorator
  split
  · exact .bind hdecorator fun _ ↦ .bind (leavesPost_openExternal _) fun handle ↦
      .bind (leavesPost_modify fun _ ↦ rfl) fun _ ↦ .bind (leavesPost_placeExternal handle) fun _ ↦
        leavesPost_modify fun _ ↦ rfl
  · unfold addWindowedDecorator
    exact .bind leavesPost_get fun _ ↦ .ite (leavesPost_pure _) <| .bind hdecorator fun _ ↦
      .bind (leavesPost_openExternal _) fun handle ↦ .bind (leavesPost_placeExternal handle) fun _ ↦
        .bind (leavesPost_modify fun _ ↦ rfl) fun _ ↦ .bind (leavesPost_modify fun _ ↦ rfl) fun _ ↦
          .ite (leavesPost_modify fun _ ↦ rfl) (leavesPost_pure _)
  all_goals exact leavesPost_modify fun _ ↦ post_addInternalDecorator

theorem leavesPost_showWindow : LeavesPost (showWindow key info dirty) := by
  have horder : LeavesPost (assignedOrder info) :=
    .ite (leavesPost_pure _) (.bind leavesPost_get fun _ ↦ leavesPost_check _)
  unfold showWindow
  refine .bind leavesPost_get fun _ ↦ .ite (leavesPost_pure _) (.bind horder fun order ↦ ?_)
  dsimp only
  refine .ite (.bind (leavesPost_modify fun _ ↦ post_evictSlot) fun _ ↦ ?_) ?_
  all_goals
    refine .bind (leavesPost_modify fun _ ↦ post_commit) fun _ ↦
      .bind leavesPost_addDecorator fun _ ↦ .bind (leavesPost_modify fun e ↦ ?_) fun _ ↦
        leavesPost_pure _
    rw [post_fire, post_ensureStripeButton, post_forgetEvicted]

theorem leavesPost_restoreFrom {anchor : Anchor} {slot : Slot} {stored : List WindowInfo} :
    LeavesPost (restoreFrom anchor slot dirty stored) := by
  induction stored with
  | nil => exact leavesPost_pure _
  | cons stored rest ih =>
    unfold restoreFrom
    refine .bind (leavesPost_modify fun _ ↦ rfl) fun _ ↦ .ite ih (.bind leavesPost_get fun e ↦ ?_)
    split
    · exact ih
    · exact .bind leavesPost_get fun _ ↦ .ite ih <|
        .bind (leavesPost_modifyGet fun _ ↦ post_registeredInfo) fun _ ↦ .ite ih <|
          .bind leavesPost_showWindow fun _ ↦ .ite (leavesPost_pure _) ih

theorem leavesPost_hideWindow {hideSide : Bool} :
    LeavesPost (hideWindow key info dirty hideSide mutation) := by
  have hhidden : LeavesPost (modifyGet fun e ↦ ((e.deactivateWindow key info dirty mutation).1,
      (e.deactivateWindow key info dirty mutation).2.commit key
        (e.deactivateWindow key info dirty mutation).1)) :=
    leavesPost_modifyGet fun e ↦ by rw [post_commit, post_deactivateWindow]
  unfold hideWindow restoreEvicted
  dsimp only
  refine .ite (.bind (leavesPost_modify fun _ ↦ post_clearSide) fun _ ↦ ?_) ?_
  all_goals
    refine .bind hhidden fun hidden ↦ .bind leavesPost_get fun _ ↦ .ite ?_ (leavesPost_pure _)
    exact .bind leavesPost_get fun _ ↦ leavesPost_restoreFrom

theorem post_applyHiding (c : LayoutChange) : (applyHiding c e).2.post = e.post := by
  unfold applyHiding
  split
  · exact post_removeDecorators
  · rfl

theorem leavesPost_applyPlace (c : LayoutChange) : LeavesPost (applyPlace c) := by
  have hmove : LeavesPost (if c.movesSlot then do
      modify (·.removeInternalDecorator c.key true)
      let _ ← showWindow c.key c.new true
      pure true
      else pure false) :=
    .ite (.bind (leavesPost_modify fun _ ↦ post_removeInternalDecorator) fun _ ↦
      .bind leavesPost_showWindow fun _ ↦ leavesPost_pure _) (leavesPost_pure _)
  unfold applyPlace
  exact .ite (.bind (leavesPost_modify fun _ ↦ post_resetStripeButton) fun _ ↦ hmove) hmove

theorem leavesPost_applyChange (c : LayoutChange) : LeavesPost (applyChange c) := by
  have hcommit : ∀ c : LayoutChange, LeavesPost (do modify (·.commit c.key c.new); pure c) :=
    fun _ ↦ .bind (leavesPost_modify fun _ ↦ post_commit) fun _ ↦ leavesPost_pure _
  unfold applyChange
  refine .bind (leavesPost_modifyGet fun _ ↦ post_applyHiding c) fun c ↦
    .bind (leavesPost_applyPlace c) fun shown ↦ ?_
  dsimp only
  refine .ite (.bind leavesPost_hideWindow fun _ ↦ ?_) ?_
  all_goals
    refine .ite (.bind (leavesPost_modify fun _ ↦ post_removeDecorators) fun _ ↦ ?_) ?_
    all_goals exact .ite (.bind leavesPost_addDecorator fun _ ↦ hcommit c) (hcommit c)

theorem post_applySize (changes : List LayoutChange) (c : LayoutChange) :
    (applySize changes e c).post = e.post := by
  unfold applySize
  dsimp only
  repeat' split
  all_goals rfl

theorem post_finishLayout (changes : List LayoutChange) :
    (e.finishLayout changes).post = e.post := by
  have hframes : ∀ {e : Engine} (frames : List UInt32),
      (frames.foldl repaintFrame e).post = e.post := post_foldl fun _ _ ↦ rfl
  have hpanes : ∀ {e : Engine} (panes : List String),
      (panes.foldl validatePane e).activateEditor.post = e.post := post_foldl fun _ _ ↦ rfl
  unfold finishLayout
  rw [post_fire, hframes, hpanes]

theorem leavesPost_applyChanges (changes : List LayoutChange) :
    LeavesPost (applyChanges changes) := by
  unfold applyChanges
  have hentries : ∀ e : Engine, (changes.foldl (fun e c ↦ e.applyToEntry c.key c.new) e).post =
      e.post :=
    fun _ ↦ post_foldl (f := fun e (c : LayoutChange) ↦ e.applyToEntry c.key c.new)
      (fun _ _ ↦ rfl) _
  refine .bind (leavesPost_modify hentries) fun _ ↦
    .bind leavesPost_get fun _ ↦ .bind (.mapM leavesPost_applyChange _) fun applied ↦
      leavesPost_modify fun e ↦ ?_
  rw [post_finishLayout]
  exact post_foldl (fun _ _ ↦ post_applySize _ _) _

theorem leavesPost_setLayout (l : Layout) : LeavesPost (setLayout l).run := by
  unfold setLayout
  split
  · exact leavesPost_pure _
  · refine .run_bind (.run_lift leavesPost_get) fun e ↦ ?_
    dsimp only
    refine .run_bind (.run_lift (leavesPost_modify fun _ ↦ rfl)) fun _ ↦ ?_
    split
    · exact .run_lift (leavesPost_applyChanges _)
    · exact leavesPost_pure _

end ToolDock.Engine

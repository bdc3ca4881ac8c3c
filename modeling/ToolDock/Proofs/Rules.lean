import ToolDock.Engine.Attributes
import ToolDock.Engine.Focus
import ToolDock.Engine.Registration
import ToolDock.Engine.Resizing
import ToolDock.Proofs.Moving

/-!
Rules: relations between an engine and what becomes of it that all parts keep to of which operations
are made. Each operation is gone through once, for whatever rule.
-/

namespace ToolDock

/-- The placements tell the same about where a window is, whether it is visible, and whether it asks
for a stripe button. -/
structure WindowInfo.Resembles (info cur : WindowInfo) : Prop where
  id : info.id = cur.id
  core : info.core = cur.core
  order : info.order = cur.order
  asks : info.showStripeButton = cur.showStripeButton

namespace Engine

variable {K : Engine → Engine → Prop} {e e' e'' : Engine} {key : SlotKey} {x y : Entry}
  {info cur : WindowInfo} {id pane : String} {anchor : Anchor} {order : Int32} {type : WindowType}
  {split : Bool} {α : Type}

/-- Nothing is done but what the host merely records, what the listeners are told, and what makes
the histories shorter. -/
structure Idles (e e' : Engine) : Prop where
  entries : e'.entries = e.entries
  windows : e'.layout.windows = e.layout.windows
  settings : e'.settings = e.settings
  sideStack : e'.sideStack = e.sideStack
  objects : e'.host.objects = e.host.objects
  desktop : e'.host.desktop = e.host.desktop
  transient : e'.activeStack.transient ⊆ e.activeStack.transient
  persistent : e'.activeStack.persistent ⊆ e.activeStack.persistent

namespace Idles

theorem refl : Idles e e := ⟨rfl, rfl, rfl, rfl, rfl, rfl, fun _ h ↦ h, fun _ h ↦ h⟩

theorem trans (h : Idles e e') (h' : Idles e' e'') : Idles e e'' where
  entries := h'.entries.trans h.entries
  windows := h'.windows.trans h.windows
  settings := h'.settings.trans h.settings
  sideStack := h'.sideStack.trans h.sideStack
  objects := h'.objects.trans h.objects
  desktop := h'.desktop.trans h.desktop
  transient := List.Subset.trans h'.transient h.transient
  persistent := List.Subset.trans h'.persistent h.persistent

theorem located (h : Idles e e') (hl : Located e key x info) : Located e' key x info where
  entry := h.entries ▸ hl.entry
  placement := by
    rw [Layout.get?, h.windows]
    exact hl.placement

theorem onHost {f : Host → Host} (ho : (f e.host).objects = e.host.objects)
    (hd : (f e.host).desktop = e.host.desktop) : Idles e (e.onHost f) :=
  ⟨rfl, rfl, rfl, rfl, ho, hd, fun _ h ↦ h, fun _ h ↦ h⟩

theorem fire {kind : EventKind} {id : Option String} : Idles e (e.fire kind id) :=
  ⟨rfl, rfl, rfl, rfl, rfl, rfl, fun _ h ↦ h, fun _ h ↦ h⟩

theorem requestFocus : Idles e (e.requestFocus id) := by
  refine onHost ?_ ?_
  all_goals
    unfold Host.requestFocus
    dsimp only
    split <;> rfl

theorem activateEditor : Idles e e.activateEditor := onHost rfl rfl

theorem validatePane : Idles e (e.validatePane pane) := onHost rfl rfl

theorem repaintPane : Idles e (e.repaintPane pane) :=
  onHost (f := (·.record (.repaintFrame (e.host.frameOf pane)))) rfl rfl

theorem validatePanes {first second : String} : Idles e (e.validatePanes first second) := by
  unfold Engine.validatePanes
  split
  · exact validatePane
  · exact validatePane.trans validatePane

theorem repainted (h : Idles e e') (first second : String) :
    Idles e ((e'.validatePanes first second).repaintPane second) :=
  (h.trans validatePanes).trans repaintPane

theorem remember : Idles e (e.remember id) :=
  ⟨rfl, rfl, rfl, rfl, rfl, rfl, fun _ h ↦ h, fun _ h ↦ h⟩

theorem editorFocused : Idles e e.editorFocused :=
  ⟨rfl, rfl, rfl, rfl, rfl, rfl, fun _ h ↦ (nomatch h), fun _ h ↦ h⟩

theorem setUnifiedWeight {w : Weight} :
    Idles e { e with layout := e.layout.setUnifiedWeight anchor w } :=
  ⟨rfl, rfl, rfl, rfl, rfl, rfl, fun _ h ↦ h, fun _ h ↦ h⟩

theorem panes {panes : List String} : Idles e { e with panes := panes } :=
  ⟨rfl, rfl, rfl, rfl, rfl, rfl, fun _ h ↦ h, fun _ h ↦ h⟩

theorem addPane : Idles e (e.addPane pane) := by
  unfold Engine.addPane
  split
  · exact refl
  · exact panes

theorem ensures_tryFocus : Ensures (tryFocus id) e fun _ e' ↦ Idles e e' := by
  refine ensures_modifyGet.2 ?_
  split
  · exact requestFocus
  · exact refl

end Idles

theorem resembles_placed? {h : Host} {placed : WindowInfo} (hp : placed? h x info = some placed) :
    placed.Resembles info := by
  unfold placed? at hp
  split at hp
  · obtain ⟨a, -, rfl⟩ := Option.map_eq_some_iff.1 hp
    exact ⟨rfl, rfl, rfl, rfl⟩
  · obtain ⟨a, -, rfl⟩ := Option.map_eq_some_iff.1 hp
    exact ⟨rfl, rfl, rfl, rfl⟩
  all_goals cases hp

theorem resembles_measured {g : DecoratorGeometry} {r : WindowInfo × Weight}
    (hm : measured info g = .ok r) : r.1.Resembles info := by
  simp only [measured, bind, Except.bind, pure, Except.pure] at hm
  repeat' split at hm
  all_goals cases hm
  all_goals exact ⟨rfl, rfl, rfl, rfl⟩

theorem Located.id_eq (hl : Located e key x info) : info.id = x.id :=
  Layout.id_of_get? hl.placement

theorem Located.get? (hl : Located e key x info) : e.layout.get? info.id = some info := by
  rw [hl.id_eq]
  exact hl.placement

theorem Located.storeInfo (hl : Located e key x cur) (hid : info.id = cur.id) :
    Located (e.storeInfo info) key x info :=
  ⟨hl.entry, by rw [get?_storeInfo, if_pos (hid.trans hl.id_eq).symm]⟩

theorem Located.exchanged {x' : Entry} {D : Prop} (hl : Located e key x cur)
    (hex : Exchanged D key x x' e.layout e e') (hid : x'.id = x.id) : Located e' key x' cur :=
  ⟨hex.get?_self, by rw [hid, hex.layout]; exact hl.placement⟩

/-- Whenever the operation returns, refused or not, it has kept to the rule. -/
def Obeys (K : Engine → Engine → Prop) (op : Operation α) : Prop :=
  ∀ ⦃e⦄, K e e → Ensures op.run e fun _ e' ↦ K e e'

/-- A relation that holds of the engines to which it leads, and that whatever is of no consequence
to windows keeps to. Where an engine is related to itself, all is as it should be. -/
structure BaseRule (K : Engine → Engine → Prop) : Prop where
  settled : ∀ {e e'}, K e e' → K e' e'
  trans : ∀ {e e' e''}, K e e' → K e' e'' → K e e''
  idle : ∀ {e e'}, K e e → Idles e e' → K e e'
  taken : ∀ {e key x}, K e e → e.entries.get? key = some x →
    K e (e.registeredInfo key).2 ∧
      Located (e.registeredInfo key).2 key x (e.registeredInfo key).1

/-- Hiding a window for a while keeps to the relation, and showing it where it was. -/
structure ToggleRule (K : Engine → Engine → Prop) : Prop extends BaseRule K where
  aside : ∀ {e key x info}, K e e → Located e key x info →
    Ensures (hideWindow key info true false .none) e fun _ e' ↦ K e e'
  reshown : ∀ {e key x info shown} (dirty : Bool), K e e → Located e key x info →
    shown.id = info.id → shown.slot = info.slot → shown.order = info.order →
      Ensures (showWindow key shown dirty) e fun _ e' ↦ K e e'

/-- Showing and hiding keep to the relation, and storing a placement. -/
structure Rule (K : Engine → Engine → Prop) : Prop extends BaseRule K where
  pushed : ∀ {e e' key x}, K e e' → e.entries.get? key = some x → K e (e'.pushActive key)
  weighed : ∀ {e key x info} (w : Weight), K e e → Located e key x info →
    K e (e.storeInfo { info with weight := w })
  committed : ∀ {e key x cur info}, K e e → Located e key x cur → info.Resembles cur →
    K e (e.commit key info)
  hidden : ∀ {e key x info}, K e e → Located e key x info → K e (e.hidden key info false .none)
  unlisted : ∀ {e key x info}, K e e → Located e key x info → info.visible = false →
    K e ((e.removeStripeButton key).commit key (offStripe info))
  shown : ∀ {e key x info} (active : Bool), K e e → Located e key x info → x.info.visible = false →
    Ensures (showWindow key { info with activeOnStart := active } false) e fun _ e' ↦ K e e'
  hides : ∀ {e key x info mutation} (dirty hideSide : Bool), K e e → Located e key x info →
    mutation ≠ .removeStripeButton →
      Ensures (hideWindow key info dirty hideSide mutation) e fun _ e' ↦ K e e'

/-- Moving a window keeps to the relation as well: where nothing shows it, between layouts, and as
its button and those of its neighbours are put where the layout has them. -/
structure FullRule (K : Engine → Engine → Prop) : Prop extends Rule K, ToggleRule K where
  kept : ∀ {e e' key x}, K e e' → e.entries.get? key = some x →
    ∃ y, e'.entries.get? key = some y
  bared : ∀ {e key x info}, K e e → Located e key x info →
    K e (e.removeInternalDecorator key true)
  moved : ∀ {e key x info split pane anchor order changed l}, K e e → Located e key x info →
    Layout.setAnchor x.id pane anchor order (e.layout.put { info with split := split }) =
      .ok changed l → K e { e with layout := l }
  relabelled : ∀ {e key x info}, K e e → Located e key x info → K e (e.relabelEntry info key)
  sibling : ∀ {e info}, K e e → e.layout.get? info.id = some info → K e (e.relabelSibling info)

theorem Obeys.attempt {op : Operation Unit} (hop : Obeys K op) (h : K e e) :
    Ensures (attempt op) e fun _ e' ↦ K e e' := by
  simp only [Engine.attempt, ensures_bind, ensures_pure]
  exact hop h

theorem Obeys.discard {op : Operation α} (hop : Obeys K op) : Obeys K (discard op) := by
  intro e h
  have hrun : (Functor.discard op : Operation Unit) = op >>= fun _ ↦ pure () := rfl
  rw [hrun, ensures_run_bind]
  exact (hop h).mono fun _ _ h' ↦ ⟨fun _ _ ↦ ensures_run_pure.2 h', fun _ _ ↦ h'⟩

theorem obeys_keyOf_bind {f : SlotKey → Operation α}
    (hf : ∀ ⦃e key x⦄, K e e → e.entries.get? key = some x →
      Ensures (f key).run e fun _ e' ↦ K e e') : Obeys K (keyOf id >>= f) := by
  intro e h
  rw [ensures_keyOf_bind]
  refine ⟨fun key hkey ↦ ?_, fun _ ↦ h⟩
  obtain ⟨x, hx, -⟩ := get?_of_keyOf? hkey
  exact hf h hx

namespace BaseRule

theorem idles (hk : BaseRule K) (h : K e e') (hi : Idles e' e'') : K e e'' :=
  hk.trans h (hk.idle (hk.settled h) hi)

theorem andThen {action : Action α} (hk : BaseRule K) (h : K e e')
    (hx : K e' e' → Ensures action e' fun _ e'' ↦ K e' e'') :
    Ensures action e' fun _ e'' ↦ K e e'' :=
  (hx (hk.settled h)).mono fun _ _ h' ↦ hk.trans h h'

theorem takeInfo {Q : WindowInfo → Engine → Prop} (hk : BaseRule K) (h : K e e)
    (hx : e.entries.get? key = some x)
    (hQ : ∀ info e₁, K e e₁ → Located e₁ key x info → Q info e₁) : Ensures (takeInfo key) e Q := by
  obtain ⟨htaken, hl⟩ := hk.taken h hx
  exact ensures_takeInfo.2 (hQ _ _ htaken hl)

theorem forIn {op : String → Operation Unit} (hk : BaseRule K) (hop : ∀ id, Obeys K (op id))
    (h : K e e) (ids : List String) :
    Ensures (forIn ids PUnit.unit fun id _ ↦ do
      attempt (op id); pure (ForInStep.yield PUnit.unit)) e fun _ e' ↦ K e e' :=
  ensures_forIn ids (fun id _ _ h' ↦ hk.andThen h' fun h' ↦ (hop id).attempt h') h

end BaseRule

/-- A window is hidden, changed, and shown again; the change itself need not keep to the rule. -/
theorem ToggleRule.whileHidden_via {C : Engine → Engine → Prop} {change : Action Unit}
    (hk : ToggleRule K) (h : K e e) (hl : Located e key x info)
    (hchange : ∀ ⦃e₁⦄, K e e₁ → Ensures change e₁ fun _ e₂ ↦
      C e₁ e₂ ∧ K e₂ e₂ ∧ ∃ y, e₂.entries.get? key = some y) :
    Ensures (whileHidden key change) e fun _ e' ↦ ∃ e₁ e₂, K e e₁ ∧ C e₁ e₂ ∧ K e₂ e' := by
  simp only [Engine.whileHidden, ensures_bind, ensures_get, ensures_ite, ensures_modify,
    ensures_takeInfo, hl.registeredInfo_eq]
  have hlast : ∀ {e₂ e₃ : Engine} (first second : String), K e₂ e₃ →
      K e₂ ((e₃.validatePanes first second).repaintPane second) :=
    fun _ _ h' ↦ hk.idles h' (Idles.refl.repainted _ _)
  refine ⟨fun hv ↦ ?_, fun hv ↦ ?_⟩
  · refine (hk.aside h hl).mono fun _ e₁ h₁ ↦ (hchange h₁).mono fun _ e₂ h₂ ↦ ?_
    obtain ⟨hC, hself, y, hy⟩ := h₂
    obtain ⟨htaken, hl₂⟩ := hk.taken hself hy
    refine ⟨fun _ ↦ ?_, fun hn ↦ absurd hv hn⟩
    have hshown : Ensures (showWindow key { (e₂.registeredInfo key).1 with visible := true } true)
        (e₂.registeredInfo key).2 fun _ e₃ ↦ K e₂ e₃ :=
      hk.andThen htaken fun h' ↦ hk.reshown true h' hl₂ rfl rfl rfl
    exact hshown.mono fun _ e₃ h₃ ↦
      ⟨fun _ ↦ ⟨e₁, e₂, h₁, hC, hlast _ _ (hk.idles h₃ .requestFocus)⟩,
        fun _ ↦ ⟨e₁, e₂, h₁, hC, hlast _ _ h₃⟩⟩
  · refine (hchange h).mono fun _ e₂ h₂ ↦ ?_
    obtain ⟨hC, hself, y, hy⟩ := h₂
    exact ⟨fun hp ↦ absurd hp hv, fun _ ↦ ⟨e, e₂, h, hC, hlast _ _ (hk.taken hself hy).1⟩⟩

namespace Rule

theorem reveal (hk : Rule K) : Obeys K (reveal id) := by
  refine obeys_keyOf_bind fun e key x h hx ↦ ?_
  simp only [ensures_run_get_bind, ensures_run_ite, ensures_run_pure, ensures_run_lift_bind,
    ensures_run_modify]
  rw [entryIs_of_get? hx]
  refine ⟨fun _ ↦ h, fun hv ↦ hk.takeInfo h hx fun info e₁ h₁ hl ↦ ?_⟩
  have hshown : Ensures (showWindow key info false) e₁ fun _ e' ↦ K e e' :=
    hk.andThen h₁ fun h₁ ↦ hk.shown info.activeOnStart h₁ hl (by simpa using hv)
  exact hshown.mono fun _ e₂ h₂ ↦ ⟨fun _ ↦ hk.idles h₂ .fire, fun _ ↦ h₂⟩

theorem hideWith {options : HideOptions} (hk : Rule K) : Obeys K (hideWith id options) := by
  refine obeys_keyOf_bind fun e key x h hx ↦ ?_
  simp only [ensures_run_get_bind, ensures_run_ite, ensures_run_pure, ensures_run_lift_bind,
    ensures_run_modify, ensures_run_lift, ensures_run_modify_bind]
  refine hk.takeInfo h hx fun info e₁ h₁ hl ↦ ⟨fun hv ↦ ⟨fun _ ↦ ?_, fun _ ↦ h₁⟩, fun _ ↦ ?_⟩
  · have hoff := hk.unlisted (hk.settled h₁) hl (by simpa using hv)
    exact ensures_modify.2 (hk.idles (hk.trans h₁ hoff) .fire)
  · refine (hk.andThen h₁ fun h₁ ↦ hk.hides false options.hideSide h₁ hl ?_).mono fun _ e₂ h₂ ↦ ?_
    · split <;> decide
    · exact ⟨fun _ ↦ hk.idles h₂ ((Idles.validatePane.trans .fire).trans .activateEditor),
        fun _ ↦ hk.idles h₂ (Idles.validatePane.trans .fire)⟩

theorem deactivate (hk : Rule K) : Obeys K (deactivate id) := by
  refine obeys_keyOf_bind fun e key x h hx ↦ ?_
  simp only [ensures_run_ite, ensures_run_pure, ensures_run_lift_bind, ensures_run_modify]
  refine hk.takeInfo h hx fun info e₁ h₁ hl ↦ ⟨fun _ ↦ ?_, fun _ ↦ h₁⟩
  exact hk.idles (hk.trans h₁ (hk.hidden (hk.settled h₁) hl)) (Idles.validatePane.trans .fire)

theorem changeProperty {differs : WindowInfo → Bool} {change : WindowInfo → WindowInfo}
    {kind : EventKind} (hk : Rule K) (hchange : ∀ info, (change info).Resembles info) :
    Obeys K (changeProperty id differs change kind) := by
  refine obeys_keyOf_bind fun e key x h hx ↦ ?_
  simp only [ensures_run_ite, ensures_run_pure, ensures_run_lift_bind, ensures_run_modify]
  refine hk.takeInfo h hx fun info e₁ h₁ hl ↦ ⟨fun _ ↦ ?_, fun _ ↦ h₁⟩
  exact hk.idles (hk.trans h₁ (hk.committed (hk.settled h₁) hl (hchange info))) .fire

theorem setAutoHide {autoHide : Bool} (hk : Rule K) : Obeys K (setAutoHide id autoHide) :=
  hk.changeProperty fun _ ↦ ⟨rfl, rfl, rfl, rfl⟩

theorem setContentUi {ui : ContentUi} (hk : Rule K) : Obeys K (setContentUi id ui) :=
  hk.changeProperty fun _ ↦ ⟨rfl, rfl, rfl, rfl⟩

theorem applyToEntry (hk : Rule K) (h : K e e) (hl : Located e key x info) :
    K e (e.applyToEntry key info) := by
  rw [applyToEntry_of_get? hl.get?]
  exact hk.committed h hl ⟨rfl, rfl, rfl, rfl⟩

theorem sharedWeight (hk : Rule K) (h : K e e) (hl : Located e key x info) :
    K e (e.sharedWeight info).2 ∧
      Located (e.sharedWeight info).2 key x (e.sharedWeight info).1 := by
  unfold Engine.sharedWeight
  split
  · exact ⟨hk.weighed _ h hl, hl.storeInfo rfl⟩
  · exact ⟨h, hl⟩

theorem activateAvailable {autoFocus : Bool} (hk : Rule K) (h : K e e)
    (hl : Located e key x info) :
    Ensures (activateAvailable key id info autoFocus) e fun _ e' ↦ K e e' := by
  have hlast : ∀ {e'}, K e e' → K e ((e'.pushActive key).fire .activateToolWindow id) :=
    fun h' ↦ hk.idles (hk.pushed h' hl.entry) .fire
  have hfocused : ∀ {e'}, K e e' →
      (autoFocus = true → Ensures (tryFocus id) e' fun focused e'' ↦
        ((!focused) = true → K e ((e''.pushActive key).fire .activateToolWindow id)) ∧
          (¬ (!focused) = true → K e (e''.fire .activateToolWindow id))) ∧
      (¬ autoFocus = true → K e ((e'.pushActive key).fire .activateToolWindow id)) :=
    fun h' ↦ ⟨fun _ ↦ Idles.ensures_tryFocus.mono fun _ _ hi ↦
      ⟨fun _ ↦ hlast (hk.idles h' hi), fun _ ↦ hk.idles h' (hi.trans .fire)⟩, fun _ ↦ hlast h'⟩
  simp only [Engine.activateAvailable, ensures_bind, ensures_get, ensures_ite, ensures_modify,
    ensures_pure]
  simp only [Bool.not_false, forall_const, not_true_eq_false, false_implies, and_true]
  rw [entryIs_of_get? hl.entry]
  refine ⟨fun hv ↦ ?_, fun _ ↦ ⟨fun _ ↦ hfocused ?_, fun _ ↦ hfocused (hk.applyToEntry h hl)⟩⟩
  · exact (hk.shown autoFocus h hl (by simpa using hv)).mono fun _ _ ↦ hfocused
  · exact hk.idles (hk.applyToEntry h hl) (.onHost rfl rfl)

theorem activate {autoFocus : Bool} (hk : Rule K) : Obeys K (activate id autoFocus) := by
  refine obeys_keyOf_bind fun e key x h hx ↦ ?_
  simp only [ensures_run_ite, ensures_run_pure, ensures_run_get_bind, ensures_run_lift_bind,
    ensures_run_modifyGet_bind, ensures_run_modify_bind, ensures_run_modify, ensures_run_lift]
  refine hk.takeInfo h hx fun info e₁ h₁ hl ↦ ?_
  obtain ⟨hshared, hl₂⟩ := hk.sharedWeight (hk.settled h₁) hl
  have h₃ : K e ((e₁.sharedWeight info).2.remember id) :=
    hk.idles (hk.trans h₁ hshared) .remember
  have hl₃ : Located ((e₁.sharedWeight info).2.remember id) key x (e₁.sharedWeight info).1 :=
    Idles.remember.located hl₂
  exact ⟨fun _ ↦ ⟨fun _ ↦ hk.idles h₃ .requestFocus, fun _ ↦ h₃⟩,
    fun _ ↦ hk.andThen h₃ fun h₃ ↦ hk.activateAvailable h₃ hl₃⟩

theorem toolWindowFocused (hk : Rule K) : Obeys K (toolWindowFocused id) :=
  obeys_keyOf_bind fun _ _ _ h hx ↦ ensures_run_modify.2 (hk.pushed h hx)

theorem focusMovedTo {focused : Option String} (hk : Rule K) (h : K e e) :
    Ensures (focusMovedTo focused) e fun _ e' ↦ K e e' := by
  simp only [Engine.focusMovedTo, ensures_bind, ensures_get]
  refine (hk.forIn (fun _ ↦ hk.deactivate) h _).mono fun _ e₁ h₁ ↦ ?_
  cases focused with
  | none => exact ensures_pure.2 h₁
  | some id =>
    simp only [ensures_bind, ensures_get, ensures_ite, ensures_modify]
    exact ⟨fun _ ↦ hk.andThen h₁ hk.toolWindowFocused.attempt,
      fun _ ↦ hk.idles h₁ .editorFocused⟩

theorem focusByDefault (hk : Rule K) : Obeys K focusByDefault := by
  intro e h
  simp only [Engine.focusByDefault, ensures_run_get_bind, ensures_run_lift_bind, ensures_check]
  intro target _
  cases target with
  | none => exact ensures_run_pure.2 h
  | some id =>
    rw [ensures_run_bind]
    exact (hk.activate h).mono fun _ e' h' ↦ ⟨fun _ _ ↦ ensures_run_pure.2 h', fun _ _ ↦ h'⟩

theorem movedOrResized {g : DecoratorGeometry} (hk : Rule K) : Obeys K (movedOrResized id g) := by
  refine obeys_keyOf_bind fun e key x h hx ↦ ?_
  simp only [ensures_run_ite, ensures_run_pure, ensures_run_get_bind, ensures_run_lift_bind,
    ensures_run_modify, learnShares, ensures_bind, ensures_check, ensures_modify]
  refine ⟨fun _ ↦ hk.takeInfo h hx fun info e₁ h₁ hl ↦ ?_, fun _ ↦ h⟩
  rw [hl.entry, Option.bind_some]
  refine ⟨fun _ ↦ ?_, fun _ ↦ ⟨fun _ r hr ↦ ?_, fun _ ↦ h₁⟩⟩
  · cases hp : placed? e₁.host x info with
    | none => exact ensures_run_pure.2 h₁
    | some placed =>
      have hstored := hk.committed (hk.settled h₁) hl (resembles_placed? hp)
      exact ensures_run_modify.2 (hk.idles (hk.trans h₁ hstored) .fire)
  · have hshared : K e₁ { e₁ with layout := e₁.layout.setUnifiedWeight r.1.anchor r.2 } :=
      hk.idle (hk.settled h₁) .setUnifiedWeight
    have hstored := hk.committed (hk.settled hshared) (Idles.setUnifiedWeight.located hl)
      (resembles_measured hr)
    exact hk.idles (hk.trans h₁ (hk.trans hshared hstored)) .fire

theorem removePane (hk : Rule K) (h : K e e) : Ensures (removePane pane) e fun _ e' ↦ K e e' := by
  simp only [Engine.removePane, ensures_bind, ensures_get, ensures_ite, ensures_modify,
    ensures_pure]
  refine ⟨fun _ ↦ ?_, fun _ ↦ h⟩
  exact (hk.forIn (fun _ ↦ hk.hideWith) h _).mono fun _ _ h' ↦ hk.idles h' .panes

/-- A window is moved along its stripe or where it shows in no slot, and through the screen if it
shows in one. -/
theorem setAnchor (hk : Rule K)
    (hstill : ∀ ⦃e key x info pane⦄, K e e → Located e key x info →
      (info.occupiesSlot → info.isAt pane anchor) →
        Ensures (relabel key pane anchor order) e fun _ e' ↦ K e e')
    (hmoves : ∀ ⦃e key x info pane⦄, K e e → Located e key x info → info.occupiesSlot →
      Ensures (moveVisible key id info pane anchor order) e fun _ e' ↦ K e e') :
    Obeys K (setAnchor id pane anchor order) := by
  refine obeys_keyOf_bind fun e key x h hx ↦ ?_
  simp only [ensures_run_ite, ensures_run_pure, ensures_run_throw_bind, ensures_run_get_bind,
    ensures_run_lift_bind, ensures_run_modify]
  refine ⟨fun _ ↦ h, fun _ ↦ hk.takeInfo h hx fun info e₁ h₁ hl ↦
    ⟨fun _ ↦ ⟨fun hw ↦ ?_, fun hw ↦ ?_⟩, fun _ ↦ h₁⟩⟩
  · refine (hk.andThen h₁ fun h₁ ↦ hstill h₁ hl fun ho ↦ ?_).mono fun _ _ h' ↦ hk.idles h' .fire
    rw [WindowInfo.occupiesSlot_iff] at ho
    simpa [WindowInfo.isExternal, ho.1, ho.2] using hw
  · refine (hk.andThen h₁ fun h₁ ↦ hmoves h₁ hl ?_).mono fun _ _ h' ↦ hk.idles h' .fire
    simp only [WindowInfo.isExternal, Bool.or_eq_true, not_or, Bool.not_eq_true,
      Bool.not_eq_false'] at hw
    exact WindowInfo.occupiesSlot_iff.2 ⟨hw.1.1, hw.2⟩

theorem setSideTool (hk : Rule K)
    (hchange : ∀ ⦃e key x info⦄, K e e → Located e key x info →
      Ensures (whileHidden key (changeSplit key split)) e fun _ e' ↦ K e e') :
    Obeys K (setSideTool id split) := by
  refine obeys_keyOf_bind fun e key x h hx ↦ ?_
  simp only [ensures_run_ite, ensures_run_pure, ensures_run_lift_bind, ensures_run_modify]
  refine hk.takeInfo h hx fun info e₁ h₁ hl ↦ ⟨fun _ ↦ ?_, fun _ ↦ h₁⟩
  exact (hk.andThen h₁ fun h₁ ↦ hchange h₁ hl).mono fun _ _ h' ↦ hk.idles h' .fire

theorem setSideToolAndAnchor (hk : Rule K)
    (hchange : ∀ ⦃e key x info pane⦄, K e e → Located e key x info →
      Ensures (whileHidden key (changePlace key pane anchor order split)) e fun _ e' ↦ K e e') :
    Obeys K (setSideToolAndAnchor id pane anchor order split) := by
  refine obeys_keyOf_bind fun e key x h hx ↦ ?_
  simp only [ensures_run_ite, ensures_run_pure, ensures_run_get_bind, ensures_run_lift_bind,
    ensures_run_modify]
  refine hk.takeInfo h hx fun info e₁ h₁ hl ↦ ⟨fun _ ↦ ?_, fun _ ↦ h₁⟩
  exact (hk.andThen h₁ fun h₁ ↦ hchange h₁ hl).mono fun _ _ h' ↦ hk.idles h' .fire

/-- A visible window has its decorator exchanged, after those in its slot were evicted if it is to
hold one. -/
theorem retypeVisible (hk : Rule K) {saved : WindowInfo}
    (hsaved : (e.removeDecorators key info info.windowType.isInternal).1 = info.withState saved)
    (hdressed : ∀ e₁,
      (¬ type.isInternal ∧ e₁ = (e.removeDecorators key info info.windowType.isInternal).2 ∨
        type.isInternal ∧ e₁ = (e.removeDecorators key info info.windowType.isInternal).2.evictSlot
          key ((info.withState saved).withType type) info.windowType.isInternal) →
      Ensures (addDecorator key ((info.withState saved).withType type) info.windowType.isInternal)
        (e₁.commit key ((info.withState saved).withType type)) fun _ e' ↦ K e e') :
    Ensures (retypeVisible key id info type) e fun _ e' ↦ K e e' := by
  simp only [Engine.retypeVisible, ensures_bind, ensures_modifyGet, ensures_ite, ensures_modify,
    hsaved]
  have hlast : ∀ {e' : Engine} (pane : String), K e e' → K e
      (((if e'.host.applicationActive then e'.requestFocus id else e').validatePane
        pane).repaintPane pane) := by
    intro e' pane h'
    split
    · exact hk.idles h' ((Idles.requestFocus.trans .validatePane).trans .repaintPane)
    · exact hk.idles h' (Idles.validatePane.trans .repaintPane)
  exact ⟨fun hi ↦ (hdressed _ (Or.inr ⟨hi, rfl⟩)).mono fun _ _ ↦ hlast _,
    fun hi ↦ (hdressed _ (Or.inl ⟨hi, rfl⟩)).mono fun _ _ ↦ hlast _⟩

theorem setType (hk : Rule K)
    (hvisible : ∀ ⦃e key x info⦄, K e e → Located e key x info → x.info.visible = true →
      Ensures (Engine.retypeVisible key id info type) e fun _ e' ↦ K e e')
    (hhidden : ∀ ⦃e key x info⦄, K e e → Located e key x info → x.info.visible = false →
      K e (e.commit key (info.withType type))) : Obeys K (setType id type) := by
  refine obeys_keyOf_bind fun e key x h hx ↦ ?_
  simp only [ensures_run_ite, ensures_run_pure, ensures_run_get_bind, ensures_run_lift_bind,
    ensures_run_modify, ensures_run_modify_bind]
  refine hk.takeInfo h hx fun info e₁ h₁ hl ↦ ⟨fun _ ↦ ?_, fun _ ↦ h₁⟩
  rw [entryIs_of_get? hl.entry]
  refine ⟨fun hv ↦ ?_, fun hv ↦ ?_⟩
  · exact (hk.andThen h₁ fun h₁ ↦ hvisible h₁ hl hv).mono fun _ _ h' ↦ hk.idles h' .fire
  · exact hk.idles (hk.trans h₁ (hhidden (hk.settled h₁) hl (by simpa using hv))) .fire

theorem setShowStripeButton {showButton : Bool} (hk : Rule K) (h : K e e)
    (hlabelled : ∀ ⦃key x⦄, e.keyOf? id = some key → e.entries.get? key = some x →
      showButton = true → (e.registeredInfo key).1.showStripeButton = false →
        ∀ ⦃e₁ info⦄, K e₁ e₁ → Located e₁ key x info → info = (e.registeredInfo key).1 →
          K e₁ (((e₁.storeInfo { info with showStripeButton := true }).ensureStripeButton key
            { info with showStripeButton := true }).applyToEntry key
              { info with showStripeButton := true }))
    (hwithdrawn : ∀ ⦃e₁ key x info⦄, K e₁ e₁ → Located e₁ key x info →
      Ensures (withdrawButton key { info with showStripeButton := false }) e₁
        fun _ e' ↦ K e₁ e') :
    Ensures (setShowStripeButton id showButton).run e fun _ e' ↦ K e e' := by
  simp only [Engine.setShowStripeButton, ensures_keyOf_bind, ensures_run_ite, ensures_run_pure,
    ensures_run_lift_bind, ensures_run_modify, ensures_run_modify_bind, ensures_takeInfo]
  refine ⟨fun key hkey ↦ ?_, fun _ ↦ h⟩
  obtain ⟨x, hx, -⟩ := get?_of_keyOf? hkey
  obtain ⟨h₁, hl⟩ := hk.taken h hx
  refine ⟨fun hdiffers ↦ ⟨fun hshow ↦ ?_, fun hshow ↦ ?_⟩, fun _ ↦ h₁⟩
  · subst hshow
    have hno : (e.registeredInfo key).1.showStripeButton = false := by simpa using hdiffers
    exact hk.idles (hk.trans h₁ (hlabelled hkey hx rfl hno (hk.settled h₁) hl rfl)) .fire
  · cases Bool.eq_false_iff.2 hshow
    exact (hk.andThen h₁ fun h₁ ↦ hwithdrawn h₁ hl).mono fun _ _ h' ↦ hk.idles h' .fire

theorem makeAvailable (hk : Rule K)
    (hset : ∀ ⦃e key x⦄, K e e → e.entries.get? key = some x → x.available = false →
      ∀ ⦃info e₁ e₂⦄, (e.setAvailable key true).registeredInfo key = (info, e₁) →
        e₂ = (if info.showStripeButton then e₁.ensureStripeButton key info else e₁) →
          K e e₂ ∧ (info.visible = true →
            Ensures (showWindow key info false) e₂ fun _ e' ↦ K e e')) :
    Obeys K (makeAvailable id) := by
  refine obeys_keyOf_bind fun e key x h hx ↦ ?_
  simp only [ensures_run_ite, ensures_run_pure, ensures_run_get_bind, ensures_run_lift_bind,
    ensures_run_modify, ensures_run_modify_bind, ensures_takeInfo]
  rw [entryIs_of_get? hx]
  refine ⟨fun ha ↦ ?_, fun _ ↦ h⟩
  have hlast : ∀ {p : Bool} {info : WindowInfo} {e₂ : Engine}, K e e₂ ∧ (info.visible = true →
      Ensures (showWindow key info false) e₂ fun _ e' ↦ K e e') →
        ((info.visible && p) = true → Ensures (showWindow key info false) e₂ fun _ e' ↦
          K e (e'.fire .toolWindowAvailable id)) ∧
        (¬ (info.visible && p) = true → K e (e₂.fire .toolWindowAvailable id)) := fun h₂ ↦
    ⟨fun hv ↦ (h₂.2 (Bool.and_eq_true_iff.1 hv).1).mono fun _ _ h' ↦ hk.idles h' .fire,
      fun _ ↦ hk.idles h₂.1 .fire⟩
  generalize htaken : (e.setAvailable key true).registeredInfo key = taken
  obtain ⟨info, e₁⟩ := taken
  have h₂ := hset h hx (by simpa using ha) htaken rfl
  refine ⟨fun hb ↦ hlast ?_, fun hb ↦ hlast ?_⟩
  · rwa [if_pos hb] at h₂
  · rwa [if_neg hb] at h₂

theorem makeUnavailable (hk : Rule K)
    (hset : ∀ ⦃e key x⦄, K e e → e.entries.get? key = some x → x.available = true →
      ∀ ⦃info e₁⦄, (e.setAvailable key false).registeredInfo key = (info, e₁) →
        Ensures (hideWindow key info false false .removeStripeButton) e₁ fun _ e' ↦ K e e') :
    Obeys K (makeUnavailable id) := by
  refine obeys_keyOf_bind fun e key x h hx ↦ ?_
  simp only [ensures_run_ite, ensures_run_pure, ensures_run_get_bind, ensures_run_lift_bind,
    ensures_run_modify, ensures_run_modify_bind, ensures_takeInfo]
  rw [entryIs_of_get? hx]
  refine ⟨fun ha ↦ (hset h hx ha rfl).mono fun _ e' h' ↦ ?_, fun _ ↦ h⟩
  exact ⟨fun _ ↦ hk.idles h' (Idles.fire.trans .activateEditor), fun _ ↦ hk.idles h' .fire⟩

end Rule

theorem layout_relabelEntry : (e.relabelEntry info key).layout = e.layout := by
  have hremoved : (e.removeStripeButton key).layout = e.layout := by
    unfold removeStripeButton
    split <;> rfl
  unfold relabelEntry refreshStripeButton
  split
  · dsimp only
    split
    · exact hremoved
    · exact hremoved
  · rfl

theorem layout_relabelSibling : (e.relabelSibling info).layout = e.layout := by
  unfold relabelSibling
  split
  · exact layout_relabelEntry
  · rfl

theorem relabelSibling_of_named
    (hnamed : ∀ {k y}, e.entries.get? k = some y → y.id = y.name)
    (hinfo : e.layout.get? info.id = some info) (h : K e e)
    (hrelabel : ∀ {k y}, Located e k y info → K e (e.relabelEntry info k)) :
    K e (e.relabelSibling info) := by
  unfold relabelSibling
  cases hk : e.keyOf? info.id with
  | none => exact h
  | some k =>
    obtain ⟨y, hy, hname⟩ := get?_of_keyOf? hk
    exact hrelabel ⟨hy, by rw [hnamed hy, hname]; exact hinfo⟩

namespace FullRule

theorem siblings {ws : List WindowInfo} (hk : FullRule K) (h : K e e)
    (hws : ∀ w ∈ ws, e.layout.get? w.id = some w) : K e (ws.foldl relabelSibling e) := by
  induction ws generalizing e with
  | nil => exact h
  | cons w ws ih =>
    have hstep := hk.sibling h (hws w (List.mem_cons_self ..))
    refine hk.trans hstep (ih (hk.settled hstep) fun v hv ↦ ?_)
    rw [layout_relabelSibling]
    exact hws v (List.mem_cons_of_mem _ hv)

theorem relabelStored (hk : FullRule K) (h : K e e) (hl : Located e key x info) :
    Ensures (relabel key pane anchor order) (e.storeInfo { info with split := split })
      fun _ e' ↦ K e e' := by
  have hstored : Located (e.storeInfo { info with split := split }) key x
      { info with split := split } := hl.storeInfo rfl
  simp only [relabel, ensures_bind, ensures_get]
  rw [hstored.entry]
  simp only [ensures_bind, ensures_onLayout, ensures_modify]
  intro changed l hset
  obtain ⟨hmoves, rfl⟩ := Layout.setAnchor_cases hstored.placement hset
  obtain ⟨placed, -, hself⟩ := hmoves.self
  simp only [hself]
  have hmoved := hk.moved h hl hset
  have hown := hk.relabelled (hk.settled hmoved) ⟨hl.entry, hself⟩
  refine hk.trans hmoved (hk.trans hown (hk.siblings (hk.settled hown) fun w hw ↦ ?_))
  rw [layout_relabelEntry]
  exact Layout.get?_of_mem (List.mem_filter.1 hw).1

theorem relabel (hk : FullRule K) (h : K e e) (hl : Located e key x info) :
    Ensures (relabel key pane anchor order) e fun _ e' ↦ K e e' := by
  have hsame : e.storeInfo { info with split := info.split } = e := by
    rw [storeInfo, Layout.put_of_get? hl.get?]
  have hrelabel : Ensures (Engine.relabel key pane anchor order)
      (e.storeInfo { info with split := info.split }) fun _ e' ↦ K e e' := hk.relabelStored h hl
  rwa [hsame] at hrelabel

theorem moveVisible (hk : FullRule K) (h : K e e) (hl : Located e key x info) :
    Ensures (moveVisible key id info pane anchor order) e fun _ e' ↦ K e e' := by
  simp only [Engine.moveVisible, ensures_bind, ensures_get, ensures_modify, ensures_ite]
  have hex := exchanged_removeInternalDecorator (D := False) true hl.entry False.elim
  refine (hk.andThen (hk.bared h hl) fun h ↦ hk.relabel h (hl.exchanged hex rfl)).mono
    fun _ e₁ h₁ ↦ ?_
  obtain ⟨y, hy⟩ := hk.kept h₁ hl.entry
  obtain ⟨htaken, hl₂⟩ := hk.taken (hk.settled h₁) hy
  refine ensures_takeInfo.2 ((hk.andThen (hk.trans h₁ htaken) fun h ↦
    hk.reshown true h hl₂ rfl rfl rfl).mono fun _ e₃ h₃ ↦ ?_)
  exact ⟨fun _ ↦ hk.idles h₃ (Idles.requestFocus.repainted _ _),
    fun _ ↦ hk.idles h₃ (Idles.refl.repainted _ _)⟩

theorem whileHidden {change : Action Unit} (hk : FullRule K) (h : K e e)
    (hl : Located e key x info) (hchange : ∀ ⦃e y⦄, K e e → e.entries.get? key = some y →
      Ensures change e fun _ e' ↦ K e e') :
    Ensures (whileHidden key change) e fun _ e' ↦ K e e' := by
  refine (hk.toToggleRule.whileHidden_via (C := K) h hl fun e₁ h₁ ↦ ?_).mono fun _ e' h' ↦ ?_
  · obtain ⟨y, hy⟩ := hk.kept h₁ hl.entry
    exact (hchange (hk.settled h₁) hy).mono fun _ e₂ h₂ ↦ ⟨h₂, hk.settled h₂, hk.kept h₂ hy⟩
  · obtain ⟨e₁, e₂, h₁, h₂, h₃⟩ := h'
    exact hk.trans (hk.trans h₁ h₂) h₃

theorem setAnchor (hk : FullRule K) : Obeys K (setAnchor id pane anchor order) :=
  hk.toRule.setAnchor (fun _ _ _ _ _ h hl _ ↦ hk.relabel h hl)
    fun _ _ _ _ _ h hl _ ↦ hk.moveVisible h hl

theorem setSideTool (hk : FullRule K) (hresplit : ∀ ⦃e key x info⦄, K e e →
    Located e key x info → K e (e.storeInfo { info with split := split })) :
    Obeys K (setSideTool id split) := by
  refine hk.toRule.setSideTool fun e key x info h hl ↦ hk.whileHidden h hl fun e₁ y h₁ hy ↦ ?_
  simp only [changeSplit, ensures_bind, ensures_modify]
  refine hk.takeInfo h₁ hy fun info e₂ h₂ hl₂ ↦ ?_
  have hstored := hresplit (hk.settled h₂) hl₂
  exact hk.trans h₂ (hk.trans hstored (hk.relabelled (hk.settled hstored) (hl₂.storeInfo rfl)))

theorem setSideToolAndAnchor (hk : FullRule K) :
    Obeys K (setSideToolAndAnchor id pane anchor order split) := by
  refine hk.toRule.setSideToolAndAnchor fun e key x info pane h hl ↦
    hk.whileHidden h hl fun e₁ y h₁ hy ↦ ?_
  simp only [changePlace, ensures_bind, ensures_modify]
  exact hk.takeInfo h₁ hy fun info e₂ h₂ hl₂ ↦
    (hk.relabelStored (hk.settled h₂) hl₂).mono fun _ _ h' ↦ hk.trans h₂ h'

end FullRule

end Engine

end ToolDock

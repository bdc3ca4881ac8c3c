import ToolDock.Command.Run
import ToolDock.Proofs.Batching
import ToolDock.Proofs.Numbering
import ToolDock.Proofs.Reapplying
import ToolDock.Proofs.Returning

/-!
A layout compared with itself. Its windows are registered with an engine that has no user interface,
which shows those that are visible and have a stripe button, and then the layout is applied once
more. That asks nothing of the host just if every window that is shown has an order, as it is given
one otherwise; and it gets that far just if every floating one can be placed. Main statements:
`Layout.diff_self` and `Command.execute_diff_self`.
-/

namespace ToolDock

namespace WindowInfo

def showsAtOnce (w : WindowInfo) : Bool := w.visible && w.showStripeButton

structure IsOrderedAs (w w' : WindowInfo) : Prop where
  reordered : w.Reordered w'
  hasOrder : w'.hasOrder
  same : w.hasOrder → w' = w

theorem isOrderedAs_shownAt {w : WindowInfo} {order : Int32} (hv : w.visible)
    (hb : w.showStripeButton)
    (ho : w.hasOrder ∧ order = w.order ∨ ¬ w.hasOrder ∧ order ≠ unassignedOrder) :
    w.IsOrderedAs (w.shownAt order) := by
  have hsame : w.shownAt order = { w with order := order } := by
    cases w
    simp only at hv hb
    simp only [shownAt, hv, hb]
  refine ⟨hsame, ?_, fun h ↦ ?_⟩
  · rcases ho with ⟨h, rfl⟩ | ⟨-, hne⟩
    · exact h
    · exact bne_iff_ne.2 hne
  · rcases ho with ⟨-, rfl⟩ | ⟨hno, -⟩
    · rw [hsame]
    · exact absurd h hno

end WindowInfo

def Desktop.unseen : Desktop := { Desktop.default with headless := true }

namespace Layout

/-- Every window that is shown has an order. -/
def IsOrdered (l : Layout) : Prop := ∀ w ∈ l.windows, w.showsAtOnce → w.hasOrder

/-- Every window that is shown can be placed. -/
def IsPlaceable (l : Layout) : Prop := ∀ w ∈ l.windows, w.showsAtOnce → w.isPlaceable .unseen

instance (l : Layout) : Decidable l.IsOrdered := List.decidableBAll _ _

instance (l : Layout) : Decidable l.IsPlaceable := List.decidableBAll _ _

end Layout

namespace Engine

variable {α β : Type} {e e' e₁ : Engine} {key : SlotKey} {x : Entry} {w w' info : WindowInfo}
  {l : Layout} {ids : List String} {ws : List WindowInfo} {dirty : Bool}

/-- The windows with the given ids are registered, each where the layout has it, but for the orders
of those that were shown; they could be placed. -/
structure Replayed (l : Layout) (ids : List String) (e : Engine) : Prop where
  desktop : e.host.desktop = .unseen
  sideStack : e.sideStack = .empty
  entry : ∀ {key x}, e.entries.get? key = some x →
    x.name ∈ ids ∧ x.id = x.name ∧ x.available ∧ e.layout.get? x.name = some x.info
  registered : ∀ id ∈ ids, l.contains id ∧ ∃ key x, e.entries.get? key = some x ∧ x.name = id
  placed : ∀ {id w}, l.get? id = some w → ∃ w', e.layout.get? id = some w' ∧
    if id ∈ ids ∧ w.showsAtOnce then w.IsOrderedAs w' else w' = w
  placeable : ∀ {id w}, l.get? id = some w → id ∈ ids → w.showsAtOnce → w.isPlaceable .unseen
  layout : l.IsOrdered → e.layout = l

namespace Replayed

theorem reordered (h : Replayed l ids e) {id : String} (hw : l.get? id = some w)
    (hw' : e.layout.get? id = some w') : w.Reordered w' := by
  obtain ⟨w₁, hw₁, hplaced⟩ := h.placed hw
  cases hw'.symm.trans hw₁
  split at hplaced
  · exact hplaced.reordered
  · exact hplaced ▸ .refl

theorem free (h : Replayed l ids e) (hl : l.violations = []) (hadmits : Admits key x e e₁)
    (hw : l.get? w.id = some w) (hnew : w.id ∉ ids) (ho : w.occupiesSlot) :
    e₁.occupants key w.slot = [] := by
  refine occupants_eq_nil_iff.2 fun k y hne hy hoy hslot ↦ ?_
  obtain ⟨hmem, -, -, hplaced⟩ := h.entry ((hadmits.get?_other hne).symm.trans hy)
  obtain ⟨v, hv⟩ := Layout.contains_iff.1 (h.registered _ hmem).1
  have hcore := (h.reordered hv hplaced).core_eq
  have heq := Layout.slot_inj_of_violations hl hv hw
    ((WindowInfo.occupiesSlot_of_core hcore).symm.trans hoy) ho
    ((WindowInfo.slot_of_core hcore).symm.trans hslot)
  exact hnew (heq ▸ hmem)

theorem enter (w' : WindowInfo) (h : Replayed l ids e) (hw : l.get? w.id = some w)
    (hnew : w.id ∉ ids) (hfresh : e.entries.get? key = none)
    (hget : ∀ k, e'.entries.get? k = if k = key then some x else e.entries.get? k)
    (hlayout : e'.layout = e.layout.put w') (hdesktop : e'.host.desktop = e.host.desktop)
    (hside : e'.sideStack = e.sideStack) (hx : x.standing = ⟨w.id, w.id, w', true⟩)
    (hplaced : if w.showsAtOnce then w.IsOrderedAs w' ∧ w.isPlaceable .unseen else w' = w) :
    Replayed l (ids ++ [w.id]) e' := by
  obtain ⟨hname, hid, hinfo, ha⟩ := Standing.mk.inj hx
  have hre : w.Reordered w' := by
    split at hplaced
    · exact hplaced.1.reordered
    · exact hplaced ▸ .refl
  have hself : e'.layout.get? w.id = some w' := by
    rw [hlayout, Layout.get?_put, if_pos hre.id_eq.symm]
  have hother : ∀ id, id ≠ w.id → e'.layout.get? id = e.layout.get? id := fun id hne ↦ by
    rw [hlayout, Layout.get?_put, if_neg (by rwa [hre.id_eq])]
  have hkeyed : e'.entries.get? key = some x := (hget key).trans (if_pos rfl)
  refine ⟨hdesktop.trans h.desktop, hside.trans h.sideStack, fun {k y} hy ↦ ?_, fun id hid ↦ ?_,
    fun {id v} hv ↦ ?_, fun {id v} hv hmem hshown ↦ ?_, fun hordered ↦ ?_⟩
  · rw [hget] at hy
    split at hy
    case isTrue =>
      cases hy
      refine ⟨List.mem_append_right _ (by simp [hname]), hid.trans hname.symm, ha, ?_⟩
      rw [hname, hself, hinfo]
    case isFalse =>
      obtain ⟨hmem, hyid, hya, hyinfo⟩ := h.entry hy
      refine ⟨List.mem_append_left _ hmem, hyid, hya, (hother _ ?_).trans hyinfo⟩
      exact fun heq ↦ hnew (heq ▸ hmem)
  · rcases List.mem_append.1 hid with hid | hid
    · obtain ⟨hknown, k, y, hy, hyname⟩ := h.registered id hid
      refine ⟨hknown, k, y, (hget k).trans (if_neg ?_ |>.trans hy), hyname⟩
      rintro rfl
      cases hfresh.symm.trans hy
    · rw [List.mem_singleton.1 hid]
      exact ⟨Layout.contains_of_get? hw, key, x, hkeyed, hname⟩
  · by_cases hv' : id = w.id
    · subst hv'
      cases hw.symm.trans hv
      refine ⟨w', hself, ?_⟩
      split at hplaced
      case isTrue hs => simpa [hs] using hplaced.1
      case isFalse hs => simpa [hs] using hplaced
    · obtain ⟨v', hget', hplaced'⟩ := h.placed hv
      refine ⟨v', (hother id hv').trans hget', ?_⟩
      simpa [hv'] using hplaced'
  · rcases List.mem_append.1 hmem with hmem | hmem
    · exact h.placeable hv hmem hshown
    · rw [List.mem_singleton.1 hmem] at hv
      cases hw.symm.trans hv
      rw [if_pos hshown] at hplaced
      exact hplaced.2
  · have hsame : w' = w := by
      split at hplaced
      case isTrue hs => exact hplaced.1.same (hordered w (Layout.mem_of_get? hw) hs)
      case isFalse => exact hplaced
    rw [hlayout, h.layout hordered, hsame, Layout.put_of_get? hw]

theorem isRegistered_eq_false (h : Replayed l ids e) {id : String} (hnew : id ∉ ids) :
    e.isRegistered id = false := by
  cases hkey : e.keyOf? id with
  | none => rw [isRegistered, hkey]; rfl
  | some key =>
    obtain ⟨x, hx, hname⟩ := get?_of_keyOf? hkey
    exact absurd (hname ▸ (h.entry hx).1) hnew

theorem layout_get?_of_new (h : Replayed l ids e) (hw : l.get? w.id = some w) (hnew : w.id ∉ ids) :
    e.layout.get? w.id = some w := by
  obtain ⟨w', hw', hplaced⟩ := h.placed hw
  rw [if_neg fun hmem ↦ hnew hmem.1] at hplaced
  rw [hw', hplaced]

theorem run_registerAgain (h : Replayed l ids e) (hw : l.get? w.id = some w)
    (hnew : w.id ∉ ids) : (registerAgain w).run e =
      (Engine.settle ⟨w.id, w.anchor, w.split, true, true, none⟩ w.showStripeButton w).run e :=
  run_register_of_get? rfl (h.isRegistered_eq_false hnew) (h.layout_get?_of_new hw hnew)

theorem onHost {f : Host → Host} (h : Replayed l ids e) (hk : e.host.Keeps (f e.host)) :
    Replayed l ids (e.onHost f) :=
  ⟨hk.desktop.trans h.desktop, h.sideStack, h.entry, h.registered, h.placed, h.placeable, h.layout⟩

theorem fire (h : Replayed l ids e) {kind : EventKind} {id : Option String} :
    Replayed l ids (e.fire kind id) :=
  ⟨h.desktop, h.sideStack, h.entry, h.registered, h.placed, h.placeable, h.layout⟩

theorem enterShown (h : Replayed l ids e) (hl : l.violations = []) (hw : l.get? w.id = some w)
    (hnew : w.id ∉ ids) (hadmits : Admits key x e e₁) (hx : x.standing = ⟨w.id, w.id, w, true⟩)
    (hbare : x.attached = none ∧ x.floating = none ∧ x.windowed = none)
    (hshown : w.showsAtOnce) :
    Ensures (showWindow key w dirty) e₁ fun _ e₂ ↦ Replayed l (ids ++ [w.id]) e₂ := by
  obtain ⟨hname, hid, -, ha⟩ := Standing.mk.inj hx
  obtain ⟨hv, hb⟩ := Bool.and_eq_true_iff.1 hshown
  have hfree : w.windowType.isInternal → e₁.occupants key w.slot = [] := fun hi ↦
    h.free hl hadmits hw hnew (WindowInfo.occupiesSlot_iff.2 ⟨hv, hi⟩)
  refine (ensures_and (ensures_showWindow_free hadmits.get?_self ha hbare hfree
    (hadmits.sideStack.trans h.sideStack))
    (ensures_showWindow_placeable hadmits.get?_self ha)).mono ?_
  intro _ e₂ hq
  rcases hq with ⟨⟨order, x₂, horder, hex, hstanding, -, -⟩, hplaceable⟩
  rw [hadmits.desktop, h.desktop] at hplaceable
  have hstanding₂ : x₂.standing = ⟨w.id, w.id, w.shownAt order, true⟩ := by
    rw [hstanding, Entry.standing, hname, hid, ha]
  refine h.enter (w.shownAt order) hw hnew hadmits.fresh (fun k ↦ ?_) ?_ ?_ ?_ hstanding₂ ?_
  · rw [hex.get?, hadmits.get?]
    split <;> rfl
  · rw [hex.layout, hadmits.layout]
  · rw [hex.desktop, hadmits.desktop]
  · rw [hex.sideStack, hadmits.sideStack]
  · rw [if_pos hshown]
    refine ⟨WindowInfo.isOrderedAs_shownAt hv hb ?_, hplaceable⟩
    split at horder
    case isTrue ho => exact Or.inl ⟨ho, horder⟩
    case isFalse hno => exact Or.inr ⟨hno, (Layout.nextOrder_spec horder).1⟩

theorem registerAgain (h : Replayed l ids e) (hl : l.violations = []) (hw : l.get? w.id = some w)
    (hnew : w.id ∉ ids) : Ensures (Engine.registerAgain w).run e fun res e' ↦
      res = .ok () ∧ Replayed l (ids ++ [w.id]) e' := by
  let r : RegisterRequest := ⟨w.id, w.anchor, w.split, true, true, none⟩
  have hentered : entered r w = w := entered_eq fun _ ↦ ⟨rfl, rfl⟩
  have hfinish : ∀ {e₂ : Engine}, Replayed l (ids ++ [w.id]) e₂ → ∀ pane,
      Replayed l (ids ++ [w.id]) ((e₂.validatePane pane).fire .registerToolWindow w.id) :=
    fun h₂ _ ↦ (h₂.onHost Host.keeps_record).fire
  have hsettle : Ensures (Engine.settle r w.showStripeButton w).run e fun res e' ↦
      res = .ok () ∧ Replayed l (ids ++ [w.id]) e' := by
    simp only [Engine.settle, hentered, ensures_run_lift_bind, ensures_run_ite,
      ensures_run_get_bind, ensures_run_modify, ensures_run_modify_bind]
    refine ensures_insertEntry.mono ?_
    intro key e₁ hq
    rcases hq with ⟨b, hadmits⟩
    rw [Bool.and_comm]
    refine ⟨fun hshown ↦ ?_, fun hnot ↦ ⟨trivial, hfinish ?_ _⟩⟩
    · refine (h.enterShown hl hw hnew hadmits rfl ⟨rfl, rfl, rfl⟩ hshown).mono fun _ e₂ h₂ ↦ ?_
      exact ⟨fun _ ↦ ⟨trivial, hfinish (h₂.onHost Host.keeps_requestFocus) _⟩,
        fun _ ↦ ⟨trivial, hfinish h₂ _⟩⟩
    · refine h.enter w hw hnew hadmits.fresh hadmits.get? ?_ hadmits.desktop hadmits.sideStack rfl
        ?_
      · rw [hadmits.layout, Layout.put_of_get? (h.layout_get?_of_new hw hnew)]
      · rw [if_neg (show ¬ w.showsAtOnce = true from hnot)]
  intro res e' hrun
  exact hsettle ((h.run_registerAgain hw hnew).symm.trans hrun)

theorem returns_registerAgain (h : Replayed l ids e) (hw : l.get? w.id = some w)
    (hnew : w.id ∉ ids) (hok : w.showsAtOnce → w.hasOrder ∧ w.isPlaceable .unseen) :
    Returns (Engine.registerAgain w).run e := by
  let r : RegisterRequest := ⟨w.id, w.anchor, w.split, true, true, none⟩
  have hentered : entered r w = w := entered_eq fun _ ↦ ⟨rfl, rfl⟩
  have hsettle : Returns (Engine.settle r w.showStripeButton w).run e := by
    simp only [Engine.settle, hentered, returns_run_lift_bind, returns_run_ite,
      returns_run_get_bind, returns_run_modify, returns_run_modify_bind]
    refine ⟨returns_modifyGet, ensures_insertEntry.mono ?_⟩
    intro key e₁ hq
    rcases hq with ⟨b, hadmits⟩
    refine ⟨fun hshown ↦ ⟨?_, fun _ _ _ ↦ by simp⟩, fun _ ↦ trivial⟩
    obtain ⟨ho, hplaceable⟩ := hok ((Bool.and_comm ..).trans hshown)
    have hdesktop : e₁.host.desktop = .unseen := hadmits.desktop.trans h.desktop
    exact returns_showWindow hadmits.get?_self (by rw [hdesktop]; rfl) ho (hdesktop ▸ hplaceable)
  obtain ⟨res, e', hrun⟩ := hsettle
  exact ⟨res, e', (h.run_registerAgain hw hnew).trans hrun⟩

/-- The windows that are left are registered one after another. Where each has an order and a place
that it needs, none of them fails. -/
theorem registerAll (h : Replayed l ids e) (hl : l.violations = []) (hws : ∀ w ∈ ws, w ∈ l.windows)
    (hnodup : (ids ++ ws.map WindowInfo.id).Nodup) :
    Ensures (ws.forM Engine.registerAgain).run e
        (fun res e' ↦ res = .ok () ∧ Replayed l (ids ++ ws.map WindowInfo.id) e') ∧
      (l.IsOrdered → l.IsPlaceable → Returns (ws.forM Engine.registerAgain).run e) := by
  induction ws generalizing ids e with
  | nil =>
    rw [List.map_nil, List.append_nil]
    exact ⟨ensures_run_pure.2 ⟨rfl, h⟩, fun _ _ ↦ returns_pure⟩
  | cons w ws ih =>
    have hassoc : ids ++ (w :: ws).map WindowInfo.id = ids ++ [w.id] ++ ws.map WindowInfo.id := by
      simp
    rw [hassoc] at hnodup ⊢
    have hnew : w.id ∉ ids := fun hmem ↦
      (List.nodup_append.1 (List.nodup_append.1 hnodup).1).2.2 w.id hmem w.id
        (List.mem_singleton_self _) rfl
    have hmem := hws w (List.mem_cons_self ..)
    have hw : l.get? w.id = some w := Layout.get?_of_mem hmem
    have hrest := fun e₁ (h₁ : Replayed l (ids ++ [w.id]) e₁) ↦
      ih h₁ (fun v hv ↦ hws v (List.mem_cons_of_mem _ hv)) hnodup
    rw [List.forM_eq_forM, List.forM_cons]
    refine ⟨ensures_run_bind.2 ((h.registerAgain hl hw hnew).mono ?_), fun ho hp ↦
      returns_run_bind.2 ⟨h.returns_registerAgain hw hnew fun hs ↦ ⟨ho w hmem hs, hp w hmem hs⟩,
        (h.registerAgain hl hw hnew).mono ?_⟩⟩
    · rintro _ e₁ ⟨rfl, h₁⟩
      exact ⟨fun _ _ ↦ (hrest e₁ h₁).1, fun _ hr ↦ by cases hr⟩
    · intro _ e₁ hq _ _
      exact (hrest e₁ hq.2).2 ho hp

end Replayed

namespace Replayed

theorem covers (h : Replayed l l.ids e) : Covers l e where
  contains hx := by
    obtain ⟨hmem, hid, -, -⟩ := h.entry hx
    rw [hid]
    exact (h.registered _ hmem).1
  available hx := (h.entry hx).2.2.1

theorem planned_ne_nil (h : Replayed l l.ids e) (hordered : ¬ l.IsOrdered) : e.planned l ≠ [] := by
  obtain ⟨w, hmem, hshown, ho⟩ : ∃ w ∈ l.windows, w.showsAtOnce ∧ ¬ w.hasOrder := by
    simpa only [Layout.IsOrdered, not_forall, exists_prop] using hordered
  have hid : w.id ∈ l.ids := List.mem_map_of_mem hmem
  have hw : l.get? w.id = some w := Layout.get?_of_mem hmem
  obtain ⟨-, key, x, hx, hname⟩ := h.registered _ hid
  obtain ⟨-, hxid, -, hinfo⟩ := h.entry hx
  obtain ⟨w', hw', hplaced⟩ := h.placed hw
  rw [if_pos ⟨hid, hshown⟩] at hplaced
  have hold : e.oldInfo x = w' := by rw [oldInfo, hxid, hname, hw', Option.getD_some]
  have hdiffers : (e.oldInfo x).agrees w = false := by
    refine Bool.eq_false_iff.2 fun hagrees ↦ ho ?_
    have horder : w'.order = w.order :=
      congrArg Prod.fst (WindowInfo.agrees_core (hold ▸ hagrees)).2
    rw [WindowInfo.hasOrder, ← horder]
    exact hplaced.hasOrder
  have hchange : ⟨key, e.oldInfo x, w⟩ ∈ e.changesTo l :=
    mem_changesTo.2 ⟨x, hx, by rw [hxid, hname]; exact hw, rfl, hdiffers⟩
  rw [h.covers.planned]
  exact List.ne_nil_of_mem hchange

theorem setLayout (h : Replayed l l.ids e) (hl : l.violations = []) (hnumbers : HasNumbers l)
    (hops : e.host.ops = []) :
    Ensures (Engine.setLayout l).run e
        (fun res e' ↦ res = .ok () ∧ (e'.host.ops = [] ↔ l.IsOrdered)) ∧
      (l.IsOrdered → Returns (Engine.setLayout l).run e) := by
  have hnone := orderConflict?_of_violations hl
  by_cases hordered : l.IsOrdered
  · have hlayout := h.layout hordered
    have hrun : (Engine.setLayout l).run e = .ok (.ok ()) { e with snapshot := e.layout } := by
      have horders := Layout.orderConflict?_eq_none_iff.1 hnone
      have hagain := (setLayout_layout (hlayout ▸ horders) (hlayout ▸ hnumbers)).1
      rw [hlayout] at hagain ⊢
      exact hagain fun _ _ hx ↦ h.covers.contains hx
    refine ⟨fun res e' hrun' ↦ ?_, fun _ ↦ ⟨_, _, hrun⟩⟩
    cases hrun.symm.trans hrun'
    exact ⟨rfl, iff_of_true hops hordered⟩
  · refine ⟨?_, fun ho ↦ absurd ho hordered⟩
    refine (ensures_setLayout_planned (I := fun _ _ ↦ True) hnone (fun _ _ _ _ _ _ _ ↦ trivial)
      trivial).mono ?_
    intro res e' hq
    rcases hq with ⟨hres, e₁, -, ⟨hnil, -⟩ | ⟨-, applied, rfl⟩⟩
    · exact absurd hnil (h.planned_ne_nil hordered)
    · refine ⟨hres, iff_of_false ?_ hordered⟩
      rw [ops_finishLayout]
      simp

theorem takeOps (h : Replayed l ids e) : Replayed l ids e.takeOps.2 :=
  h.onHost (f := fun h ↦ h.takeOps.2) ⟨fun _ ↦ rfl, fun _ ↦ rfl, rfl⟩

end Replayed

theorem forIn_eq_forM (xs : List α) (f : α → Operation Unit) :
    (forIn xs PUnit.unit fun x _ ↦ do f x; pure (ForInStep.yield PUnit.unit)) = xs.forM f := by
  induction xs with
  | nil => rfl
  | cons x xs ih =>
    rw [List.forIn_cons, List.forM_eq_forM, List.forM_cons]
    simp only [bind_assoc, pure_bind, ih, List.forM_eq_forM]

def compareWith (l : Layout) : Operation (List HostOp) := do
  modify fun e ↦ e.takeOps.2
  setLayout l
  return (← get).host.ops

theorem run_replay (settings : Settings) (l m : Layout) :
    (replay l m).run (.headless settings) =
      (l.windows.forM registerAgain >>= fun _ ↦ compareWith m).run
        ((Engine.headless settings).replaceLayout l) := by
  rw [← forIn_eq_forM]
  rfl

theorem replayed_headless (settings : Settings) (l : Layout) :
    Replayed l [] ((Engine.headless settings).replaceLayout l) :=
  ⟨rfl, rfl, fun hx ↦ (nomatch hx), fun _ hid ↦ (nomatch hid),
    fun hw ↦ ⟨_, hw, by simp⟩, fun _ hid ↦ (nomatch hid), fun _ ↦ rfl⟩

theorem Replayed.compareWith (h : Replayed l l.ids e) (hl : l.violations = [])
    (hnumbers : HasNumbers l) :
    Ensures (Engine.compareWith l).run e
        (fun res _ ↦ ∃ ops, res = .ok ops ∧ l.IsPlaceable ∧ (ops = [] ↔ l.IsOrdered)) ∧
      (l.IsOrdered → Returns (Engine.compareWith l).run e) := by
  have hplaceable : l.IsPlaceable := fun w hw ↦
    h.placeable (Layout.get?_of_mem hw) (List.mem_map_of_mem hw)
  obtain ⟨happlied, hreturns⟩ := h.takeOps.setLayout hl hnumbers rfl
  refine ⟨ensures_run_modify_bind.2 (ensures_run_bind.2 (happlied.mono ?_)), fun ho ↦
    returns_run_modify_bind.2 (returns_run_bind.2 ⟨hreturns ho, fun _ _ _ _ _ ↦ returns_pure⟩)⟩
  rintro _ e' ⟨rfl, hops⟩
  refine ⟨fun _ _ ↦ ensures_run_get_bind.2 (ensures_run_pure.2 ⟨_, rfl, hplaceable, hops⟩), ?_⟩
  intro _ hr
  cases hr

theorem replay_self (settings : Settings) (hl : l.violations = []) (hnumbers : HasNumbers l) :
    Ensures (replay l l).run (.headless settings)
        (fun res _ ↦ ∃ ops, res = .ok ops ∧ l.IsPlaceable ∧ (ops = [] ↔ l.IsOrdered)) ∧
      (l.IsOrdered → l.IsPlaceable → Returns (replay l l).run (.headless settings)) := by
  obtain ⟨hall, hreturns⟩ :=
    (replayed_headless settings l).registerAll hl (fun _ hw ↦ hw) l.nodup
  constructor
  · have hcompared : Ensures (l.windows.forM registerAgain >>= fun _ ↦ compareWith l).run
        ((Engine.headless settings).replaceLayout l)
        (fun res _ ↦ ∃ ops, res = .ok ops ∧ l.IsPlaceable ∧ (ops = [] ↔ l.IsOrdered)) := by
      refine ensures_run_bind.2 (hall.mono ?_)
      rintro _ e₁ ⟨rfl, h₁⟩
      exact ⟨fun _ _ ↦ (h₁.compareWith hl hnumbers).1, fun _ hr ↦ by cases hr⟩
    exact fun _ _ hrun ↦ hcompared ((run_replay settings l l).symm.trans hrun)
  · intro ho hp
    obtain ⟨res, e', hrun⟩ : Returns (l.windows.forM registerAgain >>= fun _ ↦ compareWith l).run
        ((Engine.headless settings).replaceLayout l) :=
      returns_run_bind.2 ⟨hreturns ho hp,
        hall.mono fun _ _ hq _ _ ↦ (hq.2.compareWith hl hnumbers).2 ho⟩
    exact ⟨res, e', (run_replay settings l l).trans hrun⟩

end Engine

/-- Compared with itself, a layout with nothing wrong about it leads to no difference just if its
windows have the orders and the places that they need. Otherwise there is a fault or a difference.
-/
theorem Layout.diff_self {l : Layout} (settings : Settings) (hl : l.violations = [])
    (hnumbers : Engine.HasNumbers l) :
    (l.IsOrdered ∧ l.IsPlaceable ∧ l.diff settings l = .ok (.ok [])) ∨
      ¬ (l.IsOrdered ∧ l.IsPlaceable) ∧ ((∃ fault, l.diff settings l = .error fault) ∨
        ∃ ops, ops ≠ [] ∧ l.diff settings l = .ok (.ok ops)) := by
  obtain ⟨hall, hreturns⟩ := Engine.replay_self settings hl hnumbers
  unfold Layout.diff
  cases hrun : (Engine.replay l l).run (.headless settings) with
  | ok res e =>
    obtain ⟨ops, rfl, hplaceable, hops⟩ := hall hrun
    by_cases ho : l.IsOrdered
    · exact Or.inl ⟨ho, hplaceable, by rw [hops.2 ho]⟩
    · exact Or.inr ⟨fun hboth ↦ ho hboth.1, Or.inr ⟨ops, fun hnil ↦ ho (hops.1 hnil), rfl⟩⟩
  | error fault e =>
    refine Or.inr ⟨fun hboth ↦ ?_, Or.inl ⟨fault, rfl⟩⟩
    obtain ⟨res, e', hok⟩ := hreturns hboth.1 hboth.2
    cases hrun.symm.trans hok

namespace Command

variable {s : Surroundings} {path : String} {l : Layout}

/-- A layout file that is compared with itself is equivalent to itself just if every window that is
shown has an order, and its place if it floats. -/
theorem execute_diff_self (config : Config) (asJson : Bool) (hload : loadLayout s path = .ok l)
    (hl : l.violations = []) (hnumbers : Engine.HasNumbers l) :
    (l.IsOrdered ∧ l.IsPlaceable → execute s config (.diff path path asJson) =
        .success (if asJson then opsJson [] else line "layouts are equivalent")) ∧
      (¬ (l.IsOrdered ∧ l.IsPlaceable) →
        (∃ fault, execute s config (.diff path path asJson) = .fault fault) ∨
          ∃ ops, ops ≠ [] ∧ execute s config (.diff path path asJson) =
            .success (if asJson then opsJson ops else opsText ops)) := by
  have hexecute : execute s config (.diff path path asJson) =
      diffOutcome config.engine l l asJson := by
    simp only [execute, hload, withLoaded]
  rw [hexecute, diffOutcome]
  rcases Layout.diff_self config.engine hl hnumbers with
    ⟨ho, hp, hdiff⟩ | ⟨hnot, ⟨fault, hdiff⟩ | ⟨ops, hne, hdiff⟩⟩
  · rw [hdiff]
    exact ⟨fun _ ↦ rfl, fun hnot ↦ absurd ⟨ho, hp⟩ hnot⟩
  · rw [hdiff]
    exact ⟨fun hboth ↦ absurd hboth hnot, fun _ ↦ Or.inl ⟨fault, rfl⟩⟩
  · rw [hdiff]
    exact ⟨fun hboth ↦ absurd hboth hnot, fun _ ↦ Or.inr ⟨ops, hne, rfl⟩⟩

def holding (text : String) : Surroundings := ⟨fun _ ↦ some text, fun _ ↦ true, none, []⟩

def unorderedText : String := "(windows: [(id: \"A\", visible: true)])"

/-- The window is given an order when it is registered, so that it has another one than its file. -/
theorem execute_diff_self_unorderedText : ∃ l,
    loadLayout (holding unorderedText) "a.ron" = .ok l ∧ l.violations = [] ∧ Engine.HasNumbers l ∧
      ¬ (l.IsOrdered ∧ l.IsPlaceable) ∧
      ((∃ fault, execute (holding unorderedText) .default (.diff "a.ron" "a.ron" false) =
          .fault fault) ∨
        ∃ ops, ops ≠ [] ∧ execute (holding unorderedText) .default (.diff "a.ron" "a.ron" false) =
          .success (opsText ops)) ∧
      execute (holding unorderedText) .default (.diff "a.ron" "a.ron" false) ≠
        .success (line "layouts are equivalent") := by
  obtain ⟨l, hload, hl, hnumbers, hnot⟩ : ∃ l, loadLayout (holding unorderedText) "a.ron" = .ok l ∧
      l.violations = [] ∧
      (∀ info ∈ l.windows, info.weight.isNaN = false ∧ info.sideWeight.isNaN = false) ∧
      ¬ (l.IsOrdered ∧ l.IsPlaceable) :=
    ⟨.ofList [{ WindowInfo.new "A" .left with visible := true, persisted := true }],
      by decide +kernel, by decide +kernel, by decide +kernel, by decide +kernel⟩
  exact ⟨l, hload, hl, hnumbers, hnot,
    (execute_diff_self .default false hload hl hnumbers).2 hnot, by decide +kernel⟩

end Command

end ToolDock

import ToolDock.Proofs.Numbering
import ToolDock.Proofs.Reapplying
import ToolDock.Proofs.Refilling
import ToolDock.Proofs.Reopening
import ToolDock.Proofs.Resuming

/-!
Two ways to show a hidden window. A request shows it by itself; a layout that differs from the one
in place in its visible flag has it shown as a change. The decorator is added in step either way,
from engines in which there is the same to see, and what comes before and after adds nothing to see
but a stripe button. Main statement: `matches_reveal_setLayout`.
-/

namespace ToolDock

/-- A placement with only its visible flag set. -/
def WindowInfo.asVisible (info : WindowInfo) : WindowInfo := { info with visible := true }

def Entry.view (x : Entry) : String × WindowInfo × Option WindowInfo := (x.name, x.info, x.attached)

theorem Host.decorator_of_objects {h h' : Host} (ho : h'.objects = h.objects) (id : String) :
    (h'.decorator id).1 = (h.decorator id).1 ∧
      (h'.decorator id).2.objects = (h.decorator id).2.objects := by
  unfold decorator
  rw [ho]
  cases h.objects.rows.find? (·.2 == .decorator id) with
  | some row => exact ⟨rfl, ho⟩
  | none => exact ⟨rfl, rfl⟩

namespace Engine

variable {D : Prop} {α β : Type} {e e' e'' f : Engine} {key : SlotKey} {x : Entry}
  {info : WindowInfo} {dirty dirty' : Bool} {id : String}

namespace SameWindows

theorem get? (h : SameWindows e f) : f.entries.get? key = e.entries.get? key := by rw [h.entries]

theorem updateEntry (h : SameWindows e f) (g : Entry → Entry) :
    SameWindows (e.updateEntry key g) (f.updateEntry key g) where
  entries := congrArg (SlotTable.modify · key g) h.entries
  layout := h.layout
  objects := h.objects
  desktop := h.desktop

theorem onHost {g g' : Host → Host} (h : SameWindows e f)
    (hobjects : (g' f.host).objects = (g e.host).objects)
    (hdesktop : (g' f.host).desktop = (g e.host).desktop) :
    SameWindows (e.onHost g) (f.onHost g') :=
  ⟨h.entries, h.layout, hobjects, hdesktop⟩

theorem objects_updateExternal (h : SameWindows e f) (a : Handle)
    (g : ExternalWindow → ExternalWindow) :
    (f.host.updateExternal a g).objects = (e.host.updateExternal a g).objects := by
  rw [Host.updateExternal, h.objects, Host.updateExternal]

theorem decoratorOf (h : SameWindows e f) (key : SlotKey) :
    SameWindows (e.decoratorOf key).2 (f.decoratorOf key).2 := by
  simp only [Engine.decoratorOf, h.get?]
  cases e.entries.get? key with
  | none => exact h
  | some x =>
    cases hd : x.decorator with
    | some d =>
      simp only [hd]
      exact h
    | none =>
      obtain ⟨hhandle, hobjects⟩ := Host.decorator_of_objects h.objects x.id
      simp only [hd, hhandle]
      have hdesktop : (f.host.decorator x.id).2.desktop = (e.host.decorator x.id).2.desktop :=
        Host.keeps_decorator.desktop.trans (h.desktop.trans Host.keeps_decorator.desktop.symm)
      have hasked : SameWindows (e.onHost fun host ↦ (host.decorator x.id).2)
          (f.onHost fun host ↦ (host.decorator x.id).2) := h.onHost hobjects hdesktop
      exact hasked.updateEntry _

theorem addInternalDecorator (h : SameWindows e f) :
    SameWindows (e.addInternalDecorator key info dirty) (f.addInternalDecorator key info dirty') :=
  ((h.decoratorOf key).onHost (h.decoratorOf key).objects (h.decoratorOf key).desktop).updateEntry _

end SameWindows

def InStep (p q : Action α) (e f : Engine) : Prop :=
  Ensures p e fun r e' ↦ Ensures q f fun s f' ↦ s = r ∧ SameWindows e' f'

section InStep

variable {p q : Action α}

theorem inStep_pure (h : SameWindows e f) (r : α) : InStep (pure r) (pure r) e f :=
  ensures_pure.2 (ensures_pure.2 ⟨rfl, h⟩)

theorem inStep_modify {g g' : Engine → Engine} (h : SameWindows (g e) (g' f)) :
    InStep (modify g) (modify g') e f :=
  ensures_modify.2 (ensures_modify.2 ⟨rfl, h⟩)

theorem inStep_check (h : SameWindows e f) (c : Checked α) : InStep (check c) (check c) e f :=
  ensures_check.2 fun _ hr ↦ ensures_check.2 fun _ hs ↦ ⟨Except.ok.inj (hs.symm.trans hr), h⟩

theorem inStep_get_bind {k k' : Engine → Action α} (h : InStep (k e) (k' f) e f) :
    InStep (get >>= k) (get >>= k') e f := by
  rw [InStep, ensures_bind, ensures_get]
  refine h.mono fun r e' hr ↦ ?_
  rw [ensures_bind, ensures_get]
  exact hr

theorem InStep.bind {k k' : α → Action β} (h : InStep p q e f)
    (hk : ∀ r e' f', SameWindows e' f' → InStep (k r) (k' r) e' f') :
    InStep (p >>= k) (q >>= k') e f := by
  rw [InStep, ensures_bind]
  refine h.mono fun r e' hq s e'' hs ↦ ensures_bind.2 (hq.mono fun t f' ⟨ht, hsame⟩ ↦ ?_)
  subst ht
  exact hk t e' f' hsame hs

end InStep

namespace SameWindows

theorem openExternal (h : SameWindows e f) (kind : ExternalKind) (info : WindowInfo) :
    InStep (openExternal kind info) (Engine.openExternal kind info) e f := by
  have hnext : f.host.objects.next = e.host.objects.next := by rw [h.objects]
  have hobjects : (f.host.openExternal kind info).2.objects =
      (e.host.openExternal kind info).2.objects := by
    simp only [Host.openExternal, Host.record, h.objects, h.desktop]
  exact ensures_modifyGet.2 (ensures_modifyGet.2 ⟨hnext, h.entries, h.layout, hobjects, h.desktop⟩)

theorem placeExternal (h : SameWindows e f) (a : Handle) (info : WindowInfo) :
    InStep (placeExternal a info) (Engine.placeExternal a info) e f := by
  have hplacement : externalPlacement f.host a info = externalPlacement e.host a info := by
    simp only [externalPlacement, Host.externalBounds, Host.external?, h.objects, h.desktop]
  refine inStep_get_bind ?_
  -- both ask for the same bounds, or both fail to find any
  rw [hplacement]
  refine (inStep_check h _).bind fun bounds e' f' h' ↦ ?_
  exact inStep_modify (h'.onHost (h'.objects_updateExternal a _) h'.desktop)

theorem showExternal (h : SameWindows e f) (a : Handle) (focus : Bool) :
    SameWindows (e.onHost (·.showExternal a focus)) (f.onHost (·.showExternal a focus)) :=
  h.onHost (h.objects_updateExternal a _) h.desktop

theorem addFloatingDecorator (h : SameWindows e f) :
    InStep (addFloatingDecorator key info) (Engine.addFloatingDecorator key info) e f := by
  refine (inStep_modify (h.decoratorOf key)).bind fun _ _ _ h ↦ ?_
  refine (h.openExternal .floating info).bind fun a _ _ h ↦ ?_
  refine (inStep_modify (h.updateEntry _)).bind fun _ _ _ h ↦ ?_
  refine (h.placeExternal a info).bind fun _ _ _ h ↦ ?_
  exact inStep_modify (h.showExternal a _)

theorem addWindowedDecorator (h : SameWindows e f) :
    InStep (addWindowedDecorator key info) (Engine.addWindowedDecorator key info) e f := by
  refine inStep_get_bind ?_
  rw [h.desktop]
  split
  case isTrue => exact inStep_pure h ()
  case isFalse =>
    refine (inStep_modify (h.decoratorOf key)).bind fun _ _ _ h ↦ ?_
    refine (h.openExternal .windowed info).bind fun a _ _ h ↦ ?_
    refine (h.placeExternal a info).bind fun _ _ _ h ↦ ?_
    refine (inStep_modify (h.updateEntry _)).bind fun _ _ _ h ↦ ?_
    refine (inStep_modify (h.showExternal a _)).bind fun _ _ _ h ↦ ?_
    split
    case isTrue => exact inStep_modify (h.onHost (h.objects_updateExternal a _) h.desktop)
    case isFalse => exact inStep_pure h ()

theorem addDecorator (h : SameWindows e f) :
    InStep (addDecorator key info dirty) (Engine.addDecorator key info dirty') e f := by
  unfold Engine.addDecorator
  split
  case h_1 => exact h.addFloatingDecorator
  case h_2 => exact h.addWindowedDecorator
  case h_3 | h_4 => exact inStep_modify h.addInternalDecorator

end SameWindows

/-- The layout is the same, and so are, under each key, the name of the window and its placements in
the entry and in a pane. The same external windows are open, just as they were. -/
structure LooksLike (e e' : Engine) : Prop where
  layout : e'.layout = e.layout
  views : ∀ k, (e'.entries.get? k).map Entry.view = (e.entries.get? k).map Entry.view
  externals : e'.host.externals = e.host.externals

namespace LooksLike

theorem symm (h : LooksLike e e') : LooksLike e' e :=
  ⟨h.layout.symm, fun k ↦ (h.views k).symm, h.externals.symm⟩

theorem trans (h : LooksLike e e') (h' : LooksLike e' e'') : LooksLike e e'' :=
  ⟨h'.layout.trans h.layout, fun k ↦ (h'.views k).trans (h.views k),
    h'.externals.trans h.externals⟩

theorem sameNames (h : LooksLike e e') : SameNames e e' := by
  intro k
  have hname := congrArg (Option.map fun v ↦ v.1) (h.views k)
  rwa [Option.map_map, Option.map_map] at hname

theorem matches_of_namesUnique (h : LooksLike e e') (hu : NamesUnique e) : e.Matches e' := by
  refine ⟨h.layout.symm, fun id ↦ ?_⟩
  simp only [windowInfo?, attached?, entry?, h.sameNames.keyOf?_eq hu id]
  cases e.keyOf? id with
  | none => exact ⟨rfl, rfl⟩
  | some k =>
    have hinfo := congrArg (Option.map fun v ↦ v.2.1) (h.views k)
    have hattached := congrArg (Option.bind · fun v ↦ v.2.2) (h.views k)
    rw [Option.map_map, Option.map_map] at hinfo
    simp only [Option.bind_map] at hattached
    exact ⟨hinfo.symm, hattached.symm⟩

end LooksLike

theorem SameWindows.looksLike (h : SameWindows e e') : LooksLike e e' where
  layout := h.layout
  views k := by rw [h.entries]
  externals := by rw [Host.externals, h.objects, Host.externals]

theorem Exchanged.looksLike {x' : Entry} (hex : Exchanged D key x x' e.layout e e')
    (hx : e.entries.get? key = some x) (hview : x'.view = x.view)
    (hhost : e'.host.externals = e.host.externals) : LooksLike e e' := by
  refine ⟨hex.layout, fun k ↦ ?_, hhost⟩
  rw [hex.get?]
  split
  case isTrue hk => rw [hk, hx, Option.map_some, Option.map_some, hview]
  case isFalse => rfl

theorem looksLike_ensureStripeButton (hx : e.entries.get? key = some x) :
    LooksLike e (e.ensureStripeButton key info) := by
  obtain ⟨b, -, hex⟩ := exchanged_ensureStripeButton (D := False) info hx False.elim
  refine hex.looksLike hx rfl ?_
  unfold ensureStripeButton
  split
  · exact Host.externals_alloc rfl rfl
  · rfl

theorem looksLike_commit (hx : e.entries.get? key = some x) (hinfo : x.info = info)
    (hplaced : e.layout.get? info.id = some info) : LooksLike e (e.commit key info) := by
  have hex := exchanged_commit (D := False) info hx False.elim
  rw [Layout.put_of_get? hplaced] at hex
  have hview : Entry.view { x with info := info } = x.view := by rw [← hinfo]
  exact hex.looksLike hx hview rfl

theorem shownAt_eq_asVisible (hb : info.showStripeButton) :
    info.shownAt info.order = info.asVisible := by
  cases info
  cases hb
  rfl

theorem ensures_reveal_free {Q : Except EngineError Unit → Engine → Prop}
    (hu : NamesUnique e) (hl : Located e key x info) (hv : x.info.visible = false)
    (ha : x.available)
    (ho : info.hasOrder) (hb : info.showStripeButton)
    (hfree : info.windowType.isInternal → e.dockedAt info.slot = [])
    (hQ : Ensures (addDecorator key info.asVisible false) (e.commit key info.asVisible) fun _ e' ↦
      Q (.ok ())
        ((((e'.forgetEvicted info.id).ensureStripeButton key info.asVisible).fire
          .toolWindowShown info.id).fire .showToolWindow x.name)) :
    Ensures (reveal x.name).run e Q := by
  rw [← shownAt_eq_asVisible hb] at hQ
  have hevict : e.evictFor key (info.shownAt info.order) false = e := evictFor_eq_self hfree
  simp only [reveal, ensures_keyOf_bind, ensures_run_get_bind, ensures_run_ite, ensures_run_pure,
    ensures_run_lift_bind, ensures_run_modify, ensures_takeInfo]
  refine ⟨fun k hk ↦ ?_, fun hnone ↦ ?_⟩
  · cases (hu.keyOf?_eq hl.entry).symm.trans hk
    rw [entryIs_of_get? hl.entry, hv, hl.registeredInfo_eq]
    refine ⟨fun hn ↦ absurd hn Bool.false_ne_true, fun _ ↦ ?_⟩
    refine ensures_showWindow_cases (fun hno ↦ ?_) fun _ order horder ↦ ?_
    · rw [entryIs_of_get? hl.entry, ha] at hno
      cases hno
    · rw [if_pos ho] at horder
      rw [horder, hevict]
      exact hQ.mono fun _ e' hq ↦ ⟨fun _ ↦ hq, fun hno ↦ absurd rfl hno⟩
  · cases (hu.keyOf?_eq hl.entry).symm.trans hnone

/-- The change of a window that comes on the screen where it is. -/
def LayoutChange.appearance (key : SlotKey) (info : WindowInfo) : LayoutChange :=
  ⟨key, info, info.asVisible⟩

theorem ensures_applyChange_appearance {Q : LayoutChange → Engine → Prop}
    (hv : info.visible = false)
    (hQ : Ensures (addDecorator key info.asVisible true) e fun _ e' ↦
      Q (.appearance key info) (e'.commit key info.asVisible)) :
    Ensures (applyChange (.appearance key info)) e Q := by
  have hhiding : applyHiding (.appearance key info) e = (.appearance key info, e) := by
    rw [applyHiding, LayoutChange.appearance, hv]
    rfl
  refine ensures_applyChange_stages hhiding ?_
  have hstays : (LayoutChange.appearance key info).movesSlot = false := by
    simp [LayoutChange.appearance, LayoutChange.movesSlot, WindowInfo.occupiesSlot, hv]
  have hrelabels : (LayoutChange.appearance key info).relabels = false := by
    simp [LayoutChange.appearance, LayoutChange.relabels, WindowInfo.asVisible, WindowInfo.isAt]
  have hsplit : (LayoutChange.appearance key info).changesSplit = false := by
    simp [LayoutChange.appearance, LayoutChange.changesSplit, WindowInfo.asVisible]
  have htype : (LayoutChange.appearance key info).changesType = false := by
    simp [LayoutChange.appearance, LayoutChange.changesType, WindowInfo.asVisible]
  refine ensures_applyPlace_stages (fun hm ↦ absurd (hstays.symm.trans hm) Bool.false_ne_true)
    fun _ ↦ ?_
  have hshows : ((LayoutChange.appearance key info).new.visible &&
      (false || false || !(LayoutChange.appearance key info).old.visible) && !false) = true := by
    simp [LayoutChange.appearance, WindowInfo.asVisible, hv]
  simp only [leaveSlot, decorate, retyped, relabelled, hrelabels, hsplit, htype, hshows]
  exact ensures_pure.2 hQ

theorem get?_put_visible (hl : Located e key x info) (i : String) :
    (e.layout.put info.asVisible).get? i =
      if i = x.id then some info.asVisible else e.layout.get? i := by
  have hid : info.id = x.id := Layout.id_of_get? hl.placement
  rw [← hid]
  exact Layout.get?_put ..

theorem CoherentCore.agrees_put_visible {k : SlotKey} {y : Entry} {new : WindowInfo}
    (h : CoherentCore e) (hnumbers : HasNumbers e.layout) (hl : Located e key x info)
    (hy : e.entries.get? k = some y) (hk : k ≠ key)
    (hnew : (e.layout.put info.asVisible).get? y.id = some new) : (e.oldInfo y).agrees new := by
  rw [get?_put_visible hl, if_neg fun heq ↦ hk (h.key_eq hy hl.entry heq)] at hnew
  rw [oldInfo, hnew, Option.getD_some]
  exact hnumbers.agrees_self hnew

theorem CoherentCore.mem_changesTo_put_visible {c : LayoutChange} (h : CoherentCore e)
    (hnumbers : HasNumbers e.layout) (hl : Located e key x info) (hv : info.visible = false) :
    c ∈ e.changesTo (e.layout.put info.asVisible) ↔ c = .appearance key info := by
  have hself := (get?_put_visible hl x.id).trans (if_pos rfl)
  have hold : e.oldInfo x = info := by rw [oldInfo, hl.placement, Option.getD_some]
  rw [mem_changesTo]
  constructor
  · rintro ⟨y, hy, hnew, hcold, hne⟩
    by_cases hk : c.key = key
    · obtain ⟨k, old, new⟩ := c
      obtain rfl : k = key := hk
      cases hy.symm.trans hl.entry
      cases hself.symm.trans hnew
      obtain rfl : old = info := hcold.trans hold
      rfl
    · rw [hcold, h.agrees_put_visible hnumbers hl hy hk hnew] at hne
      cases hne
  · rintro rfl
    have hdiffers : info.agrees info.asVisible = false := by
      simp [WindowInfo.asVisible, WindowInfo.agrees, hv]
    exact ⟨x, hl.entry, hself, hold.symm, hdiffers⟩

theorem CoherentCore.planLayout_put_visible (h : CoherentCore e) (hnumbers : HasNumbers e.layout)
    (hknows : Knows e.layout e) (hl : Located e key x info) (ha : x.available)
    (hv : info.visible = false) :
    e.planLayout (e.layout.put info.asVisible) =
      (e.layout.put info.asVisible, [.appearance key info]) := by
  rw [planLayout_of_knows (fun k y hy ↦ Layout.contains_put.2 (Or.inr (hknows k y hy)))]
  · have hnodup : (e.changesTo (e.layout.put info.asVisible)).Nodup :=
      nodup_changesTo.imp fun hne heq ↦ hne (congrArg LayoutChange.key heq)
    rw [List.perm_singleton.1 ((List.perm_ext_iff_of_nodup hnodup (List.nodup_singleton _)).2
      fun c ↦ (h.mem_changesTo_put_visible hnumbers hl hv).trans List.mem_singleton.symm)]
  · intro k y new hy hnew
    by_cases hk : k = key
    · subst hk
      cases hy.symm.trans hl.entry
      exact Or.inl ha
    · exact Or.inr (h.agrees_put_visible hnumbers hl hy hk hnew)

theorem orderConflict?_put_visible (horders : ∀ i j, ¬ e.layout.SharesOrder i j)
    (hinfo : e.layout.get? info.id = some info) :
    orderConflict? (e.layout.put info.asVisible) = none := by
  have hplace : ∀ i, e.layout.place? i = (e.layout.put info.asVisible).place? i := by
    intro i
    rw [Layout.place?_put]
    split
    case isTrue hi =>
      have hself : e.layout.place? info.id = some info.place := Layout.place?_of_get? hinfo
      rw [hi]
      exact hself
    case isFalse => rfl
  exact Layout.orderConflict?_eq_none_iff.2 fun i j hshares ↦
    horders i j (hshares.congr (hplace i) (hplace j))

theorem CoherentCore.ensures_setLayout_put_visible {P : Engine → Prop} (h : CoherentCore e)
    (horders : ∀ i j, ¬ e.layout.SharesOrder i j) (hnumbers : HasNumbers e.layout)
    (hknows : Knows e.layout e) (hl : Located e key x info) (ha : x.available)
    (hv : info.visible = false)
    (hP : ∀ e₁, SameWindows (e.commit key info.asVisible) e₁ →
      Ensures (addDecorator key info.asVisible true) e₁ fun _ e₂ ↦
        P (e₂.commit key info.asVisible)) :
    Ensures (setLayout (e.layout.put info.asVisible)).run e fun res e' ↦
      res = .ok () ∧ ∃ e₁, P e₁ ∧ SameWindows e₁ e' := by
  have hid : info.id = x.id := Layout.id_of_get? hl.placement
  have hplan := h.planLayout_put_visible hnumbers hknows hl ha hv
  have hcompleted : e.completed (e.layout.put info.asVisible) = _ := congrArg Prod.fst hplan
  have hplanned : e.planned (e.layout.put info.asVisible) = _ := congrArg Prod.snd hplan
  have hlive : e.liveChanges (e.layout.put info.asVisible) = [.appearance key info] := by
    have hready : e.entryIs key Entry.available = true := (entryIs_of_get? hl.entry).trans ha
    rw [liveChanges, hplanned]
    exact List.filter_eq_self.2 fun c hc ↦ by rwa [List.mem_singleton.1 hc]
  refine (ensures_setLayout_planned (I := fun rest e₁ ↦
    rest = [.appearance key info] ∧
      SameWindows (e.commit key info.asVisible) e₁ ∨ rest = [] ∧ P e₁)
    (orderConflict?_put_visible horders (hid ▸ hl.placement)) (fun c rest e₁ hI ↦ ?_) ?_).mono ?_
  · obtain ⟨heq, hsame⟩ | ⟨hnil, -⟩ := hI
    · obtain ⟨rfl, rfl⟩ := List.cons_eq_cons.1 heq
      exact ensures_applyChange_appearance hv ((hP e₁ hsame).mono fun _ e₂ he₂ ↦ Or.inr ⟨rfl, he₂⟩)
    · cases hnil
  · rw [hlive, hcompleted, hplanned]
    exact Or.inl ⟨rfl, rfl, rfl, rfl, rfl⟩
  · rintro res e' ⟨hres, e₁, h₁, hlast⟩
    obtain ⟨hne, -⟩ | ⟨-, hP₁⟩ := h₁
    · cases hne
    · exact ⟨hres, e₁, hP₁, hlast.sameWindows⟩

theorem looksLike_shown (hx : e.entries.get? key = some x) {told told' : Option String}
    {kind kind' : EventKind} :
    LooksLike e ((((e.forgetEvicted id).ensureStripeButton key info).fire kind told).fire kind'
      told') := by
  have hforgot : SameWindows e (e.forgetEvicted id) := by
    rw [forgetEvicted_eq]
    exact ⟨rfl, rfl, rfl, rfl⟩
  have hbutton :
      LooksLike (e.forgetEvicted id) ((e.forgetEvicted id).ensureStripeButton key info) :=
    looksLike_ensureStripeButton (hforgot.get?.trans hx)
  have htold : SameWindows ((e.forgetEvicted id).ensureStripeButton key info)
      ((((e.forgetEvicted id).ensureStripeButton key info).fire kind told).fire kind' told') :=
    ⟨rfl, rfl, rfl, rfl⟩
  exact (hforgot.looksLike.trans hbutton).trans htold.looksLike

theorem CoherentCore.ensures_reveal_looksLike (h : CoherentCore e)
    (horders : ∀ i j, ¬ e.layout.SharesOrder i j) (hnumbers : HasNumbers e.layout)
    (hknows : Knows e.layout e) (hl : Located e key x info) (hv : x.info.visible = false)
    (ha : x.available) (ho : info.hasOrder) (hb : info.showStripeButton)
    (hfree : info.windowType.isInternal → e.dockedAt info.slot = []) :
    Ensures (reveal x.name).run e fun res₁ e₁ ↦ res₁ = .ok () ∧
      Ensures (setLayout (e.layout.put info.asVisible)).run e fun res₂ e₂ ↦
        res₂ = .ok () ∧ LooksLike e₁ e₂ := by
  have hsound : Sound (fun _ ↦ ()) False ∅ ∅ e := ⟨h, False.elim⟩
  have hvisible : info.visible = false := (hsound.visible_of_located hl).trans hv
  have hcommit := exchanged_commit (D := False) info.asVisible hl.entry False.elim
  refine ensures_reveal_free h.namesUnique hl hv ha ho hb hfree fun _ e₃ hrun ↦ ⟨rfl, ?_⟩
  obtain ⟨x₃, hex, hstanding⟩ := ensures_addDecorator_redecorates hcommit.get?_self hrun
  have hinfo₃ : x₃.info = info.asVisible := congrArg Standing.info hstanding
  have hplaced₃ : e₃.layout.get? info.asVisible.id = some info.asVisible := by
    rw [hex.layout, get?_commit_layout, if_pos rfl]
  refine (h.ensures_setLayout_put_visible (P := LooksLike e₃) horders hnumbers hknows hl ha hvisible
    fun f₁ hf₁ ↦ ?_).mono ?_
  · refine (hf₁.addDecorator hrun).mono fun _ f₂ ⟨_, hsame⟩ ↦ hsame.looksLike.trans ?_
    exact looksLike_commit (hsame.get?.trans hex.get?_self) hinfo₃ (hsame.layout ▸ hplaced₃)
  · rintro res₂ e₂ ⟨hres, f₃, hlooks, hsame⟩
    exact ⟨hres, ((looksLike_shown hex.get?_self).symm.trans hlooks).trans hsame.looksLike⟩

/-- A hidden window whose slot is free may be shown by itself, or by a layout that differs from the
one in place in that only. Either way it comes up as the same: layouts, entries and what is in the
panes agree, and so do the external windows. -/
theorem matches_reveal_setLayout {res₁ res₂ : Except EngineError Unit} {e₁ e₂ : Engine}
    (hc : CoherentCore e) (horders : ∀ i j, ¬ e.layout.SharesOrder i j)
    (hnumbers : HasNumbers e.layout) (hknows : Knows e.layout e)
    (hx : e.entry? id = some x) (hv : x.info.visible = false) (ha : x.available)
    (hinfo : e.layout.get? id = some info) (ho : info.hasOrder) (hb : info.showStripeButton)
    (hfree : info.windowType.isInternal → e.dockedAt info.slot = [])
    (hshow : (reveal id).run e = .ok res₁ e₁)
    (hset : (setLayout (e.layout.put info.asVisible)).run e = .ok res₂ e₂) :
    res₁ = .ok () ∧ res₂ = .ok () ∧ e₁.Matches e₂ ∧ e₂.host.externals = e₁.host.externals := by
  obtain ⟨key, hkey, hentry⟩ := Option.bind_eq_some_iff.1 hx
  obtain ⟨y, hy, rfl⟩ := get?_of_keyOf? hkey
  cases hentry.symm.trans hy
  have hid : x.id = x.name := hc.id_eq (standing?_of_get? hentry)
  have hl : Located e key x info := ⟨hentry, hid ▸ hinfo⟩
  obtain ⟨hres₁, hsets⟩ :=
    hc.ensures_reveal_looksLike horders hnumbers hknows hl hv ha ho hb hfree hshow
  obtain ⟨hres₂, hlooks⟩ := hsets hset
  have hshown : (Request.reveal x.name).run.run e = .ok res₁ e₁ := hshow
  have hsound : Sound (fun _ ↦ ()) False ∅ ∅ e := ⟨hc, False.elim⟩
  have hfits : (Request.reveal x.name).Fits e := trivial
  have hsound₁ := hsound.run hfits False.elim hshown
  exact ⟨hres₁, hres₂, hlooks.matches_of_namesUnique hsound₁.coherent.namesUnique,
    hlooks.externals⟩

theorem matches_reveal_setLayout_hiddenRequest : ∃ e e₁ e₂ info, CoherentCore e ∧
    e.layout.get? "A" = some info ∧ info.visible = false ∧
      (reveal "A").run e = .ok (.ok ()) e₁ ∧
      (setLayout (e.layout.put info.asVisible)).run e = .ok (.ok ()) e₂ ∧
      e₁.Matches e₂ ∧ e₂.host.externals = e₁.host.externals := by
  have hleads : blank.leadsTo (register (hiddenRequest "A")) fun e ↦
      orderConflict? e.layout = none &&
      decide (∀ w ∈ e.layout.windows, w.weight.isNaN = false ∧ w.sideWeight.isNaN = false) &&
      decide (∀ row ∈ e.entries.toList, e.layout.contains row.2.id) &&
      ((e.entry? "A").any fun x ↦ !x.info.visible && x.available) &&
      ((e.layout.get? "A").any fun info ↦ !info.visible && info.hasOrder && info.showStripeButton &&
        decide (e.dockedAt info.slot = []) &&
        e.accepts (setLayout (e.layout.put info.asVisible))) &&
      e.accepts (reveal "A") := by
    decide +kernel
  obtain ⟨e, hregister, hleads⟩ := exists_run_of_leadsTo hleads
  simp only [Bool.and_eq_true, decide_eq_true_eq, Option.any_eq_true, Bool.not_eq_true'] at hleads
  obtain ⟨⟨⟨⟨⟨hnone, hnumbers⟩, hknows⟩, x, hx, hv, ha⟩, info, hinfo,
    ⟨⟨⟨hvi, ho⟩, hb⟩, hfree⟩, hsets⟩, hshows⟩ := hleads
  obtain ⟨e₁, hshow⟩ := exists_run_of_accepts hshows
  obtain ⟨e₂, hset⟩ := exists_run_of_accepts hsets
  have hrun : (Request.register (hiddenRequest "A")).run.run blank = .ok (.ok ()) e := hregister
  have hfits : (Request.register (hiddenRequest "A")).Fits blank :=
    ⟨fun _ h ↦ (nomatch h), fun _ h ↦ (nomatch h)⟩
  have hc : CoherentCore e :=
    (coherent_run (coherentOn_of_empty rfl) hfits hrun).coarsen fun _ _ _ ↦ rfl
  obtain ⟨-, -, hmatches, hexternals⟩ := matches_reveal_setLayout hc
    (Layout.orderConflict?_eq_none_iff.1 hnone) hnumbers
    (fun key y hy ↦ hknows _ (SlotTable.mem_toList.2 hy)) hx hv ha hinfo ho hb (fun _ ↦ hfree)
    hshow hset
  exact ⟨e, e₁, e₂, info, hc, hinfo, hvi, hshow, hset, hmatches, hexternals⟩

end Engine

end ToolDock

import ToolDock.Proofs.Mounting
import ToolDock.Proofs.Soundness

namespace ToolDock

def WindowInfo.worn (info : WindowInfo) : Option WindowInfo :=
  if info.visible then some info else none

def seat? : Option WindowInfo → Option Slot
  | some info => if info.windowType.isInternal then some info.slot else none
  | none => none

def entering (id : String) (worn : Option WindowInfo) : List HostOp :=
  (seat? worn).toList.map (.attach id · true)

def leaving (id : String) (worn : Option WindowInfo) : List HostOp :=
  (seat? worn).toList.map (.detach id · true)

def Entry.Wears (headless : Bool) (worn : Option WindowInfo) (x : Entry) : Prop :=
  match worn with
  | some info => x.IsDecoratedFor headless info
  | none => x.attached = none ∧ x.floating = none ∧ x.windowed = none

variable {headless : Bool} {w w' w'' : Option WindowInfo} {x x' x'' : Entry} {a b info : WindowInfo}
  {dirty : Bool} {id : String}

theorem WindowInfo.worn_of_visible (hv : info.visible) : info.worn = some info := if_pos hv

theorem WindowInfo.worn_of_hidden (hv : info.visible = false) : info.worn = none :=
  if_neg (hv ▸ Bool.false_ne_true)

theorem Entry.isDecorated_iff : x.IsDecorated headless ↔ x.Wears headless x.info.worn := by
  unfold IsDecorated WindowInfo.worn
  split <;> rfl

theorem Entry.IsDecoratedFor.congr (h : x.IsDecoratedFor headless a)
    (ht : b.windowType = a.windowType) (hs : a.windowType.isInternal → b.slot = a.slot) :
    x.IsDecoratedFor headless b := by
  unfold IsDecoratedFor at h ⊢
  rw [ht]
  cases hta : a.windowType with
  | docked | sliding =>
    rw [hta] at h hs
    rwa [hs rfl]
  | floating | windowed => rwa [hta] at h

theorem Entry.Wears.seat (h : x.Wears headless w) : x.attached.map WindowInfo.slot = seat? w := by
  cases w with
  | none => rw [h.1, Option.map_none, seat?]
  | some info =>
    simp only [Entry.Wears, IsDecoratedFor] at h
    cases ht : info.windowType with
    | docked | sliding =>
      rw [ht] at h
      obtain ⟨⟨p, hp, hslot⟩, -⟩ := h
      rw [hp, Option.map_some, hslot]
      simp [seat?, ht, WindowType.isInternal]
    | floating | windowed =>
      rw [ht] at h
      rw [h.1]
      simp [seat?, ht, WindowType.isInternal]

theorem Entry.Wears.detaching (h : x.Wears headless w) (hdirty : (seat? w).isSome → dirty = true) :
    x.detaching dirty = leaving x.id w := by
  have hseat := h.seat
  unfold Entry.detaching leaving
  cases ha : x.attached with
  | none =>
    rw [ha] at hseat
    rw [← hseat]
    rfl
  | some p =>
    rw [ha, Option.map_some] at hseat
    rw [← hseat] at hdirty ⊢
    rw [hdirty rfl]
    rfl

theorem seat?_worn : seat? info.worn = if info.occupiesSlot then some info.slot else none := by
  unfold WindowInfo.worn WindowInfo.occupiesSlot
  by_cases hv : info.visible = true <;> simp [hv, seat?]

theorem isInternal_of_seat? (h : (seat? info.worn).isSome) : info.windowType.isInternal := by
  rw [seat?_worn] at h
  split at h
  case isTrue ho => exact (WindowInfo.occupiesSlot_iff.1 ho).2
  case isFalse => cases h

namespace Engine

variable {key : SlotKey} {l : Layout} {e e' e'' : Engine} {c c' : LayoutChange}
  {ops ops' : List HostOp} {b b' : Bool}

def Vacant (e : Engine) (anchor : Anchor) : Prop :=
  e.settings.stackEnabled → e.sideStack.get anchor = []

/-- One window gets another entry and another placement, where a write to the placement would still
have the effect that it had before. If it wore `w`, it wears `w'` now, and `ops` were asked for. -/
structure Dresses (key : SlotKey) (x x' : Entry) (id : String) (w w' : Option WindowInfo)
    (ops : List HostOp) (e e' : Engine) : Prop where
  get? : ∀ k, e'.entries.get? k = if k = key then some x' else e.entries.get? k
  identity : x'.identity = x.identity
  put : ∀ info : WindowInfo, info.id = id → e'.layout.put info = e.layout.put info
  foreign : e.host.KeepsForeign x x' e'.host
  desktop : e'.host.desktop = e.host.desktop
  settings : e'.settings = e.settings
  sideStack : ∀ anchor, e.sideStack.get anchor = [] → e'.sideStack.get anchor = []
  mounted : e.Mounted → e'.Mounted
  wears : x.Wears e.host.desktop.headless w → x'.Wears e.host.desktop.headless w'
  docked : e.Mounted → x.Wears e.host.desktop.headless w →
    e'.host.docked = e.host.docked ++ ops

namespace Dresses

theorem get?_self (h : Dresses key x x' id w w' ops e e') : e'.entries.get? key = some x' := by
  rw [h.get?, if_pos rfl]

theorem id_eq (h : Dresses key x x' id w w' ops e e') : x'.id = x.id :=
  congrArg (·.2.1) h.identity

theorem vacant {anchor : Anchor} (h : Dresses key x x' id w w' ops e e') (hv : e.Vacant anchor) :
    e'.Vacant anchor := fun hs ↦ h.sideStack anchor (hv (h.settings ▸ hs))

theorem trans (h : Dresses key x x' id w w' ops e e')
    (h' : Dresses key x' x'' id w' w'' ops' e' e'') :
    Dresses key x x'' id w w'' (ops ++ ops') e e'' where
  get? k := by
    rw [h'.get?, h.get?]
    split <;> rfl
  identity := h'.identity.trans h.identity
  put info hid := (h'.put info hid).trans (h.put info hid)
  foreign := h.foreign.trans h'.foreign
  desktop := h'.desktop.trans h.desktop
  settings := h'.settings.trans h.settings
  sideStack anchor hs := h'.sideStack anchor (h.sideStack anchor hs)
  mounted hm := h'.mounted (h.mounted hm)
  wears hw := h.desktop ▸ h'.wears (h.desktop ▸ h.wears hw)
  docked hm hw := by
    rw [h'.docked (h.mounted hm) (h.desktop ▸ h.wears hw), h.docked hm hw, List.append_assoc]

theorem andThen (h : Dresses key x x' id w w' ops e e')
    (h' : Dresses key x' x'' id w' w'' [] e' e'') : Dresses key x x'' id w w'' ops e e'' := by
  have := h.trans h'
  rwa [List.append_nil] at this

theorem of_exchanged (hex : Exchanged False key x x' e.layout e e')
    (hid : x'.identity = x.identity) (hm : e.Mounted → e'.Mounted)
    (hw : x.Wears e.host.desktop.headless w → x'.Wears e.host.desktop.headless w')
    (hd : e.Mounted → x.Wears e.host.desktop.headless w →
      e'.host.docked = e.host.docked ++ ops) : Dresses key x x' id w w' ops e e' where
  get? := hex.get?
  identity := hid
  put _ _ := by rw [hex.layout]
  foreign := hex.foreign
  desktop := hex.desktop
  settings := hex.settings
  sideStack anchor hs := by rw [hex.sideStack, hs]
  mounted := hm
  wears := hw
  docked := hd

theorem of_adorned (hx : e.entries.get? key = some x) (hex : Exchanged False key x x' e.layout e e')
    (hst : x'.standing = x.standing) (hr : Records HostOp.adorns e e')
    (hd : x'.decorator = x.decorator) (ha : x'.attached = x.attached)
    (hf : x'.floating = x.floating) (hw : x'.windowed = x.windowed) :
    Dresses key x x' id w w [] e e' := by
  refine of_exchanged hex (Entry.identity_of_standing hst) (fun hm ↦ ?_) (fun hwears ↦ ?_)
    fun _ _ ↦ ?_
  · exact fun k ↦ (hm k).exchangeKept hx hex hr.host hd (congrArg Standing.id hst) fun hs ↦ ha ▸ hs
  · unfold Entry.Wears Entry.IsDecoratedFor at hwears ⊢
    rwa [ha, hf, hw]
  · rw [hr.docked, List.append_nil]

theorem refl (hx : e.entries.get? key = some x) : Dresses key x x id w w [] e e :=
  of_adorned hx (.refl hx (nomatch ·)) rfl .refl rfl rfl rfl rfl

theorem of_eq (hx : e.entries.get? key = some x) (he : e'.entries = e.entries)
    (hl : e'.layout = e.layout) (hh : e'.host = e.host) (hset : e'.settings = e.settings)
    (hside : ∀ anchor, e.sideStack.get anchor = [] → e'.sideStack.get anchor = []) :
    Dresses key x x id w w [] e e' where
  get? k := by rw [he, ← get?_self_of_get? hx]
  identity := rfl
  put _ _ := by rw [hl]
  foreign := hh ▸ .refl
  desktop := by rw [hh]
  settings := hset
  sideStack := hside
  mounted hm k y hy := hh ▸ hm k y (he ▸ hy)
  wears hw := hw
  docked _ _ := by rw [hh, List.append_nil]

end Dresses

theorem dresses_button {button : Option Handle} (id : String) (hx : e.entries.get? key = some x)
    (hex : Exchanged False key x { x with stripeButton := button } e.layout e e')
    (hr : Records HostOp.adorns e e') :
    Dresses key x { x with stripeButton := button } id w w [] e e' :=
  .of_adorned hx hex rfl hr rfl rfl rfl rfl

theorem dresses_commit (info : WindowInfo) (hx : e.entries.get? key = some x) :
    Dresses key x { x with info := info } info.id w w [] e (e.commit key info) where
  get? := (exchanged_commit (D := False) info hx (nomatch ·)).get?
  identity := rfl
  put _ hid := Layout.put_put hid.symm
  foreign := (exchanged_commit (D := False) info hx (nomatch ·)).foreign
  desktop := rfl
  settings := rfl
  sideStack _ hs := hs
  mounted hm k := (hm k).exchangeKept hx (exchanged_commit (D := False) info hx (nomatch ·))
    (records_commit (P := HostOp.adorns)).host rfl rfl fun ha ↦ ha
  wears hw := hw
  docked _ _ := (List.append_nil _).symm

theorem dresses_removeDecorators (hx : e.entries.get? key = some x)
    (hdirty : (seat? w).isSome → dirty = true) :
    Dresses key x x.undecorated id w none (leaving x.id w) e
      (e.removeDecorators key info dirty).2 := by
  refine .of_exchanged (exchanged_removeDecorators info dirty hx (nomatch ·)).2 rfl
    (fun hm k ↦ (hm k).removeDecorators info) (fun _ ↦ ⟨rfl, rfl, rfl⟩) fun hm hw ↦ ?_
  rw [docked_removeDecorators (hm key) hx, hw.detaching hdirty]

theorem dresses_removeInternalDecorator (hx : e.entries.get? key = some x)
    (hi : ∀ info, w = some info → info.windowType.isInternal) :
    Dresses key x { x with attached := none } id w none (leaving x.id w) e
      (e.removeInternalDecorator key true) := by
  refine .of_exchanged (exchanged_removeInternalDecorator true hx (nomatch ·)) rfl
    (fun hm k ↦ (hm k).removeInternalDecorator) (fun hw ↦ ?_) fun hm hw ↦ ?_
  · cases w with
    | none => exact ⟨rfl, hw.2⟩
    | some info =>
      have hinternal := hi info rfl
      simp only [Entry.Wears, Entry.IsDecoratedFor] at hw
      cases ht : info.windowType with
      | docked | sliding =>
        rw [ht] at hw
        exact ⟨rfl, hw.2⟩
      | floating | windowed =>
        rw [ht] at hinternal
        cases hinternal
  · rw [docked_removeInternalDecorator true (hm key) hx, hw.detaching fun _ ↦ rfl]

theorem ensures_addDecorator_dresses (id : String) (hx : e.entries.get? key = some x) :
    Ensures (addDecorator key info true) e fun _ e' ↦ ∃ x',
      Dresses key x x' id none (some info) (entering x.id (some info)) e e' := by
  have hseat : entering x.id (some info) =
      if info.windowType.isInternal then [.attach x.id info.slot true] else [] := by
    by_cases hi : info.windowType.isInternal = true <;> simp [entering, seat?, hi]
  rw [hseat]
  intro a e' hrun
  obtain ⟨x', hex, hst, -, hshape⟩ :=
    ensures_addDecorator (D := False) hx (nomatch ·) (nomatch ·) hrun
  exact ⟨x', .of_exchanged hex (Entry.identity_of_standing hst)
    (fun hm k ↦ maintains_addDecorator (hm k) hrun) (fun hw ↦ hshape ⟨hw.2.1, hw.2.2, Or.inl hw.1⟩)
    fun hm _ ↦ docked_addDecorator (hm key) hx hrun⟩

theorem dresses_forgetEvicted (info : WindowInfo) (id : String)
    (hx : e.entries.get? key = some x) :
    Dresses key x x id w w [] e (e.forgetEvicted info.id) := by
  unfold forgetEvicted
  split
  · refine .of_eq hx rfl rfl rfl rfl fun anchor hs ↦ ?_
    rw [SideStack.get_remove, hs, List.filter_nil]
  · exact .refl hx

theorem dresses_ensureStripeButton (info : WindowInfo) (id : String)
    (hx : e.entries.get? key = some x) :
    ∃ x', Dresses key x x' id w w [] e (e.ensureStripeButton key info) := by
  obtain ⟨b, -, hex⟩ := exchanged_ensureStripeButton (D := False) info hx (nomatch ·)
  exact ⟨_, dresses_button id hx hex records_ensureStripeButton⟩

theorem dresses_resetStripeButton (info : WindowInfo) (id : String)
    (hx : e.entries.get? key = some x) :
    ∃ x', Dresses key x x' id w w [] e (e.resetStripeButton key info) := by
  have hremove := dresses_button id (w := w) hx
    (exchanged_removeStripeButton (D := False) hx (nomatch ·)) records_removeStripeButton
  unfold resetStripeButton
  dsimp only
  split
  · obtain ⟨x', hensure⟩ := dresses_ensureStripeButton info id (w := w) hremove.get?_self
    exact ⟨x', hremove.trans hensure⟩
  · exact ⟨_, hremove⟩

theorem ensures_showWindow_dresses (hx : e.entries.get? key = some x) (ha : x.available)
    (hnone : info.windowType.isInternal → e.occupants key info.slot = []) :
    Ensures (showWindow key info true) e fun _ e' ↦ ∃ x',
      Dresses key x x' info.id none (some info) (entering x.id (some info)) e e' := by
  refine ensures_showWindow hx ha fun order _ ↦ ?_
  have hevict : e.evictFor key (info.shownAt order) true = e := by
    unfold evictFor
    split
    case isTrue hi =>
      have hslot : e.occupants key (info.shownAt order).slot = [] := hnone hi
      rw [evictSlot, hslot, List.foldl_nil]
    case isFalse => rfl
  rw [hevict]
  have hcommit : Dresses key x { x with info := info.shownAt order } info.id none none [] e
      (e.commit key (info.shownAt order)) := dresses_commit _ hx
  refine (ensures_addDecorator_dresses info.id hcommit.get?_self).mono fun _ e₂ hq ↦ ?_
  obtain ⟨x₂, hadd⟩ := hq
  have hforget := dresses_forgetEvicted info info.id (w := some (info.shownAt order))
    hadd.get?_self
  obtain ⟨x₃, hbutton⟩ := dresses_ensureStripeButton (info.shownAt order) info.id
    (w := some (info.shownAt order)) hforget.get?_self
  have hshown := (((hcommit.trans hadd).andThen hforget).andThen hbutton).andThen
    (.of_eq hbutton.get?_self rfl rfl rfl rfl fun _ hs ↦ hs)
  refine ⟨x₃, { hshown with wears := fun hw ↦ ?_, docked := fun hm hw ↦ ?_ }⟩
  · exact (hshown.wears hw).congr rfl fun _ ↦ rfl
  · exact hshown.docked hm hw

theorem ensures_hideWindow_dresses (hx : e.entries.get? key = some x)
    (hvacant : e.Vacant info.anchor) :
    Ensures (hideWindow key info true false .none) e fun _ e' ↦ ∃ x',
      Dresses key x x' info.id w none (leaving x.id w) e e' := by
  obtain ⟨off, saved, hoff, hsaved, -⟩ := exchanged_hidden (D := False) info true .none hx
    (nomatch ·)
  have hid : off.id = info.id := by
    rw [hoff]
    rfl
  have hquiet : Dresses key x x info.id w w [] e
      { e with activeStack := e.activeStack.remove key false } :=
    .of_eq hx rfl rfl rfl rfl fun _ hs ↦ hs
  have hremove : Dresses key x x.undecorated info.id w none (leaving x.id w) e
      (e.deactivateWindow key info true .none).2 :=
    hquiet.trans (dresses_removeDecorators hx fun _ ↦ rfl)
  have hcommit : Dresses key x.undecorated { x.undecorated with info := off } info.id none none []
      (e.deactivateWindow key info true .none).2 (e.hidden key info true .none) := by
    have hcommit := dresses_commit off (w := none) hremove.get?_self
    rw [hid] at hcommit
    rw [hidden, hsaved]
    exact hcommit
  have hhidden := hremove.andThen hcommit
  refine ensures_hideWindow rfl hsaved (fun hback ↦ ?_) fun _ ↦ ⟨_, hhidden⟩
  have hanchor : off.anchor = info.anchor := by
    rw [hoff]
    rfl
  have hstack : (e.hidden key info true .none).settings.stackEnabled := by
    simp only [bringsBack, Bool.and_eq_true] at hback
    exact hback.1.2
  have hnone : (e.hidden key info true .none).sideStack.get off.anchor = [] :=
    hhidden.vacant (hanchor ▸ hvacant) hstack
  simp only [restoreEvicted, ensures_bind, ensures_get]
  change Ensures (restoreFrom _ _ _ ((e.hidden key info true .none).sideStack.get off.anchor)) _ _
  rw [hnone]
  exact ensures_pure.2 ⟨_, hhidden⟩

namespace LayoutChange

def redecorates (c : LayoutChange) : Bool :=
  c.movesSlot || c.changesSplit || c.changesType || c.old.visible != c.new.visible

/-- Whether a window loses the decorator that it just got: it holds a slot at another anchor, and
its type changes as well. -/
def loses (c : LayoutChange) : Bool := c.movesSlot && c.changesType

def worn (c : LayoutChange) : Option WindowInfo := if c.loses then none else c.new.worn

def dockings (c : LayoutChange) : List HostOp :=
  if c.redecorates then
    leaving c.new.id c.old.worn ++ entering c.new.id c.new.worn ++
      if c.loses then leaving c.new.id c.new.worn else []
  else []

end LayoutChange

theorem Captures.redecorates {host : Host} (h : Captures host x c c') :
    c'.redecorates = c.redecorates := by
  rw [LayoutChange.redecorates, LayoutChange.redecorates, h.movesSlot, h.changesSplit,
    h.changesType, h.visible, h.old]

theorem Captures.worn_new {host : Host} (h : Captures host x c c') : c'.new.worn = c.new.worn := by
  by_cases hv : c.new.visible = true
  · rw [h.eq_of_visible hv]
  · have hhid : c.new.visible = false := by simpa using hv
    rw [WindowInfo.worn_of_hidden hhid, WindowInfo.worn_of_hidden (h.visible.trans hhid)]

def Sheds (key : SlotKey) (x : Entry) (id : String) (w : Option WindowInfo) (b : Bool)
    (e e' : Engine) : Prop :=
  ∃ x', Dresses key x x' id w (if b then none else w) (if b then leaving x.id w else []) e e'

namespace Sheds

theorem trans (h : Sheds key x id w b e e')
    (h' : ∀ x', e'.entries.get? key = some x' →
      Sheds key x' id (if b then none else w) b' e' e'') : Sheds key x id w (b || b') e e'' := by
  obtain ⟨x', hx'⟩ := h
  obtain ⟨x'', hx''⟩ := h' x' hx'.get?_self
  have hboth := hx'.trans hx''
  rw [hx'.id_eq] at hboth
  cases b with
  | false => exact ⟨x'', hboth⟩
  | true =>
    refine ⟨x'', ?_⟩
    cases b' with
    | false => simpa using hboth
    | true => simpa [leaving, seat?] using hboth

theorem of_imp (h : Sheds key x id w b e e') (hb : b → b') (hnone : b' → b = false → w = none) :
    Sheds key x id w b' e e' := by
  obtain ⟨x', hx'⟩ := h
  refine ⟨x', ?_⟩
  cases b with
  | true =>
    rw [hb rfl]
    exact hx'
  | false =>
    cases b' with
    | false => exact hx'
    | true =>
      cases hnone rfl rfl
      exact hx'

theorem of_false (hx : e.entries.get? key = some x) : Sheds key x id w false e e := ⟨x, .refl hx⟩

end Sheds

theorem sheds_applyHiding {e₁ : Engine} {i : String} (hx : e.entries.get? c.key = some x)
    (hhiding : applyHiding c e = (c', e₁)) :
    Sheds c.key x i c.old.worn (c.old.visible && !c.new.visible) e e₁ := by
  unfold applyHiding at hhiding
  split at hhiding
  case isTrue hhides =>
    obtain ⟨-, rfl⟩ := Prod.mk.inj hhiding
    rw [hhides]
    exact ⟨_, dresses_removeDecorators hx fun _ ↦ rfl⟩
  case isFalse hshows =>
    obtain ⟨-, rfl⟩ := Prod.mk.inj hhiding
    rw [Bool.eq_false_iff.2 hshows]
    exact .of_false hx

theorem sheds_retyped (id : String) (hx : e.entries.get? c.key = some x)
    (hw : (seat? w).isSome → c.old.windowType.isInternal) :
    Sheds c.key x id w c.changesType e (e.retyped c) := by
  unfold retyped
  split
  case isTrue htype =>
    rw [htype]
    exact ⟨_, dresses_removeDecorators hx hw⟩
  case isFalse hsame =>
    rw [Bool.eq_false_iff.2 hsame]
    exact .of_false hx

theorem ensures_leaveSlot (hx : e.entries.get? c.key = some x)
    (hvacant : c.changesSplit → e.Vacant c.old.anchor) :
    Ensures (leaveSlot c false) e fun _ e' ↦ Sheds c.key x c.old.id w c.changesSplit e e' := by
  simp only [leaveSlot, Bool.not_false, Bool.true_and]
  rw [ensures_ite]
  refine ⟨fun hs ↦ ?_, fun hs ↦ ?_⟩
  · rw [hs]
    exact ensures_hideWindow_dresses hx (hvacant hs)
  · rw [Bool.eq_false_iff.2 hs]
    exact ensures_pure.2 (.of_false hx)

theorem dresses_relabelled (id : String) (hx : e.entries.get? c.key = some x) :
    ∃ x', Dresses c.key x x' id w w [] e (e.relabelled c) := by
  unfold relabelled
  split
  · exact dresses_resetStripeButton _ id hx
  · exact ⟨x, .refl hx⟩

theorem ensures_applyPlace_sheds (hx : e.entries.get? c.key = some x) (hm : ¬ c.movesSlot)
    (hid : c.old.id = id) (hw : (seat? w).isSome → c.old.windowType.isInternal)
    (hvacant : c.changesSplit → e.Vacant c.old.anchor) :
    Ensures (applyPlace c) e fun shown e₁ ↦ shown = false ∧
      Ensures (leaveSlot c shown) e₁ fun _ e₂ ↦
        Sheds c.key x id w (c.changesSplit || c.changesType) e (e₂.retyped c) := by
  subst hid
  obtain ⟨x₁, hlabel⟩ := dresses_relabelled c.old.id (w := w) hx
  refine ensures_applyPlace_stages (fun h ↦ absurd h hm) fun _ ↦ ⟨rfl, ?_⟩
  refine (ensures_leaveSlot (w := w) hlabel.get?_self fun hs ↦ hlabel.vacant (hvacant hs)).mono ?_
  intro _ e₂ hleft
  have hsheds : Sheds c.key x₁ c.old.id w (c.changesSplit || c.changesType) (e.relabelled c)
      (e₂.retyped c) := by
    refine hleft.trans fun x' hx' ↦ sheds_retyped _ hx' fun hseat ↦ hw ?_
    split at hseat
    · cases hseat
    · exact hseat
  obtain ⟨x', hx'⟩ := hsheds
  have hboth := hlabel.trans hx'
  rw [hlabel.id_eq] at hboth
  exact ⟨x', hboth⟩

theorem LayoutChange.slot_eq (h : c.redecorates = false) : c.new.visible = c.old.visible ∧
    c.new.windowType = c.old.windowType ∧ (c.new.occupiesSlot → c.new.slot = c.old.slot) := by
  simp only [redecorates, Bool.or_eq_false_iff, bne_eq_false_iff_eq] at h
  obtain ⟨⟨⟨hm, hs⟩, ht⟩, hv⟩ := h
  have htype : c.old.windowType = c.new.windowType := by simpa [changesType] using ht
  refine ⟨hv.symm, htype.symm, fun ho ↦ ?_⟩
  have ho' : c.old.occupiesSlot := by rwa [WindowInfo.occupiesSlot, hv, htype]
  simp only [movesSlot, ho, ho', WindowInfo.isAt, Bool.and_true, Bool.not_eq_false',
    Bool.and_eq_true, beq_iff_eq] at hm
  rw [WindowInfo.occupiesSlot_iff] at ho ho'
  simp only [changesSplit, ho, ho', Bool.and_true, bne_eq_false_iff_eq] at hs
  simp only [WindowInfo.slot, hm.1, hm.2, hs]

theorem wears_new (h : c.redecorates = false) (hw : x.Wears headless c.old.worn) :
    x.Wears headless c.new.worn := by
  obtain ⟨hv, ht, hs⟩ := LayoutChange.slot_eq h
  by_cases hvis : c.new.visible = true
  · rw [WindowInfo.worn_of_visible (hv.symm.trans hvis)] at hw
    rw [WindowInfo.worn_of_visible hvis]
    refine Entry.IsDecoratedFor.congr hw ht fun hi ↦ hs ?_
    rw [WindowInfo.occupiesSlot, hvis, ht, hi]
    rfl
  · have hhid : c.new.visible = false := by simpa using hvis
    rw [WindowInfo.worn_of_hidden hhid]
    rwa [WindowInfo.worn_of_hidden (hv.symm.trans hhid)] at hw

theorem ensures_decorate_dresses (id : String) (hx : e.entries.get? c.key = some x)
    (hm : c.movesSlot = false) :
    Ensures (decorate c false) e fun _ e' ↦ ∃ x', Dresses c.key x x' id
      (if c.redecorates then none else w) (if c.redecorates then c.new.worn else w)
      (if c.redecorates then entering x.id c.new.worn else []) e e' := by
  have hshows : (c.new.visible && (c.changesSplit || c.changesType || !c.old.visible)) =
      (c.redecorates && c.new.visible) := by
    rw [LayoutChange.redecorates, hm]
    grind
  simp only [decorate, hshows, Bool.not_false, Bool.and_true]
  rw [ensures_ite]
  refine ⟨fun ht ↦ ?_, fun ht ↦ ensures_pure.2 ⟨x, ?_⟩⟩
  · rw [Bool.and_eq_true] at ht
    rw [if_pos ht.1, if_pos ht.1, if_pos ht.1, WindowInfo.worn_of_visible ht.2]
    exact ensures_addDecorator_dresses _ hx
  · by_cases hr : c.redecorates = true
    · have hhid : c.new.visible = false := by simpa [hr] using ht
      rw [if_pos hr, if_pos hr, if_pos hr, WindowInfo.worn_of_hidden hhid]
      exact .refl hx
    · rw [if_neg hr, if_neg hr, if_neg hr]
      exact .refl hx

def Redressed (c : LayoutChange) (x : Entry) (e e' : Engine) : Prop :=
  ∃ x' saved, Dresses c.key x x' c.new.id c.old.worn c.worn c.dockings e e' ∧
    x'.info = c.new.withState saved ∧ e'.layout = e.layout.put (c.new.withState saved)

theorem Dresses.commit {e₁ : Engine} (saved : WindowInfo)
    (h : Dresses c.key x x' c.new.id c.old.worn w' ops e e₁)
    (hw : ∀ headless, x'.Wears headless w' → x'.Wears headless c.worn) (hops : ops = c.dockings) :
    Redressed c x e (e₁.commit c.key (c.new.withState saved)) := by
  have hcommit := dresses_commit (c.new.withState saved) (w := c.worn) h.get?_self
  refine ⟨_, saved, ({ h with wears := fun hold ↦ hw _ (h.wears hold), docked := ?_ } :
    Dresses c.key x x' c.new.id c.old.worn c.worn c.dockings e e₁).andThen hcommit, rfl,
      h.put _ rfl⟩
  rw [← hops]
  exact h.docked

theorem ensures_applyChange_moving (hx : e.entries.get? c.key = some x) (ha : x.available)
    (hid : x.id = c.new.id) (hm : c.movesSlot)
    (hfree : ∀ k y, k ≠ c.key → e.entries.get? k = some y → y.info.occupiesSlot →
      y.info.slot ≠ c.new.slot) :
    Ensures (applyChange c) e fun _ e' ↦ Redressed c x e e' := by
  have hv := LayoutChange.visible_of_movesSlot hm
  have hi : c.old.windowType.isInternal := by
    simp only [LayoutChange.movesSlot, WindowInfo.occupiesSlot, Bool.and_eq_true] at hm
    exact hm.1.2.2
  have hhiding : applyHiding c e = (c, e) := by
    unfold applyHiding
    rw [if_neg (by simp [hv.2])]
  refine ensures_applyChange_stages hhiding (ensures_applyPlace_stages (fun _ ↦ ?_)
    fun h ↦ absurd hm h)
  obtain ⟨x₁, hlabel⟩ := dresses_relabelled c.new.id (w := c.old.worn) hx
  have hbare := hlabel.trans (dresses_removeInternalDecorator hlabel.get?_self fun info hworn ↦ by
    rw [WindowInfo.worn_of_visible hv.1] at hworn
    cases hworn
    exact hi)
  generalize (e.relabelled c).removeInternalDecorator c.key true = e₂ at hbare ⊢
  have hnone : e₂.occupants c.key c.new.slot = [] := by
    refine occupants_eq_nil_iff.2 fun k y hk hy ↦ ?_
    rw [hbare.get?, if_neg hk] at hy
    exact hfree k y hk hy
  have ha₂ : Entry.available { x₁ with attached := none } :=
    (congrArg (·.2.2) hbare.identity).trans ha
  refine (ensures_showWindow_dresses hbare.get?_self ha₂ fun _ ↦ hnone).mono fun _ e₃ hshow ↦ ?_
  obtain ⟨x₃, hshow⟩ := hshow
  have hshown := hbare.trans hshow
  obtain ⟨x₄, hretype⟩ := sheds_retyped c.new.id hshow.get?_self (fun _ ↦ hi)
  have hlast := hshown.trans hretype
  have hleave : leaveSlot c true = pure () := if_neg (by simp)
  have hdecorate : decorate c true = pure () := if_neg (by simp)
  rw [hleave, hdecorate, ensures_pure, ensures_pure]
  refine Dresses.commit c.new hlast (fun _ hw ↦ ?_) ?_
  · rwa [LayoutChange.worn, LayoutChange.loses, hm, Bool.true_and,
      WindowInfo.worn_of_visible hv.2]
  · have hredecorates : c.redecorates := by simp [LayoutChange.redecorates, hm]
    rw [LayoutChange.dockings, if_pos hredecorates, LayoutChange.loses, hm, Bool.true_and,
      WindowInfo.worn_of_visible hv.2, hlabel.id_eq, hshown.id_eq, hid]
    rfl

theorem ensures_bare (hx : e.entries.get? c.key = some x) (hold : c.old.id = c.new.id)
    (hm : c.movesSlot = false) (hvacant : c.changesSplit → e.Vacant c.old.anchor) {e₁ : Engine}
    (hhiding : applyHiding c e = (c', e₁)) (hcap : Captures e.host x c c') :
    Ensures (applyPlace c') e₁ fun shown e₂ ↦ shown = false ∧
      Ensures (leaveSlot c' shown) e₂ fun _ e₃ ↦
        Sheds c.key x c.new.id c.old.worn c.redecorates e (e₃.retyped c') := by
  have hhide := sheds_applyHiding (i := c.new.id) hx hhiding
  obtain ⟨x₁, hdress⟩ := id hhide
  have hm' : ¬ c'.movesSlot := by
    rw [hcap.movesSlot, hm]
    exact Bool.false_ne_true
  have hseat : (seat? (if c.old.visible && !c.new.visible then none else c.old.worn)).isSome →
      c'.old.windowType.isInternal := by
    intro hsome
    rw [hcap.old]
    split at hsome
    · cases hsome
    · exact isInternal_of_seat? hsome
  refine (ensures_applyPlace_sheds (hcap.key ▸ hdress.get?_self) hm'
    ((congrArg WindowInfo.id hcap.old).trans hold) hseat fun hs ↦ ?_).mono ?_
  · rw [hcap.old]
    exact hdress.vacant (hvacant (hcap.changesSplit ▸ hs))
  intro shown e₂ hq
  rcases hq with ⟨hshown, hleave⟩
  refine ⟨hshown, hleave.mono fun _ e₃ hleft ↦ ?_⟩
  rw [hcap.changesSplit, hcap.changesType, hcap.key] at hleft
  have hboth : Sheds c.key x c.new.id c.old.worn
      (c.old.visible && !c.new.visible || (c.changesSplit || c.changesType)) e
      (e₃.retyped c') := by
    refine hhide.trans fun x' hx' ↦ ?_
    cases hx'.symm.trans hdress.get?_self
    exact hleft
  refine hboth.of_imp ?_ ?_
  · rw [LayoutChange.redecorates]
    grind
  · rw [LayoutChange.redecorates, hm]
    exact fun hr hb ↦ WindowInfo.worn_of_hidden (by grind)

theorem ensures_applyChange_staying (hx : e.entries.get? c.key = some x) (hid : x.id = c.new.id)
    (hold : c.old.id = c.new.id) (hm : c.movesSlot = false)
    (hvacant : c.changesSplit → e.Vacant c.old.anchor) :
    Ensures (applyChange c) e fun _ e' ↦ Redressed c x e e' := by
  obtain ⟨hcap, -⟩ := applyHiding_redecorates hx
  obtain ⟨c', e₁, hhiding⟩ : ∃ c' e₁, applyHiding c e = (c', e₁) := ⟨_, _, rfl⟩
  rw [hhiding] at hcap
  dsimp only at hcap
  refine ensures_applyChange_stages hhiding
    ((ensures_bare hx hold hm hvacant hhiding hcap).mono fun shown e₂ hq ↦ ?_)
  rcases hq with ⟨rfl, hleave⟩
  refine hleave.mono fun _ e₃ hleft ↦ ?_
  obtain ⟨x₂, hbare⟩ := hleft
  have hx₂ : (e₃.retyped c').entries.get? c'.key = some x₂ := hcap.key ▸ hbare.get?_self
  refine (ensures_decorate_dresses (w := c.old.worn) c.new.id hx₂
    (hcap.movesSlot.trans hm)).mono fun _ e₄ hq ↦ ?_
  obtain ⟨x₃, hdecorate⟩ := hq
  rw [hcap.redecorates, hcap.key, hbare.id_eq, hcap.worn_new, hid] at hdecorate
  have hlast := hbare.trans hdecorate
  obtain ⟨saved, hsaved⟩ := hcap.new
  have hloses : c.loses = false := by rw [LayoutChange.loses, hm, Bool.false_and]
  rw [hcap.key, hsaved]
  refine hlast.commit saved (fun headless hw ↦ ?_) ?_
  · rw [LayoutChange.worn, hloses]
    by_cases hr : c.redecorates = true
    · rwa [if_pos hr] at hw
    · rw [if_neg hr] at hw
      exact wears_new (by simpa using hr) hw
  · rw [LayoutChange.dockings, hloses, hid]
    by_cases hr : c.redecorates = true <;> simp [hr]

/-- A window is redressed for its new placement, where its slot is free and nothing comes back to
the one that it leaves. -/
theorem ensures_applyChange_dresses (hx : e.entries.get? c.key = some x) (ha : x.available)
    (hid : x.id = c.new.id) (hold : c.old.id = c.new.id)
    (hfree : c.movesSlot → ∀ k y, k ≠ c.key → e.entries.get? k = some y → y.info.occupiesSlot →
      y.info.slot ≠ c.new.slot)
    (hvacant : c.changesSplit → e.Vacant c.old.anchor) :
    Ensures (applyChange c) e fun _ e' ↦ Redressed c x e e' := by
  by_cases hm : c.movesSlot = true
  · exact ensures_applyChange_moving hx ha hid hm (hfree hm)
  · exact ensures_applyChange_staying hx hid hold (by simpa using hm) hvacant

end Engine

end ToolDock

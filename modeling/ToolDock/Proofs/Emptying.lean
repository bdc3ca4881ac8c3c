import ToolDock.Proofs.Disturbing
import ToolDock.Proofs.Touching

/-!
Removing a pane. Its windows are taken off their stripes one after another, and whenever one of them
leaves the screen, somebody may come back on the default pane. Main statement:
`emptiesPane_removePane_iff`. It says that the pane is emptied unless one of its windows was hidden
without a stripe button, which stays there, or comes back once it was moved.
-/

namespace ToolDock

namespace WindowInfo

/-- Whether a window is on the screen or has a stripe button. -/
def isListed (info : WindowInfo) : Bool := info.visible || info.showStripeButton

/-- The slot of a window that was taken off its stripe. -/
def home (info : WindowInfo) : Slot := ⟨defaultPane, info.anchor, info.split⟩

theorem isListed_eq_false_iff {info : WindowInfo} :
    info.isListed = false ↔ info.visible = false ∧ info.showStripeButton = false :=
  Bool.or_eq_false_iff

end WindowInfo

/-- What becomes of the entry of a window that is taken off its stripe. One that is hidden and has
no stripe button is left alone. -/
def Entry.TakenOff (x x' : Entry) : Prop :=
  x'.name = x.name ∧ if x.info.isListed then
    x'.info.slot = x.info.home ∧ x'.info.isListed = false ∧ x'.stripeButton = none
  else x' = x

namespace Engine

variable {e e' e'' e₁ : Engine} {key k : SlotKey} {x x' y y' : Entry} {info stored : WindowInfo}
  {dirty : Bool} {slot : Slot} {id pane : String} {a : Anchor} {pending : List String}
  {result : Except EngineError Unit}

/-- A window is remembered as evicted from a slot. -/
def RemembersAt (e : Engine) (id : String) (slot : Slot) : Prop :=
  ∃ a, ∃ w ∈ e.sideStack.get a, w.id = id ∧ w.slot = slot

/-- An entry is untouched, or its window is on a pane and stays there, where it was shown again or
was evicted. -/
inductive TurnsOn (pane : String) (e : Engine) (y y' : Entry) : Prop
  | rests (heq : y' = y)
  | comes (hpane : y.info.pane = pane) (hslot : y'.info.slot = y.info.slot)
      (hbutton : y'.info.showStripeButton) (hremembers : e.RemembersAt y.name y.info.slot)
  | goes (hpane : y.info.pane = pane) (hslot : y'.info.slot = y.info.slot)
      (hbutton : y'.info.showStripeButton = y.info.showStripeButton) (hv : y.info.visible)

/-- Windows of a pane are shown and evicted in turn. Nobody is remembered anew but a window that was
on the screen there. -/
structure TakesTurns (pane : String) (e e' : Engine) : Prop where
  coherent : Coherent e'
  entries : ∀ k, Option.Rel (fun y y' ↦ y'.name = y.name ∧ TurnsOn pane e y y')
    (e.entries.get? k) (e'.entries.get? k)
  remembers : ∀ {id slot}, e'.RemembersAt id slot → e.RemembersAt id slot ∨ ∃ k y,
    e.entries.get? k = some y ∧ y.name = id ∧ y.info.slot = slot ∧ y.info.pane = pane ∧
      y.info.visible

namespace TakesTurns

theorem of_same (hc : Coherent e') (he : e'.entries = e.entries)
    (hremembers : ∀ id slot, e'.RemembersAt id slot → e.RemembersAt id slot) :
    TakesTurns pane e e' where
  coherent := hc
  entries k := by
    rw [he]
    cases e.entries.get? k with
    | none => exact .none
    | some y => exact .some ⟨rfl, .rests rfl⟩
  remembers h := Or.inl (hremembers _ _ h)

theorem refl (hc : Coherent e) : TakesTurns pane e e := of_same hc rfl fun _ _ h ↦ h

theorem congr (h : TakesTurns pane e e') (he : e''.entries = e'.entries)
    (hl : e''.layout = e'.layout) (hside : e''.sideStack = e'.sideStack) :
    TakesTurns pane e e'' where
  coherent := h.coherent.congr (funext fun k ↦ by rw [standing?, standing?, he])
    (congrArg Layout.windows hl)
  entries k := by
    rw [he]
    exact h.entries k
  remembers hr := by
    rw [RemembersAt, hside] at hr
    exact h.remembers hr

theorem presents (h : TakesTurns pane e e₁) (hc : Coherent e') (hx : e.entries.get? key = some x)
    (hpane : x.info.pane = pane) (hremembers : e.RemembersAt x.name x.info.slot)
    (hp : Presents key x e₁ e')
    (hbutton : ∀ x', e'.entries.get? key = some x' → x'.info.showStripeButton) :
    TakesTurns pane e e' := by
  obtain ⟨x', hstays, -, hget⟩ := hp.entries
  refine ⟨hc, fun k ↦ ?_, fun hr ↦ h.remembers ?_⟩
  · rw [hget]
    split
    case isTrue hk =>
      subst hk
      rw [hx]
      have hx' := hbutton x' ((hget k).trans (if_pos rfl))
      exact .some ⟨congrArg (·.1) hstays.identity,
        .comes hpane (congrArg (·.1) hstays.berth) hx' hremembers⟩
    case isFalse => exact h.entries k
  · obtain ⟨b, w, hw, hwhere⟩ := hr
    refine ⟨b, w, ?_, hwhere⟩
    rw [hp.sideStack, forgetting] at hw
    split at hw
    · rw [SideStack.get_remove] at hw
      exact List.mem_of_mem_filter hw
    · exact hw

end TakesTurns

theorem Coherent.button_eq (h : Coherent e) (hl : Located e key x info) :
    info.showStripeButton = x.info.showStripeButton := by
  have hmarks : x.info.marks = info.marks := h.sound.detail_eq hl (Set.notMem_empty key)
  exact (congrArg (·.2.2) hmarks).symm

theorem Coherent.button_evict (h : Coherent e) (hy : e.entries.get? k = some y)
    (hv : y.info.visible) (hy' : (e.evict dirty k).entries.get? k = some y') :
    y'.info.showStripeButton = y.info.showStripeButton := by
  obtain ⟨-, hcontains⟩ := h.ready (Set.notMem_empty k) (standing?_of_get? hy) hv
  obtain ⟨placed, hplaced⟩ := Layout.contains_iff.1 hcontains
  have hl : Located e k y placed := ⟨hy, hplaced⟩
  obtain ⟨off, saved, hoff, -, hex⟩ := exchanged_hidden (D := False) placed dirty .none
    (get?_remembering placed hy) False.elim
  obtain ⟨id, heq⟩ := evict_eq dirty (e := e) (k := k)
  rw [heq, hl.registeredInfo_eq] at hy'
  cases hex.get?_self.symm.trans hy'
  have hsame : placed.showStripeButton = y.info.showStripeButton := h.button_eq hl
  rw [hoff]
  exact hsame

theorem ensures_button_showWindow (hl : Located e key x info) (ha : x.available) :
    Ensures (showWindow key info dirty) e fun _ e' ↦
      ∀ x', e'.entries.get? key = some x' → x'.info.showStripeButton := by
  have hx₁ : (e.evictFor key info dirty).entries.get? key = some x :=
    (get?_evictFor key info dirty).trans hl.entry
  refine (ensures_showWindow_emptied hl.entry ha rfl hx₁).mono ?_
  intro _ e' hq x' hx'
  rcases hq with ⟨-, order, shown, -, hstanding, hex, -⟩
  have hshown : shown = x' := Option.some.inj (hex.get?_self.symm.trans hx')
  have hinfo : x'.info = info.shownAt order := hshown ▸ congrArg Standing.info hstanding
  rw [hinfo]
  rfl

namespace Searches

variable (hs : Searches a e e₁) (hrest : ∀ w ∈ e₁.sideStack.get a, w ∈ e.sideStack.get a)
include hs hrest

theorem remembersAt (h : e₁.RemembersAt id slot) : e.RemembersAt id slot := by
  obtain ⟨b, w, hw, hwhere⟩ := h
  refine ⟨b, w, ?_, hwhere⟩
  by_cases hb : b = a
  · subst hb
    exact hrest w hw
  · have hsame := congrArg (PerAnchor.get · b) (hs.sideStack [])
    simp only [PerAnchor.get_set, if_neg hb] at hsame
    exact hsame ▸ hw

theorem takesTurns : TakesTurns pane e e₁ :=
  .of_same hs.coherent hs.entries fun _ _ ↦ hs.remembersAt hrest

theorem takesTurns_evict (dirty : Bool) (hy : e₁.entries.get? k = some y) (hv : y.info.visible)
    (hpane : y.info.pane = pane) : TakesTurns pane e (e₁.evict dirty k) := by
  have hout := hs.coherent.ousts dirty hy hv
  obtain ⟨y', hstays, -, hget⟩ := hout.entries
  obtain ⟨placed, hid, hberth, hside⟩ := hout.sideStack
  have hc : Coherent (e₁.evict dirty k) :=
    (hs.coherent.sound.evict (Set.notMem_empty k) hy).1.coherent
  have hslot : y'.info.slot = y.info.slot := congrArg (·.1) hstays.berth
  have hbutton : y'.info.showStripeButton = y.info.showStripeButton :=
    hs.coherent.button_evict hy hv ((hget k).trans (if_pos rfl))
  refine ⟨hc, fun k' ↦ ?_, fun hr ↦ ?_⟩
  · rw [hget]
    split
    case isTrue hk =>
      rw [hk, ← hs.entries, hy]
      exact .some ⟨congrArg (·.1) hstays.identity, .goes hpane hslot hbutton hv⟩
    case isFalse => exact (hs.takesTurns hrest).entries k'
  · -- the window that went is remembered where it was
    obtain ⟨b, w, hw, rfl, rfl⟩ := hr
    have hw : w = placed ∨ w ∈ e₁.sideStack.get b := by
      rw [hside, remembering] at hw
      split at hw
      · rw [SideStack.get_push] at hw
        split at hw
        · exact List.mem_cons.1 hw
        · exact Or.inr hw
      · exact Or.inr hw
    rcases hw with rfl | hw
    · have hname : y.name = w.id :=
        (hid.trans (hs.coherent.id_eq (standing?_of_get? hy))).symm
      exact Or.inr ⟨k, y, hs.entries ▸ hy, hname, (congrArg (·.1) hberth).symm, hpane, hv⟩
    · exact Or.inl (hs.remembersAt hrest ⟨b, w, hw, rfl, rfl⟩)

theorem takesTurns_showWindow (hl : Located e₁ key x info) (hv : x.info.visible = false)
    (ha : x.available) (hpane : x.info.pane = pane)
    (hremembers : e.RemembersAt x.name x.info.slot) :
    Ensures (showWindow key info dirty) e₁ fun res e' ↦ res = true ∧ TakesTurns pane e e' := by
  have hemptied : TakesTurns pane e (e₁.evictFor key info dirty) := by
    rcases hs.coherent.evictFor_cases key info dirty with heq | ⟨k, y, -, hy, ho, hslot, heq⟩
    · rw [heq]
      exact hs.takesTurns hrest
    · have hsame : info.slot = x.info.slot := congrArg (·.1) (hs.coherent.berth_eq hl).1
      rw [heq]
      exact hs.takesTurns_evict hrest dirty hy (WindowInfo.occupiesSlot_iff.1 ho).1
        ((congrArg Slot.pane (hslot.trans hsame)).trans hpane)
  refine (ensures_and (hs.coherent.ensures_presents hl hv ha)
    (ensures_button_showWindow hl ha)).mono ?_
  intro res e' hq
  rcases hq with ⟨⟨hres, hc, hp⟩, hbutton⟩
  exact ⟨hres, hemptied.presents hc (hs.entries ▸ hl.entry) hpane hremembers hp hbutton⟩

end Searches

theorem Coherent.takesTurns_restoreFrom (h : Coherent e) :
    Ensures (restoreFrom a slot dirty (e.sideStack.get a)) e fun _ e' ↦
      TakesTurns slot.pane e e' := by
  have hloop : ∀ ws e₁, Searches a e e₁ → e₁.sideStack.get a = ws →
      (∀ w ∈ ws, w ∈ e.sideStack.get a) →
      Ensures (restoreFrom a slot dirty ws) e₁ fun _ e' ↦ TakesTurns slot.pane e e' := by
    -- by induction on what is left of the stack
    intro ws
    induction ws with
    | nil =>
      intro e₁ hs hgot hsub
      exact ensures_pure.2 (hs.takesTurns (hgot ▸ hsub))
    | cons stored rest ih =>
      intro e₁ hs _ hsub
      have hrest : ∀ w ∈ rest, w ∈ e.sideStack.get a := fun w hw ↦
        hsub w (List.mem_cons_of_mem _ hw)
      refine hs.ensures_restoreFrom_cons h (fun _ e₂ hs₂ hgot ↦ ih e₂ hs₂ hgot hrest)
        fun hyes key y info e₂ hs₂ hl hname ha hwhere hgot ↦ ?_
      obtain ⟨hv, hberth⟩ := isWhereEvicted_iff.1 hwhere
      have hslot : y.info.slot = stored.slot :=
        congrArg (·.1) ((hs₂.coherent.berth_eq hl).1.symm.trans hberth)
      have hpane : stored.pane = slot.pane := by
        simp only [restores, Bool.and_eq_true, beq_iff_eq] at hyes
        exact hyes.1.2
      refine hs₂.takesTurns_showWindow (hgot ▸ hrest) hl
        ((hs₂.coherent.sound.visible_of_located hl).symm.trans hv) ha
        ((congrArg Slot.pane hslot).trans hpane)
        ⟨a, stored, hsub stored (List.mem_cons_self ..), hname.symm, hslot.symm⟩
  exact hloop _ e ⟨h, rfl, rfl, rfl, fun _ ↦ rfl⟩ rfl fun _ hw ↦ hw

theorem slot_offStripe (info : WindowInfo) : (offStripe info).slot = info.home := by
  rw [offStripe]
  split
  case isTrue hpane => rw [WindowInfo.home, ← hpane]; rfl
  case isFalse => rfl

theorem showStripeButton_offStripe (info : WindowInfo) :
    (offStripe info).showStripeButton = false := by
  rw [offStripe]
  split <;> rfl

theorem visible_offStripe (info : WindowInfo) : (offStripe info).visible = info.visible :=
  visible_mutated .removeFromStripe

theorem Coherent.isListed_eq (h : Coherent e) (hl : Located e key x info) :
    x.info.isListed = info.isListed ∧ x.info.home = info.home := by
  have hslot : info.slot = x.info.slot := congrArg (·.1) (h.berth_eq hl).1
  rw [WindowInfo.isListed, ← h.button_eq hl, ← h.sound.visible_of_located hl]
  exact ⟨rfl, (congrArg (fun s : Slot ↦ (⟨defaultPane, s.anchor, s.split⟩ : Slot)) hslot).symm⟩

def LeavesStripe (key : SlotKey) (x : Entry) (e e' : Engine) : Prop :=
  ∃ e₁ x₁, Coherent e₁ ∧ x.TakenOff x₁ ∧
    (∀ k, e₁.entries.get? k = if k = key then some x₁ else e.entries.get? k) ∧
    e₁.sideStack = e.sideStack ∧ TakesTurns defaultPane e₁ e'

theorem LeavesStripe.congr (h : LeavesStripe key x e e') (he : e''.entries = e'.entries)
    (hl : e''.layout = e'.layout) (hside : e''.sideStack = e'.sideStack) :
    LeavesStripe key x e e'' := by
  obtain ⟨e₁, x₁, hc, hoff, hget, hstacks, hturns⟩ := h
  exact ⟨e₁, x₁, hc, hoff, hget, hstacks, hturns.congr he hl hside⟩

theorem LeavesStripe.of_same (h : LeavesStripe key x e₁ e') (he : e₁.entries = e.entries)
    (hside : e₁.sideStack = e.sideStack) : LeavesStripe key x e e' := by
  obtain ⟨e₂, x₂, hc, hoff, hget, hstacks, hturns⟩ := h
  exact ⟨e₂, x₂, hc, hoff, fun k ↦ he ▸ hget k, hstacks.trans hside, hturns⟩

theorem Exchanged.leavesStripe {D : Prop} {l : Layout} (hex : Exchanged D key x x' l e e₁)
    (hc : Coherent e₁) (hoff : x.TakenOff x') (h : TakesTurns defaultPane e₁ e') :
    LeavesStripe key x e e' :=
  ⟨e₁, x', hc, hoff, hex.get?, hex.sideStack, h⟩

theorem Coherent.ensures_removeHiddenFromStripe (h : Coherent e) (hl : Located e key x info)
    (hv : info.visible = false) (hbutton : info.showStripeButton) :
    Ensures (removeHiddenFromStripe key id info) e fun _ e' ↦ LeavesStripe key x e e' := by
  obtain ⟨hlisted, hhome⟩ := h.isListed_eq hl
  have hremove := exchanged_removeStripeButton (D := False) hl.entry False.elim
  have hex := hremove.trans
    (exchanged_commit (D := False) (offStripe info) hremove.get?_self False.elim)
  have hc : Coherent (((e.removeStripeButton key).commit key (offStripe info)).fire
      .hideToolWindow id) :=
    ((rule_sound.unlisted h.sound hl hv).idle .fire).coherent
  refine ensures_modify.2 (hex.fire.leavesStripe hc ⟨rfl, ?_⟩ (.refl hc))
  rw [hlisted, WindowInfo.isListed, hbutton, Bool.or_true, if_pos rfl, hhome]
  exact ⟨slot_offStripe info, WindowInfo.isListed_eq_false_iff.2
    ⟨(visible_offStripe info).trans hv, showStripeButton_offStripe info⟩, rfl⟩

theorem Coherent.ensures_hideWindow_offStripe (h : Coherent e) (hl : Located e key x info)
    (hv : info.visible) :
    Ensures (hideWindow key info dirty false .removeFromStripe) e fun _ e' ↦
      LeavesStripe key x e e' := by
  obtain ⟨hlisted, hhome⟩ := h.isListed_eq hl
  obtain ⟨off, saved, hoff, hsaved, hex⟩ :=
    exchanged_hidden (D := False) info dirty .removeFromStripe hl.entry False.elim
  have hc := h.coherent_hidden dirty .removeFromStripe hl.entry (h.sound.placement_id hl)
  let gone : WindowInfo := { info with visible := false, activeOnStart := false }
  have hoff : off = (offStripe gone).withState saved := hoff
  have hslot : off.slot = x.info.home := by
    rw [hhome, hoff]
    exact slot_offStripe gone
  have hunlisted : off.isListed = false := by
    rw [hoff]
    exact WindowInfo.isListed_eq_false_iff.2
      ⟨visible_offStripe gone, showStripeButton_offStripe gone⟩
  have htaken : x.TakenOff
      { (afterMutation .removeFromStripe x).undecorated with info := off } := by
    refine ⟨rfl, ?_⟩
    rw [hlisted, WindowInfo.isListed, hv, Bool.true_or, if_pos rfl]
    exact ⟨hslot, hunlisted, rfl⟩
  have hclear : e.clearFor key info dirty false = e := rfl
  refine Engine.ensures_hideWindow hclear hsaved (fun _ ↦ ?_) fun _ ↦
    hex.leavesStripe hc htaken (.refl hc)
  simp only [restoreEvicted, ensures_bind, ensures_get]
  refine hc.takesTurns_restoreFrom.mono fun _ e' hturns ↦ hex.leavesStripe hc htaken ?_
  rwa [hslot] at hturns

theorem Coherent.ensures_hideWith_offStripe (h : Coherent e) (hx : e.entries.get? key = some x) :
    Ensures (hideWith x.name offStripeOptions).run e fun _ e' ↦ LeavesStripe key x e e' := by
  obtain ⟨hsound, hl⟩ := h.sound.registeredInfo hx
  have h₁ : Coherent (e.registeredInfo key).2 := hsound.coherent
  have hsame : ∀ {e'}, LeavesStripe key x (e.registeredInfo key).2 e' → LeavesStripe key x e e' :=
    fun hleaves ↦ hleaves.of_same entries_registeredInfo sideStack_registeredInfo
  refine ensures_hideWith_cases (h.keyOf?_eq hx) (fun hv hno ↦ hsame ?_)
    (fun hv _ hbutton ↦ ?_) fun hv ↦ ?_
  · have hbutton : (e.registeredInfo key).1.showStripeButton = false := by
      simpa [offStripeOptions] using hno
    have hunlisted : x.info.isListed = false :=
      (h₁.isListed_eq hl).1.trans (WindowInfo.isListed_eq_false_iff.2 ⟨hv, hbutton⟩)
    exact (Exchanged.refl (D := False) hl.entry False.elim).leavesStripe h₁
      ⟨rfl, by rw [hunlisted]; rfl⟩ (.refl h₁)
  · exact (h₁.ensures_removeHiddenFromStripe hl hv hbutton).mono fun _ _ hleaves ↦ hsame hleaves
  · exact (h₁.ensures_hideWindow_offStripe hl hv).mono fun _ _ hleaves _ he hlayout hside _ ↦
      hsame (hleaves.congr he hlayout hside)

/-- What has become of a window since the removal of a pane began. A window of the pane stays on it
if it was not listed. Otherwise it goes to the default pane, and may have come back there. -/
inductive Fate (pane : String) (e : Engine) (x x' : Entry) : Prop
  | spared (hpane : x.info.pane ≠ pane) (hpane' : x'.info.pane ≠ pane)
  | stuck (hpane : x.info.pane = pane) (hlisted : x.info.isListed = false) (heq : x' = x)
  | gone (hpane : x.info.pane = pane) (hlisted : x.info.isListed)
      (hhome : x'.info.slot = x.info.home) (hoff : x'.info.isListed = false)
      (hbutton : x'.stripeButton = none)
  | back (hpane : x.info.pane = pane) (hlisted : x.info.isListed)
      (hhome : x'.info.slot = x.info.home) (hbutton : x'.info.showStripeButton)
      (hremembers : e.RemembersAt x.name x.info.home)

theorem Fate.turnsOn (h : Fate pane e x y) (hne : pane ≠ defaultPane) (hname : y.name = x.name)
    (hremembers : ∀ {slot}, x.info.pane = pane → e₁.RemembersAt x.name slot →
      e.RemembersAt x.name slot)
    (ht : TurnsOn defaultPane e₁ y y') : Fate pane e x y' := by
  cases ht with
  | rests heq => exact heq ▸ h
  | comes hdefault hslot hbutton hrecalls =>
    have hsame : y'.info.pane = y.info.pane := congrArg Slot.pane hslot
    rw [hname] at hrecalls
    cases h with
    | spared hpane hpane' => exact .spared hpane (hsame ▸ hpane')
    | stuck hpane hlisted heq => exact absurd (hpane.symm.trans (heq ▸ hdefault)) hne
    | gone hpane hlisted hhome | back hpane hlisted hhome =>
      exact .back hpane hlisted (hslot.trans hhome) hbutton (hremembers hpane (hhome ▸ hrecalls))
  | goes hdefault hslot hbutton hv =>
    have hsame : y'.info.pane = y.info.pane := congrArg Slot.pane hslot
    cases h with
    | spared hpane hpane' => exact .spared hpane (hsame ▸ hpane')
    | stuck hpane hlisted heq => exact absurd (hpane.symm.trans (heq ▸ hdefault)) hne
    | gone hpane hlisted hhome hoff =>
      rw [(WindowInfo.isListed_eq_false_iff.1 hoff).1] at hv
      cases hv
    | back hpane hlisted hhome hlabelled hrecalls =>
      exact .back hpane hlisted (hslot.trans hhome) (hbutton.trans hlabelled) hrecalls

theorem fate_of_takenOff (h : x.TakenOff x') (hpane : x.info.pane = pane) : Fate pane e x x' := by
  have htaken := h.2
  split at htaken
  case isTrue hlisted => exact .gone hpane hlisted htaken.1 htaken.2.1 htaken.2.2
  case isFalse hlisted => exact .stuck hpane (by simpa using hlisted) htaken

theorem Fate.remembersAt (h : Fate pane e x y) (hpane : x.info.pane = pane)
    (hne : pane ≠ defaultPane) (hdefault : y.info.pane = defaultPane) (hv : y.info.visible) :
    e.RemembersAt x.name y.info.slot := by
  cases h with
  | spared hother => exact absurd hpane hother
  | stuck _ _ heq => exact absurd (hpane.symm.trans (heq ▸ hdefault)) hne
  | gone _ _ _ hoff =>
    rw [(WindowInfo.isListed_eq_false_iff.1 hoff).1] at hv
    cases hv
  | back _ _ hhome _ hremembers => exact hhome ▸ hremembers

/-- What has become of a window, if it is not pending any more. -/
def FateOf (pane : String) (pending : List String) (e : Engine) (x x' : Entry) : Prop :=
  x'.name = x.name ∧ if x.name ∈ pending then x' = x else Fate pane e x x'

/-- A pane is being emptied. The windows with the pending ids are still as they were; of the others
those that were on the pane are remembered only where they were from the start. -/
structure Emptying (pane : String) (pending : List String) (e e' : Engine) : Prop where
  coherent : Coherent e'
  nodup : pending.Nodup
  waits : ∀ id ∈ pending, ∃ k x, e.entries.get? k = some x ∧ x.name = id ∧ x.info.pane = pane
  entries : ∀ k, Option.Rel (FateOf pane pending e) (e.entries.get? k) (e'.entries.get? k)
  remembers : ∀ {k x slot}, e.entries.get? k = some x → x.info.pane = pane →
    e'.RemembersAt x.name slot → e.RemembersAt x.name slot

namespace Emptying

theorem pane_eq (h : Emptying pane pending e e₁) (hc : Coherent e)
    (hx : e.entries.get? key = some x) (hmem : x.name ∈ pending) : x.info.pane = pane := by
  obtain ⟨k, y, hy, hname, hpane⟩ := h.waits x.name hmem
  cases hc.unique (standing?_of_get? hy) (standing?_of_get? hx) hname
  cases hy.symm.trans hx
  exact hpane

theorem takesTurns (h : Emptying pane pending e e₁) (hc : Coherent e) (hne : pane ≠ defaultPane)
    (ht : TakesTurns defaultPane e₁ e') : Emptying pane pending e e' := by
  refine ⟨ht.coherent, h.nodup, h.waits, fun k ↦ ?_, fun {k x slot} hx hpane hr ↦ ?_⟩
  · refine rel_comp (h.entries k) (ht.entries k) fun x y z hx hfate hturn ↦ ?_
    obtain ⟨hname, hfate⟩ := hfate
    obtain ⟨hname', hturn⟩ := hturn
    refine ⟨hname'.trans hname, ?_⟩
    split at hfate
    case isTrue hmem =>
      rw [if_pos hmem]
      subst hfate
      have hpane := h.pane_eq hc hx hmem
      cases hturn with
      | rests heq => exact heq
      | comes hdefault | goes hdefault => exact absurd (hpane.symm.trans hdefault) hne
    case isFalse hnot =>
      rw [if_neg hnot]
      exact hfate.turnsOn hne hname (fun hp ↦ h.remembers hx hp) hturn
  · rcases ht.remembers hr with hr | ⟨k', y, hy, hname, rfl, hdefault, hv⟩
    · exact h.remembers hx hpane hr
    obtain ⟨z, hz, hname', hfate⟩ := exists_left_of_rel (h.entries k') hy
    cases hc.unique (standing?_of_get? hz) (standing?_of_get? hx) (hname'.symm.trans hname)
    cases hz.symm.trans hx
    split at hfate
    case isTrue => exact absurd (hpane.symm.trans (hfate ▸ hdefault)) hne
    case isFalse => exact hfate.remembersAt hpane hne hdefault hv

theorem takeOff {rest : List String} {e₂ : Engine} (h : Emptying pane (x.name :: rest) e e₁)
    (hc : Coherent e) (hx : e₁.entries.get? key = some x) (hc₂ : Coherent e₂)
    (hoff : x.TakenOff x')
    (hget : ∀ k, e₂.entries.get? k = if k = key then some x' else e₁.entries.get? k)
    (hside : e₂.sideStack = e₁.sideStack) : Emptying pane rest e e₂ := by
  obtain ⟨hnot, hnodup⟩ := List.nodup_cons.1 h.nodup
  refine ⟨hc₂, hnodup, fun id hid ↦ h.waits id (List.mem_cons_of_mem _ hid), fun k ↦ ?_,
    fun hy hpane hr ↦ h.remembers hy hpane ?_⟩
  · rw [hget]
    split
    case isTrue hk =>
      subst hk
      obtain ⟨y, hy, hname, hsame⟩ := exists_left_of_rel (h.entries k) hx
      rw [if_pos (hname ▸ List.mem_cons_self ..)] at hsame
      subst hsame
      have hpane := h.pane_eq hc hy (List.mem_cons_self ..)
      rw [hy]
      refine .some ⟨hoff.1, ?_⟩
      rw [if_neg hnot]
      exact fate_of_takenOff hoff hpane
    case isFalse hk =>
      refine rel_mono (h.entries k) fun z z₁ _ hz₁ hfate ↦ ⟨hfate.1, ?_⟩
      have hother : z.name ≠ x.name := fun heq ↦ hk (h.coherent.unique (standing?_of_get? hz₁)
        (standing?_of_get? hx) (hfate.1.trans heq))
      simpa only [List.mem_cons, hother, false_or] using hfate.2
  · rwa [RemembersAt, hside] at hr

theorem ensures_hideWith {rest : List String} (h : Emptying pane (id :: rest) e e₁)
    (hc : Coherent e) (hne : pane ≠ defaultPane) :
    Ensures (hideWith id offStripeOptions).run e₁ fun _ e' ↦ Emptying pane rest e e' := by
  obtain ⟨key, x, hx, rfl, -⟩ := h.waits id (List.mem_cons_self ..)
  obtain ⟨y, hy, hname, hsame⟩ := exists_right_of_rel (h.entries key) hx
  rw [if_pos (List.mem_cons_self ..)] at hsame
  subst hsame
  refine (h.coherent.ensures_hideWith_offStripe hy).mono fun _ e' hleaves ↦ ?_
  obtain ⟨e₂, x₂, hc₂, hoff, hget, hside, hturns⟩ := hleaves
  exact (h.takeOff hc hy hc₂ hoff hget hside).takesTurns hc hne hturns

end Emptying

def idsOn (e : Engine) (pane : String) : List String :=
  (e.entries.values.filter (·.info.pane == pane)).map Entry.id

theorem Coherent.mem_idsOn (h : Coherent e) : id ∈ e.idsOn pane ↔
    ∃ k x, e.entries.get? k = some x ∧ x.name = id ∧ x.info.pane = pane := by
  simp only [idsOn, SlotTable.values, List.mem_map, List.mem_filter, beq_iff_eq]
  constructor
  · rintro ⟨x, ⟨⟨⟨k, y⟩, hrow, rfl⟩, hpane⟩, rfl⟩
    have hx := SlotTable.mem_toList.1 hrow
    exact ⟨k, y, hx, (h.id_eq (standing?_of_get? hx)).symm, hpane⟩
  · rintro ⟨k, x, hx, rfl, hpane⟩
    exact ⟨x, ⟨⟨(k, x), SlotTable.mem_toList.2 hx, rfl⟩, hpane⟩, h.id_eq (standing?_of_get? hx)⟩

theorem Coherent.nodup_idsOn (h : Coherent e) : (e.idsOn pane).Nodup := by
  rw [idsOn, SlotTable.values, List.filter_map, List.map_map]
  refine List.Nodup.map_on ?_ ((List.Nodup.of_map Prod.fst e.entries.nodup_keys).filter _)
  rintro ⟨k, x⟩ hx ⟨k', y⟩ hy hid
  have hx := SlotTable.mem_toList.1 (List.mem_of_mem_filter hx)
  have hy := SlotTable.mem_toList.1 (List.mem_of_mem_filter hy)
  obtain rfl := h.key_eq hx hy hid
  cases hx.symm.trans hy
  rfl

theorem Coherent.emptying (h : Coherent e) : Emptying pane (e.idsOn pane) e e := by
  refine ⟨h, h.nodup_idsOn, fun id hid ↦ h.mem_idsOn.1 hid, fun k ↦ ?_, fun _ _ hr ↦ hr⟩
  cases hx : e.entries.get? k with
  | none => exact .none
  | some x =>
    refine .some ⟨rfl, ?_⟩
    split
    case isTrue => rfl
    case isFalse hnot =>
      have hpane : x.info.pane ≠ pane := fun hp ↦ hnot (h.mem_idsOn.2 ⟨k, x, hx, rfl, hp⟩)
      exact .spared hpane hpane

theorem Coherent.ensures_removePane (h : Coherent e) (hne : pane ≠ defaultPane) :
    Ensures (Request.removePane pane).run.run e fun _ e' ↦
      pane ∉ e'.panes ∧ Emptying pane [] e e' := by
  refine ensures_run_lift.2 ?_
  simp only [removePane, ensures_bind, ensures_get, ensures_ite, ensures_modify, ensures_pure]
  refine ⟨fun _ ↦ ?_, fun hno ↦ absurd hne (by simpa using hno)⟩
  refine (ensures_forIn_remaining (I := fun ids e₁ ↦ Emptying pane ids e e₁)
    (fun id rest e₁ h₁ ↦ ?_) h.emptying).mono fun _ e₁ h₁ ↦ ?_
  · simp only [attempt, ensures_bind, ensures_pure]
    exact h₁.ensures_hideWith h hne
  · exact ⟨by simp, h₁.coherent.congr rfl rfl, h₁.nodup, h₁.waits, h₁.entries, h₁.remembers⟩

/-- A pane is gone, and no window or placement of one is left on it. Those that were on it are
hidden on the default pane, without a stripe button. -/
structure EmptiesPane (pane : String) (e e' : Engine) : Prop where
  removed : pane ∉ e'.panes
  unnamed : ∀ id info, e'.windowInfo? id = some info →
    info.pane ≠ pane ∧ ∀ placed, e'.layout.get? id = some placed → placed.pane ≠ pane
  takenOff : ∀ id x, e.entry? id = some x → x.info.pane = pane → ∃ x', e'.entry? id = some x' ∧
    x'.stripeButton = none ∧ ∀ info, info = x'.info ∨ e'.layout.get? id = some info →
      info.visible = false ∧ info.pane = defaultPane ∧ info.showStripeButton = false

theorem Coherent.tells_same (h : Coherent e) (hx : e.entry? id = some x)
    (hplaced : e.layout.get? id = some info) :
    info.visible = x.info.visible ∧ info.pane = x.info.pane ∧
      info.showStripeButton = x.info.showStripeButton := by
  obtain ⟨key, hget, rfl⟩ := h.entry?_eq_some.1 hx
  have hid : x.id = x.name := h.id_eq (standing?_of_get? hget)
  have hl : Located e key x info := ⟨hget, hid.symm ▸ hplaced⟩
  exact ⟨h.sound.visible_of_located hl, congrArg (·.1.pane) (h.berth_eq hl).1, h.button_eq hl⟩

namespace Emptying

variable (hc : Coherent e) (h : Emptying pane [] e e')
include hc h

theorem exists_fate (hx : e.entry? id = some x) :
    ∃ x', e'.entry? id = some x' ∧ Fate pane e x x' := by
  obtain ⟨k, hget, rfl⟩ := hc.entry?_eq_some.1 hx
  obtain ⟨x', hx', hname, hfate⟩ := exists_right_of_rel (h.entries k) hget
  exact ⟨x', h.coherent.entry?_eq_some.2 ⟨k, hx', hname⟩, hfate⟩

theorem fate (hx : e.entry? id = some x) (hx' : e'.entry? id = some x') : Fate pane e x x' := by
  obtain ⟨y, hy, hfate⟩ := h.exists_fate hc hx
  rwa [Option.some.inj (hx'.symm.trans hy)]

theorem exists_origin (hx' : e'.entry? id = some x') :
    ∃ x, e.entry? id = some x ∧ Fate pane e x x' := by
  obtain ⟨k, hget, rfl⟩ := h.coherent.entry?_eq_some.1 hx'
  obtain ⟨x, hx, hname, hfate⟩ := exists_left_of_rel (h.entries k) hget
  exact ⟨x, hc.entry?_eq_some.2 ⟨k, hx, hname.symm⟩, hfate⟩

theorem remembersAt_home (hx : e.entry? id = some x) (hpane : x.info.pane = pane)
    (hx' : e'.entry? id = some x') (hbutton : x'.info.showStripeButton) :
    e.RemembersAt id x.info.home := by
  have hfate := h.fate hc hx hx'
  obtain ⟨k, -, rfl⟩ := hc.entry?_eq_some.1 hx
  cases hfate with
  | spared hother => exact absurd hpane hother
  | stuck _ hlisted heq =>
    rw [heq, (WindowInfo.isListed_eq_false_iff.1 hlisted).2] at hbutton
    cases hbutton
  | gone _ _ _ hoff =>
    rw [(WindowInfo.isListed_eq_false_iff.1 hoff).2] at hbutton
    cases hbutton
  | back _ _ _ _ hremembers => exact hremembers

theorem isListed_of_pane (hne : pane ≠ defaultPane) (hx : e.entry? id = some x)
    (hpane : x.info.pane = pane) (hx' : e'.entry? id = some x')
    (hdefault : x'.info.pane = defaultPane) : x.info.isListed := by
  cases h.fate hc hx hx' with
  | spared hother => exact absurd hpane hother
  | stuck _ _ heq => exact absurd (hpane.symm.trans (heq ▸ hdefault)) hne
  | gone _ hlisted | back _ hlisted => exact hlisted

theorem pane_ne (hne : pane ≠ defaultPane)
    (hall : ∀ id x, e.entry? id = some x → x.info.pane = pane → x.info.isListed)
    (hx' : e'.entry? id = some x') : x'.info.pane ≠ pane := by
  obtain ⟨x, hx, hfate⟩ := h.exists_origin hc hx'
  cases hfate with
  | spared _ hother => exact hother
  | stuck hpane hlisted =>
    have hno := hall id x hx hpane
    rw [hlisted] at hno
    cases hno
  | gone _ _ hhome | back _ _ hhome =>
    exact fun hpane ↦ hne (hpane.symm.trans (congrArg Slot.pane hhome))

theorem takenOff_of_listed (hx : e.entry? id = some x) (hpane : x.info.pane = pane)
    (hlisted : x.info.isListed) (hx' : e'.entry? id = some x')
    (hnone : x'.info.showStripeButton = false) :
    x'.stripeButton = none ∧ x'.info.visible = false ∧ x'.info.pane = defaultPane := by
  cases h.fate hc hx hx' with
  | spared hother => exact absurd hpane hother
  | stuck _ hno =>
    rw [hlisted] at hno
    cases hno
  | gone _ _ hhome hoff hbutton =>
    exact ⟨hbutton, (WindowInfo.isListed_eq_false_iff.1 hoff).1, congrArg Slot.pane hhome⟩
  | back _ _ _ hbutton =>
    rw [hnone] at hbutton
    cases hbutton

end Emptying

/-- Removing a pane empties it just when each of its windows was on the screen or had a stripe
button, and none has one again afterwards. Only those may have one that are remembered as evicted
from the place on the default pane where they are left. -/
theorem emptiesPane_removePane_iff (hc : Coherent e) (hne : pane ≠ defaultPane)
    (hrun : (Request.removePane pane).run.run e = .ok result e') :
    (EmptiesPane pane e e' ↔ ∀ id x, e.entry? id = some x → x.info.pane = pane →
      x.info.isListed ∧ ∀ x', e'.entry? id = some x' → x'.info.showStripeButton = false) ∧
    ∀ id x x', e.entry? id = some x → x.info.pane = pane → e'.entry? id = some x' →
      x'.info.showStripeButton → e.RemembersAt id x.info.home := by
  obtain ⟨hremoved, h⟩ := hc.ensures_removePane hne hrun
  refine ⟨⟨fun hempties id x hx hpane ↦ ?_, fun hall ↦ ⟨hremoved, fun id info hinfo ↦ ?_,
    fun id x hx hpane ↦ ?_⟩⟩, fun _ _ _ hx hpane hx' ↦ h.remembersAt_home hc hx hpane hx'⟩
  · obtain ⟨x', hx', -, htaken⟩ := hempties.takenOff id x hx hpane
    obtain ⟨-, hdefault, hbutton⟩ := htaken x'.info (Or.inl rfl)
    refine ⟨h.isListed_of_pane hc hne hx hpane hx' hdefault, fun y hy ↦ ?_⟩
    rwa [← Option.some.inj (hx'.symm.trans hy)]
  · obtain ⟨x', hx', rfl⟩ := Option.map_eq_some_iff.1 hinfo
    have hoff := h.pane_ne hc hne (fun id x hx hpane ↦ (hall id x hx hpane).1) hx'
    refine ⟨hoff, fun placed hplaced ↦ ?_⟩
    rw [(h.coherent.tells_same hx' hplaced).2.1]
    exact hoff
  · obtain ⟨hlisted, hnone⟩ := hall id x hx hpane
    obtain ⟨x', hx', -⟩ := h.exists_fate hc hx
    obtain ⟨hbutton, hv, hdefault⟩ :=
      h.takenOff_of_listed hc hx hpane hlisted hx' (hnone x' hx')
    refine ⟨x', hx', hbutton, fun info hinfo ↦ ?_⟩
    rcases hinfo with rfl | hplaced
    · exact ⟨hv, hdefault, hnone x' hx'⟩
    · obtain ⟨hv', hpane', hbutton'⟩ := h.coherent.tells_same hx' hplaced
      exact ⟨hv'.trans hv, hpane'.trans hdefault, hbutton'.trans (hnone x' hx')⟩

/-- A hidden window without a stripe button stays on the pane that is removed. -/
theorem not_emptiesPane_buttonless : ∃ e e' x, Session Request.Fits blank e ∧
    e.entry? "A" = some x ∧ x.info.pane = "p" ∧ x.info.isListed = false ∧
      (Request.removePane "p").run.run e = .ok (.ok ()) e' ∧ ¬ EmptiesPane "p" e e' := by
  let isStuck (x : Entry) : Bool := x.info.pane = "p" && x.info.isListed = false
  have hleads : blank.leadsTo (Request.addPane "p").run (·.registersTo (hiddenRequest "A")
      (·.leadsTo (Request.setAnchor "A" "p" .left (-1)).run
        (·.leadsTo (Request.setShowStripeButton "A" false).run fun e ↦
          (e.entry? "A").any isStuck && e.leadsTo (Request.removePane "p").run fun _ ↦ true))) := by
    decide +kernel
  obtain ⟨e₁, hs₁, hleads⟩ := exists_session_of_leadsTo .start hleads trivial
  obtain ⟨e₂, hs₂, hleads⟩ := exists_session_of_registersTo hs₁ hleads
  obtain ⟨e₃, hs₃, hleads⟩ := exists_session_of_leadsTo hs₂ hleads trivial
  obtain ⟨e, hs, hleads⟩ := exists_session_of_leadsTo hs₃ hleads trivial
  simp only [Bool.and_eq_true, decide_eq_true_eq, Option.any_eq_true, isStuck] at hleads
  obtain ⟨⟨x, hx, hpane, hlisted⟩, hleads⟩ := hleads
  obtain ⟨e', hrun, -⟩ := exists_run_of_leadsTo hleads
  have hc : Coherent e := hs.coherent (coherentOn_of_empty rfl)
  refine ⟨e, e', x, hs, hx, hpane, hlisted, hrun, fun hempties ↦ ?_⟩
  have hall := (emptiesPane_removePane_iff hc (by decide) hrun).1.1 hempties
  rw [(hall "A" x hx hpane).1] at hlisted
  cases hlisted

end Engine

end ToolDock

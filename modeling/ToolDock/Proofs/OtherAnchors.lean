import ToolDock.Proofs.Displacing
import ToolDock.Proofs.Operations

namespace ToolDock.Engine

variable {e e' e'' e₁ : Engine} {key k : SlotKey} {x y : Entry} {l : Layout} {info : WindowInfo}
  {dirty : Bool} {slot : Slot} {id : String} {a b : Anchor} {stored : List WindowInfo}

/-- The entries at an anchor are untouched, and placements of their windows are not forgotten. -/
structure Spares (a : Anchor) (e e' : Engine) : Prop where
  entries : ∀ {k x}, e.entries.get? k = some x → x.info.anchor = a → e'.entries.get? k = some x
  sideStack : ∃ p : WindowInfo → Bool, e'.sideStack.get a = (e.sideStack.get a).filter p ∧
    ∀ w k x, e.entries.get? k = some x → x.info.anchor = a → x.id = w.id → p w
  filed : e.sideStack.Filed → e'.sideStack.Filed
  settings : e'.settings = e.settings

namespace Spares

theorem of_same (he : e'.entries = e.entries) (hside : e'.sideStack = e.sideStack)
    (hset : e'.settings = e.settings) : Spares a e e' where
  entries hx _ := he ▸ hx
  sideStack := ⟨fun _ ↦ true, by rw [hside, List.filter_true], fun _ _ _ _ _ _ ↦ rfl⟩
  filed hs := hside ▸ hs
  settings := hset

theorem refl : Spares a e e := of_same rfl rfl rfl

theorem trans (h : Spares a e e') (h' : Spares a e' e'') : Spares a e e'' where
  entries hx ha := h'.entries (h.entries hx ha) ha
  sideStack := by
    obtain ⟨p, hp, hkept⟩ := h.sideStack
    obtain ⟨p', hp', hkept'⟩ := h'.sideStack
    refine ⟨fun w ↦ p' w && p w, by rw [hp', hp, List.filter_filter],
      fun w k x hx ha hid ↦ ?_⟩
    exact Bool.and_eq_true_iff.2
      ⟨hkept' w k x (h.entries hx ha) ha hid, hkept w k x hx ha hid⟩
  filed hs := h'.filed (h.filed hs)
  settings := h'.settings.trans h.settings

theorem of_exchanged {x' : Entry} (hex : Exchanged False key x x' l e e')
    (hx : e.entries.get? key = some x) (hne : x.info.anchor ≠ a) : Spares a e e' where
  entries {k y} hy ha := by
    have hk : k ≠ key := by
      rintro rfl
      cases hx.symm.trans hy
      exact hne ha
    exact (hex.get?_other hk).trans hy
  sideStack := ⟨fun _ ↦ true, by rw [hex.sideStack, List.filter_true], fun _ _ _ _ _ _ ↦ rfl⟩
  filed hs := hex.sideStack ▸ hs
  settings := hex.settings

end Spares

theorem anchor_eq_of_berth {info info' : WindowInfo} (h : info'.berth = info.berth) :
    info'.anchor = info.anchor :=
  congrArg (·.1.anchor) h

theorem get_remembering (hne : info.anchor ≠ a) :
    (e.remembering info).sideStack.get a = e.sideStack.get a := by
  unfold remembering
  split
  · exact SideStack.get_push.trans (if_neg hne.symm)
  · rfl

theorem Ousts.filed (h : Ousts k y e e') (hs : e.sideStack.Filed) : e'.sideStack.Filed := by
  obtain ⟨placed, -, -, hside⟩ := h.sideStack
  have hpushed : SideStack.Extends Set.univ e.sideStack (e.remembering placed).sideStack :=
    extends_remembering (Set.mem_univ placed)
  exact hside ▸ hpushed.filed hs

theorem Presents.filed (h : Presents key x e e') (hs : e.sideStack.Filed) : e'.sideStack.Filed := by
  rw [h.sideStack, forgetting]
  split
  · exact hs.remove
  · exact hs

theorem Ousts.spares (h : Ousts k y e e') (hy : e.entries.get? k = some y)
    (hne : y.info.anchor ≠ a) : Spares a e e' := by
  obtain ⟨y', -, -, hget⟩ := h.entries
  obtain ⟨placed, -, hberth, hside⟩ := h.sideStack
  have hanchor : placed.anchor ≠ a := anchor_eq_of_berth hberth ▸ hne
  refine ⟨fun {k' x} hx ha ↦ ?_, ⟨fun _ ↦ true, ?_, fun _ _ _ _ _ _ ↦ rfl⟩, h.filed, h.settings⟩
  · have hk : k' ≠ k := by
      rintro rfl
      cases hy.symm.trans hx
      exact hne ha
    rw [hget, if_neg hk]
    exact hx
  · rw [hside, get_remembering hanchor, List.filter_true]

theorem Presents.spares (h : Presents key x e e') (hc : Coherent e)
    (hx : e.entries.get? key = some x) (hne : x.info.anchor ≠ a) : Spares a e e' := by
  obtain ⟨x', -, -, hget⟩ := h.entries
  have hother : ∀ {k y}, e.entries.get? k = some y → y.info.anchor = a → k ≠ key := by
    rintro k y hy ha rfl
    cases hx.symm.trans hy
    exact hne ha
  refine ⟨fun {k y} hy ha ↦ ?_, ?_, h.filed, h.settings⟩
  · rw [hget, if_neg (hother hy ha)]
    exact hy
  · rw [h.sideStack, forgetting]
    split
    case isTrue =>
      refine ⟨(·.id != x.id), SideStack.get_remove, fun w k y hy ha hid ↦ ?_⟩
      exact bne_iff_ne.2 fun heq ↦ hother hy ha (hc.key_eq hy hx (hid.trans heq))
    case isFalse =>
      exact ⟨fun _ ↦ true, (List.filter_true _).symm, fun _ _ _ _ _ _ ↦ rfl⟩

theorem Coherent.showWindow_spares (h : Coherent e) (hl : Located e key x info)
    (hv : x.info.visible = false) (hne : x.info.anchor ≠ a) :
    Ensures (showWindow key info dirty) e fun _ e' ↦ Coherent e' ∧ Spares a e e' := by
  by_cases ha : x.available = true
  · have hanchor : info.anchor ≠ a := anchor_eq_of_berth (h.berth_eq hl).1 ▸ hne
    refine (h.ensures_presents hl hv ha).mono ?_
    intro _ e' hq
    rcases hq with ⟨-, h', hpresents⟩
    refine ⟨h', ?_⟩
    rcases h.evictFor_cases key info dirty with heq | ⟨k, y, hk, hy, ho, hslot, heq⟩
    all_goals rw [heq] at hpresents
    · exact hpresents.spares h hl.entry hne
    · have hout := h.ousts dirty hy (WindowInfo.occupiesSlot_iff.1 ho).1
      have h₁ : Coherent (e.evict dirty k) := (h.sound.evict (Set.notMem_empty k) hy).1.coherent
      obtain ⟨y', -, -, hget⟩ := hout.entries
      have hx₁ : (e.evict dirty k).entries.get? key = some x := by
        rw [hget, if_neg hk.symm]
        exact hl.entry
      have hplace : y.info.anchor = info.anchor := congrArg Slot.anchor hslot
      exact (hout.spares hy (hplace ▸ hanchor)).trans (hpresents.spares h₁ hx₁ hne)
  · exact ensures_showWindow_unavailable hl.entry (by simpa using ha) ⟨h, .refl⟩

theorem Coherent.takeInfo_spares (h : Coherent e) (hx : e.entries.get? key = some x) :
    Coherent (e.registeredInfo key).2 ∧ Spares a e (e.registeredInfo key).2 ∧
      Located (e.registeredInfo key).2 key x (e.registeredInfo key).1 := by
  obtain ⟨h₁, hl⟩ := h.sound.registeredInfo hx
  exact ⟨h₁.coherent, .of_same entries_registeredInfo sideStack_registeredInfo
    settings_registeredInfo, hl⟩

theorem ensures_reveal_spares (h : Coherent e) (hx : e.entry? id = some x)
    (hne : x.info.anchor ≠ a) : Ensures (reveal id).run e fun _ e' ↦ Spares a e e' := by
  simp only [reveal, ensures_keyOf_bind, ensures_run_get_bind, ensures_run_ite, ensures_run_pure,
    ensures_run_lift_bind, ensures_run_modify, ensures_takeInfo]
  obtain ⟨key, hkey, hx⟩ := Option.bind_eq_some_iff.1 hx
  refine ⟨fun k hk ↦ ?_, fun _ ↦ .refl⟩
  cases hkey.symm.trans hk
  rw [entryIs_of_get? hx]
  refine ⟨fun _ ↦ .refl, fun hv ↦ ?_⟩
  obtain ⟨h₁, hspares, hl⟩ := h.takeInfo_spares (a := a) hx
  refine (h₁.showWindow_spares hl (by simpa using hv) hne).mono ?_
  intro _ e' hq
  have hall := hspares.trans hq.2
  exact ⟨fun _ ↦ hall.trans (.of_same rfl rfl rfl), fun _ ↦ hall⟩

theorem Coherent.restoreFrom_spares (h : Coherent e) (hne : b ≠ a)
    (hstored : ∀ w ∈ stored, w.anchor = b) :
    Ensures (restoreFrom b slot dirty stored) e fun _ e' ↦ Spares a e e' := by
  induction stored generalizing e with
  | nil => exact ensures_pure.2 .refl
  | cons w rest ih =>
    simp only [restoreFrom, ensures_bind, ensures_modify, ensures_ite, ensures_get]
    let popped : Engine := { e with sideStack := e.sideStack.set b rest }
    have hrest : ∀ w ∈ rest, w.anchor = b := fun w hw ↦ hstored w (List.mem_cons_of_mem _ hw)
    have hpopped : Coherent popped := h.congr rfl rfl
    have hpops : Spares a e popped := by
      refine ⟨fun hx _ ↦ hx, ⟨fun _ ↦ true, ?_, fun _ _ _ _ _ _ ↦ rfl⟩, fun hs ↦ hs.set hrest, rfl⟩
      rw [List.filter_true]
      exact (PerAnchor.get_set ..).trans (if_neg hne.symm)
    have hskip := (ih hpopped hrest).mono fun _ _ h' ↦ hpops.trans h'
    refine ⟨fun _ ↦ hskip, fun _ ↦ ?_⟩
    cases hkey : popped.keyOf? w.id with
    | none => exact hskip
    | some key =>
      obtain ⟨x, hx, -⟩ := get?_of_keyOf? hkey
      obtain ⟨h₁, htakes, hl⟩ := hpopped.takeInfo_spares (a := a) hx
      have hspares := hpops.trans htakes
      have hagain := (ih h₁ hrest).mono fun _ _ h' ↦ hspares.trans h'
      simp only [ensures_bind, ensures_get, ensures_ite, ensures_takeInfo, ensures_pure]
      refine ⟨fun _ ↦ hskip, fun _ ↦ ⟨fun _ ↦ hagain, fun hwhere ↦ ?_⟩⟩
      have hwhere : isWhereEvicted (popped.registeredInfo key).1 w = true := by simpa using hwhere
      obtain ⟨hv, hberth⟩ := isWhereEvicted_iff.1 hwhere
      have hsame := (h₁.berth_eq hl).1
      have hxv : x.info.visible = false := (h₁.sound.visible_of_located hl).symm.trans hv
      have hxb : x.info.anchor = b :=
        (anchor_eq_of_berth (hsame.symm.trans hberth)).trans (hstored w (List.mem_cons_self ..))
      refine (h₁.showWindow_spares hl hxv (hxb ▸ hne)).mono ?_
      intro shown e' hq
      rcases hq with ⟨h', hshows⟩
      exact ⟨fun _ ↦ hspares.trans hshows,
        fun _ ↦ (ih h' hrest).mono fun _ _ h'' ↦ (hspares.trans hshows).trans h''⟩

/-- Where placements are on the stacks of their own anchors, hiding a window elsewhere brings nobody
back at the anchor. -/
theorem Coherent.hideWindow_spares (h : Coherent e) (hl : Located e key x info)
    (hfiled : e.sideStack.Filed) (hne : x.info.anchor ≠ a) :
    Ensures (hideWindow key info dirty false .none) e fun _ e' ↦ Spares a e e' := by
  obtain ⟨off, x', hoff, hberth, -, -, hex⟩ := stays_hidden dirty hl.entry (h.berth_eq hl)
  have hhides := Spares.of_exchanged hex hl.entry hne
  have hclear : e.clearFor key info dirty false = e := rfl
  refine ensures_hideWindow hclear hoff (fun _ ↦ ?_) fun _ ↦ hhides
  simp only [restoreEvicted, ensures_bind, ensures_get]
  refine ((h.hidden dirty hl).restoreFrom_spares ?_ fun w hw ↦ ?_).mono
    fun _ _ h' ↦ hhides.trans h'
  · rwa [anchor_eq_of_berth hberth]
  · exact hhides.filed hfiled _ w hw

theorem ensures_hideWith_cases {options : HideOptions} {Q : Engine → Prop}
    (hkey : e.keyOf? id = some key)
    (hstays : (e.registeredInfo key).1.visible = false →
      ¬ (options.removeFromStripe && (e.registeredInfo key).1.showStripeButton) →
      Q (e.registeredInfo key).2)
    (hstrip : (e.registeredInfo key).1.visible = false → options.removeFromStripe →
      (e.registeredInfo key).1.showStripeButton →
      Ensures (removeHiddenFromStripe key id (e.registeredInfo key).1) (e.registeredInfo key).2
        fun _ e' ↦ Q e')
    (hvisible : (e.registeredInfo key).1.visible →
      Ensures (hideWindow key (e.registeredInfo key).1 false options.hideSide
          (if options.removeFromStripe then .removeFromStripe else .none)) (e.registeredInfo key).2
        fun _ e' ↦ ∀ e'', e''.entries = e'.entries → e''.layout = e'.layout →
          e''.sideStack = e'.sideStack → e''.settings = e'.settings → Q e'') :
    Ensures (hideWith id options).run e fun _ e' ↦ Q e' := by
  simp only [hideWith, ensures_keyOf_bind, ensures_run_get_bind, ensures_run_ite,
    ensures_run_pure, ensures_run_lift_bind, ensures_run_modify, ensures_run_lift,
    ensures_run_modify_bind, ensures_takeInfo]
  refine ⟨fun k hk ↦ ?_, fun hnone ↦ by cases hnone.symm.trans hkey⟩
  cases hkey.symm.trans hk
  refine ⟨fun hv ↦ ?_, fun hv ↦ ?_⟩
  · have hv : (e.registeredInfo key).1.visible = false := by simpa using hv
    refine ⟨fun hoff ↦ ?_, hstays hv⟩
    obtain ⟨hremove, hbutton⟩ := Bool.and_eq_true_iff.1 hoff
    exact hstrip hv hremove hbutton
  · refine (hvisible (by simpa using hv)).mono fun _ e' hQ ↦ ⟨fun _ ↦ ?_, fun _ ↦ ?_⟩
    · exact hQ _ rfl rfl rfl rfl
    · exact hQ _ rfl rfl rfl rfl

theorem ensures_hide {Q : Engine → Prop} (hkey : e.keyOf? id = some key)
    (hhidden : (e.registeredInfo key).1.visible = false → Q (e.registeredInfo key).2)
    (hvisible : (e.registeredInfo key).1.visible →
      Ensures (hideWindow key (e.registeredInfo key).1 false false .none) (e.registeredInfo key).2
        fun _ e' ↦ ∀ e'', e''.entries = e'.entries → e''.layout = e'.layout →
          e''.sideStack = e'.sideStack → e''.settings = e'.settings → Q e'') :
    Ensures (hide id).run e fun _ e' ↦ Q e' :=
  ensures_hideWith_cases hkey (fun hv _ ↦ hhidden hv)
    (fun _ hstripe ↦ absurd hstripe Bool.false_ne_true) hvisible

theorem ensures_hide_spares (h : Coherent e) (hfiled : e.sideStack.Filed)
    (hx : e.entry? id = some x) (hne : x.info.anchor ≠ a) :
    Ensures (hide id).run e fun _ e' ↦ Spares a e e' := by
  obtain ⟨key, hkey, hx⟩ := Option.bind_eq_some_iff.1 hx
  obtain ⟨h₁, htakes, hl⟩ := h.takeInfo_spares (a := a) hx
  refine ensures_hide hkey (fun _ ↦ htakes) fun _ ↦ ?_
  refine (h₁.hideWindow_spares hl (htakes.filed hfiled) hne).mono ?_
  intro _ e' hhides e'' he _ hside hset
  exact (htakes.trans hhides).trans (.of_same he hside hset)

end ToolDock.Engine

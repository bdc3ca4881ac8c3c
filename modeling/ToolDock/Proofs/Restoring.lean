import ToolDock.Proofs.Following

namespace ToolDock

namespace PerAnchor

variable {α : Type} {t : PerAnchor α} {a : Anchor} {x y : α}

theorem set_get : t.set a (t.get a) = t := by
  refine ext_get fun b ↦ ?_
  rw [get_set]
  split
  case isTrue h => rw [h]
  case isFalse => rfl

theorem set_set : (t.set a x).set a y = t.set a y := by
  refine ext_get fun b ↦ ?_
  rw [get_set, get_set, get_set]
  split <;> rfl

end PerAnchor

namespace Engine

variable {l : Layout} {start e e' : Engine} {aside : Set SlotKey} {shown : Set String}
  {key : SlotKey} {y : Entry} {info : WindowInfo} {dirty : Bool} {slot : Slot} {anchor : Anchor}

def restores (e : Engine) (slot : Slot) (stored : WindowInfo) : Bool :=
  stored.split == slot.split && stored.pane == slot.pane &&
    (e.keyOf? stored.id).any fun key ↦
      e.entryIs key Entry.available && isWhereEvicted (e.registeredInfo key).1 stored

theorem ensures_restoreFrom_cons {Q : Unit → Engine → Prop} {stored : WindowInfo}
    {rest : List WindowInfo} {s : SideStack}
    (hreg : ∀ key y s, e.entries.get? key = some y →
      (e.withStacks s).registeredInfo key = ((e.registeredInfo key).1, e.withStacks s))
    (hskip : e.restores slot stored = false →
      Ensures (restoreFrom anchor slot dirty rest) (e.withStacks (s.set anchor rest)) Q)
    (hfound : ∀ key y, e.restores slot stored → e.keyOf? stored.id = some key →
      e.entries.get? key = some y → y.available → isWhereEvicted (e.registeredInfo key).1 stored →
      Ensures (showWindow key (e.registeredInfo key).1 dirty) (e.withStacks (s.set anchor rest))
        fun res e' ↦ res = true ∧ Q () e') :
    Ensures (restoreFrom anchor slot dirty (stored :: rest)) (e.withStacks s) Q := by
  have hpopped : ({ e.withStacks s with
      sideStack := (e.withStacks s).sideStack.set anchor rest } : Engine) =
        e.withStacks (s.set anchor rest) := rfl
  have hkeyOf : (e.withStacks (s.set anchor rest)).keyOf? stored.id = e.keyOf? stored.id := rfl
  simp only [restoreFrom, ensures_bind, ensures_modify, ensures_ite, ensures_get, hpopped, hkeyOf]
  refine ⟨fun helse ↦ hskip ?_, fun hplace ↦ ?_⟩
  · simp only [restores]
    grind
  have hplace : (stored.split == slot.split && stored.pane == slot.pane) = true := by grind
  cases hkey : e.keyOf? stored.id with
  | none =>
    apply hskip
    simp [restores, hkey]
  | some key =>
    obtain ⟨y, hy, -⟩ := get?_of_keyOf? hkey
    have hready : (e.withStacks (s.set anchor rest)).entryIs key Entry.available = y.available :=
      entryIs_of_get? hy
    have hrestores : e.restores slot stored =
        (y.available && isWhereEvicted (e.registeredInfo key).1 stored) := by
      rw [restores, hplace, hkey, Option.any_some, entryIs_of_get? hy, Bool.true_and]
    simp only [ensures_bind, ensures_get, ensures_ite, ensures_takeInfo, ensures_pure,
      hreg key y _ hy, hready]
    refine ⟨fun hna ↦ hskip ?_, fun ha ↦ ⟨fun hnot ↦ hskip ?_, fun hwhere ↦ ?_⟩⟩
    · have hna : y.available = false := by simpa using hna
      rw [hrestores, hna, Bool.false_and]
    · have hnot : isWhereEvicted (e.registeredInfo key).1 stored = false := by simpa using hnot
      rw [hrestores, hnot, Bool.and_false]
    · have ha : y.available = true := by simpa using ha
      have hwhere : isWhereEvicted (e.registeredInfo key).1 stored = true := by simpa using hwhere
      refine (hfound key y (by rw [hrestores, ha, hwhere]; rfl) hkey hy ha hwhere).mono ?_
      intro res e' hq
      rcases hq with ⟨hres, hQ⟩
      exact ⟨fun _ ↦ hQ, fun hno ↦ absurd hres hno⟩

theorem ensures_restoreFrom {Q : Unit → Engine → Prop}
    (hreg : ∀ key y s, e.entries.get? key = some y →
      (e.withStacks s).registeredInfo key = ((e.registeredInfo key).1, e.withStacks s))
    (hnone : (e.sideStack.get anchor).dropWhile (!e.restores slot ·) = [] →
      Q () (e.withStacks (e.sideStack.set anchor [])))
    (hsome : ∀ stored rest key y,
      (e.sideStack.get anchor).dropWhile (!e.restores slot ·) = stored :: rest →
      e.keyOf? stored.id = some key → e.entries.get? key = some y → y.available →
      isWhereEvicted (e.registeredInfo key).1 stored →
      Ensures (showWindow key (e.registeredInfo key).1 dirty)
        (e.withStacks (e.sideStack.set anchor rest)) fun res e' ↦ res = true ∧ Q () e') :
    Ensures (restoreFrom anchor slot dirty (e.sideStack.get anchor)) e Q := by
  -- the placements left are those on the stack, and the search goes on where it would have begun
  have hloop : ∀ ws s, s.get anchor = ws → (∀ r, s.set anchor r = e.sideStack.set anchor r) →
      (e.sideStack.get anchor).dropWhile (!e.restores slot ·) =
        ws.dropWhile (!e.restores slot ·) →
      Ensures (restoreFrom anchor slot dirty ws) (e.withStacks s) Q := by
    intro ws
    induction ws with
    | nil =>
      intro s hs hset hdrop
      have hsame : s = e.sideStack.set anchor [] := by
        rw [← hset, ← hs, PerAnchor.set_get]
      refine ensures_pure.2 ?_
      rw [hsame]
      exact hnone hdrop
    | cons stored rest ih =>
      intro s hs hset hdrop
      refine ensures_restoreFrom_cons hreg (fun hno ↦ ?_) fun key y hyes hkey hy ha hwhere ↦ ?_
      · refine ih _ (by rw [PerAnchor.get_set, if_pos rfl]) (fun r ↦ ?_) ?_
        · rw [PerAnchor.set_set, hset]
        · rw [hdrop, List.dropWhile_cons, hno]
          rfl
      · rw [hset]
        refine hsome stored rest key y ?_ hkey hy ha hwhere
        rw [hdrop, List.dropWhile_cons, hyes]
        rfl
  have hself : e.withStacks e.sideStack = e := rfl
  rw [← hself]
  exact hloop _ e.sideStack rfl (fun _ ↦ rfl) rfl

theorem isWhereEvicted_iff {current stored : WindowInfo} : isWhereEvicted current stored ↔
    current.visible = false ∧ current.berth = stored.berth := by
  simp only [isWhereEvicted, WindowInfo.berth, Bool.and_eq_true, beq_iff_eq, Bool.not_eq_true',
    Prod.mk.injEq, and_assoc]

theorem shownWith_congr {other : WindowInfo} (hid : info.id = other.id)
    (hberth : info.berth = other.berth) : shownWith l info shown = shownWith l other shown := by
  simp only [WindowInfo.berth, Prod.mk.injEq] at hberth
  simp only [shownWith, hid, hberth.1, hberth.2.1]

def Restored (l : Layout) (start : Engine) (key : SlotKey) (shown : Set String) (e e' : Engine)
    (anchor : Anchor) : List WindowInfo → Prop
  | [] => Follows l start {key} shown e' ∧ e'.sideStack = e.sideStack.set anchor []
  | stored :: rest => Follows l start {key} (shownWith l stored shown) e' ∧
      ∃ s, SideStack.Extends {w | w.slot = stored.slot} (e.sideStack.set anchor rest) s ∧
        e'.sideStack = e.forgetting stored.id s

theorem Follows.restoreEvicted (h : Follows l start {key} shown e)
    (hhidden : ∀ y, e.entries.get? key = some y → y.info.visible = false) :
    Ensures (Engine.restoreEvicted info dirty) e fun _ e' ↦ Restored l start key shown e e'
      info.anchor ((e.sideStack.get info.anchor).dropWhile (!e.restores info.slot ·)) := by
  simp only [Engine.restoreEvicted, ensures_bind, ensures_get]
  have hstacks : ∀ s, Follows l start {key} shown (e.withStacks s) := fun s ↦ h.congr rfl rfl rfl
  refine ensures_restoreFrom (fun k y s hy ↦ ?_) (fun hnone ↦ ?_) fun stored rest k y hdrop hk hy ha
    hwhere ↦ ?_
  · obtain ⟨placed, hplaced, hreg⟩ := h.registeredInfo hy
    have hl : Located (e.withStacks s) k y placed := ⟨hy, hplaced⟩
    rw [hreg, hl.registeredInfo_eq]
  · rw [hnone]
    exact ⟨hstacks _, rfl⟩
  · obtain ⟨placed, hplaced, hreg⟩ := h.registeredInfo hy
    rw [hreg] at hwhere ⊢
    obtain ⟨y', hy', hname⟩ := get?_of_keyOf? hk
    cases hy.symm.trans hy'
    have hid : placed.id = y.id := Layout.id_of_get? hplaced
    have hsid : placed.id = stored.id := hid.trans ((h.name_eq hy).trans hname)
    have hberth : placed.berth = stored.berth := (isWhereEvicted_iff.1 hwhere).2
    have hout : HiddenAside {key} k (e.withStacks (e.sideStack.set info.anchor rest)) :=
      fun k' hk' _ z hz ↦ hhidden z (hk' ▸ hz)
    refine ((hstacks (e.sideStack.set info.anchor rest)).showWindow dirty hy ha hid (fun hne ↦ ?_)
      hout).mono ?_
    · obtain ⟨asked, placed', hasked, hplaced', -, hb, -⟩ := h.berthed hne hy
      cases hplaced.symm.trans hplaced'
      exact ⟨asked, hasked, hb⟩
    · intro res e' hq
      rcases hq with ⟨hres, hfollows, s, hextends, hside⟩
      refine ⟨hres, ?_⟩
      rw [hdrop]
      have hslot : placed.slot = stored.slot := congrArg Prod.fst hberth
      refine ⟨shownWith_congr hsid hberth ▸ hfollows, s,
        hextends.mono fun w hw ↦ hw.1.trans hslot, ?_⟩
      rw [hside, hsid]
      rfl

structure Vacated (l : Layout) (start : Engine) (key : SlotKey) (shown : Set String)
    (info off : WindowInfo) (e e₁ : Engine) : Prop where
  follows : Follows l start {key} shown e₁
  sideStack : e₁.sideStack = e.sideStack
  visible : off.visible = false
  berth : off.berth = info.berth
  placement : e₁.layout.get? info.id = some off
  entry : ∀ y, e₁.entries.get? key = some y → y.id = info.id ∧ y.info.visible = false

theorem Follows.hideWindow (h : Follows l start ∅ shown e) (hy : e.entries.get? key = some y)
    (hid : info.id = y.id) (hv : info.visible) (hi : info.windowType.isInternal) :
    Ensures (Engine.hideWindow key info dirty false .none) e fun _ e' ↦ ∃ off e₁,
      Vacated l start key shown info off e e₁ ∧
      if e.settings.stackEnabled then Restored l start key shown e₁ e' info.anchor
        ((e₁.sideStack.get info.anchor).dropWhile (!e₁.restores info.slot ·))
      else e' = e₁ := by
  obtain ⟨off, saved, hoff, hsaved, hex⟩ := exchanged_hidden (D := False) info dirty .none hy
    (nomatch ·)
  have hoffid : off.id = info.id := by rw [hoff]; rfl
  have hoffv : off.visible = false := by rw [hoff]; rfl
  have hoffb : off.berth = info.berth := by rw [hoff]; rfl
  have hfollows : Follows l start {key} shown (e.hidden key info dirty .none) := by
    refine h.exchange hy hex rfl (hoffid.trans hid) (fun id hne ↦ ?_)
      (Layout.contains_put.2 (Or.inl (hid.symm.trans hoffid.symm))) (fun hk ↦ absurd rfl hk)
      (fun _ _ _ ↦ Set.notMem_empty _) fun _ _ ↦ Iff.rfl
    rw [Layout.get?_put, if_neg fun heq ↦ hne (heq.trans (hoffid.trans hid))]
  have hentry : ∀ y', (e.hidden key info dirty .none).entries.get? key = some y' →
      y'.id = info.id ∧ y'.info.visible = false := by
    intro y' hy'
    cases hy'.symm.trans hex.get?_self
    exact ⟨hid.symm, hoffv⟩
  have hvacated : Vacated l start key shown info off e (e.hidden key info dirty .none) := by
    refine ⟨hfollows, hex.sideStack, hoffv, hoffb, ?_, hentry⟩
    rw [hex.layout, Layout.get?_put, if_pos hoffid.symm]
  have hback : (e.hidden key info dirty .none).bringsBack info off false =
      e.settings.stackEnabled := by
    have htype : off.windowType = info.windowType := congrArg (·.2.1) hoffb
    rw [bringsBack, hv, htype, hi, hex.settings]
    simp
  have hclear : e.clearFor key info dirty false = e := rfl
  refine ensures_hideWindow hclear hsaved (fun hb ↦ ?_) fun hb ↦ ?_
  · rw [hback] at hb
    have hslot : off.slot = info.slot := congrArg Prod.fst hoffb
    have hanchor : off.anchor = info.anchor := congrArg Slot.anchor hslot
    refine (hfollows.restoreEvicted fun y' hy' ↦ (hentry y' hy').2).mono fun _ e' hrestored ↦
      ⟨off, _, hvacated, ?_⟩
    rw [if_pos hb, ← hanchor, ← hslot]
    exact hrestored
  · rw [hback] at hb
    exact ⟨off, _, hvacated, by rw [if_neg hb]⟩

end Engine

end ToolDock

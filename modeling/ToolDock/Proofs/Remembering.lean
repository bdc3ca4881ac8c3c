import Mathlib.Data.List.Flatten
import ToolDock.Proofs.Belongings
import ToolDock.Proofs.Following

/-!
What the side stacks remember. No window is in them twice; each placement is that of a docked window
that does not hide by itself, in the stack of its own anchor, and its window is registered and off
the screen. Evicting a hidden window again is ruled out since the entries that hold a slot are
visible, and whichever window is shown is forgotten in the same step. Main statements:
`Recalls.evictFor`, `Recalls.showWindow` and `Recalls.hideWindow`.
-/

namespace ToolDock

namespace SideStack

/-- All evicted placements, anchor by anchor. -/
def evicted (s : SideStack) : List WindowInfo := Anchor.all.flatMap s.get

/-- Every evicted placement is that of a docked window that does not hide by itself, in the stack of
its anchor, and no window has two. -/
structure Orderly (s : SideStack) : Prop where
  filed : s.Filed
  docked : ∀ w ∈ s.evicted, w.isDocked = true ∧ w.autoHide = false
  nodup : (s.evicted.map WindowInfo.id).Nodup

variable {s s' : SideStack} {w : WindowInfo} {a : Anchor} {id : String}

theorem mem_evicted : w ∈ s.evicted ↔ ∃ a, w ∈ s.get a := by
  simp [evicted, Anchor.mem_all]

theorem evicted_eq_nil_iff : s.evicted = [] ↔ s = .empty := by
  constructor
  · intro h
    refine PerAnchor.ext_get fun a ↦ ?_
    rw [get_empty, List.eq_nil_iff_forall_not_mem]
    intro w hw
    have hmem := mem_evicted.2 ⟨a, hw⟩
    rw [h] at hmem
    cases hmem
  · rintro rfl
    decide

theorem sublist_evicted (h : ∀ a, (s'.get a).Sublist (s.get a)) : s'.evicted.Sublist s.evicted :=
  List.Sublist.flatMap_right _ fun a _ ↦ h a

theorem sublist_remove : ((s.remove id).get a).Sublist (s.get a) := by
  rw [get_remove]
  exact List.filter_sublist

theorem perm_evicted_push : (s.push w).evicted.Perm (w :: s.evicted) := by
  have hparts : ∀ s : SideStack, s.evicted = s.left ++ (s.right ++ (s.top ++ s.bottom)) :=
    fun s ↦ by simp [evicted, Anchor.all, PerAnchor.get]
  have hback : ∀ {front back back' : List WindowInfo}, back'.Perm (w :: back) →
      (front ++ back').Perm (w :: (front ++ back)) :=
    fun h ↦ (h.append_left _).trans List.perm_middle
  rw [hparts, hparts, push]
  cases w.anchor with
  | left => exact .refl _
  | right => exact hback (.refl _)
  | top => exact hback (hback (.refl _))
  | bottom => exact hback (hback (hback (.refl _)))

namespace Orderly

theorem sublist (h : s.Orderly) (hs : ∀ a, (s'.get a).Sublist (s.get a)) : s'.Orderly where
  filed a w hw := h.filed a w ((hs a).subset hw)
  docked w hw := h.docked w ((sublist_evicted hs).subset hw)
  nodup := h.nodup.sublist ((sublist_evicted hs).map _)

theorem push (h : s.Orderly) (hw : w.isDocked = true ∧ w.autoHide = false)
    (hnew : ∀ v ∈ s.evicted, v.id ≠ w.id) : (s.push w).Orderly where
  filed := (Extends.push (Set.mem_singleton w)).filed h.filed
  docked v hv := by
    rcases List.mem_cons.1 (perm_evicted_push.mem_iff.1 hv) with rfl | hv
    · exact hw
    · exact h.docked v hv
  nodup := by
    rw [(perm_evicted_push.map _).nodup_iff, List.map_cons, List.nodup_cons]
    refine ⟨fun hmem ↦ ?_, h.nodup⟩
    obtain ⟨v, hv, hid⟩ := List.mem_map.1 hmem
    exact hnew v hv hid

end Orderly

end SideStack

namespace Engine

variable {D : Prop} {e e' e'' : Engine} {key k : SlotKey} {ks : List SlotKey} {x x' y : Entry}
  {l : Layout} {info cur w : WindowInfo} {dirty hideSide : Bool} {mutation : HideMutation}
  {slot : Slot} {anchor : Anchor} {id : String}

/-- A window is registered, and hidden in its entry as in the layout. -/
def IsOff (e : Engine) (id : String) : Prop :=
  ∃ key x info, Located e key x info ∧ x.id = id ∧ x.info.visible = false ∧ info.visible = false

theorem IsOff.of_entries (h : e.IsOff id) (he : e'.entries = e.entries)
    (hl : ∀ {id placed}, e.layout.get? id = some placed → placed.visible = false →
      ∃ placed', e'.layout.get? id = some placed' ∧ placed'.visible = false) : e'.IsOff id := by
  obtain ⟨k, y, placed, hloc, hid, hv, hoff⟩ := h
  obtain ⟨placed', hplaced', hoff'⟩ := hl hloc.placement hoff
  exact ⟨k, y, placed', ⟨by rw [he]; exact hloc.entry, hplaced'⟩, hid, hv, hoff'⟩

theorem IsOff.of_other (h : e.IsOff id) (hx : e.entries.get? key = some x) (hne : id ≠ x.id)
    (hget : ∀ k, k ≠ key → e'.entries.get? k = e.entries.get? k)
    (hothers : ∀ id, id ≠ x.id → e'.layout.get? id = e.layout.get? id) : e'.IsOff id := by
  obtain ⟨k, y, placed, hl, rfl, hv⟩ := h
  have hk : k ≠ key := by
    rintro rfl
    cases hx.symm.trans hl.entry
    exact hne rfl
  exact ⟨k, y, placed, ⟨(hget k hk).trans hl.entry, (hothers y.id hne).trans hl.placement⟩, rfl, hv⟩

/-- Every window is registered under its id, no two under the same, and what the side stacks hold is
in order and of hidden windows. Nothing is in them if evicted windows are not remembered. -/
structure Recalls (e : Engine) : Prop where
  named : ∀ {key x}, e.entries.get? key = some x → x.id = x.name ∧ x.info.id = x.name
  unique : ∀ {k k' x x'}, e.entries.get? k = some x → e.entries.get? k' = some x' →
    x.name = x'.name → k = k'
  orderly : e.sideStack.Orderly
  off : ∀ w ∈ e.sideStack.evicted, e.IsOff w.id
  disabled : e.settings.stackEnabled = false → e.sideStack.evicted = []

structure Retains (e e' : Engine) : Prop where
  recalls : e'.Recalls
  names : KeepsNames e e'

namespace Recalls

theorem key_eq (h : e.Recalls) (hx : e.entries.get? key = some x) (hy : e.entries.get? k = some y)
    (hid : y.id = x.id) : k = key :=
  h.unique hy hx ((h.named hy).1.symm.trans (hid.trans (h.named hx).1))

theorem info_id (h : e.Recalls) (hx : e.entries.get? key = some x) : x.info.id = x.id :=
  (h.named hx).2.trans (h.named hx).1.symm

theorem off_self (h : e.Recalls) (hx : e.entries.get? key = some x) (hoff : e.IsOff x.id) :
    x.info.visible = false ∧ ∃ info, e.layout.get? x.id = some info ∧ info.visible = false := by
  obtain ⟨k, y, info, hl, hid, hv, hinfo⟩ := hoff
  cases h.key_eq hx hl.entry hid
  cases hx.symm.trans hl.entry
  exact ⟨hv, info, hl.placement, hinfo⟩

theorem refl (h : e.Recalls) : Retains e e := ⟨h, .refl⟩

theorem alter (h : e.Recalls) (hx : e.entries.get? key = some x)
    (hget : ∀ k, e'.entries.get? k = if k = key then some x' else e.entries.get? k)
    (hids : x'.id = x.id ∧ x'.name = x.name ∧ x'.info.id = x.id)
    (hothers : ∀ id, id ≠ x.id → e'.layout.get? id = e.layout.get? id)
    (hset : e'.settings = e.settings)
    (hside : ∀ a, (e'.sideStack.get a).Sublist (e.sideStack.get a))
    (hself : ∀ w ∈ e'.sideStack.evicted, w.id = x.id → e'.IsOff x.id) : Retains e e' := by
  obtain ⟨hid, hname, hinfo⟩ := hids
  have hself' : e'.entries.get? key = some x' := (hget key).trans (if_pos rfl)
  have hother : ∀ k, k ≠ key → e'.entries.get? k = e.entries.get? k := fun k hk ↦
    (hget k).trans (if_neg hk)
  have hbefore : ∀ {k y}, e'.entries.get? k = some y →
      (k = key ∧ y = x') ∨ e.entries.get? k = some y := by
    intro k y hy
    by_cases hk : k = key
    · subst hk
      exact Or.inl ⟨rfl, Option.some.inj (hy.symm.trans hself')⟩
    · exact Or.inr ((hother k hk).symm.trans hy)
  have hnamed : ∀ {k y}, e'.entries.get? k = some y →
      ∃ y', e.entries.get? k = some y' ∧ y'.name = y.name := by
    intro k y hy
    rcases hbefore hy with ⟨rfl, rfl⟩ | hy
    · exact ⟨x, hx, hname.symm⟩
    · exact ⟨y, hy, rfl⟩
  have hsub := SideStack.sublist_evicted hside
  refine ⟨⟨fun hy ↦ ?_, fun hy hy' heq ↦ ?_, h.orderly.sublist hside, fun w hw ↦ ?_,
    fun hoff ↦ ?_⟩, .of_get? hget hx (Prod.ext hname hid)⟩
  · rcases hbefore hy with ⟨rfl, rfl⟩ | hy
    · rw [hid, hname, hinfo]
      exact ⟨(h.named hx).1, (h.named hx).1⟩
    · exact h.named hy
  · obtain ⟨z, hz, hzname⟩ := hnamed hy
    obtain ⟨z', hz', hzname'⟩ := hnamed hy'
    exact h.unique hz hz' (by rw [hzname, hzname', heq])
  · by_cases hwx : w.id = x.id
    · exact hwx ▸ hself w hw hwx
    · exact (h.off w (hsub.subset hw)).of_other hx hwx hother hothers
  · rw [hset] at hoff
    exact List.sublist_nil.1 (h.disabled hoff ▸ hsub)

theorem exchange (h : e.Recalls) (hx : e.entries.get? key = some x)
    (hex : Exchanged False key x x' l e e')
    (hids : x'.id = x.id ∧ x'.name = x.name ∧ x'.info.id = x.id)
    (hothers : ∀ id, id ≠ x.id → l.get? id = e.layout.get? id)
    (hself : ∀ placed, e.layout.get? x.id = some placed → x.info.visible = false →
      placed.visible = false → x'.info.visible = false ∧
        ∃ info, l.get? x.id = some info ∧ info.visible = false) : Retains e e' := by
  refine h.alter hx hex.get? hids (fun id hne ↦ ?_) hex.settings
    (fun a ↦ hex.sideStack ▸ List.Sublist.refl _) fun w hw hwx ↦ ?_
  · rw [hex.layout]
    exact hothers id hne
  · rw [hex.sideStack] at hw
    obtain ⟨hv, placed, hplaced, hoff⟩ := h.off_self hx (hwx ▸ h.off w hw)
    obtain ⟨hv', info, hinfo, hoff'⟩ := hself placed hplaced hv hoff
    refine ⟨key, x', info, ⟨hex.get?_self, ?_⟩, hids.1, hv', hoff'⟩
    rw [hids.1, hex.layout]
    exact hinfo

theorem same (h : e.Recalls) (hx : e.entries.get? key = some x)
    (hex : Exchanged False key x x' e.layout e e') (hid : x'.id = x.id) (hname : x'.name = x.name)
    (hinfo : x'.info = x.info) : Retains e e' :=
  h.exchange hx hex ⟨hid, hname, by rw [hinfo, h.info_id hx]⟩ (fun _ _ ↦ rfl)
    fun placed hplaced hv hoff ↦ ⟨by rw [hinfo, hv], placed, hplaced, hoff⟩

theorem put (h : e.Recalls) (hx : e.entries.get? key = some x)
    (hex : Exchanged False key x x' (e.layout.put info) e e') (hid : info.id = x.id)
    (hids : x'.id = x.id ∧ x'.name = x.name ∧ x'.info.id = x.id)
    (hv : ∀ placed, e.layout.get? x.id = some placed → x.info.visible = false →
      placed.visible = false → x'.info.visible = false ∧ info.visible = false) : Retains e e' := by
  refine h.exchange hx hex hids (fun id hne ↦ ?_) fun placed hplaced hhidden hoff ↦ ?_
  · rw [Layout.get?_put, if_neg fun heq ↦ hne (heq.trans hid)]
  · obtain ⟨hx', hinfo⟩ := hv placed hplaced hhidden hoff
    exact ⟨hx', info, by rw [Layout.get?_put, if_pos hid.symm], hinfo⟩

theorem of_entries (h : e.Recalls) (he : e'.entries = e.entries)
    (hset : e'.settings = e.settings)
    (hside : ∀ a, (e'.sideStack.get a).Sublist (e.sideStack.get a))
    (hl : ∀ {id placed}, e.layout.get? id = some placed → placed.visible = false →
      ∃ placed', e'.layout.get? id = some placed' ∧ placed'.visible = false) : Retains e e' := by
  have hsub := SideStack.sublist_evicted hside
  refine ⟨⟨?_, ?_, h.orderly.sublist hside, fun w hw ↦ ?_, fun hoff ↦ ?_⟩, .of_entries he⟩
  · rw [he]
    exact h.named
  · rw [he]
    exact h.unique
  · exact (h.off w (hsub.subset hw)).of_entries he hl
  · rw [hset] at hoff
    exact List.sublist_nil.1 (h.disabled hoff ▸ hsub)

theorem of_windows (h : e.Recalls) (he : e'.entries = e.entries)
    (hl : e'.layout.windows = e.layout.windows) (hset : e'.settings = e.settings)
    (hside : ∀ a, (e'.sideStack.get a).Sublist (e.sideStack.get a)) : Retains e e' := by
  refine h.of_entries he hset hside fun {id placed} hplaced hoff ↦ ⟨placed, ?_, hoff⟩
  simp only [Layout.get?, hl]
  exact hplaced

theorem restack {s : SideStack} (h : e.Recalls)
    (hs : ∀ a, (s.get a).Sublist (e.sideStack.get a)) : Retains e (e.withStacks s) :=
  h.of_windows rfl rfl rfl hs

end Recalls

theorem Retains.trans (h : Retains e e') (h' : Retains e' e'') : Retains e e'' :=
  ⟨h'.recalls, h.names.trans h'.names⟩

theorem Retains.then {α : Type} {action : Action α} (h : Retains e e')
    (hx : Ensures action e' fun _ e'' ↦ Retains e' e'') :
    Ensures action e' fun _ e'' ↦ Retains e e'' :=
  hx.mono fun _ _ h' ↦ h.trans h'

theorem Retains.rest (h : Retains e e') (hr : Rests e' e'') (hside : e''.sideStack = e'.sideStack) :
    Retains e e'' :=
  h.trans (h.recalls.of_windows hr.entries hr.windows hr.settings fun _ ↦
    hside ▸ List.Sublist.refl _)

theorem remembering_cases (e : Engine) (info : WindowInfo) : e.remembering info = e ∨
    e.settings.stackEnabled = true ∧ (info.isDocked = true ∧ info.autoHide = false) ∧
      e.remembering info = e.withStacks (e.sideStack.push info) := by
  unfold remembering
  split
  case isTrue h =>
    simp only [Bool.and_eq_true, Bool.not_eq_true'] at h
    exact Or.inr ⟨h.1.1, ⟨h.1.2, h.2⟩, rfl⟩
  case isFalse => exact Or.inl rfl

namespace Recalls

theorem registeredInfo (h : e.Recalls) (hx : e.entries.get? key = some x) :
    Retains e (e.registeredInfo key).2 ∧
      Located (e.registeredInfo key).2 key x (e.registeredInfo key).1 := by
  have hid := h.info_id hx
  rw [registeredInfo_eq hx hid]
  cases hinfo : e.layout.get? x.id with
  | some info => exact ⟨h.refl, hx, hinfo⟩
  | none =>
    refine ⟨?_, hx, by rw [get?_storeInfo, if_pos hid.symm]⟩
    refine h.put hx (exchanged_storeInfo hx False.elim) hid ⟨rfl, rfl, hid⟩ fun placed hplaced ↦ ?_
    cases hinfo.symm.trans hplaced

theorem storeInfo (h : e.Recalls) (hl : Located e key x cur) (hid : info.id = cur.id)
    (hv : cur.visible = false → info.visible = false) : Retains e (e.storeInfo info) := by
  refine h.put hl.entry (exchanged_storeInfo hl.entry False.elim)
    (hid.trans (Layout.id_of_get? hl.placement)) ⟨rfl, rfl, h.info_id hl.entry⟩ ?_
  intro placed hplaced hhidden hoff
  cases hl.eq hplaced
  exact ⟨hhidden, hv hoff⟩

theorem commit (h : e.Recalls) (hl : Located e key x cur) (hid : info.id = cur.id)
    (hv : cur.visible = false → info.visible = false) : Retains e (e.commit key info) := by
  have hxid := hid.trans (Layout.id_of_get? hl.placement)
  refine h.put hl.entry (exchanged_commit info hl.entry False.elim) hxid ⟨rfl, rfl, hxid⟩ ?_
  intro placed hplaced _ hoff
  cases hl.eq hplaced
  exact ⟨hv hoff, hv hoff⟩

theorem put_hidden {off : WindowInfo} {saved} (h : e.Recalls) (hx : e.entries.get? key = some x)
    (hid : info.id = x.id) (hoff : off =
      (mutated mutation { info with visible := false, activeOnStart := false }).withState saved)
    (hex : Exchanged False key x { (afterMutation mutation x).undecorated with info := off }
      (e.layout.put off) e e') : Retains e e' ∧ e'.IsOff x.id := by
  have hoffid : off.id = x.id := by rw [hoff, WindowInfo.id_withState, id_mutated]; exact hid
  have hv : off.visible = false := by rw [hoff, WindowInfo.visible_withState, visible_mutated]
  obtain ⟨hname, hxid, -, -⟩ := Standing.mk.inj (standing_undecorated mutation (x := x))
  refine ⟨h.put hx hex hoffid ⟨hxid, hname, hoffid⟩ fun _ _ _ _ ↦ ⟨hv, hv⟩, key, _, off,
    ⟨hex.get?_self, ?_⟩, hxid, hv, hv⟩
  rw [hex.layout, Layout.get?_put, if_pos (hxid.trans hoffid.symm)]

theorem hidden (dirty : Bool) (mutation : HideMutation) (h : e.Recalls)
    (hx : e.entries.get? key = some x) (hid : info.id = x.id) :
    Retains e (e.hidden key info dirty mutation) ∧
      ∀ k, k ≠ key → (e.hidden key info dirty mutation).entries.get? k = e.entries.get? k := by
  obtain ⟨off, saved, hoff, -, hex⟩ := exchanged_hidden (D := False) info dirty mutation hx
    False.elim
  exact ⟨(h.put_hidden hx hid hoff hex).1, fun _ ↦ hex.get?_other⟩

theorem push (h : e.Recalls) (hset : e.settings.stackEnabled = true) (hoff : e.IsOff w.id)
    (hw : w.isDocked = true ∧ w.autoHide = false)
    (hnew : ∀ v ∈ e.sideStack.evicted, v.id ≠ w.id) :
    Retains e (e.withStacks (e.sideStack.push w)) := by
  refine ⟨⟨h.named, h.unique, h.orderly.push hw hnew, fun v hv ↦ ?_, fun hno ↦ ?_⟩, .refl⟩
  · rcases List.mem_cons.1 (SideStack.perm_evicted_push.mem_iff.1 hv) with rfl | hv
    · exact hoff.of_entries rfl fun hplaced hoff ↦ ⟨_, hplaced, hoff⟩
    · exact (h.off v hv).of_entries rfl fun hplaced hoff ↦ ⟨_, hplaced, hoff⟩
  · cases hset.symm.trans hno

theorem evict (dirty : Bool) (h : e.Recalls) (hx : e.entries.get? k = some x)
    (hv : x.info.visible = true) : Retains e (e.evict dirty k) ∧
      ∀ k', k' ≠ k → (e.evict dirty k).entries.get? k' = e.entries.get? k' := by
  obtain ⟨told, heq⟩ := evict_eq dirty (e := e) (k := k)
  obtain ⟨htaken, hl⟩ := h.registeredInfo hx
  have hentries : (e.registeredInfo k).2.entries = e.entries := entries_registeredInfo
  rw [heq, ← hentries]
  generalize (e.registeredInfo k).1 = info at hl ⊢
  generalize (e.registeredInfo k).2 = e₁ at htaken hl hentries ⊢
  have hid := Layout.id_of_get? hl.placement
  have hnew : ∀ v ∈ e₁.sideStack.evicted, v.id ≠ info.id := by
    intro v hv' hvid
    have hoff := htaken.recalls.off v hv'
    rw [hvid, hid] at hoff
    cases hv.symm.trans (htaken.recalls.off_self hl.entry hoff).1
  rcases remembering_cases e₁ info with hsame | ⟨hset, hdocked, hpushed⟩
  · rw [hsame]
    obtain ⟨hhidden, hothers⟩ := htaken.recalls.hidden dirty .none hl.entry hid
    exact ⟨(htaken.trans hhidden).rest rests_fire rfl, hothers⟩
  · rw [hpushed]
    obtain ⟨off, saved, hoff, -, hex⟩ := exchanged_hidden (D := False)
      (e := e₁.withStacks (e₁.sideStack.push info)) info dirty .none hl.entry False.elim
    generalize (e₁.withStacks (e₁.sideStack.push info)).hidden k info dirty .none = e₂ at hex ⊢
    have hside : e₂.sideStack = e₁.sideStack.push info := hex.sideStack
    obtain ⟨hhidden, hisoff⟩ := htaken.recalls.put_hidden hl.entry hid hoff hex.restack
    have hpushed : Retains _ (e₂.withStacks (e₁.sideStack.push info)) :=
      hhidden.recalls.push (hex.settings.symm ▸ hset) (hid ▸ hisoff) hdocked hnew
    rw [← hside] at hpushed
    exact ⟨((htaken.trans hhidden).trans hpushed).rest rests_fire rfl, fun _ ↦ hex.get?_other⟩

theorem deactivateRegistered (dirty : Bool) (h : e.Recalls) (hx : e.entries.get? k = some x) :
    Retains e (e.deactivateRegistered k dirty) ∧
      ∀ k', k' ≠ k → (e.deactivateRegistered k dirty).entries.get? k' = e.entries.get? k' := by
  obtain ⟨htaken, hl⟩ := h.registeredInfo hx
  obtain ⟨hhidden, hothers⟩ := htaken.recalls.hidden dirty .none hl.entry
    (Layout.id_of_get? hl.placement)
  rw [entries_registeredInfo] at hothers
  exact ⟨htaken.trans hhidden, hothers⟩

theorem foldl {f : Engine → SlotKey → Engine} {p : Entry → Prop}
    (hf : ∀ {e k x}, Recalls e → e.entries.get? k = some x → p x → Retains e (f e k) ∧
      ∀ k', k' ≠ k → (f e k).entries.get? k' = e.entries.get? k')
    (h : e.Recalls) (hnodup : ks.Nodup) (hks : ∀ k ∈ ks, ∃ x, e.entries.get? k = some x ∧ p x) :
    Retains e (ks.foldl f e) ∧
      ∀ k', k' ∉ ks → (ks.foldl f e).entries.get? k' = e.entries.get? k' := by
  induction ks generalizing e with
  | nil => exact ⟨h.refl, fun _ _ ↦ rfl⟩
  | cons k ks ih =>
    obtain ⟨hk, hnodup⟩ := List.nodup_cons.1 hnodup
    obtain ⟨x, hx, hp⟩ := hks k (List.mem_cons_self ..)
    obtain ⟨hstep, hothers⟩ := hf h hx hp
    obtain ⟨hrest, hkept⟩ := ih hstep.recalls hnodup fun k' hk' ↦ by
      rw [hothers k' fun heq ↦ hk (heq ▸ hk')]
      exact hks k' (List.mem_cons_of_mem _ hk')
    refine ⟨hstep.trans hrest, fun k' hk' ↦ ?_⟩
    rw [List.mem_cons, not_or] at hk'
    exact (hkept k' hk'.2).trans (hothers k' hk'.1)

theorem nodup_keysWhere {p : SlotKey → Entry → Bool} : (e.keysWhere p).Nodup :=
  e.entries.nodup_keys.sublist (List.filter_sublist.map _)

theorem evictSlot (key : SlotKey) (info : WindowInfo) (dirty : Bool) (h : e.Recalls) :
    Retains e (e.evictSlot key info dirty) ∧
      (e.evictSlot key info dirty).entries.get? key = e.entries.get? key := by
  obtain ⟨hkept, hothers⟩ := foldl (f := (·.evict dirty ·)) (p := (·.info.visible = true))
    (fun h hx hv ↦ h.evict dirty hx hv) h nodup_keysWhere fun k hk ↦ by
      obtain ⟨-, y, hy, ho, -⟩ := mem_occupants.1 hk
      exact ⟨y, hy, (WindowInfo.occupiesSlot_iff.1 ho).1⟩
  exact ⟨hkept, hothers key not_mem_occupants⟩

theorem evictFor (key : SlotKey) (info : WindowInfo) (dirty : Bool) (h : e.Recalls) :
    Retains e (e.evictFor key info dirty) ∧
      (e.evictFor key info dirty).entries.get? key = e.entries.get? key := by
  unfold Engine.evictFor
  split
  · exact h.evictSlot key info dirty
  · exact ⟨h.refl, rfl⟩

theorem clearFor (key : SlotKey) (info : WindowInfo) (dirty hideSide : Bool) (h : e.Recalls) :
    Retains e (e.clearFor key info dirty hideSide) ∧
      (e.clearFor key info dirty hideSide).entries.get? key = e.entries.get? key := by
  unfold Engine.clearFor
  split
  · obtain ⟨hkept, hothers⟩ := foldl (f := (·.deactivateRegistered · dirty)) (p := fun _ ↦ True)
      (fun h hx _ ↦ h.deactivateRegistered dirty hx) h nodup_keysWhere fun k hk ↦ by
        obtain ⟨y, hy, -⟩ := mem_keysWhere.1 hk
        exact ⟨y, hy, trivial⟩
    refine ⟨hkept.trans (hkept.recalls.restack fun a ↦ ?_), hothers key not_mem_neighbours⟩
    rw [SideStack.get_clearAnchor]
    split
    · exact List.nil_sublist _
    · exact List.Sublist.refl _
  · exact ⟨h.refl, rfl⟩

theorem forgetting_spec (h : e.Recalls) (id : String) :
    (∀ a, ((e.forgetting id e.sideStack).get a).Sublist (e.sideStack.get a)) ∧
      ∀ w ∈ (e.forgetting id e.sideStack).evicted, w.id ≠ id := by
  unfold Engine.forgetting
  split
  case isTrue =>
    refine ⟨fun a ↦ SideStack.sublist_remove, fun w hw ↦ ?_⟩
    obtain ⟨a, hw⟩ := SideStack.mem_evicted.1 hw
    rw [SideStack.get_remove, List.mem_filter, bne_iff_ne] at hw
    exact hw.2
  case isFalse hoff =>
    rw [h.disabled (by simpa using hoff)]
    exact ⟨fun a ↦ List.Sublist.refl _, fun w hw ↦ absurd hw List.not_mem_nil⟩

theorem showWindow (dirty : Bool) (h : e.Recalls) (hx : e.entries.get? key = some x)
    (hid : info.id = x.id) : Ensures (Engine.showWindow key info dirty) e fun shown e' ↦
      Retains e e' ∧ (shown = false → e' = e) := by
  by_cases ha : x.available = true
  · obtain ⟨hemptied, hkey⟩ := h.evictFor key info dirty
    have hx₁ := hkey.trans hx
    refine (ensures_showWindow_emptied hx ha rfl hx₁).mono ?_
    intro _ e' hq
    generalize e.evictFor key info dirty = e₁ at hemptied hx₁ hq
    obtain ⟨rfl, order, x', -, hstanding, hex, hside⟩ := hq
    obtain ⟨hname, hxid, hinfo, -⟩ := Standing.mk.inj hstanding
    obtain ⟨hsub, hforgot⟩ := hemptied.recalls.forgetting_spec info.id
    refine ⟨hemptied.trans (hemptied.recalls.alter hx₁ hex.get? ⟨hxid, hname, ?_⟩
      (fun id hne ↦ ?_) hex.settings (fun a ↦ ?_) fun w hw hwx ↦ ?_), fun hno ↦ by cases hno⟩
    · rw [hinfo]
      exact hid
    · have hput := congrArg (·.get? id) hex.layout
      refine hput.trans ((Layout.get?_put _ _ _).trans (if_neg fun heq ↦ hne (heq.trans hid)))
    · rw [hside]
      exact hsub a
    · rw [hside] at hw
      exact absurd (hwx.trans hid.symm) (hforgot w hw)
  · exact ensures_showWindow_unavailable hx (by simpa using ha) ⟨h.refl, fun _ ↦ rfl⟩

theorem restoreFrom {stored : List WindowInfo} (h : e.Recalls)
    (hstored : stored.Sublist (e.sideStack.get anchor)) :
    Ensures (Engine.restoreFrom anchor slot dirty stored) e fun _ e' ↦ Retains e e' := by
  induction stored generalizing e with
  | nil => exact ensures_pure.2 h.refl
  | cons stored rest ih =>
    have hpopped : Retains e { e with sideStack := e.sideStack.set anchor rest } :=
      h.restack fun a ↦ by
        rw [PerAnchor.get_set]
        split
        case isTrue ha => exact ha ▸ (List.sublist_cons_self ..).trans hstored
        case isFalse => exact List.Sublist.refl _
    have hrest : (e.sideStack.set anchor rest).get anchor = rest :=
      (PerAnchor.get_set ..).trans (if_pos rfl)
    have hskip : ∀ {e'}, Retains e e' → e'.sideStack.get anchor = rest →
        Ensures (Engine.restoreFrom anchor slot dirty rest) e' fun _ e'' ↦ Retains e e'' :=
      fun h' heq ↦ h'.then (ih h'.recalls (heq ▸ List.Sublist.refl _))
    simp only [Engine.restoreFrom, ensures_bind, ensures_modify, ensures_ite, ensures_get]
    refine ⟨fun _ ↦ hskip hpopped hrest, fun _ ↦ ?_⟩
    cases hkey : keyOf? { e with sideStack := e.sideStack.set anchor rest } stored.id with
    | none => exact hskip hpopped hrest
    | some key =>
      obtain ⟨x, hx, -⟩ := get?_of_keyOf? hkey
      obtain ⟨htaken, hl⟩ := hpopped.recalls.registeredInfo hx
      have htaken := hpopped.trans htaken
      have hrest' : PerAnchor.get (Engine.registeredInfo
          { e with sideStack := e.sideStack.set anchor rest } key).2.sideStack anchor = rest := by
        rw [sideStack_registeredInfo]
        exact hrest
      simp only [ensures_bind, ensures_get, ensures_ite, ensures_takeInfo, ensures_pure]
      refine ⟨fun _ ↦ hskip hpopped hrest, fun _ ↦ ⟨fun _ ↦ hskip htaken hrest', fun _ ↦ ?_⟩⟩
      refine (htaken.recalls.showWindow dirty hl.entry (Layout.id_of_get? hl.placement)).mono ?_
      intro shown e₂ hq
      obtain ⟨hshown, hsame⟩ := hq
      refine ⟨fun _ ↦ htaken.trans hshown, fun hno ↦ ?_⟩
      rw [hsame (by simpa using hno)]
      exact hskip htaken hrest'

theorem hideWindow (dirty hideSide : Bool) (mutation : HideMutation) (h : e.Recalls)
    (hx : e.entries.get? key = some x) (hid : info.id = x.id) :
    Ensures (Engine.hideWindow key info dirty hideSide mutation) e fun _ e' ↦ Retains e e' := by
  obtain ⟨hcleared, hkey⟩ := h.clearFor key info dirty hideSide
  have hhidden := hcleared.trans
    (hcleared.recalls.hidden dirty mutation (hkey.trans hx) hid).1
  refine ensures_hideWindow rfl rfl (fun _ ↦ ?_) fun _ ↦ hhidden
  simp only [restoreEvicted, ensures_bind, ensures_get]
  exact hhidden.then (hhidden.recalls.restoreFrom (List.Sublist.refl _))

end Recalls

end Engine

end ToolDock

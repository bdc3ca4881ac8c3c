import ToolDock.Proofs.Following
import ToolDock.Proofs.Replacing
import ToolDock.Proofs.Seating

/-!
Orders while a layout is replaced. Windows that are evicted keep theirs, and a window that comes
back without one gets an order that no other has on its stripe. So whoever shares an order in the
end shared it in the completed layout. Main statement: `shares_setLayout`, about orders and slots.
-/

namespace ToolDock

def WindowInfo.place (info : WindowInfo) : Slot × Int32 := (info.slot, info.order)

namespace Layout

variable {l m m' plan : Layout} {info w : WindowInfo} {i j id : String} {slot : Slot}
  {order : Int32} {pane : String} {anchor : Anchor}

def place? (l : Layout) (id : String) : Option (Slot × Int32) := (l.get? id).map WindowInfo.place

theorem place?_put :
    (l.put info).place? id = if id = info.id then some info.place else l.place? id := by
  rw [place?, get?_put]
  split <;> rfl

theorem place?_of_get? (h : l.get? id = some info) : l.place? id = some info.place := by
  rw [place?, h, Option.map_some]

theorem sharesOrder_iff : l.SharesOrder i j ↔ i ≠ j ∧ ∃ slot order,
    l.place? i = some (slot, order) ∧ l.place? j = some (slot, order) ∧
      order ≠ unassignedOrder := by
  simp only [SharesOrder, place?, Option.map_eq_some_iff, WindowInfo.place, Prod.mk.injEq,
    WindowInfo.hasOrder, bne_iff_ne]
  refine and_congr_right fun _ ↦ ⟨?_, ?_⟩
  · intro hq
    rcases hq with ⟨a, b, ha, hb, hoa, -, hslot, horder⟩
    exact ⟨a.slot, a.order, ⟨a, ha, rfl, rfl⟩, ⟨b, hb, hslot.symm, horder.symm⟩, hoa⟩
  · intro hq
    rcases hq with ⟨slot, order, ⟨a, ha, hsa, hoa⟩, ⟨b, hb, hsb, hob⟩, hne⟩
    exact ⟨a, b, ha, hb, by rwa [hoa], by rwa [hob], hsa.trans hsb.symm, hoa.trans hob.symm⟩

def greaterOrder (best : Option Int32) (w : WindowInfo) : Option Int32 :=
  match best with
  | none => some w.order
  | some o => some (if o < w.order then w.order else o)

theorem le_greaterOrder (best : Option Int32) (w : WindowInfo) :
    ∃ o, greaterOrder best w = some o ∧ w.order ≤ o ∧ ∀ b ∈ best, b ≤ o := by
  cases best with
  | none => exact ⟨w.order, rfl, Int32.le_refl _, by simp⟩
  | some b =>
    refine ⟨if b < w.order then w.order else b, rfl, ?_, ?_⟩
    · split
      · exact Int32.le_refl _
      · rwa [← Int32.not_lt]
    · rintro _ ⟨⟩
      split
      · exact Int32.le_of_lt ‹_›
      · exact Int32.le_refl _

theorem le_foldl_greaterOrder (ws : List WindowInfo) (best : Option Int32) :
    (∀ o ∈ best, ∃ last, ws.foldl greaterOrder best = some last ∧ o ≤ last) ∧
      ∀ w ∈ ws, ∃ last, ws.foldl greaterOrder best = some last ∧ w.order ≤ last := by
  induction ws generalizing best with
  | nil => exact ⟨fun o ho ↦ ⟨o, ho, Int32.le_refl o⟩, by simp⟩
  | cons v ws ih =>
    obtain ⟨o, ho, hvo, hbest⟩ := le_greaterOrder best v
    obtain ⟨last, hlast, hle⟩ := (ih (greaterOrder best v)).1 o ho
    refine ⟨fun b hb ↦ ⟨last, hlast, Int32.le_trans (hbest b hb) hle⟩, fun w hw ↦ ?_⟩
    rcases List.mem_cons.1 hw with rfl | hw
    · exact ⟨last, hlast, Int32.le_trans hvo hle⟩
    · exact (ih (greaterOrder best v)).2 w hw

theorem le_lastOrder? (hw : w ∈ l.windows) (hat : w.isAt pane anchor) :
    ∃ last, l.lastOrder? pane anchor = some last ∧ w.order ≤ last :=
  (le_foldl_greaterOrder _ none).2 w (List.mem_filter.2 ⟨hw, hat⟩)

theorem lt_nextOrder (h : l.nextOrder pane anchor = .ok order) : 0 ≤ order.toInt ∧
    ∀ w ∈ l.windows, w.isAt pane anchor → w.order.toInt < order.toInt := by
  have hzero : (0 : Int32).toInt = 0 := rfl
  unfold nextOrder at h
  cases hlast : l.lastOrder? pane anchor with
  | none =>
    rw [hlast] at h
    cases h
    refine ⟨by decide, fun w hw hat ↦ ?_⟩
    obtain ⟨last, hsome, -⟩ := le_lastOrder? hw hat
    cases hlast.symm.trans hsome
  | some last =>
    rw [hlast] at h
    cases hnext : Checked.add32 last 1 with
    | error f =>
      simp only [hnext] at h
      cases h
    | ok next =>
      simp only [hnext] at h
      have hsucc : last.toInt + 1 = next.toInt := Checked.add32_eq_ok_iff.1 hnext
      obtain rfl : (if next < 0 then 0 else next) = order := by cases h; rfl
      have hraised : 0 ≤ (if next < 0 then 0 else next).toInt ∧
          next.toInt ≤ (if next < 0 then 0 else next).toInt := by
        split
        all_goals
          rename_i hsign
          rw [Int32.lt_iff_toInt_lt, hzero] at hsign
          omega
      refine ⟨hraised.1, fun w hw hat ↦ ?_⟩
      obtain ⟨last', hsome, hle⟩ := le_lastOrder? hw hat
      cases hlast.symm.trans hsome
      rw [Int32.le_iff_toInt_le] at hle
      omega

theorem nextOrder_spec (h : l.nextOrder pane anchor = .ok order) : order ≠ unassignedOrder ∧
    ∀ w ∈ l.windows, w.isAt pane anchor → w.order ≠ order := by
  obtain ⟨hnonneg, hlt⟩ := lt_nextOrder h
  refine ⟨fun heq ↦ ?_, fun w hw hat heq ↦ ?_⟩
  · rw [heq] at hnonneg
    exact absurd hnonneg (by decide)
  · exact absurd (hlt w hw hat) (heq ▸ Int.lt_irrefl _)

/-- Windows are where a plan puts them, with their orders, but for some without an order that got
one. No two share an order unless they do in the plan. -/
structure Numbered (plan l : Layout) : Prop where
  place : ∀ id, l.place? id = plan.place? id ∨
    ∃ slot order, plan.place? id = some (slot, unassignedOrder) ∧ l.place? id = some (slot, order)
  shares : ∀ {i j}, l.SharesOrder i j → plan.SharesOrder i j

theorem SharesOrder.symm (h : l.SharesOrder i j) : l.SharesOrder j i := by
  obtain ⟨hne, a, b, ha, hb, hoa, hob, hslot, horder⟩ := h
  exact ⟨hne.symm, b, a, hb, ha, hob, hoa, hslot.symm, horder.symm⟩

theorem SharesOrder.congr (h : l.SharesOrder i j) (hi : m.place? i = l.place? i)
    (hj : m.place? j = l.place? j) : m.SharesOrder i j := by
  rw [sharesOrder_iff] at h ⊢
  rwa [hi, hj]

namespace Numbered

theorem refl : Numbered l l := ⟨fun _ ↦ Or.inl rfl, id⟩

theorem congr (h : Numbered plan l) (hm : ∀ id, m.place? id = l.place? id) : Numbered plan m where
  place id := hm id ▸ h.place id
  shares hs := h.shares (hs.congr (hm _).symm (hm _).symm)

theorem place?_eq (h : Numbered plan l) (hid : plan.place? id = some (slot, order))
    (horder : order ≠ unassignedOrder) : l.place? id = some (slot, order) := by
  rcases h.place id with heq | ⟨_, _, hplan, -⟩
  · rw [heq, hid]
  · rw [hid] at hplan
    cases hplan
    exact absurd rfl horder

theorem sharesOrder_congr (h : Numbered plan l) : l.SharesOrder i j ↔ plan.SharesOrder i j := by
  refine ⟨h.shares, fun hs ↦ ?_⟩
  rw [Layout.sharesOrder_iff] at hs ⊢
  obtain ⟨hne, slot, order, hi, hj, horder⟩ := hs
  exact ⟨hne, slot, order, h.place?_eq hi horder, h.place?_eq hj horder, horder⟩

theorem put (h : Numbered plan l)
    (hplace : some info.place = plan.place? info.id ∨
      ∃ order, plan.place? info.id = some (info.slot, unassignedOrder) ∧
        info.place = (info.slot, order))
    (hshares : ∀ j, j ≠ info.id → info.order ≠ unassignedOrder →
      l.place? j = some info.place → plan.SharesOrder info.id j) : Numbered plan (l.put info) := by
  have hone : ∀ j, (l.put info).SharesOrder info.id j → plan.SharesOrder info.id j := by
    intro j hs
    obtain ⟨hne, slot, order, hself, hj, horder⟩ := Layout.sharesOrder_iff.1 hs
    rw [place?_put, if_pos rfl] at hself
    rw [place?_put, if_neg hne.symm] at hj
    obtain ⟨rfl, rfl⟩ := Prod.mk.inj (Option.some.inj hself)
    exact hshares j hne.symm horder hj
  refine ⟨fun id ↦ ?_, fun {i j} hs ↦ ?_⟩
  · rw [place?_put]
    split
    case isTrue hid =>
      rw [hid]
      rcases hplace with heq | ⟨order, hplan, hinfo⟩
      · exact Or.inl heq
      · exact Or.inr ⟨info.slot, order, hplan, congrArg some hinfo⟩
    case isFalse => exact h.place id
  · by_cases hi : i = info.id
    · subst hi
      exact hone j hs
    · by_cases hj : j = info.id
      · subst hj
        exact (hone i hs.symm).symm
      · refine h.shares (hs.congr ?_ ?_)
        · rw [place?_put, if_neg hi]
        · rw [place?_put, if_neg hj]

theorem put_planned (h : Numbered plan l) (hinfo : plan.place? info.id = some info.place) :
    Numbered plan (l.put info) := by
  refine h.put (Or.inl hinfo.symm) fun j hne horder hj ↦ ?_
  have hself : l.place? info.id = some info.place := h.place?_eq hinfo horder
  exact h.shares (Layout.sharesOrder_iff.2 ⟨hne.symm, info.slot, info.order, hself, hj, horder⟩)

theorem put_fresh (info : WindowInfo) (h : Numbered plan l)
    (hold : l.place? info.id = some (info.slot, unassignedOrder))
    (hfresh : ∀ j, j ≠ info.id → l.place? j ≠ some info.place) : Numbered plan (l.put info) := by
  refine h.put (Or.inr ⟨info.order, ?_, rfl⟩) fun j hne _ hj ↦ absurd hj (hfresh j hne)
  rcases h.place info.id with heq | ⟨slot, order, hplan, hl⟩
  · rw [← heq, hold]
  · rw [hold] at hl
    cases hl
    exact hplan

end Numbered

end Layout

namespace Engine

variable {plan l : Layout} {start e e' e'' : Engine} {key k : SlotKey} {x y y' : Entry}
  {info new : WindowInfo} {c c' : LayoutChange} {rest : List LayoutChange} {ks : List SlotKey}
  {dirty : Bool} {id : String} {slot : Slot} {anchor : Anchor}

structure KeepsPlaces (e e' : Engine) : Prop where
  idAt? : ∀ k, e'.idAt? k = e.idAt? k
  place? : ∀ id, e'.layout.place? id = e.layout.place? id

namespace KeepsPlaces

theorem of_eq (he : e'.entries = e.entries) (hl : e'.layout = e.layout) : KeepsPlaces e e' :=
  ⟨fun k ↦ by rw [Engine.idAt?, he, Engine.idAt?], fun id ↦ by rw [hl]⟩

theorem refl : KeepsPlaces e e := of_eq rfl rfl

theorem trans (h : KeepsPlaces e e') (h' : KeepsPlaces e' e'') : KeepsPlaces e e'' :=
  ⟨fun k ↦ (h'.idAt? k).trans (h.idAt? k), fun id ↦ (h'.place? id).trans (h.place? id)⟩

theorem contains (h : KeepsPlaces e e') (hid : e.layout.contains id) : e'.layout.contains id := by
  obtain ⟨info, hinfo⟩ := Layout.contains_iff.1 hid
  have hplace := h.place? id
  rw [Layout.place?_of_get? hinfo] at hplace
  obtain ⟨stored, hstored, -⟩ := Option.map_eq_some_iff.1 hplace
  exact Layout.contains_of_get? hstored

end KeepsPlaces

theorem idAt?_exchanged (hy : e.entries.get? key = some y)
    (hex : Exchanged False key y y' l e e') (hid : y'.id = y.id) (k : SlotKey) :
    e'.idAt? k = e.idAt? k := by
  rw [idAt?, hex.get?, idAt?]
  split
  case isTrue hk => rw [hk, hy, Option.map_some, Option.map_some, hid]
  case isFalse => rfl

theorem Redecorates.keepsPlaces (hy : e.entries.get? key = some y)
    (h : Redecorates key y e e') : KeepsPlaces e e' := by
  obtain ⟨y', hex, hst⟩ := h
  exact ⟨idAt?_exchanged hy hex (congrArg Standing.id hst), fun id ↦ by rw [hex.layout]⟩

def Listed (e : Engine) : Prop := ∀ {k id}, e.idAt? k = some id → e.layout.contains id

theorem Listed.keep (h : e.Listed) (hk : KeepsPlaces e e') : e'.Listed := fun hid ↦
  hk.contains (h (hk.idAt? _ ▸ hid))

theorem keepsPlaces_evict (dirty : Bool) (hlisted : e.Listed) (hy : e.entries.get? k = some y) :
    KeepsPlaces e (e.evict dirty k) := by
  have hid : e.idAt? k = some y.id := by rw [idAt?, hy, Option.map_some]
  obtain ⟨stored, hstored⟩ := Layout.contains_iff.1 (hlisted hid)
  have hl : Located e k y stored := ⟨hy, hstored⟩
  obtain ⟨id, heq⟩ := evict_eq dirty (e := e) (k := k)
  rw [heq, hl.registeredInfo_eq]
  have hyr := get?_remembering stored hy
  obtain ⟨off, saved, hoff, -, hex⟩ := exchanged_hidden (D := False) stored dirty .none hyr
    False.elim
  have hremember : KeepsPlaces e (e.remembering stored) :=
    .of_eq (entries_remembering stored) layout_remembering
  have hhidden : KeepsPlaces (e.remembering stored)
      ((e.remembering stored).hidden k stored dirty .none) := by
    refine ⟨idAt?_exchanged hyr hex rfl, fun id ↦ ?_⟩
    rw [hex.layout, Layout.place?_put, layout_remembering]
    split
    case isTrue hoffid =>
      have hsame : off.id = stored.id := by rw [hoff]; rfl
      have hplace : off.place = stored.place := by rw [hoff]; rfl
      rw [hoffid, hsame, Layout.id_of_get? hstored, Layout.place?_of_get? hstored, hplace]
    case isFalse => rfl
  exact (hremember.trans hhidden).trans (.of_eq rfl rfl)

theorem keepsPlaces_foldl_evict (hlisted : e.Listed)
    (hks : ∀ k ∈ ks, ∃ id, e.idAt? k = some id) : KeepsPlaces e (ks.foldl (·.evict dirty ·) e) := by
  induction ks generalizing e with
  | nil => exact .refl
  | cons k ks ih =>
    obtain ⟨id, hid⟩ := hks k (List.mem_cons_self ..)
    obtain ⟨y, hy, -⟩ := Option.map_eq_some_iff.1 hid
    have hevict := keepsPlaces_evict dirty hlisted hy
    refine hevict.trans (ih (hlisted.keep hevict) fun k' hk' ↦ ?_)
    rw [hevict.idAt?]
    exact hks k' (List.mem_cons_of_mem _ hk')

theorem keepsPlaces_evictFor (key : SlotKey) (info : WindowInfo) (dirty : Bool)
    (hlisted : e.Listed) :
    KeepsPlaces e (e.evictFor key info dirty) := by
  unfold evictFor
  split
  · refine keepsPlaces_foldl_evict hlisted fun k hk ↦ ?_
    obtain ⟨-, y, hy, -⟩ := mem_occupants.1 hk
    exact ⟨y.id, by rw [idAt?, hy, Option.map_some]⟩
  · exact .refl

/-- Halfway through a change all windows but its own are numbered after a plan; so are all once the
new placement is stored. -/
structure Filling (plan : Layout) (start : Engine) (new : WindowInfo) (e : Engine) : Prop where
  idAt? : ∀ k, e.idAt? k = start.idAt? k
  listed : e.Listed
  numbered : Layout.Numbered plan (e.layout.put new)

namespace Filling

theorem keep (h : Filling plan start new e) (hk : KeepsPlaces e e') :
    Filling plan start new e' where
  idAt? k := (hk.idAt? k).trans (h.idAt? k)
  listed := Listed.keep h.listed hk
  numbered := h.numbered.congr fun id ↦ by rw [Layout.place?_put, Layout.place?_put, hk.place?]

theorem commit (h : Filling plan start new e) (hy : e.entries.get? key = some y)
    (hn : Layout.Numbered plan ((e.layout.put info).put new)) :
    Filling plan start new (e.commit key info) := by
  have hids := idAt?_exchanged hy (exchanged_commit info hy False.elim) rfl
  refine ⟨fun k ↦ (hids k).trans (h.idAt? k), fun {k id} hid ↦ ?_, hn⟩
  exact Layout.contains_put.2 (Or.inr (h.listed (hids k ▸ hid)))

theorem overwrite (h : Filling plan start new e) (hy : e.entries.get? key = some y)
    (hid : info.id = new.id) : Filling plan start new (e.commit key info) := by
  refine h.commit hy ?_
  rw [Layout.put_put hid]
  exact h.numbered

theorem place_fresh {order : Int32} (h : Filling plan start new e) (hk : KeepsPlaces e e')
    (hy : e'.entries.get? key = some y) (hinfo : e.layout.get? info.id = some info)
    (hslot : info.slot ≠ new.slot) (hid : info.id ≠ new.id) (hnone : info.hasOrder = false)
    (hnext : e.layout.nextOrder info.pane info.anchor = .ok order) :
    Filling plan start new (e'.commit key (info.shownAt order)) := by
  obtain ⟨-, hnew⟩ := Layout.nextOrder_spec hnext
  have hself : (info.shownAt order).id = info.id := rfl
  have hplace : (info.shownAt order).place = (info.slot, order) := rfl
  have hunassigned : info.order = unassignedOrder := by simpa [WindowInfo.hasOrder] using hnone
  have hn := (h.keep hk).numbered.put_fresh (info.shownAt order) ?_ fun j hne hj ↦ ?_
  · refine (h.keep hk).commit hy (hn.congr fun id ↦ ?_)
    simp only [Layout.place?_put, hself]
    by_cases hnewid : id = new.id
    · have hne : ¬ id = info.id := fun heq ↦ hid (heq.symm.trans hnewid)
      rw [if_pos hnewid, if_neg hne, if_pos hnewid]
    · rw [if_neg hnewid, if_neg hnewid]
  · rw [Layout.place?_put, hself, if_neg hid, hk.place?, Layout.place?_of_get? hinfo,
      WindowInfo.place, hunassigned]
    rfl
  · rw [Layout.place?_put, hplace] at hj
    split at hj
    case isTrue =>
      exact hslot (congrArg Prod.fst (Option.some.inj hj)).symm
    case isFalse =>
      rw [hk.place?] at hj
      obtain ⟨w, hw, hwplace⟩ := Option.map_eq_some_iff.1 hj
      obtain ⟨hwslot, hworder⟩ := Prod.mk.inj hwplace
      simp only [WindowInfo.slot, Slot.mk.injEq] at hwslot
      refine hnew w (Layout.mem_of_get? hw) ?_ hworder
      simp [WindowInfo.isAt, hwslot]

theorem showWindow (h : Filling plan start new e)
    (hinfo : info.id = new.id ∨ e.layout.get? info.id = some info ∧ info.slot ≠ new.slot) :
    Ensures (Engine.showWindow key info dirty) e fun _ e' ↦ Filling plan start new e' := by
  refine ensures_showWindow_cases (fun _ ↦ h) fun ha order horder ↦ ?_
  obtain ⟨y, hy, -⟩ := (Option.any_eq_true _ _).1 ha
  have hevict := keepsPlaces_evictFor key (info.shownAt order) dirty h.listed
  generalize e.evictFor key (info.shownAt order) dirty = e₁ at hevict ⊢
  obtain ⟨y₁, hy₁, -⟩ : ∃ y₁, e₁.entries.get? key = some y₁ ∧ y₁.id = y.id := by
    have hid := hevict.idAt? key
    rw [Engine.idAt?, Engine.idAt?, hy, Option.map_some] at hid
    exact Option.map_eq_some_iff.1 hid
  have hcommit : Filling plan start new (e₁.commit key (info.shownAt order)) := by
    by_cases hid : info.id = new.id
    · exact (h.keep hevict).overwrite hy₁ hid
    · obtain ⟨hget, hslot⟩ := hinfo.resolve_left hid
      by_cases ho : info.hasOrder = true
      · rw [if_pos ho] at horder
        have hplace : (info.shownAt order).place = info.place := by rw [horder]; rfl
        refine (h.keep hevict).keep ⟨idAt?_exchanged hy₁ (exchanged_commit _ hy₁ False.elim) rfl,
          fun id ↦ ?_⟩
        change (e₁.layout.put (info.shownAt order)).place? id = _
        rw [Layout.place?_put]
        split
        case isTrue heq =>
          rw [hplace, heq, hevict.place?]
          exact (Layout.place?_of_get? hget).symm
        case isFalse => rfl
      · rw [if_neg ho] at horder
        exact h.place_fresh hevict hy₁ hget hslot hid (by simpa using ho) horder
  have hy₂ := (exchanged_commit (D := False) (info.shownAt order) hy₁ False.elim).get?_self
  refine (ensures_addDecorator_redecorates hy₂).mono fun _ e₂ hre ↦ ?_
  obtain ⟨y₃, hex, -⟩ := id hre
  have hy₃ : (e₂.forgetEvicted info.id).entries.get? key = some y₃ := by
    rw [entries_forgetEvicted]
    exact hex.get?_self
  obtain ⟨b, -, hbutton⟩ := exchanged_ensureStripeButton (D := False) (info.shownAt order) hy₃
    False.elim
  have hforgot : KeepsPlaces e₂ (e₂.forgetEvicted info.id) :=
    .of_eq entries_forgetEvicted layout_forgetEvicted
  have hlast := hforgot.trans (Redecorates.keepsPlaces hy₃ ⟨_, hbutton, rfl⟩)
  exact (hcommit.keep (hre.keepsPlaces hy₂)).keep (hlast.trans (.of_eq rfl rfl))

theorem restoreFrom {stored : List WindowInfo} (h : Filling plan start new e)
    (hslot : slot.split ≠ new.split) :
    Ensures (Engine.restoreFrom anchor slot dirty stored) e
      fun _ e' ↦ Filling plan start new e' := by
  induction stored generalizing e with
  | nil => exact ensures_pure.2 h
  | cons stored rest ih =>
    simp only [Engine.restoreFrom, ensures_bind, ensures_modify, ensures_ite, ensures_get]
    have hpopped : Filling plan start new { e with sideStack := e.sideStack.set anchor rest } :=
      h.keep (.of_eq rfl rfl)
    generalize ({ e with sideStack := e.sideStack.set anchor rest } : Engine) = e₁ at hpopped ⊢
    refine ⟨fun _ ↦ ih hpopped, fun hplace ↦ ?_⟩
    cases hkey : e₁.keyOf? stored.id with
    | none => exact ih hpopped
    | some key =>
      obtain ⟨y, hy, -⟩ := get?_of_keyOf? hkey
      have hid : e₁.idAt? key = some y.id := by rw [Engine.idAt?, hy, Option.map_some]
      obtain ⟨current, hcurrent⟩ := Layout.contains_iff.1 (hpopped.listed hid)
      have hl : Located e₁ key y current := ⟨hy, hcurrent⟩
      simp only [ensures_bind, ensures_get, ensures_ite, ensures_takeInfo, ensures_pure,
        hl.registeredInfo_eq]
      refine ⟨fun _ ↦ ih hpopped, fun _ ↦ ⟨fun _ ↦ ih hpopped, fun hwhere ↦ ?_⟩⟩
      -- what comes back is in the slot that was left, so beside the window itself
      have hsplit : current.split = slot.split := by
        simp only [isWhereEvicted, WindowInfo.slot] at hwhere
        grind
      have hother : current.slot ≠ new.slot := fun heq ↦
        hslot (hsplit.symm.trans (congrArg Slot.split heq))
      rw [← Layout.id_of_get? hcurrent] at hcurrent
      refine (hpopped.showWindow (Or.inr ⟨hcurrent, hother⟩)).mono fun _ e₂ h₂ ↦ ?_
      exact ⟨fun _ ↦ h₂, fun _ ↦ ih h₂⟩

theorem hideWindow (h : Filling plan start new e) (hy : e.entries.get? key = some y)
    (hid : info.id = new.id) (hsplit : info.split ≠ new.split) :
    Ensures (Engine.hideWindow key info dirty false .none) e
      fun _ e' ↦ Filling plan start new e' := by
  obtain ⟨off, saved, hoff, hsaved, hex⟩ := exchanged_hidden (D := False) info dirty .none hy
    False.elim
  have hoffid : off.id = info.id := by rw [hoff]; rfl
  have hoffslot : off.slot = info.slot := by rw [hoff]; rfl
  have hhidden : Filling plan start new (e.hidden key info dirty .none) := by
    refine ⟨fun k ↦ (idAt?_exchanged hy hex rfl k).trans (h.idAt? k), fun {k id} hk ↦ ?_, ?_⟩
    · rw [idAt?_exchanged hy hex rfl] at hk
      rw [hex.layout]
      exact Layout.contains_put.2 (Or.inr (h.listed hk))
    · rw [hex.layout, Layout.put_put (hoffid.trans hid)]
      exact h.numbered
  refine ensures_hideWindow rfl hsaved (fun _ ↦ ?_) fun _ ↦ hhidden
  simp only [restoreEvicted, ensures_bind, ensures_get]
  refine hhidden.restoreFrom fun heq ↦ hsplit ?_
  rw [← heq, hoffslot]
  rfl

end Filling

/-- Between changes all windows are numbered after a plan, and the changes still to come put
windows where the plan does. -/
structure Tallied (plan : Layout) (start : Engine) (rest : List LayoutChange) (e : Engine) :
    Prop where
  idAt? : ∀ k, e.idAt? k = start.idAt? k
  listed : e.Listed
  numbered : Layout.Numbered plan e.layout
  pending : ∀ c ∈ rest, start.idAt? c.key = some c.new.id ∧ c.old.id = c.new.id ∧
    plan.place? c.new.id = some c.new.place

theorem Tallied.step (h : Tallied plan start (c :: rest) e) :
    Ensures (applyChange c) e fun _ e' ↦ Tallied plan start rest e' := by
  obtain ⟨hkey, hold, hplace⟩ := h.pending c (List.mem_cons_self ..)
  have hkey' := (h.idAt? c.key).trans hkey
  obtain ⟨y, hy, -⟩ := Option.map_eq_some_iff.1 hkey'
  have hstart : Filling plan start c.new e :=
    ⟨h.idAt?, h.listed, h.numbered.put_planned hplace⟩
  -- the new placement goes where it was expected, whatever was captured in it
  have hfinish : ∀ c' e₂, Captures e.host y c c' → Filling plan start c.new e₂ →
      Finishes c' (fun _ e' ↦ Tallied plan start rest e') e₂ := by
    intro c' e₂ hcap h₂
    obtain ⟨saved, hsaved⟩ := hcap.new
    have hid₂ := (h₂.idAt? c.key).trans hkey
    obtain ⟨y₂, hy₂, -⟩ := Option.map_eq_some_iff.1 hid₂
    refine ⟨y₂, hcap.key ▸ hy₂, fun e₃ hre ↦ ?_⟩
    rw [hcap.key] at hre ⊢
    have h₃ := h₂.keep (hre.keepsPlaces hy₂)
    obtain ⟨y₃, hex, -⟩ := id hre
    have hids :=
      idAt?_exchanged hex.get?_self (exchanged_commit c'.new hex.get?_self False.elim) rfl
    refine ⟨fun k ↦ (hids k).trans (h₃.idAt? k), fun {k id} hk ↦ ?_, ?_,
      fun d hd ↦ h.pending d (List.mem_cons_of_mem _ hd)⟩
    · exact Layout.contains_put.2 (Or.inr (h₃.listed (hids k ▸ hk)))
    · refine h₃.numbered.congr fun id ↦ ?_
      change (e₃.layout.put c'.new).place? id = _
      rw [Layout.place?_put, Layout.place?_put, hsaved]
      rfl
  refine ensures_applyChange hy (fun hm e₁ hre ↦ ?_) (fun _ hs c' e₁ hcap hre ↦ ?_)
    fun _ _ c' e₁ hcap hre ↦ hfinish c' e₁ hcap (hstart.keep (hre.keepsPlaces hy))
  · exact ((hstart.keep (hre.keepsPlaces hy)).showWindow (Or.inl rfl)).mono
      fun _ e₂ h₂ ↦ hfinish c e₂ (.of_movesSlot hm) h₂
  · obtain ⟨y₁, hex, -⟩ := id hre
    refine ((hstart.keep (hre.keepsPlaces hy)).hideWindow hex.get?_self hold ?_).mono
      fun _ e₂ h₂ ↦ hfinish c' e₂ hcap h₂
    simp only [LayoutChange.changesSplit, Bool.and_eq_true, bne_iff_ne] at hs
    exact hs.1.1.1

theorem tallied_foretold (h : e.Identified) : Tallied (e.completed l) e (e.liveChanges l)
    ((e.replaceLayout (e.completed l)).foretold (e.planned l)) := by
  obtain ⟨entries, heq, -⟩ := foretold_replaceLayout (e := e) (e.completed l) (e.planned l)
  have hlayout : ((e.replaceLayout (e.completed l)).foretold (e.planned l)).layout =
      e.completed l := by rw [heq]
  have hids : ∀ k, ((e.replaceLayout (e.completed l)).foretold (e.planned l)).idAt? k =
      e.idAt? k := by
    intro k
    rw [idAt?, get?_foretold, Option.map_map]
    rfl
  refine ⟨hids, fun {k id} hk ↦ ?_, by rw [hlayout]; exact .refl, fun c hc ↦ ?_⟩
  · rw [hids] at hk
    obtain ⟨x, hx, rfl⟩ := Option.map_eq_some_iff.1 hk
    rw [hlayout]
    exact Layout.contains_of_get? (h.get?_completed hx)
  · obtain ⟨x, hx, -, -, hnew, holdid, hnewid⟩ := h.of_mem_liveChanges hc
    refine ⟨by rw [idAt?, hx, Option.map_some, hnewid], holdid.trans hnewid.symm, ?_⟩
    rw [hnewid, Layout.place?_of_get? (h.get?_completed hx), hnew]

theorem ensures_setLayout_numbered (h : e.Identified) (hnone : orderConflict? l = none) :
    Ensures (setLayout l).run e fun _ e' ↦ Layout.Numbered (e.completed l) e'.layout := by
  refine (ensures_setLayout_planned hnone (fun _ _ _ h ↦ h.step) (tallied_foretold h)).mono ?_
  intro res e' hq
  rcases hq with ⟨-, e₁, h₁, hlast⟩
  rw [hlast.sameWindows.2]
  exact h₁.numbered

theorem Identified.place?_completed (h : e.Identified) (hid : l.get? id = some info) :
    (e.completed l).place? id = some info.place := by
  by_cases hx : ∃ key x, e.entries.get? key = some x ∧ x.id = id
  · obtain ⟨key, x, hx, rfl⟩ := hx
    have hplaced : e.placementIn l x = info := by rw [placementIn, hid, Option.getD_some]
    obtain ⟨hslot, horder, -⟩ := settled_eq (e := e) (l := l) (x := x)
    rw [Layout.place?_of_get? (h.get?_completed hx), WindowInfo.place, hslot, horder, hplaced]
    rfl
  · refine Layout.place?_of_get? ?_
    rw [(planLayout_of_identified h).2.2 id fun hy heq ↦ hx ⟨_, _, hy, heq⟩, hid]

theorem apart_setLayout (h : CoherentCore e) (hapart : e.Apart l)
    (hsettles : e.Settles l) (hnone : orderConflict? l = none) :
    Ensures (setLayout l).run e fun _ e' ↦ ∀ k k' x x', e.entries.get? k = some x →
      e.entries.get? k' = some x' → ¬ e'.layout.SharesSlot x.id x'.id := by
  refine (ensures_setLayout_seated h hnone hapart hsettles).mono ?_
  intro res e' hq k k' x x' hx hx' hshares
  rcases hq with ⟨-, e₁, hseated, hlast⟩
  obtain ⟨hne, a, b, ha, hb, hoa, hob, hslot⟩ := hshares
  rw [hlast.sameWindows.2] at ha hb
  obtain ⟨-, stored, -, -, hstored, -, hcore⟩ := hseated.entry hx
  obtain ⟨-, stored', -, -, hstored', -, hcore'⟩ := hseated.entry hx'
  cases ha.symm.trans hstored
  cases hb.symm.trans hstored'
  refine hapart k k' x x' hx hx' ⟨hne, _, _, h.identified.get?_completed hx,
    h.identified.get?_completed hx', ?_, ?_, ?_⟩
  · rwa [← WindowInfo.occupiesSlot_of_core hcore]
  · rwa [← WindowInfo.occupiesSlot_of_core hcore']
  · rw [← WindowInfo.slot_of_core hcore, ← WindowInfo.slot_of_core hcore', hslot]

/-- A layout that is put in place gives an order in a slot twice just if it does once it is
completed. Then one of the two windows has a placement that was filled in. Without evicted windows
that could come back, no two registered windows share a slot unless they do in the completed
layout. -/
theorem shares_setLayout (h : e.Identified) (hrun : (setLayout l).run e = .ok (.ok ()) e') :
    (∀ i j, e'.layout.SharesOrder i j ↔ (e.completed l).SharesOrder i j) ∧
      (∀ i j, e'.layout.SharesOrder i j → ¬ (l.contains i ∧ l.contains j)) ∧
      (CoherentCore e → e.Settles l → e.Apart l → ∀ k k' x x', e.entries.get? k = some x →
        e.entries.get? k' = some x' → ¬ e'.layout.SharesSlot x.id x'.id) := by
  have hnone : orderConflict? l = none := by
    cases hconflict : orderConflict? l with
    | none => rfl
    | some error =>
      unfold setLayout at hrun
      rw [hconflict] at hrun
      cases hrun
  have hnumbered : Layout.Numbered (e.completed l) e'.layout :=
    ensures_setLayout_numbered h hnone hrun
  refine ⟨fun i j ↦ hnumbered.sharesOrder_congr, fun i j hshares hboth ↦ ?_,
    fun hcoherent hsettles hapart ↦ apart_setLayout hcoherent hapart hsettles hnone hrun⟩
  obtain ⟨a, ha⟩ := Layout.contains_iff.1 hboth.1
  obtain ⟨b, hb⟩ := Layout.contains_iff.1 hboth.2
  refine Layout.orderConflict?_eq_none_iff.1 hnone i j ((hnumbered.shares hshares).congr ?_ ?_)
  · rw [h.place?_completed ha, Layout.place?_of_get? ha]
  · rw [h.place?_completed hb, Layout.place?_of_get? hb]

def secondLayout : Layout := .ofList [{ WindowInfo.new "A" .left with order := 1 }]

/-- The second window is filled in where it was, and the two share an order. -/
theorem sharesOrder_secondLayout : ∃ e e', Session Request.Fits blank e ∧
    e.layout.violations = [] ∧ e.defaultLayout.violations = [] ∧ secondLayout.violations = [] ∧
      (setLayout secondLayout).run e = .ok (.ok ()) e' ∧ e'.layout.SharesOrder "A" "B" := by
  obtain ⟨e₁, e₂, hrun₁, hknown, hrun₂, hlayout, hdefault, hfirst, hsecond, haccepts⟩ : ∃ e₁ e₂,
      (Request.register (hiddenRequest "A")).run.run blank = .ok (.ok ()) e₁ ∧
      known? (hiddenRequest "B") e₁.layout = none ∧
      (Request.register (hiddenRequest "B")).run.run e₁ = .ok (.ok ()) e₂ ∧
      e₂.layout.violations = [] ∧ e₂.defaultLayout.violations = [] ∧
      (e₂.completed secondLayout).place? "A" = some (⟨defaultPane, .left, false⟩, 1) ∧
      (e₂.completed secondLayout).place? "B" = some (⟨defaultPane, .left, false⟩, 1) ∧
      e₂.accepts (setLayout secondLayout) :=
    ⟨_, _, rfl, rfl, rfl, by decide +kernel, by decide +kernel, by decide +kernel,
      by decide +kernel, by decide +kernel⟩
  obtain ⟨e', hrun⟩ := exists_run_of_accepts haccepts
  have hsession : Session Request.Fits blank e₂ := by
    refine .step (.step .start ?_ hrun₁) ?_ hrun₂
    · exact ⟨fun _ h ↦ (nomatch h), fun _ h ↦ (nomatch h)⟩
    · exact ⟨fun _ h ↦ (nomatch hknown.symm.trans h), fun _ h ↦ (nomatch hknown.symm.trans h)⟩
  have hidentified := (hsession.coherent (coherentOn_of_empty rfl)).identified
  refine ⟨e₂, e', hsession, hlayout, hdefault, by decide, hrun, ?_⟩
  refine ((shares_setLayout hidentified hrun).1 "A" "B").2 (Layout.sharesOrder_iff.2 ?_)
  exact ⟨by decide, _, _, hfirst, hsecond, by decide⟩

end Engine

end ToolDock

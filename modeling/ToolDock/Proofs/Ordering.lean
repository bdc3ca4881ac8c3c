import ToolDock.Proofs.Courses
import ToolDock.Proofs.Renumbering

/-!
Orders are unique in every slot, whatever is asked for, as long as no window goes to the other slot
of its anchor under an order that is taken there: of all requests, only that one changes the slot of
a window without renumbering. Main statement: `orders_unique_run_iff`.
-/

namespace ToolDock

namespace Layout

variable {l m n l' : Layout} {info : WindowInfo} {id i j : String} {split : Bool}

structure Tidies (l m : Layout) : Prop where
  size : l.size ≤ m.size
  shares : m.size ≤ Int32.size → ∀ {i j}, m.SharesOrder i j → l.SharesOrder i j

/-- Windows keep their orders, and those that get one get one that nobody else on the stripe has. -/
structure Fills (l m : Layout) : Prop where
  place : ∀ {id slot order}, order ≠ unassignedOrder → l.place? id = some (slot, order) →
    m.place? id = some (slot, order)
  apart : ∀ {i j s t order}, i ≠ j → order ≠ unassignedOrder → s.pane = t.pane →
    s.anchor = t.anchor → m.place? i = some (s, order) → m.place? j = some (t, order) →
      l.place? i = some (s, order) ∧ l.place? j = some (t, order)

/-- Whether a window has an order that another one has in the slot beside, the one with the flag
`split`. -/
def crowds (l : Layout) (id : String) (split : Bool) : Bool :=
  (l.get? id).any fun info ↦ info.hasOrder && info.split != split && l.windows.any fun w ↦
    w.id != id && w.slot == { info.slot with split := split } && w.order == info.order

theorem crowds_iff : l.crowds id split ↔ ∃ slot order j, j ≠ id ∧ order ≠ unassignedOrder ∧
    slot.split ≠ split ∧ l.place? id = some (slot, order) ∧
      l.place? j = some ({ slot with split := split }, order) := by
  simp only [crowds, Option.any_eq_true, List.any_eq_true, Bool.and_eq_true, bne_iff_ne,
    beq_iff_eq, WindowInfo.hasOrder, place?, Option.map_eq_some_iff]
  constructor
  · intro hq
    rcases hq with ⟨info, hinfo, ⟨ho, hs⟩, w, hw, ⟨hne, hslot⟩, horder⟩
    refine ⟨info.slot, info.order, w.id, hne, ho, hs, ⟨info, hinfo, rfl⟩, w, get?_of_mem hw, ?_⟩
    rw [WindowInfo.place, hslot, horder]
  · intro hq
    rcases hq with ⟨slot, order, j, hne, ho, hs, ⟨info, hinfo, hplace⟩, w, hw, hplace'⟩
    obtain ⟨rfl, rfl⟩ := Prod.mk.inj hplace
    obtain ⟨hslot, horder⟩ := Prod.mk.inj hplace'
    have hwid : w.id ≠ id := by rwa [id_of_get? hw]
    exact ⟨info, hinfo, ⟨ho, hs⟩, w, mem_of_get? hw, ⟨hwid, hslot⟩, horder⟩

theorem size_put : l.size ≤ (l.put info).size := by
  have hids := congrArg List.length (ids_put l info)
  rw [ids, List.length_map] at hids
  rw [size, size, hids]
  split <;> simp [ids]

theorem sharesOrder_put (hfresh : ∀ j, j ≠ info.id → info.order ≠ unassignedOrder →
      l.place? j ≠ some info.place) (h : (l.put info).SharesOrder i j) :
    i ≠ info.id ∧ j ≠ info.id ∧ l.SharesOrder i j := by
  have hself : ∀ {j}, ¬ (l.put info).SharesOrder info.id j := by
    intro j hs
    obtain ⟨hne, slot, order, hi, hj, ho⟩ := sharesOrder_iff.1 hs
    rw [place?_put, if_pos rfl] at hi
    rw [place?_put, if_neg hne.symm] at hj
    obtain ⟨rfl, rfl⟩ := Prod.mk.inj (Option.some.inj hi)
    exact hfresh j hne.symm ho hj
  have hi : i ≠ info.id := by
    rintro rfl
    exact hself h
  have hj : j ≠ info.id := by
    rintro rfl
    exact hself h.symm
  exact ⟨hi, hj, h.congr (by rw [place?_put, if_neg hi]) (by rw [place?_put, if_neg hj])⟩

theorem tidies_put (hfresh : ∀ j, j ≠ info.id → info.order ≠ unassignedOrder →
    l.place? j ≠ some info.place) : Tidies l (l.put info) :=
  ⟨size_put, fun _ _ _ h ↦ (sharesOrder_put hfresh h).2.2⟩

namespace Tidies

theorem of_windows (h : m.windows = l.windows) : Tidies l m :=
  ⟨by rw [Layout.size, Layout.size, h], fun _ _ _ hs ↦
    hs.congr (place?_congr h _).symm (place?_congr h _).symm⟩

theorem trans (h : Tidies l m) (h' : Tidies m n) : Tidies l n :=
  ⟨h.size.trans h'.size, fun hsize _ _ hs ↦ h.shares (h'.size.trans hsize) (h'.shares hsize hs)⟩

end Tidies

theorem permissive_tidies : Permissive Tidies where
  keep {l info} h := by
    refine ⟨size_put, fun _ _ _ hs ↦ hs.congr ?_ ?_⟩
    · exact (samePlaces_put h _).symm
    · exact (samePlaces_put h _).symm
  join _ ho := tidies_put fun _ _ hassigned ↦ absurd ho hassigned
  fill {l info} _ hfree := tidies_put fun j _ _ hj ↦ hfree.2 j info.slot rfl rfl hj
  drop ho := tidies_put fun _ _ hassigned ↦ absurd ho hassigned
  move {l l' changed pane anchor order} info split hget hset := by
    have hcur : (l.put { info with split := split }).get? info.id =
        some { info with split := split } := by
      rw [get?_put]
      exact if_pos rfl
    have hsize := size_setAnchor hcur hset
    refine ⟨size_put.trans hsize.ge, fun hbound i j hs ↦ ?_⟩
    obtain ⟨hi, hj, hshares⟩ := sharesOrder_setAnchor hcur hset (hsize ▸ hbound) hs
    exact hshares.congr (by rw [place?_put]; exact (if_neg hi).symm)
      (by rw [place?_put]; exact (if_neg hj).symm)

namespace Fills

theorem of_samePlaces (h : l.SamePlaces m) : Fills l m :=
  ⟨fun _ hl ↦ (h _).trans hl, fun _ _ _ _ hi hj ↦ ⟨(h _).symm.trans hi, (h _).symm.trans hj⟩⟩

theorem trans (h : Fills l m) (h' : Fills m n) : Fills l n where
  place ho hl := h'.place ho (h.place ho hl)
  apart hne ho hp ha hi hj := by
    obtain ⟨hi, hj⟩ := h'.apart hne ho hp ha hi hj
    exact h.apart hne ho hp ha hi hj

theorem sharesOrder_iff (h : Fills l m) : m.SharesOrder i j ↔ l.SharesOrder i j := by
  rw [Layout.sharesOrder_iff, Layout.sharesOrder_iff]
  refine and_congr_right fun hne ↦ exists_congr fun slot ↦ exists_congr fun order ↦ ⟨?_, ?_⟩
  · intro hq
    obtain ⟨hi, hj, ho⟩ := hq
    obtain ⟨hi, hj⟩ := h.apart hne ho rfl rfl hi hj
    exact ⟨hi, hj, ho⟩
  · intro hq
    obtain ⟨hi, hj, ho⟩ := hq
    exact ⟨h.place ho hi, h.place ho hj, ho⟩

theorem put (hold : ∀ slot order, l.place? info.id = some (slot, order) → order = unassignedOrder)
    (hfresh : info.order ≠ unassignedOrder → l.IsFree info.pane info.anchor info.order) :
    Fills l (l.put info) where
  place {id slot order} ho hl := by
    rw [place?_put, if_neg]
    · exact hl
    · rintro rfl
      exact ho (hold slot order hl)
  apart {i j s t order} hne ho hp ha hi hj := by
    -- whoever is on the stripe of the window with its order was there before
    have hself : ∀ {k u}, k ≠ info.id → info.slot.pane = u.pane → info.slot.anchor = u.anchor →
        info.order ≠ unassignedOrder → (l.put info).place? k ≠ some (u, info.order) := by
      intro k u hk hpane hanchor hassigned hu
      rw [place?_put, if_neg hk] at hu
      exact (hfresh hassigned).2 k u hpane.symm hanchor.symm hu
    by_cases hid : i = info.id
    · subst hid
      have hplace := hi
      rw [place?_put, if_pos rfl] at hplace
      obtain ⟨rfl, rfl⟩ := Prod.mk.inj (Option.some.inj hplace)
      exact absurd hj (hself hne.symm hp ha ho)
    · by_cases hjd : j = info.id
      · subst hjd
        have hplace := hj
        rw [place?_put, if_pos rfl] at hplace
        obtain ⟨rfl, rfl⟩ := Prod.mk.inj (Option.some.inj hplace)
        exact absurd hi (hself hne hp.symm ha.symm ho)
      · rw [place?_put, if_neg hid] at hi
        rw [place?_put, if_neg hjd] at hj
        exact ⟨hi, hj⟩

end Fills

theorem lenient_fills : Lenient Fills where
  keep h := .of_samePlaces (samePlaces_put h)
  join {l info} hnew ho := by
    refine .put (fun slot order hl ↦ ?_) fun hassigned ↦ absurd ho hassigned
    obtain ⟨w, hw, -⟩ := Option.map_eq_some_iff.1 hl
    rw [contains_of_get? hw] at hnew
    cases hnew
  fill {l info} hold hfree := by
    refine .put (fun slot order hl ↦ ?_) fun _ ↦ hfree
    rw [hold] at hl
    cases hl
    rfl

theorem sharesOrder_resplit (hnone : ∀ i j, ¬ l.SharesOrder i j) (h : Fills l m)
    (hinfo : m.get? id = some info) (h' : Fills (m.put { info with split := split }) n) :
    (∃ i j, n.SharesOrder i j) ↔ l.crowds id split := by
  have hid : info.id = id := id_of_get? hinfo
  have hself : (m.put { info with split := split }).place? id =
      some ({ info.slot with split := split }, info.order) := by
    rw [place?_put]
    exact if_pos hid.symm
  have hothers : ∀ {k}, k ≠ id → (m.put { info with split := split }).place? k = m.place? k := by
    intro k hk
    rw [place?_put]
    exact if_neg fun heq ↦ hk (heq.trans hid)
  have hplace : m.place? id = some (info.slot, info.order) := place?_of_get? hinfo
  rw [crowds_iff]
  constructor
  · intro hq
    obtain ⟨i, j, hs⟩ := hq
    -- the window itself is one of the two, as nobody shared an order before
    have hmoved : ∀ {j}, (m.put { info with split := split }).SharesOrder id j → ∃ slot order j,
        j ≠ id ∧ order ≠ unassignedOrder ∧ slot.split ≠ split ∧ l.place? id = some (slot, order) ∧
          l.place? j = some ({ slot with split := split }, order) := by
      intro j hs
      obtain ⟨hne, slot, order, hi, hj, ho⟩ := Layout.sharesOrder_iff.1 hs
      rw [hself] at hi
      obtain ⟨rfl, rfl⟩ := Prod.mk.inj (Option.some.inj hi)
      rw [hothers hne.symm] at hj
      obtain ⟨hli, hlj⟩ := h.apart (s := info.slot) (t := { info.slot with split := split })
        hne ho rfl rfl hplace hj
      refine ⟨info.slot, info.order, j, hne.symm, ho, fun hsplit ↦ ?_, hli, hlj⟩
      refine hnone id j (Layout.sharesOrder_iff.2 ⟨hne, _, _, hli, ?_, ho⟩)
      rw [hlj, ← hsplit]
    have hs := h'.sharesOrder_iff.1 hs
    by_cases hi : i = id
    · subst hi
      exact hmoved hs
    · by_cases hj : j = id
      · subst hj
        exact hmoved hs.symm
      · have hbefore := hs.congr (hothers hi).symm (hothers hj).symm
        exact absurd (h.sharesOrder_iff.1 hbefore) (hnone i j)
  · intro hq
    obtain ⟨slot, order, j, hne, ho, -, hli, hlj⟩ := hq
    rw [h.place ho hli] at hplace
    obtain ⟨rfl, rfl⟩ := Prod.mk.inj (Option.some.inj hplace)
    refine ⟨id, j, h'.sharesOrder_iff.2 (Layout.sharesOrder_iff.2 ⟨hne.symm, _, _, hself, ?_, ho⟩)⟩
    rw [hothers hne]
    exact h.place ho hlj

end Layout

namespace Engine

variable {e e' : Engine} {key : SlotKey} {x : Entry} {info : WindowInfo} {id : String}
  {split button : Bool} {r : RegisterRequest} {l : Layout} {request : Request}
  {result : Except EngineError Unit}

theorem place?_ne_of_orderOwner? (h : orderOwner? l info = none) (j : String) (hne : j ≠ info.id)
    (ho : info.order ≠ unassignedOrder) : l.place? j ≠ some info.place := by
  intro hj
  obtain ⟨w, hw, hplace⟩ := Option.map_eq_some_iff.1 hj
  obtain ⟨hslot, horder⟩ := Prod.mk.inj hplace
  have hassigned : info.hasOrder = true := by simpa [WindowInfo.hasOrder] using ho
  rw [orderOwner?, if_pos hassigned, Option.map_eq_none_iff, List.find?_eq_none] at h
  refine h w ?_ ?_
  · rw [Layout.bucket, List.mem_mergeSort, List.mem_filter]
    exact ⟨Layout.mem_of_get? hw, by simp [hslot]⟩
  · simp [Layout.id_of_get? hw, hne, horder]

theorem Intake.tidies (h : Intake r e.layout info button l) : Layout.Tidies e.layout l := by
  cases h with
  | brought _ hfree => exact Layout.tidies_put (place?_ne_of_orderOwner? hfree)
  | known | draft => exact .of_windows rfl
  | fresh _ _ horder =>
    exact Layout.tidies_put fun j _ _ hj ↦ (Layout.isFree_nextOrder horder).2 j _ rfl rfl hj

theorem tidies_register (hd : Drafted e) :
    Ensures (register r).run e fun _ e' ↦ Layout.Tidies e.layout e'.layout := by
  refine ensures_register_admitted (fun _ ↦ .of_windows rfl) fun _ info button l h ↦ ?_
  refine (steps_settle Layout.permissive_tidies.toLenient hd h).mono fun _ e' hq ↦ ?_
  have hsteps := hq.2.layout .of_windows .trans
  rw [layout_admitted] at hsteps
  exact h.tidies.trans hsteps

theorem tidies_unregister (hd : Drafted e) : Layout.Tidies e.layout (e.unregister id).layout := by
  cases hkey : e.keyOf? id with
  | none =>
    rw [unregister_of_none hkey]
    exact .of_windows rfl
  | some key =>
    obtain ⟨x, hx, hname⟩ := get?_of_keyOf? hkey
    rw [unregister_eq hkey]
    exact (steps_stripped Layout.permissive_tidies.toStable hd hx hname).layout .of_windows .trans

theorem tidies_run (hd : Drafted e) (hrun : request.run.run e = .ok result e')
    (hstays : ∀ id split, request ≠ .setSideTool id split) :
    Layout.Tidies e.layout e'.layout := by
  by_cases hregister : ∃ r, request = .register r
  · obtain ⟨r, rfl⟩ := hregister
    exact tidies_register hd hrun
  by_cases hunregister : ∃ id, request = .unregister id
  · obtain ⟨id, rfl⟩ := hunregister
    have hok : Ensures (Request.unregister id).run.run e fun _ e' ↦
        Layout.Tidies e.layout e'.layout := ensures_run_modify.2 (tidies_unregister hd)
    exact hok hrun
  · have hsteps := steps_run Layout.permissive_tidies hd
      (fun id split heq ↦ absurd heq (hstays id split)) (fun r h ↦ hregister ⟨r, h⟩)
      (fun id h ↦ hunregister ⟨id, h⟩) hrun
    exact hsteps.layout .of_windows .trans

/-- Whether a request takes a window to the other slot of its anchor, where its order is taken. -/
def Request.crowds (e : Engine) : Request → Bool
  | setSideTool id split => (e.entry? id).any fun x ↦ e.layout.crowds x.id split
  | _ => false

/-- The other slot is for the window of an id, in one layout on the way. -/
def Resplit (id : String) (split : Bool) (e e' : Engine) : Prop :=
  ∃ info, e.layout.get? id = some info ∧
    (e.layout.put { info with split := split }).SamePlaces e'.layout

theorem resplit_changeSplit (hd : Drafted e) (hl : e.Lists key id) :
    Ensures (changeSplit key split) e fun _ e' ↦
      Resplit id split e e' ∧ Drafted e' ∧ ∃ y, e'.entries.get? key = some y := by
  obtain ⟨x, info, hloc, rfl⟩ := hl.located
  simp only [changeSplit, ensures_bind, ensures_modify, ensures_takeInfo, hloc.registeredInfo_eq]
  have hid := Layout.id_of_get? hloc.placement
  have hstored : FreeSteps e (e.storeInfo { info with split := split }) :=
    steps_storeInfo hloc.lists trivial
  have hlabelled : Steps Layout.SamePlaces (e.storeInfo { info with split := split })
      ((e.storeInfo { info with split := split }).relabelEntry { info with split := split } key) :=
    steps_relabelEntry (e := e.storeInfo { info with split := split }) hloc.entry
      (Layout.contains_put.2 (Or.inl hid.symm)) (Or.inl hid)
  exact ⟨⟨info, hloc.placement, hlabelled.samePlaces⟩, (hd.steps hstored).steps hlabelled,
    (hlabelled.keepsNames hloc.entry).imp fun _ hy ↦ hy.1⟩

theorem sharesOrder_setSideTool (hd : Drafted e) (hnone : ∀ i j, ¬ e.layout.SharesOrder i j) :
    Ensures (setSideTool id split).run e fun _ e' ↦
      ((∃ i j, e'.layout.SharesOrder i j) ↔ (Request.setSideTool id split).crowds e) := by
  have hclear : ¬ ∃ i j, e.layout.SharesOrder i j := fun ⟨i, j, hs⟩ ↦ hnone i j hs
  simp only [setSideTool, ensures_keyOf_bind, ensures_run_ite, ensures_run_pure,
    ensures_run_lift_bind, ensures_run_modify, ensures_takeInfo]
  refine ⟨fun key hkey ↦ ?_, fun hkey ↦ iff_of_false hclear ?_⟩
  · obtain ⟨x, hx, -⟩ := get?_of_keyOf? hkey
    have hcrowds : (Request.setSideTool id split).crowds e = e.layout.crowds x.id split := by
      rw [Request.crowds, entry?, hkey, Option.bind_some, hx, Option.any_some]
    have hsteps := steps_registeredInfo Layout.lenient_fills hd hx
    have hl := located_registeredInfo hd hx
    rw [hcrowds]
    generalize e.registeredInfo key = taken at hsteps hl ⊢
    obtain ⟨info, e₁⟩ := taken
    have hid : info.id = x.id := Layout.id_of_get? hl.placement
    have hfills : ∀ {e e' : Engine}, Steps Layout.Fills e e' → Layout.Fills e.layout e'.layout :=
      fun h ↦ h.layout (fun hw ↦ .of_samePlaces (Layout.place?_congr hw)) .trans
    refine ⟨fun _ ↦ ?_, fun hsame ↦ ?_⟩
    · refine ((toggleRule_advances Layout.lenient_fills).whileHidden_via (C := Resplit x.id split)
        ⟨hd.steps hsteps, .refl⟩ hl fun e₂ h₂ ↦ ?_).mono ?_
      · exact (resplit_changeSplit (h₂.1.steps h₂.2) (hl.lists.steps h₂.2)).mono fun _ _ h ↦
          ⟨hid ▸ h.1, ⟨h.2.1, .refl⟩, h.2.2⟩
      · intro _ e' hq
        rcases hq with ⟨e₂, e₃, h₂, ⟨moved, hmoved, hplaces⟩, h₃⟩
        exact Layout.sharesOrder_resplit hnone (hfills (hsteps.trans h₂.2)) hmoved
          ((Layout.Fills.of_samePlaces hplaces).trans (hfills (h₃.2.idle .fire)))
    · have hkept := hfills hsteps
      refine iff_of_false (by simpa only [hkept.sharesOrder_iff] using hclear) fun hc ↦ ?_
      obtain ⟨slot, order, -, -, ho, hslot, hplace, -⟩ := Layout.crowds_iff.1 hc
      have hplace' := (Layout.place?_of_get? hl.placement).symm.trans (hkept.place ho hplace)
      obtain ⟨rfl, -⟩ := Prod.mk.inj (Option.some.inj hplace')
      simp only [bne_iff_ne, ne_eq, not_not] at hsame
      exact hslot hsame
  · rw [Request.crowds, entry?, hkey]
    exact Bool.false_ne_true

/-- Of a layout in which every order is unique in its slot, a request makes one in which some order
is not just if it crowds a slot. -/
theorem Drafted.orderConflict?_run (hd : Drafted e) (hnone : orderConflict? e.layout = none)
    (hrun : request.run.run e = .ok result e') (hsize : e'.layout.size ≤ Int32.size) :
    orderConflict? e'.layout = none ↔ request.crowds e = false := by
  rw [Layout.orderConflict?_eq_none_iff] at hnone ⊢
  by_cases hstays : ∀ id split, request ≠ .setSideTool id split
  · have hcrowds : request.crowds e = false := by
      cases request with
      | setSideTool id split => exact absurd rfl (hstays id split)
      | _ => rfl
    refine iff_of_true (fun i j hs ↦ hnone i j ?_) hcrowds
    exact (tidies_run hd hrun hstays).shares hsize hs
  · simp only [ne_eq, not_forall, not_not] at hstays
    obtain ⟨id, split, rfl⟩ := hstays
    have hiff : (∃ i j, e'.layout.SharesOrder i j) ↔ (Request.setSideTool id split).crowds e :=
      sharesOrder_setSideTool hd hnone hrun
    rw [← Bool.not_eq_true, ← hiff]
    simp only [not_exists]

/-- Whatever led to a layout in which every order is unique in its slot: if it would be accepted,
the one that a request makes of it would be too, just if the request does not crowd a slot. -/
theorem orders_unique_run_iff {allowed : Engine → Call → Prop} {e₀ : Engine}
    (hempty : e₀.entries = .empty) (hc : Course allowed e₀ e)
    (hnone : orderConflict? e.layout = none) (hrun : request.run.run e = .ok result e')
    (hsize : e'.layout.size ≤ Int32.size) :
    orderConflict? e'.layout = none ↔ request.crowds e = false :=
  (hc.drafted (drafted_of_empty hempty)).orderConflict?_run hnone hrun hsize

def besideRequest (id : String) : RegisterRequest where
  id := id
  anchor := .left
  split := true
  available := true
  hasContent := true
  placement := some { WindowInfo.new id .left with split := true, order := 0 }

/-- Two windows with the first order, in the two slots on the left, which are in one slot then. -/
theorem orders_unique_besideRequest : ∃ e e', Course (fun _ _ ↦ True) blank e ∧
    orderConflict? e.layout = none ∧
      (Request.setSideTool "B" false).run.run e = .ok (.ok ()) e' ∧
        e'.layout.size ≤ Int32.size ∧ orderConflict? e'.layout ≠ none := by
  have hleads : blank.leadsTo (register (hiddenRequest "A"))
      (·.leadsTo (register (besideRequest "B")) fun e ↦
        decide (orderConflict? e.layout = none) && (Request.setSideTool "B" false).crowds e &&
        e.leadsTo (setSideTool "B" false) fun e' ↦ decide (e'.layout.size ≤ Int32.size)) := by
    decide +kernel
  obtain ⟨e₁, hA, hleads⟩ := exists_run_of_leadsTo hleads
  obtain ⟨e, hB, hleads⟩ := exists_run_of_leadsTo hleads
  rw [Bool.and_eq_true, Bool.and_eq_true, decide_eq_true_iff] at hleads
  obtain ⟨⟨hnone, hcrowds⟩, hleads⟩ := hleads
  obtain ⟨e', hrun, hsize⟩ := exists_run_of_leadsTo hleads
  have hc : Course (fun _ _ ↦ True) blank e :=
    (Relation.ReflTransGen.single ⟨.request (.register (hiddenRequest "A")), _, trivial, hA⟩).tail
      ⟨.request (.register (besideRequest "B")), _, trivial, hB⟩
  have hsize := of_decide_eq_true hsize
  refine ⟨e, e', hc, hnone, hrun, hsize, fun hconflict ↦ ?_⟩
  have hrun : (Request.setSideTool "B" false).run.run e = .ok (.ok ()) e' := hrun
  rw [(orders_unique_run_iff rfl hc hnone hrun hsize).1 hconflict] at hcrowds
  cases hcrowds

end Engine

end ToolDock

import ToolDock.Proofs.Inserting
import ToolDock.Proofs.Numbering
import ToolDock.Proofs.Touching

/-!
What showing a window changes, to the last field. The window gets a place on the screen, the one in
its slot leaves it and may be remembered, and that is all. Main statement: `reveals_reveal`.
-/

namespace ToolDock

def WindowInfo.retired (info : WindowInfo) : WindowInfo :=
  { info with visible := false, activeOnStart := false }

namespace Layout

variable {l : Layout} {info : WindowInfo}

theorem lastOrder?_put (hnew : l.contains info.id = false) (pane : String) (anchor : Anchor) :
    (l.put info).lastOrder? pane anchor =
      if info.isAt pane anchor then greaterOrder (l.lastOrder? pane anchor) info
      else l.lastOrder? pane anchor := by
  have hwindows : (l.put info).windows = l.windows ++ [info] := by
    rw [windows_put, hnew]
    rfl
  rw [lastOrder?, hwindows, List.filter_append, List.foldl_append, List.filter_singleton]
  cases info.isAt pane anchor <;> rfl

theorem nextOrder_put_unordered (hnew : l.contains info.id = false) (ho : info.hasOrder = false)
    (pane : String) (anchor : Anchor) :
    (l.put info).nextOrder pane anchor = l.nextOrder pane anchor := by
  have horder : info.order = unassignedOrder := by simpa [WindowInfo.hasOrder] using ho
  have hunassigned : unassignedOrder.toInt = -1 := rfl
  have hzero : (0 : Int32).toInt = 0 := rfl
  rw [nextOrder, nextOrder, lastOrder?_put hnew]
  by_cases hat : info.isAt pane anchor = true
  case neg => rw [if_neg hat]
  case pos =>
    rw [if_pos hat]
    cases l.lastOrder? pane anchor with
    | none =>
      rw [greaterOrder, horder]
      rfl
    | some last =>
      rw [greaterOrder, horder]
      dsimp only
      split
      case isFalse => rfl
      case isTrue hlt =>
        -- the successor of a lower order is negative still, so that the next one is 0 anyway
        have hlast := ne_maxValue_of_lt (Int32.lt_iff_toInt_lt.1 hlt)
        have hneg : last + 1 < 0 := by
          rw [Int32.lt_iff_toInt_lt] at hlt ⊢
          rw [toInt_add_one hlast]
          omega
        rw [add32_one hlast]
        change Except.ok 0 = Except.ok (if last + 1 < 0 then 0 else last + 1)
        rw [if_pos hneg]

end Layout

namespace Engine

variable {e e' e'' : Engine} {key k : SlotKey} {x y : Entry} {info placed : WindowInfo}
  {dirty : Bool} {id : String} {order : Int32} {slot : Slot} {ws : List WindowInfo}
  {result : Except EngineError Unit}

/-- The windows that give way when one is shown at a placement. -/
def evictees (e : Engine) (info : WindowInfo) : List WindowInfo :=
  if info.windowType.isInternal then (e.dockedAt info.slot).filterMap e.layout.get? else []

/-- The stacks once windows were evicted. Docked ones that do not hide by themselves are
remembered. -/
def recalling (e : Engine) (ws : List WindowInfo) : SideStack :=
  if e.settings.stackEnabled then
    (ws.filter fun w ↦ w.isDocked && !w.autoHide).foldl SideStack.push e.sideStack
  else e.sideStack

/-- A window has been shown at an order. Entry and layout have it on the screen, and the one that
gave way off it. That one may be remembered, the window itself is remembered no more. -/
structure Reveals (id : String) (info : WindowInfo) (order : Int32) (e e' : Engine) : Prop where
  shown : e'.layout.get? id = some (info.shownAt order)
  one : (e.evictees info).length ≤ 1
  retired : ∀ w ∈ e.evictees info, e'.layout.get? w.id = some w.retired
  entries : ∀ i ∈ id :: (e.evictees info).map WindowInfo.id, e'.windowInfo? i = e'.layout.get? i
  others : ChangesOnly {i | i ∈ id :: (e.evictees info).map WindowInfo.id} e e'
  ids : e'.layout.ids = if e.layout.contains id then e.layout.ids else e.layout.ids ++ [id]
  unified : e'.layout.unified = e.layout.unified
  sideStack : e'.sideStack = e.forgetting id (e.recalling (e.evictees info))

theorem Coherent.evictees_cases (h : Coherent e) (info : WindowInfo) :
    e.evictees info = [] ∧ (info.windowType.isInternal → e.dockedAt info.slot = []) ∨
      info.windowType.isInternal ∧ ∃ k y placed, Located e k y placed ∧ y.info.occupiesSlot ∧
        y.info.slot = info.slot ∧ e.evictees info = [placed] := by
  by_cases hi : info.windowType.isInternal = true
  · rw [evictees, if_pos hi]
    cases hdocked : e.dockedAt info.slot with
    | nil => exact Or.inl ⟨rfl, fun _ ↦ rfl⟩
    | cons o rest =>
      obtain ⟨k, y, hy, ho, hslot, rfl⟩ := mem_dockedAt.1 (hdocked ▸ List.mem_cons_self ..)
      obtain ⟨-, hcontains⟩ := h.ready (Set.notMem_empty k) (standing?_of_get? hy)
        (WindowInfo.occupiesSlot_iff.1 ho).1
      obtain ⟨placed, hplaced⟩ := Layout.contains_iff.1 hcontains
      have hplaced : e.layout.get? y.id = some placed := hplaced
      have hone := h.dockedAt_eq hy ho
      rw [hslot, hdocked] at hone
      refine Or.inr ⟨hi, k, y, placed, ⟨hy, hplaced⟩, ho, hslot, ?_⟩
      rw [hone, List.filterMap_cons, hplaced]
      rfl
  · exact Or.inl ⟨if_neg hi, fun hyes ↦ absurd hyes hi⟩

structure Retires (ws : List WindowInfo) (e e' : Engine) : Prop where
  coherent : Coherent e'
  retired : ∀ w ∈ ws, e'.layout.get? w.id = some w.retired ∧ e'.windowInfo? w.id = some w.retired
  others : ChangesOnly {i | i ∈ ws.map WindowInfo.id} e e'
  ids : e'.layout.ids = e.layout.ids
  unified : e'.layout.unified = e.layout.unified
  settings : e'.settings = e.settings
  sideStack : e'.sideStack = e.recalling ws

theorem deactivateWindow_of_bare (info : WindowInfo) (dirty : Bool)
    (hy : e.entries.get? k = some y) (hf : y.floating = none) (hw : y.windowed = none) :
    (e.deactivateWindow k info dirty .none).1 = info.retired := by
  simp only [deactivateWindow, applyMutation, removeDecorators, saveExternalState, hy, hf, hw]
  rfl

theorem remembering_eq (info : WindowInfo) :
    e.remembering info = e.withStacks (e.recalling [info]) := by
  unfold remembering recalling withStacks
  cases e.settings.stackEnabled <;> cases hp : info.isDocked && !info.autoHide <;> simp [hp]

theorem Coherent.withStacks (h : Coherent e) (s : SideStack) : Coherent (e.withStacks s) := by
  have hsound : Sound _ False ∅ ∅ (e.withStacks s) := h.sound.congr rfl rfl .refl
  exact hsound.coherent

theorem Coherent.retires_evict (dirty : Bool) (h : Coherent e) (hd : Decorated e)
    (hl : Located e k y placed) (ho : y.info.occupiesSlot) :
    Retires [placed] e (e.evict dirty k) := by
  have hid := h.sound.placement_id hl
  have hsound : Sound id True ∅ ∅ e := ⟨h, fun _ ↦ hd⟩
  obtain ⟨hf, hw, -⟩ := hsound.bare hl.entry (fun _ ↦ (WindowInfo.occupiesSlot_iff.1 ho).2) trivial
  obtain ⟨id, heq⟩ := evict_eq dirty (e := e) (k := k)
  have hy := get?_remembering placed hl.entry
  obtain ⟨off, saved, -, hoff, hex⟩ :=
    exchanged_hidden (D := False) placed dirty .none hy False.elim
  rw [deactivateWindow_of_bare placed dirty hy hf hw] at hoff
  subst hoff
  rw [hl.registeredInfo_eq] at heq
  have hc : Coherent (e.evict dirty k) :=
    (h.sound.evict (Set.notMem_empty k) hl.entry).1.coherent
  have hside : (e.evict dirty k).sideStack = e.recalling [placed] := by
    rw [heq]
    exact hex.sideStack.trans (congrArg sideStack (remembering_eq placed))
  have hevict : Exchanged False k y { y.undecorated with info := placed.retired }
      (e.layout.put placed.retired) e ((e.evict dirty k).withStacks e.sideStack) := by
    rw [heq]
    rw [remembering_eq] at hex ⊢
    exact hex.restack.fire
  have hc' := hc.withStacks e.sideStack
  have hwindow := hevict.windowInfo? h hc' hl.entry rfl
  refine ⟨hc, fun w hmem ↦ ?_, ?_, ?_, ?_, hevict.settings, hside⟩
  · obtain rfl := List.mem_singleton.1 hmem
    refine ⟨?_, (hwindow w.id).trans (if_pos hid)⟩
    exact (congrArg (·.get? w.id) hevict.layout).trans
      ((Layout.get?_put ..).trans (if_pos rfl))
  · exact (hevict.changesOnly h hc' hl.entry rfl hid (by simp [hid])).trans (.of_eq rfl rfl)
  · have hids : (e.evict dirty k).layout.ids = (e.layout.put placed.retired).ids :=
      congrArg Layout.ids hevict.layout
    rw [hids, Layout.ids_put, if_pos]
    exact hid.trans (h.id_eq (standing?_of_get? hl.entry)).symm ▸ hl.contains
  · exact (congrArg Layout.unified hevict.layout).trans Layout.unified_put

theorem Coherent.retires_evictFor (h : Coherent e) (hd : Decorated e)
    (hx : e.entries.get? key = some x) (hv : x.info.visible = false) :
    Retires (e.evictees info) e (e.evictFor key info dirty) := by
  obtain ⟨hnone, hfree⟩ | ⟨hi, k, y, placed, hl, ho, hslot, hone⟩ := h.evictees_cases info
  · rw [hnone, evictFor_eq_self hfree]
    refine ⟨h, by simp, .refl, rfl, rfl, rfl, ?_⟩
    rw [recalling, List.filter_nil, List.foldl_nil, ite_self]
  · have hne : k ≠ key := by
      rintro rfl
      cases hx.symm.trans hl.entry
      rw [WindowInfo.not_occupiesSlot hv] at ho
      cases ho
    rw [hone, h.evictFor_eq hi (mem_occupants.2 ⟨hne, y, hl.entry, ho, hslot⟩)]
    exact h.retires_evict dirty hd hl ho

theorem Coherent.mem_evictees {w : WindowInfo} (h : Coherent e) (hw : w ∈ e.evictees info) :
    ∃ k y, Located e k y w ∧ y.info.occupiesSlot ∧ y.info.slot = info.slot := by
  obtain ⟨hnone, -⟩ | ⟨-, k, y, placed, hl, ho, hslot, hone⟩ := h.evictees_cases info
  · rw [hnone] at hw
    cases hw
  · rw [hone] at hw
    obtain rfl := List.mem_singleton.1 hw
    exact ⟨k, y, hl, ho, hslot⟩

theorem Coherent.ne_of_mem_evictees {w : WindowInfo} (h : Coherent e) (hl : Located e key x placed)
    (hv : x.info.visible = false) (hw : w ∈ e.evictees info) : w.id ≠ x.name := by
  intro heq
  obtain ⟨k, y, hy, ho, -⟩ := h.mem_evictees hw
  have hsame := h.unique (standing?_of_get? hy.entry) (standing?_of_get? hl.entry)
    ((h.sound.placement_id hy).symm.trans heq)
  subst hsame
  cases hl.entry.symm.trans hy.entry
  rw [WindowInfo.not_occupiesSlot hv] at ho
  cases ho

theorem Coherent.length_evictees (h : Coherent e) (info : WindowInfo) :
    (e.evictees info).length ≤ 1 := by
  obtain ⟨hnone, -⟩ | ⟨-, k, y, placed, -, -, -, hone⟩ := h.evictees_cases info
  · rw [hnone]
    exact Nat.zero_le 1
  · rw [hone]
    exact Nat.le_refl 1

theorem Retires.reveals (hr : Retires (e.evictees info) e e') (h : Coherent e) (hc : Coherent e'')
    (hl : Located e key x info) (hv : x.info.visible = false) (hx' : e'.entries.get? key = some x)
    {x' : Entry} (hstanding : x'.standing = ⟨x.name, x.id, info.shownAt order, x.available⟩)
    (hex : Exchanged False key x x' (e'.layout.put (info.shownAt order)) e'
      (e''.withStacks e'.sideStack))
    (hside : e''.sideStack = e'.forgetting info.id e'.sideStack) :
    Reveals x.name info order e e'' := by
  have hinfoId : info.id = x.name := h.sound.placement_id hl
  have hid : (info.shownAt order).id = x.name := hinfoId
  obtain ⟨hname, -, hinfo, -⟩ := Standing.mk.inj hstanding
  have hlayout : e''.layout = e'.layout.put (info.shownAt order) := hex.layout
  have hwindow := hex.windowInfo? hr.coherent (hc.withStacks _) hx' hname
  have hne : ∀ w ∈ e.evictees info, w.id ≠ x.name := fun w hw ↦ h.ne_of_mem_evictees hl hv hw
  have hself : e''.layout.get? x.name = some (info.shownAt order) := by
    rw [hlayout, Layout.get?_put, if_pos hid.symm]
  have hretired : ∀ w ∈ e.evictees info, e''.layout.get? w.id = some w.retired := by
    intro w hw
    rw [hlayout, Layout.get?_put, if_neg (hid ▸ hne w hw), (hr.retired w hw).1]
  refine ⟨hself, h.length_evictees info, hretired, fun i hi ↦ ?_, ?_, ?_, ?_, ?_⟩
  · rcases List.mem_cons.1 hi with rfl | hi
    · rw [hself]
      exact (hwindow x.name).trans ((if_pos rfl).trans (congrArg some hinfo))
    · obtain ⟨w, hw, rfl⟩ := List.mem_map.1 hi
      rw [hretired w hw]
      exact (hwindow w.id).trans ((if_neg (hne w hw)).trans (hr.retired w hw).2)
  · refine (hr.others.mono fun i hi ↦ List.mem_cons_of_mem _ hi).trans ?_
    exact (hex.changesOnly hr.coherent (hc.withStacks _) hx' hname hid
      (List.mem_cons_self ..)).trans (.of_eq rfl rfl)
  · have hcontains : e.layout.contains x.name := h.name_eq hl.entry ▸ hl.contains
    have hcontains' : e'.layout.contains (info.shownAt order).id := by
      rw [Layout.contains_eq_true_iff, hr.ids, hid]
      exact Layout.contains_eq_true_iff.1 hcontains
    rw [hlayout, Layout.ids_put, if_pos hcontains', hr.ids, if_pos hcontains]
  · rw [hlayout, Layout.unified_put, hr.unified]
  · rw [hside, hinfoId, hr.sideStack, forgetting, forgetting, hr.settings]

theorem Coherent.ensures_reveals (dirty : Bool) (h : Coherent e) (hd : Decorated e)
    (hl : Located e key x info) (hv : x.info.visible = false) (ha : x.available) :
    Ensures (showWindow key info dirty) e fun shown e' ↦ shown = true ∧ ∃ order,
      (if info.hasOrder then order = info.order
        else e.layout.nextOrder info.pane info.anchor = .ok order) ∧
        Reveals x.name info order e e' := by
  have hshows : Ensures (showWindow key info dirty) e fun _ e' ↦ Coherent e' :=
    (h.sound.showHidden info hl.entry hv (h.sound.placement_id hl)
      (congrArg (·.2.1) (h.berth_eq hl).1) ha).mono fun _ _ hq ↦ hq.1.coherent
  have hx₁ : (e.evictFor key info dirty).entries.get? key = some x :=
    (get?_evictFor key info dirty).trans hl.entry
  refine (ensures_and hshows (ensures_showWindow_ordered hl.entry ha rfl hx₁)).mono ?_
  intro shown e' hq
  rcases hq with ⟨hc, hshown, order, x', horder, hstanding, hex, hside⟩
  exact ⟨hshown, order, horder,
    (h.retires_evictFor hd hl.entry hv).reveals h hc hl hv hx₁ hstanding hex hside⟩

theorem evictees_storeInfo (hfree : info.id ∉ e.dockedAt info.slot) :
    (e.storeInfo info).evictees info = e.evictees info := by
  unfold evictees
  split
  case isFalse => rfl
  case isTrue =>
    have hdocked : (e.storeInfo info).dockedAt info.slot = e.dockedAt info.slot := rfl
    rw [hdocked]
    refine List.filterMap_congr fun i hi ↦ ?_
    rw [get?_storeInfo, if_neg]
    rintro rfl
    exact hfree hi

theorem Reveals.of_storeInfo (h : Reveals info.id info order (e.storeInfo info) e')
    (hnew : e.layout.contains info.id = false) (hfree : info.id ∉ e.dockedAt info.slot) :
    Reveals info.id info order e e' := by
  have hsame := evictees_storeInfo hfree
  obtain ⟨hshown, hone, hretired, hentries, hothers, hids, hunified, hside⟩ := h
  rw [hsame] at hone hretired hentries hothers hside
  refine ⟨hshown, hone, hretired, hentries, ?_, ?_, hunified.trans Layout.unified_put, hside⟩
  · refine fun i hi ↦ ⟨(hothers i hi).1.trans ?_, (hothers i hi).2⟩
    rw [get?_storeInfo, if_neg]
    rintro rfl
    exact hi (List.mem_cons_self ..)
  · have hput : (e.storeInfo info).layout.ids = e.layout.ids ++ [info.id] := by
      rw [storeInfo, Layout.ids_put, hnew]
      rfl
    have hcontains : (e.storeInfo info).layout.contains info.id :=
      Layout.contains_put.2 (Or.inl rfl)
    rw [hids, if_pos hcontains, hput, hnew]
    rfl

theorem Reveals.fire (h : Reveals id info order e e') {kind : EventKind} {subject : Option String} :
    Reveals id info order e (e'.fire kind subject) :=
  ⟨h.shown, h.one, h.retired, h.entries, h.others.trans (.of_eq rfl rfl), h.ids, h.unified,
    h.sideStack⟩

theorem Coherent.not_mem_dockedAt (h : Coherent e) (hx : e.entries.get? key = some x)
    (hv : x.info.visible = false) : x.id ∉ e.dockedAt slot := by
  intro hmem
  obtain ⟨k, y, hy, ho, -, hid⟩ := mem_dockedAt.1 hmem
  cases h.key_eq hy hx hid
  cases hx.symm.trans hy
  rw [WindowInfo.not_occupiesSlot hv] at ho
  cases ho

theorem Coherent.ensures_reveals_taken (h : Coherent e) (hd : Decorated e)
    (hx : e.entries.get? key = some x) (hv : x.info.visible = false) (ha : x.available)
    (hinfo : (e.layout.get? x.name).getD x.info = info) :
    Ensures (showWindow key (e.registeredInfo key).1 dirty) (e.registeredInfo key).2 fun shown e' ↦
      shown = true ∧ ∃ order, (if info.hasOrder then order = info.order
        else e.layout.nextOrder info.pane info.anchor = .ok order) ∧
          Reveals x.name info order e e' := by
  have hsound : Sound _ True ∅ ∅ e := ⟨h, fun _ ↦ hd⟩
  obtain ⟨htaken, hl⟩ := hsound.registeredInfo hx
  have hc : Coherent (e.registeredInfo key).2 := htaken.coherent
  have hreveals := hc.ensures_reveals dirty (htaken.decorated trivial) hl hv ha
  have hname : x.id = x.name := h.name_eq hx
  have hid : x.info.id = x.id := (h.info_id_eq hx).trans hname.symm
  rw [registeredInfo_eq hx hid] at hreveals ⊢
  rw [← hname] at hinfo
  cases hknown : e.layout.get? x.id with
  | some placed =>
    rw [hknown] at hreveals hinfo
    obtain rfl : placed = info := hinfo
    exact hreveals
  | none =>
    rw [hknown] at hreveals hinfo
    obtain rfl : x.info = info := hinfo
    have hnew : e.layout.contains x.info.id = false := by
      rw [hid, ← Bool.not_eq_true, Layout.contains_iff, hknown]
      simp
    have hfree : x.info.id ∉ e.dockedAt x.info.slot := hid ▸ h.not_mem_dockedAt hx hv
    refine hreveals.mono ?_
    intro shown e' hq
    rcases hq with ⟨hshown, order, horder, hall⟩
    rw [← hname, ← hid] at hall ⊢
    refine ⟨hshown, order, ?_, hall.of_storeInfo hnew hfree⟩
    by_cases ho : x.info.hasOrder = true
    · rw [if_pos ho] at horder ⊢
      exact horder
    · rw [if_neg ho] at horder ⊢
      exact (Layout.nextOrder_put_unordered hnew (by simpa using ho) _ _).symm.trans horder

/-- Showing a hidden window changes that window and the one in its slot, and nothing else. -/
theorem reveals_reveal (hc : Coherent e) (hd : Decorated e) (hx : e.entry? id = some x)
    (hv : x.info.visible = false) (ha : x.available) (hinfo : (e.layout.get? id).getD x.info = info)
    (hrun : (reveal id).run e = .ok result e') :
    result = .ok () ∧ ∃ order, (if info.hasOrder then order = info.order
        else e.layout.nextOrder info.pane info.anchor = .ok order) ∧
      Reveals id info order e e' := by
  obtain ⟨key, hentry, rfl⟩ := hc.entry?_eq_some.1 hx
  have hkey := hc.keyOf?_eq hentry
  suffices h : Ensures (reveal x.name).run e fun result e' ↦ result = .ok () ∧ ∃ order,
      (if info.hasOrder then order = info.order
        else e.layout.nextOrder info.pane info.anchor = .ok order) ∧
        Reveals x.name info order e e' from h hrun
  simp only [reveal, ensures_keyOf_bind, ensures_run_get_bind, ensures_run_ite, ensures_run_pure,
    ensures_run_lift_bind, ensures_run_modify, ensures_takeInfo]
  refine ⟨fun k hk ↦ ?_, fun hnone ↦ ?_⟩
  · cases hkey.symm.trans hk
    rw [entryIs_of_get? hentry, hv]
    refine ⟨fun hn ↦ absurd hn Bool.false_ne_true, fun _ ↦ ?_⟩
    refine (hc.ensures_reveals_taken hd hentry hv ha hinfo).mono ?_
    intro shown e' hq
    rcases hq with ⟨hshown, order, horder, hreveals⟩
    exact ⟨fun _ ↦ ⟨trivial, order, horder, hreveals.fire⟩, fun hno ↦ absurd hshown hno⟩
  · cases hkey.symm.trans hnone

/-- The second window pushes out the first one, which is remembered. -/
theorem reveals_reveal_hiddenRequest : ∃ e e' info order, Session Request.Presents blank e ∧
    e.windowInfo? "B" = some info ∧ info.visible = false ∧ e.dockedAt info.slot = ["A"] ∧
      (reveal "B").run e = .ok (.ok ()) e' ∧ Reveals "B" info order e e' := by
  obtain ⟨e₁, e₂, e, hrun₁, hknown, hrun₂, hrun₃, hready, haccepts⟩ :
      ∃ e₁ e₂ e, (Request.register (hiddenRequest "A")).run.run blank = .ok (.ok ()) e₁ ∧
        known? (hiddenRequest "B") e₁.layout = none ∧
        (Request.register (hiddenRequest "B")).run.run e₁ = .ok (.ok ()) e₂ ∧
        (Request.reveal "A").run.run e₂ = .ok (.ok ()) e ∧
        ((e.entry? "B").any fun x ↦ !x.info.visible && x.available &&
          e.dockedAt x.info.slot = ["A"] && e.layout.get? "B" = some x.info) ∧
        e.accepts (reveal "B") :=
    ⟨_, _, _, rfl, rfl, rfl, rfl, by decide +kernel, by decide +kernel⟩
  simp only [Option.any_eq_true, Bool.and_eq_true, Bool.not_eq_true', decide_eq_true_eq] at hready
  obtain ⟨x, hx, ⟨⟨hv, ha⟩, hdocked⟩, hinfo⟩ := hready
  have hsession : Session Request.Presents blank e := by
    refine .step (.step (.step .start ?_ hrun₁) ?_ hrun₂) ?_ hrun₃
    · exact fun _ h ↦ (nomatch h)
    · exact fun _ h ↦ (nomatch hknown.symm.trans h)
    · trivial
  have hsound : Sound id True ∅ ∅ e :=
    hsession.sound ⟨coherentOn_of_empty rfl, fun _ ↦ decoratedOn_of_empty rfl rfl⟩
  obtain ⟨e', hrun⟩ := exists_run_of_accepts haccepts
  obtain ⟨-, order, -, hreveals⟩ := reveals_reveal hsound.coherent (hsound.decorated trivial) hx
    hv ha (congrArg (·.getD x.info) hinfo) hrun
  exact ⟨e, e', x.info, order, hsession, by rw [windowInfo?, hx]; rfl, hv, hdocked, hrun, hreveals⟩

end Engine

end ToolDock

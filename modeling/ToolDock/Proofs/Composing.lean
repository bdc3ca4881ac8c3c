import ToolDock.Proofs.Clearing
import ToolDock.Proofs.Overwriting
import ToolDock.Proofs.Renumbering
import ToolDock.Proofs.RevealByLayout

/-!
A hidden window that goes to another stripe and to the other slot. One request does both at once,
two do one after the other. The layout moves windows without a look at which slot they are in, so
that the change of the slot passes through the whole move; and whoever is overwritten either way has
in the end what the layout has. Main statements: `setAnchor_toSide` and
`setSideToolAndAnchor_matches_parts`.
-/

namespace ToolDock

def WindowInfo.toSide (id : String) (split : Bool) (w : WindowInfo) : WindowInfo :=
  if w.id = id then { w with split := split } else w

namespace WindowInfo

variable {id pane : String} {split : Bool} {anchor : Anchor} {order : Int32} {w : WindowInfo}

@[simp] theorem id_toSide : (w.toSide id split).id = w.id := by
  unfold toSide
  split <;> rfl

@[simp] theorem order_toSide : (w.toSide id split).order = w.order := by
  unfold toSide
  split <;> rfl

@[simp] theorem isAt_toSide : (w.toSide id split).isAt pane anchor = w.isAt pane anchor := by
  unfold toSide
  split <;> rfl

@[simp] theorem isOrderedAt_toSide :
    Layout.isOrderedAt pane anchor (w.toSide id split) = Layout.isOrderedAt pane anchor w := by
  simp only [Layout.isOrderedAt, isAt_toSide, hasOrder, order_toSide]

theorem toSide_withOrder (w : WindowInfo) (order : Int32) :
    { w with order := order }.toSide id split = { w.toSide id split with order := order } := by
  unfold toSide
  split <;> rfl

theorem toSide_withPlace (w : WindowInfo) (pane : String) (anchor : Anchor) (order : Int32) :
    { w with pane := pane, anchor := anchor, order := order }.toSide id split =
      { w.toSide id split with pane := pane, anchor := anchor, order := order } := by
  unfold toSide
  split <;> rfl

end WindowInfo

namespace Layout

variable {l m : Layout} {ws front : List WindowInfo} {w cur : WindowInfo} {id other pane : String}
  {split : Bool} {anchor : Anchor} {order : Int32} {here : WindowInfo → Bool}

def toSide (l : Layout) (id : String) (split : Bool) : Layout :=
  l.mapWindows (·.map (·.toSide id split)) fun ws ↦ by
    rw [List.map_map]
    exact List.map_congr_left fun _ _ ↦ WindowInfo.id_toSide

theorem windows_toSide : (l.toSide id split).windows = l.windows.map (·.toSide id split) := rfl

theorem get?_toSide :
    (l.toSide id split).get? other = (l.get? other).map (·.toSide id split) := by
  have hids : ((·.id == other) ∘ fun w : WindowInfo ↦ w.toSide id split) = (·.id == other) := by
    funext w
    rw [Function.comp, WindowInfo.id_toSide]
  rw [get?, windows_toSide, List.find?_map, hids, get?]

theorem get?_toSide_self (split : Bool) (h : l.get? id = some cur) :
    (l.toSide id split).get? id = some { cur with split := split } := by
  rw [get?_toSide, h, Option.map_some, WindowInfo.toSide, if_pos (id_of_get? h)]

theorem get?_toSide_other (h : other ≠ id) : (l.toSide id split).get? other = l.get? other := by
  rw [get?_toSide]
  cases hw : l.get? other with
  | none => rfl
  | some w => rw [Option.map_some, WindowInfo.toSide, if_neg (id_of_get? hw ▸ h)]

theorem put_eq_toSide (h : l.get? id = some cur) :
    l.put { cur with split := split } = l.toSide id split := by
  obtain rfl : cur.id = id := id_of_get? h
  refine eq_of_windows ?_ unified_put
  rw [windows_put, if_pos (contains_of_get? h), windows_toSide, replaced]
  refine List.map_congr_left fun w hw ↦ ?_
  unfold WindowInfo.toSide
  by_cases hid : w.id = cur.id
  · have hget := get?_of_mem hw
    rw [hid, h] at hget
    rw [if_pos hid, if_pos hid, Option.some.inj hget]
  · rw [if_neg hid, if_neg hid]

theorem lastOrder?_toSide :
    (l.toSide id split).lastOrder? pane anchor = l.lastOrder? pane anchor := by
  have hat : ((·.isAt pane anchor) ∘ fun w : WindowInfo ↦ w.toSide id split) =
      (·.isAt pane anchor) := by
    funext w
    rw [Function.comp, WindowInfo.isAt_toSide]
  simp only [lastOrder?, windows_toSide, List.filter_map, hat, List.foldl_map,
    WindowInfo.order_toSide]

theorem raiseOrders_toSide (hhere : ∀ w, here (w.toSide id split) = here w)
    (ws : List WindowInfo) :
    raiseOrders here (ws.map (·.toSide id split)) =
      ((raiseOrders here ws).1.map (·.toSide id split), (raiseOrders here ws).2) := by
  induction ws with
  | nil => rfl
  | cons w ws ih =>
    simp only [List.map_cons, raiseOrders, hhere, WindowInfo.order_toSide]
    by_cases hw : here w = true
    · rw [if_pos hw, if_pos hw]
      cases Checked.add32 w.order 1 with
      | ok order =>
        dsimp only
        rw [ih, List.map_cons, WindowInfo.toSide_withOrder w order]
      | error fault => rfl
    · rw [if_neg hw, if_neg hw]
      dsimp only
      rw [ih, List.map_cons]

theorem rank_toSide (hhere : ∀ w, here (w.toSide id split) = here w) (front ws : List WindowInfo)
    (w : WindowInfo) :
    rank here (front.map (·.toSide id split)) (ws.map (·.toSide id split)) (w.toSide id split) =
      rank here front ws w := by
  simp only [rank, List.countP_map, Function.comp_def, hhere, WindowInfo.order_toSide]

theorem renumberFrom_toSide (hhere : ∀ w, here (w.toSide id split) = here w)
    (front ws : List WindowInfo) :
    renumberFrom here (front.map (·.toSide id split)) (ws.map (·.toSide id split)) =
      (renumberFrom here front ws).map (·.toSide id split) := by
  induction ws generalizing front with
  | nil => rfl
  | cons w ws ih =>
    have hrest := ih (front ++ [w])
    rw [List.map_append, List.map_singleton] at hrest
    simp only [List.map_cons, renumberFrom, hrest, hhere, rank_toSide hhere]
    split
    · exact congrArg (· :: _) (WindowInfo.toSide_withOrder w _).symm
    · rfl

theorem renumbered_toSide :
    (l.toSide id split).renumbered pane anchor = (l.renumbered pane anchor).toSide id split :=
  eq_of_windows (renumberFrom_toSide (fun _ ↦ WindowInfo.isOrderedAt_toSide) [] l.windows) rfl

theorem relocated_toSide : (l.toSide id split).relocated other pane anchor order =
    (l.relocated other pane anchor order).toSide id split := by
  refine eq_of_windows ?_ rfl
  simp only [relocated, toSide, mapWindows, List.map_map]
  refine List.map_congr_left fun w _ ↦ ?_
  dsimp only [Function.comp]
  by_cases hid : w.id = other
  · rw [if_pos (WindowInfo.id_toSide.trans hid), if_pos hid]
    exact (WindowInfo.toSide_withPlace w pane anchor order).symm
  · rw [if_neg (WindowInfo.id_toSide.symm ▸ hid), if_neg hid]

theorem reordered_toSide :
    reordered (l.toSide id split) (m.toSide id split) id = reordered l m id := by
  have horder : ∀ i, ((l.toSide id split).get? i).map (·.order) = (l.get? i).map (·.order) := by
    intro i
    rw [get?_toSide, Option.map_map]
    exact Option.map_congr fun _ _ ↦ WindowInfo.order_toSide
  simp only [reordered, windows_toSide, List.filter_map, Function.comp_def, WindowInfo.id_toSide,
    WindowInfo.order_toSide, horder]
  refine (List.map_congr_left fun w hw ↦ ?_).trans (List.map_id _)
  have hne : w.id ≠ id := by
    have hp := (List.mem_filter.1 hw).2
    rw [Bool.and_eq_true, bne_iff_ne] at hp
    exact hp.1
  exact if_neg hne

theorem settled_toSide :
    settled (l.toSide id split) { cur with split := split } id pane anchor order =
      (settled l cur id pane anchor order).toSide id split := by
  have hat : { cur with split := split }.isAt pane anchor = cur.isAt pane anchor := rfl
  simp only [settled, relocated_toSide, renumbered_toSide, hat]
  split <;> rfl

/-- The layout with the orders of the other windows of a stripe raised from `order` on, and what
stopped that. -/
def withRoom (l : Layout) (id pane : String) (anchor : Anchor) (order : Int32) :
    Layout × Option Fault :=
  let above (w : WindowInfo) := w.id != id && isOrderedAt pane anchor w && order ≤ w.order
  (l.mapWindows (fun ws ↦ (raiseOrders above ws).1) (map_id_raiseOrders above),
    (raiseOrders above l.windows).2)

theorem withRoom_toSide : (l.toSide id split).withRoom id pane anchor order =
    ((l.withRoom id pane anchor order).1.toSide id split, (l.withRoom id pane anchor order).2) := by
  let above (w : WindowInfo) := w.id != id && isOrderedAt pane anchor w && order ≤ w.order
  have habove : ∀ w : WindowInfo, above (w.toSide id split) = above w := by
    intro w
    simp only [above, WindowInfo.id_toSide, WindowInfo.isOrderedAt_toSide, WindowInfo.order_toSide]
  have hraise := raiseOrders_toSide habove l.windows
  exact Prod.ext (eq_of_windows (congrArg (·.1) hraise) rfl) (congrArg (·.2) hraise)

theorem setAnchor_of_assigned (hcur : l.get? id = some cur) (h : order ≠ unassignedOrder) :
    setAnchor id pane anchor order l =
      let room := (l.withRoom id pane anchor order).1
      match (l.withRoom id pane anchor order).2 with
      | none => .ok (reordered l (settled room cur id pane anchor order) id)
          (settled room cur id pane anchor order)
      | some fault => .error fault room := by
  rw [setAnchor, hcur]
  exact if_neg h

theorem setAnchor_of_unassigned (hcur : l.get? id = some cur) :
    setAnchor id pane anchor unassignedOrder l = match l.nextOrder pane anchor with
      | .ok last => .ok (reordered l (settled l cur id pane anchor last) id)
          (settled l cur id pane anchor last)
      | .error fault => .error fault l := by
  rw [setAnchor, hcur]
  exact if_pos rfl

/-- It makes no difference whether a window goes to the other slot before a move or after it. -/
theorem setAnchor_toSide (l : Layout) (id pane : String) (anchor : Anchor) (order : Int32)
    (split : Bool) : setAnchor id pane anchor order (l.toSide id split) =
      match setAnchor id pane anchor order l with
      | .ok changed m => .ok changed (m.toSide id split)
      | .error fault m => .error fault (m.toSide id split) := by
  cases hcur : l.get? id with
  | none =>
    have hnone : (l.toSide id split).get? id = none := by rw [get?_toSide, hcur, Option.map_none]
    rw [setAnchor, setAnchor, hcur, hnone]
  | some cur =>
    have hcur' := get?_toSide_self split hcur
    by_cases hlast : order = unassignedOrder
    · subst hlast
      rw [setAnchor_of_unassigned hcur, setAnchor_of_unassigned hcur', nextOrder, lastOrder?_toSide,
        ← nextOrder]
      cases l.nextOrder pane anchor with
      | ok last => simp only [settled_toSide, reordered_toSide]
      | error fault => rfl
    · rw [setAnchor_of_assigned hcur hlast, setAnchor_of_assigned hcur' hlast, withRoom_toSide]
      dsimp only
      cases (l.withRoom id pane anchor order).2 with
      | none => simp only [settled_toSide, reordered_toSide]
      | some fault => rfl

theorem setAnchor_toSide_eq_ok_iff {changed : List WindowInfo} :
    setAnchor id pane anchor order (l.toSide id split) = .ok changed m ↔
      ∃ n, setAnchor id pane anchor order l = .ok changed n ∧ m = n.toSide id split := by
  rw [setAnchor_toSide]
  cases setAnchor id pane anchor order l with
  | ok changed' n =>
    constructor
    · intro h
      cases h
      exact ⟨n, rfl, rfl⟩
    · rintro ⟨n', h, rfl⟩
      cases h
      rfl
  | error fault n =>
    constructor
    · intro h
      cases h
    · rintro ⟨n', h, -⟩
      cases h

def CanMove (l : Layout) (id pane : String) (anchor : Anchor) (order : Int32) : Prop :=
  ∃ changed m, setAnchor id pane anchor order l = .ok changed m

theorem canMove_toSide :
    (l.toSide id split).CanMove id pane anchor order ↔ l.CanMove id pane anchor order := by
  simp only [CanMove, setAnchor_toSide_eq_ok_iff]
  constructor
  · rintro ⟨changed, -, n, hset, -⟩
    exact ⟨changed, n, hset⟩
  · rintro ⟨changed, n, hset⟩
    exact ⟨changed, _, n, hset, rfl⟩

end Layout

namespace Engine

variable {e e' e'' e₁ e₂ : Engine} {key : SlotKey} {x : Entry} {info placed : WindowInfo}
  {id n pane : String} {anchor : Anchor} {order : Int32} {split : Bool} {names : List String}
  {change : Action Unit} {kind : EventKind}

namespace Adopts

theorem again (h : Adopts names e e') (h' : Adopts [n] e' e'') (hn : n ∈ names)
    (hl : ∀ i, i ≠ n → e''.layout.get? i = e'.layout.get? i) : Adopts names e e'' where
  entry {k x} hx := by
    obtain ⟨x', hx', hadopts⟩ := h.entry hx
    obtain ⟨x'', hx'', hadopts'⟩ := h'.entry hx'
    refine ⟨x'', hx'', hadopts'.fittings.trans hadopts.fittings, fun hmem ↦ ?_, fun hnot ↦ ?_⟩
    · by_cases hname : x.name = n
      · rw [← hadopts.name]
        exact hadopts'.adopted (List.mem_singleton.2 (hadopts.name.trans hname))
      · have hkept := hadopts'.kept fun hm ↦ hname (hadopts.name ▸ List.mem_singleton.1 hm)
        rw [hkept, hl x.name hname]
        exact hadopts.adopted hmem
    · have hname : x'.name ∉ [n] := fun hm ↦ hnot (by
        rw [← hadopts.name, List.mem_singleton.1 hm]
        exact hn)
      exact (hadopts'.kept hname).trans (hadopts.kept hnot)
  fresh hnone := h'.fresh (h.fresh hnone)
  externals := h'.externals.trans h.externals

theorem located (h : Adopts names e e') (hx : e.entries.get? key = some x) (hid : x.id = x.name)
    (hn : x.name ∈ names) : ∃ x', Located e' key x' x'.info ∧ x'.id = x.id ∧ x'.name = x.name := by
  obtain ⟨x', hx', hadopts⟩ := h.entry hx
  have hid' : x'.id = x.id := congrArg (·.2.1) hadopts.fittings
  refine ⟨x', ⟨hx', ?_⟩, hid', hadopts.name⟩
  rw [hid', hid]
  exact hadopts.adopted hn

theorem looksLike (h : Adopts names e e₁) (h' : Adopts names e e₂) (hl : e₂.layout = e₁.layout) :
    LooksLike e₁ e₂ where
  layout := hl
  views k := by
    cases hk : e.entries.get? k with
    | none => rw [h.fresh hk, h'.fresh hk]
    | some x =>
      obtain ⟨x₁, hx₁, hadopts₁⟩ := h.entry hk
      obtain ⟨x₂, hx₂, hadopts₂⟩ := h'.entry hk
      have hfittings : x₂.fittings = x₁.fittings := hadopts₂.fittings.trans hadopts₁.fittings.symm
      have hinfo : x₂.info = x₁.info := by
        by_cases hn : x.name ∈ names
        · have htaken := hadopts₂.adopted hn
          rw [hl, hadopts₁.adopted hn] at htaken
          exact (Option.some.inj htaken).symm
        · rw [hadopts₂.kept hn, hadopts₁.kept hn]
      have hattached : x₂.attached = x₁.attached := congrArg (·.2.2.1) hfittings
      rw [hx₁, hx₂, Option.map_some, Option.map_some, Entry.view, Entry.view,
        hadopts₂.name, hadopts₁.name, hinfo, hattached]
  externals := h'.externals.trans h.externals.symm

end Adopts

/-- A window has moved to another place and slot in the layout. Its entry has followed, and so have
those of whoever's order changed. -/
def Transfers (id pane : String) (anchor : Anchor) (order : Int32) (split : Bool) (e e' : Engine) :
    Prop :=
  ∃ changed l, Layout.setAnchor id pane anchor order e.layout = .ok changed l ∧
    e'.layout = l.toSide id split ∧ Adopts (id :: changed.map WindowInfo.id) e e'

theorem Transfers.congr (h : Transfers id pane anchor order split e e')
    (he : e''.entries = e'.entries) (hl : e''.layout = e'.layout)
    (hhost : e''.host.externals = e'.host.externals) :
    Transfers id pane anchor order split e e'' := by
  obtain ⟨changed, l, hset, hlayout, hadopts⟩ := h
  exact ⟨changed, l, hset, hl.trans hlayout, hadopts.congr he hl hhost⟩

theorem Transfers.namesUnique (h : Transfers id pane anchor order split e e')
    (hu : NamesUnique e) : NamesUnique e' := by
  obtain ⟨changed, l, -, -, hadopts⟩ := h
  exact hadopts.namesUnique hu

theorem Transfers.located (h : Transfers x.name pane anchor order split e e')
    (hx : e.entries.get? key = some x) (hid : x.id = x.name) :
    ∃ x', Located e' key x' x'.info := by
  obtain ⟨changed, l, -, -, hadopts⟩ := h
  obtain ⟨x', hl, -⟩ := hadopts.located hx hid (List.mem_cons_self ..)
  exact ⟨x', hl⟩

theorem Transfers.looksLike (h : Transfers id pane anchor order split e e₁)
    (h' : Transfers id pane anchor order split e e₂) : LooksLike e₁ e₂ := by
  obtain ⟨changed, l, hset, hl, hadopts⟩ := h
  obtain ⟨changed', l', hset', hl', hadopts'⟩ := h'
  cases hset.symm.trans hset'
  exact hadopts.looksLike hadopts' (hl'.trans hl.symm)

def repaintAround (key : SlotKey) (oldPane : String) : Action Unit := do
  let info ← takeInfo key
  modify fun e ↦
    let pane := e.paneFor info.pane
    (e.validatePanes oldPane pane).repaintPane pane

def wrapUp (key : SlotKey) (oldPane : String) (kind : EventKind) (id : String) :
    Action (Except EngineError Unit) := do
  repaintAround key oldPane
  modify (·.fire kind id)
  return .ok ()

theorem ensures_wrapUp (hl : Located e key x info) :
    Ensures (wrapUp key pane kind id) e fun r e' ↦ r = .ok () ∧
      e'.entries = e.entries ∧ e'.layout = e.layout ∧ e'.host.externals = e.host.externals := by
  simp only [wrapUp, repaintAround, ensures_bind, ensures_takeInfo, ensures_modify, ensures_pure,
    hl.registeredInfo_eq, true_and]
  unfold validatePanes
  dsimp only
  split <;> exact ⟨rfl, rfl, rfl⟩

theorem returns_wrapUp : Returns (wrapUp key pane kind id) e := by
  simp only [wrapUp, repaintAround, returns_bind, ensures_takeInfo, ensures_bind, ensures_modify]
  exact ⟨⟨returns_modifyGet, returns_modify⟩, returns_modify, returns_pure⟩

theorem run_whileHidden (hl : Located e key x info) (hv : info.visible = false) :
    whileHidden key change e =
      (do change; repaintAround key (e.paneFor info.pane) : Action Unit) e := by
  have htake : takeInfo key e = .ok info e :=
    congrArg (fun r : WindowInfo × Engine ↦ EStateM.Result.ok r.1 r.2) hl.registeredInfo_eq
  have hget : (get : Action Engine) e = .ok e e := rfl
  unfold whileHidden
  rw [run_bind_of_ok htake, run_bind_of_ok hget]
  simp [hv, repaintAround]

theorem run_whileHidden_bind (hl : Located e key x info) (hv : info.visible = false) :
    (do whileHidden key change; modify (·.fire kind id) : Operation Unit).run e =
      (do change; wrapUp key (e.paneFor info.pane) kind id :
        Action (Except EngineError Unit)) e := by
  rw [run_lift_bind, run_bind_congr (run_whileHidden hl hv), bind_assoc]
  rfl

theorem returns_onLayout {α : Type} {step : EStateM Fault Layout α} :
    Returns (onLayout step) e ↔ ∃ a l, step e.layout = .ok a l := by
  unfold Returns onLayout
  cases step e.layout with
  | ok a l => simp
  | error fault l => simp

theorem returns_relabel (hx : e.entries.get? key = some x) :
    Returns (relabel key pane anchor order) e ↔ e.layout.CanMove x.id pane anchor order := by
  simp only [relabel, returns_bind, returns_get, ensures_get, true_and, hx, returns_onLayout]
  exact and_iff_left fun _ _ _ ↦ returns_modify

theorem storeInfo_toSide (split : Bool) (hl : Located e key x placed) (hid : x.id = x.name) :
    (e.storeInfo { placed with split := split }).layout = e.layout.toSide x.name split ∧
      Located (e.storeInfo { placed with split := split }) key x
        { placed with split := split } := by
  have hlayout : (e.storeInfo { placed with split := split }).layout =
      e.layout.toSide x.name split :=
    Layout.put_eq_toSide (hid ▸ hl.placement)
  refine ⟨hlayout, hl.entry, ?_⟩
  rw [hlayout, hid]
  exact Layout.get?_toSide_self split (hid ▸ hl.placement)

theorem ensures_changePlace (hu : NamesUnique e) (hl : Located e key x placed)
    (hid : x.id = x.name) : Ensures (changePlace key pane anchor order split) e fun _ e' ↦
      Transfers x.name pane anchor order split e e' := by
  simp only [changePlace, ensures_bind, ensures_takeInfo, ensures_modify, hl.registeredInfo_eq]
  obtain ⟨hlayout, hl'⟩ := storeInfo_toSide split hl hid
  have hu' : NamesUnique (e.storeInfo { placed with split := split }) := hu
  refine (ensures_relabel_adopts hu' hl' hid).mono fun _ e' hq ↦ ?_
  obtain ⟨changed, hset, hadopts⟩ := hq
  rw [hlayout, hid] at hset
  obtain ⟨l, hset, hl⟩ := Layout.setAnchor_toSide_eq_ok_iff.1 hset
  exact ⟨changed, l, hset, hl, hadopts.after rfl rfl⟩

theorem returns_changePlace (hl : Located e key x placed) (hid : x.id = x.name) :
    Returns (changePlace key pane anchor order split) e ↔
      e.layout.CanMove x.name pane anchor order := by
  obtain ⟨hlayout, hl'⟩ := storeInfo_toSide split hl hid
  simp only [changePlace, returns_bind, ensures_takeInfo, ensures_modify, returns_modify,
    hl.registeredInfo_eq, returns_relabel hl'.entry, hlayout, hid, true_and,
    Layout.canMove_toSide]
  exact and_iff_right returns_modifyGet

structure AtRest (key : SlotKey) (x : Entry) (e : Engine) : Prop where
  unique : NamesUnique e
  located : Located e key x x.info
  id_eq : x.id = x.name
  hidden : x.info.visible = false

namespace AtRest

theorem run_setSideTool (h : AtRest key x e) (hsplit : x.info.split ≠ split) :
    (setSideTool x.name split).run e =
      (do changeSplit key split
          wrapUp key (e.paneFor x.info.pane) .setSideTool x.name :
        Action (Except EngineError Unit)) e := by
  have hkey : e.keyOf? x.name = some key := h.unique.keyOf?_eq h.located.entry
  rw [setSideTool, run_keyOf_bind hkey, run_takeInfo_bind, h.located.registeredInfo_eq,
    if_pos (bne_iff_ne.2 hsplit), run_whileHidden_bind h.located h.hidden]

theorem run_setSideTool_same (h : AtRest key x e) (hsplit : x.info.split = split) :
    (setSideTool x.name split).run e = .ok (.ok ()) e := by
  have hkey : e.keyOf? x.name = some key := h.unique.keyOf?_eq h.located.entry
  have hsame : ¬ (x.info.split != split) = true := by simp [hsplit]
  rw [setSideTool, run_keyOf_bind hkey, run_takeInfo_bind, h.located.registeredInfo_eq,
    if_neg hsame]
  rfl

theorem returns_setSideTool (h : AtRest key x e) : Returns (setSideTool x.name split).run e := by
  by_cases hsplit : x.info.split = split
  · exact ⟨_, e, h.run_setSideTool_same hsplit⟩
  · rw [returns_congr (h.run_setSideTool hsplit), changeSplit]
    simp only [returns_bind, ensures_takeInfo]
    exact ⟨⟨returns_modifyGet, returns_modify⟩, fun _ _ _ ↦ returns_wrapUp⟩

theorem ensures_setSideTool (h : AtRest key x e) :
    Ensures (setSideTool x.name split).run e fun r e' ↦ r = .ok () ∧
      e'.layout = e.layout.toSide x.name split ∧ Adopts [x.name] e e' := by
  have hplaced : e.layout.get? x.name = some x.info := h.id_eq ▸ h.located.placement
  by_cases hsplit : x.info.split = split
  · intro r e' hrun
    cases (h.run_setSideTool_same hsplit).symm.trans hrun
    refine ⟨rfl, ?_, (Exchanged.refl h.located.entry False.elim).adopts h.unique h.located.entry rfl
      hplaced rfl⟩
    have hstored : e.layout.get? x.info.id = some x.info := by
      rw [Layout.id_of_get? hplaced]
      exact hplaced
    rw [← Layout.put_eq_toSide hplaced, ← hsplit]
    exact (Layout.put_of_get? hstored).symm
  · rw [ensures_congr (h.run_setSideTool hsplit), changeSplit]
    simp only [ensures_bind, ensures_takeInfo, ensures_modify, h.located.registeredInfo_eq]
    obtain ⟨hlayout, hl⟩ := storeInfo_toSide split h.located h.id_eq
    have hu : NamesUnique (e.storeInfo { x.info with split := split }) := h.unique
    obtain ⟨hadopts, hkept⟩ := adopts_relabelEntry hu hl.entry (h.id_eq ▸ hl.placement)
    have hfrom : Adopts [x.name] e _ := hadopts.after rfl rfl
    obtain ⟨x₁, hl₁, -⟩ := hfrom.located h.located.entry h.id_eq (List.mem_singleton_self _)
    refine (ensures_wrapUp hl₁).mono fun r e' hq ↦ ?_
    obtain ⟨rfl, he, hl', hhost⟩ := hq
    exact ⟨rfl, hl'.trans (hkept.trans hlayout), hfrom.congr he hl' hhost⟩

end AtRest

/-- A window is registered under a key and hidden, and the layout has it elsewhere than where it is
to go. -/
structure SetsOut (key : SlotKey) (x : Entry) (pane : String) (anchor : Anchor) (e : Engine) :
    Prop where
  unique : NamesUnique e
  keyOf?_eq : e.keyOf? x.name = some key
  id_eq : x.id = x.name
  located : Located (e.registeredInfo key).2 key x (e.registeredInfo key).1
  hidden : (e.registeredInfo key).1.visible = false
  elsewhere : (e.registeredInfo key).1.isAt (e.paneFor pane) anchor = false

namespace SetsOut

theorem run_setAnchor (h : SetsOut key x pane anchor e) (horder : unassignedOrder ≤ order) :
    (setAnchor x.name pane anchor order).run e =
      (do relabel key (e.paneFor pane) anchor order
          modify (·.fire .setToolWindowAnchor x.name)
          return .ok () : Action (Except EngineError Unit)) (e.registeredInfo key).2 := by
  have hhigh : ¬ order < unassignedOrder := Int32.not_lt.2 horder
  have hthere : (!isThere (e.registeredInfo key).1 (e.paneFor pane) anchor order) = true := by
    simp [isThere, h.elsewhere]
  have hhidden : (!(e.registeredInfo key).1.visible ||
      (e.registeredInfo key).1.isAt (e.paneFor pane) anchor ||
        (e.registeredInfo key).1.isExternal) = true := by
    simp [h.hidden]
  rw [setAnchor, run_keyOf_bind h.keyOf?_eq, if_neg hhigh, run_get_bind, run_takeInfo_bind,
    if_pos hthere, if_pos hhidden, run_lift_bind]
  rfl

theorem run_setSideToolAndAnchor (h : SetsOut key x pane anchor e) :
    (setSideToolAndAnchor x.name pane anchor order split).run e =
      (do changePlace key (e.paneFor pane) anchor order split
          wrapUp key ((e.registeredInfo key).2.paneFor (e.registeredInfo key).1.pane)
            .setSideToolAndAnchor x.name : Action (Except EngineError Unit))
        (e.registeredInfo key).2 := by
  have hthere : (!(isThere (e.registeredInfo key).1 (e.paneFor pane) anchor order &&
      (e.registeredInfo key).1.split == split)) = true := by
    simp [isThere, h.elsewhere]
  rw [setSideToolAndAnchor, run_keyOf_bind h.keyOf?_eq, run_get_bind, run_takeInfo_bind,
    if_pos hthere, run_whileHidden_bind h.located h.hidden]

theorem ensures_setSideToolAndAnchor (h : SetsOut key x pane anchor e) :
    Ensures (setSideToolAndAnchor x.name pane anchor order split).run e fun r e' ↦ r = .ok () ∧
      Transfers x.name (e.paneFor pane) anchor order split (e.registeredInfo key).2 e' := by
  rw [ensures_congr h.run_setSideToolAndAnchor, ensures_bind]
  refine (ensures_changePlace (namesUnique_listed h.unique) h.located h.id_eq).mono fun _ e₁ h₁ ↦ ?_
  obtain ⟨x₁, hl₁⟩ := h₁.located h.located.entry h.id_eq
  refine (ensures_wrapUp hl₁).mono fun r e' hq ↦ ?_
  obtain ⟨rfl, he, hl, hhost⟩ := hq
  exact ⟨rfl, h₁.congr he hl hhost⟩

theorem returns_setSideToolAndAnchor_iff (h : SetsOut key x pane anchor e) :
    Returns (setSideToolAndAnchor x.name pane anchor order split).run e ↔
      (e.registeredInfo key).2.layout.CanMove x.name (e.paneFor pane) anchor order := by
  rw [returns_congr h.run_setSideToolAndAnchor, returns_bind, returns_changePlace h.located h.id_eq]
  exact and_iff_left fun _ _ _ ↦ returns_wrapUp

theorem ensures_setAnchor (h : SetsOut key x pane anchor e) (horder : unassignedOrder ≤ order) :
    Ensures (setAnchor x.name pane anchor order).run e fun r e' ↦ r = .ok () ∧
      (∃ x', x'.name = x.name ∧ AtRest key x' e') ∧ ∃ changed,
        Layout.setAnchor x.name (e.paneFor pane) anchor order (e.registeredInfo key).2.layout =
          .ok changed e'.layout ∧
        Adopts (x.name :: changed.map WindowInfo.id) (e.registeredInfo key).2 e' := by
  have hu : NamesUnique (e.registeredInfo key).2 := namesUnique_listed h.unique
  rw [ensures_congr (h.run_setAnchor horder)]
  simp only [ensures_bind, ensures_modify, ensures_pure, true_and]
  refine (ensures_relabel_adopts hu h.located h.id_eq).mono fun _ e₁ hq ↦ ?_
  obtain ⟨changed, hset, hadopts⟩ := hq
  obtain ⟨x₁, hl₁, hid₁, hname₁⟩ :=
    hadopts.located h.located.entry h.id_eq (List.mem_cons_self ..)
  have hhidden : x₁.info.visible = false := by
    obtain ⟨hmoved, -⟩ := Layout.setAnchor_cases h.located.placement hset
    obtain ⟨moved, hre, hself⟩ := hmoved.self
    rw [← hid₁, hl₁.placement] at hself
    rw [Option.some.inj hself, WindowInfo.visible_of_core hre.core_eq]
    exact h.hidden
  refine ⟨⟨x₁, hname₁, hadopts.namesUnique hu, ⟨hl₁.entry, hl₁.placement⟩,
    hid₁.trans (h.id_eq.trans hname₁.symm), hhidden⟩, changed, h.id_eq ▸ hset,
    hadopts.congr rfl rfl rfl⟩

theorem returns_setAnchor_iff (h : SetsOut key x pane anchor e) (horder : unassignedOrder ≤ order) :
    Returns (setAnchor x.name pane anchor order).run e ↔
      (e.registeredInfo key).2.layout.CanMove x.name (e.paneFor pane) anchor order := by
  rw [returns_congr (h.run_setAnchor horder), returns_bind, returns_relabel h.located.entry,
    h.id_eq]
  simp only [returns_bind]
  exact and_iff_left fun _ _ _ ↦ ⟨returns_modify, fun _ _ _ ↦ returns_pure⟩

theorem ensures_parts (h : SetsOut key x pane anchor e) (horder : unassignedOrder ≤ order) :
    Ensures (do setAnchor x.name pane anchor order; setSideTool x.name split : Operation Unit).run e
      fun r e' ↦ r = .ok () ∧
        Transfers x.name (e.paneFor pane) anchor order split (e.registeredInfo key).2 e' := by
  rw [ensures_run_bind]
  refine (h.ensures_setAnchor horder).mono fun r e₁ hq ↦ ?_
  obtain ⟨rfl, ⟨x₁, hname, hrest⟩, changed, hset, hadopts⟩ := hq
  refine ⟨fun _ _ ↦ ?_, fun _ herror ↦ (nomatch herror)⟩
  rw [← hname] at hset hadopts ⊢
  refine hrest.ensures_setSideTool.mono fun r e' hq' ↦ ?_
  obtain ⟨rfl, hlayout, hadopts'⟩ := hq'
  refine ⟨rfl, changed, e₁.layout, hset, hlayout, ?_⟩
  refine hadopts.again hadopts' (List.mem_cons_self ..) fun i hi ↦ ?_
  rw [hlayout, Layout.get?_toSide_other hi]

theorem returns_parts_iff (h : SetsOut key x pane anchor e) (horder : unassignedOrder ≤ order) :
    Returns (do setAnchor x.name pane anchor order; setSideTool x.name split : Operation Unit).run
      e ↔ (e.registeredInfo key).2.layout.CanMove x.name (e.paneFor pane) anchor order := by
  rw [returns_run_bind, h.returns_setAnchor_iff horder]
  refine and_iff_left ((h.ensures_setAnchor horder).mono fun _ e₁ hq _ _ ↦ ?_)
  obtain ⟨-, ⟨x₁, hname, hrest⟩, -⟩ := hq
  exact hname ▸ hrest.returns_setSideTool

end SetsOut

theorem Coherent.setsOut (hc : Coherent e) (hx : e.entries.get? key = some x)
    (hv : x.info.visible = false) (hmoves : x.info.isAt (e.paneFor pane) anchor = false) :
    SetsOut key x pane anchor e := by
  obtain ⟨hsound, hl⟩ := hc.sound.registeredInfo hx
  have hcore : x.info.core = (e.registeredInfo key).1.core :=
    hsound.core_eq hl (Set.notMem_empty key)
  have hslot : x.info.slot = (e.registeredInfo key).1.slot := WindowInfo.slot_of_core hcore
  refine ⟨hc.namesUnique, hc.namesUnique.keyOf?_eq hx, hc.sound.id_eq hx, hl, ?_, ?_⟩
  · exact (WindowInfo.visible_of_core hcore).symm.trans hv
  · rw [WindowInfo.slot, WindowInfo.slot, Slot.mk.injEq] at hslot
    rw [WindowInfo.isAt, ← hslot.1, ← hslot.2.1]
    exact hmoves

/-- A hidden window that goes to another pane or anchor gets there, and into the slot where it is to
be, by one request just as by two. The one returns if the other does, and there is the same to see
afterwards. -/
theorem setSideToolAndAnchor_matches_parts (split : Bool) (hc : Coherent e)
    (hinfo : e.windowInfo? id = some info) (hv : info.visible = false)
    (hmoves : info.isAt (e.paneFor pane) anchor = false) (horder : unassignedOrder ≤ order) :
    (Returns (setSideToolAndAnchor id pane anchor order split).run e ↔
      Returns (do setAnchor id pane anchor order; setSideTool id split : Operation Unit).run e) ∧
    ∀ r r' e₁ e₂, (setSideToolAndAnchor id pane anchor order split).run e = .ok r e₁ →
      (do setAnchor id pane anchor order; setSideTool id split : Operation Unit).run e =
        .ok r' e₂ →
      r = .ok () ∧ r' = .ok () ∧ e₁.Matches e₂ ∧ ∀ i, e₁.isVisible i = e₂.isVisible i := by
  obtain ⟨x, hentry, rfl⟩ := Option.map_eq_some_iff.1 hinfo
  obtain ⟨key, hx, rfl⟩ := hc.entry?_eq_some.1 hentry
  have h : SetsOut key x pane anchor e := hc.setsOut hx hv hmoves
  refine ⟨?_, fun r r' e₁ e₂ hwhole hparts ↦ ?_⟩
  · rw [h.returns_setSideToolAndAnchor_iff, h.returns_parts_iff horder]
  · obtain ⟨rfl, htransfers₁⟩ := h.ensures_setSideToolAndAnchor hwhole
    obtain ⟨rfl, htransfers₂⟩ := h.ensures_parts horder hparts
    have hu : NamesUnique e₁ := htransfers₁.namesUnique (namesUnique_listed h.unique)
    have hmatches := (htransfers₁.looksLike htransfers₂).matches_of_namesUnique hu
    refine ⟨rfl, rfl, hmatches, fun i ↦ ?_⟩
    rw [isVisible, isVisible, (hmatches.2 i).1]

/-- A window leaves its sibling on one stripe and pushes in before that on another, into the other
slot. Both are renumbered, either way. -/
theorem setSideToolAndAnchor_matches_parts_splitRequest : ∃ e e₁ e₂,
    Session Request.Fits blank e ∧
      ["S", "A"].map (fun i ↦ (e.windowInfo? i).map (·.order)) = [some 1, some 0] ∧
      (setSideToolAndAnchor "B" defaultPane .right 0 true).run e = .ok (.ok ()) e₁ ∧
      (do setAnchor "B" defaultPane .right 0; setSideTool "B" true : Operation Unit).run e =
        .ok (.ok ()) e₂ ∧
      ["S", "A"].map (fun i ↦ (e₁.windowInfo? i).map (·.order)) = [some 0, some 1] ∧
        e₁.Matches e₂ ∧ ∀ i, e₁.isVisible i = e₂.isVisible i := by
  let orders (e : Engine) : List (Option Int32) :=
    ["S", "A"].map fun i ↦ (e.windowInfo? i).map (·.order)
  let isReady (e : Engine) : Bool :=
    orders e = [some 1, some 0] && (e.windowInfo? "B").any fun info ↦
      !info.visible && !info.isAt (e.paneFor defaultPane) .right &&
        e.leadsTo (setSideToolAndAnchor "B" defaultPane .right 0 true) fun e₁ ↦
          orders e₁ = [some 0, some 1]
  have hleads : blank.registersTo (hiddenRequest "A") (·.registersTo (hiddenRequest "B")
      (·.registersTo splitRequest (·.leadsTo (Request.setAnchor "A" defaultPane .right 0).run
        (·.leadsTo (Request.setAnchor "S" defaultPane .left 0).run
          (·.leadsTo (Request.setAnchor "B" defaultPane .left 0).run isReady))))) := by
    decide +kernel
  obtain ⟨e₁, hs₁, hleads⟩ := exists_session_of_registersTo .start hleads
  obtain ⟨e₂, hs₂, hleads⟩ := exists_session_of_registersTo hs₁ hleads
  obtain ⟨e₃, hs₃, hleads⟩ := exists_session_of_registersTo hs₂ hleads
  obtain ⟨e₄, hs₄, hleads⟩ := exists_session_of_leadsTo hs₃ hleads trivial
  obtain ⟨e₅, hs₅, hleads⟩ := exists_session_of_leadsTo hs₄ hleads trivial
  obtain ⟨e, hs, hready⟩ := exists_session_of_leadsTo hs₅ hleads trivial
  simp only [isReady, Bool.and_eq_true, decide_eq_true_eq, Option.any_eq_true,
    Bool.not_eq_true'] at hready
  obtain ⟨horders, info, hinfo, ⟨hv, hmoves⟩, hleads⟩ := hready
  obtain ⟨e', hrun, horders'⟩ := exists_run_of_leadsTo hleads
  rw [decide_eq_true_eq] at horders'
  have hc : Coherent e := hs.coherent (coherentOn_of_empty rfl)
  have horder : unassignedOrder ≤ 0 := by decide
  obtain ⟨hreturns, hmatches⟩ := setSideToolAndAnchor_matches_parts true hc hinfo hv hmoves horder
  obtain ⟨r, e'', hparts⟩ := hreturns.1 ⟨_, e', hrun⟩
  obtain ⟨-, rfl, hsame⟩ := hmatches _ _ _ _ hrun hparts
  exact ⟨e, e', e'', hs, horders, hrun, hparts, horders', hsame⟩

end Engine

end ToolDock

import ToolDock.Proofs.Batching

/-!
The weights that a new layout gives to the host. Docked windows beside each other at the left or
right share a splitter, so each weight is to be the sum over all of them; but a window that the
layout does not place anew is not heard of, and its weight is missing. Main statement:
`sums_setLayout_iff`.
-/

namespace ToolDock

/-- Whether a weight is the sum of some, added up in whatever order. -/
def Weight.IsSum (w : Weight) (ws : List Weight) : Prop :=
  ∃ v vs, ws.Perm (v :: vs) ∧ w = vs.foldl (· + ·) v

namespace Weight.IsSum

variable {u v w : Weight} {ws ws' : List Weight}

theorem congr (h : ws.Perm ws') : w.IsSum ws ↔ w.IsSum ws' := by
  constructor
  · intro hq
    rcases hq with ⟨v, vs, hperm, hw⟩
    exact ⟨v, vs, h.symm.trans hperm, hw⟩
  · intro hq
    rcases hq with ⟨v, vs, hperm, hw⟩
    exact ⟨v, vs, h.trans hperm, hw⟩

theorem single : v.IsSum [v] := ⟨v, [], .refl _, rfl⟩

theorem pair_iff : w.IsSum [u, v] ↔ w = u + v ∨ w = v + u := by
  constructor
  · intro hq
    rcases hq with ⟨a, vs, hperm, rfl⟩
    rcases List.mem_cons.1 (hperm.mem_iff.2 (List.mem_cons_self ..)) with rfl | ha
    · obtain rfl := List.perm_singleton.1 hperm.cons_inv.symm
      exact Or.inl rfl
    · obtain rfl := List.mem_singleton.1 ha
      have hswap : [a, u].Perm (a :: vs) := (List.Perm.swap u a []).trans hperm
      obtain rfl := List.perm_singleton.1 hswap.cons_inv.symm
      exact Or.inr rfl
  · intro hq
    rcases hq with rfl | rfl
    · exact ⟨u, [v], .refl _, rfl⟩
    · exact ⟨v, [u], .swap v u [], rfl⟩

end Weight.IsSum

/-- Whether the host gets a weight. -/
def HostOp.setsWeight : HostOp → Bool
  | setWeight .. => true
  | _ => false

namespace Engine

variable {e e' : Engine} {l : Layout} {c c' d : LayoutChange}
  {changes live applied : List LayoutChange} {w : WindowInfo}
  {pane : String} {anchor : Anchor} {s : Settings}
  {res : Except EngineError Unit}

/-- A docked window that is visible gets another weight. -/
def LayoutChange.resizes (c : LayoutChange) : Bool :=
  c.new.visible && c.new.isDocked && !c.old.weight.equals c.new.weight

/-- How the host is told the weight of a window. -/
def weightOp (e : Engine) (changes : List LayoutChange) (c : LayoutChange) : HostOp :=
  .setWeight (e.paneFor c.new.pane) c.new.anchor (hostWeight e.settings changes c)

def sizeOps (e : Engine) (changes : List LayoutChange) (c : LayoutChange) : List HostOp :=
  (if c.resizes then [e.weightOp changes c] else []) ++
    if c.new.visible && c.new.isDocked && !c.old.sideWeight.equals c.new.sideWeight then
      [.setSideWeight (e.paneFor c.new.pane) c.new.id c.new.sideWeight]
    else []

theorem sizeOps_congr (h : Steady e e') : e'.sizeOps changes c = e.sizeOps changes c := by
  simp only [sizeOps, weightOp, h.settings, h.paneFor_eq]

theorem ops_applySize : (applySize changes e c).host.ops = e.host.ops ++ e.sizeOps changes c := by
  unfold applySize sizeOps LayoutChange.resizes
  by_cases hshown : (c.new.visible && c.new.isDocked) = true
  · rw [if_pos hshown, hshown, Bool.true_and, Bool.true_and]
    cases c.old.weight.equals c.new.weight <;> cases c.old.sideWeight.equals c.new.sideWeight
    · exact List.append_assoc _ [_] [_]
    · rfl
    · rfl
    · exact (List.append_nil _).symm
  · rw [if_neg hshown, Bool.eq_false_iff.2 hshown]
    exact (List.append_nil _).symm

theorem ops_foldl_applySize (cs : List LayoutChange) :
    (cs.foldl (applySize changes) e).host.ops =
      e.host.ops ++ cs.flatMap (e.sizeOps changes) := by
  induction cs generalizing e with
  | nil => exact (List.append_nil _).symm
  | cons c cs ih =>
    have hsame : (applySize changes e c).sizeOps changes = e.sizeOps changes :=
      funext fun _ ↦ sizeOps_congr steady_applySize
    rw [List.foldl_cons, ih, ops_applySize, hsame, List.flatMap_cons, List.append_assoc]

theorem filter_sizeOps : (e.sizeOps changes c).filter HostOp.setsWeight =
    if c.resizes then [e.weightOp changes c] else [] := by
  unfold sizeOps
  rw [List.filter_append]
  split <;> split <;> rfl

theorem filter_flatMap_sizeOps (cs : List LayoutChange) :
    (cs.flatMap (e.sizeOps changes)).filter HostOp.setsWeight =
      (cs.filter LayoutChange.resizes).map (e.weightOp changes) := by
  induction cs with
  | nil => rfl
  | cons c cs ih =>
    rw [List.flatMap_cons, List.filter_append, filter_sizeOps, ih, List.filter_cons]
    split <;> rfl

theorem LayoutChange.Carries.eq (h : c.Carries c') :
    ∃ saved, c' = { c with new := c.new.withState saved } := by
  obtain ⟨key, old, new⟩ := c'
  obtain ⟨hkey, hold, saved, hnew⟩ := h
  obtain rfl : key = c.key := hkey
  obtain rfl : old = c.old := hold
  obtain rfl : new = c.new.withState saved := hnew
  exact ⟨saved, rfl⟩

theorem beside?_carries (h : List.Forall₂ LayoutChange.Carries live applied) (hc : c.Carries c') :
    Option.Rel LayoutChange.Carries (beside? live c) (beside? applied c') := by
  obtain ⟨saved, rfl⟩ := hc.eq
  refine rel_find? h fun d d' hd ↦ ?_
  obtain ⟨saved', rfl⟩ := hd.eq
  rfl

theorem hostWeight_carries (h : List.Forall₂ LayoutChange.Carries live applied)
    (hc : c.Carries c') : hostWeight s applied c' = hostWeight s live c := by
  have hbeside := beside?_carries h hc
  obtain ⟨saved, rfl⟩ := hc.eq
  unfold hostWeight
  generalize beside? live c = o, beside? applied _ = o' at hbeside ⊢
  cases hbeside with
  | none => rfl
  | some hd =>
    obtain ⟨saved', rfl⟩ := hd.eq
    rfl

theorem weightOps_carries (h : List.Forall₂ LayoutChange.Carries live applied)
    (hsteady : Steady e e') : (applied.filter LayoutChange.resizes).map (e'.weightOp applied) =
      (live.filter LayoutChange.resizes).map (e.weightOp live) := by
  have hall : ∀ cs ds, List.Forall₂ LayoutChange.Carries cs ds →
      (ds.filter LayoutChange.resizes).map (e'.weightOp applied) =
        (cs.filter LayoutChange.resizes).map (e.weightOp live) := by
    intro cs ds hcs
    induction hcs with
    | nil => rfl
    | @cons c d cs ds hcd _ ih =>
      have hop : e'.weightOp applied d = e.weightOp live c := by
        rw [weightOp, hostWeight_carries h hcd, hsteady.settings, hsteady.paneFor_eq, hcd.pane]
        obtain ⟨saved, rfl⟩ := hcd.eq
        rfl
      have hresizes : d.resizes = c.resizes := by
        obtain ⟨saved, rfl⟩ := hcd.eq
        rfl
      rw [List.filter_cons, List.filter_cons, hresizes]
      split
      · rw [List.map_cons, List.map_cons, ih, hop]
      · exact ih
  exact hall _ _ h

/-- The registered docked windows that a layout shows at a place, in slot order. -/
def dockedIn (e : Engine) (l : Layout) (pane : String) (anchor : Anchor) : List WindowInfo :=
  e.entries.toList.filterMap fun row ↦
    (l.get? row.2.id).filter fun w ↦ w.visible && w.isDocked && w.isAt pane anchor

theorem mem_dockedIn : w ∈ e.dockedIn l pane anchor ↔ (∃ key x, e.entries.get? key = some x ∧
    l.get? x.id = some w) ∧ w.visible ∧ w.isDocked ∧ w.isAt pane anchor := by
  simp only [dockedIn, List.mem_filterMap, Option.filter_eq_some_iff, Bool.and_eq_true, Prod.exists,
    SlotTable.mem_toList]
  constructor
  · intro hq
    rcases hq with ⟨key, x, hx, hw, ⟨hv, hd⟩, ha⟩
    exact ⟨⟨key, x, hx, hw⟩, hv, hd, ha⟩
  · intro hq
    rcases hq with ⟨⟨key, x, hx, hw⟩, hv, hd, ha⟩
    exact ⟨key, x, hx, hw, ⟨hv, hd⟩, ha⟩

theorem nodup_dockedIn (l : Layout) (pane : String) (anchor : Anchor) (h : CoherentCore e) :
    (e.dockedIn l pane anchor).Nodup := by
  refine List.pairwise_filterMap.2 ((List.pairwise_map.1 e.entries.nodup_keys).imp_of_mem ?_)
  intro row row' hrow hrow' hne a ha b hb hab
  rw [Option.filter_eq_some_iff] at ha hb
  have hid : row.2.id = row'.2.id := by
    rw [← Layout.id_of_get? ha.1, ← Layout.id_of_get? hb.1, hab]
  exact hne (h.key_eq (SlotTable.mem_toList.1 hrow) (SlotTable.mem_toList.1 hrow') hid)

theorem eq_of_split {v : WindowInfo} (hl : l.violations = []) (hv : v ∈ e.dockedIn l pane anchor)
    (hw : w ∈ e.dockedIn l pane anchor) (hsplit : v.split = w.split) : v = w := by
  obtain ⟨⟨-, x, -, hx⟩, hvis, hdocked, hat⟩ := mem_dockedIn.1 hv
  obtain ⟨⟨-, y, -, hy⟩, hvis', hdocked', hat'⟩ := mem_dockedIn.1 hw
  have hoccupies : ∀ {u : WindowInfo}, u.visible → u.isDocked → u.occupiesSlot := by
    intro u hu hdocked
    rw [WindowInfo.isDocked, beq_iff_eq] at hdocked
    exact WindowInfo.occupiesSlot_iff.2 ⟨hu, by rw [hdocked]; rfl⟩
  have hslot : v.slot = w.slot := by
    simp only [WindowInfo.isAt, Bool.and_eq_true, beq_iff_eq] at hat hat'
    rw [WindowInfo.slot, WindowInfo.slot, hat.1, hat.2, hat'.1, hat'.2, hsplit]
  have hid := Layout.slot_inj_of_violations hl hx hy (hoccupies hvis hdocked)
    (hoccupies hvis' hdocked') hslot
  rw [hid, hy] at hx
  exact (Option.some.inj hx).symm

theorem dockedIn_cases (h : CoherentCore e) (hl : l.violations = [])
    (hw : w ∈ e.dockedIn l pane anchor) : (e.dockedIn l pane anchor).Perm [w] ∨
      ∃ o, o ≠ w ∧ (e.dockedIn l pane anchor).Perm [w, o] := by
  have hnodup := nodup_dockedIn l pane anchor h
  by_cases hother : ∃ o ∈ e.dockedIn l pane anchor, o ≠ w
  · obtain ⟨o, ho, hne⟩ := hother
    refine Or.inr ⟨o, hne, (List.perm_ext_iff_of_nodup hnodup (by simp [hne.symm])).2 fun v ↦ ?_⟩
    simp only [List.mem_cons, List.not_mem_nil, or_false]
    refine ⟨fun hv ↦ ?_, fun hv ↦ ?_⟩
    · -- of three windows two are in the same half
      by_cases hsplit : v.split = w.split
      · exact Or.inl (eq_of_split hl hv hw hsplit)
      · refine Or.inr (eq_of_split hl hv ho ?_)
        have hsplit' : o.split ≠ w.split := fun heq ↦ hne (eq_of_split hl ho hw heq)
        rw [Bool.eq_not_of_ne hsplit, Bool.eq_not_of_ne hsplit']
    · rcases hv with rfl | rfl
      · exact hw
      · exact ho
  · refine Or.inl ((List.perm_ext_iff_of_nodup hnodup (by simp)).2 fun v ↦ ?_)
    rw [List.mem_singleton]
    refine ⟨fun hv ↦ ?_, fun hv ↦ hv ▸ hw⟩
    by_contra hne
    exact hother ⟨v, hv, hne⟩

theorem mem_dockedIn_of_resizes (hc : c ∈ e.changesTo l) (hresizes : c.resizes) :
    c.new ∈ e.dockedIn l c.new.pane c.new.anchor := by
  obtain ⟨x, hx, hnew, -⟩ := mem_changesTo.1 hc
  simp only [LayoutChange.resizes, Bool.and_eq_true] at hresizes
  refine mem_dockedIn.2 ⟨⟨c.key, x, hx, hnew⟩, hresizes.1.1, hresizes.1.2, ?_⟩
  simp [WindowInfo.isAt]

theorem hostWeight_of_wide (hwide : s.ultrawideLayout)
    (hside : c.new.anchor.isHorizontal = false) : hostWeight s changes c =
      (beside? changes c).elim c.new.weight fun o ↦ c.new.weight + o.new.weight := by
  have hshares : (s.ultrawideLayout && !c.new.anchor.isHorizontal) = true := by
    rw [hwide, hside, Bool.not_false, Bool.and_true]
  refine (if_pos hshares).trans ?_
  cases beside? changes c <;> rfl

theorem isBeside_iff (h : CoherentCore e) (hc : c ∈ e.changesTo l) (hd : d ∈ e.changesTo l) :
    (d.key != c.key && d.new.visible && d.new.isDocked &&
      d.new.isAt c.new.pane c.new.anchor) = true ↔
        d.new ≠ c.new ∧ d.new ∈ e.dockedIn l c.new.pane c.new.anchor := by
  obtain ⟨x, hx, hnew, -⟩ := mem_changesTo.1 hc
  obtain ⟨y, hy, hnew', -⟩ := mem_changesTo.1 hd
  have hkeys : d.key = c.key ↔ d.new = c.new := by
    constructor
    · intro hkey
      rw [hkey, hx] at hy
      obtain rfl := Option.some.inj hy
      exact Option.some.inj (hnew'.symm.trans hnew)
    · intro heq
      refine h.key_eq hy hx ?_
      rw [← Layout.id_of_get? hnew', ← Layout.id_of_get? hnew, heq]
  have hmem : d.new ∈ e.dockedIn l c.new.pane c.new.anchor ↔
      d.new.visible ∧ d.new.isDocked ∧ d.new.isAt c.new.pane c.new.anchor :=
    mem_dockedIn.trans (and_iff_right ⟨d.key, y, hy, hnew'⟩)
  simp only [Bool.and_eq_true, bne_iff_ne, and_assoc, ne_eq]
  rw [hmem, hkeys]

theorem of_beside?_eq_some (h : CoherentCore e) (hc : c ∈ e.changesTo l)
    (hfind : beside? (e.changesTo l) c = some d) : d ∈ e.changesTo l ∧
      d.new ≠ c.new ∧ d.new ∈ e.dockedIn l c.new.pane c.new.anchor := by
  have hd : d ∈ e.changesTo l := List.mem_of_find?_eq_some hfind
  refine ⟨hd, (isBeside_iff h hc hd).1 ?_⟩
  unfold beside? at hfind
  have hfound := List.find?_some hfind
  exact hfound

theorem of_beside?_eq_none (h : CoherentCore e) (hc : c ∈ e.changesTo l)
    (hfind : beside? (e.changesTo l) c = none) (hd : d ∈ e.changesTo l)
    (hplace : d.new ∈ e.dockedIn l c.new.pane c.new.anchor) : d.new = c.new := by
  by_contra hne
  exact List.find?_eq_none.1 hfind d hd ((isBeside_iff h hc hd).2 ⟨hne, hplace⟩)

/-- The weight that the host gets for a window at the left or right is the sum over all docked
windows at its place just if each of them is placed anew or adds nothing. -/
theorem isSum_hostWeight (h : CoherentCore e) (hl : l.violations = [])
    (hwide : s.ultrawideLayout) (hc : c ∈ e.changesTo l) (hresizes : c.resizes)
    (hside : c.new.anchor.isHorizontal = false) :
    (hostWeight s (e.changesTo l) c).IsSum
        ((e.dockedIn l c.new.pane c.new.anchor).map WindowInfo.weight) ↔
      ∀ o ∈ e.dockedIn l c.new.pane c.new.anchor, o ∉ (e.changesTo l).map LayoutChange.new →
        c.new.weight = c.new.weight + o.weight ∨ c.new.weight = o.weight + c.new.weight := by
  have hself : c.new ∈ (e.changesTo l).map LayoutChange.new := List.mem_map_of_mem hc
  have hweight : hostWeight s (e.changesTo l) c = _ := hostWeight_of_wide hwide hside
  rcases dockedIn_cases h hl (mem_dockedIn_of_resizes hc hresizes) with hplace | ⟨o, hne, hplace⟩
  · rw [Weight.IsSum.congr (hplace.map WindowInfo.weight), hweight]
    simp only [hplace.mem_iff, List.mem_singleton]
    cases hfind : beside? (e.changesTo l) c with
    | none =>
      refine iff_of_true .single fun o ho hstays ↦ absurd ?_ hstays
      rwa [ho]
    | some d =>
      obtain ⟨-, hne, hd⟩ := of_beside?_eq_some h hc hfind
      exact absurd (List.mem_singleton.1 (hplace.mem_iff.1 hd)) hne
  · rw [Weight.IsSum.congr (hplace.map WindowInfo.weight), hweight]
    simp only [hplace.mem_iff, List.mem_cons, List.not_mem_nil, or_false, forall_eq_or_imp,
      forall_eq, List.map_cons, List.map_nil, Weight.IsSum.pair_iff]
    cases hfind : beside? (e.changesTo l) c with
    | none =>
      -- the other window does not change, as its change would have been found
      have hstays : o ∉ (e.changesTo l).map LayoutChange.new := by
        intro ho
        obtain ⟨d, hd, rfl⟩ := List.mem_map.1 ho
        exact hne (of_beside?_eq_none h hc hfind hd (hplace.mem_iff.2 (by simp)))
      exact ⟨fun hsum ↦ ⟨fun hn ↦ absurd hself hn, fun _ ↦ hsum⟩, fun hq ↦ hq.2 hstays⟩
    | some d =>
      obtain ⟨hd, hdne, hmem⟩ := of_beside?_eq_some h hc hfind
      obtain rfl : d.new = o := by
        simpa [hdne] using hplace.mem_iff.1 hmem
      exact iff_of_true (Or.inl rfl)
        ⟨fun hn ↦ absurd hself hn, fun hn ↦ absurd (List.mem_map_of_mem hd) hn⟩

theorem setsWeight_eq_false_of_restructures {op : HostOp} (h : e.Restructures l op) :
    op.setsWeight = false := by
  cases op with
  | setWeight => cases h
  | _ => rfl

theorem ops_finishLayout_quiet (e : Engine) (changes : List LayoutChange) : ∃ ops,
    (e.finishLayout changes).host.ops = e.host.ops ++ ops ∧
      ops.filter HostOp.setsWeight = [] := by
  refine ⟨_, ops_finishLayout, List.filter_eq_nil_iff.2 fun op hop ↦ ?_⟩
  simp only [List.mem_append, List.mem_map, List.mem_singleton] at hop
  rcases hop with (⟨_, -, rfl⟩ | rfl) | ⟨_, -, rfl⟩
  all_goals exact Bool.false_ne_true

/-- What a new layout tells the host about weights: one for each docked window at whose new place
its weight is another, in slot order. -/
theorem ensures_setLayout_weights (hcovers : Covers l e) (hl : l.violations = []) :
    Ensures (setLayout l).run e fun res e' ↦ res = .ok () ∧ ∃ ops,
      e'.host.ops = e.host.ops ++ ops ∧ ops.filter HostOp.setsWeight =
        ((e.changesTo l).filter LayoutChange.resizes).map (e.weightOp (e.changesTo l)) := by
  refine (ensures_setLayout_applied (orderConflict?_of_violations hl)
    (fun _ _ _ h ↦ h.step) restructuring_foretold).mono ?_
  intro res e' hq
  rcases hq with ⟨hres, e₁, applied, h₁, hcarries, hlast⟩
  rw [hcovers.liveChanges] at hcarries
  obtain ⟨S, hS, hbatch⟩ := h₁.ops
  have hquiet : S.filter HostOp.setsWeight = [] := by
    refine List.filter_eq_nil_iff.2 fun op hop ↦ ?_
    rw [setsWeight_eq_false_of_restructures (hbatch op hop).1]
    exact Bool.false_ne_true
  refine ⟨hres, ?_⟩
  rcases hlast with ⟨hnil, rfl⟩ | ⟨-, rfl⟩
  · rw [hcovers.planned] at hnil
    refine ⟨S, hS, ?_⟩
    rw [hquiet, hnil]
    rfl
  · obtain ⟨T, hT, hquiet'⟩ := ops_finishLayout_quiet
      (applied.foldl (applySize applied) e₁) applied
    refine ⟨S ++ applied.flatMap (e₁.sizeOps applied) ++ T, ?_, ?_⟩
    · rw [hT, ops_foldl_applySize, hS]
      simp only [List.append_assoc]
    · rw [List.filter_append, List.filter_append, hquiet, hquiet', List.nil_append,
        List.append_nil, filter_flatMap_sizeOps, weightOps_carries hcarries h₁.steady]

/-- In ultrawide layout, where docked windows at the left or right lie beside each other, the host
gets one weight for each window that a new layout resizes, in slot order. It is the sum over all
docked windows at the place just if each of them is placed anew by the layout, or adds nothing: the
weight of one that stays as it was is missing. -/
theorem sums_setLayout_iff (h : Coherent e) (hwide : e.settings.ultrawideLayout)
    (hcovers : Covers l e) (hl : l.violations = [])
    (hrun : (setLayout l).run e = .ok res e') : res = .ok () ∧ ∃ ops,
      e'.host.ops = e.host.ops ++ ops ∧ ops.filter HostOp.setsWeight =
        ((e.changesTo l).filter LayoutChange.resizes).map (e.weightOp (e.changesTo l)) ∧
      ∀ c ∈ (e.changesTo l).filter LayoutChange.resizes, c.new.anchor.isHorizontal = false →
        ((hostWeight e.settings (e.changesTo l) c).IsSum
            ((e.dockedIn l c.new.pane c.new.anchor).map WindowInfo.weight) ↔
          ∀ o ∈ e.dockedIn l c.new.pane c.new.anchor, o ∉ (e.changesTo l).map LayoutChange.new →
            c.new.weight = c.new.weight + o.weight ∨ c.new.weight = o.weight + c.new.weight) := by
  obtain ⟨hres, ops, hops, hweights⟩ := ensures_setLayout_weights hcovers hl hrun
  refine ⟨hres, ops, hops, hweights, fun c hc hside ↦ ?_⟩
  obtain ⟨hc, hresizes⟩ := List.mem_filter.1 hc
  exact isSum_hostWeight (h.coarsen fun _ _ _ ↦ rfl) hl hwide hc hresizes hside

def wideBlank : Engine :=
  .new (.new .default) { Settings.default with ultrawideLayout := true } defaultKeyChord

def reweighted (l : Layout) (id : String) (weight : Weight) : Layout :=
  (l.get? id).elim l fun info ↦ l.put { info with weight := weight }

/-- The window beside the one that gets another weight stays as it was. -/
theorem not_isSum_reweighted : ∃ e e' l ops c, Session Request.Fits wideBlank e ∧
    (setLayout l).run e = .ok (.ok ()) e' ∧ e'.host.ops = e.host.ops ++ ops ∧
      e.weightOp (e.changesTo l) c ∈ ops ∧ c.new.anchor = .left ∧
        ¬ (hostWeight e.settings (e.changesTo l) c).IsSum
          ((e.dockedIn l c.new.pane c.new.anchor).map WindowInfo.weight) := by
  let again (e : Engine) : Layout := reweighted e.layout "A" (.ofDecimal false 2 (-1))
  let adds (v w : Weight) : Bool := decide (v ≠ v + w ∧ v ≠ w + v)
  let misses (e : Engine) (c : LayoutChange) : Bool := decide (c.new.anchor = .left) &&
    (e.dockedIn (again e) c.new.pane c.new.anchor).any fun o ↦
      decide (o ∉ (e.changesTo (again e)).map LayoutChange.new) && adds c.new.weight o.weight
  have hleads : wideBlank.registersTo (hiddenRequest "A")
      (·.registersTo { hiddenRequest "S" with split := true }
        (·.leadsTo (Request.reveal "A").run (·.leadsTo (Request.reveal "S").run fun e ↦
          e.settings.ultrawideLayout &&
            (e.entries.toList.all fun row ↦ (again e).contains row.2.id && row.2.available) &&
              decide ((again e).violations = []) && e.accepts (setLayout (again e)) &&
                ((e.changesTo (again e)).filter LayoutChange.resizes).any (misses e)))) := by
    decide +kernel
  obtain ⟨e₁, hs₁, hleads⟩ := exists_session_of_registersTo .start hleads
  obtain ⟨e₂, hs₂, hleads⟩ := exists_session_of_registersTo hs₁ hleads
  obtain ⟨e₃, hs₃, hleads⟩ := exists_session_of_leadsTo hs₂ hleads trivial
  obtain ⟨e, hs, hleads⟩ := exists_session_of_leadsTo hs₃ hleads trivial
  simp only [Bool.and_eq_true, decide_eq_true_eq, List.any_eq_true, List.all_eq_true, misses, adds]
    at hleads
  obtain ⟨⟨⟨⟨hwide, hcovers⟩, hl⟩, haccepts⟩, c, hc, hleft, o, ho, hstays, hne, hne'⟩ := hleads
  obtain ⟨e', hrun⟩ := exists_run_of_accepts haccepts
  have hcovers' : Covers (again e) e := ⟨fun hx ↦ (hcovers _ (SlotTable.mem_toList.2 hx)).1,
    fun hx ↦ (hcovers _ (SlotTable.mem_toList.2 hx)).2⟩
  have hcoherent : Coherent e := hs.coherent (coherentOn_of_empty rfl)
  obtain ⟨-, ops, hops, hweights, hsums⟩ := sums_setLayout_iff hcoherent hwide hcovers' hl hrun
  have hop : e.weightOp (e.changesTo (again e)) c ∈ ops.filter HostOp.setsWeight := by
    rw [hweights]
    exact List.mem_map_of_mem hc
  refine ⟨e, e', again e, ops, c, hs, hrun, hops, (List.mem_filter.1 hop).1, hleft, fun hsum ↦ ?_⟩
  rcases (hsums c hc (by rw [hleft]; rfl)).1 hsum o ho hstays with heq | heq
  · exact hne heq
  · exact hne' heq

end Engine

end ToolDock

import ToolDock.Proofs.Inserting

/-!
What a move reports. The windows it gives back are all that it changed besides the moved one, so a
copy of the old layout that takes over these placements is the new layout. Main statement:
`setAnchor_reports`, for every move that succeeds.
-/

namespace ToolDock.Layout

variable {l l' : Layout} {ws changed : List WindowInfo} {w cur moved placed : WindowInfo}
  {id pane : String} {anchor : Anchor} {order : Int32}

theorem eq_of_find? {vs ws : List WindowInfo} (hnodup : (vs.map WindowInfo.id).Nodup)
    (hids : vs.map WindowInfo.id = ws.map WindowInfo.id)
    (h : ∀ id, vs.find? (·.id == id) = ws.find? (·.id == id)) : vs = ws := by
  refine List.ext_getElem (by simpa using congrArg List.length hids) fun i hv hw ↦ ?_
  have hid : vs[i].id = ws[i].id := by
    have hi := congrArg (·[i]?) hids
    simpa [hv, hw] using hi
  have hleft := find?_of_mem hnodup (List.getElem_mem hv)
  have hright := find?_of_mem (hids ▸ hnodup) (List.getElem_mem hw)
  rw [← hid] at hright
  exact Option.some.inj (hleft.symm.trans ((h _).trans hright))

theorem eq_of_get? (hids : l.ids = l'.ids) (hget : ∀ id, l.get? id = l'.get? id)
    (hunified : l.unified = l'.unified) : l = l' :=
  eq_of_windows (eq_of_find? l.nodup hids hget) hunified

/-- Taking over the placements that differ, in any order, leads from one layout to another of the
same ids. -/
theorem foldl_put_eq (hids : l.ids = l'.ids) (hunified : l.unified = l'.unified)
    (hmem : ∀ w ∈ ws, w ∈ l'.windows)
    (hdiff : ∀ id, l.get? id ≠ l'.get? id → ∃ w ∈ ws, w.id = id) : ws.foldl put l = l' := by
  induction ws generalizing l with
  | nil =>
    refine eq_of_get? hids (fun id ↦ by_contra fun hne ↦ ?_) hunified
    obtain ⟨w, hw, -⟩ := hdiff id hne
    cases hw
  | cons w ws ih =>
    obtain ⟨hw, hrest⟩ := List.forall_mem_cons.1 hmem
    have hknown : l.contains w.id := contains_eq_true_iff.2 (hids ▸ List.mem_map_of_mem hw)
    refine ih ?_ (unified_put.trans hunified) hrest fun id hne ↦ ?_
    · rw [ids_put, if_pos hknown, hids]
    · rw [get?_put] at hne
      split at hne
      case isTrue hid =>
        rw [hid, get?_of_mem hw] at hne
        exact absurd rfl hne
      case isFalse hid =>
        obtain ⟨v, hv, rfl⟩ := hdiff id hne
        rcases List.mem_cons.1 hv with rfl | hv
        · exact absurd rfl hid
        · exact ⟨v, hv, rfl⟩

theorem ids_settled {room : Layout} (hroom : (room.relocated id pane anchor order).windows =
    l.windows.map (shifted id pane anchor order)) :
    (settled room cur id pane anchor order).ids = l.ids := by
  have hrelocated : (room.relocated id pane anchor order).ids = l.ids := by
    rw [ids, ids, hroom, List.map_map]
    exact List.map_congr_left fun _ _ ↦ id_shifted
  have hrenumbered : ∀ {m : Layout} {p a}, (m.renumbered p a).ids = m.ids :=
    map_id_renumberFrom _ _ _
  unfold settled
  dsimp only
  split
  · exact hrenumbered.trans hrelocated
  · exact hrenumbered.trans (hrenumbered.trans hrelocated)

theorem unified_settled {room : Layout} :
    (settled room cur id pane anchor order).unified = room.unified := by
  unfold settled
  dsimp only
  split <;> rfl

theorem Moves.mem_reordered (h : Moves id moved l l') : w ∈ reordered l l' id ↔
    w ∈ l'.windows ∧ w.id ≠ id ∧ ∃ v, l.get? w.id = some v ∧ v.order ≠ w.order := by
  rw [reordered, List.mem_filter, Bool.and_eq_true, bne_iff_ne, bne_iff_ne]
  refine and_congr_right fun hw ↦ and_congr_right fun hne ↦ ?_
  obtain ⟨v, hv, -⟩ := exists_left_of_rel (h.others w.id hne) (get?_of_mem hw)
  rw [hv]
  simp

theorem Moves.foldl_put (h : Moves id moved l l') (hids : l'.ids = l.ids)
    (hunified : l'.unified = l.unified) (hplaced : l'.get? id = some placed) :
    (placed :: reordered l l' id).foldl put l = l' := by
  refine foldl_put_eq hids.symm hunified.symm ?_ fun other hdiff ↦ ?_
  · exact List.forall_mem_cons.2 ⟨mem_of_get? hplaced, fun w hw ↦ (h.mem_reordered.1 hw).1⟩
  · by_cases hid : other = id
    · exact ⟨placed, List.mem_cons_self .., (id_of_get? hplaced).trans hid.symm⟩
    · have hrel := h.others other hid
      cases hw : l'.get? other with
      | none =>
        rw [hw] at hrel hdiff
        generalize l.get? other = v at hrel hdiff
        cases hrel
        exact absurd rfl hdiff
      | some w =>
        obtain ⟨v, hv, hre⟩ := exists_left_of_rel hrel hw
        obtain rfl := id_of_get? hw
        refine ⟨w, List.mem_cons_of_mem _ (h.mem_reordered.2 ⟨mem_of_get? hw, hid, v, hv, ?_⟩), rfl⟩
        intro ho
        rw [hv, hw, hre.eq_of_order ho] at hdiff
        exact hdiff rfl

/-- A move that succeeds gives exactly the other windows whose order it changed, with the new order
and in the order of the layout. The moved window keeps all but its pane, anchor and order, and the
others keep all but their orders; these too, unless they were in line on the old or the new stripe.
The old layout with the new placements of the moved window and those given is the new one. A move of
an unknown window does nothing. -/
theorem setAnchor_reports (h : setAnchor id pane anchor order l = .ok changed l') :
    (l.get? id = none → changed = [] ∧ l' = l) ∧
    ∀ cur, l.get? id = some cur → ∃ placed, l'.get? id = some placed ∧
      placed = { cur with pane := pane, anchor := anchor, order := placed.order } ∧
      (∀ other v, other ≠ id → l.get? other = some v → ∃ w, l'.get? other = some w ∧
        v.Reordered w ∧ (isOrderedAt pane anchor v = false →
          isOrderedAt cur.pane cur.anchor v = false → w = v)) ∧
      l'.ids = l.ids ∧ l'.unified = l.unified ∧
      changed.Sublist l'.windows ∧
      (∀ w, w ∈ changed ↔ w ∈ l'.windows ∧ w.id ≠ id ∧
        ∃ v, l.get? w.id = some v ∧ v.order ≠ w.order) ∧
      (placed :: changed).foldl put l = l' := by
  refine ⟨fun hnone ↦ ?_, fun cur hcur ↦ ?_⟩
  · unfold setAnchor at h
    rw [hnone] at h
    cases h
    exact ⟨rfl, rfl⟩
  · obtain ⟨hmoves, rfl⟩ := setAnchor_cases hcur h
    obtain ⟨order', room, hl', hroomUnified, hroom, -, -⟩ := setAnchor_eq_ok hcur h
    obtain ⟨placed, hplaced, hget⟩ := hmoves.self
    have hids : l'.ids = l.ids := hl' ▸ ids_settled hroom
    have hunified : l'.unified = l.unified := hl' ▸ unified_settled.trans hroomUnified
    refine ⟨placed, hget, hplaced, fun other v hne hv ↦ ?_, hids, hunified, List.filter_sublist,
      fun w ↦ hmoves.mem_reordered, hmoves.foldl_put hids hunified hget⟩
    obtain ⟨w, hw, hre⟩ := exists_right_of_rel (hmoves.others other hne) hv
    refine ⟨w, hw, hre, fun hnew hold ↦ ?_⟩
    obtain rfl := id_of_get? hv
    have hkept := get?_settled_of_not hroom hne hv hnew hold
    rw [← hl', hw] at hkept
    exact Option.some.inj hkept

/-- The windows of the new stripe get their places around "E", and "F" closes up on the old one. -/
theorem setAnchor_reports_unevenLayout : ∃ changed l' placed,
    setAnchor "E" defaultPane .left 5 unevenLayout = .ok changed l' ∧
      changed.map (fun w ↦ (w.id, w.order)) = [("A", 2), ("B", 0), ("C", 3), ("F", 0)] ∧
      (placed :: changed).foldl put unevenLayout = l' := by
  have hgiven : (match setAnchor "E" defaultPane .left 5 unevenLayout with
      | .ok changed _ => changed.map fun w ↦ (w.id, w.order)
      | .error _ _ => []) = [("A", 2), ("B", 0), ("C", 3), ("F", 0)] := by decide +kernel
  cases hrun : setAnchor "E" defaultPane .left 5 unevenLayout with
  | error fault l' =>
    rw [hrun] at hgiven
    cases hgiven
  | ok changed l' =>
    rw [hrun] at hgiven
    obtain ⟨placed, -, -, -, -, -, -, -, hreplay⟩ :=
      (setAnchor_reports hrun).2 { WindowInfo.new "E" .right with order := 2 } (by decide)
    exact ⟨changed, l', placed, rfl, hgiven, hreplay⟩

end ToolDock.Layout

import ToolDock.Proofs.Numbering

/-!
A move along or between stripes renumbers them, and no two windows of a renumbered stripe have the
same rank. So whoever shares an order after a move is elsewhere and shared it before. Main
statement: `sharesOrder_setAnchor`, for layouts with fewer windows than there are orders.
-/

namespace ToolDock.Layout

variable {l l' : Layout} {here : WindowInfo → Bool} {front back mid ws : List WindowInfo}
  {v w w' cur : WindowInfo} {i j id pane : String} {anchor : Anchor} {order : Int32}
  {changed : List WindowInfo}

theorem rank_lt (here : WindowInfo → Bool) (front back : List WindowInfo) (w : WindowInfo) :
    rank here front back w < (front ++ w :: back).length := by
  have hfront : front.countP (fun o ↦ here o && o.order ≤ w.order) ≤ front.length :=
    List.countP_le_length
  have hback : back.countP (fun o ↦ here o && o.order < w.order) ≤ back.length :=
    List.countP_le_length
  rw [rank, List.length_append, List.length_cons]
  omega

theorem rank_ne (hw : here w) (hv : here v) :
    rank here front (mid ++ v :: back) w ≠ rank here (front ++ w :: mid) back v := by
  have hcount : ∀ (ws : List WindowInfo) {p q : WindowInfo → Bool}, (∀ o, p o → q o) →
      ws.countP p ≤ ws.countP q := fun ws _ _ h ↦ List.countP_mono_left fun o _ ↦ h o
  simp only [rank, List.countP_append, List.countP_cons, hw, hv, Bool.true_and, decide_eq_true_eq]
  by_cases hle : w.order ≤ v.order
  · have hlt : ¬ v.order < w.order := Int32.not_lt.2 hle
    have hfront := hcount front (p := fun o ↦ here o && o.order ≤ w.order)
      (q := fun o ↦ here o && o.order ≤ v.order) (by grind)
    have hmid := hcount mid (p := fun o ↦ here o && o.order < w.order)
      (q := fun o ↦ here o && o.order ≤ v.order) (by grind)
    have hback := hcount back (p := fun o ↦ here o && o.order < w.order)
      (q := fun o ↦ here o && o.order < v.order) (by grind)
    rw [if_neg hlt, if_pos hle]
    omega
  · have hlt : v.order < w.order := Int32.not_le.1 hle
    have hfront := hcount front (p := fun o ↦ here o && o.order ≤ v.order)
      (q := fun o ↦ here o && o.order ≤ w.order) (by grind)
    have hmid := hcount mid (p := fun o ↦ here o && o.order ≤ v.order)
      (q := fun o ↦ here o && o.order < w.order) (by grind)
    have hback := hcount back (p := fun o ↦ here o && o.order < v.order)
      (q := fun o ↦ here o && o.order < w.order) (by grind)
    rw [if_pos hlt, if_neg hle]
    omega

theorem mem_renumberFrom (h : w' ∈ renumberFrom here front ws) : ∃ pre w post,
    ws = pre ++ w :: post ∧ w' = if here w then
      { w with order := Int32.ofNat (rank here (front ++ pre) post w) } else w := by
  induction ws generalizing front with
  | nil => cases h
  | cons w ws ih =>
    rcases List.mem_cons.1 h with rfl | h
    · exact ⟨[], w, ws, rfl, by rw [List.append_nil]⟩
    · obtain ⟨pre, v, post, rfl, hv⟩ := ih h
      refine ⟨w :: pre, v, post, rfl, ?_⟩
      rwa [List.append_assoc] at hv

theorem ofNat_inj {m n : Nat} (hm : m < Int32.size) (hn : n < Int32.size)
    (h : Int32.ofNat m = Int32.ofNat n) : m = n := by
  have hbits : BitVec.ofNat 32 m = BitVec.ofNat 32 n := congrArg Int32.toBitVec h
  have htoNat := congrArg BitVec.toNat hbits
  rwa [BitVec.toNat_ofNat, BitVec.toNat_ofNat, Nat.mod_eq_of_lt hm, Nat.mod_eq_of_lt hn] at htoNat

theorem append_cons_eq {α : Type} {as bs as' bs' : List α} {a b : α}
    (h : as ++ a :: bs = as' ++ b :: bs') (hne : a ≠ b) :
    (∃ mid, as' = as ++ a :: mid ∧ bs = mid ++ b :: bs') ∨
      ∃ mid, as = as' ++ b :: mid ∧ bs' = mid ++ a :: bs := by
  rcases List.append_eq_append_iff.1 h with ⟨mid, rfl, hmid⟩ | ⟨mid, rfl, hmid⟩
  · cases mid with
    | nil => exact absurd (List.cons.inj hmid).1 hne
    | cons c mid =>
      obtain ⟨rfl, rfl⟩ := List.cons.inj hmid
      exact Or.inl ⟨mid, rfl, rfl⟩
  · cases mid with
    | nil => exact absurd (List.cons.inj hmid).1.symm hne
    | cons c mid =>
      obtain ⟨rfl, rfl⟩ := List.cons.inj hmid
      exact Or.inr ⟨mid, rfl, rfl⟩

theorem size_mapWindows {f : List WindowInfo → List WindowInfo} {h} :
    (l.mapWindows f h).size = l.size := by
  have hlength := congrArg List.length (h l.windows)
  rwa [List.length_map, List.length_map] at hlength

theorem sharesOrder_renumbered (hsize : l.size ≤ Int32.size)
    (h : (l.renumbered pane anchor).SharesOrder i j) :
    l.SharesOrder i j ∧ ∀ a, l.get? i = some a → a.isAt pane anchor = false := by
  obtain ⟨hne, a, b, ha, hb, hoa, hob, hslot, horder⟩ := h
  obtain ⟨pre, w, post, hw, rfl⟩ := mem_renumberFrom (mem_of_get? ha)
  obtain ⟨pre', v, post', hv, rfl⟩ := mem_renumberFrom (mem_of_get? hb)
  have hslots : w.slot = v.slot := by
    split at hslot
    all_goals
      split at hslot
      all_goals exact hslot
  have hwid : w.id = i := by
    rw [← id_of_get? ha]
    split <;> rfl
  have hvid : v.id = j := by
    rw [← id_of_get? hb]
    split <;> rfl
  have hwget : l.get? i = some w := hwid ▸ get?_of_mem (hw ▸ by simp)
  have hvget : l.get? j = some v := hvid ▸ get?_of_mem (hv ▸ by simp)
  have hat : w.isAt pane anchor = v.isAt pane anchor := by
    obtain ⟨hpane, hanchor, -⟩ := Slot.mk.inj hslots
    rw [WindowInfo.isAt, hpane, hanchor, WindowInfo.isAt]
  by_cases hon : w.isAt pane anchor = true
  · -- on the stripe, a window with an order has its rank as order
    exfalso
    have hhere : ∀ {u : WindowInfo} {n : Nat}, u.isAt pane anchor = true →
        (if isOrderedAt pane anchor u then { u with order := Int32.ofNat n } else u).hasOrder →
        isOrderedAt pane anchor u = true := by
      intro u n hu ho
      split at ho
      case isTrue h => exact h
      case isFalse => rw [isOrderedAt, hu, ho]; rfl
    have hherew := hhere hon hoa
    have hherev := hhere (hat ▸ hon) hob
    rw [if_pos hherew, if_pos hherev] at horder
    have hrank := ofNat_inj (Nat.lt_of_lt_of_le (rank_lt ..) ?_)
      (Nat.lt_of_lt_of_le (rank_lt ..) ?_) horder
    · have hwv : w ≠ v := by
        rintro rfl
        exact hne (hwid.symm.trans hvid)
      rcases append_cons_eq (hw.symm.trans hv) hwv with ⟨mid, rfl, rfl⟩ | ⟨mid, rfl, rfl⟩
      · exact rank_ne hherew hherev hrank
      · exact rank_ne hherev hherew hrank.symm
    · rw [List.nil_append, ← hw]
      exact hsize
    · rw [List.nil_append, ← hv]
      exact hsize
  · have hoff : ∀ {u : WindowInfo}, u.isAt pane anchor = w.isAt pane anchor →
        isOrderedAt pane anchor u = false := by
      intro u hu
      rw [isOrderedAt, hu, Bool.eq_false_iff.2 hon]
      rfl
    rw [if_neg (by rw [hoff rfl]; exact Bool.false_ne_true)] at hoa horder
    rw [if_neg (by rw [hoff hat.symm]; exact Bool.false_ne_true)] at hob horder
    refine ⟨⟨hne, w, v, hwget, hvget, hoa, hob, hslots, horder⟩, fun c hc ↦ ?_⟩
    cases hwget.symm.trans hc
    exact Bool.eq_false_iff.2 hon

theorem mem_raiseOrders (h : w' ∈ (raiseOrders here ws).1) :
    ∃ w ∈ ws, w.Reordered w' ∧ (here w = false → w' = w) := by
  induction ws with
  | nil => cases h
  | cons w ws ih =>
    have hkept : w' ∈ w :: ws → ∃ v ∈ w :: ws, v.Reordered w' ∧ (here v = false → w' = v) :=
      fun hmem ↦ ⟨w', hmem, .refl, fun _ ↦ rfl⟩
    have hrest : w' ∈ (raiseOrders here ws).1 →
        ∃ v ∈ w :: ws, v.Reordered w' ∧ (here v = false → w' = v) := by
      intro hmem
      obtain ⟨v, hv, hre, hsame⟩ := ih hmem
      exact ⟨v, List.mem_cons_of_mem _ hv, hre, hsame⟩
    unfold raiseOrders at h
    split at h
    case isTrue hhere =>
      split at h
      · rcases List.mem_cons.1 h with rfl | h
        · exact ⟨w, List.mem_cons_self .., rfl, fun hno ↦ absurd hhere (by rw [hno]; simp)⟩
        · exact hrest h
      · exact hkept h
    case isFalse =>
      rcases List.mem_cons.1 h with rfl | h
      · exact hkept (List.mem_cons_self ..)
      · exact hrest h

theorem get?_of_raised (hmem : w' ∈ (raiseOrders here l.windows).1) (hid : w'.id = id)
    (hhere : ∀ w : WindowInfo, w.Reordered w' → here w = false) : l.get? id = some w' := by
  obtain ⟨w, hw, hre, hsame⟩ := mem_raiseOrders hmem
  obtain rfl := hsame (hhere w hre)
  exact hid ▸ get?_of_mem hw

def settled (room : Layout) (cur : WindowInfo) (id pane : String) (anchor : Anchor)
    (order : Int32) : Layout :=
  let moved := (room.relocated id pane anchor order).renumbered pane anchor
  if cur.isAt pane anchor then moved else moved.renumbered cur.pane cur.anchor

theorem setAnchor_eq_settled (hcur : l.get? id = some cur)
    (h : setAnchor id pane anchor order l = .ok changed l') : ∃ room order',
      l' = settled room cur id pane anchor order' ∧ room.size = l.size ∧
        ∀ other w, room.get? other = some w → w.isAt pane anchor = false →
          l.get? other = some w := by
  unfold setAnchor at h
  rw [hcur] at h
  dsimp only at h
  split at h
  · split at h
    · cases h
      exact ⟨l, _, rfl, rfl, fun _ _ hw _ ↦ hw⟩
    · cases h
  · split at h
    · cases h
      refine ⟨_, order, rfl, size_mapWindows, fun other w hw hoff ↦ ?_⟩
      refine get?_of_raised (mem_of_get? hw) (id_of_get? hw) fun v hre ↦ ?_
      have hat : v.isAt pane anchor = false := by
        rw [hre] at hoff
        exact hoff
      simp [isOrderedAt, hat]
    · cases h

theorem size_setAnchor (hcur : l.get? id = some cur)
    (h : setAnchor id pane anchor order l = .ok changed l') : l'.size = l.size := by
  obtain ⟨room, order', rfl, hroom, -⟩ := setAnchor_eq_settled hcur h
  unfold settled
  dsimp only
  split
  · exact ((size_mapWindows).trans size_mapWindows).trans hroom
  · exact (((size_mapWindows).trans size_mapWindows).trans size_mapWindows).trans hroom

theorem sharesOrder_setAnchor (hcur : l.get? id = some cur)
    (h : setAnchor id pane anchor order l = .ok changed l') (hsize : l.size ≤ Int32.size)
    (hs : l'.SharesOrder i j) : i ≠ id ∧ j ≠ id ∧ l.SharesOrder i j := by
  obtain ⟨room, order', rfl, hroom, hget⟩ := setAnchor_eq_settled hcur h
  have hrelocated : (room.relocated id pane anchor order').size ≤ Int32.size := by
    rw [relocated, size_mapWindows, hroom]
    exact hsize
  have hmoved :
      ((room.relocated id pane anchor order').renumbered pane anchor).SharesOrder i j := by
    unfold settled at hs
    dsimp only at hs
    split at hs
    · exact hs
    · refine (sharesOrder_renumbered ?_ hs).1
      rwa [renumbered, size_mapWindows]
  obtain ⟨hshares, hoffi⟩ := sharesOrder_renumbered hrelocated hmoved
  obtain ⟨-, hoffj⟩ := sharesOrder_renumbered hrelocated hmoved.symm
  -- a window that is off the stripe is not the one that was moved there
  have hoff : ∀ {k}, (∀ a, (room.relocated id pane anchor order').get? k = some a →
      a.isAt pane anchor = false) → ∀ a, (room.relocated id pane anchor order').get? k = some a →
      k ≠ id ∧ l.get? k = some a := by
    intro k hoff a ha
    have hat := hoff a ha
    rw [get?_relocated] at ha
    split at ha
    case isTrue =>
      obtain ⟨c, -, rfl⟩ := Option.map_eq_some_iff.1 ha
      simp [WindowInfo.isAt] at hat
    case isFalse hk => exact ⟨hk, hget k a ha hat⟩
  obtain ⟨hne, a, b, ha, hb, hshared⟩ := hshares
  obtain ⟨hi, hla⟩ := hoff hoffi a ha
  obtain ⟨hj, hlb⟩ := hoff hoffj b hb
  exact ⟨hi, hj, hne, a, b, hla, hlb, hshared⟩

end ToolDock.Layout

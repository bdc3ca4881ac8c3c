import Mathlib.Data.List.InsertIdx
import Mathlib.Data.List.Sort
import ToolDock.Proofs.Renumbering

/-!
A stripe as a line of windows: by order, and windows of one order as the layout has them. A move
takes a window out of its line and puts it into the line of another stripe, or elsewhere into the
same one, and the windows of both lines get their places in line as orders. Main statement:
`setAnchor_inserts`.
-/

namespace ToolDock.Layout

variable {l l' m : Layout} {here : WindowInfo → Bool} {front back ws changed : List WindowInfo}
  {v w cur : WindowInfo} {id pane pane' : String} {anchor anchor' : Anchor} {order : Int32}

def position (l : Layout) (w : WindowInfo) : Nat := l.ids.idxOf w.id

/-- Whether `v` stands before `w` in a line: it has the smaller order, or the same order and is in
front in the layout. -/
def standsBefore (l : Layout) (v w : WindowInfo) : Bool :=
  v.order < w.order || (v.order == w.order && l.position v < l.position w)

/-- The windows that `here` selects, in line. -/
def line (l : Layout) (here : WindowInfo → Bool) : List WindowInfo :=
  (l.windows.filter here).insertionSort fun v w ↦ l.standsBefore w v = false

theorem standsBefore_iff : l.standsBefore v w ↔ v.order.toInt < w.order.toInt ∨
    v.order.toInt = w.order.toInt ∧ l.position v < l.position w := by
  simp [standsBefore, Int32.lt_iff_toInt_lt, Int32.toInt_inj]

theorem position_ne (hv : v ∈ l.windows) (hw : w ∈ l.windows) (hne : v ≠ w) :
    l.position v ≠ l.position w := by
  intro heq
  have hids : v.id = w.id := (List.idxOf_inj (List.mem_map_of_mem hv)).1 heq
  have hget := get?_of_mem hv
  rw [hids, get?_of_mem hw] at hget
  exact hne (Option.some.inj hget).symm

theorem line_perm : (l.line here).Perm (l.windows.filter here) := List.perm_insertionSort _ _

theorem mem_line : w ∈ l.line here ↔ w ∈ l.windows ∧ here w := by
  rw [line_perm.mem_iff, List.mem_filter]

theorem pairwise_line (l : Layout) (here : WindowInfo → Bool) :
    (l.line here).Pairwise fun v w ↦ l.standsBefore v w := by
  have htotal : Std.Total fun v w ↦ l.standsBefore w v = false :=
    ⟨fun v w ↦ by grind [standsBefore_iff]⟩
  have htrans : IsTrans WindowInfo fun v w ↦ l.standsBefore w v = false :=
    ⟨fun u v w ↦ by grind [standsBefore_iff]⟩
  have hsorted := List.pairwise_insertionSort (fun v w ↦ l.standsBefore w v = false)
    (l.windows.filter here)
  have hnodup : (l.line here).Nodup :=
    line_perm.nodup_iff.2 ((List.Nodup.of_map _ l.nodup).filter _)
  refine (hsorted.and hnodup).imp_of_mem fun {v w} hv hw h ↦ ?_
  obtain ⟨hle, hne⟩ := h
  have hpos := position_ne (mem_line.1 hv).1 (mem_line.1 hw).1 hne
  grind [standsBefore_iff]

theorem countP_standsBefore (h : (front ++ w :: back).Pairwise fun v w ↦ l.standsBefore v w) :
    (front ++ w :: back).countP (l.standsBefore · w) = front.length := by
  obtain ⟨-, hrest, hfront⟩ := List.pairwise_append.1 h
  have hall : front.countP (l.standsBefore · w) = front.length :=
    List.countP_eq_length.2 fun v hv ↦ hfront v hv w (List.mem_cons_self ..)
  have hnone : (w :: back).countP (l.standsBefore · w) = 0 := by
    refine List.countP_eq_zero.2 fun v hv ↦ ?_
    rcases List.mem_cons.1 hv with rfl | hv
    · simp [standsBefore_iff]
    · have hbefore := (List.pairwise_cons.1 hrest).1 v hv
      grind [standsBefore_iff]
  rw [List.countP_append, hall, hnone, Nat.add_zero]

def before (l : Layout) (here : WindowInfo → Bool) (w : WindowInfo) : Nat :=
  l.windows.countP fun v ↦ here v && l.standsBefore v w

theorem rank_eq_before (h : l.windows = front ++ w :: back) :
    rank here front back w = l.before here w := by
  have hids : l.ids = front.map WindowInfo.id ++ w.id :: back.map WindowInfo.id := by
    rw [ids, h, List.map_append, List.map_cons]
  have hnodup := l.nodup
  rw [show l.windows.map WindowInfo.id = l.ids from rfl, hids] at hnodup
  have hw : l.position w = front.length := by
    rw [position, hids, List.idxOf_append_of_notMem (by grind), List.idxOf_cons_self,
      List.length_map, Nat.add_zero]
  have hin : ∀ v ∈ front, l.position v < front.length := by
    intro v hv
    rw [position, hids, List.idxOf_append_of_mem (List.mem_map_of_mem hv)]
    simpa using List.idxOf_lt_length_iff.2 (List.mem_map_of_mem hv)
  have hback : ∀ v ∈ back, front.length < l.position v := by
    intro v hv
    rw [position, hids, List.idxOf_append_of_notMem (by grind), List.idxOf_cons_ne _ (by grind),
      List.length_map]
    omega
  rw [rank, before, h, List.countP_append, List.countP_cons]
  have hself : (here w && l.standsBefore w w) = false := by simp [standsBefore]
  rw [if_neg (by rw [hself]; exact Bool.false_ne_true), Nat.add_zero]
  congr 1
  · refine List.countP_congr fun v hv ↦ ?_
    have := hin v hv
    grind [standsBefore_iff, Int32.le_iff_toInt_le]
  · refine List.countP_congr fun v hv ↦ ?_
    have := hback v hv
    grind [standsBefore_iff, Int32.lt_iff_toInt_lt]

def inPlace (l : Layout) (here : WindowInfo → Bool) (w : WindowInfo) : WindowInfo :=
  if here w then { w with order := Int32.ofNat (l.before here w) } else w

theorem id_inPlace : (l.inPlace here w).id = w.id := by
  unfold inPlace
  split <;> rfl

theorem isAt_inPlace : (l.inPlace here w).isAt pane anchor = w.isAt pane anchor := by
  unfold inPlace
  split <;> rfl

theorem windows_renumbered : (l.renumbered pane anchor).windows =
    l.windows.map (l.inPlace (isOrderedAt pane anchor)) := by
  have hfrom : ∀ front ws, l.windows = front ++ ws →
      renumberFrom (isOrderedAt pane anchor) front ws =
        ws.map (l.inPlace (isOrderedAt pane anchor)) := by
    intro front ws h
    induction ws generalizing front with
    | nil => rfl
    | cons w ws ih =>
      rw [renumberFrom, rank_eq_before h, ih (front ++ [w]) (by rw [h, List.append_cons]),
        List.map_cons, inPlace]
  exact hfrom [] l.windows rfl

theorem get?_map {f : WindowInfo → WindowInfo} (hf : ∀ w, (f w).id = w.id)
    (h : m.windows = l.windows.map f) : m.get? id = (l.get? id).map f := by
  have hids : ((·.id == id) ∘ f) = fun w : WindowInfo ↦ w.id == id := by
    funext w
    rw [Function.comp, hf]
  rw [get?, h, List.find?_map, hids]
  rfl

theorem get?_renumbered : (l.renumbered pane anchor).get? id =
    (l.get? id).map (l.inPlace (isOrderedAt pane anchor)) :=
  get?_map (fun _ ↦ id_inPlace) windows_renumbered

/-- The windows of a row have their places in it as orders, and no other window of the stripe has an
order. -/
structure Stands (l : Layout) (pane : String) (anchor : Anchor) (row : List String) : Prop where
  nodup : row.Nodup
  order : ∀ i id, row[i]? = some id →
    ∃ w, l.get? id = some w ∧ w.isAt pane anchor ∧ w.order = Int32.ofNat i
  mem : ∀ w ∈ l.windows, w.isAt pane anchor → w.hasOrder → w.id ∈ row

/-- After a renumbering the windows that were in line have their places as orders. -/
theorem stands_renumbered (hperm : ws.Perm (l.windows.filter (isOrderedAt pane anchor)))
    (hline : ws.Pairwise fun v w ↦ l.standsBefore v w) :
    (l.renumbered pane anchor).Stands pane anchor (ws.map WindowInfo.id) := by
  have hmem : ∀ w, w ∈ ws ↔ w ∈ l.windows ∧ isOrderedAt pane anchor w := fun w ↦ by
    rw [hperm.mem_iff, List.mem_filter]
  refine ⟨?_, fun i id hi ↦ ?_, fun w' hw' hat ho ↦ ?_⟩
  · exact (hperm.map _).nodup_iff.2 (l.nodup.sublist (List.Sublist.map _ List.filter_sublist))
  · rw [List.getElem?_map, Option.map_eq_some_iff] at hi
    obtain ⟨w, hw, rfl⟩ := hi
    obtain ⟨hlt, rfl⟩ := List.getElem?_eq_some_iff.1 hw
    obtain ⟨hwl, hhere⟩ := (hmem ws[i]).1 (List.getElem_mem hlt)
    have hsplit : ws = ws.take i ++ ws[i] :: ws.drop (i + 1) := by
      rw [List.getElem_cons_drop, List.take_append_drop]
    have hbefore : l.before (isOrderedAt pane anchor) ws[i] = i := by
      have hcount := countP_standsBefore (hsplit ▸ hline)
      rw [← hsplit, hperm.countP_eq, List.countP_filter, List.length_take,
        Nat.min_eq_left hlt.le] at hcount
      refine Eq.trans (List.countP_congr fun v _ ↦ ?_) hcount
      rw [Bool.and_comm]
    refine ⟨l.inPlace (isOrderedAt pane anchor) ws[i], ?_, ?_, ?_⟩
    · rw [get?_renumbered, get?_of_mem hwl, Option.map_some]
    · rw [isAt_inPlace]
      exact (Bool.and_eq_true_iff.1 hhere).1
    · rw [inPlace, if_pos hhere, hbefore]
  · rw [windows_renumbered] at hw'
    obtain ⟨w, hw, rfl⟩ := List.mem_map.1 hw'
    rw [id_inPlace]
    refine List.mem_map_of_mem ((hmem w).2 ⟨hw, ?_⟩)
    by_contra hno
    rw [isAt_inPlace] at hat
    rw [inPlace, if_neg hno] at ho
    exact hno (Bool.and_eq_true_iff.2 ⟨hat, ho⟩)

theorem inPlace_of_not (h : here w = false) : l.inPlace here w = w := by
  rw [inPlace, h]
  rfl

theorem Stands.renumbered {row : List String} (h : l.Stands pane anchor row)
    (hother : ¬ (pane' = pane ∧ anchor' = anchor)) :
    (l.renumbered pane' anchor').Stands pane anchor row := by
  have hoff : ∀ w : WindowInfo, w.isAt pane anchor → isOrderedAt pane' anchor' w = false := by
    intro w hat
    simp only [WindowInfo.isAt, Bool.and_eq_true, beq_iff_eq] at hat
    simp only [isOrderedAt, WindowInfo.isAt, hat]
    grind
  refine ⟨h.nodup, fun i id hi ↦ ?_, fun w' hw' hat ho ↦ ?_⟩
  · obtain ⟨w, hw, hat, ho⟩ := h.order i id hi
    refine ⟨w, ?_, hat, ho⟩
    rw [get?_renumbered, hw, Option.map_some, inPlace_of_not (hoff w hat)]
  · rw [windows_renumbered] at hw'
    obtain ⟨w, hw, rfl⟩ := List.mem_map.1 hw'
    rw [isAt_inPlace] at hat
    rw [inPlace_of_not (hoff w hat)] at ho ⊢
    exact h.mem w hw hat ho

/-- Whether the window is another one than `id` and has an order on the stripe. -/
def isOtherAt (id pane : String) (anchor : Anchor) (w : WindowInfo) : Bool :=
  w.id != id && isOrderedAt pane anchor w

/-- The number of windows that a move to `order` puts `id` behind: all others on the stripe for the
unassigned order. -/
def ahead (l : Layout) (id pane : String) (anchor : Anchor) (order : Int32) : Nat :=
  l.windows.countP fun w ↦
    isOtherAt id pane anchor w && (order == unassignedOrder || w.order < order)

/-- A window before the renumbering: `id` has its new place, and those behind it make room. -/
def shifted (id pane : String) (anchor : Anchor) (order : Int32) (w : WindowInfo) : WindowInfo :=
  if w.id = id then { w with pane := pane, anchor := anchor, order := order }
  else if isOtherAt id pane anchor w && order ≤ w.order then { w with order := w.order + 1 }
  else w

theorem id_shifted : (shifted id pane anchor order w).id = w.id := by
  unfold shifted
  split
  · rfl
  · split <;> rfl

theorem order_shifted_self (h : cur.id = id) :
    (shifted id pane anchor order cur).order = order := by
  rw [shifted, if_pos h]

theorem toInt_add_one (h : order ≠ Int32.maxValue) : (order + 1).toInt = order.toInt + 1 := by
  have hne : order.toInt ≠ 2147483647 := fun heq ↦ h (Int32.toInt_inj.1 heq)
  have hone : (1 : Int32).toInt = 1 := rfl
  have hrange := Checked.toInt_mem_range order
  rw [Int32.toInt_add, hone, Int.bmod_eq_of_le] <;> omega

theorem add32_one (h : order ≠ Int32.maxValue) : Checked.add32 order 1 = .ok (order + 1) := by
  have hone : (1 : Int32).toInt = 1 := rfl
  rw [Checked.add32_eq_ok_iff, toInt_add_one h, hone]

theorem ne_maxValue_of_lt {o : Int32} (h : order.toInt < o.toInt) : order ≠ Int32.maxValue := by
  rintro rfl
  have hmax : Int32.maxValue.toInt = 2147483647 := rfl
  have hrange := Checked.toInt_mem_range o
  omega

theorem raiseOrders_eq (h : ∀ w ∈ ws, here w → w.order ≠ Int32.maxValue) : raiseOrders here ws =
    (ws.map fun w ↦ if here w then { w with order := w.order + 1 } else w, none) := by
  induction ws with
  | nil => rfl
  | cons w ws ih =>
    obtain ⟨hw, hrest⟩ := List.forall_mem_cons.1 h
    rw [raiseOrders, ih hrest, List.map_cons]
    split
    case isTrue hhere => rw [add32_one (hw hhere)]
    case isFalse => rfl

theorem ne_maxValue_of_raiseOrders (h : (raiseOrders here ws).2 = none) :
    ∀ w ∈ ws, here w → w.order ≠ Int32.maxValue := by
  induction ws with
  | nil => simp
  | cons w ws ih =>
    rw [List.forall_mem_cons]
    unfold raiseOrders at h
    split at h
    case isTrue hhere =>
      split at h
      case h_1 next hnext =>
        refine ⟨fun _ ↦ ne_maxValue_of_lt (o := next) ?_, ih h⟩
        have hsucc := Checked.add32_eq_ok_iff.1 hnext
        have hone : (1 : Int32).toInt = 1 := rfl
        omega
      case h_2 => cases h
    case isFalse hno => exact ⟨fun hhere ↦ absurd hhere hno, ih h⟩

theorem lastOrder?_mem {last : Int32} (h : l.lastOrder? pane anchor = some last) :
    ∃ w ∈ l.windows, w.isAt pane anchor ∧ w.order = last := by
  have hfold : ∀ (ws : List WindowInfo) (best : Option Int32),
      ws.foldl greaterOrder best = some last → best = some last ∨ ∃ w ∈ ws, w.order = last := by
    intro ws
    induction ws with
    | nil => exact fun best h ↦ Or.inl h
    | cons w ws ih =>
      intro best h
      rcases ih _ h with hbest | ⟨v, hv, ho⟩
      · cases best with
        | none => exact Or.inr ⟨w, List.mem_cons_self .., Option.some.inj hbest⟩
        | some b =>
          by_cases hlt : b < w.order
          · refine Or.inr ⟨w, List.mem_cons_self .., ?_⟩
            simpa [greaterOrder, hlt] using hbest
          · refine Or.inl ?_
            simpa [greaterOrder, hlt] using hbest
      · exact Or.inr ⟨v, List.mem_cons_of_mem _ hv, ho⟩
  rcases hfold _ none h with hnone | ⟨w, hw, ho⟩
  · cases hnone
  · exact ⟨w, (List.mem_filter.1 hw).1, (List.mem_filter.1 hw).2, ho⟩

theorem exists_nextOrder (h : ∀ w ∈ l.windows, w.isAt pane anchor → w.order ≠ Int32.maxValue) :
    ∃ order, l.nextOrder pane anchor = .ok order := by
  unfold nextOrder
  cases hlast : l.lastOrder? pane anchor with
  | none => exact ⟨0, rfl⟩
  | some last =>
    obtain ⟨w, hw, hat, rfl⟩ := lastOrder?_mem hlast
    have hnext := add32_one (h w hw hat)
    dsimp only
    rw [hnext]
    exact ⟨_, rfl⟩

theorem shifted_of_lt (h : isOtherAt id pane anchor w → w.order.toInt < order.toInt) :
    shifted id pane anchor order w =
      if w.id = id then { w with pane := pane, anchor := anchor, order := order } else w := by
  rw [shifted]
  split
  case isTrue => rfl
  case isFalse =>
    rw [if_neg]
    intro habove
    obtain ⟨hother, hle⟩ := Bool.and_eq_true_iff.1 habove
    have hlt := h hother
    rw [decide_eq_true_eq, Int32.le_iff_toInt_le] at hle
    omega

theorem ahead_unassigned
    (h : ∀ w ∈ l.windows, isOtherAt id pane anchor w → w.order.toInt < order.toInt) :
    l.ahead id pane anchor unassignedOrder = l.ahead id pane anchor order := by
  refine List.countP_congr fun w hw ↦ ?_
  have hlt := h w hw
  simp only [beq_self_eq_true, Bool.true_or, Bool.and_true, Bool.and_eq_true, Bool.or_eq_true,
    decide_eq_true_eq, Int32.lt_iff_toInt_lt]
  exact ⟨fun hother ↦ ⟨hother, Or.inr (hlt hother)⟩, And.left⟩

theorem toInt_nonneg (hk : unassignedOrder ≤ order) (hassigned : order ≠ unassignedOrder) :
    0 ≤ order.toInt := by
  have hne : order.toInt ≠ -1 := fun heq ↦ hassigned (Int32.toInt_inj.1 heq)
  have hle : (-1 : Int) ≤ order.toInt := Int32.le_iff_toInt_le.1 hk
  omega

theorem exists_setAnchor (pane : String) (anchor : Anchor) (order : Int32)
    (hcur : l.get? id = some cur)
    (h : ∀ w ∈ l.windows, w.isAt pane anchor → w.order ≠ Int32.maxValue) :
    ∃ changed l', setAnchor id pane anchor order l = .ok changed l' := by
  unfold setAnchor
  rw [hcur]
  dsimp only
  split
  case isTrue =>
    obtain ⟨last, hlast⟩ := exists_nextOrder h
    rw [hlast]
    exact ⟨_, _, rfl⟩
  case isFalse =>
    rw [raiseOrders_eq fun w hw habove ↦ h w hw ?_]
    · exact ⟨_, _, rfl⟩
    · simp only [isOrderedAt, Bool.and_eq_true] at habove
      exact habove.1.2.1

theorem setAnchor_eq_ok (hcur : l.get? id = some cur)
    (h : setAnchor id pane anchor order l = .ok changed l') : ∃ order' room,
    l' = settled room cur id pane anchor order' ∧ room.unified = l.unified ∧
      (room.relocated id pane anchor order').windows =
        l.windows.map (shifted id pane anchor order') ∧
      (∀ w ∈ l.windows, isOtherAt id pane anchor w → w.order ≠ Int32.maxValue) ∧
      if order = unassignedOrder then l.nextOrder pane anchor = .ok order'
      else order' = order := by
  unfold setAnchor at h
  rw [hcur] at h
  dsimp only at h
  split at h
  case isTrue hend =>
    split at h
    case h_2 => cases h
    case h_1 last hlast =>
      cases h
      have hbelow : ∀ w ∈ l.windows, isOtherAt id pane anchor w →
          w.order.toInt < last.toInt := by
        intro w hw hother
        simp only [isOtherAt, isOrderedAt, Bool.and_eq_true] at hother
        exact (lt_nextOrder hlast).2 w hw hother.2.1
      refine ⟨last, l, rfl, rfl, List.map_congr_left fun w hw ↦ ?_, fun w hw hother ↦ ?_, ?_⟩
      · exact (shifted_of_lt (hbelow w hw)).symm
      · exact ne_maxValue_of_lt (hbelow w hw hother)
      · rwa [if_pos hend]
  case isFalse hassigned =>
    split at h
    case h_2 => cases h
    case h_1 hraised =>
      cases h
      have hmax := ne_maxValue_of_raiseOrders hraised
      refine ⟨order, _, rfl, rfl, ?_, fun w hw hother heq ↦ ?_, ?_⟩
      · simp only [relocated, mapWindows, raiseOrders_eq hmax, List.map_map]
        refine List.map_congr_left fun w _ ↦ ?_
        simp only [Function.comp, shifted, isOtherAt]
        by_cases hid : w.id = id <;> grind
      · have hle : order ≤ w.order := by
          rw [heq, Int32.le_iff_toInt_le]
          have hlast : Int32.maxValue.toInt = 2147483647 := rfl
          have hrange := Checked.toInt_mem_range order
          omega
        exact hmax w hw (Bool.and_eq_true_iff.2 ⟨hother, decide_eq_true hle⟩) heq
      · rw [if_neg hassigned]

theorem ahead_placed {order' : Int32} (hk : unassignedOrder ≤ order)
    (h : if order = unassignedOrder then l.nextOrder pane anchor = .ok order'
      else order' = order) :
    0 ≤ order'.toInt ∧ l.ahead id pane anchor order = l.ahead id pane anchor order' := by
  by_cases hend : order = unassignedOrder
  · rw [if_pos hend] at h
    obtain ⟨hnonneg, hlt⟩ := lt_nextOrder h
    refine ⟨hnonneg, hend ▸ ahead_unassigned fun w hw hother ↦ ?_⟩
    simp only [isOtherAt, isOrderedAt, Bool.and_eq_true] at hother
    exact hlt w hw hother.2.1
  · obtain rfl : order' = order := by rwa [if_neg hend] at h
    exact ⟨toInt_nonneg hk hend, rfl⟩

/-- Before the renumbering every window is shifted, to make room at an assigned order with the same
windows ahead. -/
theorem setAnchor_shifts (pane : String) (anchor : Anchor) (hcur : l.get? id = some cur)
    (hmax : ∀ w ∈ l.windows, w.order ≠ Int32.maxValue) (hk : unassignedOrder ≤ order) :
    ∃ order' room changed, setAnchor id pane anchor order l =
        .ok changed (settled room cur id pane anchor order') ∧ 0 ≤ order'.toInt ∧
      (room.relocated id pane anchor order').windows =
        l.windows.map (shifted id pane anchor order') ∧
      l.ahead id pane anchor order = l.ahead id pane anchor order' := by
  obtain ⟨changed, l', hrun⟩ := exists_setAnchor pane anchor order hcur fun w hw _ ↦ hmax w hw
  obtain ⟨order', room, rfl, -, hroom, -, hplace⟩ := setAnchor_eq_ok hcur hrun
  obtain ⟨hnonneg, hahead⟩ := ahead_placed hk hplace
  exact ⟨order', room, changed, hrun, hnonneg, hroom, hahead⟩

theorem exists_split (order : Int32) (h : ws.Pairwise fun v w ↦ l.standsBefore v w) :
    ∃ front back, ws = front ++ back ∧ front.length = ws.countP (·.order < order) ∧
      (∀ v ∈ front, v.order < order) ∧ ∀ v ∈ back, order ≤ v.order := by
  induction ws with
  | nil => exact ⟨[], [], rfl, rfl, by simp, by simp⟩
  | cons w ws ih =>
    obtain ⟨hw, hrest⟩ := List.pairwise_cons.1 h
    by_cases hlt : w.order < order
    · obtain ⟨front, back, rfl, hlength, hfront, hback⟩ := ih hrest
      refine ⟨w :: front, back, rfl, ?_, List.forall_mem_cons.2 ⟨hlt, hfront⟩, hback⟩
      rw [List.length_cons, hlength, List.countP_cons_of_pos (by simpa using hlt)]
    · have hall : ∀ v ∈ w :: ws, order ≤ v.order := by
        intro v hv
        rcases List.mem_cons.1 hv with rfl | hv
        · exact Int32.not_lt.1 hlt
        · grind [standsBefore_iff, Int32.lt_iff_toInt_lt, Int32.le_iff_toInt_le]
      refine ⟨[], w :: ws, rfl, (List.countP_eq_zero.2 fun v hv ↦ ?_).symm, by simp, hall⟩
      simpa using Int32.not_lt.2 (hall v hv)

theorem insertIdx_length {α : Type} (as bs : List α) (a : α) :
    (as ++ bs).insertIdx as.length a = as ++ a :: bs := by
  induction as with
  | nil => rfl
  | cons b as ih => rw [List.cons_append, List.length_cons, List.insertIdx_succ_cons, ih]; rfl

theorem position_shifted (hm : m.windows = l.windows.map (shifted id pane anchor order)) :
    m.position (shifted id pane anchor order w) = l.position w := by
  have hids : m.ids = l.ids := by
    rw [ids, ids, hm, List.map_map]
    exact List.map_congr_left fun _ _ ↦ id_shifted
  rw [position, position, hids, id_shifted]

theorem isOrderedAt_shifted (hk : 0 ≤ order.toInt)
    (hw : isOtherAt id pane anchor w → w.order ≠ Int32.maxValue) :
    isOrderedAt pane anchor (shifted id pane anchor order w) =
      (w.id == id || isOtherAt id pane anchor w) := by
  have hne : ∀ {o : Int32}, 0 ≤ o.toInt → o ≠ unassignedOrder := by
    rintro o ho rfl
    exact absurd ho (by decide)
  by_cases hid : w.id = id
  · simp [shifted, hid, isOrderedAt, WindowInfo.isAt, WindowInfo.hasOrder, hne hk]
  · have hothers : (w.id == id || isOtherAt id pane anchor w) = isOrderedAt pane anchor w := by
      rw [isOtherAt, beq_eq_false_iff_ne.2 hid, bne_iff_ne.2 hid]
      rfl
    rw [hothers, shifted, if_neg hid]
    split
    case isTrue habove =>
      have hraised := toInt_add_one (hw (Bool.and_eq_true_iff.1 habove).1)
      simp only [isOtherAt, isOrderedAt, Bool.and_eq_true, decide_eq_true_eq] at habove
      obtain ⟨⟨-, hat, ho⟩, hle⟩ := habove
      have hnext : w.order + 1 ≠ unassignedOrder := by
        rw [Int32.le_iff_toInt_le] at hle
        exact hne (by omega)
      rw [isOrderedAt, isOrderedAt, hat, ho]
      exact Bool.and_eq_true_iff.2 ⟨hat, bne_iff_ne.2 hnext⟩
    case isFalse => rfl

theorem standsBefore_shifted (hm : m.windows = l.windows.map (shifted id pane anchor order))
    (hmax : ∀ w ∈ l.windows, isOtherAt id pane anchor w → w.order ≠ Int32.maxValue)
    (hv : v ∈ l.windows) (hw : w ∈ l.windows)
    (hothers : isOtherAt id pane anchor v ∧ isOtherAt id pane anchor w)
    (h : l.standsBefore v w) :
    m.standsBefore (shifted id pane anchor order v) (shifted id pane anchor order w) := by
  rw [standsBefore_iff] at h ⊢
  have horder : ∀ {u : WindowInfo}, u ∈ l.windows → isOtherAt id pane anchor u →
      (shifted id pane anchor order u).order.toInt =
        if order.toInt ≤ u.order.toInt then u.order.toInt + 1 else u.order.toInt := by
    intro u hu hother
    have hid : ¬ u.id = id := bne_iff_ne.1 (Bool.and_eq_true_iff.1 hother).1
    rw [shifted, if_neg hid, hother, Bool.true_and]
    simp only [decide_eq_true_eq, Int32.le_iff_toInt_le]
    split
    · exact toInt_add_one (hmax u hu hother)
    · rfl
  rw [position_shifted hm, position_shifted hm, horder hv hothers.1, horder hw hothers.2]
  split <;> split <;> omega

theorem filter_shifted_perm (hcur : l.get? id = some cur)
    (hmax : ∀ w ∈ l.windows, isOtherAt id pane anchor w → w.order ≠ Int32.maxValue)
    (hk : 0 ≤ order.toInt) :
    ((l.windows.map (shifted id pane anchor order)).filter (isOrderedAt pane anchor)).Perm
      ((cur :: l.windows.filter (isOtherAt id pane anchor)).map
        (shifted id pane anchor order)) := by
  rw [List.filter_map]
  refine List.Perm.map _ ?_
  have hnodup : l.windows.Nodup := List.Nodup.of_map _ l.nodup
  have hself : isOtherAt id pane anchor cur = false := by
    simp [isOtherAt, id_of_get? hcur]
  have hmem : ∀ w, w ∈ cur :: l.windows.filter (isOtherAt id pane anchor) ↔
      w ∈ l.windows ∧ (w.id == id || isOtherAt id pane anchor w) := by
    intro w
    rw [List.mem_cons, List.mem_filter, Bool.or_eq_true, beq_iff_eq]
    constructor
    · rintro (rfl | ⟨hw, hother⟩)
      · exact ⟨mem_of_get? hcur, Or.inl (id_of_get? hcur)⟩
      · exact ⟨hw, Or.inr hother⟩
    · rintro ⟨hw, rfl | hother⟩
      · exact Or.inl (Option.some.inj ((get?_of_mem hw).symm.trans hcur))
      · exact Or.inr ⟨hw, hother⟩
  refine (List.perm_ext_iff_of_nodup (hnodup.filter _) ?_).2 fun w ↦ ?_
  · refine List.nodup_cons.2 ⟨fun hin ↦ ?_, hnodup.filter _⟩
    exact Bool.false_ne_true (hself.symm.trans (List.mem_filter.1 hin).2)
  · rw [hmem, List.mem_filter]
    refine and_congr_right fun hw ↦ ?_
    rw [Function.comp, isOrderedAt_shifted hk (hmax w hw)]

theorem ahead_eq_length (hk : 0 ≤ order.toInt)
    (hsplit : l.line (isOtherAt id pane anchor) = front ++ back)
    (hlength : front.length = (front ++ back).countP (·.order < order)) :
    l.ahead id pane anchor order = front.length := by
  have hassigned : order ≠ unassignedOrder := by
    rintro rfl
    exact absurd hk (by decide)
  rw [hlength, ← hsplit, line_perm.countP_eq, List.countP_filter, ahead]
  refine List.countP_congr fun w _ ↦ ?_
  simp [hassigned, and_comm]

theorem inserted_perm (hcur : l.get? id = some cur)
    (hmax : ∀ w ∈ l.windows, isOtherAt id pane anchor w → w.order ≠ Int32.maxValue)
    (hk : 0 ≤ order.toInt)
    (hsplit : l.line (isOtherAt id pane anchor) = front ++ back) :
    ((front ++ cur :: back).map (shifted id pane anchor order)).Perm
      ((l.windows.map (shifted id pane anchor order)).filter (isOrderedAt pane anchor)) := by
  refine List.Perm.trans (List.Perm.map _ ?_) (filter_shifted_perm hcur hmax hk).symm
  refine List.perm_middle.trans (List.Perm.cons _ ?_)
  rw [← hsplit]
  exact line_perm

theorem standsBefore_inserted (hself : cur.id = id) (hv : isOtherAt id pane anchor v)
    (hlt : v.order < order) :
    m.standsBefore (shifted id pane anchor order v) (shifted id pane anchor order cur) := by
  have hid : ¬ v.id = id := bne_iff_ne.1 (Bool.and_eq_true_iff.1 hv).1
  rw [standsBefore_iff, order_shifted_self hself, shifted, if_neg hid,
    if_neg (by simpa [hv] using hlt), ← Int32.lt_iff_toInt_lt]
  exact Or.inl hlt

theorem inserted_standsBefore (hself : cur.id = id) (hv : isOtherAt id pane anchor v)
    (hle : order ≤ v.order) (hmax : v.order ≠ Int32.maxValue) :
    m.standsBefore (shifted id pane anchor order cur) (shifted id pane anchor order v) := by
  have hid : ¬ v.id = id := bne_iff_ne.1 (Bool.and_eq_true_iff.1 hv).1
  have hnext := toInt_add_one hmax
  rw [standsBefore_iff, order_shifted_self hself, shifted, if_neg hid,
    if_pos (by simpa [hv] using hle), hnext]
  rw [Int32.le_iff_toInt_le] at hle
  omega

theorem pairwise_inserted (hcur : l.get? id = some cur)
    (hmax : ∀ w ∈ l.windows, isOtherAt id pane anchor w → w.order ≠ Int32.maxValue)
    (hm : m.windows = l.windows.map (shifted id pane anchor order))
    (hsplit : l.line (isOtherAt id pane anchor) = front ++ back)
    (hfront : ∀ v ∈ front, v.order < order) (hback : ∀ v ∈ back, order ≤ v.order) :
    ((front ++ cur :: back).map (shifted id pane anchor order)).Pairwise
      fun v w ↦ m.standsBefore v w := by
  have hother : ∀ {w}, w ∈ front ++ back → w ∈ l.windows ∧ isOtherAt id pane anchor w := by
    intro w hw
    rwa [← hsplit, mem_line] at hw
  have hself := id_of_get? hcur
  have hline : (front ++ back).Pairwise fun v w ↦ m.standsBefore
      (shifted id pane anchor order v) (shifted id pane anchor order w) := by
    rw [← hsplit]
    refine (pairwise_line l (isOtherAt id pane anchor)).imp_of_mem fun hv hw hbefore ↦ ?_
    rw [hsplit] at hv hw
    exact standsBefore_shifted hm hmax (hother hv).1 (hother hw).1 ⟨(hother hv).2, (hother hw).2⟩
      hbefore
  obtain ⟨hpfront, hpback, hcross⟩ := List.pairwise_append.1 hline
  refine List.pairwise_map.2 (List.pairwise_append.2 ⟨hpfront, List.pairwise_cons.2
    ⟨fun v hv ↦ ?_, hpback⟩, fun v hv ↦ List.forall_mem_cons.2 ⟨?_, hcross v hv⟩⟩)
  · obtain ⟨hmem, hv'⟩ := hother (List.mem_append_right front hv)
    exact inserted_standsBefore hself hv' (hback v hv) (hmax v hmem hv')
  · exact standsBefore_inserted hself (hother (List.mem_append_left back hv)).2 (hfront v hv)

/-- The line of the new stripe is that of the others with `id` put in. -/
theorem stands_inserted (hcur : l.get? id = some cur)
    (hmax : ∀ w ∈ l.windows, isOtherAt id pane anchor w → w.order ≠ Int32.maxValue)
    (hk : 0 ≤ order.toInt)
    (hm : m.windows = l.windows.map (shifted id pane anchor order)) :
    (m.renumbered pane anchor).Stands pane anchor
      (((l.line (isOtherAt id pane anchor)).map WindowInfo.id).insertIdx
        (l.ahead id pane anchor order) id) := by
  obtain ⟨front, back, hsplit, hlength, hfront, hback⟩ :=
    exists_split order (pairwise_line l (isOtherAt id pane anchor))
  have hlength := hsplit ▸ hlength
  have hperm := inserted_perm hcur hmax hk hsplit
  rw [← hm] at hperm
  have hstands := stands_renumbered hperm (pairwise_inserted hcur hmax hm hsplit hfront hback)
  rw [hsplit, ahead_eq_length hk hsplit hlength, List.map_append,
    ← List.length_map (f := WindowInfo.id), insertIdx_length]
  simpa [Function.comp_def, id_shifted, id_of_get? hcur] using hstands

theorem stands_left {f : WindowInfo → WindowInfo} (hf : ∀ w, (f w).id = w.id)
    (hm : m.windows = l.windows.map f)
    (hleft : ∀ w ∈ l.windows, isOrderedAt pane anchor (f w) = isOtherAt id pane anchor w)
    (hkept : ∀ w ∈ l.windows, isOtherAt id pane anchor w → f w = w) :
    (m.renumbered pane anchor).Stands pane anchor
      ((l.line (isOtherAt id pane anchor)).map WindowInfo.id) := by
  have hids : m.ids = l.ids := by
    rw [ids, ids, hm, List.map_map]
    exact List.map_congr_left fun w _ ↦ hf w
  have hfilter : m.windows.filter (isOrderedAt pane anchor) =
      l.windows.filter (isOtherAt id pane anchor) := by
    have hcongr : l.windows.filter (isOrderedAt pane anchor ∘ f) =
        l.windows.filter (isOtherAt id pane anchor) := List.filter_congr hleft
    rw [hm, List.filter_map, hcongr]
    refine (List.map_congr_left fun w hw ↦ ?_).trans (List.map_id _)
    exact hkept w (List.mem_filter.1 hw).1 (List.mem_filter.1 hw).2
  refine stands_renumbered (hfilter ▸ line_perm) ((pairwise_line l _).imp fun h ↦ ?_)
  rw [standsBefore_iff] at h ⊢
  rwa [position, position, hids]

theorem isAt_iff : w.isAt pane anchor ↔ w.pane = pane ∧ w.anchor = anchor := by
  simp [WindowInfo.isAt]

theorem inPlace_shifted_of_not (hid : ¬ w.id = id) (h : isOrderedAt pane anchor w = false) :
    m.inPlace (isOrderedAt pane anchor) (shifted id pane anchor order w) = w := by
  have hshifted : shifted id pane anchor order w = w := by
    rw [shifted, if_neg hid, isOtherAt, h, Bool.and_false]
    rfl
  rw [hshifted, inPlace_of_not h]

theorem isAt_shifted (hid : ¬ w.id = id) :
    (shifted id pane anchor order w).isAt pane' anchor' = w.isAt pane' anchor' := by
  rw [shifted, if_neg hid]
  split <;> rfl

theorem ahead_le_length :
    l.ahead id pane anchor order ≤ (l.line (isOtherAt id pane anchor)).length := by
  rw [line_perm.length_eq, ← List.countP_eq_length_filter, ahead]
  exact List.countP_mono_left fun w _ h ↦ (Bool.and_eq_true_iff.1 h).1

section Settled

variable {room : Layout}
  (hroom : (room.relocated id pane anchor order).windows =
    l.windows.map (shifted id pane anchor order))
include hroom

theorem stands_settled_of_others (hcur : l.get? id = some cur)
    (hmax : ∀ w ∈ l.windows, isOtherAt id pane anchor w → w.order ≠ Int32.maxValue)
    (hk : 0 ≤ order.toInt) :
    (settled room cur id pane anchor order).Stands pane anchor
      (((l.line (isOtherAt id pane anchor)).map WindowInfo.id).insertIdx
        (l.ahead id pane anchor order) id) := by
  have hinserted := stands_inserted hcur hmax hk hroom
  unfold settled
  dsimp only
  split
  case isTrue => exact hinserted
  case isFalse hoff => exact hinserted.renumbered fun h ↦ hoff (isAt_iff.2 h)

theorem stands_settled (hcur : l.get? id = some cur)
    (hmax : ∀ w ∈ l.windows, w.order ≠ Int32.maxValue) (hk : 0 ≤ order.toInt) :
    (settled room cur id pane anchor order).Stands pane anchor
      (((l.line (isOtherAt id pane anchor)).map WindowInfo.id).insertIdx
        (l.ahead id pane anchor order) id) :=
  stands_settled_of_others hroom hcur (fun w hw _ ↦ hmax w hw) hk

theorem stands_settled_left (hoff : cur.isAt pane anchor = false) :
    (settled room cur id pane anchor order).Stands cur.pane cur.anchor
      ((l.line (isOtherAt id cur.pane cur.anchor)).map WindowInfo.id) := by
  have hwindows : ((room.relocated id pane anchor order).renumbered pane anchor).windows =
      l.windows.map ((room.relocated id pane anchor order).inPlace (isOrderedAt pane anchor) ∘
        shifted id pane anchor order) := by
    rw [windows_renumbered, hroom, List.map_map]
  -- the stripes are not the same, so no window is on both
  have hapart : ∀ {w : WindowInfo}, w.isAt cur.pane cur.anchor → w.isAt pane anchor = false := by
    intro w hat
    obtain ⟨hpane, hanchor⟩ := isAt_iff.1 hat
    rw [← hoff, WindowInfo.isAt, WindowInfo.isAt, hpane, hanchor]
  have hkept : ∀ {w : WindowInfo}, ¬ w.id = id → w.isAt cur.pane cur.anchor →
      (room.relocated id pane anchor order).inPlace (isOrderedAt pane anchor)
        (shifted id pane anchor order w) = w := fun hid hat ↦
    inPlace_shifted_of_not hid (by rw [isOrderedAt, hapart hat, Bool.false_and])
  unfold settled
  dsimp only
  rw [if_neg (by rw [hoff]; exact Bool.false_ne_true)]
  refine stands_left (fun w ↦ id_inPlace.trans id_shifted) hwindows (fun w _ ↦ ?_) fun w _ h ↦ ?_
  · by_cases hid : w.id = id
    · have hnew : (shifted id pane anchor order w).isAt pane anchor := by
        simp [shifted, hid, WindowInfo.isAt]
      have hold : (shifted id pane anchor order w).isAt cur.pane cur.anchor = false :=
        Bool.eq_false_iff.2 fun hat ↦ by simp [hapart hat] at hnew
      rw [isOrderedAt, isAt_inPlace, hold, isOtherAt, hid, bne_self_eq_false]
      rfl
    · have hother : isOtherAt id cur.pane cur.anchor w = isOrderedAt cur.pane cur.anchor w := by
        rw [isOtherAt, bne_iff_ne.2 hid, Bool.true_and]
      rw [hother]
      by_cases hat : w.isAt cur.pane cur.anchor
      · rw [hkept hid hat]
      · rw [isOrderedAt, isOrderedAt, isAt_inPlace, isAt_shifted hid, Bool.eq_false_iff.2 hat]
        rfl
  · simp only [isOtherAt, isOrderedAt, Bool.and_eq_true, bne_iff_ne] at h
    exact hkept h.1 h.2.1

theorem get?_settled_of_not (hne : w.id ≠ id) (hw : l.get? w.id = some w)
    (hnew : isOrderedAt pane anchor w = false)
    (hold : isOrderedAt cur.pane cur.anchor w = false) :
    (settled room cur id pane anchor order).get? w.id = some w := by
  have hshifted : (room.relocated id pane anchor order).get? w.id =
      some (shifted id pane anchor order w) := by
    rw [get?_map (fun _ ↦ id_shifted) hroom, hw, Option.map_some]
  have hmoved : ((room.relocated id pane anchor order).renumbered pane anchor).get? w.id =
      some w := by
    rw [get?_renumbered, hshifted, Option.map_some, inPlace_shifted_of_not hne hnew]
  unfold settled
  dsimp only
  split
  case isTrue => exact hmoved
  case isFalse => rw [get?_renumbered, hmoved, Option.map_some, inPlace_of_not hold]

end Settled

/-- For every layout in which each order has a successor, a move succeeds. It puts the window into
the line of the others on the new stripe, behind those with a smaller order, or behind all of them,
and leaves the others on the old stripe in line. The windows of both lines get their places in line
as orders, and every other window stays as it is. -/
theorem setAnchor_inserts (pane : String) (anchor : Anchor) (hcur : l.get? id = some cur)
    (hmax : ∀ w ∈ l.windows, w.order ≠ Int32.maxValue) (hk : unassignedOrder ≤ order) :
    ∃ changed l', setAnchor id pane anchor order l = .ok changed l' ∧
      (∃ placed, l'.get? id = some placed ∧ placed.isAt pane anchor ∧
        placed.order = Int32.ofNat (l.ahead id pane anchor order)) ∧
      l'.Stands pane anchor (((l.line (isOtherAt id pane anchor)).map WindowInfo.id).insertIdx
        (l.ahead id pane anchor order) id) ∧
      (cur.isAt pane anchor = false → l'.Stands cur.pane cur.anchor
        ((l.line (isOtherAt id cur.pane cur.anchor)).map WindowInfo.id)) ∧
      ∀ other w, other ≠ id → l.get? other = some w → isOrderedAt pane anchor w = false →
        isOrderedAt cur.pane cur.anchor w = false → l'.get? other = some w := by
  obtain ⟨order', room, changed, hrun, hnonneg, hroom, hahead⟩ :=
    setAnchor_shifts pane anchor hcur hmax hk
  have hstands := stands_settled hroom hcur hmax hnonneg
  rw [← hahead] at hstands
  refine ⟨changed, _, hrun, ?_, hstands, stands_settled_left hroom, ?_⟩
  · refine hstands.order _ id ?_
    rw [List.getElem?_insertIdx_self, if_pos]
    rw [List.length_map]
    exact ahead_le_length
  · intro other w hne hw hnew hold
    obtain rfl := id_of_get? hw
    exact get?_settled_of_not hroom hne hw hnew hold

def unevenLayout : Layout := .ofList [
  { WindowInfo.new "A" .left with order := 5 }, { WindowInfo.new "B" .left with order := -7 },
  { WindowInfo.new "C" .left with order := 5 }, WindowInfo.new "D" .left,
  { WindowInfo.new "E" .right with order := 2 }, { WindowInfo.new "F" .right with order := 9 }]

theorem setAnchor_inserts_unevenLayout : ∃ cur changed l',
    unevenLayout.get? "E" = some cur ∧
      (∀ w ∈ unevenLayout.windows, w.order ≠ Int32.maxValue) ∧ unassignedOrder ≤ 5 ∧
      setAnchor "E" defaultPane .left 5 unevenLayout = .ok changed l' ∧
      l'.Stands defaultPane .left ["B", "E", "A", "C"] ∧ l'.Stands defaultPane .right ["F"] := by
  have hcur : unevenLayout.get? "E" = some { WindowInfo.new "E" .right with order := 2 } := by
    decide
  have hmax : ∀ w ∈ unevenLayout.windows, w.order ≠ Int32.maxValue := by decide
  obtain ⟨changed, l', hrun, -, hnew, hold, -⟩ :=
    setAnchor_inserts defaultPane .left hcur hmax (by decide : unassignedOrder ≤ 5)
  have hinto : ((unevenLayout.line (isOtherAt "E" defaultPane .left)).map WindowInfo.id).insertIdx
      (unevenLayout.ahead "E" defaultPane .left 5) "E" = ["B", "E", "A", "C"] := by decide +kernel
  have hfrom :
      (unevenLayout.line (isOtherAt "E" defaultPane .right)).map WindowInfo.id = ["F"] := by
    decide +kernel
  exact ⟨_, changed, l', hcur, hmax, by decide, hrun, hinto ▸ hnew, hfrom ▸ hold (by decide)⟩

end ToolDock.Layout

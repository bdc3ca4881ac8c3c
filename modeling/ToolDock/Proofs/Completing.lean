import ToolDock.Proofs.Planning

namespace ToolDock.Engine

variable {κ : Type} {detail : Int32 × Bool × Bool → κ} {s : Set SlotKey} {e : Engine}
  {l m : Layout} {key k : SlotKey} {x y : Entry} {row : SlotKey × Entry} {c : LayoutChange}
  {changes : List LayoutChange} {id : String}

/-- Placements in entries are about the windows of the entries, and no window has two. -/
structure Identified (e : Engine) : Prop where
  info_id : ∀ {key x}, e.entries.get? key = some x → x.info.id = x.id
  unique : ∀ {k k' x x'}, e.entries.get? k = some x → e.entries.get? k' = some x' →
    x.id = x'.id → k = k'

theorem CoherentOn.identified (h : CoherentOn detail s e) : e.Identified where
  info_id hx := (h.info_id (standing?_of_get? hx)).trans (h.id_eq (standing?_of_get? hx)).symm
  unique hx hy hid := h.key_eq hx hy hid

def placementIn (e : Engine) (l : Layout) (x : Entry) : WindowInfo :=
  (l.get? x.id).getD (e.fallbackFor x.id (e.oldInfo x))

def settled (e : Engine) (l : Layout) (x : Entry) : WindowInfo :=
  if (e.oldInfo x).agrees (e.placementIn l x) || x.available then e.placementIn l x
  else { e.placementIn l x with visible := false }

/-- The change of an entry that a completed layout places anew. -/
def plannedChange? (e : Engine) (l : Layout) (row : SlotKey × Entry) : Option LayoutChange :=
  if (e.oldInfo row.2).agrees (e.placementIn l row.2) then none
  else some ⟨row.1, e.oldInfo row.2, e.settled l row.2⟩

theorem id_oldInfo (hid : x.info.id = x.id) : (e.oldInfo x).id = x.id := by
  unfold oldInfo
  cases hinfo : e.layout.get? x.id with
  | none => exact hid
  | some info => exact Layout.id_of_get? hinfo

theorem id_placementIn (hid : (e.oldInfo x).id = x.id) : (e.placementIn l x).id = x.id := by
  unfold placementIn fallbackFor
  cases hinfo : l.get? x.id with
  | some info => exact Layout.id_of_get? hinfo
  | none =>
    cases hdefault : e.defaultLayout.get? x.id with
    | some info => exact Layout.id_of_get? hdefault
    | none => exact hid

theorem placementIn_congr (h : m.get? x.id = l.get? x.id) :
    e.placementIn m x = e.placementIn l x := by
  rw [placementIn, placementIn, h]

theorem settled_congr (h : m.get? x.id = l.get? x.id) : e.settled m x = e.settled l x := by
  rw [settled, settled, placementIn_congr h]

theorem plannedChange?_congr (h : m.get? row.2.id = l.get? row.2.id) :
    e.plannedChange? m row = e.plannedChange? l row := by
  rw [plannedChange?, plannedChange?, settled_congr h, placementIn_congr h]

theorem settled_eq : (e.settled l x).slot = (e.placementIn l x).slot ∧
    (e.settled l x).order = (e.placementIn l x).order ∧
    (x.available → e.settled l x = e.placementIn l x) := by
  unfold settled
  split
  case isTrue => exact ⟨rfl, rfl, fun _ ↦ rfl⟩
  case isFalse h =>
    refine ⟨rfl, rfl, fun ha ↦ absurd ?_ h⟩
    rw [ha, Bool.or_true]

theorem planEntry_eq (m : Layout) (changes : List LayoutChange)
    (hid : (e.oldInfo row.2).id = row.2.id) : ∃ m',
    e.planEntry (m, changes) row = (m', changes ++ (e.plannedChange? m row).toList) ∧
      ∀ id, m'.get? id = if id = row.2.id then some (e.settled m row.2) else m.get? id := by
  obtain ⟨key, x⟩ := row
  -- the layout with the placement that the entry has in it
  obtain ⟨m₁, hplan, hget⟩ : ∃ m₁, e.planEntry (m, changes) (key, x) =
      (if (e.oldInfo x).agrees (e.placementIn m x) then (m₁, changes)
        else if x.available then (m₁, changes ++ [⟨key, e.oldInfo x, e.placementIn m x⟩])
        else (m₁.put { e.placementIn m x with visible := false },
          changes ++ [⟨key, e.oldInfo x, { e.placementIn m x with visible := false }⟩])) ∧
      ∀ id, m₁.get? id = if id = x.id then some (e.placementIn m x) else m.get? id := by
    cases hinfo : m.get? x.id with
    | some info =>
      have hplaced : e.placementIn m x = info := by rw [placementIn, hinfo, Option.getD_some]
      refine ⟨m, ?_, fun id ↦ ?_⟩
      · simp only [planEntry, hinfo, hplaced]
        rfl
      · split
        case isTrue h => rw [h, hinfo, hplaced]
        case isFalse => rfl
    | none =>
      have hplaced : e.fallbackFor x.id ((e.layout.get? x.id).getD x.info) = e.placementIn m x := by
        rw [placementIn, hinfo, Option.getD_none, oldInfo]
      refine ⟨m.put (e.placementIn m x), ?_, fun id ↦ ?_⟩
      · simp only [planEntry, hinfo, hplaced]
        rfl
      · rw [Layout.get?_put, id_placementIn hid]
  have hagrees : e.settled m x = if (e.oldInfo x).agrees (e.placementIn m x) || x.available then
      e.placementIn m x else { e.placementIn m x with visible := false } := rfl
  rw [hplan]
  simp only [plannedChange?, hagrees]
  by_cases h : (e.oldInfo x).agrees (e.placementIn m x) = true
  · exact ⟨m₁, by simp [h], by simpa [h] using hget⟩
  · by_cases ha : x.available = true
    · exact ⟨m₁, by simp [h, ha], by simpa [h, ha] using hget⟩
    · refine ⟨m₁.put { e.placementIn m x with visible := false }, by simp [h, ha], fun id ↦ ?_⟩
      have hself := id_placementIn (e := e) (l := m) hid
      by_cases hx : id = x.id
      · rw [Layout.get?_put, if_pos (hx.trans hself.symm), if_pos hx]
        simp [h, ha]
      · rw [Layout.get?_put, if_neg fun heq ↦ hx (heq.trans hself), hget, if_neg hx, if_neg hx]

theorem contains_completed
    (hid : ∀ {key x}, e.entries.get? key = some x → (e.oldInfo x).id = x.id)
    (hx : e.entries.get? key = some x) : (e.completed l).contains x.id := by
  have hrows : ∀ rows : List (SlotKey × Entry), (∀ row ∈ rows, (e.oldInfo row.2).id = row.2.id) →
      ∀ m changes, (∀ id, m.contains id → (rows.foldl e.planEntry (m, changes)).1.contains id) ∧
        ∀ row ∈ rows, (rows.foldl e.planEntry (m, changes)).1.contains row.2.id := by
    intro rows hrows
    induction rows with
    | nil => exact fun m changes ↦ ⟨fun _ h ↦ h, fun _ h ↦ (nomatch h)⟩
    | cons row rows ih =>
      intro m changes
      obtain ⟨m', hplan, hget⟩ := planEntry_eq (e := e) m changes
        (hrows row (List.mem_cons_self ..))
      obtain ⟨hkept, hadded⟩ := ih (fun r hr ↦ hrows r (List.mem_cons_of_mem _ hr)) m'
        (changes ++ (e.plannedChange? m row).toList)
      rw [List.foldl_cons, hplan]
      have hself : m'.contains row.2.id :=
        Layout.contains_of_get? ((hget row.2.id).trans (if_pos rfl))
      refine ⟨fun id hm ↦ hkept id ?_, fun r hr ↦ ?_⟩
      · by_cases heq : id = row.2.id
        · rwa [heq]
        · rw [Layout.contains_iff, hget, if_neg heq]
          exact Layout.contains_iff.1 hm
      · rcases List.mem_cons.1 hr with rfl | hr
        · exact hkept _ hself
        · exact hadded r hr
  exact (hrows e.entries.toList (fun row hrow ↦ hid (SlotTable.mem_toList.1 hrow)) l []).2 (key, x)
    (SlotTable.mem_toList.2 hx)

theorem planLayout_of_identified (h : e.Identified) :
    e.planned l = e.entries.toList.filterMap (e.plannedChange? l) ∧
      (∀ {key x}, e.entries.get? key = some x →
        (e.completed l).get? x.id = some (e.settled l x)) ∧
      ∀ id, (∀ {key x}, e.entries.get? key = some x → x.id ≠ id) →
        (e.completed l).get? id = l.get? id := by
  have hrows : ∀ rows : List (SlotKey × Entry), (∀ row ∈ rows, (e.oldInfo row.2).id = row.2.id) →
      rows.Pairwise (fun r r' ↦ r.2.id ≠ r'.2.id) → ∀ m changes,
      (∀ row ∈ rows, m.get? row.2.id = l.get? row.2.id) →
      (rows.foldl e.planEntry (m, changes)).2 = changes ++ rows.filterMap (e.plannedChange? l) ∧
        (∀ row ∈ rows,
          (rows.foldl e.planEntry (m, changes)).1.get? row.2.id = some (e.settled l row.2)) ∧
        ∀ id, (∀ row ∈ rows, row.2.id ≠ id) →
          (rows.foldl e.planEntry (m, changes)).1.get? id = m.get? id := by
    intro rows hids hdistinct
    induction rows with
    | nil => exact fun m changes _ ↦ ⟨by simp, fun _ h ↦ (nomatch h), fun _ _ ↦ rfl⟩
    | cons row rows ih =>
      intro m changes hm
      obtain ⟨hhead, hdistinct⟩ := List.pairwise_cons.1 hdistinct
      obtain ⟨m', hplan, hget⟩ := planEntry_eq (e := e) m changes
        (hids row (List.mem_cons_self ..))
      have hsame := hm row (List.mem_cons_self ..)
      rw [settled_congr hsame] at hget
      rw [plannedChange?_congr hsame] at hplan
      obtain ⟨hchanges, hsettled, hothers⟩ := ih (fun r hr ↦ hids r (List.mem_cons_of_mem _ hr))
        hdistinct m' (changes ++ (e.plannedChange? l row).toList) fun r hr ↦ by
          rw [hget, if_neg (hhead r hr).symm, hm r (List.mem_cons_of_mem _ hr)]
      rw [List.foldl_cons, hplan]
      refine ⟨?_, fun r hr ↦ ?_, fun id hne ↦ ?_⟩
      · rw [hchanges, List.append_assoc, List.filterMap_cons]
        cases e.plannedChange? l row <;> rfl
      · rcases List.mem_cons.1 hr with rfl | hr
        · rw [hothers _ fun r' hr' ↦ (hhead r' hr').symm, hget, if_pos rfl]
        · exact hsettled r hr
      · rw [hothers id fun r hr ↦ hne r (List.mem_cons_of_mem _ hr), hget,
          if_neg (hne row (List.mem_cons_self ..)).symm]
  have hdistinct : e.entries.toList.Pairwise fun r r' ↦ r.2.id ≠ r'.2.id := by
    refine (List.pairwise_map.1 e.entries.nodup_keys).imp_of_mem fun hr hr' hne heq ↦ hne ?_
    exact h.unique (SlotTable.mem_toList.1 hr) (SlotTable.mem_toList.1 hr') heq
  obtain ⟨hchanges, hsettled, hothers⟩ := hrows e.entries.toList
    (fun row hrow ↦ id_oldInfo (h.info_id (SlotTable.mem_toList.1 hrow))) hdistinct l []
    fun _ _ ↦ rfl
  refine ⟨hchanges, fun hx ↦ hsettled _ (SlotTable.mem_toList.2 hx), fun id hne ↦ ?_⟩
  exact hothers id fun row hrow ↦ hne (SlotTable.mem_toList.1 hrow)

namespace Identified

theorem get?_completed (h : e.Identified) (hx : e.entries.get? key = some x) :
    (e.completed l).get? x.id = some (e.settled l x) :=
  (planLayout_of_identified h).2.1 hx

theorem mem_planned (h : e.Identified) : c ∈ e.planned l ↔ ∃ x, e.entries.get? c.key = some x ∧
    c.old = e.oldInfo x ∧ c.new = e.settled l x ∧
      (e.oldInfo x).agrees (e.placementIn l x) = false := by
  rw [(planLayout_of_identified h).1]
  simp only [List.mem_filterMap, plannedChange?, Prod.exists, Option.ite_none_left_eq_some,
    Option.some.injEq]
  constructor
  · intro hq
    rcases hq with ⟨key, x, hrow, hne, rfl⟩
    exact ⟨x, SlotTable.mem_toList.1 hrow, rfl, rfl, by simpa using hne⟩
  · intro hq
    rcases hq with ⟨x, hx, hold, hnew, hne⟩
    refine ⟨c.key, x, SlotTable.mem_toList.2 hx, Bool.eq_false_iff.1 hne, ?_⟩
    rw [← hold, ← hnew]

theorem nodup_planned (h : e.Identified) : (e.planned l).Pairwise fun c d ↦ c.key ≠ d.key := by
  rw [(planLayout_of_identified h).1]
  refine List.pairwise_filterMap.2 ((List.pairwise_map.1 e.entries.nodup_keys).imp ?_)
  intro row row' hne c hc d hd
  simp only [plannedChange?, Option.ite_none_left_eq_some, Option.some.injEq] at hc hd
  obtain ⟨_, rfl⟩ := hc
  obtain ⟨_, rfl⟩ := hd
  exact hne

theorem mem_liveChanges (h : e.Identified) : c ∈ e.liveChanges l ↔
    ∃ x, e.entries.get? c.key = some x ∧ x.available ∧ c.old = e.oldInfo x ∧
      c.new = e.placementIn l x ∧ (e.oldInfo x).agrees (e.placementIn l x) = false := by
  rw [liveChanges, List.mem_filter, h.mem_planned]
  constructor
  · intro hq
    rcases hq with ⟨⟨x, hx, hold, hnew, hne⟩, ha⟩
    rw [entryIs_of_get? hx] at ha
    exact ⟨x, hx, ha, hold, hnew.trans (settled_eq.2.2 ha), hne⟩
  · intro hq
    rcases hq with ⟨x, hx, ha, hold, hnew, hne⟩
    exact ⟨⟨x, hx, hold, hnew.trans (settled_eq.2.2 ha).symm, hne⟩, by rwa [entryIs_of_get? hx]⟩

theorem of_mem_liveChanges (h : e.Identified) (hc : c ∈ e.liveChanges l) :
    ∃ x, e.entries.get? c.key = some x ∧ x.available ∧ c.old = e.oldInfo x ∧
      c.new = e.settled l x ∧ c.old.id = x.id ∧ c.new.id = x.id := by
  obtain ⟨x, hx, ha, hold, hnew, -⟩ := h.mem_liveChanges.1 hc
  refine ⟨x, hx, ha, hold, hnew.trans (settled_eq.2.2 ha).symm, ?_, ?_⟩
  · rw [hold, id_oldInfo (h.info_id hx)]
  · rw [hnew, id_placementIn (id_oldInfo (h.info_id hx))]

theorem nodup_liveChanges (h : e.Identified) :
    (e.liveChanges l).Pairwise fun c d ↦ c.key ≠ d.key :=
  h.nodup_planned.sublist List.filter_sublist

end Identified

end ToolDock.Engine

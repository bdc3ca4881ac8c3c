import ToolDock.Engine.Reconcile
import ToolDock.Proofs.Coherence
import ToolDock.Proofs.SlotTable

namespace ToolDock

theorem WindowInfo.agrees_core {a b : WindowInfo} (h : a.agrees b) :
    a.core = b.core ∧ a.marks = b.marks := by
  simp only [agrees, Bool.and_eq_true, beq_iff_eq] at h
  simp only [core, marks, slot, h, and_self]

namespace Layout

variable {l : Layout} {a b : WindowInfo} {i j : String}

theorem collisions_eq_nil {κ : Type} [BEq κ] [LawfulBEq κ] {key : WindowInfo → κ}
    {ws : List WindowInfo} (h : collisions key ws = []) (ha : a ∈ ws) (hb : b ∈ ws)
    (hkey : key a = key b) : a.id = b.id := by
  have hshort := List.filterMap_eq_nil_iff.1 h (key a)
    (List.mem_eraseDups.2 (List.mem_map_of_mem ha))
  have hle : ((ws.filter fun w ↦ key w == key a).map WindowInfo.id).length ≤ 1 := by
    by_contra hlt
    simp only [if_pos (Nat.lt_of_not_le hlt)] at hshort
    cases hshort
  have hma : a.id ∈ (ws.filter fun w ↦ key w == key a).map WindowInfo.id :=
    List.mem_map_of_mem (List.mem_filter.2 ⟨ha, by simp⟩)
  have hmb : b.id ∈ (ws.filter fun w ↦ key w == key a).map WindowInfo.id :=
    List.mem_map_of_mem (List.mem_filter.2 ⟨hb, by simp [hkey]⟩)
  generalize (ws.filter fun w ↦ key w == key a).map WindowInfo.id = ids at hle hma hmb
  match ids, hle with
  | [], _ => cases hma
  | [id], _ => rw [List.mem_singleton.1 hma, List.mem_singleton.1 hmb]

theorem collisions_eq_nil_iff {κ : Type} [BEq κ] [LawfulBEq κ] {key : WindowInfo → κ}
    {ws : List WindowInfo} (hnodup : (ws.map WindowInfo.id).Nodup) :
    collisions key ws = [] ↔ ∀ a ∈ ws, ∀ b ∈ ws, key a = key b → a.id = b.id := by
  refine ⟨fun h a ha b hb ↦ collisions_eq_nil h ha hb, fun h ↦ ?_⟩
  refine List.filterMap_eq_nil_iff.2 fun k _ ↦ ?_
  have hsub : ((ws.filter fun w ↦ key w == k).map WindowInfo.id).Nodup :=
    hnodup.sublist (List.filter_sublist.map _)
  have hsame : ∀ i ∈ (ws.filter fun w ↦ key w == k).map WindowInfo.id,
      ∀ j ∈ (ws.filter fun w ↦ key w == k).map WindowInfo.id, i = j := by
    intro i hi j hj
    obtain ⟨a, ha, rfl⟩ := List.mem_map.1 hi
    obtain ⟨b, hb, rfl⟩ := List.mem_map.1 hj
    simp only [List.mem_filter, beq_iff_eq] at ha hb
    exact h a ha.1 b hb.1 (ha.2.trans hb.2.symm)
  generalize (ws.filter fun w ↦ key w == k).map WindowInfo.id = ids at hsub hsame ⊢
  match ids with
  | [] | [_] => rfl
  | i :: j :: _ =>
    have hij : i = j := hsame i (by simp) j (by simp)
    simp [hij] at hsub

/-- Two windows have one assigned order in one slot. -/
def SharesOrder (l : Layout) (i j : String) : Prop :=
  i ≠ j ∧ ∃ a b, l.get? i = some a ∧ l.get? j = some b ∧ a.hasOrder ∧ b.hasOrder ∧
    a.slot = b.slot ∧ a.order = b.order

/-- Two windows are visible in one slot. -/
def SharesSlot (l : Layout) (i j : String) : Prop :=
  i ≠ j ∧ ∃ a b, l.get? i = some a ∧ l.get? j = some b ∧ a.occupiesSlot ∧ b.occupiesSlot ∧
    a.slot = b.slot

theorem orderConflict?_eq_none_iff :
    Engine.orderConflict? l = none ↔ ∀ i j, ¬ l.SharesOrder i j := by
  have hcollisions : Engine.orderConflict? l = none ↔
      collisions (fun w ↦ (w.slot, w.order)) (l.windows.filter (·.hasOrder)) = [] := by
    simp only [Engine.orderConflict?, violations, List.findSome?_append, List.findSome?_map,
      Option.or_eq_none_iff, List.findSome?_eq_none_iff, List.eq_nil_iff_forall_not_mem]
    simp
  rw [hcollisions, collisions_eq_nil_iff (l.nodup.sublist (List.filter_sublist.map _))]
  simp only [List.mem_filter, Prod.mk.injEq]
  constructor
  · intro h i j hshares
    obtain ⟨hne, a, b, ha, hb, hoa, hob, hslot, horder⟩ := hshares
    refine hne ?_
    rw [← id_of_get? ha, ← id_of_get? hb]
    exact h a ⟨mem_of_get? ha, hoa⟩ b ⟨mem_of_get? hb, hob⟩ ⟨hslot, horder⟩
  · intro h a ha b hb hkey
    by_contra hne
    exact h a.id b.id ⟨hne, a, b, get?_of_mem ha.1, get?_of_mem hb.1, ha.2, hb.2, hkey⟩

theorem slot_inj_of_violations (h : l.violations = []) (ha : l.get? i = some a)
    (hb : l.get? j = some b) (hoa : a.occupiesSlot) (hob : b.occupiesSlot) (hs : a.slot = b.slot) :
    i = j := by
  rw [violations, List.append_eq_nil_iff, List.map_eq_nil_iff, List.map_eq_nil_iff] at h
  rw [← id_of_get? ha, ← id_of_get? hb]
  exact collisions_eq_nil h.2 (List.mem_filter.2 ⟨mem_of_get? ha, hoa⟩)
    (List.mem_filter.2 ⟨mem_of_get? hb, hob⟩) hs

end Layout

namespace Engine

variable {κ : Type} {detail : Int32 × Bool × Bool → κ} {e : Engine} {l : Layout}
  {row : SlotKey × Entry} {c d : LayoutChange} {key : SlotKey} {x : Entry} {info : WindowInfo}

/-- The placement that a change takes for the old one of an entry. -/
def oldInfo (e : Engine) (x : Entry) : WindowInfo := (e.layout.get? x.id).getD x.info

def changeTo? (e : Engine) (l : Layout) (row : SlotKey × Entry) : Option LayoutChange :=
  (l.get? row.2.id).bind fun new ↦
    if (e.oldInfo row.2).agrees new then none else some ⟨row.1, e.oldInfo row.2, new⟩

/-- The windows that a layout places anew, in slot order. -/
def changesTo (e : Engine) (l : Layout) : List LayoutChange :=
  e.entries.toList.filterMap (e.changeTo? l)

/-- A new layout with places for the windows that it lacks, and unavailable ones hidden in it. -/
def completed (e : Engine) (l : Layout) : Layout := (e.planLayout l).1

def planned (e : Engine) (l : Layout) : List LayoutChange := (e.planLayout l).2

/-- The planned changes of available windows. The others only have their placements changed. -/
def liveChanges (e : Engine) (l : Layout) : List LayoutChange :=
  (e.planned l).filter fun c ↦ e.entryIs c.key Entry.available

/-- A layout knows every registered window. -/
def Knows (l : Layout) (e : Engine) : Prop :=
  ∀ key x, e.entries.get? key = some x → l.contains x.id

/-- A layout has a place for every registered window, all of which are available. -/
structure Covers (l : Layout) (e : Engine) : Prop where
  contains : ∀ {key x}, e.entries.get? key = some x → l.contains x.id
  available : ∀ {key x}, e.entries.get? key = some x → x.available

theorem Covers.get? (h : Covers l e) (hx : e.entries.get? key = some x) :
    ∃ info, l.get? x.id = some info :=
  Layout.contains_iff.1 (h.contains hx)

theorem planLayout_of_knows (hknows : Knows l e)
    (hkept : ∀ key x new, e.entries.get? key = some x → l.get? x.id = some new →
      x.available ∨ (e.oldInfo x).agrees new) : e.planLayout l = (l, e.changesTo l) := by
  have hrows : ∀ rows : List (SlotKey × Entry), (∀ row ∈ rows, e.entries.get? row.1 = some row.2) →
      ∀ changes, rows.foldl e.planEntry (l, changes) =
        (l, changes ++ rows.filterMap (e.changeTo? l)) := by
    intro rows hrows changes
    induction rows generalizing changes with
    | nil => simp
    | cons row rows ih =>
      have hx := hrows row (List.mem_cons_self ..)
      obtain ⟨new, hnew⟩ := Layout.contains_iff.1 (hknows row.1 row.2 hx)
      have hrest := fun changes ↦ ih (fun r hr ↦ hrows r (List.mem_cons_of_mem _ hr)) changes
      rw [List.foldl_cons, List.filterMap_cons, changeTo?, hnew, Option.bind_some]
      by_cases hsame : (e.oldInfo row.2).agrees new = true
      · have hstep : e.planEntry (l, changes) row = (l, changes) := by
          simp only [planEntry, hnew]
          exact if_pos hsame
        rw [hstep, hrest, if_pos hsame]
      · have ha : row.2.available := (hkept row.1 row.2 new hx hnew).resolve_right hsame
        have hstep : e.planEntry (l, changes) row =
            (l, changes ++ [⟨row.1, e.oldInfo row.2, new⟩]) := by
          simp only [planEntry, hnew, ha, if_true]
          exact if_neg hsame
        rw [hstep, hrest, if_neg hsame, List.append_assoc]
        rfl
  exact hrows _ (fun row hrow ↦ SlotTable.mem_toList.1 hrow) []

theorem planLayout_eq (h : Covers l e) : e.planLayout l = (l, e.changesTo l) :=
  planLayout_of_knows (fun _ _ hx ↦ h.contains hx) fun _ _ _ hx _ ↦ Or.inl (h.available hx)

theorem mem_changesTo : c ∈ e.changesTo l ↔ ∃ x, e.entries.get? c.key = some x ∧
    l.get? x.id = some c.new ∧ c.old = e.oldInfo x ∧ c.old.agrees c.new = false := by
  simp only [changesTo, List.mem_filterMap, changeTo?, Option.bind_eq_some_iff, Prod.exists,
    Option.ite_none_left_eq_some, Option.some.injEq]
  constructor
  · intro hq
    rcases hq with ⟨key, x, hrow, new, hnew, hne, rfl⟩
    exact ⟨x, SlotTable.mem_toList.1 hrow, hnew, rfl, by simpa using hne⟩
  · intro hq
    rcases hq with ⟨x, hx, hnew, hold, hne⟩
    obtain ⟨key, old, new⟩ := c
    obtain rfl : old = e.oldInfo x := hold
    exact ⟨key, x, SlotTable.mem_toList.2 hx, new, hnew, Bool.eq_false_iff.1 hne, rfl⟩

theorem Covers.completed (h : Covers l e) : e.completed l = l :=
  congrArg Prod.fst (planLayout_eq h)

theorem Covers.planned (h : Covers l e) : e.planned l = e.changesTo l :=
  congrArg Prod.snd (planLayout_eq h)

theorem Covers.liveChanges (h : Covers l e) : e.liveChanges l = e.changesTo l := by
  rw [Engine.liveChanges, h.planned, List.filter_eq_self]
  intro c hc
  obtain ⟨x, hx, -⟩ := mem_changesTo.1 hc
  rw [entryIs_of_get? hx]
  exact h.available hx

theorem nodup_changesTo : (e.changesTo l).Pairwise fun c d ↦ c.key ≠ d.key := by
  refine List.pairwise_filterMap.2 ((List.pairwise_map.1 e.entries.nodup_keys).imp ?_)
  intro row row' hne c hc d hd
  simp only [changeTo?, Option.bind_eq_some_iff, Option.ite_none_left_eq_some,
    Option.some.injEq] at hc hd
  obtain ⟨_, _, _, rfl⟩ := hc
  obtain ⟨_, _, _, rfl⟩ := hd
  exact hne

namespace CoherentOn

theorem oldInfo (h : CoherentOn detail ∅ e) (hx : e.entries.get? key = some x) :
    x.info.core = (e.oldInfo x).core ∧ detail x.info.marks = detail (e.oldInfo x).marks := by
  unfold Engine.oldInfo
  cases hinfo : e.layout.get? x.id with
  | none => exact ⟨rfl, rfl⟩
  | some info => exact h.agrees (Set.notMem_empty key) (standing?_of_get? hx) hinfo

theorem old_inj (h : CoherentOn detail ∅ e) (hc : c ∈ e.changesTo l) (hd : d ∈ e.changesTo l)
    (hoc : c.old.occupiesSlot) (hod : d.old.occupiesSlot) (hs : c.old.slot = d.old.slot) :
    c.key = d.key := by
  obtain ⟨x, hx, -, hxold, -⟩ := mem_changesTo.1 hc
  obtain ⟨y, hy, -, hyold, -⟩ := mem_changesTo.1 hd
  have hxc := hxold ▸ (h.oldInfo hx).1
  have hyc := hyold ▸ (h.oldInfo hy).1
  refine h.exclusive (Set.notMem_empty _) (Set.notMem_empty _) (standing?_of_get? hx)
    (standing?_of_get? hy) ?_ ?_ ?_
  · exact (WindowInfo.occupiesSlot_of_core hxc).trans hoc
  · exact (WindowInfo.occupiesSlot_of_core hyc).trans hod
  · exact (WindowInfo.slot_of_core hxc).trans (hs.trans (WindowInfo.slot_of_core hyc).symm)

theorem key_eq_of_slot {k : SlotKey} {y : Entry} {other : WindowInfo}
    (h : CoherentOn detail ∅ e) (hl : l.violations = [])
    (hx : e.entries.get? key = some x) (hy : e.entries.get? k = some y)
    (hinfo : l.get? x.id = some info) (hother : l.get? y.id = some other)
    (ho : info.occupiesSlot) (ho' : other.occupiesSlot) (hs : info.slot = other.slot) : key = k :=
  h.key_eq hx hy (Layout.slot_inj_of_violations hl hinfo hother ho ho' hs)

theorem old_id (h : CoherentOn detail ∅ e) (hc : c ∈ e.changesTo l) : c.old.id = c.new.id := by
  obtain ⟨x, hx, hnew, hold, -⟩ := mem_changesTo.1 hc
  rw [Layout.id_of_get? hnew, hold, Engine.oldInfo]
  cases hinfo : e.layout.get? x.id with
  | none =>
    exact (h.info_id (standing?_of_get? hx)).trans (h.id_eq (standing?_of_get? hx)).symm
  | some info => exact Layout.id_of_get? hinfo

end CoherentOn

def foretold (e : Engine) (changes : List LayoutChange) : Engine :=
  changes.foldl (fun e c ↦ e.applyToEntry c.key c.new) e

def foretoldInfo (changes : List LayoutChange) (key : SlotKey) (info : WindowInfo) : WindowInfo :=
  changes.foldl (fun info c ↦ if c.key = key then c.new else info) info

theorem get?_foretold (changes : List LayoutChange) :
    (e.foretold changes).entries.get? key =
      (e.entries.get? key).map fun x ↦ { x with info := foretoldInfo changes key x.info } := by
  unfold foretold foretoldInfo
  induction changes generalizing e with
  | nil => simp
  | cons c changes ih =>
    rw [List.foldl_cons, ih, applyToEntry, get?_updateEntry]
    by_cases hk : key = c.key
    · subst hk
      simp [Option.map_map, Function.comp_def]
    · have hk' : ¬ c.key = key := fun heq ↦ hk heq.symm
      simp [hk, hk']

theorem foretold_eq (changes : List LayoutChange) :
    ∃ entries, e.foretold changes = { e with entries := entries } := by
  unfold foretold
  induction changes generalizing e with
  | nil => exact ⟨e.entries, rfl⟩
  | cons c changes ih =>
    obtain ⟨entries, heq⟩ := ih (e := e.applyToEntry c.key c.new)
    exact ⟨entries, heq⟩

theorem foretold_replaceLayout (l : Layout) (changes : List LayoutChange) : ∃ entries,
    (e.replaceLayout l).foretold changes =
        { e with entries := entries, layout := l, snapshot := l } ∧
      ∀ {key y}, entries.get? key = some y ↔ ∃ x, e.entries.get? key = some x ∧
        { x with info := foretoldInfo changes key x.info } = y := by
  obtain ⟨entries, heq⟩ := foretold_eq (e := e.replaceLayout l) changes
  refine ⟨entries, heq, fun {key y} ↦ ?_⟩
  have hget : ((e.replaceLayout l).foretold changes).entries.get? key =
      (e.entries.get? key).map fun x ↦ { x with info := foretoldInfo changes key x.info } :=
    get?_foretold changes
  rw [heq] at hget
  exact hget ▸ Option.map_eq_some_iff

theorem foretoldInfo_eq (key : SlotKey) (info : WindowInfo) {changes : List LayoutChange}
    (h : changes.Pairwise fun c d ↦ c.key ≠ d.key) :
    (∀ c ∈ changes, c.key = key → foretoldInfo changes key info = c.new) ∧
      ((∀ c ∈ changes, c.key ≠ key) → foretoldInfo changes key info = info) := by
  unfold foretoldInfo
  induction changes generalizing info with
  | nil => exact ⟨fun _ hc ↦ (nomatch hc), fun _ ↦ rfl⟩
  | cons d changes ih =>
    obtain ⟨hd, hrest⟩ := List.pairwise_cons.1 h
    rw [List.foldl_cons]
    refine ⟨fun c hc hk ↦ ?_, fun hnone ↦ ?_⟩
    · rcases List.mem_cons.1 hc with rfl | hc
      · rw [if_pos hk]
        exact (ih _ hrest).2 fun c' hc' ↦ hk ▸ (hd c' hc').symm
      · exact (ih _ hrest).1 c hc hk
    · rw [if_neg (hnone d (List.mem_cons_self ..))]
      exact (ih _ hrest).2 fun c hc ↦ hnone c (List.mem_cons_of_mem _ hc)

theorem foretoldInfo_id (h : CoherentOn detail ∅ e) (hx : e.entries.get? key = some x) :
    (foretoldInfo (e.changesTo l) key x.info).id = x.id := by
  obtain ⟨hchanged, hsame⟩ := foretoldInfo_eq key x.info (nodup_changesTo (e := e) (l := l))
  by_cases hc : ∃ c ∈ e.changesTo l, c.key = key
  · obtain ⟨c, hc, rfl⟩ := hc
    obtain ⟨x', hx', hnew, -⟩ := mem_changesTo.1 hc
    cases hx.symm.trans hx'
    rw [hchanged c hc rfl]
    exact Layout.id_of_get? hnew
  · rw [hsame fun c hm hk ↦ hc ⟨c, hm, hk⟩]
    exact (h.info_id (standing?_of_get? hx)).trans (h.id_eq (standing?_of_get? hx)).symm

theorem foretoldInfo_agrees (h : CoherentOn detail ∅ e) (hx : e.entries.get? key = some x)
    (hinfo : l.get? x.id = some info) :
    (foretoldInfo (e.changesTo l) key x.info).core = info.core ∧
      detail (foretoldInfo (e.changesTo l) key x.info).marks = detail info.marks := by
  obtain ⟨hchanged, hsame⟩ := foretoldInfo_eq key x.info
    (nodup_changesTo (e := e) (l := l))
  by_cases hc : ∃ c ∈ e.changesTo l, c.key = key
  · obtain ⟨c, hc, rfl⟩ := hc
    obtain ⟨x', hx', hnew, -⟩ := mem_changesTo.1 hc
    cases hx.symm.trans hx'
    cases hinfo.symm.trans hnew
    rw [hchanged c hc rfl]
    exact ⟨rfl, rfl⟩
  · have hsame := hsame fun c hm hk ↦ hc ⟨c, hm, hk⟩
    have hagrees : (e.oldInfo x).agrees info = true := by
      by_contra hne
      exact hc ⟨⟨key, e.oldInfo x, info⟩, mem_changesTo.2 ⟨x, hx, hinfo, rfl, by simpa using hne⟩,
        rfl⟩
    obtain ⟨hcore, hmarks⟩ := WindowInfo.agrees_core hagrees
    rw [hsame]
    exact ⟨(h.oldInfo hx).1.trans hcore, (h.oldInfo hx).2.trans (congrArg detail hmarks)⟩

end Engine

end ToolDock

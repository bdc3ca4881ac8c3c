import ToolDock.Proofs.MountedSession
import ToolDock.Proofs.Replacing
import ToolDock.Proofs.Seating

/-!
What is in the panes while a layout is replaced. The changes are made one after another in slot
order, and each takes its window out of its slot before it puts it into another. Meanwhile the
windows that come later still hold their old slots: a slot is held by two windows for a while just
if one goes to it before another, whose change comes later, has left it. Main statement:
`clears_setLayout_iff`.
-/

namespace ToolDock

abbrev Docks := List (String × Slot)

namespace Docks

variable {docks docks' : Docks} {ops ops' : List HostOp} {op : HostOp} {id : String}
  {info old new : WindowInfo} {p : String × Slot}

def replay (docks : Docks) : HostOp → Docks
  | .attach id slot _ => (id, slot) :: docks
  | .detach id _ _ => docks.filter (·.1 != id)
  | _ => docks

def Clear (docks : Docks) : Prop := ∀ p ∈ docks, ∀ q ∈ docks, p.2 = q.2 → p.1 = q.1

/-- At no point of some operations are two windows in one slot. -/
def Clears (docks : Docks) (ops : List HostOp) : Prop :=
  ∀ pre, pre <+: ops → Clear (pre.foldl replay docks)

theorem Clear.mono (h : Clear docks) (hsub : ∀ p ∈ docks', p ∈ docks) : Clear docks' :=
  fun p hp q hq ↦ h p (hsub p hp) q (hsub q hq)

theorem clears_nil : Clears docks [] ↔ Clear docks := by
  refine ⟨fun h ↦ h [] (List.prefix_refl _), fun h pre hpre ↦ ?_⟩
  rw [List.prefix_nil.1 hpre]
  exact h

theorem clears_cons : Clears docks (op :: ops) ↔ Clear docks ∧ Clears (docks.replay op) ops := by
  constructor
  · exact fun h ↦ ⟨h [] List.nil_prefix, fun pre hpre ↦ h (op :: pre) (List.cons_prefix_cons.2
      ⟨rfl, hpre⟩)⟩
  · intro h pre hpre
    cases pre with
    | nil => exact h.1
    | cons first pre =>
      obtain ⟨rfl, hrest⟩ := List.cons_prefix_cons.1 hpre
      exact h.2 pre hrest

theorem Clears.clear (h : Clears docks ops) : Clear docks := h [] List.nil_prefix

theorem Clears.foldl (h : Clears docks ops) : Clear (ops.foldl replay docks) :=
  h ops (List.prefix_refl ops)

theorem clears_append :
    Clears docks (ops ++ ops') ↔ Clears docks ops ∧ Clears (ops.foldl replay docks) ops' := by
  induction ops generalizing docks with
  | nil => exact ⟨fun h ↦ ⟨clears_nil.2 h.clear, h⟩, fun h ↦ h.2⟩
  | cons op ops ih =>
    rw [List.cons_append, clears_cons, clears_cons, ih, List.foldl_cons, and_assoc]

theorem clears_filter : Clears docks (ops.filter HostOp.docks) ↔ Clears docks ops := by
  induction ops generalizing docks with
  | nil => rfl
  | cons op ops ih =>
    by_cases hop : op.docks = true
    · rw [List.filter_cons_of_pos hop, clears_cons, clears_cons, ih]
    · have hsame : docks.replay op = docks := by
        cases op <;> first | rfl | exact absurd rfl hop
      rw [List.filter_cons_of_neg hop, clears_cons, hsame, ih]
      exact ⟨fun h ↦ ⟨h.clear, h⟩, fun h ↦ h.2⟩

theorem leaving_worn : leaving id info.worn =
    if info.occupiesSlot then [.detach id info.slot true] else [] := by
  rw [leaving, seat?_worn]
  split <;> rfl

theorem entering_worn : entering id info.worn =
    if info.occupiesSlot then [.attach id info.slot true] else [] := by
  rw [entering, seat?_worn]
  split <;> rfl

theorem mem_leaving : p ∈ (leaving id info.worn).foldl replay docks ↔
    p ∈ docks ∧ (info.occupiesSlot → p.1 ≠ id) := by
  rw [leaving_worn]
  split
  case isTrue ho => simp [replay, ho]
  case isFalse ho => simp [ho]

theorem mem_entering : p ∈ (entering id info.worn).foldl replay docks ↔
    info.occupiesSlot ∧ p = (id, info.slot) ∨ p ∈ docks := by
  rw [entering_worn]
  split
  case isTrue ho => simp [replay, ho]
  case isFalse ho => simp [ho]

theorem Clear.leaving (h : Clear docks) : Clears docks (leaving id info.worn) := by
  have hleft : Clear ((ToolDock.leaving id info.worn).foldl replay docks) :=
    h.mono fun p hp ↦ (mem_leaving.1 hp).1
  rw [leaving_worn] at hleft ⊢
  split
  case isTrue ho =>
    rw [if_pos ho] at hleft
    exact clears_cons.2 ⟨h, clears_nil.2 hleft⟩
  case isFalse => exact clears_nil.2 h

theorem clears_entering (h : Clear docks) : Clears docks (entering id info.worn) ↔
    Clear ((entering id info.worn).foldl replay docks) := by
  rw [entering_worn]
  split
  case isTrue => exact ⟨fun hc ↦ clears_nil.1 (clears_cons.1 hc).2,
    fun hc ↦ clears_cons.2 ⟨h, clears_nil.2 hc⟩⟩
  case isFalse => exact clears_nil

theorem clears_redressing (b : Bool) (h : Clear docks) :
    Clears docks (leaving id old.worn ++ entering id new.worn ++
        if b then leaving id new.worn else []) ↔
      Clear ((leaving id old.worn ++ entering id new.worn).foldl replay docks) := by
  rw [clears_append]
  have hlast : Clear ((leaving id old.worn ++ entering id new.worn).foldl replay docks) →
      Clears ((leaving id old.worn ++ entering id new.worn).foldl replay docks)
        (if b then leaving id new.worn else []) := by
    intro hc
    cases b with
    | true => exact hc.leaving
    | false => exact clears_nil.2 hc
  refine ⟨fun hc ↦ hc.1.foldl, fun hc ↦ ⟨?_, hlast hc⟩⟩
  rw [List.foldl_append] at hc
  exact clears_append.2 ⟨h.leaving, (clears_entering h.leaving.foldl).2 hc⟩

end Docks

namespace Engine

variable {κ : Type} {detail : Int32 × Bool × Bool → κ} {l : Layout} {start e e' : Engine}
  {ds : Docks} {c d : LayoutChange} {rest : List LayoutChange} {p : String × Slot}

/-- Whether a window goes to the slot that another has before its change. -/
def LayoutChange.Crowds (c d : LayoutChange) : Prop :=
  c.new.occupiesSlot ∧ d.old.occupiesSlot ∧ c.new.slot = d.old.slot

instance : DecidableRel LayoutChange.Crowds := fun _ _ ↦ inferInstanceAs (Decidable (_ ∧ _ ∧ _))

/-- The windows attached in panes, as entries have them. -/
def docks (e : Engine) : Docks :=
  e.entries.toList.filterMap fun row ↦ row.2.attached.map fun info ↦ (row.2.id, info.slot)

theorem mem_docks : p ∈ e.docks ↔ ∃ key x, e.entries.get? key = some x ∧ x.id = p.1 ∧
    x.attached.map WindowInfo.slot = some p.2 := by
  rw [docks, List.mem_filterMap]
  constructor
  · intro hq
    rcases hq with ⟨⟨key, x⟩, hrow, hp⟩
    obtain ⟨info, hinfo, rfl⟩ := Option.map_eq_some_iff.1 hp
    exact ⟨key, x, SlotTable.mem_toList.1 hrow, rfl, by rw [hinfo, Option.map_some]⟩
  · intro hq
    rcases hq with ⟨key, x, hx, hid, hslot⟩
    obtain ⟨info, hinfo, hs⟩ := Option.map_eq_some_iff.1 hslot
    refine ⟨(key, x), SlotTable.mem_toList.2 hx, ?_⟩
    dsimp only
    rw [hinfo, Option.map_some, hid, hs]

theorem Attired.mem_docks (h : e.Attired) : p ∈ e.docks ↔ ∃ key x, e.entries.get? key = some x ∧
    x.id = p.1 ∧ x.info.occupiesSlot ∧ x.info.slot = p.2 := by
  rw [Engine.mem_docks]
  refine exists_congr fun key ↦ exists_congr fun x ↦ and_congr_right fun hx ↦ ?_
  rw [(Entry.isDecorated_iff.1 (h key x hx)).seat, seat?_worn,
    Option.ite_none_right_eq_some, Option.some_inj]

theorem CoherentOn.clear_docks (h : CoherentOn detail ∅ e) (hattired : e.Attired) :
    Docks.Clear e.docks := by
  intro p hp q hq heq
  obtain ⟨key, x, hx, hid, ho, hslot⟩ := hattired.mem_docks.1 hp
  obtain ⟨key', x', hx', hid', ho', hslot'⟩ := hattired.mem_docks.1 hq
  obtain rfl : key = key' := h.exclusive (Set.notMem_empty _) (Set.notMem_empty _)
    (standing?_of_get? hx) (standing?_of_get? hx') ho ho' (hslot.trans (heq.trans hslot'.symm))
  cases hx.symm.trans hx'
  exact hid.symm.trans hid'

/-- Halfway through the changes, windows still to change are in their old slots, and all others that
are in panes are where the layout is to have them. -/
structure Docked (l : Layout) (start : Engine) (rest : List LayoutChange) (ds : Docks) : Prop where
  pending : ∀ c ∈ rest, c ∈ start.liveChanges l
  distinct : rest.Pairwise fun c d ↦ c.key ≠ d.key
  waits : ∀ c ∈ rest, c.old.occupiesSlot → (c.new.id, c.old.slot) ∈ ds
  placed : ∀ p ∈ ds, (∃ c ∈ rest, c.old.occupiesSlot ∧ p = (c.new.id, c.old.slot)) ∨
    (∀ c ∈ rest, c.new.id ≠ p.1) ∧ ∃ key x, start.entries.get? key = some x ∧ x.id = p.1 ∧
      (start.settled l x).occupiesSlot ∧ (start.settled l x).slot = p.2

namespace Docked

theorem id_ne (h : Docked l start (c :: rest) ds) (hid : start.Identified) (hd : d ∈ rest) :
    d.new.id ≠ c.new.id := by
  intro heq
  obtain ⟨x, hx, -, -, -, -, hnew⟩ := hid.of_mem_liveChanges (h.pending c (List.mem_cons_self ..))
  obtain ⟨y, hy, -, -, -, -, hnew'⟩ :=
    hid.of_mem_liveChanges (h.pending d (List.mem_cons_of_mem _ hd))
  refine (List.pairwise_cons.1 h.distinct).1 d hd (hid.unique hx hy ?_)
  rw [← hnew, ← hnew', heq]

theorem of_mem (h : Docked l start (c :: rest) ds) (hid : start.Identified) (hp : p ∈ ds)
    (hself : p.1 = c.new.id) : c.old.occupiesSlot ∧ p = (c.new.id, c.old.slot) := by
  rcases h.placed p hp with ⟨d, hd, ho, rfl⟩ | ⟨hnone, -⟩
  · rcases List.mem_cons.1 hd with rfl | hd
    · exact ⟨ho, rfl⟩
    · exact absurd hself (h.id_ne hid hd)
  · exact absurd hself.symm (hnone c (List.mem_cons_self ..))

theorem ne_slot (h : Docked l start (c :: rest) ds) (hid : start.Identified)
    (hapart : start.Apart l) (hp : p ∈ ds) (hother : p.1 ≠ c.new.id) (ho : c.new.occupiesSlot)
    (hnone : ∀ d ∈ rest, ¬ c.Crowds d) : p.2 ≠ c.new.slot := by
  intro hslot
  rcases h.placed p hp with ⟨d, hd, hold, rfl⟩ | ⟨-, key, y, hy, hyid, hyo, hys⟩
  · rcases List.mem_cons.1 hd with rfl | hd
    · exact hother rfl
    · exact hnone d hd ⟨ho, hold, hslot.symm⟩
  · obtain ⟨x, hx, -, -, hnew, -, hxid⟩ :=
      hid.of_mem_liveChanges (h.pending c (List.mem_cons_self ..))
    rw [hnew] at ho hslot
    obtain rfl := hapart.key_eq hid hy hx hyo ho (hys.trans hslot)
    cases hy.symm.trans hx
    exact hother (hyid.symm.trans hxid.symm)

theorem mem_leaving (h : Docked l start (c :: rest) ds) (hid : start.Identified) :
    p ∈ (leaving c.new.id c.old.worn).foldl Docks.replay ds ↔ p ∈ ds ∧ p.1 ≠ c.new.id := by
  rw [Docks.mem_leaving]
  exact and_congr_right fun hp ↦
    ⟨fun hne hself ↦ hne (h.of_mem hid hp hself).1 hself, fun hne _ ↦ hne⟩

theorem mem_dockings (h : Docked l start (c :: rest) ds) (hid : start.Identified) :
    p ∈ c.dockings.foldl Docks.replay ds ↔
      p ∈ ds ∧ p.1 ≠ c.new.id ∨
        c.new.occupiesSlot ∧ c.loses = false ∧ p = (c.new.id, c.new.slot) := by
  unfold LayoutChange.dockings
  by_cases hr : c.redecorates = true
  · rw [if_pos hr, List.foldl_append, List.foldl_append]
    cases hl : c.loses with
    | false =>
      rw [if_neg Bool.false_ne_true, List.foldl_nil, Docks.mem_entering, h.mem_leaving hid]
      grind
    | true =>
      rw [if_pos rfl, Docks.mem_leaving, Docks.mem_entering, h.mem_leaving hid]
      grind
  · have hkeeps : c.redecorates = false := by simpa using hr
    obtain ⟨hv, ht, hslot⟩ := LayoutChange.slot_eq hkeeps
    have hocc : c.old.occupiesSlot = c.new.occupiesSlot := by
      rw [WindowInfo.occupiesSlot, WindowInfo.occupiesSlot, hv, ht]
    have hloses : c.loses = false := by
      simp only [LayoutChange.redecorates, Bool.or_eq_false_iff] at hkeeps
      rw [LayoutChange.loses, hkeeps.1.1.1, Bool.false_and]
    rw [if_neg hr, List.foldl_nil]
    constructor
    · intro hp
      by_cases hself : p.1 = c.new.id
      · obtain ⟨ho, rfl⟩ := h.of_mem hid hp hself
        exact Or.inr ⟨hocc ▸ ho, hloses, by rw [hslot (hocc ▸ ho)]⟩
      · exact Or.inl ⟨hp, hself⟩
    · intro hp
      rcases hp with ⟨hp, -⟩ | ⟨ho, -, rfl⟩
      · exact hp
      · rw [hslot ho]
        exact h.waits c (List.mem_cons_self ..) (hocc ▸ ho)

theorem step (h : Docked l start (c :: rest) ds) (hid : start.Identified) :
    Docked l start rest (c.dockings.foldl Docks.replay ds) where
  pending d hd := h.pending d (List.mem_cons_of_mem _ hd)
  distinct := h.distinct.of_cons
  waits d hd ho := (h.mem_dockings hid).2
    (Or.inl ⟨h.waits d (List.mem_cons_of_mem _ hd) ho, h.id_ne hid hd⟩)
  placed p hp := by
    rcases (h.mem_dockings hid).1 hp with ⟨hp, hne⟩ | ⟨ho, -, rfl⟩
    · rcases h.placed p hp with ⟨d, hd, ho, rfl⟩ | ⟨hnone, hplaced⟩
      · rcases List.mem_cons.1 hd with rfl | hd
        · exact absurd rfl hne
        · exact Or.inl ⟨d, hd, ho, rfl⟩
      · exact Or.inr ⟨fun d hd ↦ hnone d (List.mem_cons_of_mem _ hd), hplaced⟩
    · obtain ⟨x, hx, -, -, hnew, -, hxid⟩ :=
        hid.of_mem_liveChanges (h.pending c (List.mem_cons_self ..))
      exact Or.inr ⟨fun d hd ↦ h.id_ne hid hd, c.key, x, hx, hxid.symm, hnew ▸ ho, by rw [hnew]⟩

theorem clears_dockings (h : Docked l start (c :: rest) ds) (hid : start.Identified)
    (hapart : start.Apart l) (hclear : Docks.Clear ds) :
    Docks.Clears ds c.dockings ↔ ∀ d ∈ rest, ¬ c.Crowds d := by
  have hnot : c.redecorates = false → ∀ d ∈ rest, ¬ c.Crowds d := by
    intro hkeeps d hd hcrowds
    obtain ⟨ho, hold, hslot⟩ := hcrowds
    obtain ⟨hv, ht, hsame⟩ := LayoutChange.slot_eq hkeeps
    have ho' : c.old.occupiesSlot := by rwa [WindowInfo.occupiesSlot, ← hv, ← ht]
    exact h.id_ne hid hd (hclear _ (h.waits d (List.mem_cons_of_mem _ hd) hold) _
      (h.waits c (List.mem_cons_self ..) ho') (hslot.symm.trans (hsame ho)))
  unfold LayoutChange.dockings
  split
  case isFalse hr => exact iff_of_true (Docks.clears_nil.2 hclear) (hnot (by simpa using hr))
  case isTrue =>
    rw [Docks.clears_redressing _ hclear]
    have hmem : ∀ p, p ∈ (leaving c.new.id c.old.worn ++ entering c.new.id c.new.worn).foldl
        Docks.replay ds ↔
          c.new.occupiesSlot ∧ p = (c.new.id, c.new.slot) ∨ p ∈ ds ∧ p.1 ≠ c.new.id := by
      intro p
      rw [List.foldl_append, Docks.mem_entering, h.mem_leaving hid]
    constructor
    · intro hboth d hd hcrowds
      obtain ⟨ho, hold, hslot⟩ := hcrowds
      have hwaits := h.waits d (List.mem_cons_of_mem _ hd) hold
      exact h.id_ne hid hd (hboth _ ((hmem _).2 (Or.inr ⟨hwaits, h.id_ne hid hd⟩)) _
        ((hmem _).2 (Or.inl ⟨ho, rfl⟩)) hslot.symm)
    · intro hnone p hp q hq heq
      rcases (hmem p).1 hp with ⟨ho, rfl⟩ | ⟨hp, hpne⟩ <;>
        rcases (hmem q).1 hq with ⟨ho', rfl⟩ | ⟨hq, hqne⟩
      · rfl
      · exact absurd heq.symm (h.ne_slot hid hapart hq hqne ho hnone)
      · exact absurd heq (h.ne_slot hid hapart hp hpne ho' hnone)
      · exact hclear p hp q hq heq

theorem clears_flatMap (h : Docked l start rest ds) (hid : start.Identified)
    (hapart : start.Apart l) (hclear : Docks.Clear ds) :
    Docks.Clears ds (rest.flatMap LayoutChange.dockings) ↔
      rest.Pairwise fun c d ↦ ¬ c.Crowds d := by
  induction rest generalizing ds with
  | nil => exact iff_of_true (Docks.clears_nil.2 hclear) .nil
  | cons c rest ih =>
    rw [List.flatMap_cons, Docks.clears_append, List.pairwise_cons,
      ← h.clears_dockings hid hapart hclear]
    exact and_congr_right fun hfirst ↦ ih (h.step hid) hfirst.foldl

end Docked

theorem CoherentOn.docked (h : CoherentOn detail ∅ e) (hattired : e.Attired) :
    Docked l e (e.liveChanges l) e.docks where
  pending _ hc := hc
  distinct := h.identified.nodup_liveChanges
  waits c hc ho := by
    obtain ⟨x, hx, -, hold, -, -, hnewid⟩ := h.identified.of_mem_liveChanges hc
    have hcore : x.info.core = c.old.core := hold ▸ (h.oldInfo hx).1
    exact hattired.mem_docks.2 ⟨c.key, x, hx, hnewid.symm,
      (WindowInfo.occupiesSlot_of_core hcore).trans ho, WindowInfo.slot_of_core hcore⟩
  placed p hp := by
    obtain ⟨key, x, hx, hxid, ho, hslot⟩ := hattired.mem_docks.1 hp
    have hcore := (h.oldInfo hx).1
    by_cases hlive : ∃ c ∈ e.liveChanges l, c.key = key
    · obtain ⟨c, hc, rfl⟩ := hlive
      obtain ⟨x', hx', -, hold, -, -, hnewid⟩ := h.identified.of_mem_liveChanges hc
      cases hx.symm.trans hx'
      rw [← hold] at hcore
      refine Or.inl ⟨c, hc, (WindowInfo.occupiesSlot_of_core hcore).symm.trans ho, ?_⟩
      rw [← WindowInfo.slot_of_core hcore, hslot, hnewid, hxid]
    · have hv : x.info.visible := (WindowInfo.occupiesSlot_iff.1 ho).1
      have ha := (h.ready (Set.notMem_empty key) (standing?_of_get? hx) hv).1
      have hsettled := (h.core_settled hx ha fun c hc hk ↦ hlive ⟨c, hc, hk⟩).trans hcore.symm
      refine Or.inr ⟨fun c hc hcid ↦ hlive ⟨c, hc, ?_⟩, key, x, hx, hxid,
        (WindowInfo.occupiesSlot_of_core hsettled).trans ho,
        (WindowInfo.slot_of_core hsettled).trans hslot⟩
      obtain ⟨y, hy, -, -, -, -, hnewid⟩ := h.identified.of_mem_liveChanges hc
      exact h.identified.unique hy hx (hnewid.symm.trans (hcid.trans hxid.symm))

/-- While a layout is put in place that nothing is wrong about, with a placement for every window,
at no point are two windows in one slot, just if no window is put into a slot before another leaves
it. -/
theorem clears_setLayout_iff {res : Except EngineError Unit} (hcoherent : CoherentCore e)
    (hattired : e.Attired) (hmounted : e.Mounted) (hknows : Knows l e)
    (hempty : e.sideStack = .empty) (hl : l.violations = [])
    (hrun : (setLayout l).run e = .ok res e') : ∃ ops, e'.host.ops = e.host.ops ++ ops ∧
      (Docks.Clears e.docks ops ↔ (e.liveChanges l).Pairwise fun c d ↦ ¬ c.Crowds d) := by
  have hnone := orderConflict?_of_violations hl
  have hid := hcoherent.identified
  have hapart := hid.apart hknows hl
  obtain ⟨-, e₁, hseated, hlast⟩ :=
    ensures_setLayout_seated hcoherent hnone hapart (settles_of_empty hempty) hrun
  have hrecords := (records_setLayout hnone hrun).1
  obtain ⟨ops, hops, -⟩ := hrecords.host.ops
  have hdocked : ops.filter HostOp.docks = (e.liveChanges l).flatMap LayoutChange.dockings := by
    have hsame : e'.host.docked = e₁.host.docked :=
      hlast.records.host.docked_eq fun op hop ↦ by simpa using hop
    have hall := hseated.docked hmounted hattired
    rw [List.flatMap_nil, List.append_nil, ← hsame, Host.docked, Host.docked, hops,
      List.filter_append] at hall
    exact List.append_cancel_left hall
  refine ⟨ops, hops, ?_⟩
  rw [← Docks.clears_filter, hdocked]
  exact (hcoherent.docked hattired).clears_flatMap hid hapart (hcoherent.clear_docks hattired)

def handedLayout : Layout :=
  .ofList [{ WindowInfo.new "A" .left with visible := true, order := 0 },
    { WindowInfo.new "B" .left with order := 1 }]

/-- The first window comes before the second one goes. -/
theorem not_clears_handedLayout : ∃ e e' ops, Session Request.Presents blank e ∧
    (setLayout handedLayout).run e = .ok (.ok ()) e' ∧ e'.host.ops = e.host.ops ++ ops ∧
      ¬ Docks.Clears e.docks ops := by
  obtain ⟨e₁, e₂, e, hrun₁, hknown, hrun₂, hrun₃, hrows, hempty, hcrowds, haccepts⟩ :
      ∃ e₁ e₂ e, (Request.register (hiddenRequest "A")).run.run blank = .ok (.ok ()) e₁ ∧
        known? (hiddenRequest "B") e₁.layout = none ∧
        (Request.register (hiddenRequest "B")).run.run e₁ = .ok (.ok ()) e₂ ∧
        (Request.reveal "B").run.run e₂ = .ok (.ok ()) e ∧
        (∀ row ∈ e.entries.toList, handedLayout.contains row.2.id) ∧
        e.sideStack = .empty ∧
        ¬ (e.liveChanges handedLayout).Pairwise (fun c d ↦ ¬ c.Crowds d) ∧
        e.accepts (setLayout handedLayout) :=
    ⟨_, _, _, rfl, rfl, rfl, rfl, by decide +kernel, by decide +kernel, by decide +kernel,
      by decide +kernel⟩
  obtain ⟨e', hrun⟩ := exists_run_of_accepts haccepts
  have hsession : Session Request.Presents blank e := by
    refine .step (.step (.step .start ?_ hrun₁) ?_ hrun₂) ?_ hrun₃
    · exact fun _ h ↦ (nomatch h)
    · exact fun _ h ↦ (nomatch hknown.symm.trans h)
    · trivial
  have hsound : Sound (fun _ ↦ ()) True ∅ ∅ e :=
    hsession.sound ⟨coherentOn_of_empty rfl, fun _ ↦ decoratedOn_of_empty rfl rfl⟩
  have hattired : e.Attired := fun _ _ hx ↦
    (hsound.decorated trivial).shape (Set.notMem_empty _) hx
  have hmounted : e.Mounted := hsession.mounted fun _ _ hx ↦ (nomatch hx)
  have hknows : Knows handedLayout e := fun _ _ hx ↦ hrows _ (SlotTable.mem_toList.2 hx)
  obtain ⟨ops, hops, hiff⟩ := clears_setLayout_iff hsound.coherent hattired hmounted hknows hempty
    (by decide) hrun
  exact ⟨e, e', ops, hsession, hrun, hops, fun hclears ↦ hcrowds (hiff.1 hclears)⟩

end Engine

end ToolDock

import Mathlib.Data.List.TakeWhile
import ToolDock.Proofs.Requests
import ToolDock.Proofs.Restoring

/-!
Windows that stray from a new layout. A window that changes to the slot beside its own lets come
back what was evicted from there, whether or not the layout shows it. Which windows are visible in
the end, though the layout hides them, or the other way round, is seen from the stacks of evicted
placements alone. Main statements: `Account.mem_strays_after` and `Fair.after` say who strays, and
`strays_eq_nil` when nobody does.
-/

namespace ToolDock.Engine

variable {l : Layout} {start e e' e₁ e₂ : Engine} {c c' d : LayoutChange} {rest : List LayoutChange}
  {stored info : WindowInfo} {id : String} {key : SlotKey} {x y : Entry} {b : Anchor}

/-- Whether an evicted placement may come back to the slot that a window leaves. -/
def comesBack (start : Engine) (l : Layout) (c : LayoutChange) (stored : WindowInfo) : Bool :=
  stored.slot == c.old.slot && start.isRegistered stored.id &&
    (if stored.id = c.new.id then some { c.old with visible := false } else l.get? stored.id).any
      (isWhereEvicted · stored)

def shownIn (start : Engine) (l : Layout) (slot : Slot) : List String :=
  l.ids.filter fun id ↦
    start.isRegistered id && l.docks slot id && (l.get? id).any WindowInfo.visible

/-- The stacks of evicted placements, and the windows that the engine has visible against a layout
or hidden against it. -/
structure Account where
  evicted : SideStack
  strays : List String

namespace Account

/-- The newest placement that may come back to the slot that a window leaves is shown there. -/
def comeBack (start : Engine) (l : Layout) (a : Account) (c : LayoutChange) : Account :=
  match (a.evicted.get c.old.anchor).dropWhile (!start.comesBack l c ·) with
  | [] => { a with evicted := a.evicted.set c.old.anchor [] }
  | stored :: rest =>
    { evicted := SideStack.remove (a.evicted.set c.old.anchor rest) stored.id
      strays := stored.id ::
        (if stored.windowType.isInternal then start.shownIn l c.old.slot else []) ++ a.strays }

def without (a : Account) (id : String) : Account :=
  { a with strays := a.strays.filter (· != id) }

/-- A window that moves to a slot takes it from whoever strays there, and one that leaves its slot
for the one beside lets another come back. -/
def after (start : Engine) (l : Layout) (a : Account) (c : LayoutChange) : Account :=
  if c.movesSlot then { a with strays := a.strays.filter (!l.docks c.new.slot ·) }
  else if c.changesSplit && start.settings.stackEnabled then
    (a.comeBack start l c).without c.new.id
  else a.without c.new.id

end Account

/-- The windows that stray from a layout once it was put in place. -/
def strays (start : Engine) (l : Layout) : List String :=
  ((start.changesTo l).foldl (Account.after start l)
    { evicted := start.sideStack, strays := [] }).strays

def shownBy (l : Layout) (strays : List String) : Set String :=
  {id | ∃ info, l.get? id = some info ∧ (info.visible ↔ id ∉ strays)}

/-- Whether an evicted placement may still come back. -/
def awaited (start : Engine) (l : Layout) (rest : List LayoutChange) (stored : WindowInfo) : Bool :=
  rest.any fun c ↦ c.changesSplit && start.comesBack l c stored

theorem dropWhile_congr {p q : WindowInfo → Bool} {ws : List WindowInfo}
    (h : ∀ w ∈ ws, p w = q w) : ws.dropWhile (!p ·) = ws.dropWhile (!q ·) := by
  induction ws with
  | nil => rfl
  | cons w ws ih =>
    rw [List.dropWhile_cons, List.dropWhile_cons, h w (List.mem_cons_self ..),
      ih fun w' hw' ↦ h w' (List.mem_cons_of_mem _ hw')]

theorem dropWhile_filter_of_imp {p q : WindowInfo → Bool} (hpq : ∀ w, q w → p w)
    (ws : List WindowInfo) : (ws.filter p).dropWhile (!q ·) = (ws.dropWhile (!q ·)).filter p := by
  rw [List.dropWhile_filter]
  refine congrArg (List.filter p) (congrArg (List.dropWhile · ws) (funext fun w ↦ ?_))
  have := hpq w
  cases hp : p w <;> cases hq : q w <;> simp_all

theorem of_dropWhile_eq_cons {q : WindowInfo → Bool} {ws rest : List WindowInfo}
    (h : ws.dropWhile (!q ·) = stored :: rest) : q stored := by
  have hne : ws.dropWhile (!q ·) ≠ [] := by
    rw [h]
    exact List.cons_ne_nil _ _
  have hnot := List.head_dropWhile_not (fun w ↦ !q w) hne
  simpa [h] using hnot

theorem dropWhile_cases {p q : WindowInfo → Bool} {ws ws' : List WindowInfo}
    (hpq : ∀ w, q w → p w) (h : ws.filter p = ws'.filter p) :
    (ws.dropWhile (!q ·) = [] ∧ ws'.dropWhile (!q ·) = []) ∨
      ∃ stored rest rest', ws.dropWhile (!q ·) = stored :: rest ∧
        ws'.dropWhile (!q ·) = stored :: rest' ∧ rest.filter p = rest'.filter p := by
  have hdrop : (ws.dropWhile (!q ·)).filter p = (ws'.dropWhile (!q ·)).filter p := by
    rw [← dropWhile_filter_of_imp hpq, ← dropWhile_filter_of_imp hpq, h]
  cases hws : ws.dropWhile (!q ·) with
  | nil =>
    cases hws' : ws'.dropWhile (!q ·) with
    | nil => exact Or.inl ⟨rfl, rfl⟩
    | cons stored rest' =>
      rw [hws, hws', List.filter_cons, if_pos (hpq _ (of_dropWhile_eq_cons hws'))] at hdrop
      cases hdrop
  | cons stored rest =>
    rw [hws, List.filter_cons, if_pos (hpq _ (of_dropWhile_eq_cons hws))] at hdrop
    cases hws' : ws'.dropWhile (!q ·) with
    | nil =>
      rw [hws'] at hdrop
      cases hdrop
    | cons stored' rest' =>
      rw [hws', List.filter_cons, if_pos (hpq _ (of_dropWhile_eq_cons hws'))] at hdrop
      obtain ⟨rfl, hrest⟩ := List.cons_eq_cons.1 hdrop
      exact Or.inr ⟨stored, rest, rest', rfl, rfl, hrest⟩

theorem comesBack_iff : start.comesBack l c stored ↔ stored.slot = c.old.slot ∧
    start.isRegistered stored.id ∧ ∃ current,
      (if stored.id = c.new.id then some { c.old with visible := false } else l.get? stored.id) =
        some current ∧ isWhereEvicted current stored := by
  simp only [comesBack, Bool.and_eq_true, beq_iff_eq, Option.any_eq_true, and_assoc]

theorem awaited_iff : start.awaited l rest stored ↔
    ∃ c ∈ rest, c.changesSplit ∧ start.comesBack l c stored := by
  simp only [awaited, List.any_eq_true, Bool.and_eq_true]

theorem changesSplit_occupies (h : c.changesSplit) : c.old.occupiesSlot := by
  simp only [LayoutChange.changesSplit, Bool.and_eq_true] at h
  rw [WindowInfo.occupiesSlot, h.2, h.1.1.2]
  rfl

def SameAwaited (l : Layout) (start : Engine) (rest : List LayoutChange) (s s' : SideStack) :
    Prop :=
  ∀ b, (s.get b).filter (start.awaited l rest) = (s'.get b).filter (start.awaited l rest)

namespace SameAwaited

variable {s s' s'' : SideStack} {ws ws' : List WindowInfo}

theorem trans (h : SameAwaited l start rest s s') (h' : SameAwaited l start rest s' s'') :
    SameAwaited l start rest s s'' :=
  fun b ↦ (h b).trans (h' b)

theorem tail (h : SameAwaited l start (c :: rest) s s') : SameAwaited l start rest s s' := by
  have hsub : ∀ ws : List WindowInfo, ws.filter (start.awaited l rest) =
      (ws.filter (start.awaited l (c :: rest))).filter (start.awaited l rest) := by
    intro ws
    rw [List.filter_filter]
    refine List.filter_congr fun w _ ↦ ?_
    simp only [awaited, List.any_cons]
    cases rest.any fun c ↦ c.changesSplit && start.comesBack l c w <;> simp
  intro b
  rw [hsub, h b, ← hsub]

theorem set (h : SameAwaited l start rest s s')
    (hws : ws.filter (start.awaited l rest) = ws'.filter (start.awaited l rest)) :
    SameAwaited l start rest (s.set b ws) (s'.set b ws') := by
  intro b'
  rw [PerAnchor.get_set, PerAnchor.get_set]
  split
  case isTrue => exact hws
  case isFalse => exact h b'

theorem remove (h : SameAwaited l start rest s s') (id : String) :
    SameAwaited l start rest (s.remove id) (s'.remove id) := by
  intro b
  rw [SideStack.get_remove, SideStack.get_remove, List.filter_comm, h b, List.filter_comm]

theorem of_remove (hid : ∀ w : WindowInfo, w.id = id → start.awaited l rest w = false) :
    SameAwaited l start rest (s.remove id) s := by
  intro b
  rw [SideStack.get_remove, List.filter_filter]
  refine List.filter_congr fun w _ ↦ ?_
  by_cases hw : w.id = id
  · rw [hid w hw, Bool.false_and]
  · simp [hw]

theorem of_extends {pushed : Set WindowInfo} (h : SideStack.Extends pushed s s')
    (hpushed : ∀ w ∈ pushed, start.awaited l rest w = false) : SameAwaited l start rest s' s :=
  fun b ↦ h.filter_eq b _ hpushed

end SameAwaited

theorem docks_iff {slot : Slot} : l.docks slot id ↔
    ∃ info, l.get? id = some info ∧ info.windowType.isInternal ∧ info.slot = slot := by
  simp only [Layout.docks, Option.any_eq_true, Bool.and_eq_true, beq_iff_eq]

theorem mem_shownIn {slot : Slot} : id ∈ start.shownIn l slot ↔ start.isRegistered id ∧
    ∃ info, l.get? id = some info ∧ info.visible ∧ info.windowType.isInternal ∧
      info.slot = slot := by
  simp only [shownIn, List.mem_filter, Bool.and_eq_true, docks_iff, Option.any_eq_true]
  constructor
  · intro hq
    rcases hq with ⟨-, ⟨hreg, info, hinfo, hplace⟩, info', hinfo', hv⟩
    cases hinfo.symm.trans hinfo'
    exact ⟨hreg, info, hinfo, hv, hplace⟩
  · intro hq
    rcases hq with ⟨hreg, info, hinfo, hv, hplace⟩
    exact ⟨Layout.contains_eq_true_iff.1 (Layout.contains_of_get? hinfo),
      ⟨hreg, info, hinfo, hplace⟩, info, hinfo, hv⟩

/-- Windows that stray are registered, and not in slots that are still to be left. -/
structure Fair (l : Layout) (start : Engine) (strays : List String) (rest : List LayoutChange) :
    Prop where
  registered : ∀ id ∈ strays, start.isRegistered id
  apart : ∀ id ∈ strays, ∀ info, l.get? id = some info → ∀ c ∈ rest, c.changesSplit →
    info.slot ≠ c.old.slot

/-- Changes of different windows that the layout asks for. -/
structure Pending (l : Layout) (start : Engine) (rest : List LayoutChange) : Prop where
  asked : ∀ c ∈ rest, c ∈ start.changesTo l
  distinct : rest.Pairwise fun c d ↦ c.key ≠ d.key

theorem Pending.tail (h : Pending l start (c :: rest)) : Pending l start rest :=
  ⟨fun d hd ↦ h.asked d (List.mem_cons_of_mem _ hd), (List.pairwise_cons.1 h.distinct).2⟩

theorem Pending.old_ne (h : Pending l start (c :: rest)) (hcoherent : CoherentCore start)
    (hd : d ∈ rest) (hsplit : c.changesSplit) (hsplit' : d.changesSplit) :
    c.old.slot ≠ d.old.slot := fun hs ↦
  (List.pairwise_cons.1 h.distinct).1 d hd (hcoherent.old_inj (h.asked c (List.mem_cons_self ..))
    (h.asked d (List.mem_cons_of_mem _ hd)) (changesSplit_occupies hsplit)
    (changesSplit_occupies hsplit') hs)

theorem Pending.new_id_ne (h : Pending l start (c :: rest)) (hcoherent : CoherentCore start)
    (hd : d ∈ rest) : d.new.id ≠ c.new.id := by
  intro heq
  obtain ⟨x, hx, hxnew, -⟩ := mem_changesTo.1 (h.asked c (List.mem_cons_self ..))
  obtain ⟨y, hy, hynew, -⟩ := mem_changesTo.1 (h.asked d (List.mem_cons_of_mem _ hd))
  rw [Layout.id_of_get? hxnew, Layout.id_of_get? hynew] at heq
  exact (List.pairwise_cons.1 h.distinct).1 d hd (CoherentOn.key_eq hcoherent hx hy heq.symm)

theorem visible_eq_false_of_docks {other : String} {new : WindowInfo} (hl : l.violations = [])
    (hnew : l.get? other = some new) (ho : new.occupiesSlot) (hne : id ≠ other)
    (hinfo : l.get? id = some info) (hdocks : l.docks new.slot id) : info.visible = false := by
  obtain ⟨info', hinfo', hi, hs⟩ := docks_iff.1 hdocks
  cases hinfo.symm.trans hinfo'
  by_contra hv
  have hoi : info.occupiesSlot = true := by
    rw [WindowInfo.occupiesSlot, hi, Bool.and_true]
    simpa using hv
  exact hne (Layout.slot_inj_of_violations hl hinfo hnew hoi ho hs)

theorem Pending.not_awaited (h : Pending l start (c :: rest)) (hcoherent : CoherentCore start)
    (hv : c.new.visible) (hid : stored.id = c.new.id) : start.awaited l rest stored = false := by
  obtain ⟨x, -, hnew, -⟩ := mem_changesTo.1 (h.asked c (List.mem_cons_self ..))
  rw [← Bool.not_eq_true, awaited_iff]
  intro hq
  rcases hq with ⟨d, hd, -, hcomes⟩
  obtain ⟨-, -, current, hcurrent, hwhere⟩ := comesBack_iff.1 hcomes
  have hne : ¬ stored.id = d.new.id := fun heq ↦
    h.new_id_ne hcoherent hd (heq.symm.trans hid)
  rw [if_neg hne, hid, Layout.id_of_get? hnew, hnew] at hcurrent
  cases hcurrent
  rw [(isWhereEvicted_iff.1 hwhere).1] at hv
  cases hv

theorem Fair.not_awaited {strays : List String} (h : Fair l start strays (c :: rest))
    (hc : c ∈ start.changesTo l) (hl : l.violations = []) (ho : c.new.occupiesSlot)
    (hstored : stored ∈ evictable l start c.key c.new.slot (shownBy l strays)) :
    start.awaited l rest stored = false := by
  obtain ⟨hslot, ⟨info, hinfo, hv⟩, hdocks, hkey⟩ := hstored
  obtain ⟨x, hx, hnew, -⟩ := mem_changesTo.1 hc
  have hne : stored.id ≠ x.id := fun heq ↦ hkey (by rw [idAt?, hx, Option.map_some, heq])
  have hstray : stored.id ∈ strays := by
    rw [visible_eq_false_of_docks hl hnew ho hne hinfo hdocks] at hv
    simpa using hv
  rw [← Bool.not_eq_true, awaited_iff]
  intro hq
  rcases hq with ⟨d, hd, hs, hcomes⟩
  obtain ⟨info', hinfo', -, hs'⟩ := docks_iff.1 hdocks
  exact h.apart _ hstray info' hinfo' d (List.mem_cons_of_mem _ hd) hs
    (hs'.trans (hslot.symm.trans (comesBack_iff.1 hcomes).1))

namespace Account

variable {a : Account}

theorem mem_strays_comeBack : id ∈ (a.comeBack start l c).strays ↔ id ∈ a.strays ∨
    ∃ stored rest, (a.evicted.get c.old.anchor).dropWhile (!start.comesBack l c ·) =
      stored :: rest ∧
      (id = stored.id ∨ stored.windowType.isInternal ∧ id ∈ start.shownIn l c.old.slot) := by
  unfold comeBack
  split
  case h_1 hnone => simp [hnone]
  case h_2 stored rest hsome =>
    simp only [hsome, List.mem_cons, List.cons_append, List.mem_append, List.cons.injEq]
    split <;> grind

theorem mem_strays_after_of_movesSlot (hm : c.movesSlot) :
    id ∈ (a.after start l c).strays ↔ id ∈ a.strays ∧ ¬ l.docks c.new.slot id := by
  rw [after, if_pos hm, List.mem_filter, Bool.not_eq_true']
  simp

theorem mem_strays_without {other : String} :
    id ∈ (a.without other).strays ↔ id ∈ a.strays ∧ id ≠ other := by
  simp [without]

theorem not_mem_strays_after (hnew : l.get? c.new.id = some c.new) :
    c.new.id ∉ (a.after start l c).strays := by
  by_cases hm : c.movesSlot
  · rw [mem_strays_after_of_movesSlot hm]
    simp only [LayoutChange.movesSlot, WindowInfo.occupiesSlot, Bool.and_eq_true] at hm
    exact fun h ↦ h.2 (docks_iff.2 ⟨c.new, hnew, hm.2.2, rfl⟩)
  · rw [after, if_neg hm]
    split
    all_goals exact fun h ↦ (mem_strays_without.1 h).2 rfl

theorem mem_strays_after (h : id ∈ (a.after start l c).strays) : id ∈ a.strays ∨
    c.changesSplit ∧ start.isRegistered id ∧
      ∀ info, l.get? id = some info → info.slot = c.old.slot := by
  by_cases hm : c.movesSlot
  · exact Or.inl ((mem_strays_after_of_movesSlot hm).1 h).1
  · rw [after, if_neg hm] at h
    split at h
    case isFalse => exact Or.inl (mem_strays_without.1 h).1
    case isTrue hs =>
      obtain ⟨hmem, hne⟩ := mem_strays_without.1 h
      rcases mem_strays_comeBack.1 hmem with hold | ⟨stored, rest, hdrop, hid⟩
      · exact Or.inl hold
      · obtain ⟨hslot, hreg, current, hcurrent, hwhere⟩ := comesBack_iff.1
          (of_dropWhile_eq_cons hdrop)
        refine Or.inr ⟨(Bool.and_eq_true _ _ ▸ hs).1, ?_⟩
        rcases hid with rfl | ⟨-, hshown⟩
        · rw [if_neg hne] at hcurrent
          refine ⟨hreg, fun info hinfo ↦ ?_⟩
          cases hinfo.symm.trans hcurrent
          exact (congrArg Prod.fst (isWhereEvicted_iff.1 hwhere).2).trans hslot
        · obtain ⟨hreg', info, hinfo, -, -, hs'⟩ := mem_shownIn.1 hshown
          refine ⟨hreg', fun info' hinfo' ↦ ?_⟩
          cases hinfo.symm.trans hinfo'
          exact hs'

end Account

theorem Fair.after {a : Account} (h : Fair l start a.strays (c :: rest))
    (hpending : Pending l start (c :: rest)) (hcoherent : CoherentCore start) :
    Fair l start (a.after start l c).strays rest := by
  refine ⟨fun id hid ↦ ?_, fun id hid info hinfo d hd hs' ↦ ?_⟩
  · rcases Account.mem_strays_after hid with hold | ⟨-, hreg, -⟩
    · exact h.registered id hold
    · exact hreg
  · rcases Account.mem_strays_after hid with hold | ⟨hs, -, hslot⟩
    · exact h.apart id hold info hinfo d (List.mem_cons_of_mem _ hd) hs'
    · exact hslot info hinfo ▸ hpending.old_ne hcoherent hd hs hs'

theorem Fair.shownBy_comeBack {a : Account} {older : List WindowInfo}
    (h : Fair l start a.strays (c :: rest)) (hs : c.changesSplit)
    (hdrop : (a.evicted.get c.old.anchor).dropWhile (!start.comesBack l c ·) = stored :: older)
    (hreg : start.isRegistered id) (hne : id ≠ c.new.id) :
    id ∈ shownBy l (a.comeBack start l c).strays ↔
      id ∈ shownWith l stored (shownBy l a.strays) := by
  obtain ⟨hslot, -, current, hcurrent, hwhere⟩ := comesBack_iff.1 (of_dropWhile_eq_cons hdrop)
  have hmem : id ∈ (a.comeBack start l c).strays ↔ id ∈ a.strays ∨
      (id = stored.id ∨ stored.windowType.isInternal ∧ id ∈ start.shownIn l c.old.slot) := by
    rw [Account.mem_strays_comeBack, hdrop]
    simp
  simp only [shownBy, shownWith, Set.mem_ofPred_eq, hmem]
  by_cases hid : id = stored.id
  · subst hid
    rw [if_neg hne] at hcurrent
    have hhidden : current.visible = false := (isWhereEvicted_iff.1 hwhere).1
    simp [hcurrent, hhidden]
  by_cases hin : stored.windowType.isInternal ∧ l.docks stored.slot id
  · -- the layout shows the window in the slot, or hides it there
    obtain ⟨info, hinfo, hi, hs'⟩ := docks_iff.1 hin.2
    have hnot : id ∉ a.strays := fun hm ↦
      h.apart id hm info hinfo c (List.mem_cons_self ..) hs (hs'.trans hslot)
    have hshown : id ∈ start.shownIn l c.old.slot ↔ info.visible := by
      rw [mem_shownIn]
      constructor
      · intro hq
        rcases hq with ⟨-, info', hinfo', hv, -⟩
        cases hinfo.symm.trans hinfo'
        exact hv
      · exact fun hv ↦ ⟨hreg, info, hinfo, hv, hi, hs'.trans hslot⟩
    simp [hid, hin, hinfo, hnot, hshown]
  · have hshown : ¬ (stored.windowType.isInternal ∧ id ∈ start.shownIn l c.old.slot) := by
      intro hq
      rcases hq with ⟨hi, hm⟩
      obtain ⟨-, info, hinfo, -, hplace⟩ := mem_shownIn.1 hm
      exact hin ⟨hi, docks_iff.2 ⟨info, hinfo, hslot ▸ hplace⟩⟩
    simp only [hid, hshown, hin, or_false, false_or, not_false_eq_true, and_true]

theorem strays_foldl_after {a : Account} (hnone : ∀ c ∈ rest, c.changesSplit →
      ∀ w ∈ start.sideStack.get c.old.anchor, start.comesBack l c w = false)
    (ha : a.strays = []) (hevicted : ∀ b, a.evicted.get b ⊆ start.sideStack.get b) :
    (rest.foldl (Account.after start l) a).strays = [] := by
  induction rest generalizing a with
  | nil => exact ha
  | cons c rest ih =>
    have ih' := fun {a} ↦ ih (a := a) fun d hd ↦ hnone d (List.mem_cons_of_mem _ hd)
    rw [List.foldl_cons, Account.after]
    split
    case isTrue => exact ih' (by rw [ha]; rfl) hevicted
    case isFalse =>
      split
      case isFalse => exact ih' (by rw [Account.without, ha]; rfl) hevicted
      case isTrue hs =>
        have hdrop : (a.evicted.get c.old.anchor).dropWhile (!start.comesBack l c ·) = [] := by
          rw [List.dropWhile_eq_nil_iff]
          intro w hw
          rw [hnone c (List.mem_cons_self ..) (Bool.and_eq_true _ _ ▸ hs).1 w (hevicted _ hw)]
          rfl
        have hcome : a.comeBack start l c =
            { a with evicted := a.evicted.set c.old.anchor [] } := by
          rw [Account.comeBack, hdrop]
        rw [hcome]
        refine ih' (by rw [Account.without, ha]; rfl) fun b ↦ ?_
        rw [Account.without, PerAnchor.get_set]
        split
        · exact List.nil_subset _
        · exact hevicted b

theorem strays_eq_nil (hnone : ∀ c ∈ start.changesTo l, c.changesSplit →
    ∀ w ∈ start.sideStack.get c.old.anchor, start.comesBack l c w = false) :
    start.strays l = [] :=
  strays_foldl_after hnone rfl fun _ ↦ List.Subset.refl _

end ToolDock.Engine

import ToolDock.Proofs.Straying

/-!
Replacing a layout where windows were evicted before. The engine follows the new layout, but for the
windows that stray from it, change by change. Main statement: `shown_setLayout_iff`, about the
windows that are visible in the end.
-/

namespace ToolDock.Engine

variable {l : Layout} {start e e' e₁ e₂ : Engine} {a : Account} {aside : Set SlotKey}
  {shown : Set String} {c c' : LayoutChange} {rest : List LayoutChange}
  {stored info off : WindowInfo} {id : String} {key : SlotKey} {slot : Slot} {x y : Entry}
  {host : Host}

theorem isRegistered_iff (h : CoherentCore start) :
    start.isRegistered id ↔ ∃ key, start.idAt? key = some id := by
  constructor
  · intro hreg
    obtain ⟨key, hkey⟩ := Option.isSome_iff_exists.1 hreg
    obtain ⟨x, hx, hname⟩ := get?_of_keyOf? hkey
    have hid : x.id = x.name := h.id_eq (standing?_of_get? hx)
    exact ⟨key, by rw [idAt?, hx, Option.map_some, hid, hname]⟩
  · intro hq
    rcases hq with ⟨key, hkey⟩
    obtain ⟨x, hx, rfl⟩ := Option.map_eq_some_iff.1 hkey
    have hid : x.id = x.name := h.id_eq (standing?_of_get? hx)
    by_contra hnot
    have hnone : start.keyOf? x.id = none := by simpa [isRegistered] using hnot
    exact name_ne_of_keyOf?_eq_none hnone hx hid.symm

theorem Follows.restores_iff (h : Follows l start aside shown e) : e.restores slot stored ↔
    stored.split = slot.split ∧ stored.pane = slot.pane ∧ ∃ k y placed,
      e.entries.get? k = some y ∧ y.id = stored.id ∧ y.available ∧
      e.layout.get? stored.id = some placed ∧ isWhereEvicted placed stored := by
  have hplace : ∀ {k y}, e.entries.get? k = some y → y.name = stored.id →
      ((e.entryIs k Entry.available && isWhereEvicted (e.registeredInfo k).1 stored) = true ↔
        y.available ∧ ∃ placed, e.layout.get? stored.id = some placed ∧
          isWhereEvicted placed stored) := by
    intro k y hy hname
    obtain ⟨placed, hplaced, hreg⟩ := h.registeredInfo hy
    rw [h.name_eq hy, hname] at hplaced
    rw [entryIs_of_get? hy, hreg, Bool.and_eq_true, hplaced]
    simp
  simp only [restores, Bool.and_eq_true, beq_iff_eq, Option.any_eq_true, and_assoc]
  refine and_congr_right fun _ ↦ and_congr_right fun _ ↦ ⟨?_, ?_⟩
  · intro hq
    rcases hq with ⟨k, hk, hp⟩
    obtain ⟨y, hy, hname⟩ := get?_of_keyOf? hk
    obtain ⟨ha, placed, hplaced, hwhere⟩ := (hplace hy hname).1 (by simpa using hp)
    exact ⟨k, y, placed, hy, (h.name_eq hy).trans hname, ha, hplaced, hwhere⟩
  · intro hq
    rcases hq with ⟨k, y, placed, hy, hid, ha, hplaced, hwhere⟩
    have hname := (h.name_eq hy).symm.trans hid
    cases hk : e.keyOf? stored.id with
    | none => exact absurd hname (name_ne_of_keyOf?_eq_none hk hy)
    | some k' =>
      obtain ⟨y', hy', hname'⟩ := get?_of_keyOf? hk
      have hkey := h.key_eq hy' hy (((h.name_eq hy').trans hname').trans hid.symm)
      have := (hplace hy hname).2 ⟨ha, placed, hplaced, hwhere⟩
      exact ⟨k, by rw [hkey], by simpa using this⟩

/-- Halfway through the changes the engine follows the layout, but for the windows that stray; and
what may still come back is on the stacks as it is in the account. -/
structure Accounted (l : Layout) (start : Engine) (a : Account) (rest : List LayoutChange)
    (e : Engine) : Prop where
  follows : Follows l start ∅ (shownBy l a.strays) e
  filed : e.sideStack.Filed
  fair : Fair l start a.strays rest
  pending : Pending l start rest
  evicted : SameAwaited l start rest e.sideStack a.evicted

namespace Accounted

theorem exists_placed_iff (h : Accounted l start a (c :: rest) e) (hs : c.changesSplit)
    (hv : Vacated l start c.key (shownBy l a.strays) c.old off e e₁)
    (hslot : stored.slot = c.old.slot) (hy : e₁.entries.get? key = some y)
    (hid : y.id = stored.id) :
    (∃ placed, e₁.layout.get? stored.id = some placed ∧ isWhereEvicted placed stored) ↔
      ∃ current, (if stored.id = c.new.id then some { c.old with visible := false }
        else l.get? stored.id) = some current ∧ isWhereEvicted current stored := by
  have hold : c.old.id = c.new.id :=
    CoherentOn.old_id h.follows.coherent (h.pending.asked c (List.mem_cons_self ..))
  by_cases hself : stored.id = c.new.id
  · rw [if_pos hself, hself, ← hold, hv.placement]
    simp only [Option.some.injEq, exists_eq_left', isWhereEvicted_iff, hv.visible, hv.berth]
    exact Iff.rfl
  · have hk : key ∉ ({c.key} : Set SlotKey) := by
      intro hk
      obtain rfl := Set.mem_singleton_iff.1 hk
      exact hself (hid.symm.trans ((hv.entry y hy).1.trans hold))
    obtain ⟨info, placed, hinfo, hplaced, -, hberth, hshown⟩ := hv.follows.berthed hk hy
    rw [hid] at hinfo hplaced hshown
    simp only [if_neg hself, hinfo, hplaced, Option.some.injEq, exists_eq_left',
      isWhereEvicted_iff, hberth]
    refine and_congr_left fun hb ↦ ?_
    have hnot : stored.id ∉ a.strays := fun hmem ↦ h.fair.apart _ hmem info hinfo c
      (List.mem_cons_self ..) hs ((congrArg Prod.fst hb).trans hslot)
    have hsame : placed.visible ↔ info.visible := by
      rw [hshown]
      simp [shownBy, hinfo, hnot]
    rw [Bool.eq_false_iff, Bool.eq_false_iff, Ne, Ne, hsame]

theorem restores_eq (h : Accounted l start a (c :: rest) e) (hcovers : Covers l start)
    (hs : c.changesSplit) (hv : Vacated l start c.key (shownBy l a.strays) c.old off e e₁)
    (hstored : stored ∈ e.sideStack.get c.old.anchor) :
    e₁.restores c.old.slot stored = start.comesBack l c stored := by
  have hanchor : stored.anchor = c.old.anchor := h.filed _ stored hstored
  have hslot : stored.slot = c.old.slot ↔
      stored.split = c.old.slot.split ∧ stored.pane = c.old.slot.pane := by
    simp only [WindowInfo.slot, Slot.mk.injEq, hanchor, true_and]
    exact and_comm
  rw [Bool.eq_iff_iff, hv.follows.restores_iff, comesBack_iff, ← and_assoc, ← hslot]
  refine and_congr_right fun hslot ↦ ⟨?_, ?_⟩
  · intro hq
    rcases hq with ⟨k, y, placed, hy, hid, -, hplaced, hp⟩
    refine ⟨(isRegistered_iff h.follows.coherent).2 ⟨k, ?_⟩,
      (h.exists_placed_iff hs hv hslot hy hid).1 ⟨placed, hplaced, hp⟩⟩
    rw [hv.follows.idAt?_eq hy, hid]
  · intro hq
    rcases hq with ⟨hreg, hcurrent⟩
    obtain ⟨k, hk⟩ := (isRegistered_iff h.follows.coherent).1 hreg
    obtain ⟨x, hx, hxid⟩ := Option.map_eq_some_iff.1 hk
    obtain ⟨y, hy, hidentity⟩ := hv.follows.get?_of_start hx
    have hid : y.id = stored.id := (congrArg (·.2.1) hidentity).trans hxid
    have ha : y.available = true := (congrArg (·.2.2) hidentity).trans (hcovers.available hx)
    obtain ⟨placed, hplaced, hp⟩ := (h.exists_placed_iff hs hv hslot hy hid).2 hcurrent
    exact ⟨k, y, placed, hy, hid, ha, hplaced, hp⟩

theorem finishes (h : Accounted l start a (c :: rest) e) (hcap : Captures host y c c')
    (hfollows : Follows l start {c.key} shown e₂) (hfiled : e₂.sideStack.Filed)
    (hshown : ∀ id, start.isRegistered id → id ≠ c.new.id →
      (id ∈ shownBy l (a.after start l c).strays ↔ id ∈ shown))
    (hevicted : SameAwaited l start rest e₂.sideStack (a.after start l c).evicted) :
    Finishes c' (fun _ e' ↦ Accounted l start (a.after start l c) rest e') e₂ := by
  obtain ⟨x, hx, hnew, -⟩ := mem_changesTo.1 (h.pending.asked c (List.mem_cons_self ..))
  have hxid : c.new.id = x.id := Layout.id_of_get? hnew
  obtain ⟨y₂, hy₂, hidentity₂⟩ := hfollows.get?_of_start hx
  refine ⟨y₂, hcap.key ▸ hy₂, fun e₃ hre ↦ ?_⟩
  rw [hcap.key] at hre ⊢
  obtain ⟨y₃, hex, hst⟩ := id hre
  have hfollows₃ := hfollows.redecorate hy₂ hre
  have hid₃ : y₃.id = x.id :=
    (congrArg Standing.id hst).trans (congrArg (·.2.1) hidentity₂)
  obtain ⟨saved, hsaved⟩ := hcap.new
  have hid : c'.new.id = c.new.id := by rw [hsaved]; rfl
  have hberth : c'.new.berth = c.new.berth := by rw [hsaved]; rfl
  have hvisible : c'.new.visible = c.new.visible := by rw [hsaved]; rfl
  have hside : e₃.sideStack = e₂.sideStack := hex.sideStack
  have hcommit : Follows l start ∅
      {id | if id = c.new.id then c.new.visible = true else id ∈ shown}
      (e₃.commit c.key c'.new) := by
    refine hfollows₃.commit hex.get?_self (hid.trans (hxid.trans hid₃.symm)) (fun _ ↦ ?_)
      (fun k hk _ hm ↦ hk (Set.mem_singleton_iff.1 hm)) fun id hne ↦ ?_
    · refine ⟨c.new, hid₃ ▸ hnew, hberth, ?_⟩
      rw [Set.mem_ofPred_eq, if_pos (hid₃.trans hxid.symm), hvisible]
    · have hne' : ¬ id = c.new.id := fun heq ↦ hne (heq.trans (hxid.trans hid₃.symm))
      rw [Set.mem_ofPred_eq, if_neg hne']
  refine ⟨hcommit.congr_shown fun k y' _ hy' ↦ ?_, ?_, h.fair.after h.pending h.follows.coherent,
    h.pending.tail, ?_⟩
  · rw [Set.mem_ofPred_eq]
    split
    case isTrue hself =>
      have hnot : c.new.id ∉ (a.after start l c).strays :=
        Account.not_mem_strays_after (hxid ▸ hnew)
      rw [hself]
      simp [shownBy, hxid ▸ hnew, hnot]
    case isFalse hne =>
      exact hshown _ ((isRegistered_iff h.follows.coherent).2 ⟨k, hcommit.idAt?_eq hy'⟩) hne
  · exact hside ▸ hfiled
  · exact hside ▸ hevicted

theorem finishes_left {a' : Account} (h : Accounted l start a (c :: rest) e)
    (hcap : Captures host y c c') (hafter : a.after start l c = a'.without c.new.id)
    (hfollows : Follows l start {c.key} shown e₂) (hfiled : e₂.sideStack.Filed)
    (hshown : ∀ id, start.isRegistered id → id ≠ c.new.id →
      (id ∈ shownBy l a'.strays ↔ id ∈ shown))
    (hevicted : SameAwaited l start rest e₂.sideStack a'.evicted) :
    Finishes c' (fun _ e' ↦ Accounted l start (a.after start l c) rest e') e₂ := by
  refine h.finishes hcap hfollows hfiled (fun id hreg hne ↦ ?_) ?_
  · rw [← hshown id hreg hne, hafter]
    simp [shownBy, Account.mem_strays_without, hne]
  · rw [hafter]
    exact hevicted

theorem finishes_still (h : Accounted l start a (c :: rest) e) (hcap : Captures host y c c')
    (hm : ¬ c.movesSlot) (hs : ¬ (c.changesSplit && start.settings.stackEnabled))
    (hfollows : Follows l start {c.key} (shownBy l a.strays) e₂)
    (hside : e₂.sideStack = e.sideStack) :
    Finishes c' (fun _ e' ↦ Accounted l start (a.after start l c) rest e') e₂ := by
  refine h.finishes_left hcap ?_ hfollows (hside ▸ h.filed) (fun _ _ _ ↦ Iff.rfl) ?_
  · rw [Account.after, if_neg hm, if_neg hs]
  · rw [hside]
    exact h.evicted.tail

theorem finishes_shown {s : SideStack} (h : Accounted l start a (c :: rest) e)
    (hl : l.violations = []) (hm : c.movesSlot)
    (hfollows : Follows l start ∅ (shownWith l c.new (shownBy l a.strays)) e₂)
    (hextends : SideStack.Extends (evictable l start c.key c.new.slot (shownBy l a.strays))
      e.sideStack s) (hside : e₂.sideStack = e.forgetting c.new.id s) :
    Finishes c (fun _ e' ↦ Accounted l start (a.after start l c) rest e') e₂ := by
  have hc := h.pending.asked c (List.mem_cons_self ..)
  obtain ⟨x, -, hnew, -⟩ := mem_changesTo.1 hc
  have ho : c.new.occupiesSlot = true := (Bool.and_eq_true _ _ ▸ hm).2
  obtain ⟨hvisible, hinternal⟩ := Bool.and_eq_true _ _ ▸ ho
  have hafter : a.after start l c =
      { a with strays := a.strays.filter (!l.docks c.new.slot ·) } := by
    rw [Account.after, if_pos hm]
  have hpushed : SameAwaited l start rest s a.evicted :=
    (SameAwaited.of_extends hextends fun w hw ↦ h.fair.not_awaited hc hl ho hw).trans
      h.evicted.tail
  have hcaptures : Captures e.host x c c := .of_movesSlot hm
  refine h.finishes hcaptures (hfollows.mono (Set.empty_subset _)) ?_ (fun id _ hne ↦ ?_) ?_
  · rw [hside, forgetting]
    split
    · exact (hextends.filed h.filed).remove
    · exact hextends.filed h.filed
  · simp only [shownWith, shownBy, Set.mem_ofPred_eq, hne, false_or,
      Account.mem_strays_after_of_movesSlot hm, hinternal, true_and]
    by_cases hdocks : l.docks c.new.slot id = true
    · simp only [hdocks, not_true_eq_false, and_false, not_false_eq_true, iff_true, iff_false]
      intro hq
      rcases hq with ⟨info, hinfo, hv⟩
      rw [visible_eq_false_of_docks hl hnew ho (Layout.id_of_get? hnew ▸ hne) hinfo hdocks] at hv
      cases hv
    · simp [hdocks]
  · rw [hside, hafter, forgetting]
    split
    · refine SameAwaited.trans (.of_remove fun w hw ↦ ?_) hpushed
      exact h.pending.not_awaited h.follows.coherent hvisible hw
    · exact hpushed

theorem finishes_restored (h : Accounted l start a (c :: rest) e) (hcovers : Covers l start)
    (hcap : Captures host y c c') (hm : ¬ c.movesSlot) (hs : c.changesSplit)
    (henabled : start.settings.stackEnabled)
    (hv : Vacated l start c.key (shownBy l a.strays) c.old off e e₁)
    (hrestored : Restored l start c.key (shownBy l a.strays) e₁ e₂ c.old.anchor
      ((e₁.sideStack.get c.old.anchor).dropWhile (!e₁.restores c.old.slot ·))) :
    Finishes c' (fun _ e' ↦ Accounted l start (a.after start l c) rest e') e₂ := by
  have hafter : a.after start l c = (a.comeBack start l c).without c.new.id := by
    rw [Account.after, if_neg hm, hs, henabled]
    rfl
  have hdrop : (e₁.sideStack.get c.old.anchor).dropWhile (!e₁.restores c.old.slot ·) =
      (e.sideStack.get c.old.anchor).dropWhile (!start.comesBack l c ·) := by
    rw [hv.sideStack]
    exact dropWhile_congr fun stored hstored ↦ h.restores_eq hcovers hs hv hstored
  rw [hdrop] at hrestored
  have hawaited : ∀ w, start.comesBack l c w → start.awaited l (c :: rest) w := fun w hw ↦
    awaited_iff.2 ⟨c, List.mem_cons_self .., hs, hw⟩
  obtain ⟨hnone, hnone'⟩ | ⟨stored, older, older', hsome, hsome', holder⟩ :=
    dropWhile_cases hawaited (h.evicted c.old.anchor)
  · have hcome : a.comeBack start l c = { a with evicted := a.evicted.set c.old.anchor [] } := by
      rw [Account.comeBack, hnone']
    rw [hnone] at hrestored
    obtain ⟨hfollows, hside⟩ := hrestored
    rw [hv.sideStack] at hside
    rw [hcome] at hafter
    refine h.finishes_left hcap hafter hfollows ?_ (fun _ _ _ ↦ Iff.rfl) ?_
    · rw [hside]
      exact h.filed.set fun w hw ↦ absurd hw List.not_mem_nil
    · rw [hside]
      exact h.evicted.tail.set rfl
  · have hslot := (comesBack_iff.1 (of_dropWhile_eq_cons hsome)).1
    have hcome : (a.comeBack start l c).evicted =
        SideStack.remove (a.evicted.set c.old.anchor older') stored.id := by
      rw [Account.comeBack, hsome']
    rw [hsome] at hrestored
    obtain ⟨hfollows, s, hextends, hside⟩ := hrestored
    rw [hv.sideStack] at hextends
    rw [forgetting, hv.follows.settings, if_pos henabled] at hside
    refine h.finishes_left hcap hafter hfollows ?_
      (fun id hreg hne ↦ h.fair.shownBy_comeBack hs hsome' hreg hne) ?_
    · rw [hside]
      refine (hextends.filed (h.filed.set fun w hw ↦ h.filed _ w ?_)).remove
      exact (List.dropWhile_suffix _).subset (hsome ▸ List.mem_cons_of_mem _ hw)
    · rw [hcome, hside]
      refine SameAwaited.remove (SameAwaited.trans (.of_extends hextends fun w hw ↦ ?_)
        (h.evicted.set holder).tail) stored.id
      rw [← Bool.not_eq_true, awaited_iff]
      intro hq
      rcases hq with ⟨d, hd, hs', hcomes⟩
      exact h.pending.old_ne h.follows.coherent hd hs hs'
        (hslot.symm.trans (hw.symm.trans (comesBack_iff.1 hcomes).1))

theorem redecorate (h : Accounted l start a rest e) (hy : e.entries.get? key = some y)
    (hre : Redecorates key y e e₁) : Accounted l start a rest e₁ := by
  obtain ⟨y₁, hex, -⟩ := id hre
  have hside : e₁.sideStack = e.sideStack := hex.sideStack
  exact ⟨h.follows.redecorate hy hre, hside ▸ h.filed, h.fair, h.pending, hside ▸ h.evicted⟩

/-- Every change leaves the engine as the account says, one case for each way to apply it. -/
theorem step (h : Accounted l start a (c :: rest) e) (hcovers : Covers l start)
    (hl : l.violations = []) : Ensures (applyChange c) e fun _ e' ↦
      Accounted l start (a.after start l c) rest e' := by
  have hc := h.pending.asked c (List.mem_cons_self ..)
  obtain ⟨x, hx, hnew, -⟩ := mem_changesTo.1 hc
  obtain ⟨y, hy, hidentity⟩ := h.follows.get?_of_start hx
  have hyid : y.id = c.new.id := (congrArg (·.2.1) hidentity).trans (Layout.id_of_get? hnew).symm
  have hold : c.old.id = c.new.id := CoherentOn.old_id h.follows.coherent hc
  refine ensures_applyChange hy (fun hm e₁ hre ↦ ?_) (fun hm hs c' e₁ hcap hre ↦ ?_)
    fun hm hs c' e₁ hcap hre ↦ ?_
  · obtain ⟨y₁, hex, hst⟩ := id hre
    have h₁ := h.redecorate hy hre
    have hid₁ : y₁.id = c.new.id := (congrArg Standing.id hst).trans hyid
    have ha₁ : y₁.available = true := (congrArg Standing.available hst).trans
      ((congrArg (·.2.2) hidentity).trans (hcovers.available hx))
    refine (h₁.follows.showWindow true hex.get?_self ha₁ hid₁.symm (fun _ ↦ ⟨c.new, ?_, rfl⟩)
      fun _ hk ↦ absurd hk (Set.notMem_empty _)).mono
      fun _ e₂ ⟨_, hfollows, s, hextends, hside⟩ ↦ h₁.finishes_shown hl hm hfollows hextends hside
    rw [hid₁, Layout.id_of_get? hnew, hnew]
  · obtain ⟨y₁, hex, hst⟩ := id hre
    have h₁ := h.redecorate hy hre
    have hid₁ : y₁.id = c.old.id := (congrArg Standing.id hst).trans (hyid.trans hold.symm)
    obtain ⟨hv, hi⟩ := Bool.and_eq_true _ _ ▸ changesSplit_occupies hs
    refine (h₁.follows.hideWindow hex.get?_self hid₁.symm hv hi).mono fun _ e₂
      ⟨off, e₃, hvac, hrest⟩ ↦ ?_
    rw [h₁.follows.settings] at hrest
    split at hrest
    case isTrue henabled => exact h₁.finishes_restored hcovers hcap hm hs henabled hvac hrest
    case isFalse hdisabled =>
      subst hrest
      refine h₁.finishes_still hcap hm (fun h' ↦ hdisabled ?_) hvac.follows hvac.sideStack
      exact (Bool.and_eq_true _ _ ▸ h').2
  · have h₁ := h.redecorate hy hre
    refine h₁.finishes_still hcap hm (fun h' ↦ hs ?_) (h₁.follows.mono (Set.empty_subset _)) rfl
    exact (Bool.and_eq_true _ _ ▸ h').1

end Accounted

theorem follows_foretold (hcoherent : CoherentCore e) (hcovers : Covers l e) :
    Follows l e ∅ (shownBy l []) ((e.replaceLayout l).foretold (e.changesTo l)) := by
  obtain ⟨entries, heq, hentry⟩ := foretold_replaceLayout (e := e) l (e.changesTo l)
  refine ⟨hcoherent, by rw [heq], fun k ↦ ?_, fun hy ↦ ?_, fun hy ↦ ?_, fun _ hy ↦ ?_⟩
  · rw [get?_foretold, Option.map_map]
    rfl
  all_goals
    rw [heq] at hy
    obtain ⟨x, hx, rfl⟩ := hentry.1 hy
  · exact foretoldInfo_id hcoherent hx
  · have hcontains : l.contains x.id := hcovers.contains hx
    rw [heq]
    exact hcontains
  · obtain ⟨info, hinfo⟩ := hcovers.get? hx
    rw [heq]
    refine ⟨info, info, hinfo, hinfo, (foretoldInfo_agrees hcoherent hx hinfo).1, rfl, ?_⟩
    simp [shownBy, hinfo]

theorem accounted_foretold (hcoherent : CoherentCore e) (hcovers : Covers l e)
    (hfiled : e.sideStack.Filed) :
    Accounted l e { evicted := e.sideStack, strays := [] } (e.changesTo l)
      ((e.replaceLayout l).foretold (e.changesTo l)) := by
  obtain ⟨entries, heq, -⟩ := foretold_replaceLayout (e := e) l (e.changesTo l)
  have hside : ((e.replaceLayout l).foretold (e.changesTo l)).sideStack = e.sideStack := by
    rw [heq]
  exact ⟨follows_foretold hcoherent hcovers, hside ▸ hfiled,
    ⟨fun _ h ↦ (nomatch h), fun _ h ↦ (nomatch h)⟩, ⟨fun _ hc ↦ hc, nodup_changesTo⟩,
    fun b ↦ by rw [hside]⟩

/-- Every registered window is visible, in its entry and in the layout in place, if a layout shows
it, and those that stray are just the other way round. -/
def Shown (l : Layout) (strays : List String) (start e : Engine) : Prop :=
  ∀ key x, start.entries.get? key = some x → ∃ y info stored, e.entries.get? key = some y ∧
    y.id = x.id ∧ l.get? x.id = some info ∧ e.layout.get? x.id = some stored ∧
      y.info.visible = stored.visible ∧ (stored.visible ↔ (info.visible ↔ x.id ∉ strays))

theorem shown_of_follows {strays : List String} (h : Follows l start ∅ (shownBy l strays) e₁)
    (hsame : SameWindows e₁ e) : Shown l strays start e := by
  intro key x hx
  obtain ⟨y, hy, hidentity⟩ := h.get?_of_start hx
  have hid : y.id = x.id := congrArg (·.2.1) hidentity
  obtain ⟨info, stored, hinfo, hstored, hcore, -, hv⟩ := h.berthed (Set.notMem_empty _) hy
  rw [hid] at hinfo hstored hv
  refine ⟨y, info, stored, hsame.1 ▸ hy, hid, hinfo, hsame.2 ▸ hstored,
    WindowInfo.visible_of_core hcore, ?_⟩
  rw [hv]
  simp [shownBy, hinfo]

theorem ensures_setLayout_shown (hcoherent : CoherentCore e) (hcovers : Covers l e)
    (hfiled : e.sideStack.Filed) (hl : l.violations = []) :
    Ensures (setLayout l).run e fun res e' ↦ res = .ok () ∧
      Fair l e (e.strays l) [] ∧ Shown l (e.strays l) e e' := by
  let I : List LayoutChange → Engine → Prop := fun rest e₁ ↦
    ∃ a, Accounted l e a rest e₁ ∧ (rest.foldl (Account.after e l) a).strays = e.strays l
  have hstep : ∀ c rest e₁, I (c :: rest) e₁ → Ensures (applyChange c) e₁ fun _ e₂ ↦ I rest e₂ :=
    fun c rest e₁ ⟨a, h, hstrays⟩ ↦ (h.step hcovers hl).mono fun _ e₂ h₂ ↦ ⟨_, h₂, hstrays⟩
  refine (ensures_setLayout hcovers hl hstep
    ⟨_, accounted_foretold hcoherent hcovers hfiled, rfl⟩).mono ?_
  intro res e' hq
  rcases hq with ⟨hres, e₁, ⟨a, h, hstrays⟩, hsame⟩
  rw [List.foldl_nil] at hstrays
  rw [← hstrays]
  exact ⟨hres, h.fair, shown_of_follows h.follows hsame⟩

/-- Whatever was evicted before, a layout that nothing is wrong about is not refused, and windows
that stray from it are visible where it hides them and hidden where it shows them. So all windows
are as the layout says just if nobody strays. -/
theorem shown_setLayout_iff {res : Except EngineError Unit} (hcoherent : CoherentCore e)
    (hcovers : Covers l e) (hfiled : e.sideStack.Filed) (hl : l.violations = [])
    (hrun : (setLayout l).run e = .ok res e') :
    res = .ok () ∧ Shown l (e.strays l) e e' ∧ (Shown l [] e e' ↔ e.strays l = []) := by
  obtain ⟨hres, hfair, hshown⟩ := ensures_setLayout_shown hcoherent hcovers hfiled hl hrun
  refine ⟨hres, hshown, fun hall ↦ ?_, fun hnone ↦ hnone ▸ hshown⟩
  rw [List.eq_nil_iff_forall_not_mem]
  intro id hid
  obtain ⟨key, hkey⟩ := (isRegistered_iff hcoherent).1 (hfair.registered id hid)
  obtain ⟨x, hx, rfl⟩ := Option.map_eq_some_iff.1 hkey
  obtain ⟨y, info, stored, hy, -, hinfo, hstored, -, hv⟩ := hshown key x hx
  obtain ⟨y', info', stored', hy', -, hinfo', hstored', -, hv'⟩ := hall key x hx
  cases hinfo.symm.trans hinfo'
  cases hstored.symm.trans hstored'
  rw [hv'] at hv
  simp [hid] at hv

def besideLayout : Layout :=
  .ofList [{ WindowInfo.new "A" .left with order := 0 },
    { WindowInfo.new "B" .left with visible := true, split := true, order := 1 }]

/-- The first window, which the second one evicted, comes back though the layout hides it. -/
theorem not_shown_besideLayout : ∃ e e', Session Request.Fits blank e ∧
    (setLayout besideLayout).run e = .ok (.ok ()) e' ∧ e.strays besideLayout = ["A"] ∧
      ¬ Shown besideLayout [] e e' := by
  obtain ⟨e₁, e₂, e₃, e₄, hrun₁, hknown, hrun₂, hrun₃, hrun₄, hcovers, hfiled, hstrays, haccepts⟩ :
      ∃ e₁ e₂ e₃ e₄, (Request.register (hiddenRequest "A")).run.run blank = .ok (.ok ()) e₁ ∧
        known? (hiddenRequest "B") e₁.layout = none ∧
        (Request.register (hiddenRequest "B")).run.run e₁ = .ok (.ok ()) e₂ ∧
        (Request.reveal "A").run.run e₂ = .ok (.ok ()) e₃ ∧
        (Request.reveal "B").run.run e₃ = .ok (.ok ()) e₄ ∧
        (∀ row ∈ e₄.entries.toList, besideLayout.contains row.2.id ∧ row.2.available) ∧
        (∀ a ∈ Anchor.all, ∀ w ∈ e₄.sideStack.get a, w.anchor = a) ∧
        e₄.strays besideLayout = ["A"] ∧ e₄.accepts (setLayout besideLayout) :=
    ⟨_, _, _, _, rfl, rfl, rfl, rfl, rfl, by decide +kernel, by decide +kernel, by decide +kernel,
      by decide +kernel⟩
  obtain ⟨e', hrun⟩ := exists_run_of_accepts haccepts
  have hsession : Session Request.Fits blank e₄ := by
    refine .step (.step (.step (.step .start ?_ hrun₁) ?_ hrun₂) ?_ hrun₃) ?_ hrun₄
    · exact ⟨fun _ h ↦ (nomatch h), fun _ h ↦ (nomatch h)⟩
    · exact ⟨fun _ h ↦ (nomatch hknown.symm.trans h), fun _ h ↦ (nomatch hknown.symm.trans h)⟩
    · trivial
    · trivial
  have hcoherent : CoherentCore e₄ :=
    (hsession.coherent (coherentOn_of_empty rfl)).coarsen fun _ _ _ ↦ rfl
  have hcovers : Covers besideLayout e₄ :=
    ⟨fun hx ↦ (hcovers _ (SlotTable.mem_toList.2 hx)).1,
      fun hx ↦ (hcovers _ (SlotTable.mem_toList.2 hx)).2⟩
  have hresult := shown_setLayout_iff hcoherent hcovers (fun a ↦ hfiled a a.mem_all) (by decide)
    hrun
  refine ⟨e₄, e', hsession, hrun, hstrays, fun hshown ↦ ?_⟩
  rw [hresult.2.2.1 hshown] at hstrays
  cases hstrays

theorem sameVisible_setLayout_iff {s : SideStack} {res res' : Except EngineError Unit}
    (hcoherent : CoherentCore e) (hcovers : Covers l e) (hfiled : e.sideStack.Filed)
    (hfiled' : s.Filed) (hl : l.violations = []) (hrun : (setLayout l).run e = .ok res e₁)
    (hrun' : (setLayout l).run (e.withStacks s) = .ok res' e₂) :
    (∀ key x, e.entries.get? key = some x → ∃ y z, e₁.entries.get? key = some y ∧
        e₂.entries.get? key = some z ∧ y.info.visible = z.info.visible) ↔
      ∀ id, id ∈ e.strays l ↔ id ∈ (e.withStacks s).strays l := by
  have hcoherent' : CoherentCore (e.withStacks s) := CoherentOn.congr hcoherent rfl rfl
  have hcovers' : Covers l (e.withStacks s) := ⟨hcovers.contains, hcovers.available⟩
  obtain ⟨-, hfair, hshown⟩ := ensures_setLayout_shown hcoherent hcovers hfiled hl hrun
  obtain ⟨-, hfair', hshown'⟩ := ensures_setLayout_shown hcoherent' hcovers' hfiled' hl hrun'
  have hsame : ∀ key x, e.entries.get? key = some x → ∃ y z, e₁.entries.get? key = some y ∧
      e₂.entries.get? key = some z ∧ (y.info.visible = z.info.visible ↔
        (x.id ∈ e.strays l ↔ x.id ∈ (e.withStacks s).strays l)) := by
    intro key x hx
    obtain ⟨y, info, stored, hy, -, hinfo, -, hyv, hv⟩ := hshown key x hx
    obtain ⟨z, info', stored', hz, -, hinfo', -, hzv, hv'⟩ := hshown' key x hx
    cases hinfo.symm.trans hinfo'
    refine ⟨y, z, hy, hz, ?_⟩
    rw [Bool.eq_iff_iff, hyv, hzv, hv, hv']
    grind
  constructor
  · intro hvisible id
    by_cases hreg : e.isRegistered id = true
    · obtain ⟨key, hkey⟩ := (isRegistered_iff hcoherent).1 hreg
      obtain ⟨x, hx, rfl⟩ := Option.map_eq_some_iff.1 hkey
      obtain ⟨y, z, hy, hz, hiff⟩ := hsame key x hx
      obtain ⟨y', z', hy', hz', hv⟩ := hvisible key x hx
      cases hy.symm.trans hy'
      cases hz.symm.trans hz'
      exact hiff.1 hv
    · exact iff_of_false (fun hm ↦ hreg (hfair.registered id hm))
        fun hm ↦ hreg (hfair'.registered id hm)
  · intro hstrays key x hx
    obtain ⟨y, z, hy, hz, hiff⟩ := hsame key x hx
    exact ⟨y, z, hy, hz, hiff.2 (hstrays x.id)⟩

end ToolDock.Engine

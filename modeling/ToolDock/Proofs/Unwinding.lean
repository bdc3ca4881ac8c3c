import ToolDock.Proofs.OtherAnchors
import ToolDock.Proofs.Requests

/-!
Evictions unwind. Windows that are shown one after another in one slot pile up: each one evicts the
one before. As they are hidden in turn, the ones below come back, to the first of them, whatever is
shown and hidden at other anchors meanwhile. Main statements: `Piles.reveals` and `Piles.hides`
about the two halves of a run, and `dockedAt_amid` about all of it.
-/

namespace ToolDock

/-- Whether an entry is of a window that may be shown in a slot, be evicted from it and come back
there. -/
structure Entry.Queues (slot : Slot) (x : Entry) : Prop where
  available : x.available
  slot_eq : x.info.slot = slot
  docked : x.info.windowType = .docked
  autoHide : x.info.autoHide = false

def Slot.dockedBerth (slot : Slot) : Slot × WindowType × Bool := (slot, .docked, false)

namespace Entry

variable {slot : Slot} {x x' : Entry}

theorem queues_iff : x.Queues slot ↔ x.available ∧ x.info.berth = slot.dockedBerth := by
  simp only [WindowInfo.berth, Slot.dockedBerth, Prod.mk.injEq]
  exact ⟨fun h ↦ ⟨h.available, h.slot_eq, h.docked, h.autoHide⟩,
    fun h ↦ ⟨h.1, h.2.1, h.2.2.1, h.2.2.2⟩⟩

instance : Decidable (x.Queues slot) := decidable_of_iff' _ queues_iff

theorem Queues.berth (h : x.Queues slot) : x.info.berth = slot.dockedBerth := (queues_iff.1 h).2

theorem Queues.stays (h : x.Queues slot) (hs : x.Stays x') : x'.Queues slot := by
  have havailable : x'.available = x.available := congrArg (·.2.2) hs.identity
  exact queues_iff.2 ⟨havailable.trans h.available, hs.berth.trans h.berth⟩

theorem Queues.occupiesSlot (h : x.Queues slot) (hv : x.info.visible) : x.info.occupiesSlot :=
  WindowInfo.occupiesSlot_iff.2 ⟨hv, by rw [h.docked]; rfl⟩

end Entry

namespace Engine

variable {e e' e₁ : Engine} {key k : SlotKey} {x x' y : Entry} {info stored : WindowInfo}
  {dirty : Bool} {slot : Slot} {id top w : String} {a : Anchor} {rest front : List WindowInfo}
  {allowed : Engine → Request → Prop} {requests : List Request} {request : Request}
  {chain pile below ids ws kept gone : List String}

/-- The engines that a list of requests leads to, with others made in between that are allowed
there. -/
inductive Amid (allowed : Engine → Request → Prop) : List Request → Engine → Engine → Prop
  | done {e : Engine} : Amid allowed [] e e
  | next {e e₁ e' : Engine} {request : Request} {requests : List Request}
      {result : Except EngineError Unit} : request.run.run e = .ok result e₁ →
      Amid allowed requests e₁ e' → Amid allowed (request :: requests) e e'
  | between {e e₁ e' : Engine} {request : Request} {requests : List Request}
      {result : Except EngineError Unit} : allowed e request →
      request.run.run e = .ok result e₁ → Amid allowed requests e₁ e' → Amid allowed requests e e'

/-- Showing or hiding a registered window at another anchor. -/
def IsElsewhere (a : Anchor) (e : Engine) : Request → Prop
  | .reveal id | .hide id => ∃ info, e.windowInfo? id = some info ∧ info.anchor ≠ a
  | _ => False

theorem ensures_elsewhere (h : Coherent e) (hfiled : e.sideStack.Filed)
    (hrequest : IsElsewhere a e request) :
    Ensures request.run.run e fun _ e' ↦ Coherent e' ∧ Spares a e e' := by
  cases request with
  | reveal id =>
    obtain ⟨info, hinfo, hne⟩ := hrequest
    obtain ⟨x, hx, rfl⟩ := Option.map_eq_some_iff.1 hinfo
    refine ensures_and (fun _ _ hrun ↦ coherent_run h ?_ hrun) (ensures_reveal_spares h hx hne)
    trivial
  | hide id =>
    obtain ⟨info, hinfo, hne⟩ := hrequest
    obtain ⟨x, hx, rfl⟩ := Option.map_eq_some_iff.1 hinfo
    refine ensures_and (fun _ _ hrun ↦ coherent_run h ?_ hrun) (ensures_hide_spares h hfiled hx hne)
    trivial
  | _ => exact hrequest.elim

/-- The windows keep their places and types, and their orders once they have one. -/
def StayInPlace (ids : List String) (e e' : Engine) : Prop :=
  ∀ id ∈ ids, ∃ info info', e.windowInfo? id = some info ∧ e'.windowInfo? id = some info' ∧
    info'.slot = info.slot ∧ info'.windowType = info.windowType ∧
    (info.hasOrder → info'.order = info.order)

/-- What is remembered of windows that were evicted from a slot, one placement for each. -/
def Remembers (slot : Slot) : List WindowInfo → List String → Prop :=
  List.Forall₂ fun w id ↦ w.id = id ∧ w.berth = slot.dockedBerth

/-- The windows that are piled up in a slot, the visible one first: those below it are remembered,
in that order, and all others of the chain are hidden. -/
structure Piles (slot : Slot) (chain pile : List String) (e : Engine) : Prop where
  coherent : Coherent e
  filed : e.sideStack.Filed
  enabled : e.settings.stackEnabled
  nodup : pile.Nodup
  subset : ∀ w ∈ pile, w ∈ chain
  member : ∀ w ∈ chain, ∃ k x, e.entries.get? k = some x ∧ x.name = w ∧ x.Queues slot ∧
    (x.info.visible ↔ pile.head? = some w)
  remembered : ∃ front rest, e.sideStack.get slot.anchor = front ++ rest ∧
    Remembers slot front pile.tail

theorem StayInPlace.trans {e'' : Engine} (h : StayInPlace ids e e') (h' : StayInPlace ids e' e'') :
    StayInPlace ids e e'' := by
  intro id hid
  obtain ⟨info, info₁, hinfo, hinfo₁, hslot, htype, horder⟩ := h id hid
  obtain ⟨info₁', info₂, hinfo₁', hinfo₂, hslot', htype', horder'⟩ := h' id hid
  cases hinfo₁.symm.trans hinfo₁'
  refine ⟨info, info₂, hinfo, hinfo₂, hslot'.trans hslot, htype'.trans htype, fun ho ↦ ?_⟩
  have ho₁ : info₁.hasOrder := by
    rw [WindowInfo.hasOrder, horder ho]
    exact ho
  exact (horder' ho₁).trans (horder ho)

theorem Coherent.windowInfo?_eq (h : Coherent e) (hx : e.entries.get? key = some x) :
    e.windowInfo? x.name = some x.info := by
  rw [windowInfo?, entry?, h.keyOf?_eq hx, Option.bind_some, hx, Option.map_some]

theorem Remembers.mem (h : Remembers slot front ids) (hw : stored ∈ front) : stored.id ∈ ids := by
  induction h with
  | nil => cases hw
  | cons hfirst _ ih =>
    rcases List.mem_cons.1 hw with rfl | hw
    · exact hfirst.1 ▸ List.mem_cons_self ..
    · exact List.mem_cons_of_mem _ (ih hw)

theorem Remembers.filter_eq (h : Remembers slot front ids) (hid : id ∉ ids) :
    front.filter (·.id != id) = front := by
  refine List.filter_eq_self.2 fun w hw ↦ bne_iff_ne.2 ?_
  rintro rfl
  exact hid (h.mem hw)

theorem get_remembering_of_berth (henabled : e.settings.stackEnabled)
    (hberth : info.berth = slot.dockedBerth) :
    (e.remembering info).sideStack.get slot.anchor = info :: e.sideStack.get slot.anchor := by
  simp only [WindowInfo.berth, Slot.dockedBerth, Prod.mk.injEq] at hberth
  have hpushes : (e.settings.stackEnabled && info.isDocked && !info.autoHide) = true := by
    rw [henabled, WindowInfo.isDocked, hberth.2.1, hberth.2.2]
    rfl
  rw [remembering, if_pos hpushes]
  exact SideStack.get_push.trans (if_pos (congrArg Slot.anchor hberth.1).symm)

theorem occupants_congr (he : e'.entries = e.entries) :
    e'.occupants key slot = e.occupants key slot := by
  rw [occupants, occupants, keysWhere, keysWhere, he]

theorem Coherent.ensures_restoreFrom_head (h : Coherent e) (hy : e.entries.get? k = some y)
    (ha : y.available) (hv : y.info.visible = false) (hid : stored.id = y.name)
    (hberth : stored.berth = y.info.berth) (hslot : stored.slot = slot)
    (hfree : e.occupants k slot = []) :
    Ensures (restoreFrom a slot dirty (stored :: rest)) e fun _ e' ↦
      Coherent e' ∧ Presents k y (e.withStacks (e.sideStack.set a rest)) e' := by
  subst hslot
  let popped : Engine := e.withStacks (e.sideStack.set a rest)
  have hpopped : Coherent popped := h.congr rfl rfl
  have hy₀ : popped.entries.get? k = some y := hy
  have hkey : popped.keyOf? stored.id = some k := hid ▸ h.keyOf?_eq hy
  obtain ⟨h₁, htakes, hl⟩ := hpopped.takeInfo_spares (a := a) hy₀
  have hsame := (h₁.berth_eq hl).1
  have hvis : (popped.registeredInfo k).1.visible = false :=
    (h₁.sound.visible_of_located hl).trans hv
  have hwhere : isWhereEvicted (popped.registeredInfo k).1 stored = true :=
    isWhereEvicted_iff.2 ⟨hvis, hsame.trans hberth.symm⟩
  have hslot : (popped.registeredInfo k).1.slot = stored.slot :=
    (congrArg Prod.fst hsame).trans (congrArg Prod.fst hberth).symm
  have hempty : (popped.registeredInfo k).2.occupants k (popped.registeredInfo k).1.slot = [] := by
    rw [hslot, occupants_congr entries_registeredInfo]
    exact hfree
  simp only [restoreFrom, ensures_bind, ensures_modify, ensures_ite, ensures_get]
  refine ⟨fun helse ↦ ?_, fun _ ↦ ?_⟩
  · rw [Bool.or_eq_true, bne_iff_ne, bne_iff_ne] at helse
    rcases helse with hsplit | hpane
    · exact absurd rfl hsplit
    · exact absurd rfl hpane
  have hpops : ({ e with sideStack := e.sideStack.set a rest } : Engine) = popped := rfl
  rw [hpops, hkey]
  simp only [ensures_bind, ensures_get, ensures_ite, ensures_takeInfo, ensures_pure,
    entryIs_of_get? hy₀, ha, hwhere]
  refine ⟨fun hno ↦ absurd hno Bool.false_ne_true,
    fun _ ↦ ⟨fun hno ↦ absurd hno Bool.false_ne_true, fun _ ↦ ?_⟩⟩
  refine (h₁.ensures_presents hl hv ha).mono ?_
  intro res e' hq
  rcases hq with ⟨hres, h', hpresents⟩
  rw [evictFor_of_free fun _ ↦ hempty] at hpresents
  exact ⟨fun _ ↦ ⟨h', hpresents.of_same entries_registeredInfo sideStack_registeredInfo
    settings_registeredInfo⟩, fun hno ↦ absurd hres hno⟩

namespace Piles

theorem member_of_get? (h : Piles slot chain pile e) (hx : e.entries.get? key = some x)
    (hw : x.name ∈ chain) : x.Queues slot ∧ (x.info.visible ↔ pile.head? = some x.name) := by
  obtain ⟨k, y, hy, hname, hq, hv⟩ := h.member x.name hw
  cases h.coherent.unique (standing?_of_get? hy) (standing?_of_get? hx) hname
  cases hx.symm.trans hy
  exact ⟨hq, hv⟩

theorem advance {pile' : List String} (h : Piles slot chain pile e) (hc : Coherent e')
    (hfiled : e'.sideStack.Filed) (hset : e'.settings = e.settings) (hnodup : pile'.Nodup)
    (hsubset : ∀ w ∈ pile', w ∈ chain)
    (hmember : ∀ {k x}, e.entries.get? k = some x → x.name ∈ chain → x.Queues slot →
      (x.info.visible ↔ pile.head? = some x.name) →
      ∃ x', e'.entries.get? k = some x' ∧ x.Stays x' ∧
        (x'.info.visible ↔ pile'.head? = some x.name))
    (hremembered : ∃ front rest, e'.sideStack.get slot.anchor = front ++ rest ∧
      Remembers slot front pile'.tail) :
    Piles slot chain pile' e' ∧ StayInPlace chain e e' := by
  refine ⟨⟨hc, hfiled, hset ▸ h.enabled, hnodup, hsubset, fun w hw ↦ ?_, hremembered⟩,
    fun w hw ↦ ?_⟩
  all_goals
    obtain ⟨k, x, hx, rfl, hq, hv⟩ := h.member w hw
    obtain ⟨x', hx', hstays, hv'⟩ := hmember hx hw hq hv
    have hname : x'.name = x.name := congrArg (·.1) hstays.identity
  · exact ⟨k, x', hx', hname, hq.stays hstays, hv'⟩
  · have hslot : x'.info.slot = x.info.slot := congrArg (·.1) hstays.berth
    have htype : x'.info.windowType = x.info.windowType := congrArg (·.2.1) hstays.berth
    exact ⟨x.info, x'.info, h.coherent.windowInfo?_eq hx, hname ▸ hc.windowInfo?_eq hx', hslot,
      htype, hstays.order⟩

theorem spared (h : Piles slot chain pile e) (hc : Coherent e') (hs : Spares slot.anchor e e') :
    Piles slot chain pile e' ∧ StayInPlace chain e e' := by
  refine h.advance hc (hs.filed h.filed) hs.settings h.nodup h.subset
    (fun hx _ hq hv ↦ ⟨_, hs.entries hx (congrArg Slot.anchor hq.slot_eq), .refl, hv⟩) ?_
  obtain ⟨front, rest, hget, hfront⟩ := h.remembered
  obtain ⟨p, hp, hkept⟩ := hs.sideStack
  have hall : front.filter p = front := by
    refine List.filter_eq_self.2 fun w hw ↦ ?_
    have hchain := h.subset w.id (List.mem_of_mem_tail (hfront.mem hw))
    obtain ⟨k, x, hx, hname, hq, -⟩ := h.member w.id hchain
    exact hkept w k x hx (congrArg Slot.anchor hq.slot_eq)
      ((h.coherent.id_eq (standing?_of_get? hx)).trans hname)
  exact ⟨front, rest.filter p, by rw [hp, hget, List.filter_append, hall], hfront⟩

theorem elsewhere (h : Piles slot chain pile e) (hrequest : IsElsewhere slot.anchor e request) :
    Ensures request.run.run e fun _ e' ↦ Piles slot chain pile e' ∧ StayInPlace chain e e' := by
  refine (ensures_elsewhere h.coherent h.filed hrequest).mono ?_
  intro _ e' hq
  exact h.spared hq.1 hq.2

theorem turned (h : Piles slot chain (y.name :: below) e) (hx : e.entries.get? key = some x)
    (hy : e.entries.get? k = some y) (hgoes : Turned false k y e e₁)
    (hcomes : Turned true key x e₁ e') {k' : SlotKey} {z : Entry}
    (hz : e.entries.get? k' = some z) (hv : z.info.visible ↔ some y.name = some z.name) :
    ∃ z', e'.entries.get? k' = some z' ∧ z.Stays z' ∧
      (z'.info.visible ↔ some x.name = some z.name) := by
  obtain ⟨y', hystays, hyv, hget₁⟩ := hgoes
  obtain ⟨x', hxstays, hxv, hget⟩ := hcomes
  by_cases hkey : k' = key
  · subst hkey
    cases hz.symm.trans hx
    exact ⟨x', (hget _).trans (if_pos rfl), hxstays, iff_of_true hxv rfl⟩
  have hother : ¬ some x.name = some z.name := fun heq ↦
    hkey (h.coherent.unique (standing?_of_get? hz) (standing?_of_get? hx)
      (Option.some.inj heq).symm)
  have hget' : e'.entries.get? k' = if k' = k then some y' else e.entries.get? k' := by
    rw [hget, if_neg hkey, hget₁]
  by_cases hk : k' = k
  · subst hk
    cases hz.symm.trans hy
    refine ⟨y', hget'.trans (if_pos rfl), hystays, iff_of_false ?_ hother⟩
    rw [hyv]
    exact Bool.false_ne_true
  · refine ⟨z, (hget'.trans (if_neg hk)).trans hz, .refl, iff_of_false (fun hvis ↦ hk ?_) hother⟩
    exact h.coherent.unique (standing?_of_get? hz) (standing?_of_get? hy)
      (Option.some.inj (hv.1 hvis)).symm

theorem push (h : Piles slot chain (y.name :: below) e) (hx : e.entries.get? key = some x)
    (hy : e.entries.get? k = some y) (hw : x.name ∈ chain) (hnew : x.name ∉ y.name :: below)
    (hqy : y.Queues slot) (hc : Coherent e') (hout : Ousts k y e e₁)
    (hpresents : Presents key x e₁ e') :
    Piles slot chain (x.name :: y.name :: below) e' ∧ StayInPlace chain e e' := by
  rw [List.mem_cons, not_or] at hnew
  refine h.advance hc (hpresents.filed (hout.filed h.filed))
    (hpresents.settings.trans hout.settings)
    (List.nodup_cons.2 ⟨by rwa [List.mem_cons, not_or], h.nodup⟩)
    (List.forall_mem_cons.2 ⟨hw, h.subset⟩)
    (fun hz _ _ hv ↦ h.turned hx hy hout.entries hpresents.entries hz hv) ?_
  obtain ⟨front, rest, hget, hfront⟩ := h.remembered
  obtain ⟨placed, hid, hberth, hside⟩ := hout.sideStack
  have hxid : x.id = x.name := h.coherent.id_eq (standing?_of_get? hx)
  have hyid : y.id = y.name := h.coherent.id_eq (standing?_of_get? hy)
  have hplaced : placed.berth = slot.dockedBerth := hberth.trans hqy.berth
  have hfront' : Remembers slot (placed :: front) (y.name :: below) :=
    .cons ⟨hid.trans hyid, hplaced⟩ hfront
  refine ⟨placed :: front, rest.filter (·.id != x.id), ?_, hfront'⟩
  have hpushed : e₁.sideStack.get slot.anchor = placed :: (front ++ rest) := by
    rw [hside, get_remembering_of_berth h.enabled hplaced, hget]
  have hforgets : (placed :: front).filter (·.id != x.id) = placed :: front :=
    hfront'.filter_eq (by rwa [hxid, List.mem_cons, not_or])
  have henabled : e₁.settings.stackEnabled := hout.settings ▸ h.enabled
  rw [hpresents.get_sideStack henabled, hpushed, ← List.cons_append, List.filter_append, hforgets]

theorem showWindow (h : Piles slot chain (top :: below) e) (hl : Located e key x info)
    (hw : x.name ∈ chain) (hnew : x.name ∉ top :: below) :
    Ensures (Engine.showWindow key info dirty) e fun res e' ↦ res = true ∧
      Piles slot chain (x.name :: top :: below) e' ∧ StayInPlace chain e e' := by
  obtain ⟨hq, hv⟩ := h.member_of_get? hl.entry hw
  obtain ⟨k, y, hy, rfl, hqy, hvy⟩ := h.member top (h.subset top (List.mem_cons_self ..))
  have hhidden : x.info.visible = false := by
    rw [Bool.eq_false_iff, ne_eq, hv, List.head?_cons, Option.some.injEq]
    rintro heq
    exact hnew (heq ▸ List.mem_cons_self ..)
  have hne : k ≠ key := by
    rintro rfl
    cases hl.entry.symm.trans hy
    exact hnew (List.mem_cons_self ..)
  have hberth : info.berth = slot.dockedBerth := (h.coherent.berth_eq hl).1.trans hq.berth
  have hslot : info.slot = slot := congrArg Prod.fst hberth
  have hinternal : info.windowType.isInternal := by
    rw [show info.windowType = .docked from congrArg (·.2.1) hberth]
    rfl
  have hyvis : y.info.visible = true := hvy.2 rfl
  have hocc : k ∈ e.occupants key info.slot :=
    mem_occupants.2 ⟨hne, y, hy, hqy.occupiesSlot hyvis, hqy.slot_eq.trans hslot.symm⟩
  refine (h.coherent.ensures_presents hl hhidden hq.available).mono ?_
  intro res e' hq
  rcases hq with ⟨hres, h', hpresents⟩
  rw [h.coherent.evictFor_eq hinternal hocc] at hpresents
  exact ⟨hres, h.push hl.entry hy hw hnew hqy h' (h.coherent.ousts dirty hy hyvis) hpresents⟩

theorem reveal (h : Piles slot chain (top :: below) e) (hw : w ∈ chain) (hnew : w ∉ top :: below) :
    Ensures (Engine.reveal w).run e fun _ e' ↦
      Piles slot chain (w :: top :: below) e' ∧ StayInPlace chain e e' := by
  obtain ⟨key, x, hx, rfl, hq, hv⟩ := h.member w hw
  have hkey : e.keyOf? x.name = some key := h.coherent.keyOf?_eq hx
  simp only [Engine.reveal, ensures_keyOf_bind, ensures_run_get_bind, ensures_run_ite,
    ensures_run_pure, ensures_run_lift_bind, ensures_run_modify, ensures_takeInfo]
  refine ⟨fun k' hk' ↦ ?_, fun hnone ↦ by cases hnone.symm.trans hkey⟩
  cases hkey.symm.trans hk'
  rw [entryIs_of_get? hx]
  refine ⟨fun hvis ↦ ?_, fun _ ↦ ?_⟩
  · have heq : top = x.name := Option.some.inj (hv.1 hvis)
    exact absurd (heq ▸ List.mem_cons_self ..) hnew
  obtain ⟨h₁, htakes, hl⟩ := h.coherent.takeInfo_spares (a := slot.anchor) hx
  obtain ⟨hpiles, hkeeps⟩ := h.spared h₁ htakes
  refine (hpiles.showWindow hl hw hnew).mono ?_
  intro res e' hq
  rcases hq with ⟨hres, hpiles', hkeeps'⟩
  refine ⟨fun _ ↦ ?_, fun hno ↦ absurd hres hno⟩
  have hfired : Coherent (e'.fire .showToolWindow x.name) := hpiles'.coherent.congr rfl rfl
  obtain ⟨hpiles'', hkeeps''⟩ := hpiles'.spared hfired (.of_same rfl rfl rfl)
  exact ⟨hpiles'', (hkeeps.trans hkeeps').trans hkeeps''⟩

theorem newest (h : Piles slot chain (top :: w :: below) e) : ∃ stored front rest,
    e.sideStack.get slot.anchor = stored :: (front ++ rest) ∧ stored.id = w ∧
      stored.berth = slot.dockedBerth ∧ Remembers slot front below := by
  obtain ⟨_, rest, hget, hfront⟩ := h.remembered
  cases hfront with
  | cons hstored hfront => exact ⟨_, _, rest, hget, hstored.1, hstored.2, hfront⟩

theorem pop (h : Piles slot chain (x.name :: y.name :: below) e)
    (hx : e.entries.get? key = some x) (hy : e.entries.get? k = some y) (hc : Coherent e')
    (hgoes : Turned false key x e e₁) (hside : e₁.sideStack = e.sideStack)
    (hset : e₁.settings = e.settings)
    (hget : e.sideStack.get slot.anchor = stored :: (front ++ rest))
    (hfront : Remembers slot front below)
    (hpresents : Presents k y (e₁.withStacks (e₁.sideStack.set slot.anchor (front ++ rest))) e') :
    Piles slot chain (y.name :: below) e' ∧ StayInPlace chain e e' := by
  have hnodup : (y.name :: below).Nodup := h.nodup.of_cons
  have hstored : ∀ w ∈ front ++ rest, w.anchor = slot.anchor := fun w hw ↦
    h.filed slot.anchor w (hget ▸ List.mem_cons_of_mem _ hw)
  refine h.advance hc (hpresents.filed (hside ▸ h.filed.set hstored))
    (hpresents.settings.trans hset) hnodup (fun w hw ↦ h.subset w (List.mem_cons_of_mem _ hw))
    (fun hz _ _ hv ↦ h.turned hy hx hgoes hpresents.entries hz hv)
    ⟨front, rest.filter (·.id != y.id), ?_, hfront⟩
  have hyid : y.id = y.name := h.coherent.id_eq (standing?_of_get? hy)
  have hforgets : front.filter (·.id != y.id) = front :=
    hfront.filter_eq (hyid ▸ hnodup.notMem)
  have henabled : e₁.settings.stackEnabled := hset ▸ h.enabled
  have hpopped : (e₁.withStacks (e₁.sideStack.set slot.anchor (front ++ rest))).sideStack.get
      slot.anchor = front ++ rest :=
    (PerAnchor.get_set ..).trans (if_pos rfl)
  rw [hpresents.get_sideStack henabled, hpopped, List.filter_append, hforgets]

theorem hideWindow (h : Piles slot chain (x.name :: w :: below) e) (hl : Located e key x info) :
    Ensures (Engine.hideWindow key info dirty false .none) e fun _ e' ↦
      Piles slot chain (w :: below) e' ∧ StayInPlace chain e e' := by
  obtain ⟨hq, hv⟩ := h.member_of_get? hl.entry (h.subset x.name (List.mem_cons_self ..))
  obtain ⟨k, y, hy, rfl, hqy, hvy⟩ :=
    h.member w (h.subset w (List.mem_cons_of_mem _ (List.mem_cons_self ..)))
  have hname : x.name ≠ y.name := List.ne_of_not_mem_cons h.nodup.notMem
  have hne : k ≠ key := by
    rintro rfl
    cases hl.entry.symm.trans hy
    exact hname rfl
  have hyhidden : y.info.visible = false := by
    rw [Bool.eq_false_iff, ne_eq, hvy, List.head?_cons, Option.some.injEq]
    exact hname
  obtain ⟨off, x', hoff, hberth, hstays, hx'v, hex⟩ :=
    stays_hidden dirty hl.entry (h.coherent.berth_eq hl)
  have hgoes : Turned false key x e (e.hidden key info dirty .none) :=
    ⟨x', hstays, hx'v, hex.get?⟩
  have hslot : off.slot = slot := congrArg Prod.fst (hberth.trans hq.berth)
  have hclear : e.clearFor key info dirty false = e := rfl
  refine ensures_hideWindow hclear hoff (fun _ ↦ ?_) fun hno ↦ absurd ?_ hno
  · obtain ⟨stored, front, rest, hget, hid, hstored, hfront⟩ := h.newest
    have hfree := h.coherent.occupants_of_turned (k := k) hl.entry
      (hq.occupiesSlot (hv.2 rfl)) hgoes
    rw [hq.slot_eq] at hfree
    simp only [restoreEvicted, ensures_bind, ensures_get]
    rw [show off.anchor = slot.anchor from congrArg Slot.anchor hslot, hex.sideStack, hget, hslot]
    refine ((h.coherent.hidden dirty hl).ensures_restoreFrom_head ((hex.get?_other hne).trans hy)
      hqy.available hyhidden hid (hstored.trans hqy.berth.symm) (congrArg Prod.fst hstored)
      hfree).mono ?_
    intro _ e' hq
    rcases hq with ⟨h', hpresents⟩
    exact h.pop hl.entry hy h' hgoes hex.sideStack hex.settings hget hfront hpresents
  · rw [bringsBack, h.coherent.sound.visible_of_located hl, hv.2 rfl, hex.settings,
      h.enabled, show off.windowType = .docked from congrArg (·.2.1) (hberth.trans hq.berth)]
    rfl

theorem hide (h : Piles slot chain (top :: w :: below) e) :
    Ensures (Engine.hide top).run e fun _ e' ↦
      Piles slot chain (w :: below) e' ∧ StayInPlace chain e e' := by
  obtain ⟨key, x, hx, rfl, hq, hv⟩ := h.member top (h.subset top (List.mem_cons_self ..))
  obtain ⟨h₁, htakes, hl⟩ := h.coherent.takeInfo_spares (a := slot.anchor) hx
  obtain ⟨hpiles, hkeeps⟩ := h.spared h₁ htakes
  have hvis : (e.registeredInfo key).1.visible = true :=
    (h₁.sound.visible_of_located hl).trans (hv.2 rfl)
  refine ensures_hide (h.coherent.keyOf?_eq hx) (fun hno ↦ by cases hno.symm.trans hvis) fun _ ↦ ?_
  refine (hpiles.hideWindow hl).mono ?_
  intro _ e' hq e'' he hlayout hside hset
  rcases hq with ⟨hpiles', hkeeps'⟩
  have hstanding : e''.standing? = e'.standing? := funext fun k ↦ by rw [standing?, standing?, he]
  have h'' : Coherent e'' :=
    hpiles'.coherent.congr hstanding (congrArg Layout.windows hlayout)
  obtain ⟨hpiles'', hkeeps''⟩ := hpiles'.spared h'' (.of_same he hside hset)
  exact ⟨hpiles'', (hkeeps.trans hkeeps').trans hkeeps''⟩

theorem reveals (h : Piles slot chain (top :: below) e)
    (hnodup : (ws.reverse ++ top :: below).Nodup) (hws : ∀ w ∈ ws, w ∈ chain)
    (hrun : Amid (IsElsewhere slot.anchor) (ws.map .reveal) e e') :
    Piles slot chain (ws.reverse ++ top :: below) e' ∧ StayInPlace chain e e' := by
  generalize hrequests : ws.map Request.reveal = requests at hrun
  induction hrun generalizing ws top below with
  | done =>
    rw [List.map_eq_nil_iff.1 hrequests]
    exact h.spared h.coherent .refl
  | next hstep _ ih =>
    obtain ⟨w, ws, rfl, rfl, hrest⟩ := List.map_eq_cons_iff.1 hrequests
    rw [List.reverse_cons, List.append_assoc, List.singleton_append] at hnodup ⊢
    have hnew : w ∉ top :: below := (List.nodup_append.1 hnodup).2.1.notMem
    rw [List.forall_mem_cons] at hws
    obtain ⟨hpiles, hkeeps⟩ := h.reveal hws.1 hnew hstep
    obtain ⟨hpiles', hkeeps'⟩ := ih hpiles hnodup hws.2 hrest
    exact ⟨hpiles', hkeeps.trans hkeeps'⟩
  | between hallowed hstep _ ih =>
    obtain ⟨hpiles, hkeeps⟩ := h.elsewhere hallowed hstep
    obtain ⟨hpiles', hkeeps'⟩ := ih hpiles hnodup hws hrequests
    exact ⟨hpiles', hkeeps.trans hkeeps'⟩

theorem hides {gone : List String} (h : Piles slot chain (gone ++ top :: below) e)
    (hrun : Amid (IsElsewhere slot.anchor) (gone.map .hide) e e') :
    Piles slot chain (top :: below) e' ∧ StayInPlace chain e e' := by
  generalize hrequests : gone.map Request.hide = requests at hrun
  induction hrun generalizing gone with
  | done =>
    rw [List.map_eq_nil_iff.1 hrequests] at h
    exact h.spared h.coherent .refl
  | next hstep _ ih =>
    obtain ⟨w, gone, rfl, rfl, hrest⟩ := List.map_eq_cons_iff.1 hrequests
    obtain ⟨next, below', hnext⟩ : ∃ next below', gone ++ top :: below = next :: below' :=
      List.exists_cons_of_ne_nil (by simp)
    rw [List.cons_append, hnext] at h
    obtain ⟨hpiles, hkeeps⟩ := h.hide hstep
    obtain ⟨hpiles', hkeeps'⟩ := ih (hnext ▸ hpiles) hrest
    exact ⟨hpiles', hkeeps.trans hkeeps'⟩
  | between hallowed hstep _ ih =>
    obtain ⟨hpiles, hkeeps⟩ := h.elsewhere hallowed hstep
    obtain ⟨hpiles', hkeeps'⟩ := ih hpiles hrequests
    exact ⟨hpiles', hkeeps.trans hkeeps'⟩

theorem dockedAt_eq (h : Piles slot chain (top :: below) e) : e.dockedAt slot = [top] := by
  obtain ⟨k, x, hx, rfl, hq, hv⟩ := h.member top (h.subset top (List.mem_cons_self ..))
  have hid : x.id = x.name := h.coherent.id_eq (standing?_of_get? hx)
  rw [← hq.slot_eq, h.coherent.dockedAt_eq hx (hq.occupiesSlot (hv.2 rfl)), hid]

theorem isVisible_iff (h : Piles slot chain (top :: below) e) (hw : w ∈ chain) :
    e.isVisible w ↔ w = top := by
  obtain ⟨k, x, hx, rfl, hq, hv⟩ := h.member w hw
  rw [isVisible, h.coherent.windowInfo?_eq hx, Option.any_some, hv, List.head?_cons,
    Option.some.injEq, eq_comm]

end Piles

/-- Windows that may be in a slot, the first of which is. -/
structure Queued (slot : Slot) (w₀ : String) (ws : List String) (e : Engine) : Prop where
  nodup : (w₀ :: ws).Nodup
  entry : ∀ w ∈ w₀ :: ws, ∃ x, e.entry? w = some x ∧ x.Queues slot ∧ (x.info.visible ↔ w = w₀)

theorem queued_iff {w₀ : String} : Queued slot w₀ ws e ↔ (w₀ :: ws).Nodup ∧ ∀ w ∈ w₀ :: ws,
    (e.entry? w).any fun x ↦ x.Queues slot ∧ (x.info.visible ↔ w = w₀) := by
  simp only [Option.any_eq_true, decide_eq_true_eq]
  exact ⟨fun h ↦ ⟨h.nodup, h.entry⟩, fun h ↦ ⟨h.1, h.2⟩⟩

instance {w₀ : String} : Decidable (Queued slot w₀ ws e) := decidable_of_iff' _ queued_iff

theorem Queued.piles {w₀ : String} (h : Queued slot w₀ ws e) (hc : Coherent e)
    (hfiled : e.sideStack.Filed) (henabled : e.settings.stackEnabled) :
    Piles slot (w₀ :: ws) [w₀] e := by
  refine ⟨hc, hfiled, henabled, List.nodup_singleton w₀, fun w hw ↦ ?_, fun w hw ↦ ?_,
    [], _, rfl, .nil⟩
  · rw [List.mem_singleton.1 hw]
    exact List.mem_cons_self ..
  · obtain ⟨x, hx, hq, hv⟩ := h.entry w hw
    obtain ⟨k, hkey, hx⟩ := Option.bind_eq_some_iff.1 hx
    obtain ⟨y, hy, hname⟩ := get?_of_keyOf? hkey
    cases hx.symm.trans hy
    refine ⟨k, x, hx, hname, hq, hv.trans ?_⟩
    rw [List.head?_cons, Option.some.injEq, eq_comm]

/-- After windows were shown one after another in one slot, the last one is in it. As they are then
hidden in turn, each leaves the slot to the one shown before it, where that one was, whatever is
shown and hidden at other anchors in between. Nothing is asked of what was evicted before, except
that it is where a push puts it. -/
theorem dockedAt_amid {w₀ : String} (hc : Coherent e) (hfiled : e.sideStack.Filed)
    (henabled : e.settings.stackEnabled) (hqueued : Queued slot w₀ (kept ++ gone) e)
    (hshown : Amid (IsElsewhere slot.anchor) ((kept ++ gone).map .reveal) e e₁)
    (hhidden : Amid (IsElsewhere slot.anchor) (gone.reverse.map .hide) e₁ e') :
    Coherent e' ∧ e'.dockedAt slot = [kept.getLastD w₀] ∧
      (∀ w ∈ w₀ :: (kept ++ gone), e'.isVisible w ↔ w = kept.getLastD w₀) ∧
      StayInPlace (w₀ :: (kept ++ gone)) e e₁ ∧ StayInPlace (w₀ :: (kept ++ gone)) e₁ e' := by
  have hnodup : ((kept ++ gone).reverse ++ [w₀]).Nodup := by
    rw [← List.reverse_cons, List.nodup_reverse]
    exact hqueued.nodup
  obtain ⟨hpiles, hkeeps⟩ := (hqueued.piles hc hfiled henabled).reveals hnodup
    (fun w hw ↦ List.mem_cons_of_mem _ hw) hshown
  -- the windows that stay are piled up in the order in which they were shown
  obtain ⟨below, hbelow⟩ : ∃ below, kept.reverse ++ [w₀] = kept.getLastD w₀ :: below := by
    rcases List.eq_nil_or_concat kept with rfl | ⟨kept, w, rfl⟩
    · exact ⟨[], rfl⟩
    · refine ⟨kept.reverse ++ [w₀], ?_⟩
      rw [List.concat_eq_append, List.reverse_concat, List.getLastD_concat]
      rfl
  rw [List.reverse_append, List.append_assoc, hbelow] at hpiles
  obtain ⟨hpiles', hkeeps'⟩ := hpiles.hides hhidden
  exact ⟨hpiles'.coherent, hpiles'.dockedAt_eq, fun _ ↦ hpiles'.isVisible_iff, hkeeps, hkeeps'⟩

def rightRequest : RegisterRequest := { hiddenRequest "C" with anchor := .right }

/-- One of two windows on the left comes and goes; meanwhile another one comes on the right. -/
theorem dockedAt_amid_rightRequest : ∃ e e₁ e', Session Request.Fits blank e ∧
    Amid (IsElsewhere .left) [.reveal "B"] e e₁ ∧ Amid (IsElsewhere .left) [.hide "B"] e₁ e' ∧
      e'.dockedAt ⟨defaultPane, .left, false⟩ = ["A"] ∧ e'.isVisible "B" = false := by
  let slot : Slot := ⟨defaultPane, .left, false⟩
  have hleads : blank.registersTo (hiddenRequest "A") (·.registersTo (hiddenRequest "B")
      (·.registersTo rightRequest (·.leadsTo (reveal "A") fun e ↦ e.settings.stackEnabled &&
        e.sideStack.Filed && Queued slot "A" ([] ++ ["B"]) e &&
          e.leadsTo (reveal "B") fun e₁ ↦ (e₁.windowInfo? "C").any (·.anchor ≠ .left) &&
            e₁.leadsTo (reveal "C") (·.leadsTo (hide "B") fun _ ↦ true)))) := by
    decide +kernel
  obtain ⟨e₁, hs₁, hleads⟩ := exists_session_of_registersTo .start hleads
  obtain ⟨e₂, hs₂, hleads⟩ := exists_session_of_registersTo hs₁ hleads
  obtain ⟨e₃, hs₃, hleads⟩ := exists_session_of_registersTo hs₂ hleads
  obtain ⟨e, hrun, hleads⟩ := exists_run_of_leadsTo hleads
  have hrun : (Request.reveal "A").run.run e₃ = .ok (.ok ()) e := hrun
  have hsession : Session Request.Fits blank e := by
    refine hs₃.step ?_ hrun
    trivial
  simp only [Bool.and_eq_true, decide_eq_true_eq] at hleads
  obtain ⟨⟨⟨henabled, hfiled⟩, hqueued⟩, hleads⟩ := hleads
  obtain ⟨e₁, hrun₁, hleads⟩ := exists_run_of_leadsTo hleads
  simp only [Bool.and_eq_true, decide_eq_true_eq, Option.any_eq_true] at hleads
  obtain ⟨helse, hleads⟩ := hleads
  obtain ⟨e₂, hrun₂, hleads⟩ := exists_run_of_leadsTo hleads
  obtain ⟨e', hrun₃, -⟩ := exists_run_of_leadsTo hleads
  have hright : IsElsewhere .left e₁ (.reveal "C") := helse
  have hshown : Amid (IsElsewhere .left) [.reveal "B"] e e₂ :=
    .next hrun₁ (.between hright hrun₂ .done)
  have hhidden : Amid (IsElsewhere .left) [.hide "B"] e₂ e' := .next hrun₃ .done
  obtain ⟨-, hdocked, hvisible, -⟩ := dockedAt_amid (hsession.coherent (coherentOn_of_empty rfl))
    hfiled henabled hqueued hshown hhidden
  have hgone : e'.isVisible "B" = false :=
    Bool.eq_false_iff.2 fun hv ↦ absurd ((hvisible "B" (by decide)).1 hv) (by decide)
  exact ⟨e, e₂, e', hsession, hshown, hhidden, hdocked, hgone⟩

end Engine

end ToolDock

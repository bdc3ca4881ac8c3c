import ToolDock.Proofs.Dressing
import ToolDock.Proofs.Requests

/-!
Without anything to bring back, a new layout is installed exactly. Whatever a change does to a
placement in between, it ends in storing the one asked for, with what the host had for an external
window that it closes, and it touches no window but its own: no slot that a window goes to is taken,
and no slot that one leaves was taken from another. Main statement: `installed_setLayout`.
-/

namespace ToolDock

namespace Engine

variable {key k : SlotKey} {x x' : Entry} {l l' : Layout} {e e' e'' start : Engine}
  {info : WindowInfo} {id : String} {c c' : LayoutChange} {rest : List LayoutChange}

def Rewrites (key : SlotKey) (x : Entry) (id : String) (e e' : Engine) : Prop :=
  ∃ x' l', Exchanged False key x x' l' e e' ∧ x'.identity = x.identity ∧
    ∀ info : WindowInfo, info.id = id → l'.put info = e.layout.put info

namespace Rewrites

theorem trans (h : Rewrites key x id e e')
    (h' : ∀ x', e'.entries.get? key = some x' → x'.identity = x.identity →
      Rewrites key x' id e' e'') : Rewrites key x id e e'' := by
  obtain ⟨x', l', hex, hid, hput⟩ := h
  obtain ⟨x'', l'', hex', hid', hput'⟩ := h' x' hex.get?_self hid
  refine ⟨x'', l'', hex.trans hex', hid'.trans hid, fun info hinfo ↦ ?_⟩
  rw [hput' info hinfo, hex.layout, hput info hinfo]

theorem of_redecorates (h : Redecorates key x e e') : Rewrites key x id e e' := by
  obtain ⟨x', hex, hst⟩ := h
  exact ⟨x', e.layout, hex, Entry.identity_of_standing hst, fun _ _ ↦ rfl⟩

theorem commit (h : Rewrites key x info.id e e') :
    ∃ x', Exchanged False key x x' (e.layout.put info) e (e'.commit key info) ∧
      x'.identity = x.identity ∧ x'.info = info := by
  obtain ⟨x', l', hex, hid, hput⟩ := h
  have hcommit := exchanged_commit (D := False) info hex.get?_self (nomatch ·)
  rw [hex.layout, hput info rfl] at hcommit
  exact ⟨_, hex.trans hcommit, hid, rfl⟩

end Rewrites

theorem Dresses.rewrites {w w' : Option WindowInfo} {ops : List HostOp}
    (h : Dresses key x x' id w w' ops e e') (hempty : e.sideStack = .empty) :
    Rewrites key x id e e' := by
  refine ⟨x', e'.layout, ⟨h.get?, rfl, (nomatch ·), h.foreign, h.desktop, h.settings, ?_⟩,
    h.identity, h.put⟩
  refine PerAnchor.ext_get fun anchor ↦ ?_
  have hnone : e.sideStack.get anchor = [] := by
    rw [hempty]
    exact SideStack.get_empty
  rw [h.sideStack anchor hnone, hnone]

theorem ensures_showWindow_alone (hx : e.entries.get? key = some x) (ha : x.available)
    (hempty : e.sideStack = .empty)
    (hnone : info.windowType.isInternal → e.occupants key info.slot = []) :
    Ensures (showWindow key info true) e fun _ e' ↦ Rewrites key x info.id e e' :=
  (ensures_showWindow_dresses hx ha hnone).mono fun _ _ ⟨_, h⟩ ↦ h.rewrites hempty

theorem ensures_hideWindow_alone (hx : e.entries.get? key = some x)
    (hempty : e.sideStack = .empty) :
    Ensures (hideWindow key info true false .none) e fun _ e' ↦ Rewrites key x info.id e e' := by
  have hvacant : e.Vacant info.anchor := fun _ ↦ by
    rw [hempty]
    exact SideStack.get_empty
  exact (ensures_hideWindow_dresses (w := none) hx hvacant).mono
    fun _ _ ⟨_, h⟩ ↦ h.rewrites hempty

def ShowsAlone (e : Engine) (key : SlotKey) (x : Entry) (kind : ExternalKind)
    (w : ExternalWindow) : Prop :=
  ∃ a, x.ShowsIn kind a ∧ e.host.external? a = some w ∧
    ∀ k y, e.entries.get? k = some y → y.holds a → k = key

theorem DecoratedOn.exists_showsAlone {s : Set SlotKey} (hd : DecoratedOn s e)
    (hx : e.entries.get? key = some x) (hext : x.external?.isSome) :
    ∃ kind w, e.ShowsAlone key x kind w := by
  have halone : ∀ kind a, x.ShowsIn kind a → ∃ kind w, e.ShowsAlone key x kind w := by
    intro kind a ha
    have hopen := (hd.isServed hx).1 a ha.holds
    rw [Host.isOpen_eq_isSome] at hopen
    obtain ⟨w, hw⟩ := Option.isSome_iff_exists.1 hopen
    exact ⟨kind, w, a, ha, hw, fun k y hy hya ↦ hd.externals.unique hy hx hya ha.holds⟩
  cases hf : x.floating with
  | some a => exact halone .floating a hf
  | none =>
    rw [Entry.external?, hf, Option.or_none] at hext
    obtain ⟨a, ha⟩ := Option.isSome_iff_exists.1 hext
    exact halone .windowed a ⟨hf, ha⟩

def IsClosedBy (x : Entry) (info : WindowInfo) : Prop :=
  x.info.visible ∧ x.external?.isSome ∧ info.visible = false

/-- What becomes of a placement that a layout asks for. It is stored as it is, but if it takes an
external window off the screen, it gets the bounds and the flags that the host had for that one. -/
inductive Installs (start : Engine) (info : WindowInfo) : WindowInfo → Prop
  | asked (hstays : ∀ key x, start.entries.get? key = some x → x.id = info.id →
      ¬ IsClosedBy x info) : Installs start info info
  | captured {key : SlotKey} {x : Entry} {stored : WindowInfo}
    (hx : start.entries.get? key = some x) (hid : x.id = info.id) (hcloses : IsClosedBy x info)
    (hsaved : ∃ saved, stored = info.withState saved)
    (hstate : ∀ kind w, start.ShowsAlone key x kind w → stored = info.capturing kind w) :
    Installs start info stored

theorem Installs.core_eq {stored : WindowInfo} (h : Installs start info stored) :
    stored.core = info.core ∧ stored.order = info.order := by
  cases h with
  | asked => exact ⟨rfl, rfl⟩
  | captured _ _ _ hsaved =>
    obtain ⟨saved, rfl⟩ := hsaved
    exact ⟨rfl, rfl⟩

/-- Halfway through the changes the layout is in place, and entries agree with it; the windows still
to change are placed as asked, and have the external windows that they had at first. -/
structure Installing (l : Layout) (start : Engine) (rest : List LayoutChange) (e : Engine) :
    Prop where
  sideStack : e.sideStack = .empty
  ids : e.layout.ids = l.ids
  unified : e.layout.unified = l.unified
  placement : ∀ {id info}, l.get? id = some info → ∃ stored, e.layout.get? id = some stored ∧
    ((stored = info ∧ ∃ c ∈ rest, c.new = info) ∨ Installs start info stored)
  entry : ∀ {key x}, start.entries.get? key = some x → ∃ y info, e.entries.get? key = some y ∧
    y.identity = x.identity ∧ l.get? x.id = some info ∧ y.info.core = info.core ∧
      y.info.order = info.order
  registered : ∀ {key y}, e.entries.get? key = some y → ∃ x, start.entries.get? key = some x
  pending : ∀ c ∈ rest, c ∈ start.changesTo l
  distinct : rest.Pairwise fun c d ↦ c.key ≠ d.key
  external : ∀ c ∈ rest, ∀ x y, start.entries.get? c.key = some x →
    e.entries.get? c.key = some y → y.floating = x.floating ∧ y.windowed = x.windowed
  hosted : ∀ c ∈ rest, ∀ a w, start.host.external? a = some w →
    (∀ k y, start.entries.get? k = some y → y.holds a → k = c.key) → e.host.external? a = some w

namespace Installing

variable {y y' : Entry}

theorem installs (h : Installing l start (c :: rest) e) (hcoherent : CoherentOn Prod.fst ∅ start)
    (hy : e.entries.get? c.key = some y) (hcap : Captures e.host y c c') :
    Installs start c.new c'.new := by
  obtain ⟨x, hx, hnew, hold, -⟩ := mem_changesTo.1 (h.pending c (List.mem_cons_self ..))
  obtain ⟨hfloating, hwindowed⟩ := h.external c (List.mem_cons_self ..) x y hx hy
  have hext : y.external? = x.external? := by
    rw [Entry.external?, hfloating, hwindowed, Entry.external?]
  have hid : x.id = c.new.id := (Layout.id_of_get? hnew).symm
  have hvisible : x.info.visible = c.old.visible := by
    rw [hold]
    exact WindowInfo.visible_of_core (hcoherent.oldInfo hx).1
  by_cases hcloses : IsClosedBy x c.new
  · refine .captured hx hid hcloses hcap.new fun kind w halone ↦ ?_
    obtain ⟨a, ha, hw, honly⟩ := halone
    have hya : y.ShowsIn kind a := by
      unfold Entry.ShowsIn at ha ⊢
      rwa [hfloating, hwindowed]
    exact hcap.captured (hvisible ▸ hcloses.1) hcloses.2.2 kind a w hya
      (h.hosted c (List.mem_cons_self ..) a w hw honly)
  · rw [hcap.exact fun hcaptures ↦ hcloses ?_]
    · refine .asked fun k z hz hzid ↦ ?_
      cases hcoherent.key_eq hz hx (hzid.trans hid.symm)
      cases hx.symm.trans hz
      exact hcloses
    · rw [← hvisible, hext] at hcaptures
      exact ⟨hcaptures.1, hcaptures.2.2, hcaptures.2.1⟩

theorem placement_put (h : Installing l start (c :: rest) e) (hnew : l.get? id = some c.new)
    {placed : WindowInfo} (hid : placed.id = id) (hinst : Installs start c.new placed)
    {i : String} {info : WindowInfo} (hget : l.get? i = some info) :
    ∃ stored, (e.layout.put placed).get? i = some stored ∧
      ((stored = info ∧ ∃ d ∈ rest, d.new = info) ∨ Installs start info stored) := by
  rw [Layout.get?_put]
  split
  case isTrue heq =>
    have hsame : info = c.new := by
      rw [heq, hid, hnew] at hget
      exact (Option.some.inj hget).symm
    exact ⟨placed, rfl, Or.inr (hsame ▸ hinst)⟩
  case isFalse hne =>
    obtain ⟨stored, hstored, ⟨rfl, d, hd, rfl⟩ | hinst⟩ := h.placement hget
    · refine ⟨d.new, hstored, Or.inl ⟨rfl, d, (List.mem_cons.1 hd).resolve_left ?_, rfl⟩⟩
      rintro rfl
      exact hne (((Layout.id_of_get? hget).symm.trans (Layout.id_of_get? hnew)).trans hid.symm)
    · exact ⟨stored, hstored, Or.inr hinst⟩

theorem exchange (h : Installing l start (c :: rest) e) (hcoherent : CoherentOn Prod.fst ∅ start)
    (hy : e.entries.get? c.key = some y) (hcap : Captures e.host y c c')
    (hex : Exchanged False c.key y y' (e.layout.put c'.new) e e')
    (hidentity : y'.identity = y.identity) (hinfo : y'.info = c'.new) :
    Installing l start rest e' := by
  obtain ⟨x, hx, hnew, -⟩ := mem_changesTo.1 (h.pending c (List.mem_cons_self ..))
  obtain ⟨y₀, info, hy₀, hsame, hplace, -⟩ := h.entry hx
  cases hy.symm.trans hy₀
  cases hnew.symm.trans hplace
  have hinstalls := h.installs hcoherent hy hcap
  obtain ⟨saved, hsaved⟩ := hcap.new
  have hid : c'.new.id = x.id := by
    rw [hsaved, WindowInfo.id_withState]
    exact Layout.id_of_get? hnew
  obtain ⟨hhead, hdistinct⟩ := List.pairwise_cons.1 h.distinct
  refine ⟨hex.sideStack.trans h.sideStack, ?_, ?_, fun {id info} hget ↦ ?_, fun {k z} hz ↦ ?_,
    fun {k z} hz ↦ ?_, fun d hd ↦ h.pending d (List.mem_cons_of_mem _ hd), hdistinct,
    fun d hd x' z hx' hz ↦ ?_, fun d hd a w hw honly ↦ ?_⟩
  · obtain ⟨stored, hstored, -⟩ := h.placement hnew
    rw [hex.layout, Layout.ids_put, if_pos (hid ▸ Layout.contains_of_get? hstored), h.ids]
  · rw [hex.layout, Layout.unified_put, h.unified]
  · exact hex.layout ▸ h.placement_put hnew hid hinstalls hget
  · obtain ⟨w, info, hw, hwid, hwinfo, hcore, horder⟩ := h.entry hz
    rw [hex.get?]
    split
    case isTrue hk =>
      subst hk
      cases hy.symm.trans hw
      cases hx.symm.trans hz
      cases hnew.symm.trans hwinfo
      obtain ⟨hc, ho⟩ := hinstalls.core_eq
      exact ⟨y', c.new, rfl, hidentity.trans hwid, hnew, hinfo ▸ hc, hinfo ▸ ho⟩
    case isFalse => exact ⟨w, info, hw, hwid, hwinfo, hcore, horder⟩
  · rw [hex.get?] at hz
    split at hz
    case isTrue hk => exact ⟨x, hk ▸ hx⟩
    case isFalse => exact h.registered hz
  · rw [hex.get?_other (hhead d hd).symm] at hz
    exact h.external d (List.mem_cons_of_mem _ hd) x' z hx' hz
  · -- the window of another entry stays, as this entry does not hold it
    have hkept := h.hosted d (List.mem_cons_of_mem _ hd) a w hw honly
    refine (hex.foreign a w hkept fun hya ↦ hhead d hd (honly c.key x hx ?_)).1
    obtain ⟨hfloating, hwindowed⟩ := h.external c (List.mem_cons_self ..) x y hx hy
    rwa [Entry.holds, hfloating, hwindowed] at hya

theorem occupants_eq_nil (h : Installing l start (c :: rest) e)
    (hcoherent : CoherentOn Prod.fst ∅ start) (hl : l.violations = [])
    (ho : c.new.occupiesSlot) (hothers : ∀ k, k ≠ c.key → e'.entries.get? k = e.entries.get? k) :
    e'.occupants c.key c.new.slot = [] := by
  obtain ⟨x, hx, hnew, -⟩ := mem_changesTo.1 (h.pending c (List.mem_cons_self ..))
  refine occupants_eq_nil_iff.2 fun k z hne hz hoz hslot ↦ ?_
  rw [hothers k hne] at hz
  obtain ⟨x', hx'⟩ := h.registered hz
  obtain ⟨z', info, hz', -, hinfo, hcore, -⟩ := h.entry hx'
  cases hz.symm.trans hz'
  exact hne (hcoherent.key_eq_of_slot hl hx' hx hinfo hnew
    ((WindowInfo.occupiesSlot_of_core hcore).symm.trans hoz) ho
    ((WindowInfo.slot_of_core hcore).symm.trans hslot))

theorem step (h : Installing l start (c :: rest) e) (hcovers : Covers l start)
    (hcoherent : CoherentOn Prod.fst ∅ start) (hl : l.violations = []) :
    Ensures (applyChange c) e fun _ e' ↦ Installing l start rest e' := by
  obtain ⟨x, hx, hnew, -⟩ := mem_changesTo.1 (h.pending c (List.mem_cons_self ..))
  obtain ⟨y, _, hy, hidentity, -⟩ := h.entry hx
  have ha : y.available = true :=
    (congrArg (·.2.2) hidentity).trans (hcovers.available hx)
  -- whatever was written to the placement in between, the last write is the one that counts
  have hfinish : ∀ {c' e₂}, Captures e.host y c c' → Rewrites c.key y c.new.id e e₂ →
      Finishes c' (fun _ e' ↦ Installing l start rest e') e₂ := by
    intro c' e₂ hcap hrew
    obtain ⟨y₂, _, hex, _⟩ := id hrew
    refine ⟨y₂, hcap.key ▸ hex.get?_self, fun e₃ hre ↦ ?_⟩
    have hid : c'.new.id = c.new.id := by
      obtain ⟨saved, hsaved⟩ := hcap.new
      rw [hsaved, WindowInfo.id_withState]
    have hrew₃ : Rewrites c.key y c'.new.id e e₃ := by
      rw [hid]
      refine hrew.trans fun y' hy' _ ↦ ?_
      cases hy'.symm.trans hex.get?_self
      exact .of_redecorates (hcap.key ▸ hre)
    obtain ⟨y', hex', hidentity', hinfo⟩ := hrew₃.commit
    rw [hcap.key]
    exact h.exchange hcoherent hy hcap hex' hidentity' hinfo
  refine ensures_applyChange hy (fun hm e₁ hre ↦ ?_) (fun _ hs c' e₁ hcap hre ↦ ?_)
    fun _ _ c' e₁ hcap hre ↦ hfinish hcap (.of_redecorates hre)
  · obtain ⟨y₁, hex, hst⟩ := id hre
    have ho : c.new.occupiesSlot := by
      rw [LayoutChange.movesSlot, Bool.and_eq_true] at hm
      exact hm.2
    have ha₁ : y₁.available = true := (congrArg Standing.available hst).trans ha
    refine (ensures_showWindow_alone hex.get?_self ha₁ (hex.sideStack.trans h.sideStack)
      fun _ ↦ h.occupants_eq_nil hcoherent hl ho fun k hk ↦ hex.get?_other hk).mono
      fun _ e₂ hshow ↦ hfinish (.of_movesSlot hm) ?_
    refine (Rewrites.of_redecorates hre).trans fun y' hy' _ ↦ ?_
    cases hy'.symm.trans hex.get?_self
    exact hshow
  · obtain ⟨y₁, hex, hst⟩ := id hre
    have hid := hcoherent.old_id (h.pending c (List.mem_cons_self ..))
    refine (ensures_hideWindow_alone hex.get?_self (hex.sideStack.trans h.sideStack)).mono
      fun _ e₂ hhide ↦ hfinish hcap ?_
    refine (Rewrites.of_redecorates hre).trans fun y' hy' _ ↦ ?_
    cases hy'.symm.trans hex.get?_self
    exact hid ▸ hhide

end Installing

/-- A layout is in place, and all registered windows are where it puts them. -/
structure Installed (l : Layout) (start e : Engine) : Prop where
  ids : e.layout.ids = l.ids
  unified : e.layout.unified = l.unified
  placement : ∀ {id info}, l.get? id = some info →
    ∃ stored, e.layout.get? id = some stored ∧ Installs start info stored
  registered : ∀ {key x}, start.entries.get? key = some x →
    ∃ y, e.entries.get? key = some y ∧ y.identity = x.identity
  agrees : ∀ {key y}, e.entries.get? key = some y → ∃ stored, e.layout.get? y.id = some stored ∧
    y.info.core = stored.core ∧ y.info.order = stored.order
  exclusive : ∀ {k k' y y'}, e.entries.get? k = some y → e.entries.get? k' = some y' →
    y.info.occupiesSlot → y'.info.occupiesSlot → y.info.slot = y'.info.slot → k = k'

/-- Where every external window is held once, a window that is taken off the screen keeps the bounds
and the flags that the host had for its external window. -/
theorem Installed.exists_capturing {s : Set SlotKey} (h : Installed l start e)
    (hcoherent : CoherentOn Prod.fst ∅ start) (hd : DecoratedOn s start)
    (hx : start.entries.get? key = some x) (hinfo : l.get? x.id = some info)
    (hcloses : IsClosedBy x info) : ∃ kind w, start.ShowsAlone key x kind w ∧
      e.layout.get? x.id = some (info.capturing kind w) := by
  obtain ⟨kind, w, halone⟩ := hd.exists_showsAlone hx hcloses.2.1
  obtain ⟨stored, hstored, hinst⟩ := h.placement hinfo
  refine ⟨kind, w, halone, hstored.trans (congrArg some ?_)⟩
  have hid : x.id = info.id := (Layout.id_of_get? hinfo).symm
  cases hinst with
  | asked hstays => exact absurd hcloses (hstays key x hx hid)
  | captured hy hyid _ _ hstate =>
    cases hcoherent.key_eq hy hx (hyid.trans hid.symm)
    cases hx.symm.trans hy
    exact hstate kind w halone

theorem Installing.installed {e₁ : Engine} (h : Installing l start [] e₁)
    (hcoherent : CoherentOn Prod.fst ∅ start) (hl : l.violations = []) (hsame : SameWindows e₁ e) :
    Installed l start e := by
  obtain ⟨hentries, hlayout⟩ := hsame
  have hentry : ∀ {k y}, e.entries.get? k = some y → ∃ x info, start.entries.get? k = some x ∧
      y.id = x.id ∧ l.get? x.id = some info ∧ y.info.core = info.core ∧
      y.info.order = info.order := by
    intro k y hy
    rw [hentries] at hy
    obtain ⟨x, hx⟩ := h.registered hy
    obtain ⟨y', info, hy', hid, hplace⟩ := h.entry hx
    cases hy.symm.trans hy'
    exact ⟨x, info, hx, congrArg (·.2.1) hid, hplace⟩
  have hplacement : ∀ {id info}, l.get? id = some info →
      ∃ stored, e₁.layout.get? id = some stored ∧ Installs start info stored := by
    intro id info hget
    obtain ⟨stored, hstored, ⟨-, c, hc, -⟩ | hinst⟩ := h.placement hget
    · cases hc
    · exact ⟨stored, hstored, hinst⟩
  refine ⟨hlayout ▸ h.ids, hlayout ▸ h.unified, fun hget ↦ hlayout ▸ hplacement hget,
    fun hx ↦ ?_, fun hy ↦ ?_, fun {k k' y y'} hy hy' ho ho' hs ↦ ?_⟩
  · obtain ⟨y, _, hy, hid, -⟩ := h.entry hx
    exact ⟨y, hentries ▸ hy, hid⟩
  · obtain ⟨x, info, -, hid, hinfo, hcore, horder⟩ := hentry hy
    obtain ⟨stored, hstored, hinst⟩ := hplacement hinfo
    obtain ⟨hc, ho⟩ := hinst.core_eq
    exact ⟨stored, hlayout ▸ hid ▸ hstored, hcore.trans hc.symm, horder.trans ho.symm⟩
  · obtain ⟨x, info, hx, -, hinfo, hcore, -⟩ := hentry hy
    obtain ⟨x', info', hx', -, hinfo', hcore', -⟩ := hentry hy'
    exact hcoherent.key_eq_of_slot hl hx hx' hinfo hinfo'
      ((WindowInfo.occupiesSlot_of_core hcore).symm.trans ho)
      ((WindowInfo.occupiesSlot_of_core hcore').symm.trans ho')
      ((WindowInfo.slot_of_core hcore).symm.trans (hs.trans (WindowInfo.slot_of_core hcore')))

theorem installing_foretold (hcovers : Covers l e) (hcoherent : CoherentOn Prod.fst ∅ e)
    (hempty : e.sideStack = .empty) :
    Installing l e (e.changesTo l) ((e.replaceLayout l).foretold (e.changesTo l)) := by
  obtain ⟨entries, heq, hentry⟩ := foretold_replaceLayout (e := e) l (e.changesTo l)
  rw [heq]
  refine ⟨hempty, rfl, rfl, fun {id info} hinfo ↦ ⟨info, hinfo, ?_⟩, fun {k x} hx ↦ ?_,
    fun hy ↦ ?_, fun _ hc ↦ hc, nodup_changesTo, fun c hc x y hx hy ↦ ?_,
    fun _ _ _ _ hw _ ↦ hw⟩
  · by_cases hchanges : ∃ c ∈ e.changesTo l, c.new = info
    · exact Or.inl ⟨rfl, hchanges⟩
    · refine Or.inr (.asked fun key x hx hid hcloses ↦ hchanges ⟨⟨key, e.oldInfo x, info⟩, ?_, rfl⟩)
      refine mem_changesTo.2 ⟨x, hx, ?_, rfl, ?_⟩
      · rw [hid, Layout.id_of_get? hinfo, hinfo]
      · have hvisible := WindowInfo.visible_of_core (hcoherent.oldInfo hx).1
        rw [hcloses.1] at hvisible
        simp [WindowInfo.agrees, ← hvisible, hcloses.2.2]
  · obtain ⟨info, hinfo⟩ := hcovers.get? hx
    obtain ⟨hcore, horder⟩ := foretoldInfo_agrees hcoherent hx hinfo
    exact ⟨_, info, hentry.2 ⟨x, hx, rfl⟩, rfl, hinfo, hcore, horder⟩
  · obtain ⟨x, hx, -⟩ := hentry.1 hy
    exact ⟨x, hx⟩
  · obtain ⟨x', hx', rfl⟩ := hentry.1 hy
    cases hx.symm.trans hx'
    exact ⟨rfl, rfl⟩

/-- A layout that nothing is wrong about, and that has a place for every window, is installed as it
is where no window was evicted. -/
theorem installed_setLayout {res : Except EngineError Unit}
    (hcoherent : CoherentOn Prod.fst ∅ e) (hcovers : Covers l e) (hempty : e.sideStack = .empty)
    (hl : l.violations = []) (hrun : (setLayout l).run e = .ok res e') :
    res = .ok () ∧ Installed l e e' := by
  obtain ⟨hres, e₁, h₁, hsame⟩ := ensures_setLayout hcovers hl
    (fun _ _ _ h ↦ h.step hcovers hcoherent hl) (installing_foretold hcovers hcoherent hempty) hrun
  exact ⟨hres, h₁.installed hcoherent hl hsame⟩

def visibleFloatingRequest : RegisterRequest :=
  { visibleRequest true with
    placement := some
      { WindowInfo.new "A" .left with visible := true, windowType := .floating } }

def closedLayout : Layout :=
  .ofList [{ WindowInfo.new "A" .right with windowType := .floating, order := 0 }, .new "B" .left]

theorem installed_setLayout_closedLayout :
    ∃ e e' key x info kind w,
      (Request.register visibleFloatingRequest).run.run blank = .ok (.ok ()) e ∧
      (setLayout closedLayout).run e = .ok (.ok ()) e' ∧ Installed closedLayout e e' ∧
      closedLayout.get? x.id = some info ∧ e.ShowsAlone key x kind w ∧
      e'.layout.get? x.id = some (info.capturing kind w) := by
  obtain ⟨e, hregister, hcovers, hempty, ⟨key, x, hx, hid, hv, hext⟩, haccepts⟩ : ∃ e,
      (Request.register visibleFloatingRequest).run.run blank = .ok (.ok ()) e ∧
      (∀ row ∈ e.entries.toList, closedLayout.contains row.2.id ∧ row.2.available) ∧
      e.sideStack = .empty ∧ (∃ key x, e.entries.get? key = some x ∧ x.id = "A" ∧
        x.info.visible ∧ x.external?.isSome) ∧ e.accepts (setLayout closedLayout) :=
    ⟨_, rfl, by decide +kernel, rfl, ⟨⟨0, 0⟩, _, rfl, rfl, rfl, rfl⟩, by decide +kernel⟩
  obtain ⟨e', hrun⟩ := exists_run_of_accepts haccepts
  have hpresents : (Request.register visibleFloatingRequest).Presents blank := by
    rintro _ ⟨⟩
    exact ⟨rfl, fun _ ↦ ⟨rfl, rfl, rfl⟩⟩
  have hsound : Sound id True ∅ ∅ e := Sound.run
    ⟨coherentOn_of_empty rfl, fun _ ↦ decoratedOn_of_empty rfl rfl⟩
    (Request.fits_of_presents hpresents) (fun _ ↦ hpresents) hregister
  have hcoherent : CoherentOn Prod.fst ∅ e :=
    hsound.coherent.coarsen fun m m' hm ↦ congrArg Prod.fst hm
  have hinstalled := (installed_setLayout hcoherent
    ⟨fun hx ↦ (hcovers _ (SlotTable.mem_toList.2 hx)).1,
      fun hx ↦ (hcovers _ (SlotTable.mem_toList.2 hx)).2⟩ hempty (by decide) hrun).2
  obtain ⟨info, hinfo, hhidden⟩ : ∃ info, closedLayout.get? x.id = some info ∧
      info.visible = false := by
    rw [hid]
    exact ⟨_, rfl, rfl⟩
  obtain ⟨kind, w, halone, hstored⟩ := hinstalled.exists_capturing hcoherent
    (hsound.decorated trivial) hx hinfo ⟨hv, hext, hhidden⟩
  exact ⟨e, e', key, x, info, kind, w, hregister, hrun, hinstalled, hinfo, halone, hstored⟩

end Engine

end ToolDock

import ToolDock.Proofs.Moving
import ToolDock.Proofs.Reopening

/-!
Changes of attributes overwrite entries with what the layout has. Nobody comes onto the screen or
leaves it that way as long as the two agree about whoever is overwritten. A window that was
registered without content is hidden where the layout has it visible, and its entry is overwritten
too when the order of a sibling changes. Main statement: `keepsScreen_iff`.
-/

namespace ToolDock

def Entry.fittings (x : Entry) :
    String × String × Option WindowInfo × Option Handle × Option Handle :=
  (x.name, x.id, x.attached, x.floating, x.windowed)

/-- The entry takes over the placement in a layout if it is one of those that do. -/
structure Entry.Adopts (names : List String) (l : Layout) (x x' : Entry) : Prop where
  fittings : x'.fittings = x.fittings
  adopted : x.name ∈ names → l.get? x.name = some x'.info
  kept : x.name ∉ names → x'.info = x.info

theorem Entry.Adopts.name {names : List String} {l : Layout} {x x' : Entry}
    (h : x.Adopts names l x') : x'.name = x.name :=
  congrArg (·.1) h.fittings

namespace Engine

variable {e e' e'' : Engine} {key k k' : SlotKey} {x x' y y' : Entry} {info placed w : WindowInfo}
  {names names' : List String} {id n : String} {l : Layout} {ws : List WindowInfo}

/-- Some entries have taken over the placements of the layout. Nothing else about windows has
changed but stripe buttons. -/
structure Adopts (names : List String) (e e' : Engine) : Prop where
  entry : ∀ {k x}, e.entries.get? k = some x →
    ∃ x', e'.entries.get? k = some x' ∧ x.Adopts names e'.layout x'
  fresh : ∀ {k}, e.entries.get? k = none → e'.entries.get? k = none
  externals : e'.host.externals = e.host.externals

namespace Adopts

theorem of_entries (he : e'.entries = e.entries)
    (hhost : e'.host.externals = e.host.externals) : Adopts [] e e' where
  entry hx := ⟨_, he ▸ hx, rfl, nofun, fun _ ↦ rfl⟩
  fresh hnone := he ▸ hnone
  externals := hhost

theorem after (h : Adopts names e' e'') (he : e'.entries = e.entries)
    (hhost : e'.host.externals = e.host.externals) : Adopts names e e'' where
  entry hx := h.entry (he ▸ hx)
  fresh hnone := h.fresh (he ▸ hnone)
  externals := h.externals.trans hhost

theorem append (h : Adopts names e e') (h' : Adopts names' e' e'') (hl : e''.layout = e'.layout) :
    Adopts (names ++ names') e e'' where
  entry {k x} hx := by
    obtain ⟨x', hx', hadopts⟩ := h.entry hx
    obtain ⟨x'', hx'', hadopts'⟩ := h'.entry hx'
    refine ⟨x'', hx'', hadopts'.fittings.trans hadopts.fittings, fun hn ↦ ?_, fun hn ↦ ?_⟩
    · by_cases hlater : x.name ∈ names'
      · rw [← hadopts.name]
        exact hadopts'.adopted (hadopts.name ▸ hlater)
      · rw [hadopts'.kept (hadopts.name ▸ hlater), hl]
        exact hadopts.adopted ((List.mem_append.1 hn).resolve_right hlater)
    · rw [List.mem_append, not_or] at hn
      exact (hadopts'.kept (hadopts.name ▸ hn.2)).trans (hadopts.kept hn.1)
  fresh hnone := h'.fresh (h.fresh hnone)
  externals := h'.externals.trans h.externals

theorem congr (h : Adopts names e e') (he : e''.entries = e'.entries) (hl : e''.layout = e'.layout)
    (hhost : e''.host.externals = e'.host.externals) : Adopts names e e'' := by
  have hall := h.append (of_entries he hhost) hl
  rwa [List.append_nil] at hall

theorem sameNames (h : Adopts names e e') : SameNames e e' := by
  intro k
  cases hk : e.entries.get? k with
  | none => rw [h.fresh hk]
  | some x =>
    obtain ⟨x', hx', hadopts⟩ := h.entry hk
    rw [hx', Option.map_some, Option.map_some, hadopts.name]

theorem namesUnique (h : Adopts names e e') (hu : NamesUnique e) : NamesUnique e' :=
  h.sameNames.namesUnique hu

theorem keyOf?_eq (h : Adopts names e e') (hu : NamesUnique e) (n : String) :
    e'.keyOf? n = e.keyOf? n :=
  h.sameNames.keyOf?_eq hu n

end Adopts

/-- The same windows are visible, their decorators are where they were, and the same external
windows are open just as they were. -/
structure KeepsScreen (e e' : Engine) : Prop where
  visible : ∀ n, e'.isVisible n = e.isVisible n
  decorators : ∀ k, (e'.entries.get? k).map Entry.fittings = (e.entries.get? k).map Entry.fittings
  externals : e'.host.externals = e.host.externals

/-- The layout shows a window just if its entry does, or lacks it. -/
def AgreesOn (e : Engine) (n : String) : Prop :=
  ∀ info, e.layout.get? n = some info → info.visible = e.isVisible n

/-- Where the layout shows a window it did before, and those that it lacked are as their entries had
them. -/
def KeepsFlags (e e' : Engine) : Prop :=
  ∀ ⦃k x placed⦄, e.entries.get? k = some x → e'.layout.get? x.name = some placed →
    placed.visible = ((e.layout.get? x.name).getD x.info).visible

theorem Adopts.decorators (h : Adopts names e e') (k : SlotKey) :
    (e'.entries.get? k).map Entry.fittings = (e.entries.get? k).map Entry.fittings := by
  cases hk : e.entries.get? k with
  | none => rw [h.fresh hk]
  | some x =>
    obtain ⟨x', hx', hadopts⟩ := h.entry hk
    rw [hx', Option.map_some, Option.map_some, hadopts.fittings]

theorem isVisible_of_keyOf? (hkey : e.keyOf? n = some k) (hx : e.entries.get? k = some x) :
    e.isVisible n = x.info.visible := by
  rw [isVisible, windowInfo?, entry?, hkey, Option.bind_some, hx]
  rfl

theorem isVisible_of_none (hkey : e.keyOf? n = none) : e.isVisible n = false := by
  rw [isVisible, windowInfo?, entry?, hkey]
  rfl

theorem Adopts.keeps_iff (h : Adopts names e e') (hu : NamesUnique e)
    (hflags : KeepsFlags e e') :
    KeepsScreen e e' ↔ ∀ n ∈ names, e.isRegistered n → e.AgreesOn n := by
  have hvisible : (∀ n, e'.isVisible n = e.isVisible n) ↔
      ∀ n ∈ names, e.isRegistered n → e.AgreesOn n := by
    constructor
    · intro hkept n hn hreg info hinfo
      obtain ⟨k, hkey⟩ := Option.isSome_iff_exists.1 hreg
      obtain ⟨x, hx, rfl⟩ := get?_of_keyOf? hkey
      obtain ⟨x', hx', hadopts⟩ := h.entry hx
      have hplaced := hflags hx (hadopts.adopted hn)
      rw [hinfo, Option.getD_some] at hplaced
      rw [← hplaced, ← hkept, isVisible_of_keyOf? ((h.keyOf?_eq hu _).trans hkey) hx']
    · intro hagrees n
      cases hkey : e.keyOf? n with
      | none =>
        rw [isVisible_of_none hkey, isVisible_of_none ((h.keyOf?_eq hu n).trans hkey)]
      | some k =>
        obtain ⟨x, hx, rfl⟩ := get?_of_keyOf? hkey
        obtain ⟨x', hx', hadopts⟩ := h.entry hx
        have hself := isVisible_of_keyOf? hkey hx
        rw [isVisible_of_keyOf? ((h.keyOf?_eq hu _).trans hkey) hx']
        by_cases hn : x.name ∈ names
        · rw [hflags hx (hadopts.adopted hn)]
          have hagree := hagrees x.name hn (by rw [isRegistered, hkey]; rfl)
          cases hinfo : e.layout.get? x.name with
          | none => rw [hself, Option.getD_none]
          | some info => exact hagree info hinfo
        · rw [hadopts.kept hn, hself]
  exact ⟨fun hkept ↦ hvisible.1 hkept.visible,
    fun hagrees ↦ ⟨hvisible.2 hagrees, h.decorators, h.externals⟩⟩

theorem Exchanged.adopts (hex : Exchanged False key x x' l e e') (hu : NamesUnique e)
    (hx : e.entries.get? key = some x) (hfits : x'.fittings = x.fittings)
    (hinfo : l.get? x.name = some x'.info) (hhost : e'.host.externals = e.host.externals) :
    Adopts [x.name] e e' where
  entry {k y} hy := by
    rw [hex.get?]
    split
    case isTrue hk =>
      subst hk
      cases hx.symm.trans hy
      exact ⟨x', rfl, hfits, fun _ ↦ hex.layout ▸ hinfo,
        fun hn ↦ absurd (List.mem_singleton_self _) hn⟩
    case isFalse hk =>
      exact ⟨y, hy, rfl, fun hn ↦ absurd (hu hy hx (List.mem_singleton.1 hn)) hk, fun _ ↦ rfl⟩
  fresh {k} hnone := by
    rw [hex.get?, if_neg]
    · exact hnone
    · rintro rfl
      cases hx.symm.trans hnone
  externals := hhost

theorem externals_refreshStripeButton :
    (e.refreshStripeButton key info).host.externals = e.host.externals := by
  unfold refreshStripeButton
  split
  · dsimp only
    split
    · exact (Host.externals_alloc rfl rfl).trans externals_removeStripeButton
    · exact externals_removeStripeButton
  · rfl

theorem adopts_relabelEntry (hu : NamesUnique e) (hx : e.entries.get? key = some x)
    (hinfo : e.layout.get? x.name = some info) :
    Adopts [x.name] e (e.relabelEntry info key) ∧
      (e.relabelEntry info key).layout = e.layout := by
  obtain ⟨b, hbutton⟩ := exchanged_refreshStripeButton (D := False) info hx False.elim
  have hstored : Exchanged False key _ _ _ _ (e.relabelEntry info key) :=
    exchanged_applyToEntry hbutton.get?_self False.elim
  have hex := hbutton.andThen hstored
  exact ⟨hex.adopts hu hx rfl hinfo externals_refreshStripeButton, hex.layout⟩

theorem adopts_relabelSibling (hu : NamesUnique e) (hw : e.layout.get? w.id = some w) :
    Adopts [w.id] e (e.relabelSibling w) ∧ (e.relabelSibling w).layout = e.layout := by
  unfold relabelSibling
  cases hkey : e.keyOf? w.id with
  | none =>
    refine ⟨⟨fun {k x} hx ↦ ⟨x, hx, rfl, fun hn ↦ ?_, fun _ ↦ rfl⟩, fun hnone ↦ hnone, rfl⟩, rfl⟩
    exact absurd (List.mem_singleton.1 hn) (name_ne_of_keyOf?_eq_none hkey hx)
  | some k =>
    obtain ⟨x, hx, hname⟩ := get?_of_keyOf? hkey
    rw [← hname] at hw ⊢
    exact adopts_relabelEntry hu hx hw

theorem adopts_relabelSiblings (ws : List WindowInfo) (hu : NamesUnique e)
    (hws : ∀ w ∈ ws, e.layout.get? w.id = some w) :
    Adopts (ws.map WindowInfo.id) e (ws.foldl relabelSibling e) ∧
      (ws.foldl relabelSibling e).layout = e.layout := by
  induction ws generalizing e with
  | nil => exact ⟨.of_entries rfl rfl, rfl⟩
  | cons w ws ih =>
    obtain ⟨hfirst, hlayout⟩ := adopts_relabelSibling hu (hws w (List.mem_cons_self ..))
    obtain ⟨hrest, hlayout'⟩ := ih (hfirst.namesUnique hu) fun v hv ↦ by
      rw [hlayout]
      exact hws v (List.mem_cons_of_mem _ hv)
    exact ⟨hfirst.append hrest hlayout', hlayout'.trans hlayout⟩

theorem ensures_relabel_adopts {pane : String} {anchor : Anchor} {order : Int32}
    (hu : NamesUnique e) (hl : Located e key x info) (hid : x.id = x.name) :
    Ensures (relabel key pane anchor order) e fun _ e' ↦ ∃ changed,
      Layout.setAnchor x.id pane anchor order e.layout = .ok changed e'.layout ∧
        Adopts (x.name :: changed.map WindowInfo.id) e e' := by
  simp only [relabel, ensures_bind, ensures_get]
  rw [hl.entry]
  simp only [ensures_bind, ensures_onLayout, ensures_modify]
  intro changed l hset
  obtain ⟨hmoves, rfl⟩ := Layout.setAnchor_cases hl.placement hset
  obtain ⟨placed, -, hself⟩ := hmoves.self
  simp only [hself]
  rw [hid] at hself
  let moved : Engine := { e with layout := l }
  obtain ⟨hown, hlayout⟩ := adopts_relabelEntry (e := moved) hu hl.entry hself
  obtain ⟨hsiblings, hlayout'⟩ := adopts_relabelSiblings (Layout.reordered e.layout l x.id)
    (hown.namesUnique hu) fun w hw ↦ by
      rw [hlayout]
      exact Layout.get?_of_mem (List.mem_filter.1 hw).1
  refine ⟨_, ?_, (hown.append hsiblings hlayout').after rfl rfl⟩
  rw [hset, hlayout'.trans hlayout]

/-- A window whose entry has it visible is visible after it was shown, even if it is not
available. -/
theorem ensures_showWindow_visible {dirty : Bool} (hx : e.entries.get? key = some x)
    (hv : x.info.visible) : Ensures (showWindow key info dirty) e fun _ e' ↦
      ∃ x', e'.entries.get? key = some x' ∧ x'.name = x.name ∧ x'.info.visible := by
  refine ensures_showWindow_cases (fun _ ↦ ⟨x, hx, rfl, hv⟩) fun _ order _ ↦ ?_
  have hcommit := exchanged_commit (D := False) (info.shownAt order)
    ((get?_evictFor key (info.shownAt order) dirty).trans hx) False.elim
  refine (ensures_addDecorator_redecorates hcommit.get?_self).mono fun _ e₁ hre ↦ ?_
  obtain ⟨x₁, hex, hst⟩ := hre
  have hx₁ : (e₁.forgetEvicted info.id).entries.get? key = some x₁ := by
    rw [entries_forgetEvicted]
    exact hex.get?_self
  obtain ⟨b, -, hbutton⟩ := exchanged_ensureStripeButton (D := False) (info.shownAt order) hx₁
    False.elim
  obtain ⟨hname, -, hinfo, -⟩ := Standing.mk.inj hst
  exact ⟨_, hbutton.get?_self, hname, congrArg WindowInfo.visible hinfo⟩

theorem NamesUnique.exchanged (hu : NamesUnique e) (hx : e.entries.get? key = some x)
    (hex : Exchanged False key x x' l e e') (hname : x'.name = x.name) : NamesUnique e' := by
  have hbefore : ∀ {k y}, e'.entries.get? k = some y →
      ∃ z, e.entries.get? k = some z ∧ z.name = y.name := by
    intro k y hy
    rw [hex.get?] at hy
    split at hy
    case isTrue hk =>
      cases hy
      exact ⟨x, hk ▸ hx, hname.symm⟩
    case isFalse => exact ⟨y, hy, rfl⟩
  intro k k' y y' hy hy' heq
  obtain ⟨z, hz, hzname⟩ := hbefore hy
  obtain ⟨z', hz', hzname'⟩ := hbefore hy'
  exact hu hz hz' (hzname.trans (heq.trans hzname'.symm))

/-- A window that the layout has visible is visible after it was moved, even if its entry was
hidden. -/
theorem ensures_moveVisible_visible {pane : String} {anchor : Anchor} {order : Int32}
    (hu : NamesUnique e) (hl : Located e key x placed) (hid : x.id = x.name)
    (hv : placed.visible) : Ensures (moveVisible key id info pane anchor order) e fun _ e' ↦
      ∃ y, e'.entries.get? key = some y ∧ y.name = x.name ∧ y.info.visible := by
  simp only [moveVisible, ensures_bind, ensures_get, ensures_modify, ensures_ite,
    ensures_takeInfo]
  have hex := exchanged_removeInternalDecorator (D := False) true hl.entry False.elim
  have hl₁ : Located (e.removeInternalDecorator key true) key { x with attached := none } placed :=
    ⟨hex.get?_self, by rw [hex.layout]; exact hl.placement⟩
  refine (ensures_relabel_adopts (hu.exchanged hl.entry hex rfl) hl₁ hid).mono ?_
  intro _ e₂ hq
  rcases hq with ⟨changed, hset, hadopts⟩
  obtain ⟨hmoves, -⟩ := Layout.setAnchor_cases hl₁.placement hset
  obtain ⟨moved, hre, hself⟩ := hmoves.self
  obtain ⟨y, hy, hown⟩ := hadopts.entry hl₁.entry
  have hfits := hown.fittings
  simp only [Entry.fittings, Prod.mk.injEq] at hfits
  have hl₂ : Located e₂ key y y.info :=
    ⟨hy, by rw [hfits.2.1, hid]; exact hown.adopted (List.mem_cons_self ..)⟩
  have hyv : y.info.visible = true := by
    have hmoved : moved = y.info := hl₂.eq (hfits.2.1.symm ▸ hself)
    rw [← hmoved, WindowInfo.visible_of_core hre.core_eq]
    exact hv
  rw [hl₂.registeredInfo_eq]
  refine (ensures_showWindow_visible hy hyv).mono ?_
  intro shown e₃ hq
  rcases hq with ⟨z, hz, hname, hzv⟩
  have hsame : ∀ first, ((e₃.validatePanes first pane).repaintPane pane).entries = e₃.entries :=
    fun first ↦ (Idles.refl.repainted first pane).entries
  have hsame' : ∀ first,
      (((e₃.requestFocus id).validatePanes first pane).repaintPane pane).entries = e₃.entries :=
    fun first ↦ (Idles.requestFocus.repainted first pane).entries
  refine ⟨fun _ ↦ ⟨z, ?_, hname.trans hfits.1, hzv⟩, fun _ ↦ ⟨z, ?_, hname.trans hfits.1, hzv⟩⟩
  · rw [hsame']
    exact hz
  · rw [hsame]
    exact hz

/-- A change of an attribute of a window, or a move of a hidden one. -/
inductive Tweak where
  | autoHide (hides : Bool)
  | contentUi (ui : ContentUi)
  | geometry (g : DecoratorGeometry)
  | place (pane : String) (anchor : Anchor) (order : Int32)

namespace Tweak

/-- The request that asks for a change. -/
def request (id : String) : Tweak → Request
  | autoHide hides => .setAutoHide id hides
  | contentUi ui => .setContentUi id ui
  | geometry g => .movedOrResized id g
  | place pane anchor order => .setAnchor id pane anchor order

def IsPlace : Tweak → Prop
  | place .. => True
  | _ => False

def changes (e : Engine) (key : SlotKey) (info : WindowInfo) : Tweak → Bool
  | autoHide hides => info.autoHide != hides
  | contentUi ui => info.contentUi != ui
  | geometry g => g.showing &&
      if info.isExternal then ((e.entries.get? key).bind (placed? e.host · info)).isSome
      else g.sizeTrusted
  | place pane anchor order =>
      !decide (order < unassignedOrder) && !isThere info (e.paneFor pane) anchor order

def siblings (e : Engine) (l : Layout) (id : String) : Tweak → List String
  | place pane anchor order =>
    match Layout.setAnchor id (e.paneFor pane) anchor order l with
    | .ok changed _ => changed.map WindowInfo.id
    | .error .. => []
  | _ => []

end Tweak

/-- The windows whose entries a change overwrites with their placements in the layout. -/
def overwritten (e : Engine) (key : SlotKey) (t : Tweak) : List String :=
  let info := (e.registeredInfo key).1
  if t.changes e key info then info.id :: t.siblings e (e.registeredInfo key).2.layout info.id
  else []

theorem registeredInfo_spec (hd : Drafted e) (hx : e.entries.get? key = some x) :
    (e.registeredInfo key).1 = (e.layout.get? x.id).getD x.info ∧
      ∀ i, (e.registeredInfo key).2.layout.get? i =
        if i = x.id then some (e.registeredInfo key).1 else e.layout.get? i := by
  cases hinfo : e.layout.get? x.id with
  | some info =>
    have hl : Located e key x info := ⟨hx, hinfo⟩
    rw [hl.registeredInfo_eq]
    refine ⟨rfl, fun i ↦ ?_⟩
    split
    case isTrue hi => exact hi ▸ hinfo
    case isFalse => rfl
  | none =>
    have hid : x.info.id = x.id := (hd.isDraft hx hinfo).info_id
    rw [registeredInfo_eq hx hid, hinfo]
    exact ⟨rfl, fun i ↦ hid ▸ get?_storeInfo⟩

theorem KeepsFlags.refl : KeepsFlags e e := by
  intro k x placed _ hplaced
  rw [hplaced, Option.getD_some]

theorem KeepsFlags.then (h : KeepsFlags e e') (hl : ∀ n placed, e''.layout.get? n = some placed →
    ∃ w, e'.layout.get? n = some w ∧ placed.visible = w.visible) : KeepsFlags e e'' := by
  intro k x placed hx hplaced
  obtain ⟨w, hw, hv⟩ := hl _ _ hplaced
  exact hv.trans (h hx hw)

theorem keepsFlags_listed (hb : e.Belongs) (hd : Drafted e) (hx : e.entries.get? key = some x) :
    KeepsFlags e (e.registeredInfo key).2 := by
  obtain ⟨hinfo, hget⟩ := registeredInfo_spec hd hx
  intro k y placed hy hplaced
  rw [hget] at hplaced
  by_cases hname : y.name = x.id
  · rw [if_pos hname, hinfo] at hplaced
    cases hb.unique hy hx (hname.trans (hb.named hx))
    cases hx.symm.trans hy
    rw [hname, ← Option.some.inj hplaced]
  · rw [if_neg hname] at hplaced
    rw [hplaced, Option.getD_some]

theorem KeepsFlags.commit {stored : WindowInfo} (h : KeepsFlags e e')
    (hl : Located e' key x info) (hid : stored.id = info.id)
    (hv : stored.visible = info.visible) (key' : SlotKey) :
    KeepsFlags e (e'.commit key' stored) := by
  refine h.then fun n placed hplaced ↦ ?_
  rw [get?_commit_layout] at hplaced
  split at hplaced
  case isTrue hn =>
    refine ⟨info, ?_, (Option.some.inj hplaced) ▸ hv⟩
    rw [hn, hid, Layout.id_of_get? hl.placement, hl.placement]
  case isFalse => exact ⟨placed, hplaced, rfl⟩

theorem KeepsFlags.moves {moved : WindowInfo} (h : KeepsFlags e e') (hl : Located e' key x info)
    (hv : moved.visible = info.visible) (hmoves : Layout.Moves x.id moved e'.layout e''.layout) :
    KeepsFlags e e'' := by
  refine h.then fun n placed hplaced ↦ ?_
  by_cases hn : n = x.id
  · obtain ⟨placed', hre, hself⟩ := hmoves.self
    rw [hn, hself] at hplaced
    refine ⟨info, hn ▸ hl.placement, ?_⟩
    rw [← Option.some.inj hplaced, WindowInfo.visible_of_core hre.core_eq, hv]
  · obtain ⟨w, hw, hre⟩ := hmoves.get?_others hn hplaced
    exact ⟨w, hw, WindowInfo.visible_of_core hre.core_eq⟩

theorem adopts_commit (hu : NamesUnique e) (hx : e.entries.get? key = some x)
    (hid : info.id = x.name) : Adopts [x.name] e (e.commit key info) := by
  refine (exchanged_commit info hx False.elim).adopts hu hx rfl ?_ rfl
  rw [Layout.get?_put, if_pos hid.symm]

theorem host_registeredInfo : (e.registeredInfo key).2.host = e.host := by
  rw [snd_registeredInfo]

theorem Belongs.namesUnique (hb : e.Belongs) : NamesUnique e :=
  fun _ _ _ _ hx hx' hname ↦ hb.unique hx hx' hname

theorem Adopts.of_listed (h : Adopts names (e.registeredInfo key).2 e') : Adopts names e e' :=
  h.after entries_registeredInfo (congrArg Host.externals host_registeredInfo)

theorem namesUnique_listed (hu : NamesUnique e) : NamesUnique (e.registeredInfo key).2 := by
  intro k k' x x' hx hx' hname
  rw [entries_registeredInfo] at hx hx'
  exact hu hx hx' hname

def Overwrites (key : SlotKey) (t : Tweak) (e e' : Engine) : Prop :=
  Adopts (e.overwritten key t) e e' ∧ KeepsFlags e e'

theorem Overwrites.fire {t : Tweak} {kind : EventKind} {subject : Option String}
    (h : Overwrites key t e e') : Overwrites key t e (e'.fire kind subject) :=
  ⟨h.1.congr rfl rfl rfl, h.2⟩

theorem Overwrites.refl {t : Tweak} (hsame : t.changes e key (e.registeredInfo key).1 = false) :
    Overwrites key t e e := by
  refine ⟨?_, .refl⟩
  simp only [overwritten, hsame]
  exact .of_entries rfl rfl

section Tweaks

variable {t : Tweak} (hb : e.Belongs) (hd : Drafted e) (hkey : e.keyOf? id = some key)
include hb hd hkey

theorem registered_spec : ∃ x, e.entries.get? key = some x ∧ x.id = x.name ∧ x.name = id ∧
    Located (e.registeredInfo key).2 key x (e.registeredInfo key).1 ∧
      (e.registeredInfo key).1.id = id := by
  obtain ⟨x, hx, hname⟩ := get?_of_keyOf? hkey
  have hl := located_registeredInfo hd hx
  exact ⟨x, hx, hb.named hx, hname, hl,
    (Layout.id_of_get? hl.placement).trans ((hb.named hx).trans hname)⟩

theorem agreesOn_registered (hagrees : e.AgreesOn id) :
    (e.registeredInfo key).1.visible = e.isVisible id := by
  obtain ⟨x, hx, hid, rfl, -⟩ := registered_spec hb hd hkey
  rw [(registeredInfo_spec hd hx).1, hid]
  cases hinfo : e.layout.get? x.name with
  | none => rw [Option.getD_none, isVisible_of_keyOf? hkey hx]
  | some info => exact hagrees info hinfo

theorem overwrites_listed (hsame : t.changes e key (e.registeredInfo key).1 = false) :
    Overwrites key t e (e.registeredInfo key).2 := by
  obtain ⟨x, hx, -⟩ := get?_of_keyOf? hkey
  refine ⟨?_, keepsFlags_listed hb hd hx⟩
  simp only [overwritten, hsame]
  exact Adopts.of_listed (.of_entries rfl rfl)

theorem overwrites_commit {stored : WindowInfo} (e₁ : Engine)
    (hchanges : t.changes e key (e.registeredInfo key).1)
    (hnone : ∀ l i, t.siblings e l i = []) (he : e₁.entries = (e.registeredInfo key).2.entries)
    (hhost : e₁.host = (e.registeredInfo key).2.host)
    (hl : e₁.layout.windows = (e.registeredInfo key).2.layout.windows)
    (hid : stored.id = (e.registeredInfo key).1.id)
    (hv : stored.visible = (e.registeredInfo key).1.visible) :
    Overwrites key t e (e₁.commit key stored) := by
  obtain ⟨x, hx, -, rfl, hlisted, hinfo⟩ := registered_spec hb hd hkey
  have hget : ∀ i, e₁.layout.get? i = (e.registeredInfo key).2.layout.get? i := fun i ↦ by
    rw [Layout.get?, Layout.get?, hl]
  have hl₁ : Located e₁ key x (e.registeredInfo key).1 :=
    ⟨he ▸ hlisted.entry, (hget x.id).trans hlisted.placement⟩
  have hnames : e.overwritten key t = [x.name] := by
    simp only [overwritten]
    rw [if_pos hchanges, hnone, hinfo]
  rw [entries_registeredInfo] at he
  rw [host_registeredInfo] at hhost
  have hu : NamesUnique e₁ := by
    intro k k' y y' hy hy' hname
    rw [he] at hy hy'
    exact hb.unique hy hy' hname
  constructor
  · rw [hnames]
    exact (adopts_commit hu hl₁.entry (hid.trans hinfo)).after he (congrArg Host.externals hhost)
  · refine ((keepsFlags_listed hb hd hx).then fun i placed hi ↦ ?_).commit hl₁ hid hv key
    exact ⟨placed, (hget i).symm.trans hi, rfl⟩

theorem ensures_changeProperty_overwrites (differs : WindowInfo → Bool)
    (change : WindowInfo → WindowInfo) (kind : EventKind) (hid : ∀ info, (change info).id = info.id)
    (hv : ∀ info, (change info).visible = info.visible)
    (hchanges : ∀ info, t.changes e key info = differs info)
    (hnone : ∀ l i, t.siblings e l i = []) :
    Ensures (changeProperty id differs change kind).run e fun _ e' ↦ Overwrites key t e e' := by
  simp only [changeProperty, ensures_keyOf_bind, ensures_run_lift_bind, ensures_run_ite,
    ensures_run_pure, ensures_run_modify, ensures_takeInfo]
  refine ⟨fun k hk ↦ ?_, fun hn ↦ absurd (hkey.symm.trans hn) (Option.some_ne_none key)⟩
  cases hkey.symm.trans hk
  refine ⟨fun hdiffers ↦ ?_, fun hsame ↦ ?_⟩
  · exact (overwrites_commit hb hd hkey _ ((hchanges _).trans hdiffers) hnone rfl rfl rfl (hid _)
      (hv _)).fire
  · exact overwrites_listed hb hd hkey ((hchanges _).trans (by simpa using hsame))

theorem ensures_movedOrResized_overwrites {g : DecoratorGeometry} :
    Ensures (movedOrResized id g).run e fun _ e' ↦ Overwrites key (.geometry g) e e' := by
  obtain ⟨x, hx, -, -, hl, hinfo⟩ := registered_spec hb hd hkey
  simp only [movedOrResized, learnShares, ensures_keyOf_bind, ensures_run_lift_bind,
    ensures_run_ite, ensures_run_pure, ensures_run_modify, ensures_run_get_bind, ensures_bind,
    ensures_check, ensures_modify, ensures_takeInfo]
  refine ⟨fun k hk ↦ ?_, fun hn ↦ absurd (hkey.symm.trans hn) (Option.some_ne_none key)⟩
  cases hkey.symm.trans hk
  have hplaced : ((e.registeredInfo key).2.entries.get? key).bind
      (placed? (e.registeredInfo key).2.host · (e.registeredInfo key).1) =
      (e.entries.get? key).bind (placed? e.host · (e.registeredInfo key).1) := by
    rw [entries_registeredInfo, host_registeredInfo]
  refine ⟨fun hshowing ↦ ⟨fun hexternal ↦ ?_, fun hinternal ↦ ⟨fun htrusted r hr ↦ ?_, ?_⟩⟩, ?_⟩
  · rw [hplaced]
    cases hp : (e.entries.get? key).bind (placed? e.host · (e.registeredInfo key).1) with
    | none =>
      refine ensures_run_pure.2 (overwrites_listed hb hd hkey ?_)
      simp [Tweak.changes, hexternal, hp]
    | some placed =>
      rw [hx, Option.bind_some] at hp
      have hsame := resembles_placed? hp
      refine ensures_run_modify.2 (overwrites_commit (t := .geometry g) hb hd hkey _ ?_
        (fun _ _ ↦ rfl) rfl rfl rfl hsame.id (WindowInfo.visible_of_core hsame.core)).fire
      simp [Tweak.changes, hshowing, hexternal, hx, hp]
  · have hsame := resembles_measured hr
    let resized : Engine := { (e.registeredInfo key).2 with
      layout := (e.registeredInfo key).2.layout.setUnifiedWeight r.1.anchor r.2 }
    refine (overwrites_commit (t := .geometry g) hb hd hkey resized ?_ (fun _ _ ↦ rfl) rfl rfl rfl
      hsame.id (WindowInfo.visible_of_core hsame.core)).fire
    simp [Tweak.changes, hshowing, hinternal, htrusted]
  · intro huntrusted
    refine overwrites_listed hb hd hkey ?_
    simp [Tweak.changes, hinternal, huntrusted]
  · intro hhidden
    refine .refl ?_
    simp [Tweak.changes, hhidden]

section SetAnchor

variable {pane : String} {anchor : Anchor} {order : Int32}

theorem ensures_relabel_overwrites
    (hchanges : (Tweak.place pane anchor order).changes e key (e.registeredInfo key).1) :
    Ensures (relabel key (e.paneFor pane) anchor order) (e.registeredInfo key).2 fun _ e' ↦
      Overwrites key (.place pane anchor order) e e' := by
  obtain ⟨x, hx, hid, rfl, hl, hinfo⟩ := registered_spec hb hd hkey
  refine (ensures_relabel_adopts (namesUnique_listed hb.namesUnique) hl hid).mono ?_
  intro _ e' hq
  rcases hq with ⟨changed, hset, hadopts⟩
  obtain ⟨hmoved, -⟩ := Layout.setAnchor_cases hl.placement hset
  have hnames : e.overwritten key (.place pane anchor order) =
      x.name :: changed.map WindowInfo.id := by
    simp only [overwritten]
    rw [if_pos hchanges, hinfo, ← hid, Tweak.siblings, hset]
  refine ⟨?_, (keepsFlags_listed hb hd hx).moves hl (by rfl) hmoved⟩
  rw [hnames]
  exact hadopts.of_listed

theorem ensures_setAnchor_overwrites (hhidden : e.isVisible id = false) :
    Ensures (setAnchor id pane anchor order).run e fun _ e' ↦
      Overwrites key (.place pane anchor order) e e' ∨
        id ∈ e.overwritten key (.place pane anchor order) ∧ ¬ e.AgreesOn id ∧
          ∃ y, e'.entries.get? key = some y ∧ y.name = id ∧ y.info.visible := by
  obtain ⟨x, hx, hid, rfl, hl, hinfo⟩ := registered_spec hb hd hkey
  simp only [setAnchor, ensures_keyOf_bind, ensures_run_lift_bind, ensures_run_ite,
    ensures_run_pure, ensures_run_modify, ensures_run_get_bind, ensures_run_throw_bind,
    ensures_takeInfo]
  refine ⟨fun k hk ↦ ?_, fun hn ↦ absurd (hkey.symm.trans hn) (Option.some_ne_none key)⟩
  cases hkey.symm.trans hk
  refine ⟨fun hrefused ↦ Or.inl (.refl ?_), fun hok ↦ ?_⟩
  · simp [Tweak.changes, hrefused]
  have hchanges : isThere (e.registeredInfo key).1 (e.paneFor pane) anchor order = false →
      (Tweak.place pane anchor order).changes e key (e.registeredInfo key).1 := by
    intro hmoves
    simp [Tweak.changes, hmoves, hok]
  refine ⟨fun hmoves ↦ ⟨fun _ ↦ ?_, fun hvis ↦ ?_⟩, fun hthere ↦ ?_⟩
  · exact (ensures_relabel_overwrites hb hd hkey (hchanges (by simpa using hmoves))).mono
      fun _ _ hover ↦ Or.inl hover.fire
  · have hshown : (e.registeredInfo key).1.visible = true := by
      simp only [Bool.or_eq_true, not_or, Bool.not_eq_true', Bool.not_eq_false] at hvis
      exact hvis.1.1
    refine (ensures_moveVisible_visible (namesUnique_listed hb.namesUnique) hl hid hshown).mono ?_
    intro _ e' hq
    refine Or.inr ⟨?_, fun hagrees ↦ ?_, hq⟩
    · simp only [overwritten]
      rw [if_pos (hchanges (by simpa using hmoves)), hinfo]
      exact List.mem_cons_self ..
    · have hself := agreesOn_registered hb hd hkey hagrees
      rw [hshown, hhidden] at hself
      cases hself
  · refine Or.inl (overwrites_listed hb hd hkey ?_)
    simpa [Tweak.changes, hok] using hthere

end SetAnchor

theorem ensures_tweak (hfits : t.IsPlace → e.isVisible id = false) :
    Ensures (t.request id).run.run e fun _ e' ↦ Overwrites key t e e' ∨
      e.isVisible id = false ∧ id ∈ e.overwritten key t ∧ ¬ e.AgreesOn id ∧
        ∃ y, e'.entries.get? key = some y ∧ y.name = id ∧ y.info.visible := by
  cases t with
  | autoHide hides =>
    have hchanges : ∀ info, (Tweak.autoHide hides).changes e key info = (info.autoHide != hides) :=
      fun _ ↦ rfl
    exact (ensures_changeProperty_overwrites hb hd hkey (·.autoHide != hides)
      ({ · with autoHide := hides }) .setToolWindowAutoHide (fun _ ↦ rfl) (fun _ ↦ rfl) hchanges
      fun _ _ ↦ rfl).mono fun _ _ ↦ Or.inl
  | contentUi ui =>
    have hchanges : ∀ info, (Tweak.contentUi ui).changes e key info = (info.contentUi != ui) :=
      fun _ ↦ rfl
    exact (ensures_changeProperty_overwrites hb hd hkey (·.contentUi != ui)
      ({ · with contentUi := ui }) .setContentUiType (fun _ ↦ rfl) (fun _ ↦ rfl) hchanges
      fun _ _ ↦ rfl).mono fun _ _ ↦ Or.inl
  | geometry g =>
    exact (ensures_movedOrResized_overwrites hb hd hkey).mono fun _ _ ↦ Or.inl
  | place pane anchor order =>
    have hhidden := hfits trivial
    exact (ensures_setAnchor_overwrites hb hd hkey hhidden).mono fun _ _ hq ↦
      hq.imp_right fun hmoved ↦ ⟨hhidden, hmoved⟩

end Tweaks

/-- A change of attributes leaves the screen alone just if entries and layout agree about every
window whose entry it overwrites. -/
theorem keepsScreen_iff {t : Tweak} {desktop : Desktop} {settings : Settings} {keyChord : KeyChord}
    {result : Except EngineError Unit}
    (hcourse : Course (fun _ call ↦ call.BringsOwn) (.new (.new desktop) settings keyChord) e)
    (hkey : e.keyOf? id = some key) (hfits : t.IsPlace → e.isVisible id = false)
    (hrun : (t.request id).run.run e = .ok result e') :
    KeepsScreen e e' ↔ ∀ n ∈ e.overwritten key t, e.isRegistered n → e.AgreesOn n := by
  have hd : Drafted e := hcourse.drafted (drafted_of_empty rfl)
  have hb : e.Belongs := hcourse.belongs
  have hown : (Call.request (t.request id)).BringsOwn := by cases t <;> exact trivial
  have hb' : e'.Belongs := (turn_request hd hrun).belongs hd hown hb
  rcases ensures_tweak hb hd hkey hfits hrun with
    ⟨hadopts, hflags⟩ | ⟨hhidden, hmem, hdisagrees, y, hy, rfl, hv⟩
  · exact hadopts.keeps_iff hb.namesUnique hflags
  · refine iff_of_false (fun hkept ↦ ?_) fun hagrees ↦ hdisagrees (hagrees y.name hmem ?_)
    · have hself := hkept.visible y.name
      rw [hhidden, isVisible_of_keyOf? (hb'.namesUnique.keyOf?_eq hy) hy, hv] at hself
      cases hself
    · rw [isRegistered, hkey]
      rfl

def shownLayout : Layout := .ofList [{ WindowInfo.new "A" .left with visible := true, order := 0 }]

/-- A window that was registered without content is hidden where the layout has it visible. Its
entry is visible once the window hides by itself, and yet it is not in its pane. -/
theorem not_keepsScreen_shownLayout : ∃ e e' key,
    Course (fun _ call ↦ call.BringsOwn) (.new (.new .default) .default defaultKeyChord) e ∧
      e.keyOf? "A" = some key ∧ e.isVisible "A" = false ∧
      (setAutoHide "A" true).run e = .ok (.ok ()) e' ∧ e'.isVisible "A" ∧
      (e'.entry? "A").any (·.attached.isNone) ∧ ¬ KeepsScreen e e' := by
  let hollow : RegisterRequest := { hiddenRequest "A" with hasContent := false }
  have hleads : blank.leadsTo (setInitialLayout shownLayout) fun e ↦
      e.leadsTo (register hollow) fun e ↦ !e.isVisible "A" &&
        (e.layout.get? "A").any (·.visible) && (e.keyOf? "A").any fun key ↦
          e.overwritten key (.autoHide true) = ["A"] &&
            e.leadsTo (setAutoHide "A" true) fun e' ↦ e'.isVisible "A" &&
              (e'.entry? "A").any (·.attached.isNone) := by
    decide +kernel
  obtain ⟨e₁, hinitial, hleads⟩ := exists_run_of_leadsTo hleads
  obtain ⟨e, hregister, hleads⟩ := exists_run_of_leadsTo hleads
  simp only [Bool.and_eq_true, Bool.not_eq_true', Option.any_eq_true, decide_eq_true_eq] at hleads
  obtain ⟨⟨hhidden, info, hinfo, hv⟩, key, hkey, hnames, hleads⟩ := hleads
  obtain ⟨e', hrun, hvisible⟩ := exists_run_of_leadsTo hleads
  rw [Bool.and_eq_true] at hvisible
  have hown : (Call.request (.register hollow)).BringsOwn := by rintro _ ⟨⟩
  have hcourse : Course (fun _ call ↦ call.BringsOwn)
      (.new (.new .default) .default defaultKeyChord) e :=
    (Relation.ReflTransGen.refl.tail ⟨.setInitialLayout shownLayout, _, trivial, hinitial⟩).tail
      ⟨.request (.register hollow), _, hown, hregister⟩
  refine ⟨e, e', key, hcourse, hkey, hhidden, hrun, hvisible.1, hvisible.2, fun hkept ↦ ?_⟩
  have hagrees := (keepsScreen_iff (t := .autoHide true) hcourse hkey False.elim hrun).1 hkept "A"
    (by rw [hnames]; exact List.mem_singleton_self _) (by rw [isRegistered, hkey]; rfl) info hinfo
  rw [hv, hhidden] at hagrees
  cases hagrees

end Engine

end ToolDock

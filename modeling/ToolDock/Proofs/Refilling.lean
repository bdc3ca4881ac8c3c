import ToolDock.Proofs.VisibleSlots

namespace ToolDock.Engine

variable {e e' e₁ : Engine} {key k : SlotKey} {x y : Entry} {info off stored : WindowInfo}
  {dirty : Bool} {slot : Slot} {id : String} {a : Anchor} {ws : List WindowInfo}
  {options : HideOptions}

theorem isWhereEvicted_congr {cur cur' : WindowInfo} (hv : cur'.visible = cur.visible)
    (hberth : cur'.berth = cur.berth) : isWhereEvicted cur' stored = isWhereEvicted cur stored := by
  rw [Bool.eq_iff_iff, isWhereEvicted_iff, isWhereEvicted_iff, hv, hberth]

theorem Coherent.restores_eq (h : Coherent e) : e.restores slot stored =
    (stored.split == slot.split && stored.pane == slot.pane &&
      (e.entry? stored.id).any fun y ↦ y.available && isWhereEvicted y.info stored) := by
  rw [restores, entry?]
  cases hkey : e.keyOf? stored.id with
  | none => rfl
  | some key =>
    obtain ⟨y, hy, -⟩ := get?_of_keyOf? hkey
    obtain ⟨h₁, hl⟩ := h.sound.registeredInfo hy
    have hsame : Coherent (e.registeredInfo key).2 := h₁.coherent
    rw [Option.any_some, Option.bind_some, hy, Option.any_some, entryIs_of_get? hy,
      isWhereEvicted_congr (h₁.visible_of_located hl) (hsame.berth_eq hl).1]

/-- During a search placements are taken off the stack of an anchor, and windows that were looked at
join the layout. -/
structure Searches (a : Anchor) (e e₁ : Engine) : Prop where
  coherent : Coherent e₁
  entries : e₁.entries = e.entries
  screen : e₁.layout.screen = e.layout.screen
  settings : e₁.settings = e.settings
  sideStack : ∀ ws, e₁.sideStack.set a ws = e.sideStack.set a ws

theorem Searches.restores_eq (hs : Searches a e e₁) (h : Coherent e) :
    e₁.restores slot stored = e.restores slot stored := by
  rw [h.restores_eq, hs.coherent.restores_eq, entry?, entry?, keyOf?, keyOf?, hs.entries]

theorem Searches.pop (hs : Searches a e e₁) (ws : List WindowInfo) :
    Searches a e (e₁.withStacks (e₁.sideStack.set a ws)) where
  coherent := hs.coherent.congr rfl rfl
  entries := hs.entries
  screen := hs.screen
  settings := hs.settings
  sideStack ws' := PerAnchor.set_set.trans (hs.sideStack ws')

theorem Searches.takeInfo (hs : Searches a e e₁) (hx : e₁.entries.get? key = some x) :
    Searches a e (e₁.registeredInfo key).2 where
  coherent := (hs.coherent.sound.registeredInfo hx).1.coherent
  entries := entries_registeredInfo.trans hs.entries
  screen := (hs.coherent.screen_registeredInfo hx).trans hs.screen
  settings := settings_registeredInfo.trans hs.settings
  sideStack ws := by
    rw [sideStack_registeredInfo]
    exact hs.sideStack ws

/-- What the screen and the stacks are like once the stack of an anchor was searched: nobody came
back and the stack is empty, or the window of the first placement is where that says, and remembered
no more. -/
def Refilled (a : Anchor) (e e' : Engine) : List WindowInfo → Prop
  | [] => e'.layout.screen = e.layout.screen ∧ e'.sideStack = e.sideStack.set a []
  | stored :: rest =>
    (∀ other, e'.layout.screen other = if other = stored.id then some stored.slot
      else if stored.windowType.isInternal ∧ other ∈ e.dockedAt stored.slot then none
      else e.layout.screen other) ∧
    (∀ b, ∀ w ∈ e'.sideStack.get b, w.id ≠ stored.id) ∧
    (e.dockedAt stored.slot = [] →
      e'.sideStack = SideStack.remove (e.sideStack.set a rest) stored.id)

theorem Searches.ensures_showWindow (hs : Searches a e e₁) (henabled : e.settings.stackEnabled)
    (hl : Located e₁ key x info) (hid : x.name = stored.id) (ha : x.available)
    (hwhere : isWhereEvicted info stored) (hrest : e₁.sideStack.get a = ws) :
    Ensures (showWindow key info dirty) e₁ fun res e' ↦
      res = true ∧ Refilled a e e' (stored :: ws) := by
  obtain ⟨hv, hberth⟩ := isWhereEvicted_iff.1 hwhere
  have hslot : info.slot = stored.slot := congrArg (·.1) hberth
  have htype : info.windowType = stored.windowType := congrArg (·.2.1) hberth
  have hdocked : ∀ s, e₁.dockedAt s = e.dockedAt s := fun s ↦ by
    rw [dockedAt, dockedAt, hs.entries]
  refine (hs.coherent.ensures_screen hl
    ((hs.coherent.sound.visible_of_located hl).symm.trans hv) ha).mono ?_
  intro res e' hq
  rcases hq with ⟨hres, -, hscreen, hside⟩
  rw [forgetting, hs.settings, if_pos henabled, hid] at hside
  refine ⟨hres, fun other ↦ ?_, fun b w hw ↦ ?_, fun hfree ↦ ?_⟩
  · rw [hscreen, hid, hslot, htype, hdocked, hs.screen]
  · rw [hside, SideStack.get_remove, List.mem_filter, bne_iff_ne] at hw
    exact hw.2
  · have hfree₁ : e₁.dockedAt info.slot = [] := by rw [hslot, hdocked, hfree]
    rw [hside, evictFor_eq_self fun _ ↦ hfree₁, ← hs.sideStack, ← hrest,
      PerAnchor.set_get]

theorem Searches.ensures_restoreFrom_cons {Q : Unit → Engine → Prop} (hs : Searches a e e₁)
    (h : Coherent e)
    (hskip : e.restores slot stored = false → ∀ e₂, Searches a e e₂ → e₂.sideStack.get a = ws →
      Ensures (restoreFrom a slot dirty ws) e₂ Q)
    (hfound : e.restores slot stored → ∀ key y info e₂, Searches a e e₂ → Located e₂ key y info →
      y.name = stored.id → y.available → isWhereEvicted info stored → e₂.sideStack.get a = ws →
      Ensures (showWindow key info dirty) e₂ fun res e' ↦ res = true ∧ Q () e') :
    Ensures (restoreFrom a slot dirty (stored :: ws)) e₁ Q := by
  have hpop := hs.pop ws
  have hgot : (e₁.withStacks (e₁.sideStack.set a ws)).sideStack.get a = ws :=
    (PerAnchor.get_set ..).trans (if_pos rfl)
  generalize hpopped : e₁.withStacks (e₁.sideStack.set a ws) = popped at hpop hgot
  have hpopped : ({ e₁ with sideStack := e₁.sideStack.set a ws } : Engine) = popped := hpopped
  have hrestores : popped.restores slot stored = e.restores slot stored := hpop.restores_eq h
  rw [restores] at hrestores
  simp only [restoreFrom, ensures_bind, ensures_modify, ensures_ite, ensures_get, hpopped]
  refine ⟨fun helse ↦ hskip (by grind) _ hpop hgot, fun hplace ↦ ?_⟩
  have hplace : (stored.split == slot.split && stored.pane == slot.pane) = true := by grind
  rw [hplace, Bool.true_and] at hrestores
  cases hkey : popped.keyOf? stored.id with
  | none =>
    rw [hkey] at hrestores
    exact hskip hrestores.symm _ hpop hgot
  | some key =>
    obtain ⟨y, hy, hname⟩ := get?_of_keyOf? hkey
    rw [hkey, Option.any_some, entryIs_of_get? hy] at hrestores
    have htakes := hpop.takeInfo hy
    have hgot' : (popped.registeredInfo key).2.sideStack.get a = ws := by
      rw [sideStack_registeredInfo, hgot]
    simp only [ensures_bind, ensures_get, ensures_ite, ensures_takeInfo, ensures_pure,
      entryIs_of_get? hy]
    refine ⟨fun hna ↦ hskip (by grind) _ hpop hgot,
      fun ha ↦ ⟨fun hnot ↦ hskip (by grind) _ htakes hgot', fun hwhere ↦ ?_⟩⟩
    have ha : y.available = true := by simpa using ha
    have hwhere : isWhereEvicted (popped.registeredInfo key).1 stored = true := by
      simpa using hwhere
    rw [ha, hwhere] at hrestores
    refine (hfound hrestores.symm key y _ _ htakes (hpop.coherent.sound.registeredInfo hy).2 hname
      ha hwhere hgot').mono ?_
    intro res e' hq
    exact ⟨fun _ ↦ hq.2, fun hno ↦ absurd hq.1 hno⟩

theorem Coherent.ensures_restoreFrom (h : Coherent e) (henabled : e.settings.stackEnabled) :
    Ensures (restoreFrom a slot dirty (e.sideStack.get a)) e fun _ e' ↦
      Refilled a e e' ((e.sideStack.get a).dropWhile (!e.restores slot ·)) := by
  have hloop : ∀ ws e₁, Searches a e e₁ → e₁.sideStack.get a = ws →
      Ensures (restoreFrom a slot dirty ws) e₁ fun _ e' ↦
        Refilled a e e' (ws.dropWhile (!e.restores slot ·)) := by
    -- by induction on what is left of the stack
    intro ws
    induction ws with
    | nil =>
      intro e₁ hs hrest
      refine ensures_pure.2 ⟨hs.screen, ?_⟩
      rw [← hs.sideStack, ← hrest, PerAnchor.set_get]
    | cons stored rest ih =>
      intro e₁ hs _
      refine hs.ensures_restoreFrom_cons h (fun hno e₂ hs₂ hrest ↦ ?_)
        fun hyes key y info e₂ hs₂ hl hname ha hwhere hrest ↦ ?_
      · rw [List.dropWhile_cons_of_pos (by rw [hno]; rfl)]
        exact ih e₂ hs₂ hrest
      · rw [List.dropWhile_cons_of_neg (by rw [hyes]; exact Bool.false_ne_true)]
        exact hs₂.ensures_showWindow henabled hl hname ha hwhere hrest
  exact hloop _ e ⟨h, rfl, rfl, rfl, fun _ ↦ rfl⟩ rfl

def HideOptions.mutation (options : HideOptions) : HideMutation :=
  if options.removeFromStripe then .removeFromStripe else .none

/-- The placement that a hidden window is left with. -/
def HideOptions.leaves (options : HideOptions) (info : WindowInfo) : WindowInfo :=
  mutated options.mutation { info with visible := false }

theorem berth_mutated (options : HideOptions) (info : WindowInfo) :
    (mutated options.mutation info).berth =
      (if options.removeFromStripe then ⟨defaultPane, info.anchor, info.split⟩ else info.slot,
        info.windowType, info.autoHide) := by
  rw [HideOptions.mutation]
  cases options.removeFromStripe with
  | false => rfl
  | true =>
    rw [if_pos rfl, if_pos rfl, mutated, offStripe]
    split
    case isTrue hpane => rw [← hpane]; rfl
    case isFalse => rfl

theorem HideOptions.slot_leaves (options : HideOptions) (info : WindowInfo) :
    (options.leaves info).slot =
      if options.removeFromStripe then ⟨defaultPane, info.anchor, info.split⟩ else info.slot :=
  congrArg (·.1) (berth_mutated options { info with visible := false })

/-- Whether the window of an evicted placement may come back once one was hidden and left at
`off`. -/
def regains (e : Engine) (off stored : WindowInfo) : Bool :=
  stored.split == off.split && stored.pane == off.pane &&
    if stored.id = off.id then isWhereEvicted off stored
    else (e.entry? stored.id).any fun y ↦ y.available && isWhereEvicted y.info stored

theorem Coherent.entry?_eq_some (h : Coherent e) :
    e.entry? id = some x ↔ ∃ k, e.entries.get? k = some x ∧ x.name = id :=
  h.namesUnique.entry?_eq_some

structure Departs (id : String) (e e₁ : Engine) : Prop where
  coherent : Coherent e₁
  screen : ∀ other, e₁.layout.screen other = if other = id then none else e.layout.screen other
  sideStack : e₁.sideStack = e.sideStack
  settings : e₁.settings = e.settings
  docked : ∀ slot other, other ∈ e₁.dockedAt slot ↔ other ∈ e.dockedAt slot ∧ other ≠ id

theorem Coherent.departs (dirty : Bool) (mutation : HideMutation) (h : Coherent e)
    (hl : Located e key x info) : Departs x.name e (e.hidden key info dirty mutation) := by
  obtain ⟨off, saved, hoff, -, hex⟩ :=
    exchanged_hidden (D := False) info dirty mutation hl.entry (nomatch ·)
  have hv : off.visible = false := by rw [hoff, WindowInfo.visible_withState, visible_mutated _]
  have hid := h.sound.placement_id hl
  refine ⟨((h.sound.mono (Set.subset_insert key ∅) subset_rfl).hidden dirty mutation hl.entry
    hid).coherent, fun other ↦ ?_, hex.sideStack, hex.settings, fun slot other ↦ ?_⟩
  · rw [screen_hidden info dirty mutation hl.entry, hid]
  · rw [mem_dockedAt, mem_dockedAt]
    constructor
    · rintro ⟨k, y, hy, ho, hslot, rfl⟩
      rw [hex.get?] at hy
      split at hy
      case isTrue =>
        cases hy
        rw [WindowInfo.not_occupiesSlot hv] at ho
        cases ho
      case isFalse hne =>
        refine ⟨⟨k, y, hy, ho, hslot, rfl⟩, fun heq ↦ hne (h.key_eq hy hl.entry ?_)⟩
        exact heq.trans (h.name_eq hl.entry).symm
    · rintro ⟨⟨k, y, hy, ho, hslot, rfl⟩, hne⟩
      have hk : k ≠ key := by
        rintro rfl
        cases hl.entry.symm.trans hy
        exact hne (h.name_eq hy)
      exact ⟨k, y, (hex.get?_other hk).trans hy, ho, hslot, rfl⟩

theorem Coherent.berth_hidden (options : HideOptions) (saved : WindowInfo) (h : Coherent e)
    (hl : Located e key x info) :
    ((mutated options.mutation { info with visible := false, activeOnStart := false }).withState
      saved).berth = (options.leaves x.info).berth := by
  change (mutated options.mutation _).berth = (mutated options.mutation _).berth
  rw [berth_mutated, berth_mutated]
  exact congrArg (fun b : Slot × WindowType × Bool ↦
    (if options.removeFromStripe then ⟨defaultPane, b.1.anchor, b.1.split⟩ else b.1, b.2.1, b.2.2))
    (h.berth_eq hl).1

theorem Coherent.restores_hidden (dirty : Bool) (options : HideOptions) (h : Coherent e)
    (hl : Located e key x info) (hv : x.info.visible) :
    (e.hidden key info dirty options.mutation).restores (options.leaves x.info).slot stored =
      e.regains (options.leaves x.info) stored := by
  obtain ⟨off, saved, hoff, -, hex⟩ :=
    exchanged_hidden (D := False) info dirty options.mutation hl.entry (nomatch ·)
  have hdeparts := h.departs dirty options.mutation hl
  have hid : (options.leaves x.info).id = x.name := (id_mutated _).trans (h.info_id_eq hl.entry)
  have hstanding := standing_undecorated options.mutation (x := x)
  have hname : (afterMutation options.mutation x).undecorated.name = x.name :=
    congrArg Standing.name hstanding
  rw [hdeparts.coherent.restores_eq, regains, hid]
  congr 1
  -- only the entry of the hidden window has changed
  split
  case isTrue heq =>
    have hself := hdeparts.coherent.entry?_eq hex.get?_self
    have hready : (afterMutation options.mutation x).undecorated.available = true :=
      (congrArg Standing.available hstanding).trans
        (h.ready (Set.notMem_empty key) (standing?_of_get? hl.entry) hv).1
    have hvisible : off.visible = (options.leaves x.info).visible := by
      rw [hoff, WindowInfo.visible_withState, visible_mutated _, HideOptions.leaves,
        visible_mutated _]
    have hberth : off.berth = (options.leaves x.info).berth :=
      hoff ▸ h.berth_hidden options saved hl
    rw [heq, ← hname, hself, Option.any_some, hready, Bool.true_and,
      isWhereEvicted_congr hvisible hberth]
  case isFalse hne =>
    congr 1
    refine Option.ext fun y ↦ ?_
    rw [hdeparts.coherent.entry?_eq_some, h.entry?_eq_some]
    refine exists_congr fun k ↦ and_congr_left fun hy ↦ ?_
    rw [hex.get?]
    split
    case isTrue hk =>
      subst hk
      constructor
      · rintro ⟨⟩
        exact absurd (hy.symm.trans hname) hne
      · intro hy'
        cases hl.entry.symm.trans hy'
        exact absurd hy.symm hne
    case isFalse => exact Iff.rfl

theorem HideOptions.anchor_leaves (options : HideOptions) (info : WindowInfo) :
    (options.leaves info).anchor = info.anchor := by
  have hslot := congrArg Slot.anchor (options.slot_leaves info)
  refine Eq.trans hslot ?_
  split <;> rfl

theorem Coherent.ensures_hideWindow (options : HideOptions) (h : Coherent e)
    (hl : Located e key x info) (hv : x.info.visible) :
    Ensures (hideWindow key info dirty false options.mutation) e fun _ e' ↦ ∃ e₁,
      Departs x.name e e₁ ∧ if e.settings.stackEnabled && x.info.windowType.isInternal then
        Refilled x.info.anchor e₁ e' ((e.sideStack.get x.info.anchor).dropWhile
          (!e.regains (options.leaves x.info) ·))
      else e' = e₁ := by
  obtain ⟨off, saved, hoff, hsaved, -⟩ :=
    exchanged_hidden (D := False) info dirty options.mutation hl.entry (nomatch ·)
  have hdeparts := h.departs dirty options.mutation hl
  have hberth : off.berth = (options.leaves x.info).berth := hoff ▸ h.berth_hidden options saved hl
  have hslot : off.slot = (options.leaves x.info).slot := congrArg (·.1) hberth
  have hanchor : off.anchor = x.info.anchor :=
    (congrArg Slot.anchor hslot).trans (options.anchor_leaves x.info)
  have htype : off.windowType = x.info.windowType :=
    (congrArg (·.2.1) hberth).trans windowType_mutated
  have hback : (e.hidden key info dirty options.mutation).bringsBack info off false =
      (e.settings.stackEnabled && x.info.windowType.isInternal) := by
    rw [bringsBack, h.sound.visible_of_located hl, hv, hdeparts.settings, htype]
    rfl
  have hclear : e.clearFor key info dirty false = e := rfl
  refine Engine.ensures_hideWindow hclear hsaved (fun hyes ↦ ?_) fun hno ↦ ?_
  · rw [hback] at hyes
    simp only [restoreEvicted, ensures_bind, ensures_get]
    rw [hanchor, hslot]
    refine (hdeparts.coherent.ensures_restoreFrom ?_).mono fun _ e' hrefilled ↦
      ⟨_, hdeparts, ?_⟩
    · rw [hdeparts.settings]
      exact (Bool.and_eq_true_iff.1 hyes).1
    · have hrestores : (e.hidden key info dirty options.mutation).restores
          (options.leaves x.info).slot = e.regains (options.leaves x.info) :=
        funext fun _ ↦ h.restores_hidden dirty options hl hv
      rw [if_pos hyes]
      rwa [hdeparts.sideStack, hrestores] at hrefilled
  · rw [hback] at hno
    exact ⟨_, hdeparts, by rw [if_neg hno]⟩

theorem ensures_hideWith {Q : Engine → Prop} (hl : Located e key x info)
    (hkey : e.keyOf? id = some key) (hv : info.visible)
    (h : Ensures (hideWindow key info false options.hideSide options.mutation) e fun _ e' ↦
      ∀ e'', e''.entries = e'.entries → e''.layout = e'.layout → e''.sideStack = e'.sideStack →
        e''.settings = e'.settings → Q e'') :
    Ensures (hideWith id options).run e fun _ e' ↦ Q e' := by
  have hno : (e.registeredInfo key).1.visible ≠ false := by
    rw [hl.registeredInfo_eq]
    exact ne_false_of_eq_true hv
  refine ensures_hideWith_cases hkey (fun hn ↦ absurd hn hno) (fun hn ↦ absurd hn hno) fun _ ↦ ?_
  rw [hl.registeredInfo_eq]
  exact h

theorem Refilled.congr {e'' : Engine} (h : Refilled a e e' ws) (hlayout : e''.layout = e'.layout)
    (hside : e''.sideStack = e'.sideStack) : Refilled a e e'' ws := by
  cases ws with
  | nil => exact ⟨hlayout ▸ h.1, hside.trans h.2⟩
  | cons stored rest =>
    obtain ⟨hscreen, hforgot, hrest⟩ := h
    exact ⟨fun other ↦ hlayout ▸ hscreen other, hside ▸ hforgot,
      fun hfree ↦ hside.trans (hrest hfree)⟩

theorem Coherent.exists_located (h : Coherent e) (hx : e.windowInfo? id = some info)
    (hv : info.visible) :
    ∃ key x placed, Located e key x placed ∧ x.name = id ∧ x.info = info := by
  obtain ⟨x, hentry, rfl⟩ := Option.map_eq_some_iff.1 hx
  obtain ⟨key, hx, hname⟩ := h.entry?_eq_some.1 hentry
  obtain ⟨placed, hplaced⟩ := Layout.contains_iff.1
    (h.ready (Set.notMem_empty key) (standing?_of_get? hx) hv).2
  exact ⟨key, x, placed, ⟨hx, hplaced⟩, hname, rfl⟩

theorem Coherent.ensures_hideWith (h : Coherent e) (hx : e.windowInfo? id = some info)
    (hv : info.visible) (hside : options.hideSide = false) :
    Ensures (hideWith id options).run e fun _ e' ↦ ∃ e₁, Departs id e e₁ ∧
      if e.settings.stackEnabled && info.windowType.isInternal then
        Refilled info.anchor e₁ e' ((e.sideStack.get info.anchor).dropWhile
          (!e.regains (options.leaves info) ·))
      else e'.layout = e₁.layout ∧ e'.sideStack = e₁.sideStack := by
  obtain ⟨key, x, placed, hl, rfl, rfl⟩ := h.exists_located hx hv
  refine Engine.ensures_hideWith hl (h.keyOf?_eq hl.entry)
    ((h.sound.visible_of_located hl).trans hv) ?_
  rw [hside]
  refine (h.ensures_hideWindow options hl hv).mono fun _ e' hq e'' _ hlayout hside _ ↦ ?_
  obtain ⟨e₁, hdeparts, hq⟩ := hq
  refine ⟨e₁, hdeparts, ?_⟩
  split at hq
  case isTrue hyes =>
    rw [if_pos hyes]
    exact hq.congr hlayout hside
  case isFalse hno =>
    rw [if_neg hno]
    exact ⟨hq ▸ hlayout, hq ▸ hside⟩

end ToolDock.Engine

import ToolDock.Proofs.SteppedShowing

namespace ToolDock

theorem WindowInfo.Resembles.place_eq {info cur : WindowInfo} (h : info.Resembles cur) :
    info.place = cur.place :=
  Prod.ext (WindowInfo.slot_of_core h.core) h.order

namespace Engine

variable {may : Layout → Layout → Prop} {e e' e'' : Engine} {key : SlotKey} {x : Entry}
  {info cur : WindowInfo} {split available showButton : Bool} {id pane : String} {anchor : Anchor}
  {order : Int32} {type : WindowType}

/-- An engine whose windows the layout knows, but for drafts, becomes another in steps. -/
def Advances (may : Layout → Layout → Prop) (e e' : Engine) : Prop := Drafted e ∧ Steps may e e'

theorem Idles.rests (h : Idles e e') : Rests e e' where
  entries := h.entries
  windows := h.windows
  settings := h.settings
  buttons := .of_objects h.objects
  transient := h.transient
  persistent := h.persistent
  sideStack a := by
    rw [h.sideStack]
    exact List.Subset.refl _

theorem Steps.idle (h : Steps may e e') (hi : Idles e' e'') : Steps may e e'' :=
  h.trans (steps_rest hi.rests)

theorem Located.places (hl : Located e key x cur) (hid : info.id = cur.id)
    (hplace : info.place = cur.place) : e.Lists key info.id ∧
      e.layout.place? info.id = some info.place := by
  rw [hid, hplace]
  exact ⟨hl.lists, hl.place?⟩

theorem toggleRule_advances (hlen : Layout.Lenient may) : ToggleRule (Advances may) where
  settled h := ⟨h.1.steps h.2, .refl⟩
  trans h h' := ⟨h.1, h.2.trans h'.2⟩
  idle h hi := ⟨h.1, steps_rest hi.rests⟩
  taken h hx := ⟨⟨h.1, steps_registeredInfo hlen h.1 hx⟩, located_registeredInfo h.1 hx⟩
  aside h hl := (steps_hideWindow true false hlen h.1 hl.lists
    (hlen.mayHide .none hl.place? (by decide))).mono fun _ _ hs ↦ ⟨h.1, hs⟩
  reshown {e key x info shown} dirty h hl hid hslot horder := by
    obtain ⟨hlists, hplace⟩ := hl.places hid (Prod.ext hslot horder)
    exact (steps_showWindow dirty hlen.toStable h.1 hlists (hlen.mayShow hplace)).mono
      fun _ _ hs ↦ ⟨h.1, hs⟩

theorem steps_relabelEntry (hx : e.entries.get? key = some x) (hc : e.layout.contains x.id)
    (hid : info.id = x.id ∨ info.id = x.name) : Steps may e (e.relabelEntry info key) := by
  have hbutton : Steps may e (e.refreshStripeButton key info) :=
    steps_refreshStripeButton hx hc hid
  obtain ⟨x', hx', hnames⟩ := hbutton.keepsNames hx
  obtain ⟨hname, hid'⟩ := Prod.mk.inj hnames
  refine hbutton.tail (.alter hx' (hid' ▸ hbutton.contains hc) ⟨rfl, rfl, Or.inr ?_⟩ rfl)
  rwa [hname, hid']

theorem steps_relabelSibling (hd : Drafted e) (hc : e.layout.contains info.id) :
    Steps may e (e.relabelSibling info) := by
  unfold relabelSibling
  cases hk : e.keyOf? info.id with
  | none => exact .refl
  | some k =>
    obtain ⟨y, hy, hname⟩ := get?_of_keyOf? hk
    refine steps_relabelEntry hy ?_ (Or.inr hname.symm)
    refine (hd hy).elim (fun h ↦ h) fun hdraft ↦ ?_
    rwa [hdraft.ids.1, hname]

theorem steps_unlisted (hperm : Layout.Permissive may) (hl : Located e key x info) :
    Steps may e ((e.removeStripeButton key).commit key (offStripe info)) := by
  have hremoved : Steps may e (e.removeStripeButton key) := steps_removeStripeButton hl.lists
  have hid : (offStripe info).id = info.id := id_mutated .removeFromStripe
  refine hremoved.trans (steps_commit _ (hid ▸ hl.lists.steps hremoved) ?_)
  rw [layout_removeStripeButton]
  unfold offStripe
  split
  · exact hperm.keep hl.place?
  · exact hperm.drop rfl

theorem steps_moved {changed : List WindowInfo} {l : Layout} (hperm : Layout.Permissive may)
    (hl : Located e key x info)
    (hset : Layout.setAnchor x.id pane anchor order (e.layout.put { info with split := split }) =
      .ok changed l) : Steps may e { e with layout := l } := by
  have hput : Layout.Moves x.id { info with split := split } e.layout
      (e.layout.put { info with split := split }) := by
    have hmoves : ∀ w : WindowInfo, Layout.Moves w.id w e.layout (e.layout.put w) :=
      fun _ ↦ Layout.moves_put
    exact hl.id_eq ▸ hmoves { info with split := split }
  have hstored : Located (e.storeInfo { info with split := split }) key x
      { info with split := split } := hl.storeInfo rfl
  have hmoves := hput.trans (Layout.setAnchor_cases hstored.placement hset).1
  have hset' : Layout.setAnchor info.id pane anchor order
      (e.layout.put { info with split := split }) = .ok changed l :=
    (congrArg (Layout.setAnchor · pane anchor order _) hl.id_eq).trans hset
  have hmay : may e.layout l := hperm.move info split hl.get? hset'
  exact .single (.place hl.entry (Or.inl rfl) hl.contains hmoves hmay)

theorem fullRule_advances (hperm : Layout.Permissive may) : FullRule (Advances may) where
  __ := toggleRule_advances hperm.toLenient
  pushed h hx := by
    obtain ⟨y, hy, -⟩ := h.2.keepsNames hx
    exact ⟨h.1, h.2.tail (.activate hy)⟩
  weighed _ h hl := ⟨h.1, steps_storeInfo hl.lists (hperm.keep hl.place?)⟩
  committed {e key x cur info} h hl hr := by
    obtain ⟨hlists, hplace⟩ := hl.places hr.id hr.place_eq
    exact ⟨h.1, steps_commit info hlists (hperm.keep hplace)⟩
  hidden h hl := ⟨h.1, hl.steps_hidden false hperm.toStable⟩
  unlisted h hl _ := ⟨h.1, steps_unlisted hperm hl⟩
  shown active h hl _ := (toggleRule_advances hperm.toLenient).reshown false h hl rfl rfl rfl
  hides dirty hideSide h hl _ := (steps_hideWindow dirty hideSide hperm.toLenient h.1 hl.lists
    (hperm.mayHide _ hl.place?)).mono fun _ _ hs ↦ ⟨h.1, hs⟩
  kept h hx := (h.2.keepsNames hx).imp fun _ hy ↦ hy.1
  bared h hl := ⟨h.1, steps_removeInternalDecorator hl.lists⟩
  moved h hl hset := ⟨h.1, steps_moved hperm hl hset⟩
  relabelled h hl := ⟨h.1, steps_relabelEntry hl.entry hl.contains (Or.inl hl.id_eq)⟩
  sibling h hw := ⟨h.1, steps_relabelSibling h.1 (Layout.contains_of_get? hw)⟩

theorem advances_withdrawButton (hlen : Layout.Lenient may) (h : Advances may e e)
    (hl : Located e key x cur) (hid : info.id = cur.id) (hplace : info.place = cur.place) :
    Ensures (withdrawButton key info) e fun _ e' ↦ Advances may e e' := by
  obtain ⟨hlists, hstored⟩ := hl.places hid hplace
  simp only [withdrawButton, ensures_bind, ensures_get, ensures_ite, ensures_modify]
  refine ⟨fun _ ↦ ?_, fun _ ↦ ⟨h.1, ?_⟩⟩
  · exact (steps_hideWindow false false hlen h.1 hlists (hlen.mayHide .removeStripeButton hstored
      (by decide))).mono fun _ _ hs ↦ ⟨h.1, hs.idle .validatePane⟩
  · have hremoved : Steps may e (e.removeStripeButton key) := steps_removeStripeButton hlists
    refine hremoved.trans (steps_commit info (hlists.steps hremoved) (hlen.keep ?_))
    rwa [layout_removeStripeButton]

theorem steps_labelled (hlen : Layout.Lenient may) (hl : Located e key x cur)
    (hid : info.id = cur.id) (hplace : info.place = cur.place) :
    Steps may e (((e.storeInfo info).ensureStripeButton key info).applyToEntry key info) := by
  obtain ⟨hlists, hput⟩ := hl.places hid hplace
  have hstored : Steps may e (e.storeInfo info) := steps_storeInfo hlists (hlen.keep hput)
  have hbutton : Steps may e ((e.storeInfo info).ensureStripeButton key info) :=
    hstored.trans (steps_ensureStripeButton info (hlists.steps hstored))
  exact hbutton.trans (steps_applyToEntry (hlists.steps hbutton))

theorem advances_setShowStripeButton (hperm : Layout.Permissive may) :
    Obeys (Advances may) (setShowStripeButton id showButton) := fun _ h ↦ by
  refine (fullRule_advances hperm).setShowStripeButton h (fun key x _ _ _ _ e₁ info h₁ hl _ ↦ ?_)
    fun e₁ key x info h₁ hl ↦ ?_
  · exact ⟨h₁.1, steps_labelled hperm.toLenient hl rfl rfl⟩
  · exact advances_withdrawButton hperm.toLenient h₁ hl rfl rfl

theorem registeredInfo_setAvailable {available : Bool} :
    (e.setAvailable key available).registeredInfo key =
      ((e.registeredInfo key).1, (e.registeredInfo key).2.setAvailable key available) := by
  unfold registeredInfo setAvailable
  rw [get?_updateEntry, if_pos rfl]
  cases e.entries.get? key with
  | none => rfl
  | some x =>
    simp only [Option.map_some, layout_updateEntry]
    cases e.layout.get? x.id with
    | none => rfl
    | some info => rfl

theorem advances_setAvailable {e₁ : Engine} (hlen : Layout.Lenient may) (hd : Drafted e)
    (hx : e.entries.get? key = some x)
    (htaken : (e.setAvailable key available).registeredInfo key = (info, e₁)) :
    Advances may e e₁ ∧ Located e₁ key { x with available := available } info := by
  have hsteps : Steps may e (e.registeredInfo key).2 := steps_registeredInfo hlen hd hx
  have hl := located_registeredInfo hd hx
  have hset : Steps may (e.registeredInfo key).2
      ((e.registeredInfo key).2.setAvailable key available) :=
    steps_updateEntry hl.lists fun _ _ ↦ ⟨⟨rfl, rfl, Or.inl rfl⟩, rfl⟩
  rw [registeredInfo_setAvailable] at htaken
  cases htaken
  refine ⟨⟨hd, hsteps.trans hset⟩, ?_, hl.placement⟩
  exact (get?_updateEntry_of_get? hl.entry key).trans (if_pos rfl)

theorem advances_makeAvailable (hperm : Layout.Permissive may) :
    Obeys (Advances may) (makeAvailable id) := by
  have hk := fullRule_advances hperm
  refine hk.makeAvailable fun e key x h hx _ info e₁ e₂ htaken he₂ ↦ ?_
  obtain ⟨h₁, hl⟩ := advances_setAvailable hperm.toLenient h.1 hx htaken
  subst he₂
  split
  · have hbutton : Advances may e₁ (e₁.ensureStripeButton key info) :=
      ⟨(hk.settled h₁).1, steps_ensureStripeButton info hl.lists⟩
    obtain ⟨b, -, hex⟩ := exchanged_ensureStripeButton (D := False) info hl.entry False.elim
    exact ⟨hk.trans h₁ hbutton, fun _ ↦ hk.andThen (hk.trans h₁ hbutton) fun h₂ ↦
      hk.reshown false h₂ (hl.exchanged hex rfl) rfl rfl rfl⟩
  · exact ⟨h₁, fun _ ↦ hk.andThen h₁ fun h₁ ↦ hk.reshown false h₁ hl rfl rfl rfl⟩

theorem advances_makeUnavailable (hperm : Layout.Permissive may) :
    Obeys (Advances may) (makeUnavailable id) := by
  have hk := fullRule_advances hperm
  refine hk.makeUnavailable fun e key x h hx _ info e₁ htaken ↦ ?_
  obtain ⟨h₁, hl⟩ := advances_setAvailable hperm.toLenient h.1 hx htaken
  exact hk.andThen h₁ fun h₁ ↦ (steps_hideWindow false false hperm.toLenient h₁.1 hl.lists
    (hperm.mayHide .removeStripeButton hl.place?)).mono fun _ _ hs ↦ ⟨h₁.1, hs⟩

theorem advances_retypeVisible (hperm : Layout.Permissive may) (h : Advances may e e)
    (hl : Located e key x info) :
    Ensures (retypeVisible key id info type) e fun _ e' ↦ Advances may e e' := by
  obtain ⟨⟨saved, hsaved⟩, hex⟩ := exchanged_removeDecorators (D := False) info
    info.windowType.isInternal hl.entry False.elim
  have hbare : Steps may e (e.removeDecorators key info info.windowType.isInternal).2 :=
    steps_removeDecorators hl.lists
  refine (fullRule_advances hperm).retypeVisible hsaved fun e₂ he₂ ↦ ?_
  have hlayout := hex.layout
  generalize (e.removeDecorators key info info.windowType.isInternal).2 = e₁
    at hbare hlayout he₂
  have hid : ((info.withState saved).withType type).id = info.id := rfl
  have hplace : ((info.withState saved).withType type).place = info.place := rfl
  have htype : ((info.withState saved).withType type).windowType = type := rfl
  generalize (info.withState saved).withType type = typed at hid hplace htype he₂ ⊢
  have h₂ : Steps may e₁ e₂ ∧ e₁.layout.SamePlaces e₂.layout := by
    obtain ⟨-, rfl⟩ | ⟨hinternal, rfl⟩ := he₂
    · exact ⟨.refl, fun _ ↦ rfl⟩
    · have hevict : e₁.evictSlot key typed info.windowType.isInternal =
          e₁.evictFor key typed info.windowType.isInternal := by
        rw [evictFor, htype, if_pos hinternal]
      rw [hevict]
      exact ⟨steps_evictFor hperm.toStable (h.1.steps hbare),
        samePlaces_evictFor key typed _ (h.1.steps hbare)⟩
  have hlists : e₁.Lists key typed.id := hid ▸ hl.lists.steps hbare
  have hcommit : Steps may e₂ (e₂.commit key typed) := by
    refine steps_commit typed (hlists.steps h₂.1) (hperm.keep ?_)
    rw [h₂.2, hlayout, hid, hplace]
    exact hl.place?
  have h₃ := h₂.1.trans hcommit
  exact (Steps.then (hbare.trans h₃) (steps_addDecorator (hlists.steps h₃))).mono fun _ _ hs ↦
    ⟨h.1, hs⟩

theorem advances_setType (hperm : Layout.Permissive may) :
    Obeys (Advances may) (setType id type) := by
  refine (fullRule_advances hperm).setType (fun _ _ _ _ h hl _ ↦ advances_retypeVisible hperm h hl)
    fun e key x info h hl _ ↦ ⟨h.1, ?_⟩
  exact steps_commit (info.withType type) hl.lists (hperm.keep hl.place?)

theorem steps_closeProject (hd : Drafted e) : Steps may e e.closeProject := by
  refine steps_foldl_keys steps_removeExternalDecorators hd fun k hk ↦ ?_
  obtain ⟨y, hy, hexternal⟩ := mem_keysWhere.1 hk
  refine ⟨y.id, y, hy, rfl, (hd hy).resolve_right ?_⟩
  rintro ⟨r, rfl⟩
  cases hexternal

/-- A request that brings or takes no window is done in steps. -/
theorem steps_run {request : Request} {result : Except EngineError Unit}
    (hperm : Layout.Permissive may) (hd : Drafted e)
    (hsplit : ∀ id split, request = .setSideTool id split → Layout.Resplits may split)
    (hregister : ∀ r, request ≠ .register r) (hunregister : ∀ id, request ≠ .unregister id)
    (hrun : request.run.run e = .ok result e') : Steps may e e' := by
  have hk := fullRule_advances hperm
  have h : Advances may e e := ⟨hd, .refl⟩
  suffices hsteps : Ensures request.run.run e fun _ e' ↦ Advances may e e' from (hsteps hrun).2
  cases request with
  | register r => exact absurd rfl (hregister r)
  | unregister id => exact absurd rfl (hunregister id)
  | reveal id => exact hk.reveal h
  | hide id => exact hk.hideWith h
  | hideWith id options => exact hk.hideWith h
  | activate id autoFocus => exact hk.activate h
  | deactivate id => exact hk.deactivate h
  | toolWindowFocused id => exact hk.toolWindowFocused h
  | focusMovedTo focused => exact ensures_run_lift.2 (hk.focusMovedTo h)
  | focusByDefault => exact hk.focusByDefault.discard h
  | setAnchor id pane anchor order => exact hk.setAnchor h
  | setSideTool id split =>
    have hresplit : Layout.Resplits may split := hsplit id split rfl
    exact hk.setSideTool (fun _ _ _ _ h hl ↦ ⟨h.1, steps_storeInfo hl.lists (hresplit hl.get?)⟩) h
  | setSideToolAndAnchor id pane anchor order split => exact hk.setSideToolAndAnchor h
  | setType id type => exact advances_setType hperm h
  | setAutoHide id autoHide => exact hk.setAutoHide h
  | setContentUi id ui => exact hk.setContentUi h
  | setShowStripeButton id showButton => exact advances_setShowStripeButton hperm h
  | makeAvailable id => exact advances_makeAvailable hperm h
  | makeUnavailable id => exact advances_makeUnavailable hperm h
  | movedOrResized id g => exact hk.movedOrResized h
  | addPane pane => exact ensures_run_modify.2 (hk.idle h .addPane)
  | removePane pane => exact ensures_run_lift.2 (hk.removePane h)

end Engine

end ToolDock

import ToolDock.Proofs.Tags

namespace ToolDock

theorem WindowInfo.Reordered.asks_eq {a b : WindowInfo} (h : a.Reordered b) :
    b.showStripeButton = a.showStripeButton := by
  rw [h]

namespace Engine

variable {strict : Prop} {s : Set SlotKey} {e e' e'' e₁ : Engine} {key k : SlotKey} {x y : Entry}
  {l : Layout} {info cur moved : WindowInfo} {dirty split available showButton : Bool}
  {mutation : HideMutation} {id pane : String} {anchor : Anchor} {order : Int32}
  {type : WindowType} {α : Type} {request : Request}

theorem Tagged.keeps_located (h : Tagged strict ∅ e) (hl : Located e key x cur)
    (hid : info.id = cur.id) :
    Ensures (Engine.showWindow key info dirty) e fun _ e' ↦ Keeps strict e e' :=
  h.keeps_showWindow (Set.empty_subset _) hl.entry (Or.inl rfl)
    (hid.trans (Layout.id_of_get? hl.placement))

theorem Tagged.heeds_hidden (mutation : HideMutation) (h : Tagged strict ∅ e)
    (hl : Located e key x info) (hm : mutation ≠ .removeStripeButton) :
    ((x.tag e.layout).hidden info.showStripeButton mutation).Heeds strict := by
  cases mutation with
  | none =>
    rw [h.hidden_tag (Set.notMem_empty key) hl]
    exact h.heeds (Set.notMem_empty key) (tag?_of_get? hl.entry)
  | removeStripeButton => exact absurd rfl hm
  | removeFromStripe => exact .of_no_button rfl rfl fun _ ↦ rfl

theorem Tagged.retags_unlabelled (h : Tagged strict ∅ e) (hx : e.entries.get? key = some x)
    (hid : info.id = x.id) : Retags key { x.tag e.layout with
      asks := info.showStripeButton
      placedAsks := info.showStripeButton
      button := false } e ((e.removeStripeButton key).commit key info) := by
  have hremoved := retags_removeStripeButton hx
  obtain ⟨y, hy, htag⟩ := tag?_eq_some hremoved.self
  have hcommit := (h.aside hx hremoved rfl).retags_commit hy (hid.trans (congrArg Tag.id htag).symm)
  rw [htag] at hcommit
  exact hremoved.trans hcommit

theorem Tagged.unlisted (h : Tagged strict ∅ e) (hl : Located e key x info) :
    Keeps strict e ((e.removeStripeButton key).commit key (offStripe info)) := by
  have hid : (offStripe info).id = x.id := (id_mutated .removeFromStripe).trans hl.id_eq
  have hasks : (offStripe info).showStripeButton = false :=
    asks_mutated .removeFromStripe info (x.tag e.layout)
  have hr := h.retags_unlabelled hl.entry hid
  rw [hasks] at hr
  exact h.keeps_retag (Set.empty_subset _) hl.entry hr rfl (.of_no_button rfl rfl fun _ ↦ rfl)

theorem Located.sameTags_moves (hl : Located e key x cur) (hm : Layout.Moves x.id moved e.layout l)
    (hasks : moved.showStripeButton = cur.showStripeButton) :
    SameTags e { e with layout := l } := fun k ↦ by
  cases hy : e.entries.get? k with
  | none => simp only [tag?, hy, Option.map_none]
  | some y =>
    have hplaced : ((l.get? y.id).getD y.info).showStripeButton =
        ((e.layout.get? y.id).getD y.info).showStripeButton := by
      by_cases hid : y.id = x.id
      · obtain ⟨placed, hre, hself⟩ := hm.self
        rw [hid, hself, hl.placement, Option.getD_some, Option.getD_some, hre.asks_eq, hasks]
      · have hothers := hm.others y.id hid
        cases hold : e.layout.get? y.id with
        | none =>
          cases hnew : l.get? y.id with
          | none => rfl
          | some w =>
            obtain ⟨old, hsome, -⟩ := exists_left_of_rel hothers hnew
            cases hold.symm.trans hsome
        | some w =>
          obtain ⟨w', hnew, hre⟩ := exists_right_of_rel hothers hold
          rw [hnew, Option.getD_some, Option.getD_some, hre.asks_eq]
    simp only [tag?, hy, Option.map_some, Entry.tag, hplaced]

theorem Tagged.relabelEntry (h : Tagged strict ∅ e) (hl : Located e key x info) :
    SameTags e (e.relabelEntry info key) := by
  have hrefresh := retags_refreshStripeButton info hl.entry
  have hheeds := h.heeds (Set.notMem_empty key) (tag?_of_get? hl.entry)
  have hasks := h.asks_eq (Set.notMem_empty key) hl
  have hbutton : (x.stripeButton.isSome && info.showStripeButton) = x.stripeButton.isSome := by
    rw [← hasks]
    cases hb : x.stripeButton.isSome with
    | false => rfl
    | true => exact hheeds.asked hb
  rw [hbutton] at hrefresh
  have hsame := hrefresh.sameTags (tag?_of_get? hl.entry)
  obtain ⟨b, hex⟩ := exchanged_refreshStripeButton (D := False) info hl.entry False.elim
  have hl' : Located (e.refreshStripeButton key info) key { x with stripeButton := b } info :=
    ⟨hex.get?_self, by rw [hex.layout]; exact hl.placement⟩
  have hinfo : (e.refreshStripeButton key info).layout.get? info.id = some info := by
    rw [hex.layout, Layout.id_of_get? hl.placement]
    exact hl.placement
  rw [Engine.relabelEntry, applyToEntry_of_get? hinfo]
  exact hsame.trans ((h.congr hsame).commit (Set.notMem_empty key) hl' rfl rfl)

theorem Tagged.sameTags_setAnchor {changed : List WindowInfo} (h : Tagged strict ∅ e)
    (hl : Located e key x info)
    (hset : Layout.setAnchor x.id pane anchor order (e.layout.put { info with split := split }) =
      .ok changed l) : SameTags e { e with layout := l } := by
  have hstored : SameTags e (e.storeInfo { info with split := split }) := h.storeInfo hl rfl rfl
  have hl' : Located (e.storeInfo { info with split := split }) key x
      { info with split := split } := hl.storeInfo rfl
  exact hstored.trans (hl'.sameTags_moves (Layout.setAnchor_cases hl'.placement hset).1 rfl)

theorem fullRule_keeps : FullRule (Keeps strict) where
  settled h := h.tagged.keeps .refl
  trans h h' := h.trans h'
  idle h hi := h.same (.of_windows hi.entries hi.windows)
  taken h hx := (h.tagged.registeredInfo hx).imp_left h.same
  aside h hl := h.tagged.hideWindow true false (Set.empty_subset _) hl.entry hl.id_eq
    (h.tagged.heeds_hidden .none hl (by decide))
  reshown _ h hl hid _ _ := h.tagged.keeps_located hl hid
  pushed h _ := h.same (.of_windows rfl rfl)
  weighed _ h hl := h.same (h.tagged.storeInfo hl rfl rfl)
  committed {e key x cur info} h hl hr :=
    h.same (h.tagged.commit (Set.notMem_empty key) hl hr.id hr.asks)
  hidden {e key x info} h hl := h.same (h.tagged.hidden false (Set.notMem_empty key) hl)
  unlisted h hl _ := h.tagged.unlisted hl
  shown _ h hl _ := h.tagged.keeps_located hl rfl
  hides dirty hideSide h hl hm := h.tagged.hideWindow dirty hideSide (Set.empty_subset _) hl.entry
    hl.id_eq (h.tagged.heeds_hidden _ hl hm)
  kept h hx := (h.names hx).imp fun _ hy ↦ hy.1
  bared h hl := h.same (sameTags_of_exchanged hl.entry
    (exchanged_removeInternalDecorator true hl.entry False.elim) rfl)
  moved h hl hset := h.same (h.tagged.sameTags_setAnchor hl hset)
  relabelled h hl := h.same (h.tagged.relabelEntry hl)
  sibling h hw := relabelSibling_of_named (fun hx ↦ (h.tagged.ids_eq hx).1) hw h
    fun hl ↦ h.same (h.tagged.relabelEntry hl)

theorem Tagged.withdrawButton (info : WindowInfo) (h : Tagged strict ∅ e)
    (hx : e.entries.get? key = some x) (hid : info.id = x.id)
    (hasks : info.showStripeButton = false) :
    Ensures (withdrawButton key info) e fun _ e' ↦ Keeps strict e e' := by
  simp only [Engine.withdrawButton, ensures_bind, ensures_get, ensures_ite, ensures_modify]
  refine ⟨fun _ ↦ ?_, fun _ ↦ ?_⟩
  · have hheeds :
        ((x.tag e.layout).hidden info.showStripeButton .removeStripeButton).Heeds strict :=
      .of_no_button rfl rfl fun _ ↦ hasks
    exact (h.hideWindow false false (Set.empty_subset _) hx hid hheeds).mono fun _ _ h' ↦
      fullRule_keeps.idles h' .validatePane
  · exact h.keeps_retag (Set.empty_subset _) hx (h.retags_unlabelled hx hid) rfl
      (.of_no_button rfl rfl fun _ ↦ hasks)

theorem Tagged.retags_labelled (info : WindowInfo) (h : Tagged strict ∅ e)
    (hx : e.entries.get? key = some x) (hid : info.id = x.id) : Retags key { x.tag e.layout with
      asks := info.showStripeButton
      placedAsks := info.showStripeButton
      button := true } e
      (((e.storeInfo info).ensureStripeButton key info).applyToEntry key info) := by
  have hstored := h.retags_put hx (exchanged_storeInfo hx False.elim) hid rfl
  have haside := h.aside hx hstored rfl
  have hbutton := retags_ensureStripeButton (e := e.storeInfo info) info hx
  obtain ⟨b, -, hex⟩ := exchanged_ensureStripeButton (e := e.storeInfo info) (D := False) info hx
    False.elim
  have hinfo : ((e.storeInfo info).ensureStripeButton key info).layout.get? info.id =
      some info := by
    rw [hex.layout, get?_storeInfo, if_pos rfl]
  rw [applyToEntry_of_get? hinfo]
  have hcommit := (haside.aside hx hbutton rfl).retags_commit hex.get?_self hid
  obtain ⟨y, hy, htag⟩ := tag?_eq_some hbutton.self
  cases hex.get?_self.symm.trans hy
  rw [htag] at hcommit
  exact hstored.trans (hbutton.trans hcommit)

theorem Tagged.setShowStripeButton (h : Tagged strict ∅ e)
    (hready : ∀ key x, e.keyOf? id = some key → e.entries.get? key = some x → strict →
      showButton = true → (e.registeredInfo key).1.showStripeButton = false → x.available = true) :
    Ensures (setShowStripeButton id showButton).run e fun _ e' ↦ Keeps strict e e' := by
  refine fullRule_keeps.setShowStripeButton (h.keeps .refl)
    (fun key x hkey hx hshow hno e₁ info h₁ hl _ ↦ ?_) fun e₁ key x info h₁ hl ↦
      h₁.tagged.withdrawButton { info with showStripeButton := false } hl.entry hl.id_eq rfl
  have hr := h₁.tagged.retags_labelled { info with showStripeButton := true } hl.entry hl.id_eq
  exact h₁.tagged.keeps_retag (Set.empty_subset _) hl.entry hr rfl
    ⟨rfl, fun _ ↦ rfl, fun _ _ ↦ rfl, fun hs _ ↦ hready key x hkey hx hs hshow hno⟩

theorem retags_setAvailable (available : Bool) (hx : e.entries.get? key = some x) :
    Retags key { x.tag e.layout with available := available } e (e.setAvailable key available) :=
  retags_of_exchanged (exchanged_updateEntry (f := ({ · with available := available })) hx
    False.elim rfl rfl rfl)

theorem Tagged.setAvailable (h : Tagged strict ∅ e) (hx : e.entries.get? key = some x)
    (htaken : (e.setAvailable key available).registeredInfo key = (info, e₁)) :
    Tagged strict {key} e₁ ∧ KeepsNames e e₁ ∧
      Located e₁ key { x with available := available } info ∧
        (x.tag e₁.layout).Heeds strict := by
  obtain ⟨hsame, hl⟩ := h.registeredInfo hx
  have hset := retags_setAvailable available hl.entry
  have htagged := (h.congr hsame).aside hl.entry hset rfl
  rw [insert_empty_eq] at htagged
  have hy := (get?_updateEntry_of_get? (f := ({ · with available := available })) hl.entry
    key).trans (if_pos rfl)
  have hheeds := (h.congr hsame).heeds (Set.notMem_empty key) (tag?_of_get? hl.entry)
  rw [registeredInfo_setAvailable] at htaken
  cases htaken
  exact ⟨htagged, hsame.keepsNames.trans (hset.keepsNames hl.entry rfl), ⟨hy, hl.placement⟩, hheeds⟩

/-- What all windows heed while one is aside, they heed afterwards. -/
theorem Tagged.keeps_aside (h : Tagged strict {key} e) (hx : e.entries.get? key = some x)
    (hheeds : (x.tag e.layout).Heeds strict) : Keeps strict e e :=
  h.keeps_retag subset_rfl hx (.refl (tag?_of_get? hx)) rfl hheeds

theorem heeds_makeAvailable : Obeys (Keeps strict) (makeAvailable id) := by
  refine fullRule_keeps.makeAvailable fun e key x h hx _ info e₁ e₂ htaken he₂ ↦ ?_
  obtain ⟨haside, hnames, hl, hheeds⟩ := h.tagged.setAvailable hx htaken
  have hasks : x.info.showStripeButton = info.showStripeButton :=
    hheeds.agrees.symm.trans hl.placedAsks
  have hshown : ∀ {y}, Keeps strict e₁ e₂ → Located e₂ key y info → Keeps strict e e₂ ∧
      (info.visible = true → Ensures (showWindow key info false) e₂ fun _ e' ↦ Keeps strict e e') :=
    fun h₂ hl₂ ↦ have hkeeps : Keeps strict e e₂ := ⟨h₂.tagged, hnames.trans h₂.names⟩
      ⟨hkeeps, fun _ ↦ hkeeps.then (h₂.tagged.keeps_located hl₂ rfl)⟩
  subst he₂
  split
  case isTrue hshow =>
    obtain ⟨b, -, hex⟩ := exchanged_ensureStripeButton (D := False) info hl.entry False.elim
    have hplaced := hl.placedAsks
    have hbutton : Keeps strict e₁ (e₁.ensureStripeButton key info) :=
      haside.keeps_retag subset_rfl hl.entry (retags_ensureStripeButton info hl.entry) rfl
        (.of_button rfl (hasks.trans hshow) (hplaced.trans hshow) rfl)
    rw [if_pos hshow] at hshown
    exact hshown hbutton (hl.exchanged hex rfl)
  case isFalse hshow =>
    -- a window that was not available had no button, since none was asked for
    have hno : x.info.showStripeButton = false := by simpa [hasks] using hshow
    have hbare : (x.tag e₁.layout).button = false :=
      Bool.eq_false_iff.2 fun hb ↦ by simpa [Entry.tag, hno] using hheeds.asked hb
    have hkeeps : Keeps strict e₁ e₁ :=
      haside.keeps_aside hl.entry (.of_no_button hheeds.agrees hbare fun _ ↦ hno)
    rw [if_neg hshow] at hshown
    exact hshown hkeeps hl

theorem heeds_makeUnavailable : Obeys (Keeps strict) (makeUnavailable id) := by
  refine fullRule_keeps.makeUnavailable fun e key x h hx _ info e₁ htaken ↦ ?_
  obtain ⟨haside, hnames, hl, -⟩ := h.tagged.setAvailable hx htaken
  have hheeds : ((Entry.tag { x with available := false } e₁.layout).hidden info.showStripeButton
      .removeStripeButton).Heeds strict :=
    .of_no_button rfl rfl fun ha ↦ absurd ha Bool.false_ne_true
  exact (haside.hideWindow false false subset_rfl hl.entry hl.id_eq hheeds).mono fun _ _ h₂ ↦
    ⟨h₂.tagged, hnames.trans h₂.names⟩

theorem Tagged.retypeVisible (h : Tagged strict ∅ e) (hl : Located e key x info) :
    Ensures (retypeVisible key id info type) e fun _ e' ↦ Keeps strict e e' := by
  obtain ⟨⟨saved, hsaved⟩, hex⟩ := exchanged_removeDecorators (D := False) info
    info.windowType.isInternal hl.entry False.elim
  refine fullRule_keeps.retypeVisible hsaved fun e₂ he₂ ↦ ?_
  have hbare := h.keeps (sameTags_of_exchanged hl.entry hex rfl)
  have hl₁ := hl.exchanged hex rfl
  generalize (e.removeDecorators key info info.windowType.isInternal).2 = e₁ at hbare hl₁ he₂
  have hsame : SameTags e₁ e₂ := by
    obtain ⟨-, rfl⟩ | ⟨-, rfl⟩ := he₂
    · exact .refl
    · exact hbare.tagged.evictSlot _ _ (Set.empty_subset _)
  obtain ⟨y, hy, htag⟩ := hsame.registered hl₁.entry
  have hid : ((info.withState saved).withType type).id = y.id :=
    hl₁.id_eq.trans (congrArg Tag.id htag).symm
  have hr := ((hbare.tagged.congr hsame).retags_commit hy hid)
  rw [htag] at hr
  have hcommit : SameTags e₁ (e₂.commit key ((info.withState saved).withType type)) := by
    refine (hsame.retags hr).sameTags ?_
    rw [tag?_of_get? hl₁.entry]
    exact congrArg some (hbare.tagged.hidden_tag (Set.notMem_empty key) hl₁).symm
  have hy₂ := (exchanged_commit (D := False) ((info.withState saved).withType type) hy
    False.elim).get?_self
  exact (Tagged.sameTags_addDecorator hy₂).mono fun _ _ h₃ ↦ hbare.same (hcommit.trans h₃)

theorem heeds_setType : Obeys (Keeps strict) (setType id type) := by
  refine fullRule_keeps.setType (fun _ _ _ _ h hl _ ↦ h.tagged.retypeVisible hl)
    fun e key x info h hl _ ↦ h.same ?_
  exact h.tagged.commit (Set.notMem_empty key) hl rfl rfl

theorem Intake.button_eq {r : RegisterRequest} {button : Bool}
    (h : Intake r e.layout info button l) : button = (r.available && info.showStripeButton) := by
  cases h with
  | brought | known => rfl
  | fresh _ _ _ ha => exact (congrArg (· && true) ha).symm
  | draft _ _ ha => exact (congrArg (· && true) ha).symm

theorem Intake.get?_other {r : RegisterRequest} {button : Bool}
    (h : Intake r e.layout info button l) (hid : id ≠ info.id) : l.get? id = e.layout.get? id := by
  cases h with
  | brought | fresh => exact (Layout.get?_put _ _ _).trans (if_neg hid)
  | known | draft => rfl

theorem Intake.asks_eq {r : RegisterRequest} {button : Bool} (h : Intake r e.layout info button l) :
    ((l.get? info.id).getD (entered r info)).showStripeButton = info.showStripeButton := by
  cases h with
  | brought | fresh => rw [Layout.get?_put, if_pos rfl, Option.getD_some]
  | known _ hknown => rw [Layout.id_of_get? hknown, hknown, Option.getD_some]
  | draft _ hnone =>
    have hid : r.newPlacement.id = r.id := rfl
    rw [hid, hnone]
    rfl

namespace Tagged

theorem tag?_admitted_self {r : RegisterRequest} {button : Bool} {t : Tag}
    (hin : Intake r e.layout info button l) (hid : info.id = r.id)
    (ht : tag? (Engine.admitted { e with layout := l } r info button).2
      (Engine.admitted { e with layout := l } r info button).1 = some t) :
    t.name = r.id ∧ t.id = r.id ∧ t.infoId = r.id ∧ t.Heeds strict := by
  rw [tag?, get?_admitted, if_pos rfl, Option.map_some, layout_admitted] at ht
  cases ht
  have hbutton : (if button then some e.host.next else none).isSome =
      (r.available && info.showStripeButton) := by
    rw [← hin.button_eq]
    cases button <;> rfl
  refine ⟨rfl, hid, hid, ⟨hin.asks_eq, fun hb ↦ ?_, fun ha hasks ↦ ?_, fun _ hb ↦ ?_⟩⟩
  · exact (Bool.and_eq_true_iff.1 (hbutton.symm.trans hb)).2
  · exact hbutton.trans (Bool.and_eq_true_iff.2 ⟨ha, hasks⟩)
  · exact (Bool.and_eq_true_iff.1 (hbutton.symm.trans hb)).1

theorem tag?_admitted_other {r : RegisterRequest} {button : Bool} {t : Tag} (h : Tagged strict ∅ e)
    (hnew : e.isRegistered r.id = false) (hin : Intake r e.layout info button l)
    (hid : info.id = r.id) (hk : k ≠ (Engine.admitted { e with layout := l } r info button).1)
    (ht : tag? (Engine.admitted { e with layout := l } r info button).2 k = some t) :
    e.tag? k = some t ∧ t.name ≠ r.id := by
  rw [tag?, get?_admitted, if_neg hk, layout_admitted] at ht
  obtain ⟨y, hy, rfl⟩ := Option.map_eq_some_iff.1 ht
  have hname : y.name ≠ r.id := isNew_of_not_isRegistered hnew hy
  have hy' : e.entries.get? k = some y := hy
  have hne : y.id ≠ info.id := by
    rw [(h.ids_eq hy').1, hid]
    exact hname
  refine ⟨?_, hname⟩
  rw [tag?_of_get? hy']
  simp only [Entry.tag, hin.get?_other hne]

theorem admitted {r : RegisterRequest} {button : Bool} (h : Tagged strict ∅ e)
    (hnew : e.isRegistered r.id = false) (hin : Intake r e.layout info button l)
    (hid : info.id = r.id) :
    Tagged strict ∅ (Engine.admitted { e with layout := l } r info button).2 := by
  have hself : ∀ {t}, tag? (Engine.admitted { e with layout := l } r info button).2
      (Engine.admitted { e with layout := l } r info button).1 = some t →
        t.name = r.id ∧ t.id = r.id ∧ t.infoId = r.id ∧ t.Heeds strict :=
    fun ht ↦ tag?_admitted_self hin hid ht
  refine ⟨fun {k t} ht ↦ ?_, fun {k k' t t'} ht ht' hname ↦ ?_, fun {k t} _ ht ↦ ?_⟩
  · by_cases hk : k = (Engine.admitted { e with layout := l } r info button).1
    · obtain ⟨hname, hid, hinfo, -⟩ := hself (hk ▸ ht)
      exact ⟨hid.trans hname.symm, hinfo.trans hname.symm⟩
    · exact h.named (h.tag?_admitted_other hnew hin hid hk ht).1
  · by_cases hk : k = (Engine.admitted { e with layout := l } r info button).1 <;>
      by_cases hk' : k' = (Engine.admitted { e with layout := l } r info button).1
    · exact hk.trans hk'.symm
    · exact absurd (hname.symm.trans (hself (hk ▸ ht)).1)
        (h.tag?_admitted_other hnew hin hid hk' ht').2
    · exact absurd (hname.trans (hself (hk' ▸ ht')).1)
        (h.tag?_admitted_other hnew hin hid hk ht).2
    · exact h.unique (h.tag?_admitted_other hnew hin hid hk ht).1
        (h.tag?_admitted_other hnew hin hid hk' ht').1 hname
  · by_cases hk : k = (Engine.admitted { e with layout := l } r info button).1
    · exact (hself (hk ▸ ht)).2.2.2
    · exact h.heeds (Set.notMem_empty k) (h.tag?_admitted_other hnew hin hid hk ht).1

theorem register {r : RegisterRequest} (h : Tagged strict ∅ e)
    (hown : (Call.request (.register r)).BringsOwn) :
    Ensures (register r).run e fun _ e' ↦ Tagged strict ∅ e' := by
  refine ensures_register_admitted (fun _ ↦ h) fun hnew info button l hin ↦ ?_
  have hadmitted := (h.admitted hnew hin (hin.id_eq hown)).keeps .refl
  exact (fullRule_keeps.toToggleRule.settle hadmitted hin).mono fun _ _ hq ↦ hq.2.tagged

theorem unregister (h : Tagged strict ∅ e) : Tagged strict ∅ (e.unregister id) := by
  cases hkey : e.keyOf? id with
  | none => rwa [unregister_of_none hkey]
  | some key =>
    obtain ⟨x, hx, hname⟩ := get?_of_keyOf? hkey
    have hothers : ∀ k, k ≠ key → (e.stripped key id).tag? k = e.tag? k := by
      intro k hk
      cases hinfo : e.layout.get? id with
      | none => rw [stripped_of_none hinfo]
      | some info =>
        have hl : Located e key x info := ⟨hx, by rw [(h.ids_eq hx).1, hname]; exact hinfo⟩
        obtain ⟨⟨saved, hsaved⟩, hex⟩ := exchanged_removeDecorators (D := False) info false hx
          False.elim
        have hbare : SameTags e (e.removeDecorators key info false).2 :=
          sameTags_of_exchanged hx hex rfl
        have hl₁ : Located (e.removeDecorators key info false).2 key x.undecorated info :=
          ⟨hex.get?_self, by rw [hex.layout]; exact hl.placement⟩
        have hstored : SameTags _ ((e.removeDecorators key info false).2.storeInfo
            (e.removeDecorators key info false).1) := (h.congr hbare).storeInfo hl₁
          (by rw [hsaved, WindowInfo.id_withState]) (by rw [hsaved]; rfl)
        have hquiet : SameTags e ((e.quieted key info).forgetEvicted id) :=
          (hbare.trans hstored).trans ((SameTags.of_windows rfl rfl).trans
            (rests_forgetEvicted id).sameTags)
        obtain ⟨y, hy, -⟩ := hquiet.registered hx
        obtain ⟨pane, heq⟩ := stripped_of_get? key hinfo
        rw [heq]
        exact (((hquiet.retags (retags_removeStripeButton hy)).then
          Idles.validatePane.rests.sameTags) k).trans (if_neg hk)
    have hwithout : ∀ k, (e.unregister id).tag? k =
        if k = key then none else (e.stripped key id).tag? k := by
      intro k
      rw [unregister_eq hkey, rests_fire.sameTags, tag?, get?_without]
      split <;> rfl
    refine h.change (fun k (hk : k ≠ key) ↦ ?_) (fun t ht ↦ ?_) (Set.empty_subset _)
    · rw [hwithout, if_neg hk, hothers k hk]
    · rw [hwithout, if_pos rfl] at ht
      cases ht

end Tagged

/-- Whether a request asks for the button of a window that has none and is not available. -/
def Request.mislabels (e : Engine) : Request → Bool
  | setShowStripeButton id true =>
    (e.entry? id).any fun x ↦ !x.available && !x.info.showStripeButton
  | _ => false

theorem Tagged.asks_registeredInfo (h : Tagged strict ∅ e) (hx : e.entries.get? key = some x) :
    (e.registeredInfo key).1.showStripeButton = x.info.showStripeButton := by
  obtain ⟨hsame, hl⟩ := h.registeredInfo hx
  exact ((h.congr hsame).asks_eq (Set.notMem_empty key) hl).symm

theorem Tagged.run_setShowStripeButton {showButton : Bool} (h : Tagged strict ∅ e)
    (hm : strict → (Request.setShowStripeButton id showButton).mislabels e = false) :
    Ensures (Engine.setShowStripeButton id showButton).run e fun _ e' ↦ Tagged strict ∅ e' := by
  refine (h.setShowStripeButton fun key x hkey hx hs hshow hno ↦ ?_).mono fun _ _ h' ↦ h'.tagged
  subst hshow
  have hentry : e.entry? id = some x := by
    unfold Engine.entry?
    rw [hkey, Option.bind_some, hx]
  have hmis := hm hs
  rw [h.asks_registeredInfo hx] at hno
  simpa [Request.mislabels, hentry, hno] using hmis

theorem Tagged.run (h : Tagged strict ∅ e) (hown : (Call.request request).BringsOwn)
    (hm : strict → request.mislabels e = false) :
    Ensures request.run.run e fun _ e' ↦ Tagged strict ∅ e' := by
  have hk : FullRule (Keeps strict) := fullRule_keeps
  have heeds : Obeys (Keeps strict) request.run →
      Ensures request.run.run e fun _ e' ↦ Tagged strict ∅ e' :=
    fun hop ↦ (hop (h.keeps .refl)).mono fun _ _ h' ↦ h'.tagged
  cases request with
  | register r => exact h.register hown
  | unregister id => exact ensures_run_modify.2 h.unregister
  | reveal id => exact heeds hk.reveal
  | hide id => exact heeds hk.hideWith
  | hideWith id options => exact heeds hk.hideWith
  | activate id autoFocus => exact heeds hk.activate
  | deactivate id => exact heeds hk.deactivate
  | toolWindowFocused id => exact heeds hk.toolWindowFocused
  | focusMovedTo focused => exact heeds fun _ h ↦ ensures_run_lift.2 (hk.focusMovedTo h)
  | focusByDefault => exact heeds hk.focusByDefault.discard
  | setAnchor id pane anchor order => exact heeds hk.setAnchor
  | setSideTool id split =>
    exact heeds (hk.setSideTool fun _ _ _ _ h hl ↦ h.same (h.tagged.storeInfo hl rfl rfl))
  | setSideToolAndAnchor id pane anchor order split => exact heeds hk.setSideToolAndAnchor
  | setType id type => exact heeds heeds_setType
  | setAutoHide id autoHide => exact heeds hk.setAutoHide
  | setContentUi id ui => exact heeds hk.setContentUi
  | setShowStripeButton id showButton => exact h.run_setShowStripeButton hm
  | makeAvailable id => exact heeds heeds_makeAvailable
  | makeUnavailable id => exact heeds heeds_makeUnavailable
  | movedOrResized id g => exact heeds hk.movedOrResized
  | addPane pane => exact heeds fun _ h ↦ ensures_run_modify.2 (hk.idle h .addPane)
  | removePane pane => exact heeds fun _ h ↦ ensures_run_lift.2 (hk.removePane h)

theorem Tagged.run_mislabels (h : Tagged strict ∅ e) (hm : request.mislabels e = true) :
    Ensures request.run.run e fun _ e' ↦ ∃ key x, e'.entries.get? key = some x ∧
      x.available = false ∧ x.stripeButton.isSome = true := by
  unfold Request.mislabels at hm
  split at hm
  case h_2 => cases hm
  case h_1 id =>
    cases hkey : e.keyOf? id with
    | none => simp [hkey, entry?] at hm
    | some key =>
      obtain ⟨x, hx, -⟩ := get?_of_keyOf? hkey
      simp only [hkey, entry?, Option.bind_some, hx, Option.any_some, Bool.and_eq_true,
        Bool.not_eq_true'] at hm
      simp only [Request.run, Engine.setShowStripeButton, ensures_keyOf_bind, ensures_run_ite,
        ensures_run_lift_bind, ensures_run_modify, ensures_run_modify_bind, ensures_takeInfo,
        ensures_run_pure, hkey]
      refine ⟨fun k hk ↦ ?_, fun hno ↦ by cases hno⟩
      cases hk
      have hasks := (h.asks_registeredInfo hx).trans hm.2
      obtain ⟨hsame, hl⟩ := h.registeredInfo hx
      generalize (e.registeredInfo key).1 = info at hasks hl ⊢
      refine ⟨fun _ ↦ ⟨fun _ ↦ ?_, fun hno ↦ absurd trivial hno⟩,
        fun hno ↦ absurd hasks (by simpa using hno)⟩
      have hid : info.id = x.id := Layout.id_of_get? hl.placement
      have hr := (h.congr hsame).retags_labelled { info with showStripeButton := true } hl.entry
        hid
      obtain ⟨y, hy, htag⟩ := tag?_eq_some hr.self
      exact ⟨key, y, hy, (congrArg Tag.available htag).trans hm.1, congrArg Tag.button htag⟩

end Engine

end ToolDock

import ToolDock.Proofs.SteppedRequests

namespace ToolDock.Engine

variable {may : Layout → Layout → Prop} {e e' : Engine} {key k : SlotKey} {x : Entry}
  {info : WindowInfo} {button : Bool} {r : RegisterRequest} {l l' : Layout} {id : String}

/-- The placement that a request goes by, whether its window gets a button, and the layout with the
placement: brought along, known already, or new. A new one of an unavailable window is kept out. -/
inductive Intake (r : RegisterRequest) (l : Layout) : WindowInfo → Bool → Layout → Prop
  | brought {info : WindowInfo} (h : r.placement = some info) (hfree : orderOwner? l info = none) :
    Intake r l info (r.needsButton (some info)) (l.put info)
  | known {info : WindowInfo} (hno : r.placement = none) (h : l.get? r.id = some info) :
    Intake r l info (r.needsButton (some info)) l
  | fresh {order : Int32} (hno : r.placement = none) (hnone : l.get? r.id = none)
    (horder : l.nextOrder r.newPlacement.pane r.newPlacement.anchor = .ok order)
    (ha : r.available = true) :
    Intake r l { r.newPlacement with order := order } true
      (l.put { r.newPlacement with order := order })
  | draft (hno : r.placement = none) (hnone : l.get? r.id = none) (ha : r.available = false) :
    Intake r l r.newPlacement false l

theorem Intake.grows (h : Intake r l info button l') (hc : l.contains id) : l'.contains id := by
  cases h with
  | brought | fresh => exact Layout.contains_put.2 (Or.inr hc)
  | known | draft => exact hc

theorem Intake.get? (h : Intake r l info button l') :
    l'.get? info.id = some info ∨
      button = false ∧ info = r.newPlacement ∧ r.available = false ∧ l' = l := by
  cases h with
  | brought | fresh => exact Or.inl (by rw [Layout.get?_put, if_pos rfl])
  | known _ h => exact Or.inl (Layout.id_of_get? h ▸ h)
  | draft _ _ ha => exact Or.inr ⟨rfl, rfl, ha, rfl⟩

theorem Intake.get?_of_button (h : Intake r l info true l') : l'.get? info.id = some info := by
  generalize hb : true = button at h
  exact h.get?.resolve_right fun hq ↦ Bool.true_eq_false.mp (hb.trans hq.1)

theorem Intake.id_eq (h : Intake r l info button l')
    (hid : ∀ info, r.placement = some info → info.id = r.id) : info.id = r.id := by
  cases h with
  | brought h => exact hid _ h
  | known _ h => exact Layout.id_of_get? h
  | fresh | draft => rfl

def admitted (e : Engine) (r : RegisterRequest) (info : WindowInfo) (button : Bool) :
    SlotKey × Engine :=
  let inserted := e.entries.insert (.new r.id (entered r info) r.available r.hasContent)
  let e := { e with entries := inserted.2 }
  (inserted.1, if button then e.createStripeButton inserted.1 (entered r info) else e)

def newcomer (e : Engine) (r : RegisterRequest) (info : WindowInfo) (button : Bool) : Entry :=
  { Entry.new r.id (entered r info) r.available r.hasContent with
    stripeButton := if button then some e.host.next else none }

theorem fresh_admitted : e.entries.get? (e.admitted r info button).1 = none :=
  SlotTable.get?_fst_insert

theorem get?_admitted (e : Engine) (r : RegisterRequest) (info : WindowInfo) (button : Bool)
    (k : SlotKey) : (e.admitted r info button).2.entries.get? k =
    if k = (e.admitted r info button).1 then some (e.newcomer r info button)
    else e.entries.get? k := by
  have hinserted := SlotTable.get?_insert e.entries
    (Entry.new r.id (entered r info) r.available r.hasContent)
  cases button with
  | false => exact hinserted k
  | true =>
    by_cases hk : k = (e.entries.insert
        (Entry.new r.id (entered r info) r.available r.hasContent)).1
    · refine (get?_createStripeButton ((hinserted _).trans (if_pos rfl)) k).trans ?_
      rw [if_pos hk]
      exact (if_pos hk).symm
    · refine (get?_createStripeButton ((hinserted _).trans (if_pos rfl)) k).trans ?_
      rw [if_neg hk]
      exact ((hinserted k).trans (if_neg hk)).trans (if_neg hk).symm

theorem admitted_eq (e : Engine) (r : RegisterRequest) (info : WindowInfo) (button : Bool) :
    ∃ entries, (e.admitted r info button).2 = { e with
    entries := entries
    host := if button then (e.host.createStripeButton (entered r info)).2 else e.host } := by
  cases button with
  | false => exact ⟨_, rfl⟩
  | true => exact ⟨_, rfl⟩

theorem layout_admitted (e : Engine) (r : RegisterRequest) (info : WindowInfo) (button : Bool) :
    (e.admitted r info button).2.layout = e.layout := by
  obtain ⟨entries, heq⟩ := admitted_eq e r info button
  rw [heq]

theorem newcomer_isDraft (hinfo : info = r.newPlacement) (ha : r.available = false)
    (hb : button = false) : (e.newcomer r info button).IsDraft := by
  subst hinfo hb
  refine ⟨r, ?_⟩
  have hhidden : entered r r.newPlacement = r.newPlacement := entered_eq fun hv ↦ nomatch hv
  rw [newcomer, hhidden, ha]
  rfl

theorem Drafted.admitted (hd : Drafted e) (h : Intake r e.layout info button l) :
    Drafted ({ e with layout := l }.admitted r info button).2 := by
  intro k y hy
  rw [get?_admitted] at hy
  rw [layout_admitted]
  split at hy
  · cases hy
    rcases h.get? with hget | ⟨hb, hinfo, ha, -⟩
    · exact Or.inl (Layout.contains_of_get? hget)
    · exact Or.inr (newcomer_isDraft hinfo ha hb)
  · exact (hd hy).imp_left h.grows

theorem ensures_register_admitted {Q : Except EngineError Unit → Engine → Prop}
    (hrefused : ∀ error, Q (.error error) e)
    (h : e.isRegistered r.id = false → ∀ info button l, Intake r e.layout info button l →
      Ensures (settle r button info).run { e with layout := l } Q) :
    Ensures (register r).run e Q := by
  simp only [register, ensures_run_get_bind, ensures_run_ite, ensures_run_throw_bind]
  refine ⟨fun _ ↦ hrefused _, fun hreg ↦ ?_⟩
  replace h := h (by simpa using hreg)
  rw [ensures_run_bind]
  unfold knownPlacement
  cases hp : r.placement with
  | some info =>
    simp only [ensures_run_get_bind]
    cases howner : orderOwner? e.layout info with
    | some owner => exact ensures_run_throw.2 ⟨fun _ hk ↦ (by cases hk), fun _ _ ↦ hrefused _⟩
    | none =>
      simp only [ensures_run_modify_bind, ensures_run_pure]
      refine ⟨fun known hk ↦ ?_, fun _ hr ↦ (by cases hr)⟩
      cases hk
      exact h _ _ _ (.brought hp howner)
  | none =>
    simp only [ensures_run_get_bind, ensures_run_pure]
    refine ⟨fun known hk ↦ ?_, fun _ hr ↦ (by cases hr)⟩
    cases hk
    cases hknown : e.layout.get? r.id with
    | some info => exact h _ _ _ (.known hp hknown)
    | none =>
      refine ensures_run_lift_bind.2 ?_
      unfold newPlacement
      by_cases ha : r.available = true
      · have hb : r.needsButton none = true := by simp [RegisterRequest.needsButton, ha]
        simp only [hb, if_true, ensures_bind, ensures_get, ensures_check, ensures_modify,
          ensures_pure]
        intro order horder
        have hadd : e.layout.add { r.newPlacement with order := order } =
            ({ r.newPlacement with order := order },
              e.layout.put { r.newPlacement with order := order }) := by
          unfold Layout.add
          rw [show (WindowInfo.id { r.newPlacement with order := order }) = r.id from rfl, hknown]
        rw [hadd]
        exact h _ _ _ (.fresh hp hknown horder ha)
      · have ha : r.available = false := by simpa using ha
        have hb : r.needsButton none = false := by simp [RegisterRequest.needsButton, ha]
        simp only [hb, Bool.false_eq_true, if_false, ensures_pure]
        exact h _ _ _ (.draft hp hknown ha)

/-- The window that a registration settles is shown only where the layout has it. -/
theorem ToggleRule.settle {K : Engine → Engine → Prop} (hk : ToggleRule K)
    (h : K (e.admitted r info button).2 (e.admitted r info button).2)
    (hin : Intake r l info button e.layout) :
    Ensures (settle r button info).run e fun res e' ↦
      res = .ok () ∧ K (e.admitted r info button).2 e' := by
  have hinsert : insertEntry r (entered r info) button = modifyGet (·.admitted r info button) := rfl
  have hx := (get?_admitted e r info button _).trans (if_pos rfl)
  have hlayout := layout_admitted e r info button
  have hxid : (e.newcomer r info button).id = info.id := rfl
  simp only [Engine.settle, hinsert, ensures_run_lift_bind, ensures_run_ite, ensures_run_get_bind,
    ensures_run_modify, ensures_run_modify_bind, ensures_modifyGet]
  generalize e.newcomer r info button = x at hx hxid
  generalize e.admitted r info button = admitted at h hx hlayout ⊢
  obtain ⟨key, e₁⟩ := admitted
  refine ⟨fun hshow ↦ ?_, fun _ ↦ ⟨trivial, hk.idles h (Idles.validatePane.trans .fire)⟩⟩
  rw [Bool.and_eq_true] at hshow
  obtain ⟨rfl, -⟩ := hshow
  have hplaced : e₁.layout.get? info.id = some info := hlayout ▸ hin.get?_of_button
  have hl : Located e₁ key x info := ⟨hx, hxid ▸ hplaced⟩
  refine (hk.reshown false h hl rfl rfl rfl).mono fun _ e₂ h₂ ↦ ?_
  exact ⟨fun _ ↦ ⟨trivial, hk.idles h₂ ((Idles.requestFocus.trans .validatePane).trans .fire)⟩,
    fun _ ↦ ⟨trivial, hk.idles h₂ (Idles.validatePane.trans .fire)⟩⟩

theorem steps_settle (hlen : Layout.Lenient may) (hd : Drafted e)
    (h : Intake r e.layout info button l) :
    Ensures (settle r button info).run { e with layout := l } fun res e' ↦
      res = .ok () ∧ Steps may (Engine.admitted { e with layout := l } r info button).2 e' :=
  ((toggleRule_advances hlen).settle ⟨hd.admitted h, .refl⟩ h).mono fun _ _ hq ↦ ⟨hq.1, hq.2.2⟩

def stripped (e : Engine) (key : SlotKey) (id : String) : Engine :=
  match e.layout.get? id with
  | some info => e.withdraw key id info
  | none => e

def quieted (e : Engine) (key : SlotKey) (info : WindowInfo) : Engine :=
  let bare := e.removeDecorators key info false
  { bare.2.storeInfo bare.1 with activeStack := bare.2.activeStack.remove key true }

theorem stripped_of_get? (key : SlotKey) (hinfo : e.layout.get? id = some info) :
    ∃ pane, e.stripped key id =
      (((e.quieted key info).forgetEvicted id).removeStripeButton key).validatePane pane := by
  unfold stripped
  rw [hinfo]
  exact ⟨_, rfl⟩

theorem stripped_of_none (hnone : e.layout.get? id = none) : e.stripped key id = e := by
  rw [stripped, hnone]

def without (e : Engine) (key : SlotKey) : Engine := { e with entries := e.entries.remove key }

theorem unregister_eq (hkey : e.keyOf? id = some key) :
    e.unregister id = ((e.stripped key id).without key).fire .unregisterToolWindow id := by
  unfold unregister
  rw [hkey]
  rfl

theorem unregister_of_none (hkey : e.keyOf? id = none) : e.unregister id = e := by
  unfold unregister
  rw [hkey]

theorem steps_stripped (hstable : Layout.Stable may) (hd : Drafted e)
    (hx : e.entries.get? key = some x) (hname : x.name = id) :
    Steps may e (e.stripped key id) := by
  unfold stripped
  split
  case h_2 => exact .refl
  case h_1 info hinfo =>
    have hid : info.id = id := Layout.id_of_get? hinfo
    have hl : e.Lists key x.id := by
      refine ⟨x, hx, rfl, (hd hx).elim (fun h ↦ h) fun hdraft ↦ ?_⟩
      rw [hdraft.ids.1, hname]
      exact Layout.contains_of_get? hinfo
    obtain ⟨⟨saved, hsaved⟩, hex⟩ :=
      exchanged_removeDecorators (D := False) info false hx False.elim
    have hbare : Steps may e (e.removeDecorators key info false).2 := steps_removeDecorators hl
    have hstored : Steps may e ((e.removeDecorators key info false).2.storeInfo
        (e.removeDecorators key info false).1) := by
      obtain ⟨x₁, hx₁, hnames⟩ := hbare.keepsNames hx
      refine hbare.tail (.place hx₁ (Or.inr ?_) (hbare.contains ?_) Layout.moves_put ?_)
      · rw [hsaved, WindowInfo.id_withState, hid, (Prod.mk.inj hnames).1, hname]
      · rw [hsaved, WindowInfo.id_withState, hid]
        exact Layout.contains_of_get? hinfo
      · rw [hsaved, hex.layout]
        refine hstable.keep ?_
        have hplace : e.layout.place? id = some info.place := Layout.place?_of_get? hinfo
        rw [WindowInfo.id_withState, hid]
        exact hplace
    have hquiet := hstored.trans (steps_rest (rests_deactivate key true))
    have hforgot := hquiet.trans (steps_rest (rests_forgetEvicted id))
    exact Steps.idle (hforgot.trans (steps_removeStripeButton (hl.steps hforgot))) .validatePane

theorem get?_without (k : SlotKey) :
    (e.without key).entries.get? k = if k = key then none else e.entries.get? k :=
  SlotTable.get?_remove ..

theorem Drafted.without (hd : Drafted e) : Drafted (e.without key) := by
  intro k y hy
  rw [get?_without] at hy
  split at hy
  · cases hy
  · exact hd hy

end ToolDock.Engine

import ToolDock.Proofs.Courses
import ToolDock.Proofs.Reapplying

/-!
What readers see of the layout. Every event publishes the layout, and almost every call ends with
one if it changed anything; but a window that the layout lacks joins it without one. Main statement:
by `published_run_iff` a call leaves readers behind just if it is quiet, which depends on the engine
before it.
-/

namespace ToolDock.Engine

variable {allowed : Engine → Call → Prop} {e e₀ e' : Engine} {key : SlotKey} {x : Entry}
  {info : WindowInfo} {id : String} {call : Call} {l : Layout} {p : WindowInfo → Bool}
  {result : Except EngineError Unit} {α : Type}

/-- Readers see the layout as it is. -/
def IsPublished (e : Engine) : Prop := e.snapshot = e.layout

def lacks (e : Engine) (id : String) (p : WindowInfo → Bool) : Bool :=
  (e.entry? id).any fun x ↦ !e.layout.contains x.id && p x.info

/-- Whether an unavailable window would have another weight if it had the one that its anchor
shares, as it is to have. -/
def rescales (e : Engine) (id : String) : Bool :=
  e.settings.unifiedWeights && (e.entry? id).any fun x ↦ !x.available &&
    (e.layout.get? x.id).any fun info ↦ info.weight != e.layout.unifiedWeight info.anchor

/-- Whether a request changes the layout and nobody is told: the window of the request joins it, and
that is all, or it only gets another weight. -/
def Request.isQuiet (e : Engine) : Request → Bool
  | reveal id => e.lacks id fun _ ↦ true
  | hide id => e.lacks id (!·.visible)
  | hideWith id options => e.lacks id fun info ↦
    !info.visible && !(options.removeFromStripe && info.showStripeButton)
  | deactivate id => e.lacks id (!·.visible)
  | activate id _ => e.lacks id (fun _ ↦ true) || e.rescales id
  | focusByDefault =>
    match e.focusTarget? with
    | .ok (some id) => e.rescales id
    | _ => false
  | setAnchor id pane anchor order => !decide (order < unassignedOrder) &&
    e.lacks id (isThere · (e.paneFor pane) anchor order)
  | setSideTool id split => e.lacks id (·.split == split)
  | setSideToolAndAnchor id pane anchor order split => e.lacks id fun info ↦
    isThere info (e.paneFor pane) anchor order && info.split == split
  | setType id type => e.lacks id (·.windowType == type)
  | setAutoHide id autoHide => e.lacks id (·.autoHide == autoHide)
  | setContentUi id ui => e.lacks id (·.contentUi == ui)
  | setShowStripeButton id showButton => e.lacks id (·.showStripeButton == showButton)
  | movedOrResized id g => g.showing && !g.sizeTrusted && e.lacks id fun _ ↦ true
  | _ => false

/-- Whether a call changes the layout and nobody is told. -/
def Call.isQuiet (e : Engine) : Call → Bool
  | request r => r.isQuiet e
  | _ => false

theorem lacks_iff (hkey : e.keyOf? id = some key) (hx : e.entries.get? key = some x) :
    e.lacks id p = (!e.layout.contains x.id && p x.info) := by
  rw [lacks, entry?, hkey, Option.bind_some, hx, Option.any_some]

theorem lacks_of_none (hkey : e.keyOf? id = none) : e.lacks id p = false := by
  rw [lacks, entry?, hkey]
  rfl

theorem rescales_of_none (hkey : e.keyOf? id = none) : e.rescales id = false := by
  rw [rescales, entry?, hkey]
  exact Bool.and_false _

theorem Drafted.lacks_of_contains (hd : Drafted e) (hc : e.layout.contains id) :
    e.lacks id p = false := by
  cases hkey : e.keyOf? id with
  | none => exact lacks_of_none hkey
  | some key =>
    obtain ⟨x, hx, hname⟩ := get?_of_keyOf? hkey
    rw [lacks_iff hkey hx]
    rcases hd hx with hlisted | hdraft
    · rw [hlisted]
      rfl
    · rw [hdraft.ids.1, hname, hc]
      rfl

theorem Drafted.takeInfo_cases {Q : WindowInfo → Engine → Prop} (hd : Drafted e)
    (hp : e.IsPublished) (hkey : e.keyOf? id = some key)
    (hlisted : ∀ x info, Located e key x info → (∀ p, e.lacks id p = false) → Q info e)
    (hdraft : ∀ x, e.entries.get? key = some x → x.IsDraft → x.info.id = x.id →
      (∀ p, e.lacks id p = p x.info) → ¬ e.snapshot.contains x.id → Q x.info (e.storeInfo x.info)) :
    Ensures (Engine.takeInfo key) e Q := by
  obtain ⟨x, hx, -⟩ := get?_of_keyOf? hkey
  refine ensures_takeInfo.2 ?_
  cases hinfo : e.layout.get? x.id with
  | some info =>
    have hl : Located e key x info := ⟨hx, hinfo⟩
    rw [hl.registeredInfo_eq]
    refine hlisted x info hl fun p ↦ ?_
    rw [lacks_iff hkey hx, hl.contains]
    rfl
  | none =>
    have hnot := Layout.not_contains_of_get? hinfo
    have hdrafted := hd.isDraft hx hinfo
    have hid := hdrafted.info_id
    rw [registeredInfo_eq hx hid, hinfo]
    refine hdraft x hx hdrafted hid (fun p ↦ ?_) ?_
    · rw [lacks_iff hkey hx, hnot]
      rfl
    · rw [hp, hnot]
      exact Bool.false_ne_true

theorem not_published_storeInfo (hid : info.id = id) (h : ¬ e.snapshot.contains id) :
    ¬ (e.storeInfo info).IsPublished := by
  intro hp
  have hsnapshot : e.snapshot = e.layout.put info := hp
  rw [hsnapshot] at h
  exact h (Layout.contains_put.2 (Or.inl hid.symm))

theorem Drafted.takeInfo_published {Q : WindowInfo → Engine → Prop} (hd : Drafted e)
    (hp : e.IsPublished) (hkey : e.keyOf? id = some key)
    (h : ∀ info e₁, (∀ p : WindowInfo → Bool, p info = false → e.lacks id p = false) →
      (∀ p : WindowInfo → Bool, p info = true → (e₁.IsPublished ↔ e.lacks id p = false)) →
        Q info e₁) : Ensures (Engine.takeInfo key) e Q := by
  refine hd.takeInfo_cases hp hkey (fun x info _ hno ↦ ?_) fun x _ _ hid hlacks hunseen ↦ ?_
  · exact h info e (fun p _ ↦ hno p) fun p _ ↦ iff_of_true hp (hno p)
  · refine h x.info _ (fun p hpinfo ↦ (hlacks p).trans hpinfo) fun p hpinfo ↦ ?_
    refine iff_of_false (not_published_storeInfo hid hunseen) ?_
    rw [hlacks, hpinfo]
    exact Bool.true_eq_false.mp

def Publishes (op : Operation α) (e : Engine) (quiet : Bool) : Prop :=
  Ensures op.run e fun _ e' ↦ (e'.IsPublished ↔ quiet = false)

theorem publishes_never {op : Operation α} (h : Ensures op.run e fun _ e' ↦ e'.IsPublished) :
    Publishes op e false :=
  h.mono fun _ _ h ↦ iff_of_true h rfl

theorem published_fire {kind : EventKind} {id : Option String} : (e.fire kind id).IsPublished := rfl

variable {pane : String} {anchor : Anchor} {order : Int32} {split : Bool}

theorem publishes_hideWith {options : HideOptions} (hd : Drafted e) (hp : e.IsPublished) :
    Publishes (hideWith id options) e (e.lacks id fun info ↦
      !info.visible && !(options.removeFromStripe && info.showStripeButton)) := by
  simp only [Publishes, hideWith, removeHiddenFromStripe, ensures_keyOf_bind, ensures_run_get_bind,
    ensures_run_ite, ensures_run_pure, ensures_run_lift_bind, ensures_run_modify, ensures_run_lift,
    ensures_run_modify_bind, ensures_modify]
  refine ⟨fun key hkey ↦ ?_, fun hkey ↦ iff_of_true hp (lacks_of_none hkey)⟩
  refine hd.takeInfo_published hp hkey fun info e₁ hloud hquiet ↦
    ⟨fun hv ↦ ⟨fun ho ↦ ?_, fun ho ↦ ?_⟩,
    fun hv ↦ ?_⟩
  · exact iff_of_true published_fire (hloud _ (by simp [ho]))
  · exact hquiet _ (by simp [hv, ho])
  · intro _ _ _
    have hno := hloud (fun info ↦ !info.visible && !(options.removeFromStripe &&
      info.showStripeButton)) (by simp [hv])
    exact ⟨fun _ ↦ iff_of_true rfl hno, fun _ ↦ iff_of_true published_fire hno⟩

theorem publishes_deactivate (hd : Drafted e) (hp : e.IsPublished) :
    Publishes (deactivate id) e (e.lacks id (!·.visible)) := by
  simp only [Publishes, deactivate, ensures_keyOf_bind, ensures_run_ite, ensures_run_pure,
    ensures_run_lift_bind, ensures_run_modify]
  refine ⟨fun key hkey ↦ ?_, fun hkey ↦ iff_of_true hp (lacks_of_none hkey)⟩
  refine hd.takeInfo_published hp hkey fun info e₁ hloud hquiet ↦ ⟨fun hv ↦ ?_, fun hv ↦ ?_⟩
  · exact iff_of_true published_fire (hloud _ (by simp [hv]))
  · exact hquiet _ (by simpa using hv)

theorem publishes_setAnchor (hd : Drafted e) (hp : e.IsPublished) :
    Publishes (setAnchor id pane anchor order) e (!decide (order < unassignedOrder) &&
      e.lacks id (isThere · (e.paneFor pane) anchor order)) := by
  simp only [Publishes, setAnchor, ensures_keyOf_bind, ensures_run_ite, ensures_run_pure,
    ensures_run_throw_bind, ensures_run_get_bind, ensures_run_lift_bind, ensures_run_modify]
  refine ⟨fun key hkey ↦ ⟨fun ho ↦ iff_of_true hp (by simp [ho]), fun ho ↦ ?_⟩,
    fun hkey ↦ iff_of_true hp (by rw [lacks_of_none hkey, Bool.and_false])⟩
  have hassignable : (!decide (order < unassignedOrder)) = true := by simpa using ho
  rw [hassignable, Bool.true_and]
  refine hd.takeInfo_published hp hkey fun info e₁ hloud hquiet ↦ ⟨fun hmoves ↦ ?_, fun hstays ↦ ?_⟩
  · have hno := hloud (isThere · (e.paneFor pane) anchor order) (by simpa using hmoves)
    exact ⟨fun _ _ _ _ ↦ iff_of_true published_fire hno,
      fun _ _ _ _ ↦ iff_of_true published_fire hno⟩
  · exact hquiet _ (by simpa using hstays)

theorem publishes_setSideTool (hd : Drafted e) (hp : e.IsPublished) :
    Publishes (setSideTool id split) e (e.lacks id (·.split == split)) := by
  simp only [Publishes, setSideTool, ensures_keyOf_bind, ensures_run_ite, ensures_run_pure,
    ensures_run_lift_bind, ensures_run_modify]
  refine ⟨fun key hkey ↦ ?_, fun hkey ↦ iff_of_true hp (lacks_of_none hkey)⟩
  refine hd.takeInfo_published hp hkey fun info e₁ hloud hquiet ↦ ⟨fun hmoves ↦ ?_, fun hstays ↦ ?_⟩
  · exact fun _ _ _ ↦ iff_of_true published_fire (hloud _ (by simpa using hmoves))
  · exact hquiet _ (by simpa using hstays)

theorem publishes_setSideToolAndAnchor (hd : Drafted e) (hp : e.IsPublished) :
    Publishes (setSideToolAndAnchor id pane anchor order split) e (e.lacks id fun info ↦
      isThere info (e.paneFor pane) anchor order && info.split == split) := by
  simp only [Publishes, setSideToolAndAnchor, ensures_keyOf_bind, ensures_run_ite, ensures_run_pure,
    ensures_run_get_bind, ensures_run_lift_bind, ensures_run_modify]
  refine ⟨fun key hkey ↦ ?_, fun hkey ↦ iff_of_true hp (lacks_of_none hkey)⟩
  refine hd.takeInfo_published hp hkey fun info e₁ hloud hquiet ↦ ⟨fun hmoves ↦ ?_, fun hstays ↦ ?_⟩
  · have hno := hloud (fun info ↦ isThere info (e.paneFor pane) anchor order &&
      info.split == split) (by rwa [Bool.not_eq_true'] at hmoves)
    exact fun _ _ _ ↦ iff_of_true published_fire hno
  · exact hquiet (fun info ↦ isThere info (e.paneFor pane) anchor order && info.split == split)
      (by rwa [Bool.not_eq_true', Bool.not_eq_false] at hstays)

theorem publishes_setType {type : WindowType} (hd : Drafted e) (hp : e.IsPublished) :
    Publishes (setType id type) e (e.lacks id (·.windowType == type)) := by
  simp only [Publishes, setType, ensures_keyOf_bind, ensures_run_ite, ensures_run_pure,
    ensures_run_get_bind, ensures_run_lift_bind, ensures_run_modify, ensures_run_modify_bind]
  refine ⟨fun key hkey ↦ ?_, fun hkey ↦ iff_of_true hp (lacks_of_none hkey)⟩
  refine hd.takeInfo_published hp hkey fun info e₁ hloud hquiet ↦ ⟨fun hmoves ↦ ?_, fun hstays ↦ ?_⟩
  · have hno := hloud (·.windowType == type) (by simpa using hmoves)
    exact ⟨fun _ _ _ _ ↦ iff_of_true published_fire hno,
      fun _ ↦ iff_of_true published_fire hno⟩
  · exact hquiet _ (by simpa using hstays)

theorem publishes_changeProperty {differs quiet : WindowInfo → Bool}
    {change : WindowInfo → WindowInfo} {kind : EventKind}
    (hdiffers : ∀ info, differs info = !quiet info) (hd : Drafted e) (hp : e.IsPublished) :
    Publishes (changeProperty id differs change kind) e (e.lacks id quiet) := by
  simp only [Publishes, changeProperty, ensures_keyOf_bind, ensures_run_ite, ensures_run_pure,
    ensures_run_lift_bind, ensures_run_modify, hdiffers]
  refine ⟨fun key hkey ↦ ?_, fun hkey ↦ iff_of_true hp (lacks_of_none hkey)⟩
  refine hd.takeInfo_published hp hkey fun info e₁ hloud hquiet ↦ ⟨fun hmoves ↦ ?_, fun hstays ↦ ?_⟩
  · exact iff_of_true published_fire (hloud _ (by simpa using hmoves))
  · exact hquiet _ (by simpa using hstays)

theorem publishes_setAutoHide {autoHide : Bool} (hd : Drafted e) (hp : e.IsPublished) :
    Publishes (setAutoHide id autoHide) e (e.lacks id (·.autoHide == autoHide)) := by
  unfold setAutoHide
  exact publishes_changeProperty (fun _ ↦ rfl) hd hp

theorem publishes_setContentUi {ui : ContentUi} (hd : Drafted e) (hp : e.IsPublished) :
    Publishes (setContentUi id ui) e (e.lacks id (·.contentUi == ui)) := by
  unfold setContentUi
  exact publishes_changeProperty (fun _ ↦ rfl) hd hp

theorem publishes_setShowStripeButton {showButton : Bool} (hd : Drafted e) (hp : e.IsPublished) :
    Publishes (setShowStripeButton id showButton) e
      (e.lacks id (·.showStripeButton == showButton)) := by
  simp only [Publishes, setShowStripeButton, ensures_keyOf_bind, ensures_run_ite, ensures_run_pure,
    ensures_run_lift_bind, ensures_run_modify, ensures_run_modify_bind]
  refine ⟨fun key hkey ↦ ?_, fun hkey ↦ iff_of_true hp (lacks_of_none hkey)⟩
  refine hd.takeInfo_published hp hkey fun info e₁ hloud hquiet ↦ ⟨fun hmoves ↦ ?_, fun hstays ↦ ?_⟩
  · have hno := hloud (·.showStripeButton == showButton) (by simpa using hmoves)
    exact ⟨fun _ ↦ iff_of_true published_fire hno,
      fun _ _ _ _ ↦ iff_of_true published_fire hno⟩
  · exact hquiet _ (by simpa using hstays)

theorem publishes_reveal (hd : Drafted e) (hp : e.IsPublished) :
    Publishes (reveal id) e (e.lacks id fun _ ↦ true) := by
  simp only [Publishes, reveal, ensures_keyOf_bind, ensures_run_get_bind, ensures_run_ite,
    ensures_run_pure, ensures_run_lift_bind, ensures_run_modify]
  refine ⟨fun key hkey ↦ ?_, fun hkey ↦ iff_of_true hp (lacks_of_none hkey)⟩
  obtain ⟨x, hx, -⟩ := get?_of_keyOf? hkey
  rw [entryIs_of_get? hx]
  refine ⟨fun hv ↦ iff_of_true hp ?_, fun _ ↦ ?_⟩
  · obtain ⟨y, hy, -, hc⟩ := hd.lists hx hv
    rw [lacks_iff hkey hx, hc]
    rfl
  refine hd.takeInfo_cases hp hkey (fun y info hl hno ↦ ?_) fun y hy hdraft hid hlacks hunseen ↦ ?_
  · refine ensures_showWindow_cases (fun _ ↦ ?_) fun _ _ _ _ _ _ ↦ ?_
    · exact ⟨fun h ↦ absurd h Bool.false_ne_true, fun _ ↦ iff_of_true hp (hno _)⟩
    · exact ⟨fun _ ↦ iff_of_true published_fire (hno _), fun h ↦ absurd rfl h⟩
  · refine ensures_showWindow_unavailable hy hdraft.available ?_
    refine ⟨fun h ↦ absurd h Bool.false_ne_true, fun _ ↦ ?_⟩
    refine iff_of_false (not_published_storeInfo hid hunseen) ?_
    rw [hlacks]
    exact Bool.true_eq_false.mp

theorem published_activateAvailable {autoFocus : Bool} :
    Ensures (activateAvailable key id info autoFocus) e fun _ e' ↦ e'.IsPublished := by
  simp only [activateAvailable, ensures_bind, ensures_get, ensures_ite, ensures_modify,
    ensures_pure]
  simp only [Bool.not_false, forall_const, not_true_eq_false, false_implies, and_true]
  have hfocused : ∀ e', (autoFocus = true → Ensures (tryFocus id) e' fun focused e'' ↦
      ((!focused) = true → ((e''.pushActive key).fire .activateToolWindow id).IsPublished) ∧
        (¬ (!focused) = true → (e''.fire .activateToolWindow id).IsPublished)) ∧
      (¬ autoFocus = true → ((e'.pushActive key).fire .activateToolWindow id).IsPublished) :=
    fun _ ↦ ⟨fun _ _ _ _ ↦ ⟨fun _ ↦ rfl, fun _ ↦ rfl⟩, fun _ ↦ rfl⟩
  exact ⟨fun _ _ _ _ ↦ hfocused _, fun _ ↦ ⟨fun _ ↦ hfocused _, fun _ ↦ hfocused _⟩⟩

theorem Located.published_sharedWeight (hl : Located e key x info) (hp : e.IsPublished) :
    (e.sharedWeight info).2.IsPublished ↔ (e.settings.unifiedWeights &&
      info.weight != e.layout.unifiedWeight info.anchor) = false := by
  have hid := Layout.id_of_get? hl.placement
  unfold Engine.sharedWeight
  split
  case isFalse h => exact iff_of_true hp (by simp [h])
  case isTrue h =>
    rw [h, Bool.true_and, bne_eq_false_iff_eq]
    constructor
    · intro hpublished
      have hput : e.snapshot = e.layout.put
          { info with weight := e.layout.unifiedWeight info.anchor } := hpublished
      have hget : e.snapshot.get? info.id =
          some { info with weight := e.layout.unifiedWeight info.anchor } := by
        rw [hput, Layout.get?_put]
        exact if_pos rfl
      rw [hp, hid] at hget
      exact congrArg WindowInfo.weight (Option.some.inj (hl.placement.symm.trans hget))
    · intro hweight
      have hsame :
          ({ info with weight := e.layout.unifiedWeight info.anchor } : WindowInfo) = info := by
        rw [← hweight]
      change e.snapshot = e.layout.put _
      rw [hsame, Layout.put_of_get? (hid ▸ hl.placement), hp]

theorem publishes_activate {autoFocus : Bool} (hd : Drafted e) (hp : e.IsPublished) :
    Publishes (activate id autoFocus) e (e.lacks id (fun _ ↦ true) || e.rescales id) := by
  simp only [Publishes, activate, ensures_keyOf_bind, ensures_run_ite, ensures_run_pure,
    ensures_run_get_bind, ensures_run_lift_bind, ensures_run_modifyGet_bind,
    ensures_run_modify_bind, ensures_run_modify, ensures_run_lift]
  refine ⟨fun key hkey ↦ ?_, fun hkey ↦ iff_of_true hp ?_⟩
  · refine hd.takeInfo_cases hp hkey (fun x info hl hno ↦ ?_)
      fun x hx hdraft hid hlacks hunseen ↦ ?_
    · have hrescales : e.rescales id = (e.settings.unifiedWeights && (!x.available &&
          info.weight != e.layout.unifiedWeight info.anchor)) := by
        rw [rescales, entry?, hkey, Option.bind_some, hl.entry, Option.any_some, hl.placement,
          Option.any_some]
      have hx : ((e.sharedWeight info).2.remember id).entries.get? key = some x := by
        unfold sharedWeight
        split <;> exact hl.entry
      rw [hno, Bool.false_or, hrescales, entryIs_of_get? hx]
      refine ⟨fun hno ↦ ?_, fun ha ↦ ?_⟩
      · have hno : x.available = false := by simpa using hno
        rw [hno, Bool.not_false, Bool.true_and]
        exact ⟨fun _ ↦ hl.published_sharedWeight hp, fun _ ↦ hl.published_sharedWeight hp⟩
      · have ha : x.available = true := by simpa using ha
        rw [ha, Bool.not_true, Bool.false_and, Bool.and_false]
        exact published_activateAvailable.mono fun _ _ h ↦ iff_of_true h rfl
    · have hx₁ : (((e.storeInfo x.info).sharedWeight x.info).2.remember id).entries.get? key =
          some x := by
        unfold sharedWeight
        split <;> exact hx
      have hunpublished : ¬ ((e.storeInfo x.info).sharedWeight x.info).2.IsPublished := by
        unfold sharedWeight
        split
        · exact not_published_storeInfo (e := e.storeInfo x.info) hid hunseen
        · exact not_published_storeInfo hid hunseen
      rw [hlacks, Bool.true_or, entryIs_of_get? hx₁, hdraft.available]
      refine ⟨fun _ ↦ ?_, fun h ↦ absurd rfl h⟩
      exact ⟨fun _ ↦ iff_of_false hunpublished Bool.true_eq_false.mp,
        fun _ ↦ iff_of_false hunpublished Bool.true_eq_false.mp⟩
  · rw [lacks_of_none hkey, rescales_of_none hkey]
    rfl

theorem mem_of_findEntry? {q : Entry → Bool} {keys : List SlotKey}
    (h : e.findEntry? q keys = .ok (some x)) : q x ∧ ∃ key, e.entries.get? key = some x := by
  induction keys with
  | nil => cases h
  | cons key keys ih =>
    unfold findEntry? at h
    split at h
    case h_1 y hy =>
      split at h
      case isTrue hq =>
        cases h
        exact ⟨hq, key, hy⟩
      case isFalse => exact ih h
    case h_2 => cases h

theorem publishes_focusByDefault (hd : Drafted e) (hp : e.IsPublished) :
    Publishes focusByDefault e (Request.focusByDefault.isQuiet e) := by
  simp only [Publishes, focusByDefault, ensures_run_get_bind, ensures_run_lift_bind, ensures_check]
  intro target htarget
  simp only [Request.isQuiet, htarget]
  cases target with
  | none => exact ensures_run_pure.2 (iff_of_true hp rfl)
  | some id =>
    -- the window is visible, so that the layout knows it
    have hno : e.lacks id (fun _ ↦ true) = false := by
      unfold focusTarget? at htarget
      cases hfound : e.findEntry? (·.info.visible)
        (e.activeStack.transient ++ e.activeStack.persistent) with
      | error f =>
        rw [hfound] at htarget
        cases htarget
      | ok found =>
        rw [hfound] at htarget
        obtain ⟨x, rfl, rfl⟩ := Option.map_eq_some_iff.1 (Except.ok.inj htarget)
        obtain ⟨hv, key, hx⟩ := mem_of_findEntry? hfound
        obtain ⟨-, -, -, hc⟩ := hd.lists hx hv
        exact hd.lacks_of_contains hc
    rw [ensures_run_bind]
    have hactivated : Publishes (activate id true) e _ := publishes_activate hd hp
    rw [hno, Bool.false_or] at hactivated
    exact hactivated.mono fun _ _ h ↦ ⟨fun _ _ ↦ ensures_run_pure.2 h, fun _ _ ↦ h⟩

theorem publishes_movedOrResized {g : DecoratorGeometry} (hd : Drafted e) (hp : e.IsPublished) :
    Publishes (movedOrResized id g) e (g.showing && !g.sizeTrusted && e.lacks id fun _ ↦ true) := by
  simp only [Publishes, movedOrResized, ensures_keyOf_bind, ensures_run_ite, ensures_run_pure,
    ensures_run_get_bind, ensures_run_lift_bind, ensures_run_modify]
  refine ⟨fun key hkey ↦ ⟨fun hs ↦ ?_, fun hs ↦ iff_of_true hp (by simp [hs])⟩,
    fun hkey ↦ iff_of_true hp (by rw [lacks_of_none hkey, Bool.and_false])⟩
  rw [hs, Bool.true_and]
  refine hd.takeInfo_cases hp hkey (fun x info hl hno ↦ ?_) fun x hx hdraft hid hlacks hunseen ↦ ?_
  · rw [hno, Bool.and_false]
    refine ⟨fun _ ↦ ?_, fun _ ↦ ⟨fun _ _ _ _ ↦ iff_of_true published_fire rfl,
      fun _ ↦ iff_of_true hp rfl⟩⟩
    split
    · exact ensures_run_modify.2 (iff_of_true published_fire rfl)
    · exact ensures_run_pure.2 (iff_of_true hp rfl)
  · rw [hlacks, Bool.and_true, hdraft.isExternal]
    refine ⟨fun h ↦ absurd h Bool.false_ne_true, fun _ ↦ ⟨fun ht _ _ _ ↦ ?_, fun ht ↦ ?_⟩⟩
    · exact iff_of_true published_fire (by simp [ht])
    · exact iff_of_false (not_published_storeInfo hid hunseen) (by simpa using ht)

theorem published_forIn (op : String → Operation Unit) (ids : List String)
    (hop : ∀ id, Obeys (Advances fun _ _ ↦ True) (op id))
    (hpublished : ∀ {e id}, Drafted e → e.IsPublished → e.layout.contains id = true →
      Ensures (op id).run e fun _ e' ↦ e'.IsPublished)
    (hd : Drafted e) (hp : e.IsPublished) (hids : ∀ id ∈ ids, e.layout.contains id = true) :
    Ensures (forIn ids PUnit.unit fun id _ ↦ do
      attempt (op id); pure (ForInStep.yield PUnit.unit)) e fun _ e' ↦ e'.IsPublished := by
  refine (ensures_forIn (I := fun e' ↦ FreeSteps e e' ∧ e'.IsPublished) ids (fun id hid e₁ h₁ ↦ ?_)
    ⟨.refl, hp⟩).mono fun _ _ h ↦ h.2
  have hd₁ := hd.steps h₁.1
  simp only [attempt, ensures_bind, ensures_pure]
  have hc₁ : e₁.layout.contains id := Steps.contains h₁.1 (hids id hid)
  refine (ensures_and (hop id ⟨hd₁, .refl⟩) (hpublished hd₁ h₁.2 hc₁)).mono ?_
  intro _ _ hq
  exact ⟨h₁.1.trans hq.1.2, hq.2⟩

theorem published_focusMovedTo {focused : Option String} (hd : Drafted e) (hp : e.IsPublished) :
    Ensures (focusMovedTo focused) e fun _ e' ↦ e'.IsPublished := by
  simp only [focusMovedTo, ensures_bind, ensures_get]
  have hloop := published_forIn deactivate (e.losingFocus focused)
    (fun _ ↦ (fullRule_advances Layout.permissive_true).deactivate)
    (fun hd hp hc ↦ (publishes_deactivate hd hp).mono fun _ _ h ↦
      h.2 (hd.lacks_of_contains hc)) hd hp ?_
  · refine hloop.mono fun _ e₁ h₁ ↦ ?_
    cases focused with
    | none => exact ensures_pure.2 h₁
    | some id =>
      simp only [ensures_bind, ensures_get, ensures_ite, ensures_modify, attempt, ensures_pure,
        toolWindowFocused, ensures_keyOf_bind, ensures_run_modify]
      exact ⟨fun _ ↦ ⟨fun _ _ ↦ h₁, fun _ ↦ h₁⟩, fun _ ↦ h₁⟩
  · intro id hid
    obtain ⟨x, hx, rfl⟩ := List.mem_map.1 hid
    obtain ⟨hx, hlosing⟩ := List.mem_filter.1 hx
    obtain ⟨⟨k, y⟩, hrow, rfl⟩ := List.mem_map.1 hx
    rw [Bool.and_eq_true, Bool.and_eq_true] at hlosing
    obtain ⟨-, -, -, hc⟩ := hd.lists (SlotTable.mem_toList.1 hrow) hlosing.1.1
    exact hc

theorem published_removePane (hd : Drafted e) (hp : e.IsPublished) :
    Ensures (removePane pane) e fun _ e' ↦ e'.IsPublished := by
  simp only [removePane, ensures_bind, ensures_get, ensures_ite, ensures_modify, ensures_pure]
  refine ⟨fun hpane ↦ ?_, fun _ ↦ hp⟩
  refine (published_forIn
    (fun id ↦ hideWith id { HideOptions.default with removeFromStripe := true }) _
    (fun _ ↦ (fullRule_advances Layout.permissive_true).hideWith)
    (fun hd hp hc ↦ (publishes_hideWith hd hp).mono fun _ _ h ↦
      h.2 (hd.lacks_of_contains hc)) hd hp fun id hid ↦ ?_).mono fun _ _ h ↦ h
  obtain ⟨x, hx, rfl⟩ := List.mem_map.1 hid
  obtain ⟨hx, hhere⟩ := List.mem_filter.1 hx
  obtain ⟨⟨k, y⟩, hrow, rfl⟩ := List.mem_map.1 hx
  -- a window that the layout lacks is in the default pane
  refine (hd (SlotTable.mem_toList.1 hrow)).resolve_right ?_
  rintro ⟨r, rfl⟩
  rw [← beq_iff_eq.1 hhere] at hpane
  exact absurd hpane (by simp [Entry.new, RegisterRequest.newPlacement, WindowInfo.new])

theorem published_register {r : RegisterRequest} (hp : e.IsPublished) :
    Ensures (register r).run e fun _ e' ↦ e'.IsPublished := by
  refine ensures_register_admitted (fun _ ↦ hp) fun _ info button l _ ↦ ?_
  simp only [settle, ensures_run_lift_bind, ensures_run_ite, ensures_run_get_bind,
    ensures_run_modify, ensures_run_modify_bind]
  exact fun _ _ _ ↦ ⟨fun _ _ _ _ ↦ ⟨fun _ ↦ published_fire, fun _ ↦ published_fire⟩,
    fun _ ↦ published_fire⟩

theorem published_unregister (hp : e.IsPublished) : (e.unregister id).IsPublished := by
  cases hkey : e.keyOf? id with
  | none => rwa [unregister_of_none hkey]
  | some key =>
    rw [unregister_eq hkey]
    exact published_fire

theorem published_makeAvailable (hp : e.IsPublished) :
    Ensures (makeAvailable id).run e fun _ e' ↦ e'.IsPublished := by
  simp only [makeAvailable, ensures_keyOf_bind, ensures_run_ite, ensures_run_pure,
    ensures_run_get_bind, ensures_run_lift_bind, ensures_run_modify, ensures_run_modify_bind,
    ensures_takeInfo]
  exact ⟨fun _ _ ↦ ⟨fun _ ↦ ⟨fun _ ↦ ⟨fun _ _ _ _ ↦ published_fire, fun _ ↦ published_fire⟩,
    fun _ ↦ ⟨fun _ _ _ _ ↦ published_fire, fun _ ↦ published_fire⟩⟩, fun _ ↦ hp⟩, fun _ ↦ hp⟩

theorem published_makeUnavailable (hp : e.IsPublished) :
    Ensures (makeUnavailable id).run e fun _ e' ↦ e'.IsPublished := by
  simp only [makeUnavailable, ensures_keyOf_bind, ensures_run_ite, ensures_run_pure,
    ensures_run_get_bind, ensures_run_lift_bind, ensures_run_modify, ensures_run_modify_bind,
    ensures_takeInfo]
  exact ⟨fun _ _ ↦ ⟨fun _ _ _ _ ↦ ⟨fun _ ↦ rfl, fun _ ↦ published_fire⟩, fun _ ↦ hp⟩, fun _ ↦ hp⟩

theorem publishes_request {request : Request} (hd : Drafted e) (hp : e.IsPublished) :
    Publishes request.run e (request.isQuiet e) := by
  cases request with
  | register r => exact publishes_never (published_register hp)
  | unregister id => exact publishes_never (ensures_run_modify.2 (published_unregister hp))
  | reveal id => exact publishes_reveal hd hp
  | hide id =>
    have h : Publishes (hide id) e (e.lacks id fun info ↦
        !info.visible && !(HideOptions.default.removeFromStripe && info.showStripeButton)) :=
      publishes_hideWith hd hp
    simp only [HideOptions.default, Bool.false_and, Bool.not_false, Bool.and_true] at h
    exact h
  | hideWith id options => exact publishes_hideWith hd hp
  | activate id autoFocus => exact publishes_activate hd hp
  | deactivate id => exact publishes_deactivate hd hp
  | toolWindowFocused id =>
    refine publishes_never ?_
    simp only [Request.run, toolWindowFocused, ensures_keyOf_bind, ensures_run_modify]
    exact ⟨fun _ _ ↦ hp, fun _ ↦ hp⟩
  | focusMovedTo focused =>
    exact publishes_never (ensures_run_lift.2 (published_focusMovedTo hd hp))
  | focusByDefault =>
    have hrun : (discard focusByDefault : Operation Unit) =
      focusByDefault >>= fun _ ↦ pure () := rfl
    change Publishes (discard focusByDefault) e _
    rw [Publishes, hrun, ensures_run_bind]
    exact (publishes_focusByDefault hd hp).mono fun _ _ h ↦
      ⟨fun _ _ ↦ ensures_run_pure.2 h, fun _ _ ↦ h⟩
  | setAnchor id pane anchor order => exact publishes_setAnchor hd hp
  | setSideTool id split => exact publishes_setSideTool hd hp
  | setSideToolAndAnchor id pane anchor order split => exact publishes_setSideToolAndAnchor hd hp
  | setType id type => exact publishes_setType hd hp
  | setAutoHide id autoHide => exact publishes_setAutoHide hd hp
  | setContentUi id ui => exact publishes_setContentUi hd hp
  | setShowStripeButton id showButton => exact publishes_setShowStripeButton hd hp
  | makeAvailable id => exact publishes_never (published_makeAvailable hp)
  | makeUnavailable id => exact publishes_never (published_makeUnavailable hp)
  | movedOrResized id g => exact publishes_movedOrResized hd hp
  | addPane pane =>
    refine publishes_never (ensures_run_modify.2 ?_)
    unfold addPane
    split <;> exact hp
  | removePane pane => exact publishes_never (ensures_run_lift.2 (published_removePane hd hp))

theorem published_setLayout (hp : e.IsPublished) :
    Ensures (setLayout l).run e fun _ e' ↦ e'.IsPublished := by
  cases hnone : orderConflict? l with
  | some error =>
    unfold setLayout
    rw [hnone]
    exact ensures_run_throw.2 hp
  | none =>
    -- only what happens if nothing is planned matters, and then nothing happens
    refine (ensures_setLayout_planned
      (I := fun rest e₁ ↦ e.planned l = [] → rest = [] ∧ e₁.IsPublished) hnone
      (fun c rest e₁ hI ↦ ?_) fun hnil ↦ ⟨?_, ?_⟩).mono ?_
    · intro _ _ _ hnil
      exact absurd (hI hnil).1 (List.cons_ne_nil _ _)
    · rw [liveChanges, hnil, List.filter_nil]
    · rw [hnil]
      rfl
    · intro _ e' hq
      rcases hq with ⟨-, e₁, h₁, ⟨hnil, rfl⟩ | ⟨-, applied, rfl⟩⟩
      · exact (h₁ hnil).2
      · exact published_fire

theorem published_setInitialLayout (hp : e.IsPublished) :
    Ensures (setInitialLayout l).run e fun _ e' ↦ e'.IsPublished := by
  simp only [setInitialLayout, ensures_run_get_bind, ensures_run_ite, ensures_run_modify]
  exact ⟨fun _ ↦ rfl, fun _ ↦ ensures_run_throw.2 hp⟩

theorem published_closeProject (hp : e.IsPublished) : e.closeProject.IsPublished := by
  have hclosed : ∀ e : Engine, e.IsPublished → ∀ a, (e.closeHandle a).IsPublished := by
    intro e hp a
    cases a <;> exact hp
  have hremoved : ∀ e : Engine, e.IsPublished → ∀ key,
      (e.removeExternalDecorators key).IsPublished := by
    intro e hp key
    unfold removeExternalDecorators
    split
    · exact hp
    · refine hclosed _ (hclosed _ ?_ _) _
      exact hp
  unfold closeProject
  generalize e.keysWhere _ = keys
  induction keys generalizing e with
  | nil => exact hp
  | cons key keys ih => exact ih (hremoved e hp key)

theorem published_overlay {change : Option OverlayChange} (hp : e.IsPublished) :
    (e.overlay change).IsPublished := by
  unfold overlay
  split <;> exact hp

theorem publishes_call (hd : Drafted e) (hp : e.IsPublished) :
    Publishes call.run e (call.isQuiet e) := by
  cases call with
  | request request => exact publishes_request hd hp
  | setLayout l => exact publishes_never (published_setLayout hp)
  | setInitialLayout l => exact publishes_never (published_setInitialLayout hp)
  | load stored =>
    exact publishes_never (ensures_discard (ensures_run_lift.2 (ensures_load hp
      (fun _ ↦ published_setInitialLayout hp) fun _ ↦ published_setLayout hp)))
  | applyScheduled =>
    exact publishes_never (ensures_discard (ensures_applyScheduled hp fun _ ↦
      published_setLayout hp))
  | closeProject => exact publishes_never (ensures_run_modify.2 (published_closeProject hp))
  | dispatchKey event now =>
    exact publishes_never
      (ensures_run_modify.2 (published_overlay (e := { e with keyChord := _ }) hp))
  | tick now =>
    exact publishes_never
      (ensures_run_modify.2 (published_overlay (e := { e with keyChord := _ }) hp))
  | setDefaultLayout | editorFocused | clearSideStack | restoreLater | schedule | advance
  | takeEvents | takeOps | setFocused | setApplicationActive | moveExternal | maximizeExternal =>
    exact publishes_never (ensures_run_modify.2 hp)

/-- Where readers see the layout as it is, they still do when a call returns, refused or not, unless
the call was quiet. -/
theorem published_run_iff (hempty : e₀.entries = .empty) (hc : Course allowed e₀ e)
    (hp : e.IsPublished) (hrun : call.run.run e = .ok result e') :
    e'.IsPublished ↔ call.isQuiet e = false :=
  publishes_call (hc.drafted (drafted_of_empty hempty)) hp hrun

/-- A window that was registered unavailable joins the layout when it is to be shown, and readers do
not see it. -/
theorem not_published_unavailableRequest : ∃ e e', Course (fun _ _ ↦ True) blank e ∧
    e.IsPublished ∧ (Call.request (.reveal "A")).run.run e = .ok (.ok ()) e' ∧
      ¬ e'.IsPublished := by
  obtain ⟨e, e', hregister, hp, hrun, hquiet⟩ : ∃ e e',
      (Call.request (.register unavailableRequest)).run.run blank = .ok (.ok ()) e ∧
        e.snapshot = e.layout ∧ (Call.request (.reveal "A")).run.run e = .ok (.ok ()) e' ∧
        (Call.request (.reveal "A")).isQuiet e = true :=
    ⟨_, _, rfl, by decide +kernel, rfl, by decide +kernel⟩
  have hc : Course (fun _ _ ↦ True) blank e := .single ⟨_, _, trivial, hregister⟩
  refine ⟨e, e', hc, hp, hrun, fun hpublished ↦ ?_⟩
  rw [(published_run_iff rfl hc hp hrun).1 hpublished] at hquiet
  cases hquiet

theorem Course.published (hc : Course (fun e call ↦ call.isQuiet e = false) e₀ e)
    (hempty : e₀.entries = .empty) (hp : e₀.IsPublished) : e.IsPublished := by
  induction hc with
  | refl => exact hp
  | tail hc hstep ih =>
    obtain ⟨call, result, hloud, hrun⟩ := hstep
    exact (publishes_call (Course.drafted hc (drafted_of_empty hempty)) ih hrun).2 hloud

end ToolDock.Engine

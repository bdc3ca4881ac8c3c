import ToolDock.Proofs.Rules

/-!
Every operation on a window leaves a sound engine sound, whether it is refused or not. Only
registration asks for something: a placement that is visible must be one that can be shown.
-/

namespace ToolDock

theorem Host.keeps_requestFocus {h : Host} {id : String} : h.Keeps (h.requestFocus id).2 := by
  unfold requestFocus
  dsimp only
  split <;> exact ⟨fun _ ↦ rfl, fun _ ↦ rfl, rfl⟩

theorem Host.keeps_of_objects {h h' : Host} (ho : h'.objects = h.objects)
    (hd : h'.desktop = h.desktop) : h.Keeps h' :=
  ⟨fun a ↦ by rw [isOpen, ho, isOpen], fun a ↦ by rw [isButton, ho, isButton], hd⟩

namespace Engine

variable {κ : Type} {detail : Int32 × Bool × Bool → κ} {D : Prop} {s t : Set SlotKey}
  {e e' : Engine} {key : SlotKey} {x y : Entry} {info cur : WindowInfo} {id pane : String}
  {anchor : Anchor} {order : Int32} {α : Type}

namespace Sound

theorem idle (h : Sound detail D s t e) (hi : Idles e e') : Sound detail D s t e' :=
  h.congr hi.entries hi.windows (Host.keeps_of_objects hi.objects hi.desktop)

theorem takeInfo (h : Sound detail D s t e) (hx : e.entries.get? key = some x) :
    Ensures (Engine.takeInfo key) e fun info e' ↦
      Sound detail D s t e' ∧ Located e' key x info :=
  ensures_takeInfo.2 (h.registeredInfo hx)

theorem core_of_located (h : Sound detail D ∅ ∅ e) (hl : Located e key x info) :
    info.core = x.info.core :=
  (h.core_eq hl (Set.notMem_empty key)).symm

theorem type_of_located (h : Sound detail D ∅ ∅ e) (hl : Located e key x info) :
    info.windowType = x.info.windowType :=
  WindowInfo.windowType_of_core (h.core_of_located hl)

theorem visible_of_located (h : Sound detail D ∅ ∅ e) (hl : Located e key x info) :
    info.visible = x.info.visible :=
  WindowInfo.visible_of_core (h.core_of_located hl)

theorem storeHidden (info : WindowInfo) (h : Sound detail D ∅ ∅ e)
    (hx : e.entries.get? key = some x)
    (hid : info.id = x.name) (hx' : x.info.visible = false) (hv : info.visible = false) :
    Sound detail D ∅ ∅ (e.commit key info) := by
  refine (h.mono (Set.subset_insert key ∅) (Set.subset_insert key ∅)).commit_hidden hx hid hv
    fun hd ↦ ?_
  exact (Entry.isDecorated_of_hidden hx').1 ((h.decorated hd).shape (Set.notMem_empty key) hx)

theorem removeStripeButton (h : Sound detail D s t e) (hx : e.entries.get? key = some x) :
    Sound detail D s t (e.removeStripeButton key) :=
  h.rebutton hx (exchanged_removeStripeButton hx (h.isServed hx)) fun _ hb ↦ (nomatch hb)

theorem hide {dirty hideSide : Bool} {mutation : HideMutation} (h : Sound detail D ∅ ∅ e)
    (hl : Located e key x info) :
    Ensures (Engine.hideWindow key info dirty hideSide mutation) e
      fun _ e' ↦ Sound detail D ∅ ∅ e' :=
  ((h.mono (Set.empty_subset {key}) subset_rfl).hideWindow hl.entry (h.placement_id hl)
    (h.type_of_located hl)).mono fun _ _ h' ↦ h'.1

theorem unlisted (h : Sound detail D ∅ ∅ e) (hl : Located e key x cur) (hid : info.id = cur.id)
    (hcur : cur.visible = false) (hv : info.visible = false) :
    Sound detail D ∅ ∅ ((e.removeStripeButton key).commit key info) := by
  have hremove := exchanged_removeStripeButton hl.entry (h.isServed hl.entry)
  have hname : info.id = x.name := hid.trans (h.placement_id hl)
  have hx' : x.info.visible = false := (h.visible_of_located hl).symm.trans hcur
  exact (h.removeStripeButton hl.entry).storeHidden info hremove.get?_self hname hx' hv

end Sound

theorem rule_sound : Rule fun _ e ↦ Sound detail D ∅ ∅ e where
  settled h := h
  trans _ h := h
  idle h hi := h.idle hi
  taken h hx := h.registeredInfo hx
  pushed h _ := h.congr rfl rfl .refl
  weighed {e key x info} w h hl := by
    have hcore : x.info.core = info.core := h.core_eq hl (Set.notMem_empty key)
    have hdetail : detail x.info.marks = detail info.marks := h.detail_eq hl (Set.notMem_empty key)
    exact h.storeInfo { info with weight := w } hl.entry hl.id_eq fun _ ↦ ⟨hcore, hdetail⟩
  committed h hl hr := by
    have hcore := hr.core.trans (h.core_of_located hl)
    exact h.commit_core hl.entry (hr.id.trans (h.placement_id hl)) (fun _ ↦ hcore) fun _ ↦ hcore
  hidden {e key x info} h hl :=
    (h.mono (Set.subset_insert key ∅) subset_rfl).hidden false .none hl.entry (h.placement_id hl)
  unlisted h hl hv :=
    h.unlisted hl (id_mutated .removeFromStripe) hv ((visible_mutated .removeFromStripe).trans hv)
  shown {e key x info} active h hl hv := by
    have hname : info.id = x.name := h.placement_id hl
    have htype : info.windowType = x.info.windowType := h.type_of_located hl
    by_cases ha : x.available = true
    · exact (h.showHidden { info with activeOnStart := active } hl.entry hv hname htype ha).mono
        fun _ _ h' ↦ h'.1
    · exact ensures_showWindow_unavailable hl.entry (by simpa using ha) h
  hides _ _ h hl _ := h.hide hl

namespace Sound

theorem withdrawButton (h : Sound detail D ∅ ∅ e) (hl : Located e key x cur)
    (hid : info.id = cur.id) (hcore : info.core = cur.core) :
    Ensures (Engine.withdrawButton key info) e fun _ e' ↦ Sound detail D ∅ ∅ e' := by
  simp only [Engine.withdrawButton, ensures_bind, ensures_get, ensures_ite, ensures_modify]
  refine ⟨fun _ ↦ ?_, fun hv ↦ ?_⟩
  · exact ((h.mono (Set.empty_subset {key}) subset_rfl).hideWindow hl.entry
      (hid.trans (h.placement_id hl)) (WindowInfo.windowType_of_core
        (hcore.trans (h.core_of_located hl)))).mono fun _ _ h' ↦ h'.1.idle .validatePane
  · have hhidden : info.visible = false := by simpa using hv
    exact h.unlisted hl hid ((WindowInfo.visible_of_core hcore).symm.trans hhidden) hhidden

end Sound

theorem ensureStripeButton_storeInfo :
    ((e.storeInfo info).ensureStripeButton key info).applyToEntry key info =
      (e.ensureStripeButton key info).commit key info := by
  have hentry : (e.storeInfo info).entryIs key (·.stripeButton.isNone) =
      e.entryIs key (·.stripeButton.isNone) := rfl
  unfold ensureStripeButton
  rw [hentry]
  split <;> rfl

theorem Sound.ensureStripeButton (info : WindowInfo) (h : Sound detail D s t e)
    (hl : Located e key x cur) :
    Sound detail D s t (e.ensureStripeButton key info) ∧
      ∃ b, Exchanged D key x { x with stripeButton := b } e.layout e
        (e.ensureStripeButton key info) := by
  obtain ⟨b, -, hex⟩ := exchanged_ensureStripeButton info hl.entry (h.isServed hl.entry)
  exact ⟨h.rebutton hl.entry hex fun _ _ ↦ Layout.contains_of_get? hl.placement, b, hex⟩

theorem obeys_setShowStripeButton {showButton : Bool} :
    Obeys (fun _ e ↦ Sound detail D ∅ ∅ e) (setShowStripeButton id showButton) := fun e h ↦ by
  refine rule_sound.setShowStripeButton h (fun key x _ _ _ _ e₁ info h₁ hl _ ↦ ?_)
    fun e₁ key x info h₁ hl ↦ h₁.withdrawButton hl rfl rfl
  rw [ensureStripeButton_storeInfo]
  have hname : info.id = x.name := h₁.placement_id hl
  have hcore : info.core = x.info.core := h₁.core_of_located hl
  obtain ⟨hbutton, b, hex⟩ := h₁.ensureStripeButton { info with showStripeButton := true } hl
  exact hbutton.commit_core hex.get?_self hname (fun _ ↦ hcore) fun _ ↦ hcore

theorem Sound.setAvailable (available : Bool) (h : Sound detail D ∅ ∅ e)
    (hx : e.entries.get? key = some x) :
    Sound detail D {key} ∅ (e.setAvailable key available) := by
  have hex : Exchanged D key x { x with available := available } e.layout e
      (e.setAvailable key available) :=
    exchanged_updateEntry (f := ({ · with available := available })) hx (h.isServed hx) rfl rfl rfl
  have hcoherent : CoherentOn detail {key} e := h.coherent.mono (Set.empty_subset {key})
  refine ⟨hcoherent.change rfl (standing?_of_get? hx) (h.info_id hx) hex.standing?
    (fun _ _ ↦ rfl) fun _ hc ↦ hc, fun hd ↦ ?_⟩
  have hshape := (h.decorated hd).shape (Set.notMem_empty key) hx
  have hknown : x.stripeButton.isSome → e.layout.contains x.id := (h.decorated hd).known hx
  exact (h.decorated hd).exchange hd hx hex (fun _ hc ↦ hc) hknown (fun _ ↦ hshape)
    fun _ _ hm ↦ hm

theorem Sound.setAvailable_true (h : Sound detail D ∅ ∅ e) (hx : e.entries.get? key = some x) :
    Sound detail D ∅ ∅ (e.setAvailable key true) := by
  have haside := h.setAvailable true hx
  have hstand := standing?_of_get? hx
  have hother : ∀ {k y}, k ≠ key → (e.setAvailable key true).standing? k = some y →
      e.standing? k = some y := by
    intro k y hne hy
    rwa [standing?, Engine.setAvailable, get?_updateEntry, if_neg hne] at hy
  refine ⟨?_, haside.decorated⟩
  have hagrees : ∀ info, e.layout.get? x.id = some info →
      x.info.core = info.core ∧ detail x.info.marks = detail info.marks :=
    fun info hinfo ↦ h.coherent.agrees (Set.notMem_empty key) hstand hinfo
  have hset : (e.setAvailable key true).standing? key =
      some { x.standing with available := true } := by
    rw [standing?, Engine.setAvailable, get?_updateEntry_of_get? hx, if_pos rfl]
    rfl
  have hcontains := fun hv ↦ (h.coherent.ready (Set.notMem_empty key) hstand hv).2
  refine CoherentOn.put_down (haside.coherent.mono (by simp)) hset hagrees
    (fun hv ↦ ⟨rfl, hcontains hv⟩) fun ho k y hk hne hy ho' hslot ↦ hne ?_
  exact h.coherent.exclusive hk (Set.notMem_empty key) (hother hne hy) hstand ho' ho hslot

theorem obeys_makeAvailable : Obeys (fun _ e ↦ Sound detail D ∅ ∅ e) (makeAvailable id) := by
  refine rule_sound.makeAvailable fun e key x h hx ha info e₁ e₂ htaken he₂ ↦ ?_
  have hx₁ : (e.setAvailable key true).entries.get? key = some { x with available := true } :=
    (get?_updateEntry_of_get? hx key).trans (if_pos rfl)
  have htaken' := (h.setAvailable_true hx).registeredInfo hx₁
  rw [htaken] at htaken'
  obtain ⟨h₁, hl⟩ := htaken'
  -- the window was not available, so the layout knows it as hidden
  have hv : info.visible = false := by
    rw [h₁.visible_of_located hl]
    refine Bool.eq_false_iff.2 fun hv ↦ ?_
    have hready : x.available = true :=
      (h.coherent.ready (Set.notMem_empty key) (standing?_of_get? hx) hv).1
    cases hready.symm.trans ha
  refine ⟨?_, fun hvis ↦ by cases hv.symm.trans hvis⟩
  subst he₂
  split
  · exact (h₁.ensureStripeButton _ hl).1
  · exact h₁

theorem obeys_makeUnavailable : Obeys (fun _ e ↦ Sound detail D ∅ ∅ e) (makeUnavailable id) := by
  refine rule_sound.makeUnavailable fun e key x h hx _ info e₁ htaken ↦ ?_
  have hx₁ : (e.setAvailable key false).entries.get? key = some { x with available := false } :=
    (get?_updateEntry_of_get? hx key).trans (if_pos rfl)
  have htaken' := (h.setAvailable false hx).registeredInfo hx₁
  rw [htaken] at htaken'
  obtain ⟨h₁, hl⟩ := htaken'
  have htype : info.windowType = x.info.windowType := by
    have hid : x.info.id = x.id := (h.info_id hx).trans (h.id_eq hx).symm
    rw [registeredInfo_eq hx₁ hid] at htaken
    cases hinfo : (e.setAvailable key false).layout.get? x.id with
    | none =>
      simp only [hinfo] at htaken
      cases htaken
      rfl
    | some placed =>
      simp only [hinfo] at htaken
      cases htaken
      exact h.type_of_located ⟨hx, hinfo⟩
  exact (h₁.hideWindow hl.entry (h₁.placement_id hl) htype).mono fun _ _ h' ↦ h'.1

end Engine

end ToolDock

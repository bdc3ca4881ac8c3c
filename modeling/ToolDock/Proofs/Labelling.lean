import ToolDock.Proofs.ButtonRequests
import ToolDock.Proofs.Reapplying

/-!
Stripe buttons of the host follow what windows ask for. Each button is held by the window that it is
for, so a window has one in the host just if it holds one. Main statement: `stripeButtons_follow`,
by which an available window always has the button that it asks for, and no window one that it does
not ask for.
-/

namespace ToolDock

theorem Host.nodup_buttonIds {h : Host}
    (hinj : ∀ {a b n}, h.button? a = some n → h.button? b = some n → a = b) :
    h.buttonIds.Nodup := by
  have hbutton : ∀ {r : Handle × HostObject} {n}, r ∈ h.objects.rows → r.2.button? = some n →
      h.button? r.1 = some n := by
    intro r n hr hn
    rw [button?, HandleTable.get?_eq_some_iff.2 hr]
    exact hn
  have hids : h.buttonIds = (h.objects.rows.map Prod.snd).filterMap HostObject.button? := by
    refine List.filterMap_congr fun o _ ↦ ?_
    cases o <;> rfl
  rw [hids, List.Nodup, List.pairwise_filterMap, List.pairwise_map]
  refine (List.pairwise_map.1 h.objects.nodup).imp_of_mem ?_
  intro r r' hr hr' hne n hn m hm heq
  subst heq
  exact hne (hinj (hbutton hr hn) (hbutton hr' hm))

namespace Engine

variable {may : Layout → Layout → Prop} {strict : Prop} {e e₀ e' : Engine} {key : SlotKey}
  {x : Entry} {info : WindowInfo} {r : RegisterRequest} {button : Bool} {l : Layout}
  {call : Call} {desktop : Desktop} {settings : Settings} {keyChord : KeyChord}

def HoldsButtons (e : Engine) : Prop :=
  ∀ ⦃key x a⦄, e.entries.get? key = some x → x.stripeButton = some a →
    e.host.button? a = some x.name

namespace HoldsButtons

theorem step (hh : e.HoldsButtons) (hb : e.Belongs) (hs : Step may e e') : e'.HoldsButtons := by
  intro k y a hy ha
  cases hs with
  | rest hrests =>
    rw [hrests.entries] at hy
    rw [hrests.buttons]
    exact hh hy ha
  | list =>
    rw [entries_registeredInfo] at hy
    rw [snd_registeredInfo]
    exact hh hy ha
  | place | activate | remember => exact hh hy ha
  | @alter key x f hx _ hf hsame =>
    rw [get?_updateEntry_of_get? hx] at hy
    split at hy
    case isTrue =>
      cases hy
      rw [hf.name]
      exact hh hx (hsame ▸ ha)
    case isFalse => exact hh hy ha
  | @label key x info hx _ hnone hid =>
    have hname : info.id = x.name := hid.elim (·.trans (hb.named hx)) (·)
    change (e.host.createStripeButton info).2.button? a = some y.name
    rw [Host.button?_createStripeButton]
    rw [get?_createStripeButton hx] at hy
    split at hy
    case isTrue =>
      cases hy
      rw [if_pos (Option.some.inj ha).symm, hname]
    case isFalse =>
      have hheld := hh hy ha
      rw [if_neg, hheld]
      rintro rfl
      cases hheld.symm.trans Host.button?_next
  | @unlabel key x hx =>
    rw [get?_removeStripeButton hx] at hy
    split at hy
    case isTrue =>
      cases hy
      cases ha
    case isFalse hk =>
      have hheld := hh hy ha
      rw [removeStripeButton_eq hx]
      cases hx' : x.stripeButton with
      | none => exact hheld
      | some b =>
        -- no two windows hold one button
        rw [Option.elim_some, Host.button?_removeStripeButton, if_neg, hheld]
        rintro rfl
        exact hk (hb.unique hy hx (Option.some.inj (hheld.symm.trans (hh hx hx'))))

theorem steps (hh : e.HoldsButtons) (hb : e.Belongs) (hs : Steps may e e') : e'.HoldsButtons := by
  suffices h : e'.Belongs ∧ e'.HoldsButtons from h.2
  induction hs with
  | refl => exact ⟨hb, hh⟩
  | tail _ hs ih => exact ⟨ih.1.step hs, ih.2.step ih.1 hs⟩

theorem rests (hh : e.HoldsButtons) (hb : e.Belongs) (hr : Rests e e') : e'.HoldsButtons :=
  have hstep : Step (fun _ _ ↦ True) e e' := .rest hr
  hh.step hb hstep

theorem admitted (hh : e.HoldsButtons) (hid : info.id = r.id) :
    (e.admitted r info button).2.HoldsButtons := by
  intro k y a hy ha
  obtain ⟨entries, heq⟩ := admitted_eq e r info button
  have hhost : (e.admitted r info button).2.host =
      if button then (e.host.createStripeButton (entered r info)).2 else e.host := by rw [heq]
  rw [get?_admitted] at hy
  rw [hhost]
  cases button with
  | false =>
    split at hy
    case isTrue =>
      cases hy
      cases ha
    case isFalse => exact hh hy ha
  | true =>
    rw [if_pos rfl, Host.button?_createStripeButton]
    split at hy
    case isTrue =>
      cases hy
      rw [if_pos (Option.some.inj ha).symm]
      exact congrArg some hid
    case isFalse =>
      have hheld := hh hy ha
      rw [if_neg, hheld]
      rintro rfl
      cases hheld.symm.trans Host.button?_next

theorem turn (hh : e.HoldsButtons) (hb : e.Belongs) (hd : Drafted e) (hown : call.BringsOwn)
    (h : Turn e call e') : e'.HoldsButtons := by
  cases h with
  | steps h => exact hh.steps hb h
  | @register r info button l _ hnew hin hsteps =>
    have hstored : HoldsButtons { e with layout := l } := hh
    exact (hstored.admitted (hin.id_eq hown)).steps
      ((hb.withLayout hin.grows).admitted hnew (hin.id_eq hown)) hsteps
  | @unregister id key hkey =>
    obtain ⟨x, hx, hname⟩ := get?_of_keyOf? hkey
    have hsteps := steps_stripped Layout.permissive_true.toStable hd hx hname
    have hstripped := hh.steps hb hsteps
    have hwithout : ((e.stripped key id).without key).HoldsButtons := by
      intro k y a hy ha
      rw [get?_without] at hy
      split at hy
      · cases hy
      · exact hstripped hy ha
    rw [unregister_eq hkey]
    exact hwithout
  | @replace _ l e₁ _ hrests hsteps =>
    have hrested : e₁.HoldsButtons := hh.rests hb hrests
    have hreplaced : (e₁.replaceLayout (e₁.completed l)).HoldsButtons := hrested
    exact hreplaced.steps ((hb.rests hrests).replaced (hrests.drafted hd)) hsteps

end HoldsButtons

theorem holdsButtons_of_empty (h : e.entries = .empty) : e.HoldsButtons := by
  intro k x a hx
  rw [h] at hx
  cases hx

theorem Course.holdsButtons
    (hc : Course (fun _ call ↦ call.BringsOwn) (.new (.new desktop) settings keyChord) e) :
    e.HoldsButtons := by
  refine (hc.invariant (I := fun e ↦ e.Belongs ∧ e.HoldsButtons) (drafted_of_empty rfl)
    ⟨belongs_new, holdsButtons_of_empty rfl⟩ fun hd hown hturn hI ↦ ?_).2
  exact ⟨hturn.belongs hd hown hI.1, hI.2.turn hI.1 hd hown hturn⟩

theorem Belongs.mem_buttonIds_iff (hb : e.Belongs) (hh : e.HoldsButtons)
    (hx : e.entries.get? key = some x) :
    x.name ∈ e.host.buttonIds ↔ x.stripeButton.isSome := by
  rw [Host.mem_buttonIds, Option.isSome_iff_exists]
  constructor
  · intro hq
    obtain ⟨a, ha⟩ := hq
    obtain ⟨k, y, hy, hheld, hname⟩ := hb.button ha
    cases hb.unique hy hx hname
    cases hx.symm.trans hy
    exact ⟨a, hheld⟩
  · intro hq
    obtain ⟨a, ha⟩ := hq
    exact ⟨a, hh hx ha⟩

theorem Belongs.nodup_buttonIds (hb : e.Belongs) : e.host.buttonIds.Nodup := by
  refine Host.nodup_buttonIds fun {a b n} ha hb' ↦ ?_
  obtain ⟨k, x, hx, hxa, hxn⟩ := hb.button ha
  obtain ⟨k', y, hy, hyb, hyn⟩ := hb.button hb'
  cases hb.unique hx hy (hxn.trans hyn.symm)
  cases hx.symm.trans hy
  exact Option.some.inj (hxa.symm.trans hyb)

/-- The host has the button of each window that is available and asks for one, once, and of no
other registered window. -/
structure Labelled (e : Engine) : Prop where
  once : e.host.buttonIds.Nodup
  labels : ∀ {key x}, e.entries.get? key = some x →
    (x.name ∈ e.host.buttonIds ↔ x.available ∧ x.info.showStripeButton)

theorem tagged_of_empty (h : e.entries = .empty) : Tagged strict ∅ e := by
  have hnone : ∀ {k t}, e.tag? k ≠ some t := by
    intro k t ht
    obtain ⟨x, hx, -⟩ := tag?_eq_some ht
    rw [h] at hx
    cases hx
  exact ⟨fun ht ↦ absurd ht hnone, fun ht ↦ absurd ht hnone, fun _ ht ↦ absurd ht hnone⟩

theorem Tagged.labelled_iff (h : Tagged False ∅ e) (hb : e.Belongs) (hh : e.HoldsButtons) :
    e.Labelled ↔ Tagged True ∅ e := by
  have hheeds : ∀ {key x}, e.entries.get? key = some x → (x.tag e.layout).Heeds False :=
    fun {key} _ hx ↦ h.heeds (Set.notMem_empty key) (tag?_of_get? hx)
  constructor
  · intro hl
    refine ⟨h.named, h.unique, fun {k t} hk ht ↦ ?_⟩
    obtain ⟨x, hx, rfl⟩ := tag?_eq_some ht
    refine { hheeds hx with ready := fun _ hbutton ↦ ?_ }
    exact ((hl.labels hx).1 ((hb.mem_buttonIds_iff hh hx).2 hbutton)).1
  · intro ht
    refine ⟨hb.nodup_buttonIds, fun {key x} hx ↦ ?_⟩
    have hready := (ht.heeds (Set.notMem_empty key) (tag?_of_get? hx)).ready trivial
    rw [hb.mem_buttonIds_iff hh hx]
    exact ⟨fun hbutton ↦ ⟨hready hbutton, (hheeds hx).asked hbutton⟩,
      fun ⟨ha, hasks⟩ ↦ (hheeds hx).granted ha hasks⟩

variable {request : Request} {result : Except EngineError Unit}

/-- A session of requests, whose registrations bring their own placements. -/
abbrev OwnSession (desktop : Desktop) (settings : Settings) (keyChord : KeyChord) :
    Engine → Prop :=
  Session (fun _ request ↦ (Call.request request).BringsOwn)
    (.new (.new desktop) settings keyChord)

namespace Session

theorem course {allowed : Engine → Request → Prop} (hs : Session allowed e₀ e)
    (hown : ∀ {e request}, allowed e request → (Call.request request).BringsOwn) :
    Course (fun _ call ↦ call.BringsOwn) e₀ e := by
  induction hs with
  | start => exact .refl
  | step _ hallowed hrun ih => exact ih.tail ⟨_, _, hown hallowed, hrun⟩

theorem tagged {allowed : Engine → Request → Prop} (hs : Session allowed e₀ e)
    (hown : ∀ {e request}, allowed e request → (Call.request request).BringsOwn)
    (hm : strict → ∀ {e request}, allowed e request → request.mislabels e = false)
    (h : Tagged strict ∅ e₀) : Tagged strict ∅ e := by
  induction hs with
  | start => exact h
  | step _ hallowed hrun ih => exact ih.run (hown hallowed) (fun hs ↦ hm hs hallowed) hrun

end Session

theorem Tagged.labelled_run_iff (h : Tagged False ∅ e) (hb : e.Belongs) (hh : e.HoldsButtons)
    (hd : Drafted e) (hl : e.Labelled) (hown : (Call.request request).BringsOwn)
    (hrun : request.run.run e = .ok result e') : e'.Labelled ↔ request.mislabels e = false := by
  have hturn := turn_request hd hrun
  have hb' := hturn.belongs hd hown hb
  have hh' := hh.turn hb hd hown hturn
  constructor
  · intro hl'
    by_contra hm
    obtain ⟨key, x, hx, hno, hbutton⟩ := h.run_mislabels (Bool.eq_true_of_not_eq_false hm) hrun
    have ha := ((hl'.labels hx).1 ((hb'.mem_buttonIds_iff hh' hx).2 hbutton)).1
    cases hno.symm.trans ha
  · intro hm
    have ht := (h.labelled_iff hb hh).1 hl
    exact ((h.run hown False.elim hrun).labelled_iff hb' hh').2 (ht.run hown (fun _ ↦ hm) hrun)

theorem Session.labelled {allowed : Engine → Request → Prop}
    (hs : Session allowed (.new (.new desktop) settings keyChord) e)
    (hown : ∀ {e request}, allowed e request →
      (Call.request request).BringsOwn ∧ request.mislabels e = false) : e.Labelled := by
  have hc := hs.course fun h ↦ (hown h).1
  have ht : Tagged True ∅ e := hs.tagged (fun h ↦ (hown h).1) (fun _ _ _ h ↦ (hown h).2)
    (tagged_of_empty rfl)
  have hf : Tagged False ∅ e := hs.tagged (fun h ↦ (hown h).1) False.elim (tagged_of_empty rfl)
  exact (hf.labelled_iff hc.belongs hc.holdsButtons).2 ht

/-- Whatever is requested, no window has two buttons, or one that it does not ask for, and an
available one has the button that it asks for; entry and layout ask for the same. That unavailable
windows have none holds as long as no request asks for the button of one that has none. -/
theorem stripeButtons_follow (hs : OwnSession desktop settings keyChord e) :
    e.host.buttonIds.Nodup ∧
    (∀ {key x}, e.entries.get? key = some x →
      (x.name ∈ e.host.buttonIds → x.info.showStripeButton) ∧
      (x.available → (x.name ∈ e.host.buttonIds ↔ x.info.showStripeButton)) ∧
      ∀ info, e.layout.get? x.name = some info →
        info.showStripeButton = x.info.showStripeButton) ∧
    (e.Labelled → ∀ {request result e'}, (Call.request request).BringsOwn →
      request.run.run e = .ok result e' → (e'.Labelled ↔ request.mislabels e = false)) := by
  have hc := hs.course id
  have hb := hc.belongs
  have hh := hc.holdsButtons
  have ht : Tagged False ∅ e := hs.tagged id False.elim (tagged_of_empty rfl)
  refine ⟨hb.nodup_buttonIds, fun {key x} hx ↦ ?_, fun hl _ _ _ hown hrun ↦
    ht.labelled_run_iff hb hh (hs.drafted (drafted_of_empty rfl)) hl hown hrun⟩
  have hheeds := ht.heeds (Set.notMem_empty key) (tag?_of_get? hx)
  rw [hb.mem_buttonIds_iff hh hx]
  refine ⟨hheeds.asked, fun ha ↦ ⟨hheeds.asked, hheeds.granted ha⟩, fun info hinfo ↦ ?_⟩
  exact (ht.asks_eq (Set.notMem_empty key) ⟨hx, by rw [hb.named hx]; exact hinfo⟩).symm

/-- A window that was registered unavailable and asked to have no button is asked to have one. -/
theorem not_labelled_unavailableRequest :
    ∃ e e', OwnSession .default .default defaultKeyChord e ∧ e.Labelled ∧
      (Request.setShowStripeButton "A" true).run.run e = .ok (.ok ()) e' ∧ ¬ e'.Labelled := by
  obtain ⟨e₁, e, e', hregister, hwithdraw, hmis, hrun⟩ : ∃ e₁ e e',
      (Request.register unavailableRequest).run.run blank = .ok (.ok ()) e₁ ∧
        (Request.setShowStripeButton "A" false).run.run e₁ = .ok (.ok ()) e ∧
        (Request.setShowStripeButton "A" true).mislabels e = true ∧
        (Request.setShowStripeButton "A" true).run.run e = .ok (.ok ()) e' :=
    ⟨_, _, _, rfl, rfl, by decide +kernel, rfl⟩
  have hA : (Call.request (.register unavailableRequest)).BringsOwn := by rintro _ ⟨⟩
  have hB : ∀ b, (Call.request (.setShowStripeButton "A" b)).BringsOwn := fun _ ↦ trivial
  have hs : Session (fun e request ↦ (Call.request request).BringsOwn ∧ request.mislabels e = false)
      blank e :=
    (Session.start.step ⟨hA, rfl⟩ hregister).step ⟨hB false, rfl⟩ hwithdraw
  have hown : OwnSession .default .default defaultKeyChord e :=
    (Session.start.step hA hregister).step (hB false) hwithdraw
  have hl : e.Labelled := hs.labelled fun h ↦ h
  refine ⟨e, e', hown, hl, hrun, fun hl' ↦ ?_⟩
  rw [((stripeButtons_follow hown).2.2 hl (hB true) hrun).1 hl'] at hmis
  cases hmis

end Engine

end ToolDock

import ToolDock.Proofs.Courses

/-!
Whose the things are that the host and the side stacks hold. Every stripe button is held by the
window whose id it bears, and every evicted placement is one of a window that is registered and in
the layout. Main statements: `Course.belongs`, and `stripped_spec` for a window that is
unregistered.
-/

namespace ToolDock.Engine

variable {may : Layout → Layout → Prop} {e e' : Engine} {key k : SlotKey} {x : Entry}
  {info w : WindowInfo} {a : Anchor} {h : Handle} {id n : String} {call : Call}
  {r : RegisterRequest} {button : Bool} {l : Layout}

def HasWindow (e : Engine) (name : String) : Prop :=
  ∃ key x, e.entries.get? key = some x ∧ x.name = name

/-- Every window is registered under its id and no other one is, every evicted placement is one of a
registered window that the layout knows, and every stripe button is held by the window that it is
for. -/
structure Belongs (e : Engine) : Prop where
  named : ∀ {key x}, e.entries.get? key = some x → x.id = x.name
  unique : ∀ {k k' x x'}, e.entries.get? k = some x → e.entries.get? k' = some x' →
    x.name = x'.name → k = k'
  evicted : ∀ {a w}, w ∈ e.sideStack.get a →
    e.settings.stackEnabled ∧ e.layout.contains w.id ∧ e.HasWindow w.id
  button : ∀ {h n}, e.host.button? h = some n →
    ∃ key x, e.entries.get? key = some x ∧ x.stripeButton = some h ∧ x.name = n

theorem snd_registeredInfo : (e.registeredInfo key).2 =
    { e with layout := (e.registeredInfo key).2.layout } := by
  unfold registeredInfo
  split
  · rfl
  · split <;> rfl

theorem removeStripeButton_eq (hx : e.entries.get? key = some x) : e.removeStripeButton key =
    { e with
      entries := (e.removeStripeButton key).entries
      host := x.stripeButton.elim e.host e.host.removeStripeButton } := by
  unfold removeStripeButton
  rw [hx, Option.bind_some]
  cases x.stripeButton with
  | none => rfl
  | some h => rfl

theorem button?_of_elim {button : Option Handle} {host : Host}
    (h' : (button.elim host host.removeStripeButton).button? h = some n) :
    host.button? h = some n ∧ button ≠ some h := by
  cases button with
  | none => exact ⟨h', nofun⟩
  | some b =>
    rw [Option.elim_some, Host.button?_removeStripeButton] at h'
    split at h'
    · cases h'
    · rename_i hne
      exact ⟨h', fun heq ↦ hne (Option.some.inj heq).symm⟩

theorem HasWindow.mono (hw : e.HasWindow n) (h : KeepsNames e e') : e'.HasWindow n := by
  obtain ⟨k, x, hx, rfl⟩ := hw
  obtain ⟨x', hx', hnames⟩ := h hx
  exact ⟨k, x', hx', (Prod.mk.inj hnames).1⟩

theorem Step.settings (h : Step may e e') : e'.settings = e.settings := by
  cases h with
  | rest h => exact h.settings
  | list => rw [snd_registeredInfo]
  | unlabel hx => rw [removeStripeButton_eq hx]
  | place | alter | label | activate | remember => rfl

theorem Step.evicted_cases (h : Step may e e') (hw : w ∈ e'.sideStack.get a) :
    w ∈ e.sideStack.get a ∨ e.settings.stackEnabled ∧ e.layout.contains w.id ∧
      ∃ k x, e.entries.get? k = some x ∧ x.id = w.id := by
  cases h with
  | rest h => exact Or.inl (h.sideStack a hw)
  | list =>
    rw [snd_registeredInfo] at hw
    exact Or.inl hw
  | unlabel hx =>
    rw [removeStripeButton_eq hx] at hw
    exact Or.inl hw
  | place | alter | label | activate => exact Or.inl hw
  | @remember key x info hx hc hid hset =>
    dsimp only at hw
    rw [SideStack.get_push] at hw
    split at hw
    case isFalse => exact Or.inl hw
    case isTrue =>
      rcases List.mem_cons.1 hw with rfl | hold
      · exact Or.inr ⟨hset, hid ▸ hc, key, x, hx, hid.symm⟩
      · exact Or.inl hold

theorem Belongs.button_step (hb : e.Belongs) (hs : Step may e e')
    (hn : e'.host.button? h = some n) :
    ∃ key x, e'.entries.get? key = some x ∧ x.stripeButton = some h ∧ x.name = n := by
  -- the holder of an old button has it still, unless it is the window that something is done to
  have hold : e.host.button? h = some n → (∀ key x, e.entries.get? key = some x →
      x.stripeButton = some h → ∃ x', e'.entries.get? key = some x' ∧
        x'.stripeButton = some h ∧ x'.name = x.name) →
      ∃ key x, e'.entries.get? key = some x ∧ x.stripeButton = some h ∧ x.name = n := by
    intro hn hkeeps
    obtain ⟨key, x, hx, hbutton, rfl⟩ := hb.button hn
    exact ⟨key, hkeeps key x hx hbutton⟩
  cases hs with
  | rest hrests =>
    rw [hrests.buttons] at hn
    exact hold hn fun key x hx hbutton ↦ ⟨x, by rw [hrests.entries]; exact hx, hbutton, rfl⟩
  | list =>
    rw [snd_registeredInfo] at hn
    exact hold hn fun key x hx hbutton ↦
      ⟨x, by rw [entries_registeredInfo]; exact hx, hbutton, rfl⟩
  | place | activate | remember => exact hold hn fun key x hx hbutton ↦ ⟨x, hx, hbutton, rfl⟩
  | @alter key x f hx _ hf hsame =>
    refine hold hn fun k y hy hbutton ↦ ?_
    rw [get?_updateEntry_of_get? hx]
    split
    case isTrue hk =>
      subst hk
      cases hx.symm.trans hy
      exact ⟨f x, rfl, hsame.trans hbutton, hf.name⟩
    case isFalse => exact ⟨y, hy, hbutton, rfl⟩
  | @label key x info hx _ hnone hid =>
    have hname : info.id = x.name := hid.elim (·.trans (hb.named hx)) (·)
    change (e.host.createStripeButton info).2.button? h = some n at hn
    rw [Host.button?_createStripeButton] at hn
    split at hn
    case isTrue hnext =>
      cases hn
      refine ⟨key, _, (get?_createStripeButton hx key).trans (if_pos rfl), ?_, hname.symm⟩
      exact congrArg some hnext.symm
    case isFalse =>
      refine hold hn fun k y hy hbutton ↦ ⟨y, ?_, hbutton, rfl⟩
      rw [get?_createStripeButton hx, if_neg]
      · exact hy
      · rintro rfl
        cases hx.symm.trans hy
        cases hnone.symm.trans hbutton
  | @unlabel key x hx =>
    rw [removeStripeButton_eq hx] at hn
    obtain ⟨hn, hne⟩ := button?_of_elim hn
    refine hold hn fun k y hy hbutton ↦ ⟨y, ?_, hbutton, rfl⟩
    rw [get?_removeStripeButton hx, if_neg]
    · exact hy
    · rintro rfl
      cases hx.symm.trans hy
      exact hne hbutton

theorem Belongs.step (hb : e.Belongs) (hs : Step may e e') : e'.Belongs where
  named {k x'} hx' := by
    rcases hs.get?_cases k with heq | ⟨x, y, hx, hy, hbecomes, -⟩
    · exact hb.named (heq ▸ hx')
    · cases hx'.symm.trans hy
      rw [hbecomes.id, hbecomes.name]
      exact hb.named hx
  unique {k k' x x'} hx hx' hname := by
    have hbefore : ∀ {k x}, e'.entries.get? k = some x →
        ∃ y, e.entries.get? k = some y ∧ y.name = x.name := by
      intro k x hx
      rcases hs.get?_cases k with heq | ⟨y, x', hy, hx', hbecomes, -⟩
      · exact ⟨x, heq ▸ hx, rfl⟩
      · cases hx.symm.trans hx'
        exact ⟨y, hy, hbecomes.name.symm⟩
    obtain ⟨y, hy, hyname⟩ := hbefore hx
    obtain ⟨y', hy', hyname'⟩ := hbefore hx'
    exact hb.unique hy hy' (by rw [hyname, hyname', hname])
  evicted {a w} hw := by
    rw [hs.settings]
    rcases hs.evicted_cases hw with hold | ⟨hset, hc, k, x, hx, hid⟩
    · obtain ⟨hset, hc, hwindow⟩ := hb.evicted hold
      exact ⟨hset, hs.contains hc, hwindow.mono hs.keepsNames⟩
    · have hwindow : e.HasWindow w.id := ⟨k, x, hx, (hb.named hx).symm.trans hid⟩
      exact ⟨hset, hs.contains hc, hwindow.mono hs.keepsNames⟩
  button hn := hb.button_step hs hn

/-- A call brings no placement of another window along. -/
def Call.BringsOwn : Call → Prop
  | request (.register r) => ∀ info, r.placement = some info → info.id = r.id
  | _ => True

theorem get?_admitted_of_get? (hx : e.entries.get? k = some x) :
    (e.admitted r info button).2.entries.get? k = some x := by
  rw [get?_admitted, if_neg]
  · exact hx
  · rintro rfl
    cases fresh_admitted.symm.trans hx

theorem Belongs.withLayout (hb : e.Belongs)
    (hgrows : ∀ {id}, e.layout.contains id → l.contains id) : { e with layout := l }.Belongs :=
  ⟨hb.named, hb.unique, fun hw ↦ ⟨(hb.evicted hw).1, hgrows (hb.evicted hw).2.1,
    (hb.evicted hw).2.2⟩, hb.button⟩

theorem Belongs.admitted (hb : e.Belongs) (hnew : e.isRegistered r.id = false)
    (hid : info.id = r.id) : (e.admitted r info button).2.Belongs := by
  obtain ⟨entries, heq⟩ := admitted_eq e r info button
  have hself := (get?_admitted e r info button _).trans (if_pos rfl)
  refine ⟨fun {k x} hx ↦ ?_, fun {k k' x x'} hx hx' hname ↦ ?_, fun {a w} hw ↦ ?_,
    fun {h n} hn ↦ ?_⟩
  · rw [get?_admitted] at hx
    split at hx
    · cases hx
      exact hid
    · exact hb.named hx
  · have hnamed : ∀ {k x}, e.entries.get? k = some x → x.name ≠ r.id := fun hx ↦
      isNew_of_not_isRegistered hnew hx
    rw [get?_admitted] at hx hx'
    split at hx <;> split at hx'
    case isTrue.isTrue hk hk' => exact hk.trans hk'.symm
    case isTrue.isFalse =>
      cases hx
      exact absurd hname.symm (hnamed hx')
    case isFalse.isTrue =>
      cases hx'
      exact absurd hname (hnamed hx)
    case isFalse.isFalse => exact hb.unique hx hx' hname
  · have hw' : w ∈ e.sideStack.get a := by
      rw [heq] at hw
      exact hw
    obtain ⟨hset, hc, k, x, hx, hname⟩ := hb.evicted hw'
    refine ⟨?_, ?_, k, x, get?_admitted_of_get? hx, hname⟩
    · rw [heq]
      exact hset
    · rw [heq]
      exact hc
  · have hold : e.host.button? h = some n → ∃ key x,
        (e.admitted r info button).2.entries.get? key = some x ∧ x.stripeButton = some h ∧
          x.name = n := fun hn ↦ by
      obtain ⟨k, x, hx, hx'⟩ := hb.button hn
      exact ⟨k, x, get?_admitted_of_get? hx, hx'⟩
    rw [heq] at hn
    cases button with
    | false => exact hold hn
    | true =>
      change (e.host.createStripeButton (entered r info)).2.button? h = some n at hn
      rw [Host.button?_createStripeButton] at hn
      split at hn
      case isTrue hnext =>
        cases hn
        exact ⟨_, _, hself, congrArg some hnext.symm, hid.symm⟩
      case isFalse => exact hold hn

theorem Belongs.rests (hb : e.Belongs) (h : Rests e e') : e'.Belongs :=
  have hstep : Step (fun _ _ ↦ True) e e' := .rest h
  hb.step hstep

theorem Belongs.steps (hb : e.Belongs) (h : Steps may e e') : e'.Belongs := by
  induction h with
  | refl => exact hb
  | tail _ hs ih => exact ih.step hs

theorem Belongs.isDraft (hb : e.Belongs) (hd : Drafted e) (hkey : e.keyOf? id = some key)
    (hx : e.entries.get? key = some x) (hnone : e.layout.get? id = none) : x.IsDraft := by
  obtain ⟨y, hy, hname⟩ := get?_of_keyOf? hkey
  cases hx.symm.trans hy
  refine hd.isDraft hx ?_
  rwa [hb.named hx, hname]

theorem stripped_eq (hx : e.entries.get? key = some x) (hinfo : e.layout.get? id = some info) :
    ∃ entries pane, e.stripped key id = { (e.quieted key info).forgetEvicted id with
      entries := entries
      host := (x.stripeButton.elim (e.quieted key info).host
        (e.quieted key info).host.removeStripeButton).record (.validatePane pane) } ∧
      entries.get? key = some { x.undecorated with stripeButton := none } := by
  have hx₁ : ((e.quieted key info).forgetEvicted id).entries.get? key =
      some x.undecorated := by
    rw [entries_forgetEvicted]
    exact (exchanged_removeDecorators (D := False) info false hx False.elim).2.get?_self
  obtain ⟨pane, heq⟩ := stripped_of_get? key hinfo
  refine ⟨_, pane, ?_, (get?_removeStripeButton hx₁ key).trans (if_pos rfl)⟩
  rw [heq, removeStripeButton_eq hx₁, host_forgetEvicted]
  rfl

theorem stripped_spec (hd : Drafted e) (hb : e.Belongs) (hkey : e.keyOf? id = some key) :
    (∃ x, (e.stripped key id).entries.get? key = some x ∧ x.stripeButton = none ∧ x.name = id) ∧
      ∀ a, ∀ w ∈ (e.stripped key id).sideStack.get a, w.id ≠ id := by
  obtain ⟨x, hx, hname⟩ := get?_of_keyOf? hkey
  cases hinfo : e.layout.get? id with
  | none =>
    -- what the layout lacks is a draft, which has neither
    obtain ⟨r, rfl⟩ := hb.isDraft hd hkey hx hinfo
    rw [stripped_of_none hinfo]
    refine ⟨⟨_, hx, rfl, hname⟩, fun a w hw heq ↦ ?_⟩
    have hc := (hb.evicted hw).2.1
    rw [heq, Layout.not_contains_of_get? hinfo] at hc
    cases hc
  | some info =>
    have hs := hb.steps (steps_stripped Layout.permissive_true.toStable hd hx hname)
    obtain ⟨entries, pane, heq, hbare⟩ := stripped_eq hx hinfo
    rw [heq] at hs ⊢
    refine ⟨⟨_, hbare, rfl, hname⟩, fun a w hw ↦ ?_⟩
    have hset := (hs.evicted hw).1
    dsimp only at hw hset
    generalize e.quieted key info = quiet at hw hset
    unfold forgetEvicted at hw hset
    split at hw
    case isTrue =>
      dsimp only at hw
      rw [SideStack.get_remove, List.mem_filter, bne_iff_ne] at hw
      exact hw.2
    case isFalse hoff =>
      rw [if_neg hoff] at hset
      exact absurd hset hoff

theorem Belongs.unregister (hd : Drafted e) (hb : e.Belongs) (hkey : e.keyOf? id = some key) :
    (e.unregister id).Belongs := by
  obtain ⟨x, hx, hname⟩ := get?_of_keyOf? hkey
  obtain ⟨⟨y, hy, hbare, hyname⟩, hevicted⟩ := stripped_spec hd hb hkey
  have hs := hb.steps (steps_stripped Layout.permissive_true.toStable hd hx hname)
  rw [unregister_eq hkey]
  generalize e.stripped key id = stripped at hy hevicted hs
  refine Belongs.rests ?_ rests_fire
  have hkeeps : ∀ {k z}, z.name ≠ id → stripped.entries.get? k = some z →
      (stripped.without key).entries.get? k = some z := by
    intro k z hne hz
    rw [get?_without, if_neg]
    · exact hz
    · rintro rfl
      cases hy.symm.trans hz
      exact hne hyname
  have hbefore : ∀ {k z}, (stripped.without key).entries.get? k = some z →
      stripped.entries.get? k = some z := by
    intro k z hz
    rw [get?_without] at hz
    split at hz
    · cases hz
    · exact hz
  refine ⟨fun hz ↦ hs.named (hbefore hz), fun hz hz' ↦ hs.unique (hbefore hz) (hbefore hz'),
    fun {a w} hw ↦ ?_, fun {h n} hn ↦ ?_⟩
  · obtain ⟨hset, hc, k, z, hz, hzname⟩ := hs.evicted hw
    exact ⟨hset, hc, k, z, hkeeps (hzname ▸ hevicted a w hw) hz, hzname⟩
  · obtain ⟨k, z, hz, hbutton, rfl⟩ := hs.button hn
    refine ⟨k, z, hkeeps (fun heq ↦ ?_) hz, hbutton, rfl⟩
    cases hs.unique hz hy (heq.trans hyname.symm)
    cases hz.symm.trans hy
    cases hbare.symm.trans hbutton

theorem Belongs.replaced (hb : e.Belongs) (hd : Drafted e) :
    (e.replaceLayout (e.completed l)).Belongs := by
  refine ⟨hb.named, hb.unique, fun {a w} hw ↦ ?_, hb.button⟩
  obtain ⟨hset, -, k, x, hx, hname⟩ := hb.evicted hw
  refine ⟨hset, ?_, k, x, hx, hname⟩
  rw [← hname, ← hb.named hx]
  exact hd.replaced hx

theorem Turn.belongs (h : Turn e call e') (hd : Drafted e) (hown : call.BringsOwn)
    (hb : e.Belongs) : e'.Belongs := by
  cases h with
  | steps h => exact hb.steps h
  | register hnew h hsteps =>
    exact ((hb.withLayout h.grows).admitted hnew (h.id_eq hown)).steps hsteps
  | unregister hkey => exact hb.unregister hd hkey
  | replace hrests hsteps =>
    exact ((hb.rests hrests).replaced (hrests.drafted hd)).steps hsteps

theorem belongs_new {desktop : Desktop} {settings : Settings} {keyChord : KeyChord} :
    (Engine.new (.new desktop) settings keyChord).Belongs := by
  refine ⟨nofun, nofun, fun {a w} hw ↦ ?_, nofun⟩
  change w ∈ SideStack.empty.get a at hw
  rw [SideStack.get_empty] at hw
  cases hw

theorem Course.belongs {desktop : Desktop} {settings : Settings} {keyChord : KeyChord}
    (hc : Course (fun _ call ↦ call.BringsOwn) (.new (.new desktop) settings keyChord) e) :
    e.Belongs :=
  hc.invariant (drafted_of_empty rfl) belongs_new fun hd hown hturn ↦ hturn.belongs hd hown

end ToolDock.Engine

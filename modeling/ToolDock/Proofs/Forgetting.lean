import ToolDock.Proofs.Belongings
import ToolDock.Proofs.Reapplying

/-!
What is left of a window that is unregistered, and what the histories of active windows say then. A
window that the layout lacks keeps its place in the histories, and an external window that the entry
does not hold any more stays open; nothing else is left. Once a window is unregistered that keeps
such a place, the engine cannot say any more what is active. Main statement:
`Course.forgot_keysLive_iff`.
-/

namespace ToolDock

namespace Host

variable {h : Host} {a k : Handle} {id : String}

def externalId? (h : Host) (k : Handle) : Option String := (h.external? k).map (·.id)

theorem exists_mem_externalsOf : (∃ w, (k, w) ∈ h.externalsOf id) ↔ h.externalId? k = some id := by
  simp only [externalsOf, List.mem_filter, mem_externals, externalId?, Option.map_eq_some_iff,
    beq_iff_eq]

theorem externalId?_closeExternal :
    (h.closeExternal a).externalId? k = if k = a then none else h.externalId? k := by
  rw [externalId?, external?_closeExternal]
  split <;> rfl

theorem externalId?_updateExternal {f : ExternalWindow → ExternalWindow}
    (hf : ∀ w, (f w).id = w.id) : (h.updateExternal a f).externalId? k = h.externalId? k := by
  rw [externalId?, external?_updateExternal, externalId?]
  split
  · cases h.external? k with
    | none => rfl
    | some w => exact congrArg some (hf w)
  · rfl

theorem externalId?_removeStripeButton :
    (h.removeStripeButton a).externalId? k = h.externalId? k := by
  rw [externalId?, external?_removeStripeButton, externalId?]

end Host

namespace Engine

variable {may : Layout → Layout → Prop} {e e' : Engine} {key k : SlotKey} {x : Entry}
  {info : WindowInfo} {id n : String} {handle : Handle} {call : Call} {keys : List SlotKey}
  {result : Except EngineError Unit} {desktop : Desktop} {settings : Settings}
  {keyChord : KeyChord}

theorem externalId?_quieted (hx : e.entries.get? key = some x) :
    (e.quieted key info).host.externalId? handle = some n ↔
      e.host.externalId? handle = some n ∧ ¬ x.holds handle := by
  have hclosed : ∀ (e : Engine) (a : Option Handle),
      (e.closeHandle a).host.externalId? handle = some n ↔
        e.host.externalId? handle = some n ∧ a ≠ some handle := by
    intro e a
    cases a with
    | none => simp [closeHandle]
    | some a =>
      change (e.host.closeExternal a).externalId? handle = some n ↔ _
      rw [Host.externalId?_closeExternal, ne_eq, Option.some.injEq, eq_comm (a := a)]
      split
      case isTrue h => simp [h]
      case isFalse h => simp [h]
  have hsaved : (e.saveExternalState key info).2.host.externalId? handle =
      e.host.externalId? handle := by
    obtain ⟨-, heq | ⟨a, -, heq⟩⟩ := saveExternalState_eq info hx
    · rw [heq]
    · rw [heq]
      exact Host.externalId?_updateExternal fun _ ↦ rfl
  have hx₁ : (e.saveExternalState key info).2.entries.get? key = some x :=
    (exchanged_saveExternalState (D := False) info hx False.elim).get?_self
  have hinternal : ∀ e : Engine, (e.removeInternalDecorator key false).host.externalId? handle =
      e.host.externalId? handle := by
    intro e
    unfold removeInternalDecorator
    split
    · rfl
    · dsimp only
      split <;> rfl
  change ((((e.saveExternalState key info).2.removeExternalDecorators key).removeInternalDecorator
    key false)).host.externalId? handle = some n ↔ _
  rw [hinternal, removeExternalDecorators, hx₁]
  dsimp only
  rw [hclosed, hclosed, ← hsaved, Entry.holds, not_or, and_assoc]
  rfl

theorem externalId?_unregister (hd : Drafted e) (hb : e.Belongs) (hkey : e.keyOf? id = some key)
    (hx : e.entries.get? key = some x) : (e.unregister id).host.externalId? handle = some n ↔
      e.host.externalId? handle = some n ∧ ¬ x.holds handle := by
  obtain ⟨y, hy, hname⟩ := get?_of_keyOf? hkey
  cases hx.symm.trans hy
  rw [unregister_eq hkey]
  change (e.stripped key id).host.externalId? handle = some n ↔ _
  cases hinfo : e.layout.get? id with
  | none =>
    obtain ⟨r, rfl⟩ := hb.isDraft hd hkey hx hinfo
    rw [stripped_of_none hinfo]
    exact (and_iff_left fun hholds ↦ hholds.elim nofun nofun).symm
  | some info =>
    obtain ⟨entries, pane, heq, -⟩ := stripped_eq hx hinfo
    rw [heq, ← externalId?_quieted hx]
    cases x.stripeButton with
    | none => rfl
    | some button => exact iff_of_eq (congrArg (· = _) Host.externalId?_removeStripeButton)

/-- Every window in the histories of active windows is registered. -/
def KeysLive (e : Engine) : Prop :=
  ∀ ⦃key⦄, key ∈ e.activeStack.transient ∨ key ∈ e.activeStack.persistent →
    ∃ x, e.entries.get? key = some x

theorem Step.mem_activeStack (h : Step may e e') :
    (∀ {k}, k ∈ e'.activeStack.transient → k ∈ e.activeStack.transient ∨
      ∃ x, e.entries.get? k = some x) ∧
    ∀ {k}, k ∈ e'.activeStack.persistent → k ∈ e.activeStack.persistent ∨
      ∃ x, e.entries.get? k = some x := by
  cases h with
  | rest h => exact ⟨fun hk ↦ Or.inl (h.transient hk), fun hk ↦ Or.inl (h.persistent hk)⟩
  | list =>
    rw [snd_registeredInfo]
    exact ⟨Or.inl, Or.inl⟩
  | unlabel hx =>
    rw [removeStripeButton_eq hx]
    exact ⟨Or.inl, Or.inl⟩
  | place | alter | label | remember => exact ⟨Or.inl, Or.inl⟩
  | activate hx =>
    refine ⟨fun hk ↦ ?_, fun hk ↦ ?_⟩
    · rcases ActiveStack.mem_transient_push.1 hk with rfl | hold
      · exact Or.inr ⟨_, hx⟩
      · exact Or.inl hold
    · rcases ActiveStack.mem_persistent_push.1 hk with rfl | hold
      · exact Or.inr ⟨_, hx⟩
      · exact Or.inl hold

theorem KeysLive.step (hlive : e.KeysLive) (h : Step may e e') : e'.KeysLive := by
  intro k hk
  have hbefore : ∃ x, e.entries.get? k = some x := by
    rcases hk with hk | hk
    · exact (h.mem_activeStack.1 hk).elim (fun hold ↦ hlive (Or.inl hold)) fun hx ↦ hx
    · exact (h.mem_activeStack.2 hk).elim (fun hold ↦ hlive (Or.inr hold)) fun hx ↦ hx
  obtain ⟨x, hx⟩ := hbefore
  obtain ⟨x', hx', -⟩ := h.keepsNames hx
  exact ⟨x', hx'⟩

theorem KeysLive.steps (hlive : e.KeysLive) (h : Steps may e e') : e'.KeysLive := by
  induction h with
  | refl => exact hlive
  | tail _ hs ih => exact ih.step hs

theorem KeysLive.rests (hlive : e.KeysLive) (h : Rests e e') : e'.KeysLive :=
  have hstep : Step (fun _ _ ↦ True) e e' := .rest h
  hlive.step hstep

theorem KeysLive.admitted {r : RegisterRequest} {button : Bool} (hlive : e.KeysLive) :
    (e.admitted r info button).2.KeysLive := by
  intro k hk
  obtain ⟨entries, heq⟩ := admitted_eq e r info button
  have hk' : k ∈ e.activeStack.transient ∨ k ∈ e.activeStack.persistent := by
    rw [heq] at hk
    exact hk
  obtain ⟨x, hx⟩ := hlive hk'
  exact ⟨x, get?_admitted_of_get? hx⟩

theorem activeStack_forgetEvicted : (e.forgetEvicted id).activeStack = e.activeStack := by
  unfold forgetEvicted
  split <;> rfl

/-- A window that is unregistered keeps its place in the histories just if the layout lacks it. -/
theorem mem_activeStack_unregister (hkey : e.keyOf? id = some key) :
    (key ∈ (e.unregister id).activeStack.transient ↔
      e.layout.contains id = false ∧ key ∈ e.activeStack.transient) ∧
    (key ∈ (e.unregister id).activeStack.persistent ↔
      e.layout.contains id = false ∧ key ∈ e.activeStack.persistent) := by
  obtain ⟨x, hx, -⟩ := get?_of_keyOf? hkey
  rw [unregister_eq hkey]
  change (key ∈ (e.stripped key id).activeStack.transient ↔ _) ∧
    (key ∈ (e.stripped key id).activeStack.persistent ↔ _)
  cases hinfo : e.layout.get? id with
  | none =>
    rw [stripped_of_none hinfo, Layout.not_contains_of_get? hinfo]
    simp
  | some info =>
    obtain ⟨entries, pane, heq, -⟩ := stripped_eq hx hinfo
    have hremoved : (e.stripped key id).activeStack =
        (e.removeDecorators key info false).2.activeStack.remove key true := by
      rw [heq]
      exact activeStack_forgetEvicted
    rw [hremoved, Layout.contains_of_get? hinfo]
    simp [ActiveStack.mem_transient_remove, ActiveStack.mem_persistent_remove]

/-- Whether a call unregisters a window that the layout lacks and the histories mention. -/
def Call.strands (e : Engine) : Call → Bool
  | request (.unregister id) => (e.keyOf? id).any fun key ↦ !e.layout.contains id &&
      (e.activeStack.transient.contains key || e.activeStack.persistent.contains key)
  | _ => false

theorem keysLive_unregister (hlive : e.KeysLive) (hd : Drafted e) :
    (e.unregister id).KeysLive ↔ (Call.request (.unregister id)).strands e = false := by
  rw [Call.strands]
  cases hkey : e.keyOf? id with
  | none =>
    rw [unregister_of_none hkey]
    exact iff_of_true hlive rfl
  | some key =>
    obtain ⟨x, hx, hname⟩ := get?_of_keyOf? hkey
    obtain ⟨htransient, hpersistent⟩ := mem_activeStack_unregister hkey
    have hs := hlive.steps (steps_stripped Layout.permissive_true.toStable hd hx hname)
    have hgone : (e.unregister id).entries.get? key = none := by
      rw [unregister_eq hkey]
      exact (get?_without key).trans (if_pos rfl)
    -- of all keys only that of the window may be left without an entry
    have hiff : (e.unregister id).KeysLive ↔ ¬ (key ∈ (e.unregister id).activeStack.transient ∨
        key ∈ (e.unregister id).activeStack.persistent) := by
      refine ⟨fun h hk ↦ ?_, fun hnot k hk ↦ ?_⟩
      · obtain ⟨y, hy⟩ := h hk
        cases hgone.symm.trans hy
      · have hne : k ≠ key := fun heq ↦ hnot (heq ▸ hk)
        rw [unregister_eq hkey] at hk ⊢
        obtain ⟨y, hy⟩ := hs hk
        exact ⟨y, ((get?_without k).trans (if_neg hne)).trans hy⟩
    rw [hiff, htransient, hpersistent, ← and_or_left]
    simp

theorem Turn.keysLive (h : Turn e call e') (hlive : e.KeysLive)
    (hstays : ∀ id, call ≠ .request (.unregister id)) : e'.KeysLive := by
  cases h with
  | steps h => exact hlive.steps h
  | @register r info button l _ _ _ hsteps =>
    have hlive' : { e with layout := l }.KeysLive := hlive
    exact hlive'.admitted.steps hsteps
  | unregister => exact absurd rfl (hstays _)
  | replace hrests hsteps =>
    refine KeysLive.steps (fun k hk ↦ ?_) hsteps
    exact hlive.rests hrests hk

theorem keysLive_run_iff (hd : Drafted e) (hlive : e.KeysLive)
    (hrun : call.run.run e = .ok result e') : e'.KeysLive ↔ call.strands e = false := by
  by_cases hstays : ∀ id, call ≠ .request (.unregister id)
  · refine iff_of_true ((turn_of_run hd hrun).keysLive hlive hstays) ?_
    cases call with
    | request request =>
      cases request with
      | unregister id => exact absurd rfl (hstays id)
      | _ => rfl
    | _ => rfl
  · simp only [ne_eq, not_forall, not_not] at hstays
    obtain ⟨id, rfl⟩ := hstays
    have hok : Ensures (Call.request (.unregister id)).run.run e fun _ e' ↦
        e'.KeysLive ↔ (Call.request (.unregister id)).strands e = false :=
      ensures_run_modify.2 (keysLive_unregister hlive hd)
    exact hok hrun

/-- What is active, what was active last, and what gets the focus by default can be told. -/
structure Answers (e : Engine) : Prop where
  active : ∃ ids, e.activeIds = .ok ids
  persistent : ∃ ids, e.persistentActiveIds = .ok ids
  last : ∃ id, e.lastActiveId? = .ok id
  focus : ∃ id, e.focusTarget? = .ok id

theorem exists_entriesOf :
    (∃ xs, e.entriesOf keys = .ok xs) ↔ ∀ k ∈ keys, ∃ x, e.entries.get? k = some x := by
  induction keys with
  | nil => simp [entriesOf, pure, Except.pure]
  | cons key keys ih =>
    rw [List.forall_mem_cons, ← ih]
    generalize hfound : e.entriesOf keys = found
    unfold entriesOf at hfound ⊢
    rw [List.mapM_cons, hfound]
    cases e.entries.get? key with
    | none => simp [bind, Except.bind]
    | some x =>
      cases found with
      | ok xs => simp [bind, Except.bind, pure, Except.pure]
      | error f => simp [bind, Except.bind]

theorem exists_found (q : Entry → Bool) (h : ∀ k ∈ keys, ∃ x, e.entries.get? k = some x) :
    ∃ x, e.findEntry? q keys = .ok x := by
  induction keys with
  | nil => exact ⟨none, rfl⟩
  | cons key keys ih =>
    obtain ⟨⟨x, hx⟩, hrest⟩ := List.forall_mem_cons.1 h
    unfold findEntry?
    rw [hx]
    dsimp only
    split
    · exact ⟨_, rfl⟩
    · exact ih hrest

theorem answers_iff : e.Answers ↔ e.KeysLive := by
  have hmap : ∀ {α β : Type} {c : Checked α} {f : α → β},
      (∃ b, (f <$> c) = .ok b) ↔ ∃ a, c = .ok a := by
    intro α β c f
    cases c with
    | ok a => exact iff_of_true ⟨f a, rfl⟩ ⟨a, rfl⟩
    | error _ => exact iff_of_false (fun ⟨_, h⟩ ↦ nomatch h) fun ⟨_, h⟩ ↦ nomatch h
  have hlists : e.KeysLive ↔ (∀ k ∈ e.activeStack.transient, ∃ x, e.entries.get? k = some x) ∧
      ∀ k ∈ e.activeStack.persistent, ∃ x, e.entries.get? k = some x :=
    ⟨fun h ↦ ⟨fun k hk ↦ h (Or.inl hk), fun k hk ↦ h (Or.inr hk)⟩,
      fun h k hk ↦ hk.elim (h.1 k) (h.2 k)⟩
  rw [hlists, ← exists_entriesOf, ← exists_entriesOf]
  constructor
  · intro h
    exact ⟨hmap.1 h.active, hmap.1 h.persistent⟩
  · intro h
    obtain ⟨htransient, hpersistent⟩ := h
    have hall := List.forall_mem_append.2
      ⟨exists_entriesOf.1 htransient, exists_entriesOf.1 hpersistent⟩
    exact ⟨hmap.2 htransient, hmap.2 hpersistent,
      hmap.2 (exists_found _ (exists_entriesOf.1 hpersistent)),
      hmap.2 (exists_found _ hall)⟩

/-- Nothing is left of a window: it is in no history, it has no evicted placement, no stripe button
and no external window. -/
structure Forgot (e : Engine) (key : SlotKey) (id : String) : Prop where
  transient : key ∉ e.activeStack.transient
  persistent : key ∉ e.activeStack.persistent
  evicted : ∀ a, ∀ w ∈ e.sideStack.get a, w.id ≠ id
  button : id ∉ e.host.buttonIds
  external : e.host.externalsOf id = []

theorem left_unregister (hd : Drafted e) (hb : e.Belongs) (hkey : e.keyOf? id = some key) :
    (∀ a, ∀ w ∈ (e.unregister id).sideStack.get a, w.id ≠ id) ∧
      id ∉ (e.unregister id).host.buttonIds := by
  obtain ⟨x, hx, hname⟩ := get?_of_keyOf? hkey
  obtain ⟨⟨y, hy, hbare, hyname⟩, hevicted⟩ := stripped_spec hd hb hkey
  have hs := hb.steps (steps_stripped Layout.permissive_true.toStable hd hx hname)
  rw [unregister_eq hkey]
  refine ⟨hevicted, fun hm ↦ ?_⟩
  obtain ⟨handle, hn⟩ := Host.mem_buttonIds.1 hm
  obtain ⟨k, z, hz, hbutton, hzname⟩ := hs.button hn
  cases hs.unique hz hy (hzname.trans hyname.symm)
  cases hz.symm.trans hy
  cases hbare.symm.trans hbutton

theorem forgot_unregister_iff (hd : Drafted e) (hb : e.Belongs) (hkey : e.keyOf? id = some key)
    (hx : e.entries.get? key = some x) : (e.unregister id).Forgot key id ↔
      (e.layout.contains id ∨ key ∉ e.activeStack.transient ∧ key ∉ e.activeStack.persistent) ∧
        ∀ r ∈ e.host.externalsOf id, x.holds r.1 := by
  obtain ⟨hevicted, hbutton⟩ := left_unregister hd hb hkey
  obtain ⟨htransient, hpersistent⟩ := mem_activeStack_unregister hkey
  have hexternal : (e.unregister id).host.externalsOf id = [] ↔
      ∀ r ∈ e.host.externalsOf id, x.holds r.1 := by
    have hopen : ∀ (h : Host) (handle : Handle),
        (∃ w, (handle, w) ∈ h.externalsOf id) ↔ h.externalId? handle = some id :=
      fun _ _ ↦ Host.exists_mem_externalsOf
    rw [List.eq_nil_iff_forall_not_mem]
    constructor
    · intro h r hr
      by_contra hnot
      obtain ⟨w, hw⟩ := (hopen _ r.1).2 ((externalId?_unregister hd hb hkey hx).2
        ⟨(hopen _ r.1).1 ⟨r.2, hr⟩, hnot⟩)
      exact h _ hw
    · intro h r hr
      obtain ⟨hold, hnot⟩ := (externalId?_unregister hd hb hkey hx).1 ((hopen _ r.1).1 ⟨r.2, hr⟩)
      obtain ⟨w, hw⟩ := (hopen _ r.1).2 hold
      exact hnot (h (r.1, w) hw)
  rw [← hexternal]
  constructor
  · intro h
    have h₁ := h.transient
    have h₂ := h.persistent
    rw [htransient] at h₁
    rw [hpersistent] at h₂
    refine ⟨?_, h.external⟩
    by_cases hc : e.layout.contains id = true
    · exact Or.inl hc
    · have hno : e.layout.contains id = false := Bool.eq_false_iff.2 hc
      exact Or.inr ⟨fun hm ↦ h₁ ⟨hno, hm⟩, fun hm ↦ h₂ ⟨hno, hm⟩⟩
  · intro h
    obtain ⟨hleft, hclosed⟩ := h
    refine ⟨?_, ?_, hevicted, hbutton, hclosed⟩
    · rw [htransient]
      rintro ⟨hno, hm⟩
      exact hleft.elim (fun hc ↦ by rw [hno] at hc; cases hc) fun hnot ↦ hnot.1 hm
    · rw [hpersistent]
      rintro ⟨hno, hm⟩
      exact hleft.elim (fun hc ↦ by rw [hno] at hc; cases hc) fun hnot ↦ hnot.2 hm

/-- However an engine came about: a window that is unregistered is forgotten just if the layout
knows it or no history mentions it, and its entry holds all its external windows. The histories can
be told just if they mention registered windows only; a call leaves it at that unless it unregisters
a window that the layout lacks and a history mentions. -/
theorem Course.forgot_keysLive_iff
    (hc : Course (fun _ call ↦ call.BringsOwn) (.new (.new desktop) settings keyChord) e) :
    (∀ {id key x}, e.keyOf? id = some key → e.entries.get? key = some x →
      ((e.unregister id).Forgot key id ↔
        (e.layout.contains id ∨
          key ∉ e.activeStack.transient ∧ key ∉ e.activeStack.persistent) ∧
        ∀ r ∈ e.host.externalsOf id, x.holds r.1)) ∧
    (e.Answers ↔ e.KeysLive) ∧
    (e.KeysLive → ∀ {call result e'}, (Call.run call).run e = .ok result e' →
      (e'.KeysLive ↔ call.strands e = false)) := by
  have hd := hc.drafted (drafted_of_empty rfl)
  exact ⟨fun hkey hx ↦ forgot_unregister_iff hd hc.belongs hkey hx, answers_iff,
    fun hlive _ _ _ hrun ↦ keysLive_run_iff hd hlive hrun⟩

/-- A window that was registered unavailable gets the focus and is unregistered: it stays the one
that was active last, and nobody can be told so. -/
theorem not_forgot_unavailableRequest : ∃ e key, Course (fun _ call ↦ call.BringsOwn) blank e ∧
    e.Answers ∧ e.keyOf? "A" = some key ∧ ¬ (e.unregister "A").Forgot key "A" ∧
      ¬ (e.unregister "A").Answers := by
  obtain ⟨e₁, e, hregister, hfocus, hkey, ⟨x, hx⟩, hstack, hlacks⟩ : ∃ e₁ e,
      (Call.request (.register unavailableRequest)).run.run blank = .ok (.ok ()) e₁ ∧
        (Call.request (.toolWindowFocused "A")).run.run e₁ = .ok (.ok ()) e ∧
        e.keyOf? "A" = some ⟨0, 0⟩ ∧ (∃ x, e.entries.get? ⟨0, 0⟩ = some x) ∧
        e.activeStack = ⟨[⟨0, 0⟩], [⟨0, 0⟩]⟩ ∧ e.layout.contains "A" = false :=
    ⟨_, _, rfl, rfl, by decide +kernel, ⟨_, rfl⟩, by decide +kernel, by decide +kernel⟩
  have hc : Course (fun _ call ↦ call.BringsOwn) blank e :=
    (Relation.ReflTransGen.single ⟨_, _, by rintro _ ⟨⟩, hregister⟩).tail
      ⟨.request (.toolWindowFocused "A"), _, trivial, hfocus⟩
  have hunregister : (Call.request (.unregister "A")).run.run e =
      .ok (.ok ()) (e.unregister "A") := rfl
  have hc' : Course (fun _ call ↦ call.BringsOwn) blank (e.unregister "A") :=
    hc.tail ⟨.request (.unregister "A"), _, trivial, hunregister⟩
  obtain ⟨hforgot, hanswers, hruns⟩ := Course.forgot_keysLive_iff hc
  have hlive : e.KeysLive := by
    intro k hk
    rw [hstack, or_self, List.mem_singleton] at hk
    exact ⟨x, hk ▸ hx⟩
  refine ⟨e, ⟨0, 0⟩, hc, hanswers.2 hlive, hkey, fun h ↦ ?_, fun h ↦ ?_⟩
  · rcases ((hforgot hkey hx).1 h).1 with hcontains | hnot
    · cases hlacks.symm.trans hcontains
    · exact hnot.1 (by rw [hstack]; exact List.mem_singleton_self _)
  · have hstays := (hruns hlive hunregister).1 ((Course.forgot_keysLive_iff hc').2.1.1 h)
    simp [Call.strands, hkey, hlacks, hstack] at hstays

theorem Course.answers
    (hc : Course (fun e call ↦ call.strands e = false) (.new (.new desktop) settings keyChord) e) :
    e.Answers := by
  rw [answers_iff]
  induction hc with
  | refl => exact fun k hk ↦ hk.elim nofun nofun
  | tail hc hstep ih =>
    obtain ⟨call, result, hstays, hrun⟩ := hstep
    exact (keysLive_run_iff (Course.drafted hc (drafted_of_empty rfl)) ih hrun).2 hstays

end Engine

end ToolDock

import ToolDock.Proofs.Decorators

/-!
Decoration: visible windows have exactly the decorators that their types ask for, hidden ones have
none, and the host has just what entries hold. An engine is sound if it is coherent and, where that
is asked for, decorated; both may leave windows aside. Main statements: `Sound.redecorate` and
`Sound.commit` say which exchanges keep an engine sound.
-/

namespace ToolDock

/-- Whether an entry has the decorators that its placement asks for, and no others. -/
def Entry.IsDecorated (headless : Bool) (x : Entry) : Prop :=
  if x.info.visible then x.IsDecoratedFor headless x.info
  else x.attached = none ∧ x.floating = none ∧ x.windowed = none

namespace Entry

variable {x : Entry} {headless : Bool}

theorem isDecorated_of_visible (hv : x.info.visible) :
    x.IsDecorated headless ↔ x.IsDecoratedFor headless x.info := by
  rw [IsDecorated, if_pos hv]

theorem isDecorated_of_hidden (hv : x.info.visible = false) :
    x.IsDecorated headless ↔ x.attached = none ∧ x.floating = none ∧ x.windowed = none := by
  rw [IsDecorated, if_neg (by rw [hv]; exact Bool.false_ne_true)]

theorem IsDecorated.congr {info : WindowInfo} (h : x.IsDecorated headless)
    (hv : info.visible = x.info.visible) (ht : info.windowType = x.info.windowType)
    (hs : info.occupiesSlot → info.slot = x.info.slot) :
    Entry.IsDecorated headless { x with info := info } := by
  by_cases hvis : info.visible = true
  · rw [isDecorated_of_visible (hv ▸ hvis)] at h
    rw [isDecorated_of_visible hvis]
    unfold IsDecoratedFor at h ⊢
    rw [← ht] at h
    cases hit : info.windowType with
    | docked | sliding =>
      have hslot := hs (by simp [WindowInfo.occupiesSlot, hvis, hit, WindowType.isInternal])
      simpa only [hit, hslot] using h
    | floating | windowed => simpa only [hit] using h
  · rw [isDecorated_of_hidden (by rw [← hv]; simpa using hvis)] at h
    exact (isDecorated_of_hidden (by simpa using hvis)).2 h

theorem IsDecorated.of_core {info : WindowInfo} (h : x.IsDecorated headless)
    (hcore : info.core = x.info.core) : Entry.IsDecorated headless { x with info := info } :=
  h.congr (WindowInfo.visible_of_core hcore) (WindowInfo.windowType_of_core hcore)
    fun _ ↦ WindowInfo.slot_of_core hcore

end Entry

/-- The host has just what entries hold, each thing held by one. -/
structure HeldOnce (hosted : Handle → Bool) (held : Entry → Handle → Prop)
    (entries : SlotTable Entry) : Prop where
  hosted_iff : ∀ a, hosted a ↔ ∃ key x, entries.get? key = some x ∧ held x a
  unique : ∀ {k k' x x' a}, entries.get? k = some x → entries.get? k' = some x' → held x a →
    held x' a → k = k'

theorem HeldOnce.exchange {hosted hosted' : Handle → Bool} {held : Entry → Handle → Prop}
    {entries entries' : SlotTable Entry} {key : SlotKey} {x x' : Entry}
    (h : HeldOnce hosted held entries) (hx : entries.get? key = some x)
    (hget : ∀ k, entries'.get? k = if k = key then some x' else entries.get? k)
    (ht : Trade hosted hosted' (held x) (held x')) : HeldOnce hosted' held entries' := by
  -- an entry afterwards is the exchanged one, or was there before
  have hold : ∀ {k y}, entries'.get? k = some y →
      k = key ∧ y = x' ∨ k ≠ key ∧ entries.get? k = some y := by
    intro k y hy
    rw [hget] at hy
    split at hy
    case isTrue hk => exact Or.inl ⟨hk, (Option.some.inj hy).symm⟩
    case isFalse hk => exact Or.inr ⟨hk, hy⟩
  -- what only the exchanged entry holds is new, so no other entry holds it
  have hother : ∀ {k y a}, k ≠ key → entries.get? k = some y → held y a → ¬ held x' a := by
    intro k y a hne hy ha ha'
    have hhosted := (h.hosted_iff a).2 ⟨k, y, hy, ha⟩
    rw [ht.fresh a ha' fun hxa ↦ hne (h.unique hy hx ha hxa)] at hhosted
    cases hhosted
  refine ⟨fun a ↦ ?_, fun {k k' y y' a} hy hy' ha ha' ↦ ?_⟩
  · rw [ht.hosts, h.hosted_iff]
    constructor
    · intro hq
      rcases hq with ha | ⟨⟨k, y, hy, ha⟩, hnot⟩
      · exact ⟨key, x', by rw [hget, if_pos rfl], ha⟩
      · have hne : k ≠ key := by
          rintro rfl
          cases hx.symm.trans hy
          exact hnot ha
        exact ⟨k, y, by rwa [hget, if_neg hne], ha⟩
    · intro hq
      rcases hq with ⟨k, y, hy, ha⟩
      obtain ⟨rfl, rfl⟩ | ⟨hne, hy⟩ := hold hy
      · exact Or.inl ha
      · exact Or.inr ⟨⟨k, y, hy, ha⟩, fun hxa ↦ hne (h.unique hy hx ha hxa)⟩
  · obtain ⟨rfl, rfl⟩ | ⟨hne, hy⟩ := hold hy <;> obtain ⟨rfl, rfl⟩ | ⟨hne', hy'⟩ := hold hy'
    · rfl
    · exact absurd ha (hother hne' hy' ha')
    · exact absurd ha' (hother hne hy ha)
    · exact h.unique hy hy' ha ha'

theorem HeldOnce.remove {hosted : Handle → Bool} {held : Entry → Handle → Prop}
    {entries : SlotTable Entry} {key : SlotKey} {x : Entry}
    (h : HeldOnce hosted held entries) (hx : entries.get? key = some x) (hnone : ∀ a, ¬ held x a) :
    HeldOnce hosted held (entries.remove key) := by
  have hold : ∀ {k y}, (entries.remove key).get? k = some y → entries.get? k = some y := by
    intro k y hy
    rw [SlotTable.get?_remove] at hy
    split at hy
    · cases hy
    · exact hy
  refine ⟨fun a ↦ ?_, fun hy hy' ↦ h.unique (hold hy) (hold hy')⟩
  rw [h.hosted_iff]
  refine ⟨fun ⟨k, y, hy, ha⟩ ↦ ⟨k, y, ?_, ha⟩, fun ⟨k, y, hy, ha⟩ ↦ ⟨k, y, hold hy, ha⟩⟩
  have hne : k ≠ key := by
    rintro rfl
    cases hx.symm.trans hy
    exact hnone a ha
  rwa [SlotTable.get?_remove, if_neg hne]

namespace Engine

/-- All windows but those aside are decorated as they ask for, only windows of the layout have
stripe buttons, and the host has just the external windows and stripe buttons that entries hold. -/
structure DecoratedOn (aside : Set SlotKey) (e : Engine) : Prop where
  shape : ∀ {key x}, key ∉ aside → e.entries.get? key = some x →
    x.IsDecorated e.host.desktop.headless
  known : ∀ {key x}, e.entries.get? key = some x → x.stripeButton.isSome → e.layout.contains x.id
  externals : HeldOnce e.host.isOpen Entry.holds e.entries
  buttons : HeldOnce e.host.isButton Entry.hasButton e.entries

variable {κ : Type} {detail : Int32 × Bool × Bool → κ} {D : Prop} {s s' t t' : Set SlotKey}
  {e e' : Engine} {key k : SlotKey} {x x' : Entry} {info : WindowInfo} {l : Layout}

namespace DecoratedOn

theorem isServed (h : DecoratedOn t e) (hx : e.entries.get? key = some x) : x.IsServed e.host :=
  ⟨fun a ha ↦ (h.externals.hosted_iff a).2 ⟨key, x, hx, ha⟩,
    fun a ha ↦ (h.buttons.hosted_iff a).2 ⟨key, x, hx, ha⟩⟩

theorem congr (h : DecoratedOn t e) (he : e'.entries = e.entries) (hk : e.host.Keeps e'.host)
    (hc : ∀ id, e.layout.contains id → e'.layout.contains id) : DecoratedOn t e' where
  shape hkey hx := hk.desktop ▸ h.shape hkey (he ▸ hx)
  known hx hb := hc _ (h.known (he ▸ hx) hb)
  externals := ⟨fun a ↦ by rw [hk.isOpen, h.externals.hosted_iff, he],
    fun hx hx' ↦ h.externals.unique (he ▸ hx) (he ▸ hx')⟩
  buttons := ⟨fun a ↦ by rw [hk.isButton, h.buttons.hosted_iff, he],
    fun hx hx' ↦ h.buttons.unique (he ▸ hx) (he ▸ hx')⟩

theorem mono (h : DecoratedOn t e) (ht : t ⊆ t') : DecoratedOn t' e where
  shape hkey := h.shape fun hm ↦ hkey (ht hm)
  known := h.known
  externals := h.externals
  buttons := h.buttons

theorem exchange (h : DecoratedOn t e) (hd : D) (hx : e.entries.get? key = some x)
    (hex : Exchanged D key x x' l e e') (hc : ∀ id, e.layout.contains id → l.contains id)
    (hknown : x'.stripeButton.isSome → l.contains x'.id)
    (hshape : key ∉ t' → x'.IsDecorated e.host.desktop.headless)
    (ht : ∀ k, k ≠ key → k ∈ t → k ∈ t') : DecoratedOn t' e' := by
  refine ⟨fun {k y} hk hy ↦ ?_, fun {k y} hy hb ↦ ?_, h.externals.exchange hx hex.get?
    (hex.host hd).externals, h.buttons.exchange hx hex.get? (hex.host hd).buttons⟩
  · rw [hex.desktop]
    rw [hex.get?] at hy
    split at hy
    case isTrue heq =>
      cases hy
      exact hshape (heq ▸ hk)
    case isFalse hne => exact h.shape (fun hm ↦ hk (ht k hne hm)) hy
  · rw [hex.layout]
    rw [hex.get?] at hy
    split at hy
    case isTrue =>
      cases hy
      exact hknown hb
    case isFalse => exact hc _ (h.known hy hb)

end DecoratedOn

theorem Exchanged.standing? (hex : Exchanged D key x x' l e e') (k : SlotKey) :
    e'.standing? k = if k = key then some x'.standing else e.standing? k := by
  rw [Engine.standing?, hex.get?]
  split <;> rfl

/-- Coherent but for the windows in `s`, and decorated but for those in `t` if `D` holds. -/
structure Sound (detail : Int32 × Bool × Bool → κ) (D : Prop) (s t : Set SlotKey) (e : Engine) :
    Prop where
  coherent : CoherentOn detail s e
  decorated : D → DecoratedOn t e

namespace Sound

theorem isServed (h : Sound detail D s t e) (hx : e.entries.get? key = some x) (hd : D) :
    x.IsServed e.host :=
  (h.decorated hd).isServed hx

theorem id_eq (h : Sound detail D s t e) (hx : e.entries.get? key = some x) : x.id = x.name :=
  h.coherent.id_eq (standing?_of_get? hx)

theorem info_id (h : Sound detail D s t e) (hx : e.entries.get? key = some x) :
    x.info.id = x.name :=
  h.coherent.info_id (standing?_of_get? hx)

theorem mono (h : Sound detail D s t e) (hs : s ⊆ s') (ht : t ⊆ t') : Sound detail D s' t' e :=
  ⟨h.coherent.mono hs, fun hd ↦ (h.decorated hd).mono ht⟩

theorem congr (h : Sound detail D s t e) (he : e'.entries = e.entries)
    (hl : e'.layout.windows = e.layout.windows) (hk : e.host.Keeps e'.host) :
    Sound detail D s t e' where
  coherent := h.coherent.congr (by funext k; rw [standing?, he, standing?]) hl
  decorated hd := (h.decorated hd).congr he hk fun id ↦ (Layout.contains_congr hl id).trans

theorem redecorate (h : Sound detail D s t e) (hx : e.entries.get? key = some x)
    (hex : Exchanged D key x x' e.layout e e') (hst : x'.standing = x.standing)
    (hknown : D → x'.stripeButton.isSome → e.layout.contains x.id)
    (hshape : D → key ∉ t' → x'.IsDecorated e.host.desktop.headless)
    (ht : ∀ k, k ≠ key → k ∈ t → k ∈ t') : Sound detail D s t' e' where
  coherent := by
    refine h.coherent.congr ?_ (congrArg Layout.windows hex.layout)
    funext k
    rw [hex.standing?, hst]
    split
    case isTrue hk => rw [hk, standing?_of_get? hx]
    case isFalse => rfl
  decorated hd := by
    have hid : x'.id = x.id := congrArg Standing.id hst
    exact (h.decorated hd).exchange hd hx hex (fun _ hc ↦ hc)
      (fun hb ↦ hid ▸ hknown hd hb) (hshape hd) ht

theorem rebutton {b : Option Handle} (h : Sound detail D s t e)
    (hx : e.entries.get? key = some x)
    (hex : Exchanged D key x { x with stripeButton := b } e.layout e e')
    (hknown : D → b.isSome → e.layout.contains x.id) : Sound detail D s t e' := by
  refine h.redecorate hx hex rfl hknown (fun hd hk ↦ ?_) fun _ _ hm ↦ hm
  have hshape := (h.decorated hd).shape hk hx
  exact hshape

/-- A placement may be stored for a window that was left aside, which may then be put down where it
is available if visible, its slot is free and its decorators fit. -/
theorem commit (h : Sound detail D (insert key s) (insert key t) e)
    (hx : e.entries.get? key = some x) (hid : info.id = x.name)
    (hready : key ∉ s → info.visible → x.available)
    (hfree : key ∉ s → info.occupiesSlot → ∀ k y, k ∉ s → k ≠ key → e.entries.get? k = some y →
      y.info.occupiesSlot → y.info.slot ≠ info.slot)
    (hshape : D → key ∉ t → Entry.IsDecorated e.host.desktop.headless { x with info := info }) :
    Sound detail D s t (e.commit key info) := by
  have hex := exchanged_commit info hx (h.isServed hx)
  have hxid : info.id = x.id := hid.trans (h.id_eq hx).symm
  have hmono : ∀ id, e.layout.contains id → (e.layout.put info).contains id :=
    fun _ hc ↦ Layout.contains_put.2 (Or.inr hc)
  have hself : (e.layout.put info).contains x.id := Layout.contains_put.2 (Or.inl hxid.symm)
  have hchange : CoherentOn detail (insert key s) (e.commit key info) := by
    refine h.coherent.change (Set.mem_insert key s) (standing?_of_get? hx) hid hex.standing?
      (fun id hne ↦ ?_) hmono
    rw [get?_commit_layout, if_neg fun heq ↦ hne (heq.trans hxid)]
  refine ⟨?_, fun hd ↦ ?_⟩
  · by_cases hk : key ∈ s
    · rwa [Set.insert_eq_of_mem hk] at hchange
    have hstand := (hex.standing? key).trans (if_pos rfl)
    refine hchange.put_down hstand (fun stored hstored ↦ ?_) (fun hv ↦ ⟨hready hk hv, hself⟩)
      fun ho k y hks hne hy ho' ↦ ?_
    · rw [get?_commit_layout] at hstored
      change (if x.id = info.id then _ else _) = _ at hstored
      rw [if_pos hxid.symm] at hstored
      cases hstored
      exact ⟨rfl, rfl⟩
    · rw [hex.standing?, if_neg hne] at hy
      obtain ⟨entry, hentry, rfl⟩ := standing?_eq_some.1 hy
      exact hfree hk ho k entry hks hne hentry ho'
  · refine (h.decorated hd).exchange hd hx hex hmono (fun _ ↦ hself) (hshape hd) fun k hne hk ↦ ?_
    exact (Set.mem_insert_iff.1 hk).resolve_left hne

theorem commit_core (h : Sound detail D s t e) (hx : e.entries.get? key = some x)
    (hid : info.id = x.name) (hcore : key ∉ s → info.core = x.info.core)
    (hshape : key ∉ t → info.core = x.info.core) : Sound detail D s t (e.commit key info) := by
  have hstand := standing?_of_get? hx
  refine (h.mono (Set.subset_insert key s) (Set.subset_insert key t)).commit hx hid
    (fun hk hv ↦ ?_) (fun hk ho k y hks hne hy ho' hslot ↦ hne ?_) fun hd hk ↦ ?_
  · rw [WindowInfo.visible_of_core (hcore hk)] at hv
    exact (h.coherent.ready hk hstand hv).1
  · rw [WindowInfo.occupiesSlot_of_core (hcore hk)] at ho
    rw [WindowInfo.slot_of_core (hcore hk)] at hslot
    exact h.coherent.exclusive hks hk (standing?_of_get? hy) hstand ho' ho hslot
  · exact ((h.decorated hd).shape hk hx).of_core (hshape hk)

theorem put_down (h : Sound detail D (insert key s) (insert key t) e)
    (hx : e.entries.get? key = some x)
    (hagrees : ∀ stored, e.layout.get? x.id = some stored → stored = x.info)
    (hready : x.info.visible → x.available ∧ e.layout.contains x.id)
    (hfree : x.info.occupiesSlot → ∀ k y, k ∉ s → k ≠ key → e.entries.get? k = some y →
      y.info.occupiesSlot → y.info.slot ≠ x.info.slot)
    (hshape : D → x.IsDecorated e.host.desktop.headless) : Sound detail D s t e := by
  refine ⟨h.coherent.put_down (standing?_of_get? hx) (fun stored hstored ↦ ?_) hready
    fun ho k y hk hne hy ho' ↦ ?_, fun hd ↦ ?_⟩
  · rw [hagrees stored hstored]
    exact ⟨rfl, rfl⟩
  · obtain ⟨entry, hentry, rfl⟩ := standing?_eq_some.1 hy
    exact hfree ho k entry hk hne hentry ho'
  · have hdec := h.decorated hd
    refine ⟨fun {k y} hk hy ↦ ?_, hdec.known, hdec.externals, hdec.buttons⟩
    by_cases hkey : k = key
    · subst hkey
      cases hx.symm.trans hy
      exact hshape hd
    · exact hdec.shape (fun hm ↦ hk ((Set.mem_insert_iff.1 hm).resolve_left hkey)) hy

theorem commit_hidden (h : Sound detail D (insert key s) (insert key t) e)
    (hx : e.entries.get? key = some x) (hid : info.id = x.name) (hv : info.visible = false)
    (hbare : D → x.attached = none ∧ x.floating = none ∧ x.windowed = none) :
    Sound detail D s t (e.commit key info) := by
  refine h.commit hx hid (fun _ hvis ↦ ?_) (fun _ ho ↦ ?_) fun hd _ ↦ ?_
  · rw [hv] at hvis
    cases hvis
  · rw [WindowInfo.not_occupiesSlot hv] at ho
    cases ho
  · rw [Entry.isDecorated_of_hidden hv]
    exact hbare hd

end Sound

end Engine

end ToolDock

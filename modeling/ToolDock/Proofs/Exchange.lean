import ToolDock.Engine.Visibility
import ToolDock.Proofs.Ensures
import ToolDock.Proofs.Handles

/-!
Changes that exchange the entry under one key, while the host opens and closes just what the two
entries differ in. Every step that decorates a window, takes its decorators or moves its stripe
button is one, and so is the step that stores a placement.
-/

namespace ToolDock

namespace Entry

/-- Whether a handle is that of an external window of the entry. -/
def holds (x : Entry) (a : Handle) : Prop := x.floating = some a ∨ x.windowed = some a

def hasButton (x : Entry) (a : Handle) : Prop := x.stripeButton = some a

def IsServed (x : Entry) (h : Host) : Prop :=
  (∀ a, x.holds a → h.isOpen a) ∧ ∀ a, x.hasButton a → h.isButton a

def undecorated (x : Entry) : Entry :=
  { x with attached := none, floating := none, windowed := none }

end Entry

/-- What a host has changes in what somebody holds: what is held no more goes, and what is held anew
was not there before. -/
structure Trade (hosted hosted' : Handle → Bool) (held held' : Handle → Prop) : Prop where
  hosts : ∀ a, hosted' a ↔ held' a ∨ hosted a ∧ ¬ held a
  fresh : ∀ a, held' a → ¬ held a → hosted a = false

namespace Trade

variable {hosted hosted' hosted'' : Handle → Bool} {held held' held'' : Handle → Prop}

theorem trans (h : Trade hosted hosted' held held') (h' : Trade hosted' hosted'' held' held'') :
    Trade hosted hosted'' held held'' where
  hosts a := by
    have := h.fresh a
    rw [h'.hosts, h.hosts]
    grind
  fresh a ha hx := by
    by_cases hx' : held' a
    · exact h.fresh a hx' hx
    · have hnot := h'.fresh a ha hx'
      rw [← Bool.not_eq_true, h.hosts] at hnot
      grind

theorem served (h : Trade hosted hosted' held held') {a : Handle} (ha : held' a) : hosted' a :=
  (h.hosts a).2 (Or.inl ha)

theorem of_eq (hs : ∀ a, held a → hosted a) (hhost : ∀ a, hosted' a = hosted a)
    (hheld : ∀ a, held' a ↔ held a) : Trade hosted hosted' held held' where
  hosts a := by
    have := hs a
    rw [hhost, hheld]
    grind
  fresh a ha hx := absurd ((hheld a).1 ha) hx

theorem drop (hs : ∀ a, hosted' a ↔ hosted a ∧ ¬ held a) (hheld : ∀ a, ¬ held' a) :
    Trade hosted hosted' held held' where
  hosts a := by
    have := hheld a
    rw [hs]
    grind
  fresh a ha := absurd ha (hheld a)

theorem add {b : Handle} (hs : ∀ a, hosted' a = if a = b then true else hosted a)
    (hb : hosted b = false) (hnone : ∀ a, ¬ held a) (hheld : ∀ a, held' a ↔ a = b) :
    Trade hosted hosted' held held' where
  hosts a := by
    have := hnone a
    rw [hs, hheld]
    grind
  fresh a ha _ := by rwa [(hheld a).1 ha]

end Trade

/-- The open external windows and the stripe buttons of two hosts differ in what two entries
have. -/
structure Host.Trades (x x' : Entry) (h h' : Host) : Prop where
  externals : Trade h.isOpen h'.isOpen x.holds x'.holds
  buttons : Trade h.isButton h'.isButton x.hasButton x'.hasButton

namespace Host.Trades

variable {x x' x'' : Entry} {h h' h'' : Host}

theorem trans (ht : Trades x x' h h') (ht' : Trades x' x'' h' h'') : Trades x x'' h h'' :=
  ⟨ht.externals.trans ht'.externals, ht.buttons.trans ht'.buttons⟩

theorem isServed (ht : Trades x x' h h') : x'.IsServed h' :=
  ⟨fun _ ↦ ht.externals.served, fun _ ↦ ht.buttons.served⟩

theorem of_keeps (hs : x.IsServed h) (hk : h.Keeps h') (hf : x'.floating = x.floating)
    (hw : x'.windowed = x.windowed) (hb : x'.stripeButton = x.stripeButton) :
    Trades x x' h h' where
  externals := .of_eq hs.1 hk.isOpen fun a ↦ by rw [Entry.holds, hf, hw, Entry.holds]
  buttons := .of_eq hs.2 hk.isButton fun a ↦ by rw [Entry.hasButton, hb, Entry.hasButton]

end Host.Trades

/-- An external window that an entry does not hold stays as it is, and what comes in place of the
entry does not hold it either. -/
def Host.KeepsForeign (x x' : Entry) (h h' : Host) : Prop :=
  ∀ a w, h.external? a = some w → ¬ x.holds a → h'.external? a = some w ∧ ¬ x'.holds a

namespace Host.KeepsForeign

variable {x x' x'' : Entry} {h h' h'' : Host} {a : Handle}

theorem trans (hk : KeepsForeign x x' h h') (hk' : KeepsForeign x' x'' h' h'') :
    KeepsForeign x x'' h h'' := by
  intro a w hw ha
  obtain ⟨hw', ha'⟩ := hk a w hw ha
  exact hk' a w hw' ha'

theorem of_eq (hheld : ∀ a, x'.holds a → x.holds a) (hhost : ∀ a, h'.external? a = h.external? a) :
    KeepsForeign x x' h h' :=
  fun a _ hw ha ↦ ⟨(hhost a).trans hw, fun ha' ↦ ha (hheld a ha')⟩

theorem refl : KeepsForeign x x h h := of_eq (fun _ ha ↦ ha) fun _ ↦ rfl

theorem updateExternal (ha : x.holds a) (f : ExternalWindow → ExternalWindow) :
    KeepsForeign x x h (h.updateExternal a f) := by
  intro b w hw hb
  have hne : b ≠ a := fun hba ↦ hb (hba ▸ ha)
  rw [external?_updateExternal, if_neg hne]
  exact ⟨hw, hb⟩

end Host.KeepsForeign

namespace Engine

/-- The entry under `key` is `x'` in place of `x`, and the layout is `l`. The host keeps the
external windows of all other entries, and if `D` holds, it differs in what the two entries have. -/
structure Exchanged (D : Prop) (key : SlotKey) (x x' : Entry) (l : Layout) (e e' : Engine) :
    Prop where
  get? : ∀ k, e'.entries.get? k = if k = key then some x' else e.entries.get? k
  layout : e'.layout = l
  host : D → e.host.Trades x x' e'.host
  foreign : e.host.KeepsForeign x x' e'.host
  desktop : e'.host.desktop = e.host.desktop
  settings : e'.settings = e.settings
  sideStack : e'.sideStack = e.sideStack

variable {D : Prop} {key k : SlotKey} {x x' x'' y : Entry} {l l' : Layout} {e e' e'' : Engine}
  {info : WindowInfo} {dirty : Bool}

namespace Exchanged

theorem get?_self (h : Exchanged D key x x' l e e') : e'.entries.get? key = some x' := by
  rw [h.get?, if_pos rfl]

theorem get?_other (h : Exchanged D key x x' l e e') (hk : k ≠ key) :
    e'.entries.get? k = e.entries.get? k := by
  rw [h.get?, if_neg hk]

theorem isServed (h : Exchanged D key x x' l e e') (hd : D) : x'.IsServed e'.host :=
  (h.host hd).isServed

theorem trans (h : Exchanged D key x x' l e e') (h' : Exchanged D key x' x'' l' e' e'') :
    Exchanged D key x x'' l' e e'' where
  get? k := by
    rw [h'.get?, h.get?]
    split <;> rfl
  layout := h'.layout
  host hd := (h.host hd).trans (h'.host hd)
  foreign := h.foreign.trans h'.foreign
  desktop := h'.desktop.trans h.desktop
  settings := h'.settings.trans h.settings
  sideStack := h'.sideStack.trans h.sideStack

theorem andThen (h : Exchanged D key x x' l e e') (h' : Exchanged D key x' x'' e'.layout e' e'') :
    Exchanged D key x x'' l e e'' := by
  have := h.trans h'
  rwa [h.layout] at this

end Exchanged

theorem get?_self_of_get? (hx : e.entries.get? key = some x) (k : SlotKey) :
    e.entries.get? k = if k = key then some x else e.entries.get? k := by
  split
  case isTrue hk => rw [hk, hx]
  case isFalse => rfl

theorem get?_updateEntry_of_get? {f : Entry → Entry} (hx : e.entries.get? key = some x)
    (k : SlotKey) :
    (e.updateEntry key f).entries.get? k = if k = key then some (f x) else e.entries.get? k := by
  rw [get?_updateEntry]
  split
  case isTrue hk => rw [hk, hx, Option.map_some]
  case isFalse => rfl

theorem Exchanged.of_eq (hx : e.entries.get? key = some x) (hs : D → x.IsServed e.host)
    (he : e'.entries = e.entries) (hl : e'.layout = e.layout) (hh : e'.host = e.host)
    (hset : e'.settings = e.settings) (hside : e'.sideStack = e.sideStack) :
    Exchanged D key x x e.layout e e' where
  get? k := by rw [he, ← get?_self_of_get? hx]
  layout := hl
  host hd := .of_keeps (hs hd) (hh ▸ Host.Keeps.refl) rfl rfl rfl
  foreign := hh ▸ .refl
  desktop := by rw [hh]
  settings := hset
  sideStack := hside

theorem Exchanged.refl (hx : e.entries.get? key = some x) (hs : D → x.IsServed e.host) :
    Exchanged D key x x e.layout e e :=
  .of_eq hx hs rfl rfl rfl rfl rfl

theorem Exchanged.onHost {f : Host → Host} (h : Exchanged D key x x' l e e')
    (hk : e'.host.Keeps (f e'.host)) (hforeign : e'.host.KeepsForeign x' x' (f e'.host)) :
    Exchanged D key x x' l e (e'.onHost f) where
  get? := h.get?
  layout := h.layout
  host hd := (h.host hd).trans (.of_keeps (h.isServed hd) hk rfl rfl rfl)
  foreign := h.foreign.trans hforeign
  desktop := hk.desktop.trans h.desktop
  settings := h.settings
  sideStack := h.sideStack

theorem exchanged_updateEntry {f : Entry → Entry} (hx : e.entries.get? key = some x)
    (hs : D → x.IsServed e.host) (hf : (f x).floating = x.floating)
    (hw : (f x).windowed = x.windowed) (hb : (f x).stripeButton = x.stripeButton) :
    Exchanged D key x (f x) e.layout e (e.updateEntry key f) where
  get? := get?_updateEntry_of_get? hx
  layout := rfl
  host hd := .of_keeps (hs hd) .refl hf hw hb
  foreign := .of_eq (fun a ha ↦ by rwa [Entry.holds, hf, hw] at ha) fun _ ↦ rfl
  desktop := rfl
  settings := rfl
  sideStack := rfl

theorem exchanged_applyToEntry (hx : e.entries.get? key = some x) (hs : D → x.IsServed e.host) :
    Exchanged D key x { x with info := info } e.layout e (e.applyToEntry key info) :=
  exchanged_updateEntry (f := ({ · with info := info })) hx hs rfl rfl rfl

theorem exchanged_storeInfo (hx : e.entries.get? key = some x) (hs : D → x.IsServed e.host) :
    Exchanged D key x x (e.layout.put info) e (e.storeInfo info) where
  get? := get?_self_of_get? hx
  layout := rfl
  host hd := .of_keeps (hs hd) .refl rfl rfl rfl
  foreign := .refl
  desktop := rfl
  settings := rfl
  sideStack := rfl

theorem exchanged_commit (info : WindowInfo) (hx : e.entries.get? key = some x)
    (hs : D → x.IsServed e.host) :
    Exchanged D key x { x with info := info } (e.layout.put info) e (e.commit key info) :=
  (exchanged_storeInfo hx hs).trans
    (exchanged_applyToEntry (e := e.storeInfo info) hx hs)

theorem exchanged_removeStripeButton (hx : e.entries.get? key = some x)
    (hs : D → x.IsServed e.host) :
    Exchanged D key x { x with stripeButton := none } e.layout e (e.removeStripeButton key) := by
  unfold removeStripeButton
  rw [hx, Option.bind_some]
  cases hb : x.stripeButton with
  | none =>
    have hsame : { x with stripeButton := none } = x := by rw [← hb]
    rw [hsame]
    exact .refl hx hs
  | some b =>
    refine ⟨get?_updateEntry_of_get? hx, rfl, fun hd ↦ ⟨?_, ?_⟩,
      .of_eq (fun _ ha ↦ ha) fun _ ↦ Host.external?_removeStripeButton,
      Host.desktop_removeStripeButton, rfl, rfl⟩
    · exact .of_eq (hs hd).1 (fun _ ↦ Host.isOpen_removeStripeButton) fun _ ↦ Iff.rfl
    · refine .drop (fun a ↦ ?_) fun a ha ↦ (nomatch ha)
      simp only [onHost, updateEntry, Host.isButton_removeStripeButton, Entry.hasButton, hb]
      grind

theorem exchanged_createStripeButton (info : WindowInfo) (hx : e.entries.get? key = some x)
    (hs : D → x.IsServed e.host) (hb : x.stripeButton = none) :
    ∃ b, Exchanged D key x { x with stripeButton := some b } e.layout e
      (e.createStripeButton key info) := by
  refine ⟨e.host.next, get?_updateEntry_of_get? hx, rfl, fun hd ↦ ⟨?_, ?_⟩,
    .of_eq (fun _ ha ↦ ha) fun _ ↦ Host.external?_createStripeButton, rfl, rfl, rfl⟩
  · exact .of_eq (hs hd).1 (fun _ ↦ Host.isOpen_createStripeButton) fun _ ↦ Iff.rfl
  · refine .add (fun _ ↦ Host.isButton_createStripeButton) Host.isButton_next (fun a ↦ ?_)
      fun a ↦ ?_
    · simp [Entry.hasButton, hb]
    · simp [Entry.hasButton, eq_comm]

theorem exchanged_ensureStripeButton (info : WindowInfo) (hx : e.entries.get? key = some x)
    (hs : D → x.IsServed e.host) :
    ∃ b, b.isSome ∧ Exchanged D key x { x with stripeButton := b } e.layout e
      (e.ensureStripeButton key info) := by
  unfold ensureStripeButton
  rw [entryIs_of_get? hx]
  cases hb : x.stripeButton with
  | none =>
    obtain ⟨b, h⟩ := exchanged_createStripeButton info hx hs hb
    exact ⟨some b, rfl, h⟩
  | some b =>
    have hsame : { x with stripeButton := some b } = x := by rw [← hb]
    refine ⟨some b, rfl, ?_⟩
    rw [hsame]
    exact .refl hx hs

theorem exchanged_refreshStripeButton (info : WindowInfo) (hx : e.entries.get? key = some x)
    (hs : D → x.IsServed e.host) :
    ∃ b, Exchanged D key x { x with stripeButton := b } e.layout e
      (e.refreshStripeButton key info) := by
  have hremove := exchanged_removeStripeButton (D := D) hx hs
  unfold refreshStripeButton
  split
  · dsimp only
    split
    · obtain ⟨b, h⟩ := exchanged_createStripeButton info hremove.get?_self
        hremove.isServed rfl
      exact ⟨some b, hremove.andThen h⟩
    · exact ⟨none, hremove⟩
  · exact ⟨x.stripeButton, .refl hx hs⟩

def KeepsEntries {α : Type} (f : Entry → α) (e e' : Engine) : Prop :=
  ∀ ⦃k x⦄, e.entries.get? k = some x → ∃ x', e'.entries.get? k = some x' ∧ f x' = f x

namespace KeepsEntries

variable {α : Type} {f : Entry → α}

theorem of_entries (he : e'.entries = e.entries) : KeepsEntries f e e' :=
  fun _ x hx ↦ ⟨x, he ▸ hx, rfl⟩

theorem refl : KeepsEntries f e e := of_entries rfl

theorem trans (h : KeepsEntries f e e') (h' : KeepsEntries f e' e'') : KeepsEntries f e e'' := by
  intro k x hx
  obtain ⟨x', hx', hf⟩ := h hx
  obtain ⟨x'', hx'', hf'⟩ := h' hx'
  exact ⟨x'', hx'', hf'.trans hf⟩

theorem of_get? (hget : ∀ k, e'.entries.get? k = if k = key then some x' else e.entries.get? k)
    (hx : e.entries.get? key = some x) (hf : f x' = f x) : KeepsEntries f e e' := by
  intro k y hy
  rw [hget]
  split
  case isTrue hk =>
    subst hk
    cases hx.symm.trans hy
    exact ⟨x', rfl, hf⟩
  case isFalse => exact ⟨y, hy, rfl⟩

end KeepsEntries

theorem Exchanged.keepsEntries {α : Type} {f : Entry → α} (hex : Exchanged D key x x' l e e')
    (hx : e.entries.get? key = some x) (hf : f x' = f x) : KeepsEntries f e e' :=
  .of_get? hex.get? hx hf

end Engine

end ToolDock

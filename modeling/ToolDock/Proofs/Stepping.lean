import Mathlib.Logic.Relation
import ToolDock.Proofs.Numbering
import ToolDock.Proofs.Requests
import ToolDock.Proofs.StripeButtons

/-!
What the engine does to registered windows, in small steps. A window joins the layout before
anything else happens to it, and every step after that touches one window that the layout knows.
What holds of every step holds of whatever is done in steps. Main statements: `Steps.invariant` and
`Steps.layout`, and `steps_addDecorator` and its companions for what decorators take.
-/

namespace ToolDock

/-- The entry is as its registration left it, which had no placement for the window and gave it no
stripe button. -/
def Entry.IsDraft (x : Entry) : Prop :=
  ∃ r : RegisterRequest, x = .new r.id r.newPlacement false r.hasContent

/-- What may become of an entry: who the window is stays, and it has no other placement than one of
the window. -/
structure Entry.Becomes (x x' : Entry) : Prop where
  name : x'.name = x.name
  id : x'.id = x.id
  info_id : x'.info.id = x.info.id ∨ x'.info.id = x.id ∨ x'.info.id = x.name

theorem Entry.IsDraft.ids {x : Entry} (h : x.IsDraft) : x.id = x.name ∧ x.info.id = x.name := by
  obtain ⟨r, rfl⟩ := h
  exact ⟨rfl, rfl⟩

theorem Entry.IsDraft.info_id {x : Entry} (h : x.IsDraft) : x.info.id = x.id :=
  h.ids.2.trans h.ids.1.symm

theorem Entry.IsDraft.hidden {x : Entry} (h : x.IsDraft) : x.info.visible = false := by
  obtain ⟨r, rfl⟩ := h
  rfl

theorem Entry.IsDraft.available {x : Entry} (h : x.IsDraft) : x.available = false := by
  obtain ⟨r, rfl⟩ := h
  rfl

theorem Entry.IsDraft.isExternal {x : Entry} (h : x.IsDraft) : x.info.isExternal = false := by
  obtain ⟨r, rfl⟩ := h
  rfl

namespace Layout

variable {l m : Layout} {info : WindowInfo} {pane : String} {anchor : Anchor} {order : Int32}

def SamePlaces (l m : Layout) : Prop := ∀ id, m.place? id = l.place? id

def IsFree (l : Layout) (pane : String) (anchor : Anchor) (order : Int32) : Prop :=
  order ≠ unassignedOrder ∧
    ∀ id slot, slot.pane = pane → slot.anchor = anchor → l.place? id ≠ some (slot, order)

theorem isFree_nextOrder (h : l.nextOrder pane anchor = .ok order) :
    l.IsFree pane anchor order := by
  obtain ⟨hassigned, hfree⟩ := nextOrder_spec h
  refine ⟨hassigned, fun id slot hpane hanchor hplace ↦ ?_⟩
  obtain ⟨w, hw, heq⟩ := Option.map_eq_some_iff.1 hplace
  obtain ⟨rfl, horder⟩ := Prod.mk.inj heq
  refine hfree w (mem_of_get? hw) ?_ horder
  simp only [WindowInfo.slot] at hpane hanchor
  simp [WindowInfo.isAt, hpane, hanchor]

theorem IsFree.congr (h : l.IsFree pane anchor order) (hm : l.SamePlaces m) :
    m.IsFree pane anchor order :=
  ⟨h.1, fun id slot hpane hanchor ↦ by rw [hm]; exact h.2 id slot hpane hanchor⟩

theorem place?_congr (h : m.windows = l.windows) (id : String) : m.place? id = l.place? id := by
  rw [place?, get?_congr h, place?]

theorem not_contains_of_get? {id : String} (h : l.get? id = none) : l.contains id = false := by
  refine Bool.eq_false_iff.2 fun hc ↦ ?_
  obtain ⟨info, hsome⟩ := contains_iff.1 hc
  cases h.symm.trans hsome

theorem Moves.trans {id : String} {a b : WindowInfo} {l m n : Layout} (h : Moves id a l m)
    (h' : Moves id b m n) : Moves id b l n :=
  ⟨h'.self, fun other hne ↦ rel_trans (h.others other hne) (h'.others other hne)⟩

theorem moves_put : Moves info.id info l (l.put info) where
  self := ⟨info, .refl, by rw [get?_put, if_pos rfl]⟩
  others other hne := by
    rw [get?_put, if_neg hne]
    cases l.get? other with
    | none => exact .none
    | some w => exact .some .refl

/-- A window may be stored where it is. -/
structure Stable (may : Layout → Layout → Prop) : Prop where
  keep : ∀ {l info}, l.place? info.id = some info.place → may l (l.put info)

/-- A window may also join, and a window without an order may get a free one. -/
structure Lenient (may : Layout → Layout → Prop) : Prop extends Stable may where
  join : ∀ {l info}, l.contains info.id = false → info.order = unassignedOrder → may l (l.put info)
  fill : ∀ {l info}, l.place? info.id = some (info.slot, unassignedOrder) →
    l.IsFree info.pane info.anchor info.order → may l (l.put info)

/-- A window may also lose its order, and be moved along and between stripes. -/
structure Permissive (may : Layout → Layout → Prop) : Prop extends Lenient may where
  drop : ∀ {l info}, info.order = unassignedOrder → may l (l.put info)
  move : ∀ {l l' changed pane anchor order} (info : WindowInfo) (split : Bool),
    l.get? info.id = some info →
      setAnchor info.id pane anchor order (l.put { info with split := split }) = .ok changed l' →
        may l l'

theorem permissive_true : Permissive fun _ _ ↦ True where
  keep _ := trivial
  join _ _ := trivial
  fill _ _ := trivial
  drop _ := trivial
  move _ _ _ _ := trivial

/-- A window may be stored in the other slot of its anchor, under its order. -/
def Resplits (may : Layout → Layout → Prop) (split : Bool) : Prop :=
  ∀ {l : Layout} {info : WindowInfo}, l.get? info.id = some info →
    may l (l.put { info with split := split })

theorem samePlaces_put (h : l.place? info.id = some info.place) : l.SamePlaces (l.put info) := by
  intro id
  rw [place?_put]
  split
  case isTrue hid => rw [hid, h]
  case isFalse => rfl

theorem stable_samePlaces : Stable SamePlaces := ⟨samePlaces_put⟩

def MayHide (may : Layout → Layout → Prop) (l : Layout) (mutation : Engine.HideMutation)
    (info : WindowInfo) : Prop :=
  ∀ m saved, l.SamePlaces m → may m (m.put ((Engine.mutated mutation
    { info with visible := false, activeOnStart := false }).withState saved))

def MayShow (may : Layout → Layout → Prop) (l : Layout) (info : WindowInfo) : Prop :=
  ∀ m order, l.SamePlaces m →
    (if info.hasOrder then order = info.order
      else l.nextOrder info.pane info.anchor = .ok order) → may m (m.put (info.shownAt order))

theorem Stable.mayHide {may : Layout → Layout → Prop} (mutation : Engine.HideMutation)
    (h : Stable may) (hplace : l.place? info.id = some info.place)
    (hm : mutation ≠ .removeFromStripe) : MayHide may l mutation info := by
  intro m saved hsame
  refine h.keep ?_
  cases mutation with
  | none | removeStripeButton => exact (hsame info.id).trans hplace
  | removeFromStripe => exact absurd rfl hm

theorem Permissive.mayHide {may : Layout → Layout → Prop} (mutation : Engine.HideMutation)
    (h : Permissive may) (hplace : l.place? info.id = some info.place) :
    MayHide may l mutation info := by
  by_cases hm : mutation = .removeFromStripe
  · subst hm
    intro m saved hsame
    simp only [Engine.mutated, Engine.offStripe]
    split
    · exact h.keep ((hsame info.id).trans hplace)
    · exact h.drop rfl
  · exact h.toStable.mayHide mutation hplace hm

theorem Lenient.mayShow {may : Layout → Layout → Prop} (h : Lenient may)
    (hplace : l.place? info.id = some info.place) : MayShow may l info := by
  intro m order hsame horder
  split at horder
  case isTrue => exact h.keep ((hsame info.id).trans (by rw [horder]; exact hplace))
  case isFalse hno =>
    have hnone : info.order = unassignedOrder := by simpa [WindowInfo.hasOrder] using hno
    refine h.fill ((hsame info.id).trans ?_) ((isFree_nextOrder horder).congr hsame)
    rw [hplace, WindowInfo.place, hnone]
    rfl

end Layout

namespace Engine

variable {may : Layout → Layout → Prop} {e e' e'' : Engine} {key k : SlotKey} {x x' : Entry}
  {info : WindowInfo} {dirty : Bool} {id : String}

/-- Registered windows that the layout lacks are as their registration left them. -/
def Drafted (e : Engine) : Prop :=
  ∀ ⦃key x⦄, e.entries.get? key = some x → e.layout.contains x.id = true ∨ x.IsDraft

theorem Drafted.isDraft (hd : Drafted e) (hx : e.entries.get? key = some x)
    (hnone : e.layout.get? x.id = none) : x.IsDraft :=
  (hd hx).resolve_left (Bool.eq_false_iff.1 (Layout.not_contains_of_get? hnone))

def Lists (e : Engine) (key : SlotKey) (id : String) : Prop :=
  ∃ x, e.entries.get? key = some x ∧ x.id = id ∧ e.layout.contains id = true

/-- No window, placement or button changes, and nothing joins the histories. -/
structure Rests (e e' : Engine) : Prop where
  entries : e'.entries = e.entries
  windows : e'.layout.windows = e.layout.windows
  settings : e'.settings = e.settings
  buttons : e.host.KeepsButtons e'.host
  transient : e'.activeStack.transient ⊆ e.activeStack.transient
  persistent : e'.activeStack.persistent ⊆ e.activeStack.persistent
  sideStack : ∀ a, e'.sideStack.get a ⊆ e.sideStack.get a

/-- What the engine does at once, as long as it changes the layout as it may. -/
inductive Step (may : Layout → Layout → Prop) (e : Engine) : Engine → Prop
  | rest {e' : Engine} (h : Rests e e') : Step may e e'
  /-- A window joins the layout, unless it is there. -/
  | list {key : SlotKey} {x : Entry} (hx : e.entries.get? key = some x)
    (hmay : may e.layout (e.registeredInfo key).2.layout) : Step may e (e.registeredInfo key).2
  /-- The placement of a window changes, and of other windows at most the orders. -/
  | place {key : SlotKey} {x : Entry} {id : String} {moved : WindowInfo} {l : Layout}
    (hx : e.entries.get? key = some x) (hid : id = x.id ∨ id = x.name)
    (hc : e.layout.contains id) (hmoves : Layout.Moves id moved e.layout l)
    (hmay : may e.layout l) : Step may e { e with layout := l }
  /-- The entry of a window changes. -/
  | alter {key : SlotKey} {x : Entry} {f : Entry → Entry} (hx : e.entries.get? key = some x)
    (hc : e.layout.contains x.id) (hf : x.Becomes (f x))
    (hb : (f x).stripeButton = x.stripeButton) : Step may e (e.updateEntry key f)
  | label {key : SlotKey} {x : Entry} {info : WindowInfo} (hx : e.entries.get? key = some x)
    (hc : e.layout.contains x.id) (hb : x.stripeButton = none)
    (hid : info.id = x.id ∨ info.id = x.name) : Step may e (e.createStripeButton key info)
  | unlabel {key : SlotKey} {x : Entry} (hx : e.entries.get? key = some x)
    (hc : e.layout.contains x.id) : Step may e (e.removeStripeButton key)
  | activate {key : SlotKey} {x : Entry} (hx : e.entries.get? key = some x) :
    Step may e (e.pushActive key)
  /-- An evicted window is remembered. -/
  | remember {key : SlotKey} {x : Entry} {info : WindowInfo} (hx : e.entries.get? key = some x)
    (hc : e.layout.contains x.id) (hid : info.id = x.id) (hset : e.settings.stackEnabled) :
    Step may e { e with sideStack := SideStack.push e.sideStack info }

abbrev Steps (may : Layout → Layout → Prop) : Engine → Engine → Prop :=
  Relation.ReflTransGen (Step may)

theorem Steps.then {β : Type} {x : Action β} (h : Steps may e e')
    (hx : Ensures x e' fun _ e'' ↦ Steps may e' e'') : Ensures x e' fun _ e'' ↦ Steps may e e'' :=
  hx.mono fun _ _ h' ↦ h.trans h'

theorem get?_createStripeButton (hx : e.entries.get? key = some x) (k : SlotKey) :
    (e.createStripeButton key info).entries.get? k =
      if k = key then some { x with stripeButton := some e.host.next } else e.entries.get? k :=
  get?_updateEntry_of_get? hx k

theorem get?_removeStripeButton (hx : e.entries.get? key = some x) (k : SlotKey) :
    (e.removeStripeButton key).entries.get? k =
      if k = key then some { x with stripeButton := none } else e.entries.get? k :=
  (exchanged_removeStripeButton (D := False) hx False.elim).get? k

theorem Step.get?_cases (h : Step may e e') (k : SlotKey) :
    e'.entries.get? k = e.entries.get? k ∨ ∃ x x', e.entries.get? k = some x ∧
      e'.entries.get? k = some x' ∧ x.Becomes x' ∧ e.layout.contains x.id := by
  have hcases : ∀ {key : SlotKey} {x x' : Entry}, e.entries.get? key = some x →
      e.layout.contains x.id →
      e'.entries.get? k = (if k = key then some x' else e.entries.get? k) → x.Becomes x' →
      e'.entries.get? k = e.entries.get? k ∨ ∃ x x', e.entries.get? k = some x ∧
        e'.entries.get? k = some x' ∧ x.Becomes x' ∧ e.layout.contains x.id := by
    intro key x x' hx hc hget hx'
    split at hget
    case isTrue hk => exact Or.inr ⟨x, x', hk ▸ hx, hget, hx', hc⟩
    case isFalse => exact Or.inl hget
  cases h with
  | rest h => exact Or.inl (by rw [h.entries])
  | list => exact Or.inl (by rw [entries_registeredInfo])
  | place | activate | remember => exact Or.inl rfl
  | alter hx hc hf => exact hcases hx hc (get?_updateEntry_of_get? hx k) hf
  | label hx hc => exact hcases hx hc (get?_createStripeButton hx k) ⟨rfl, rfl, Or.inl rfl⟩
  | unlabel hx hc => exact hcases hx hc (get?_removeStripeButton hx k) ⟨rfl, rfl, Or.inl rfl⟩

theorem Step.keepsNames (h : Step may e e') : KeepsNames e e' := by
  intro k x hx
  rcases h.get?_cases k with heq | ⟨y, x', hy, hx', hbecomes, -⟩
  · exact ⟨x, heq.trans hx, rfl⟩
  · cases hx.symm.trans hy
    exact ⟨x', hx', Prod.ext hbecomes.name hbecomes.id⟩

theorem layout_removeStripeButton : (e.removeStripeButton key).layout = e.layout := by
  unfold removeStripeButton
  split <;> rfl

theorem contains_registeredInfo (hc : e.layout.contains id) :
    (e.registeredInfo key).2.layout.contains id := by
  unfold registeredInfo
  split
  · exact hc
  · split
    · exact hc
    · simp only [Layout.add]
      split
      · exact hc
      · exact Layout.contains_put.2 (Or.inr hc)

theorem Step.contains (h : Step may e e') (hc : e.layout.contains id) : e'.layout.contains id := by
  cases h with
  | rest h => rwa [Layout.contains_congr h.windows]
  | list => exact contains_registeredInfo hc
  | place _ _ _ hmoves => exact hmoves.contains hc
  | unlabel => rwa [layout_removeStripeButton]
  | alter | label | activate | remember => exact hc

theorem Step.drafted (h : Step may e e') (hd : Drafted e) : Drafted e' := by
  intro k x' hx'
  rcases h.get?_cases k with heq | ⟨x, y', hx, hy', hbecomes, hc⟩
  · exact (hd (heq ▸ hx')).imp_left h.contains
  · cases hx'.symm.trans hy'
    exact Or.inl (hbecomes.id ▸ h.contains hc)

/-- An invariant of the steps of drafted engines holds throughout. -/
theorem Steps.invariant {I : Engine → Prop} (h : Steps may e e') (hd : Drafted e) (hI : I e)
    (hstep : ∀ {e e'}, Drafted e → Step may e e' → I e → I e') : Drafted e' ∧ I e' := by
  induction h with
  | refl => exact ⟨hd, hI⟩
  | tail _ hs ih => exact ⟨hs.drafted ih.1, hstep ih.1 hs ih.2⟩

theorem Drafted.steps (hd : Drafted e) (h : Steps may e e') : Drafted e' :=
  (h.invariant hd trivial fun _ _ _ ↦ trivial).1

theorem Steps.keepsNames (h : Steps may e e') : KeepsNames e e' := by
  induction h with
  | refl => exact .refl
  | tail _ hs ih => exact ih.trans hs.keepsNames

theorem Steps.contains (h : Steps may e e') (hc : e.layout.contains id) :
    e'.layout.contains id := by
  induction h with
  | refl => exact hc
  | tail _ hs ih => exact hs.contains ih

theorem Lists.steps (hl : e.Lists key id) (h : Steps may e e') : e'.Lists key id := by
  obtain ⟨x, hx, rfl, hc⟩ := hl
  obtain ⟨x', hx', hnames⟩ := h.keepsNames hx
  exact ⟨x', hx', (Prod.mk.inj hnames).2, h.contains hc⟩

theorem Lists.located (hl : e.Lists key id) : ∃ x info, Located e key x info ∧ x.id = id := by
  obtain ⟨x, hx, rfl, hc⟩ := hl
  obtain ⟨info, hinfo⟩ := Layout.contains_iff.1 hc
  exact ⟨x, info, ⟨hx, hinfo⟩, rfl⟩

theorem Located.lists (hl : Located e key x info) : e.Lists key info.id :=
  ⟨x, hl.entry, (Layout.id_of_get? hl.placement).symm,
    Layout.id_of_get? hl.placement ▸ hl.contains⟩

theorem Located.place? (hl : Located e key x info) :
    e.layout.place? info.id = some info.place := by
  rw [Layout.id_of_get? hl.placement]
  exact Layout.place?_of_get? hl.placement

theorem Steps.layout {R : Layout → Layout → Prop} (h : Steps R e e')
    (hsame : ∀ {l m : Layout}, m.windows = l.windows → R l m)
    (htrans : ∀ {l m n}, R l m → R m n → R l n) : R e.layout e'.layout := by
  induction h with
  | refl => exact hsame rfl
  | tail _ hs ih =>
    refine htrans ih ?_
    cases hs with
    | rest h => exact hsame h.windows
    | list _ hmay => exact hmay
    | place _ _ _ _ hmay => exact hmay
    | unlabel => exact hsame (by rw [layout_removeStripeButton])
    | alter | label | activate | remember => exact hsame rfl

theorem Steps.samePlaces (h : Steps Layout.SamePlaces e e') : e.layout.SamePlaces e'.layout :=
  h.layout Layout.place?_congr fun h h' id ↦ (h' id).trans (h id)

theorem steps_rest (h : Rests e e') : Steps may e e' := .single (.rest h)

theorem Rests.refl : Rests e e :=
  ⟨rfl, rfl, rfl, .refl, fun _ h ↦ h, fun _ h ↦ h, fun _ _ h ↦ h⟩

theorem Rests.trans (h : Rests e e') (h' : Rests e' e'') : Rests e e'' :=
  ⟨h'.entries.trans h.entries, h'.windows.trans h.windows, h'.settings.trans h.settings,
    h.buttons.trans h'.buttons, fun _ hk ↦ h.transient (h'.transient hk),
    fun _ hk ↦ h.persistent (h'.persistent hk), fun a _ hw ↦ h.sideStack a (h'.sideStack a hw)⟩

theorem rests_onHost {f : Host → Host} (h : e.host.KeepsButtons (f e.host)) :
    Rests e (e.onHost f) :=
  ⟨rfl, rfl, rfl, h, fun _ h ↦ h, fun _ h ↦ h, fun _ _ h ↦ h⟩

theorem rests_fire {kind : EventKind} {id : Option String} : Rests e (e.fire kind id) :=
  ⟨rfl, rfl, rfl, .refl, fun _ h ↦ h, fun _ h ↦ h, fun _ _ h ↦ h⟩

theorem rests_withStacks {s : SideStack} (h : ∀ a, s.get a ⊆ e.sideStack.get a) :
    Rests e (e.withStacks s) :=
  ⟨rfl, rfl, rfl, .refl, fun _ h ↦ h, fun _ h ↦ h, h⟩

theorem rests_forgetEvicted (id : String) : Rests e (e.forgetEvicted id) := by
  unfold forgetEvicted
  split
  · refine rests_withStacks fun a ↦ ?_
    rw [SideStack.get_remove]
    exact List.filter_subset_self _
  · exact .refl

theorem located_registeredInfo (hd : Drafted e) (hx : e.entries.get? key = some x) :
    Located (e.registeredInfo key).2 key x (e.registeredInfo key).1 := by
  cases hinfo : e.layout.get? x.id with
  | some info =>
    have hl : Located e key x info := ⟨hx, hinfo⟩
    rw [hl.registeredInfo_eq]
    exact hl
  | none =>
    have hid := (hd.isDraft hx hinfo).info_id
    rw [registeredInfo_eq hx hid, hinfo]
    exact ⟨hx, by rw [get?_storeInfo, if_pos hid.symm]⟩

theorem steps_registeredInfo (hlen : Layout.Lenient may) (hd : Drafted e)
    (hx : e.entries.get? key = some x) : Steps may e (e.registeredInfo key).2 := by
  cases hinfo : e.layout.get? x.id with
  | some info =>
    rw [Located.registeredInfo_eq ⟨hx, hinfo⟩]
  | none =>
    obtain ⟨r, rfl⟩ := hd.isDraft hx hinfo
    refine .single (.list hx ?_)
    rw [registeredInfo_eq hx rfl, hinfo]
    exact hlen.join (Layout.not_contains_of_get? hinfo) rfl

theorem steps_updateEntry {f : Entry → Entry} (hl : e.Lists key id)
    (hf : ∀ x, x.id = id → x.Becomes (f x) ∧ (f x).stripeButton = x.stripeButton) :
    Steps may e (e.updateEntry key f) := by
  obtain ⟨x, hx, hid, hc⟩ := hl
  exact .single (.alter hx (hid ▸ hc) (hf x hid).1 (hf x hid).2)

theorem steps_applyToEntry (hl : e.Lists key info.id) : Steps may e (e.applyToEntry key info) :=
  steps_updateEntry hl fun _ hid ↦ ⟨⟨rfl, rfl, Or.inr (Or.inl hid.symm)⟩, rfl⟩

theorem steps_storeInfo (hl : e.Lists key info.id) (hmay : may e.layout (e.layout.put info)) :
    Steps may e (e.storeInfo info) := by
  obtain ⟨x, hx, hid, hc⟩ := hl
  exact .single (.place hx (Or.inl hid.symm) hc Layout.moves_put hmay)

theorem steps_commit (info : WindowInfo) (hl : e.Lists key info.id)
    (hmay : may e.layout (e.layout.put info)) : Steps may e (e.commit key info) := by
  have hstored := steps_storeInfo hl hmay
  exact hstored.trans (steps_applyToEntry (hl.steps hstored))

theorem steps_removeStripeButton (hl : e.Lists key id) :
    Steps may e (e.removeStripeButton key) := by
  obtain ⟨x, hx, rfl, hc⟩ := hl
  exact .single (.unlabel hx hc)

theorem steps_ensureStripeButton (info : WindowInfo) (hl : e.Lists key info.id) :
    Steps may e (e.ensureStripeButton key info) := by
  obtain ⟨x, hx, hid, hc⟩ := hl
  unfold ensureStripeButton
  rw [entryIs_of_get? hx]
  split
  case isTrue hb => exact .single (.label hx (hid ▸ hc) (by simpa using hb) (Or.inl hid.symm))
  case isFalse => exact .refl

theorem steps_resetStripeButton (hl : e.Lists key info.id) :
    Steps may e (e.resetStripeButton key info) := by
  have hremove : Steps may e (e.removeStripeButton key) := steps_removeStripeButton hl
  unfold resetStripeButton
  dsimp only
  split
  · exact hremove.trans (steps_ensureStripeButton info (hl.steps hremove))
  · exact hremove

theorem steps_refreshStripeButton (hx : e.entries.get? key = some x) (hc : e.layout.contains x.id)
    (hid : info.id = x.id ∨ info.id = x.name) :
    Steps may e (e.refreshStripeButton key info) := by
  have hremove : Steps may e (e.removeStripeButton key) := .single (.unlabel hx hc)
  unfold refreshStripeButton
  split
  · dsimp only
    split
    · refine hremove.tail (.label ((get?_removeStripeButton hx key).trans (if_pos rfl)) ?_ rfl hid)
      rwa [layout_removeStripeButton]
    · exact hremove
  · exact .refl

theorem steps_decoratorOf (hl : e.Lists key id) : Steps may e (e.decoratorOf key).2 := by
  obtain ⟨x, hx, rfl, hc⟩ := hl
  unfold decoratorOf
  rw [hx]
  dsimp only
  split
  · exact .refl
  · have hasked : Rests e (e.onHost fun h ↦ (h.decorator x.id).2) :=
      rests_onHost Host.keepsButtons_decorator
    exact (steps_rest hasked).tail (.alter hx hc ⟨rfl, rfl, Or.inl rfl⟩ rfl)

theorem rests_closeHandle {a : Option Handle} : Rests e (e.closeHandle a) := by
  cases a with
  | none => exact .refl
  | some a => exact rests_onHost (f := (·.closeExternal a)) Host.keepsButtons_closeExternal

theorem rests_updateExternal {f : Host → Host} {a : Handle} {g : ExternalWindow → ExternalWindow}
    (hf : (f e.host).objects = (e.host.updateExternal a g).objects) : Rests e (e.onHost f) :=
  rests_onHost (Host.keepsButtons_updateExternal.trans (.of_objects hf))

theorem rests_saveExternalState (hx : e.entries.get? key = some x) :
    Rests e (e.saveExternalState key info).2 := by
  obtain ⟨-, heq | ⟨a, -, heq⟩⟩ := saveExternalState_eq info hx
  · rw [heq]
    exact .refl
  · rw [heq]
    exact rests_updateExternal rfl

theorem steps_removeExternalDecorators (hl : e.Lists key id) :
    Steps may e (e.removeExternalDecorators key) := by
  obtain ⟨x, hx, rfl, hc⟩ := hl
  unfold removeExternalDecorators
  rw [hx]
  have hbare : Steps may e
      (e.updateEntry key fun x ↦ { x with floating := none, windowed := none }) :=
    .single (.alter hx hc ⟨rfl, rfl, Or.inl rfl⟩ rfl)
  exact hbare.trans (steps_rest (rests_closeHandle.trans rests_closeHandle))

theorem steps_removeInternalDecorator (hl : e.Lists key id) :
    Steps may e (e.removeInternalDecorator key dirty) := by
  obtain ⟨x, hx, rfl, hc⟩ := hl
  have hdetached : Steps may e (e.updateEntry key fun x ↦ { x with attached := none }) :=
    .single (.alter hx hc ⟨rfl, rfl, Or.inl rfl⟩ rfl)
  unfold removeInternalDecorator
  rw [hx]
  dsimp only
  split
  · exact hdetached.trans (steps_rest (rests_onHost (.of_objects rfl)))
  · exact hdetached

theorem steps_removeDecorators (hl : e.Lists key id) :
    Steps may e (e.removeDecorators key info dirty).2 := by
  obtain ⟨x, _, hloc, -⟩ := hl.located
  have hsaved : Steps may e (e.saveExternalState key info).2 :=
    steps_rest (rests_saveExternalState hloc.entry)
  have hexternal : Steps may e ((e.saveExternalState key info).2.removeExternalDecorators key) :=
    hsaved.trans (steps_removeExternalDecorators (hl.steps hsaved))
  exact hexternal.trans (steps_removeInternalDecorator (hl.steps hexternal))

theorem steps_addInternalDecorator (hl : e.Lists key id) :
    Steps may e (e.addInternalDecorator key info dirty) := by
  have hasked : Steps may e (e.decoratorOf key).2 := steps_decoratorOf hl
  have hattached : Steps may e
      ((e.decoratorOf key).2.onHost (·.attach (e.decoratorOf key).1 info dirty)) :=
    hasked.trans (steps_rest (rests_onHost (.of_objects rfl)))
  exact hattached.trans (steps_updateEntry (hl.steps hattached) fun _ _ ↦
    ⟨⟨rfl, rfl, Or.inl rfl⟩, rfl⟩)

theorem steps_placeExternal {a : Handle} :
    Ensures (placeExternal a info) e fun _ e' ↦ Steps may e e' :=
  ensures_placeExternal.2 fun _ _ ↦ steps_rest (rests_updateExternal rfl)

theorem steps_addFloatingDecorator (hl : e.Lists key id) :
    Ensures (addFloatingDecorator key info) e fun _ e' ↦ Steps may e e' := by
  simp only [addFloatingDecorator, openExternal, ensures_bind, ensures_modify, ensures_modifyGet]
  have hopen : Steps may e
      ((e.decoratorOf key).2.onHost fun h ↦ (h.openExternal .floating info).2) :=
    (steps_decoratorOf hl).trans (steps_rest (rests_onHost Host.keepsButtons_openExternal))
  have hheld := hopen.trans (steps_updateEntry (hl.steps hopen)
    (f := fun x ↦ { x with
      floating := some ((e.decoratorOf key).2.host.openExternal .floating info).1 })
    fun _ _ ↦ ⟨⟨rfl, rfl, Or.inl rfl⟩, rfl⟩)
  exact (Steps.then hheld steps_placeExternal).mono fun _ _ h ↦
    h.trans (steps_rest (rests_updateExternal rfl))

theorem steps_addWindowedDecorator (hl : e.Lists key id) :
    Ensures (addWindowedDecorator key info) e fun _ e' ↦ Steps may e e' := by
  simp only [addWindowedDecorator, openExternal, ensures_bind, ensures_get, ensures_ite,
    ensures_modify, ensures_modifyGet, ensures_pure]
  have hopen : Steps may e
      ((e.decoratorOf key).2.onHost fun h ↦ (h.openExternal .windowed info).2) :=
    (steps_decoratorOf hl).trans (steps_rest (rests_onHost Host.keepsButtons_openExternal))
  refine ⟨fun _ ↦ .refl, fun _ ↦ (hopen.then steps_placeExternal).mono fun _ e₁ h ↦ ?_⟩
  have hheld := h.trans (steps_updateEntry (hl.steps h)
    (f := fun x ↦ { x with
      windowed := some ((e.decoratorOf key).2.host.openExternal .windowed info).1 })
    fun _ _ ↦ ⟨⟨rfl, rfl, Or.inl rfl⟩, rfl⟩)
  have hshown := hheld.trans (steps_rest (rests_updateExternal
    (f := (·.showExternal ((e.decoratorOf key).2.host.openExternal .windowed info).1
      info.activeOnStart)) rfl))
  exact ⟨fun _ ↦ hshown.trans (steps_rest (rests_updateExternal rfl)), fun _ ↦ hshown⟩

theorem steps_addDecorator (hl : e.Lists key id) :
    Ensures (addDecorator key info dirty) e fun _ e' ↦ Steps may e e' := by
  unfold addDecorator
  split
  · exact steps_addFloatingDecorator hl
  · exact steps_addWindowedDecorator hl
  · exact ensures_modify.2 (steps_addInternalDecorator hl)
  · exact ensures_modify.2 (steps_addInternalDecorator hl)

end Engine

end ToolDock

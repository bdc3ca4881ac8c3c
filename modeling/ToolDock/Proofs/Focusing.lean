import ToolDock.Engine.Focus
import ToolDock.Proofs.Clearing
import ToolDock.Proofs.Reloading

/-!
What happens when the focus moves. Windows that are on the screen only while they have the focus
are deactivated one after another; no two of these deactivations interfere, and nobody comes back in
place of a window that leaves. Main statements: `run_focusMovedTo` and `focusMovedTo_movesFocus`.
-/

namespace ToolDock

/-- Whether a window is on the screen only while it has the focus. -/
def WindowInfo.isTransient (info : WindowInfo) : Bool :=
  info.visible && (info.autoHide || info.windowType == .sliding)

theorem WindowInfo.visible_of_isTransient {info : WindowInfo} (h : info.isTransient) :
    info.visible = true :=
  (Bool.and_eq_true_iff.1 h).1

structure Entry.Withdrawn (ids : Set String) (x x' : Entry) : Prop where
  name : x'.name = x.name
  kept : x.name ∉ ids → x' = x
  hidden : x.name ∈ ids → x'.info.visible = false
  holds : ∀ a, x'.holds a → x.holds a

namespace Entry.Withdrawn

variable {ids ids' : Set String} {x x₁ x₂ : Entry}

theorem refl (h : x.name ∈ ids → x.info.visible = false) : Withdrawn ids x x :=
  ⟨rfl, fun _ ↦ rfl, h, fun _ ha ↦ ha⟩

theorem trans (h : Withdrawn ids x x₁) (h' : Withdrawn ids' x₁ x₂) :
    Withdrawn (ids ∪ ids') x x₂ where
  name := h'.name.trans h.name
  kept hname := by
    rw [Set.mem_union, not_or] at hname
    have hsame : x₁ = x := h.kept hname.1
    subst hsame
    exact h'.kept hname.2
  hidden hname := by
    by_cases hlater : x.name ∈ ids'
    · exact h'.hidden (h.name ▸ hlater)
    · have hsame : x₂ = x₁ := h'.kept (h.name ▸ hlater)
      rw [hsame]
      exact h.hidden (hname.resolve_right hlater)
  holds a ha := h.holds a (h'.holds a ha)

end Entry.Withdrawn

namespace Engine

variable {e e' e₁ e₂ : Engine} {key k : SlotKey} {x x' y : Entry} {info placed : WindowInfo}
  {ids ids' : Set String} {id : String} {focused : Option String} {a : Handle} {o : HostObject}

def deactivatedAt (e : Engine) (key : SlotKey) (id : String) : Engine :=
  let (info, e) := e.registeredInfo key
  if info.visible then
    ((e.hidden key info false .none).validatePane (e.paneFor info.pane)).fire .hideToolWindow id
  else e

def deactivated (e : Engine) (id : String) : Engine :=
  match e.keyOf? id with
  | some key => e.deactivatedAt key id
  | none => e

def refocused (e : Engine) : Option String → Engine
  | some id =>
    match e.keyOf? id with
    | some key => e.pushActive key
    | none => e.editorFocused
  | none => e

theorem run_attempt_deactivate (e : Engine) (id : String) :
    attempt (deactivate id) e = .ok () (e.deactivated id) := by
  have hrun : ∃ r, (deactivate id).run e = .ok r (e.deactivated id) := by
    cases hkey : e.keyOf? id with
    | none =>
      rw [deactivate, run_keyOf_bind_none hkey, deactivated, hkey]
      exact ⟨_, rfl⟩
    | some key =>
      refine ⟨.ok (), ?_⟩
      rw [deactivate, run_keyOf_bind hkey, run_takeInfo_bind, deactivated, hkey]
      by_cases hv : (e.registeredInfo key).1.visible = true
      · rw [if_pos hv]
        exact congrArg (EStateM.Result.ok (Except.ok ())) (if_pos hv).symm
      · rw [if_neg hv]
        exact congrArg (EStateM.Result.ok (Except.ok ())) (if_neg hv).symm
  obtain ⟨r, hrun⟩ := hrun
  rw [attempt, run_bind_of_ok hrun]
  rfl

theorem run_forIn_deactivate (e : Engine) (ids : List String) :
    (forIn ids PUnit.unit fun id _ ↦ do
      attempt (deactivate id); pure (ForInStep.yield PUnit.unit) : Action PUnit) e =
        .ok PUnit.unit (ids.foldl deactivated e) := by
  induction ids generalizing e with
  | nil => rfl
  | cons id ids ih =>
    have hturn : (do attempt (deactivate id); pure (ForInStep.yield PUnit.unit) :
        Action (ForInStep PUnit)) e = .ok (.yield PUnit.unit) (e.deactivated id) :=
      run_bind_of_ok (run_attempt_deactivate e id)
    rw [List.forIn_cons, List.foldl_cons, ← ih]
    exact run_bind_of_ok hturn

theorem run_attempt_toolWindowFocused (hkey : e.keyOf? id = some key) :
    attempt (toolWindowFocused id) e = .ok () (e.pushActive key) := by
  have hrun : (toolWindowFocused id).run e = .ok (.ok ()) (e.pushActive key) := by
    rw [toolWindowFocused, run_keyOf_bind hkey]
    rfl
  rw [attempt, run_bind_of_ok hrun]
  rfl

theorem run_focusMovedTo (focused : Option String) (e : Engine) : focusMovedTo focused e =
    .ok () (((e.losingFocus focused).foldl deactivated e).refocused focused) := by
  have hget : (get : Action Engine) e = .ok e e := rfl
  unfold focusMovedTo
  rw [run_bind_of_ok hget, run_bind_of_ok (run_forIn_deactivate e _)]
  generalize (e.losingFocus focused).foldl deactivated e = e₁
  cases focused with
  | none => rfl
  | some id =>
    have hget : (get : Action Engine) e₁ = .ok e₁ e₁ := rfl
    dsimp only
    rw [run_bind_of_ok hget, refocused, isRegistered]
    cases hkey : e₁.keyOf? id with
    | none => rfl
    | some key =>
      rw [Option.isSome_some, if_pos rfl]
      exact run_attempt_toolWindowFocused hkey

/-- The windows with some ids leave the screen, and nothing else happens to windows, in what is
remembered and in the host. -/
structure Withdraws (ids : Set String) (e e' : Engine) : Prop where
  coherent : Coherent e'
  entries : ∀ k, Option.Rel (Entry.Withdrawn ids) (e.entries.get? k) (e'.entries.get? k)
  layout : ∀ id ∉ ids, e'.layout.get? id = e.layout.get? id
  sideStack : e'.sideStack = e.sideStack
  host : ∀ a o, e.host.objects.get? a = some o →
    (∀ k x, e.entries.get? k = some x → x.name ∈ ids → ¬ x.holds a) →
      e'.host.objects.get? a = some o

namespace Withdraws

theorem refl (h : Coherent e) (hid : ∀ k x, e.entries.get? k = some x → x.name ∈ ids →
    x.info.visible = false) : Withdraws ids e e where
  coherent := h
  entries k := by
    cases hx : e.entries.get? k with
    | none => exact .none
    | some x => exact .some (.refl (hid k x hx))
  layout _ _ := rfl
  sideStack := rfl
  host _ _ ho _ := ho

theorem trans (h : Withdraws ids e e₁) (h' : Withdraws ids' e₁ e₂) :
    Withdraws (ids ∪ ids') e e₂ where
  coherent := h'.coherent
  entries k := by
    have hk := h.entries k
    have hk' := h'.entries k
    generalize e.entries.get? k = x, e₁.entries.get? k = x₁, e₂.entries.get? k = x₂ at hk hk'
    cases hk with
    | none =>
      cases hk'
      exact .none
    | some hx =>
      cases hk' with
      | some hx' => exact .some (hx.trans hx')
  layout id hid := by
    rw [Set.mem_union, not_or] at hid
    exact (h'.layout id hid.2).trans (h.layout id hid.1)
  sideStack := h'.sideStack.trans h.sideStack
  host a o ho hfree := by
    refine h'.host a o (h.host a o ho fun k x hx hname ↦ ?_) fun k x₁ hx₁ hname ha ↦ ?_
    · exact hfree k x hx (Or.inl hname)
    · -- what an entry holds later it held before
      have hk := h.entries k
      rw [hx₁] at hk
      generalize hx : e.entries.get? k = x? at hk
      cases hk with
      | some hwithdrawn =>
        exact hfree k _ hx (Or.inr (hwithdrawn.name ▸ hname)) (hwithdrawn.holds a ha)

theorem congr (h : Withdraws ids e e₁) (hentries : e₂.entries = e₁.entries)
    (hlayout : e₂.layout = e₁.layout) (hside : e₂.sideStack = e₁.sideStack)
    (hobjects : e₂.host.objects = e₁.host.objects) : Withdraws ids e e₂ where
  coherent := h.coherent.congr (funext fun k ↦ by rw [standing?, standing?, hentries])
    (congrArg Layout.windows hlayout)
  entries k := by
    rw [hentries]
    exact h.entries k
  layout id hid := by
    rw [hlayout]
    exact h.layout id hid
  sideStack := hside.trans h.sideStack
  host a o ho hfree := by
    rw [hobjects]
    exact h.host a o ho hfree

end Withdraws

theorem Coherent.withdraws_registeredInfo (h : Coherent e) (hx : e.entries.get? key = some x)
    (hv : x.info.visible = false) : Withdraws {x.name} e (e.registeredInfo key).2 where
  coherent := (h.sound.registeredInfo hx).1.coherent
  entries k := by
    rw [entries_registeredInfo]
    cases hy : e.entries.get? k with
    | none => exact .none
    | some y =>
      refine .some (.refl fun hname ↦ ?_)
      have hk : k = key := h.namesUnique hy hx hname
      subst hk
      cases hx.symm.trans hy
      exact hv
  layout id hid := by
    have hinfoid : x.info.id = x.id := (h.sound.info_id hx).trans (h.sound.id_eq hx).symm
    rw [registeredInfo_eq hx hinfoid]
    split
    · rfl
    · have hne : id ≠ x.info.id := by
        rw [h.sound.info_id hx]
        exact hid
      exact (get?_storeInfo ..).trans (if_neg hne)
  sideStack := sideStack_registeredInfo
  host a o ho _ := by
    rw [snd_registeredInfo]
    exact ho

theorem host_hidden (hx : e.entries.get? key = some x) (ho : e.host.objects.get? a = some o)
    (ha : ¬ x.holds a) : (e.hidden key info false .none).host.objects.get? a = some o := by
  have hexternal : ∀ b, x.holds b → NotExternal {(a, o)} b := by
    rintro b hb w heq
    cases heq
    exact ha hb
  have hhas : e.host.Has {(a, o)} := by
    rintro b p heq
    cases heq
    exact ho
  exact has_removeDecorators (e := { e with activeStack := e.activeStack.remove key false }) hx
    hhas hexternal rfl

theorem Coherent.withdraws_hidden (h : Coherent e) (hl : Located e key x info) :
    Withdraws {x.name} e (e.hidden key info false .none) := by
  obtain ⟨off, saved, hoff, -, hex⟩ :=
    exchanged_hidden (D := False) info false .none hl.entry False.elim
  have hid : off.id = x.name := by
    rw [hoff, WindowInfo.id_withState, id_mutated]
    exact (h.sound.placement_id hl :)
  refine ⟨h.hidden false hl, fun k ↦ ?_, fun id hne ↦ ?_, hex.sideStack, fun a o ho hfree ↦ ?_⟩
  · by_cases hk : k = key
    · subst hk
      rw [hl.entry, hex.get?_self]
      refine .some ⟨rfl, fun hname ↦ absurd rfl hname, fun _ ↦ ?_, fun a ha ↦ ?_⟩
      · rw [hoff]
        rfl
      · rcases ha with ha | ha <;> cases ha
    · rw [hex.get?_other hk]
      cases hy : e.entries.get? k with
      | none => exact .none
      | some y =>
        exact .some (.refl fun hname ↦ absurd (h.namesUnique hy hl.entry hname) hk)
  · rw [hex.layout, Layout.get?_put, if_neg]
    rw [hid]
    exact hne
  · exact host_hidden hl.entry ho (hfree key x hl.entry rfl)

theorem Coherent.withdraws_deactivated (h : Coherent e) (id : String) :
    Withdraws {id} e (e.deactivated id) := by
  unfold deactivated
  cases hkey : e.keyOf? id with
  | none =>
    exact .refl h fun k x hx hname ↦ absurd hname (name_ne_of_keyOf?_eq_none hkey hx)
  | some key =>
    obtain ⟨x, hx, rfl⟩ := get?_of_keyOf? hkey
    change Withdraws {x.name} e (e.deactivatedAt key x.name)
    unfold deactivatedAt
    by_cases hv : x.info.visible = true
    · obtain ⟨placed, hplaced⟩ := Layout.contains_iff.1
        (h.ready (Set.notMem_empty key) (standing?_of_get? hx) hv).2
      have hl : Located e key x placed := ⟨hx, hplaced⟩
      have hshown : placed.visible = true :=
        (h.sound.visible_eq hl (Set.notMem_empty key)).symm.trans hv
      rw [hl.registeredInfo_eq]
      dsimp only
      rw [if_pos hshown]
      exact (h.withdraws_hidden hl).congr rfl rfl rfl rfl
    · obtain ⟨hsound, hl⟩ := h.sound.registeredInfo hx
      have hhidden : (e.registeredInfo key).1.visible = x.info.visible :=
        (hsound.visible_eq hl (Set.notMem_empty key)).symm
      dsimp only
      rw [hhidden, if_neg hv]
      exact h.withdraws_registeredInfo hx (by simpa using hv)

theorem Coherent.withdraws_foldl (h : Coherent e) (ids : List String) :
    Withdraws {id | id ∈ ids} e (ids.foldl deactivated e) := by
  induction ids generalizing e with
  | nil => exact .refl h fun _ _ _ hid ↦ (nomatch hid)
  | cons id ids ih =>
    have hturn := h.withdraws_deactivated id
    have hboth := hturn.trans (ih hturn.coherent)
    have hids : {id} ∪ {i | i ∈ ids} = {i | i ∈ id :: ids} := by
      ext i
      simp
    rw [hids] at hboth
    exact hboth

/-- The windows that leave the screen when the focus moves: those that are there only while they
have the focus, unless it goes to them. -/
def Loses (e : Engine) (focused : Option String) (id : String) : Prop :=
  some id ≠ focused ∧ ∃ info, e.windowInfo? id = some info ∧ info.isTransient

theorem Coherent.mem_losingFocus (h : Coherent e) :
    id ∈ e.losingFocus focused ↔ e.Loses focused id := by
  simp only [losingFocus, SlotTable.values, List.mem_map, List.mem_filter, Loses, windowInfo?,
    Option.map_eq_some_iff, h.entry?_eq_some]
  constructor
  · intro hmem
    obtain ⟨x, ⟨⟨row, hrow, rfl⟩, hp⟩, rfl⟩ := hmem
    have hx : e.entries.get? row.1 = some row.2 := SlotTable.mem_toList.1 hrow
    have hid : row.2.id = row.2.name := h.sound.id_eq hx
    rw [Bool.and_eq_true, bne_iff_ne] at hp
    exact ⟨hp.2, row.2.info, ⟨row.2, ⟨row.1, hx, hid.symm⟩, rfl⟩, hp.1⟩
  · intro hloses
    obtain ⟨hne, info, ⟨x, ⟨key, hx, rfl⟩, rfl⟩, ht⟩ := hloses
    have hid : x.id = x.name := h.sound.id_eq hx
    refine ⟨x, ⟨⟨(key, x), SlotTable.mem_toList.2 hx, rfl⟩, ?_⟩, hid⟩
    rw [Bool.and_eq_true, bne_iff_ne, hid]
    exact ⟨ht, hne⟩

namespace Withdraws

theorem exists_entry (h : Withdraws ids e e') (hx' : e'.entries.get? k = some x') :
    ∃ x, e.entries.get? k = some x ∧ x.Withdrawn ids x' := by
  have hk := h.entries k
  rw [hx'] at hk
  generalize e.entries.get? k = x? at hk
  cases hk with
  | some hwithdrawn => exact ⟨_, rfl, hwithdrawn⟩

theorem sameNames (h : Withdraws ids e e') : SameNames e e' := by
  intro k
  have hk := h.entries k
  generalize e.entries.get? k = x?, e'.entries.get? k = x'? at hk
  cases hk with
  | none => rfl
  | some hwithdrawn => exact congrArg some hwithdrawn.name

theorem entry?_eq (h : Withdraws ids e e') (hc : Coherent e) (hid : id ∉ ids) :
    e'.entry? id = e.entry? id := by
  refine Option.ext fun y ↦ ?_
  rw [h.coherent.entry?_eq_some, hc.entry?_eq_some]
  refine exists_congr fun k ↦ and_congr_left fun hname ↦ ?_
  subst hname
  have hk := h.entries k
  generalize e.entries.get? k = x?, e'.entries.get? k = x'? at hk ⊢
  cases hk with
  | none => rfl
  | @some x x' hwithdrawn =>
    rw [Option.some.injEq, Option.some.injEq]
    constructor
    · rintro rfl
      exact (hwithdrawn.kept (hwithdrawn.name ▸ hid)).symm
    · rintro rfl
      exact hwithdrawn.kept hid

theorem hidden (h : Withdraws ids e e') (hid : id ∈ ids) (hinfo : e'.windowInfo? id = some info) :
    info.visible = false := by
  obtain ⟨x', hentry, rfl⟩ := Option.map_eq_some_iff.1 hinfo
  obtain ⟨k, hx', rfl⟩ := h.coherent.entry?_eq_some.1 hentry
  obtain ⟨x, -, hwithdrawn⟩ := h.exists_entry hx'
  exact hwithdrawn.hidden (hwithdrawn.name ▸ hid)

end Withdraws

/-- What is so after the focus moved. -/
structure MovesFocus (focused : Option String) (e e' : Engine) : Prop where
  coherent : Coherent e'
  gone : ∀ id, ¬ e'.Loses focused id
  kept : ∀ id, ¬ e.Loses focused id →
    e'.layout.get? id = e.layout.get? id ∧ e'.entry? id = e.entry? id
  host : ∀ a o, e.host.objects.get? a = some o →
    (∀ id x, e.Loses focused id → e.entry? id = some x → ¬ x.holds a) →
      e'.host.objects.get? a = some o
  unseen : ∀ id, (e'.isVisible id → e.isVisible id) ∧
    ((e'.layout.get? id).any (·.visible) → (e.layout.get? id).any (·.visible))
  sideStack : e'.sideStack = e.sideStack
  front : ∀ id key, focused = some id → e.keyOf? id = some key →
    e'.activeStack.transient.head? = some key ∧ e'.activeStack.persistent.head? = some key
  editor : ∀ id, focused = some id → e.isRegistered id = false → e'.activeStack.transient = []

theorem refocused_eq (e : Engine) (focused : Option String) :
    e.refocused focused = { e with activeStack := (e.refocused focused).activeStack } := by
  cases focused with
  | none => rfl
  | some id =>
    dsimp only [refocused]
    cases e.keyOf? id with
    | none => rfl
    | some key => rfl

namespace Withdraws

theorem isVisible (h : Withdraws ids e e') (hc : Coherent e) (hv : e'.isVisible id) :
    e.isVisible id := by
  by_cases hid : id ∈ ids
  · obtain ⟨info, hinfo, hv⟩ := (Option.any_eq_true _ _).1 hv
    cases (h.hidden hid hinfo).symm.trans hv
  · rwa [Engine.isVisible, windowInfo?, h.entry?_eq hc hid] at hv

theorem visible_layout (h : Withdraws ids e e') (hregistered : ∀ id ∈ ids, e.isRegistered id)
    (hv : (e'.layout.get? id).any (·.visible)) : (e.layout.get? id).any (·.visible) := by
  by_cases hid : id ∈ ids
  · obtain ⟨placed, hplaced, hseen⟩ := (Option.any_eq_true _ _).1 hv
    obtain ⟨key, hkey⟩ := Option.isSome_iff_exists.1 (hregistered id hid)
    obtain ⟨x, hx, rfl⟩ := get?_of_keyOf? hkey
    have hk := h.entries key
    rw [hx] at hk
    generalize hx' : e'.entries.get? key = x? at hk
    cases hk with
    | @some _ x' hwithdrawn =>
      have hid' : x'.id = x.name := (h.coherent.sound.id_eq hx').trans hwithdrawn.name
      have hl : Located e' key x' placed := ⟨hx', hid'.symm ▸ hplaced⟩
      have hhidden := hwithdrawn.hidden hid
      rw [h.coherent.sound.visible_eq hl (Set.notMem_empty key)] at hhidden
      cases hhidden.symm.trans hseen
  · rwa [h.layout id hid] at hv

theorem movesFocus (h : Withdraws {id | id ∈ e.losingFocus focused} e e₁) (hc : Coherent e) :
    MovesFocus focused e (e₁.refocused focused) := by
  have hloses : ∀ {id}, id ∈ {id | id ∈ e.losingFocus focused} ↔ e.Loses focused id :=
    hc.mem_losingFocus
  have hkey : ∀ id, e₁.keyOf? id = e.keyOf? id := h.sameNames.keyOf?_eq hc.namesUnique
  have hlast : Withdraws {id | id ∈ e.losingFocus focused} e (e₁.refocused focused) := by
    rw [refocused_eq]
    exact h.congr rfl rfl rfl rfl
  refine ⟨hlast.coherent, fun id hstill ↦ ?_, fun id hid ↦ ?_, fun a o ho hfree ↦ ?_,
    fun id ↦ ⟨hlast.isVisible hc, hlast.visible_layout fun i hi ↦ ?_⟩, hlast.sideStack, ?_, ?_⟩
  · obtain ⟨hne, info, hinfo, ht⟩ := hstill
    by_cases hid : id ∈ {id | id ∈ e.losingFocus focused}
    · cases (hlast.hidden hid hinfo).symm.trans (WindowInfo.visible_of_isTransient ht)
    · refine hid (hloses.2 ⟨hne, info, ?_, ht⟩)
      rwa [windowInfo?, hlast.entry?_eq hc hid] at hinfo
  · have hkept : id ∉ {id | id ∈ e.losingFocus focused} := fun hmem ↦ hid (hloses.1 hmem)
    exact ⟨hlast.layout id hkept, hlast.entry?_eq hc hkept⟩
  · refine hlast.host a o ho fun k x hx hname ↦ ?_
    exact hfree x.name x (hloses.1 hname) (hc.namesUnique.entry?_eq hx)
  · obtain ⟨-, info, hinfo, -⟩ := hloses.1 hi
    obtain ⟨x, hentry, -⟩ := Option.map_eq_some_iff.1 hinfo
    obtain ⟨key, hfound, -⟩ := Option.bind_eq_some_iff.1 hentry
    exact Option.isSome_iff_exists.2 ⟨key, hfound⟩
  · rintro id key rfl hregistered
    have hpushed : e₁.refocused (some id) = e₁.pushActive key := by
      rw [refocused, hkey, hregistered]
    rw [hpushed]
    exact ⟨rfl, rfl⟩
  · rintro id rfl hunknown
    have hnone : e.keyOf? id = none := by simpa [isRegistered] using hunknown
    have hcleared : e₁.refocused (some id) = e₁.editorFocused := by
      rw [refocused, hkey, hnone]
    rw [hcleared]
    rfl

end Withdraws

/-- Whatever the focus goes to, just those windows leave the screen that are there only while they
have it, and everything about the others is as it was. -/
theorem focusMovedTo_movesFocus (hc : Coherent e) (focused : Option String) :
    ∃ e', focusMovedTo focused e = .ok () e' ∧ MovesFocus focused e e' ∧
      (Decorated e → ∀ id x a, ¬ e.Loses focused id → e.entry? id = some x → x.holds a →
        ∃ o, e.host.objects.get? a = some o ∧ e'.host.objects.get? a = some o) := by
  have hmoves := (hc.withdraws_foldl (e.losingFocus focused)).movesFocus hc
  refine ⟨_, run_focusMovedTo focused e, hmoves, fun hd id x a hkept hentry ha ↦ ?_⟩
  obtain ⟨k, hx, rfl⟩ := hc.entry?_eq_some.1 hentry
  obtain ⟨w, hw⟩ := Host.exists_external_of_isOpen ((hd.isServed hx).1 a ha)
  refine ⟨.external w, hw, hmoves.host a _ hw fun id y hloses hy hya ↦ ?_⟩
  obtain ⟨k', hget, rfl⟩ := hc.entry?_eq_some.1 hy
  -- it would be held by two windows, one that loses and one that does not
  have hkey : k' = k := hd.externals.unique hget hx hya ha
  subst hkey
  cases hx.symm.trans hget
  exact hkept hloses

/-- A sliding window and one that hides by itself lose the focus to a third one, which keeps a
window of its own. -/
theorem focusMovedTo_movesFocus_splitRequest : ∃ e e' x a o, Session Request.Presents blank e ∧
    e.losingFocus (some "A") = ["B", "S"] ∧ e.entry? "A" = some x ∧ x.floating = some a ∧
      focusMovedTo (some "A") e = .ok () e' ∧ MovesFocus (some "A") e e' ∧
        e.host.objects.get? a = some o ∧ e'.host.objects.get? a = some o := by
  have hleads : blank.registersTo (hiddenRequest "A") (·.registersTo (hiddenRequest "B")
      (·.registersTo splitRequest (·.leadsTo (Request.setType "B" .floating).run
        (·.leadsTo (Request.setAutoHide "B" true).run (·.leadsTo (Request.setType "S" .sliding).run
          (·.leadsTo (Request.setType "A" .floating).run (·.leadsTo (Request.reveal "A").run
            (·.leadsTo (Request.reveal "B").run (·.leadsTo (Request.reveal "S").run fun e ↦
              e.losingFocus (some "A") = ["B", "S"] &&
                (e.entry? "A").any (·.floating.isSome)))))))))) := by
    decide +kernel
  obtain ⟨e₁, hs₁, hleads⟩ := Session.start.exists_presenting hleads
  obtain ⟨e₂, hs₂, hleads⟩ := hs₁.exists_presenting hleads
  obtain ⟨e₃, hs₃, hleads⟩ := hs₂.exists_presenting hleads
  obtain ⟨e₄, hs₄, hleads⟩ := hs₃.exists_of_leadsTo hleads trivial
  obtain ⟨e₅, hs₅, hleads⟩ := hs₄.exists_of_leadsTo hleads trivial
  obtain ⟨e₆, hs₆, hleads⟩ := hs₅.exists_of_leadsTo hleads trivial
  obtain ⟨e₇, hs₇, hleads⟩ := hs₆.exists_of_leadsTo hleads trivial
  obtain ⟨e₈, hs₈, hleads⟩ := hs₇.exists_of_leadsTo hleads trivial
  obtain ⟨e₉, hs₉, hleads⟩ := hs₈.exists_of_leadsTo hleads trivial
  obtain ⟨e, hs, hlast⟩ := hs₉.exists_of_leadsTo hleads trivial
  rw [Bool.and_eq_true, decide_eq_true_eq, Option.any_eq_true] at hlast
  obtain ⟨hlosing, x, hx, hfloats⟩ := hlast
  obtain ⟨a, ha⟩ := Option.isSome_iff_exists.1 hfloats
  have hsound : Sound id True ∅ ∅ e :=
    hs.sound ⟨coherentOn_of_empty rfl, fun _ ↦ decoratedOn_of_empty rfl rfl⟩
  obtain ⟨e', hrun, hmoves, hheld⟩ := focusMovedTo_movesFocus hsound.coherent (some "A")
  obtain ⟨o, ho, ho'⟩ :=
    hheld (hsound.decorated trivial) "A" x a (fun hloses ↦ hloses.1 rfl) hx (Or.inl ha)
  exact ⟨e, e', x, a, o, hs, hlosing, hx, ha, hrun, hmoves, ho, ho'⟩

end Engine

end ToolDock

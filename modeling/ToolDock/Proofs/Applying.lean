import ToolDock.Proofs.Planning
import ToolDock.Proofs.Showing

/-!
What one change of a layout does, step by step. Besides decorators it exchanges a placement, once it
was shown in its new slot or hidden in its old one. Main statements: `ensures_applyChange` for one
change, and `ensures_setLayout` for all of them.
-/

namespace ToolDock

def Entry.identity (x : Entry) : String × String × Bool := (x.name, x.id, x.available)

theorem Entry.identity_of_standing {x y : Entry} (h : y.standing = x.standing) :
    y.identity = x.identity := by
  simp only [standing, Standing.mk.injEq] at h
  simp only [identity, h]

namespace Engine

variable {key : SlotKey} {x x' : Entry} {l : Layout} {e e' e'' : Engine} {info : WindowInfo}
  {c c' : LayoutChange} {dirty : Bool} {α β : Type}

def Redecorates (key : SlotKey) (x : Entry) (e e' : Engine) : Prop :=
  ∃ x', Exchanged False key x x' e.layout e e' ∧ x'.standing = x.standing

namespace Redecorates

theorem refl (hx : e.entries.get? key = some x) : Redecorates key x e e :=
  ⟨x, .refl hx (nomatch ·), rfl⟩

theorem trans (h : Redecorates key x e e')
    (h' : ∀ x', e'.entries.get? key = some x' → Redecorates key x' e' e'') :
    Redecorates key x e e'' := by
  obtain ⟨x', hex, hst⟩ := h
  obtain ⟨x'', hex', hst'⟩ := h' x' hex.get?_self
  exact ⟨x'', hex.andThen hex', hst'.trans hst⟩

end Redecorates

theorem redecorates_removeDecorators (hx : e.entries.get? key = some x) :
    Redecorates key x e (e.removeDecorators key info dirty).2 :=
  ⟨_, (exchanged_removeDecorators info dirty hx (nomatch ·)).2, rfl⟩

theorem redecorates_removeInternalDecorator (hx : e.entries.get? key = some x) :
    Redecorates key x e (e.removeInternalDecorator key dirty) :=
  ⟨_, exchanged_removeInternalDecorator dirty hx (nomatch ·), rfl⟩

theorem redecorates_resetStripeButton (hx : e.entries.get? key = some x) :
    Redecorates key x e (e.resetStripeButton key info) := by
  have hremove := exchanged_removeStripeButton (D := False) hx (nomatch ·)
  unfold resetStripeButton
  dsimp only
  split
  · obtain ⟨b, -, hensure⟩ := exchanged_ensureStripeButton (D := False) info hremove.get?_self
      (nomatch ·)
    exact ⟨_, hremove.andThen hensure, rfl⟩
  · exact ⟨_, hremove, rfl⟩

theorem ensures_addDecorator_redecorates (hx : e.entries.get? key = some x) :
    Ensures (addDecorator key info dirty) e fun _ e' ↦ Redecorates key x e e' :=
  (ensures_addDecorator (D := False) hx (nomatch ·) (nomatch ·)).mono
    fun _ _ ⟨x', hex, hst, _⟩ ↦ ⟨x', hex, hst⟩

theorem LayoutChange.visible_of_movesSlot (h : c.movesSlot) : c.old.visible ∧ c.new.visible := by
  simp only [movesSlot, WindowInfo.occupiesSlot, Bool.and_eq_true] at h
  exact ⟨h.1.2.1, h.2.1⟩

/-- How a change comes back: the state that the host has for an external window that it closes is in
the new placement, which is the one asked for otherwise. -/
structure Captures (h : Host) (x : Entry) (c c' : LayoutChange) : Prop where
  key : c'.key = c.key
  old : c'.old = c.old
  new : ∃ saved, c'.new = c.new.withState saved
  exact : ¬ (c.old.visible ∧ c.new.visible = false ∧ x.external?.isSome) → c'.new = c.new
  captured : c.old.visible → c.new.visible = false → ∀ kind a w, x.ShowsIn kind a →
    h.external? a = some w → c'.new = c.new.capturing kind w

theorem Captures.of_not_hiding {h : Host} (hnot : ¬ (c.old.visible ∧ c.new.visible = false)) :
    Captures h x c c :=
  ⟨rfl, rfl, ⟨c.new, rfl⟩, fun _ ↦ rfl, fun hv hhid ↦ absurd ⟨hv, hhid⟩ hnot⟩

theorem Captures.of_movesSlot {h : Host} (hm : c.movesSlot) : Captures h x c c := by
  refine .of_not_hiding fun hhiding ↦ ?_
  rw [(LayoutChange.visible_of_movesSlot hm).2] at hhiding
  exact absurd hhiding.2 Bool.true_eq_false.mp

theorem saveExternalState_of_external?_eq_none (hx : e.entries.get? key = some x)
    (hnone : x.external? = none) : (e.saveExternalState key info).1 = info := by
  obtain ⟨hw, hf⟩ := Option.or_eq_none_iff.1 hnone
  unfold saveExternalState
  rw [hx]
  simp only [hw, hf]

theorem applyHiding_redecorates (hx : e.entries.get? c.key = some x) :
    Captures e.host x c (applyHiding c e).1 ∧ Redecorates c.key x e (applyHiding c e).2 := by
  unfold applyHiding
  split
  case isTrue h =>
    simp only [Bool.and_eq_true, Bool.not_eq_true'] at h
    obtain ⟨⟨saved, hsaved⟩, -⟩ := exchanged_removeDecorators (D := False) c.new true hx (nomatch ·)
    refine ⟨⟨rfl, rfl, ⟨saved, hsaved⟩, fun hnot ↦ ?_,
      fun _ _ _ _ _ ha hw ↦ saveExternalState_of_showsIn hx ha hw⟩, redecorates_removeDecorators hx⟩
    refine saveExternalState_of_external?_eq_none hx ?_
    rw [← Option.not_isSome_iff_eq_none]
    exact fun hext ↦ hnot ⟨h.1, h.2, hext⟩
  case isFalse hnot =>
    refine ⟨.of_not_hiding fun hhiding ↦ hnot ?_, .refl hx⟩
    rw [hhiding.1, hhiding.2]
    rfl

namespace Captures

variable {host : Host}

theorem movesSlot (h : Captures host x c c') : c'.movesSlot = c.movesSlot := by
  obtain ⟨saved, hnew⟩ := h.new
  rw [LayoutChange.movesSlot, h.old, hnew]
  rfl

theorem changesSplit (h : Captures host x c c') : c'.changesSplit = c.changesSplit := by
  obtain ⟨saved, hnew⟩ := h.new
  rw [LayoutChange.changesSplit, h.old, hnew]
  rfl

theorem changesType (h : Captures host x c c') : c'.changesType = c.changesType := by
  obtain ⟨saved, hnew⟩ := h.new
  rw [LayoutChange.changesType, h.old, hnew]
  rfl

theorem visible (h : Captures host x c c') : c'.new.visible = c.new.visible := by
  obtain ⟨saved, hnew⟩ := h.new
  rw [hnew, WindowInfo.visible_withState]

theorem eq_of_visible (h : Captures host x c c') (hv : c.new.visible) : c' = c := by
  have hnew := h.exact fun hnot ↦ by
    rw [hv] at hnot
    exact absurd hnot.2.1 Bool.true_eq_false.mp
  obtain ⟨key, old, new⟩ := c'
  obtain rfl : key = c.key := h.key
  obtain rfl : old = c.old := h.old
  obtain rfl : new = c.new := hnew
  rfl

theorem eq_of_movesSlot (h : Captures host x c c') (hm : c.movesSlot) : c' = c :=
  h.eq_of_visible (LayoutChange.visible_of_movesSlot hm).2

end Captures

def relabelled (e : Engine) (c : LayoutChange) : Engine :=
  if c.relabels then e.resetStripeButton c.key c.new else e

def retyped (e : Engine) (c : LayoutChange) : Engine :=
  if c.changesType then (e.removeDecorators c.key c.old c.old.windowType.isInternal).2 else e

/-- A window that was not shown in another slot leaves its own for the one beside. -/
def leaveSlot (c : LayoutChange) (shown : Bool) : Action Unit :=
  if !shown && c.changesSplit then hideWindow c.key c.old true false .none else pure ()

/-- A window without decorators that is visible gets those of its new placement, if it was not
shown. -/
def decorate (c : LayoutChange) (shown : Bool) : Action Unit :=
  if c.new.visible && (c.changesSplit || c.changesType || !c.old.visible) && !shown then
    addDecorator c.key c.new true
  else pure ()

theorem ensures_applyPlace_stages {Q : Bool → Engine → Prop}
    (hmoves : c.movesSlot → Ensures (showWindow c.key c.new true)
      ((e.relabelled c).removeInternalDecorator c.key true) fun _ e' ↦ Q true e')
    (hstays : ¬ c.movesSlot → Q false (e.relabelled c)) : Ensures (applyPlace c) e Q := by
  unfold relabelled at hmoves hstays
  simp only [applyPlace, ensures_bind, ensures_ite, ensures_modify, ensures_pure]
  refine ⟨fun hr ↦ ?_, fun hr ↦ ?_⟩
  · rw [if_pos hr] at hmoves hstays
    exact ⟨hmoves, hstays⟩
  · rw [if_neg hr] at hmoves hstays
    exact ⟨hmoves, hstays⟩

theorem ensures_applyChange_stages {Q : LayoutChange → Engine → Prop} {e₁ : Engine}
    (hhiding : applyHiding c e = (c', e₁))
    (h : Ensures (applyPlace c') e₁ fun shown e₂ ↦ Ensures (leaveSlot c' shown) e₂ fun _ e₃ ↦
      Ensures (decorate c' shown) (e₃.retyped c') fun _ e₄ ↦ Q c' (e₄.commit c'.key c'.new)) :
    Ensures (applyChange c) e Q := by
  unfold applyChange
  rw [ensures_bind, ensures_modifyGet, hhiding, ensures_bind]
  refine h.mono fun shown e₂ h₂ ↦ ?_
  have hshow : (c'.new.visible && ((!shown && c'.changesSplit) || c'.changesType || !c'.old.visible)
      && !shown) = (c'.new.visible && (c'.changesSplit || c'.changesType || !c'.old.visible)
        && !shown) := by
    cases shown <;> simp
  simp only [leaveSlot, decorate, retyped, ensures_ite, ensures_bind, ensures_modify,
    ensures_pure, hshow] at h₂ ⊢
  grind

theorem ensures_applyPlace {Q : Bool → Engine → Prop} (hx : e.entries.get? c.key = some x)
    (hmoves : c.movesSlot → ∀ e₁, Redecorates c.key x e e₁ →
      Ensures (showWindow c.key c.new true) e₁ fun _ e₂ ↦ Q true e₂)
    (hstays : ¬ c.movesSlot → ∀ e₁, Redecorates c.key x e e₁ → Q false e₁) :
    Ensures (applyPlace c) e Q := by
  have hrelabelled : Redecorates c.key x e (e.relabelled c) := by
    unfold relabelled
    split
    · exact redecorates_resetStripeButton hx
    · exact .refl hx
  refine ensures_applyPlace_stages (fun hm ↦ hmoves hm _ (hrelabelled.trans fun _ hx₁ ↦ ?_))
    fun hm ↦ hstays hm _ hrelabelled
  exact redecorates_removeInternalDecorator hx₁

def Finishes (c : LayoutChange) (Q : LayoutChange → Engine → Prop) (e : Engine) : Prop :=
  ∃ x, e.entries.get? c.key = some x ∧
    ∀ e', Redecorates c.key x e e' → Q c (e'.commit c.key c.new)

theorem ensures_applyChange {Q : LayoutChange → Engine → Prop} (hx : e.entries.get? c.key = some x)
    (hmoves : c.movesSlot → ∀ e₁, Redecorates c.key x e e₁ →
      Ensures (showWindow c.key c.new true) e₁ fun _ e₂ ↦ Finishes c Q e₂)
    (hsplits : ¬ c.movesSlot → c.changesSplit → ∀ c' e₁, Captures e.host x c c' →
      Redecorates c.key x e e₁ →
      Ensures (hideWindow c.key c.old true false .none) e₁ fun _ e₂ ↦ Finishes c' Q e₂)
    (hstays : ¬ c.movesSlot → ¬ c.changesSplit → ∀ c' e₁, Captures e.host x c c' →
      Redecorates c.key x e e₁ → Finishes c' Q e₁) :
    Ensures (applyChange c) e Q := by
  -- the stages after the window was moved
  have hlast : ∀ c' e₁ shown, Finishes c' Q e₁ →
      Ensures (decorate c' shown) (e₁.retyped c') fun _ e₂ ↦ Q c' (e₂.commit c'.key c'.new) := by
    intro c' e₁ shown ⟨x₁, hx₁, hQ⟩
    have hretyped : Redecorates c'.key x₁ e₁ (e₁.retyped c') := by
      unfold retyped
      split
      · exact redecorates_removeDecorators hx₁
      · exact .refl hx₁
    obtain ⟨x₂, hex, -⟩ := id hretyped
    simp only [decorate, ensures_ite, ensures_pure]
    refine ⟨fun _ ↦ ?_, fun _ ↦ hQ _ hretyped⟩
    refine (ensures_addDecorator_redecorates hex.get?_self).mono fun _ e₃ he₃ ↦ hQ e₃ ?_
    exact hretyped.trans fun x' hx' ↦ by cases hx'.symm.trans hex.get?_self; exact he₃
  obtain ⟨hcap, hhid⟩ := applyHiding_redecorates hx
  obtain ⟨c', e₁, hhiding⟩ : ∃ c' e₁, applyHiding c e = (c', e₁) := ⟨_, _, rfl⟩
  rw [hhiding] at hcap hhid
  refine ensures_applyChange_stages hhiding ?_
  obtain ⟨x₁, hex, -⟩ := id hhid
  have hx₁ : e₁.entries.get? c'.key = some x₁ := hcap.key ▸ hex.get?_self
  have hthen : ∀ e₂, Redecorates c'.key x₁ e₁ e₂ → Redecorates c.key x e e₂ := by
    intro e₂ he₂
    refine hhid.trans fun x' hx' ↦ ?_
    cases hx'.symm.trans hex.get?_self
    exact hcap.key ▸ he₂
  refine ensures_applyPlace hx₁ (fun hm e₂ he₂ ↦ ?_) fun hm e₂ he₂ ↦ ?_
  · rw [hcap.movesSlot] at hm
    obtain rfl := hcap.eq_of_movesSlot hm
    exact (hmoves hm e₂ (hthen e₂ he₂)).mono fun _ e₃ h₃ ↦ ensures_pure.2 (hlast c' e₃ true h₃)
  · rw [hcap.movesSlot] at hm
    simp only [leaveSlot, Bool.not_false, Bool.true_and]
    rw [ensures_ite, hcap.changesSplit]
    refine ⟨fun hs ↦ ?_, fun hs ↦ ensures_pure.2
      (hlast c' e₂ false (hstays hm hs c' e₂ hcap (hthen e₂ he₂)))⟩
    have hhide := hsplits hm hs c' e₂ hcap (hthen e₂ he₂)
    rw [← hcap.key, ← hcap.old] at hhide
    exact hhide.mono fun _ e₃ h₃ ↦ hlast c' e₃ false h₃

/-- What there is to see of the windows is the same: the entries, the layout, and what the host
holds for them on its desktop. -/
structure SameWindows (e e' : Engine) : Prop where
  entries : e'.entries = e.entries
  layout : e'.layout = e.layout
  objects : e'.host.objects = e.host.objects
  desktop : e'.host.desktop = e.host.desktop

namespace SameWindows

theorem refl : SameWindows e e := ⟨rfl, rfl, rfl, rfl⟩

theorem trans (h : SameWindows e e') (h' : SameWindows e' e'') : SameWindows e e'' :=
  ⟨h'.entries.trans h.entries, h'.layout.trans h.layout, h'.objects.trans h.objects,
    h'.desktop.trans h.desktop⟩

theorem foldl {f : Engine → α → Engine} (hf : ∀ e a, SameWindows e (f e a)) (as : List α) :
    SameWindows e (as.foldl f e) := by
  induction as generalizing e with
  | nil => exact refl
  | cons a as ih => exact (hf e a).trans ih

end SameWindows

theorem sameWindows_applySize (changes : List LayoutChange) (e : Engine) (c : LayoutChange) :
    SameWindows e (applySize changes e c) := by
  unfold applySize
  dsimp only
  repeat' split
  all_goals exact ⟨rfl, rfl, rfl, rfl⟩

theorem sameWindows_finishLayout (changes : List LayoutChange) :
    SameWindows e (e.finishLayout changes) := by
  have hvalidated : ∀ panes : List String, SameWindows e (panes.foldl validatePane e) :=
    .foldl fun _ _ ↦ ⟨rfl, rfl, rfl, rfl⟩
  have hpainted : ∀ (frames : List UInt32) (e : Engine),
      SameWindows e (frames.foldl repaintFrame e) :=
    fun frames _ ↦ .foldl (f := repaintFrame) (fun _ _ ↦ ⟨rfl, rfl, rfl, rfl⟩) frames
  have heditor : ∀ e : Engine, SameWindows e e.activateEditor := fun _ ↦ ⟨rfl, rfl, rfl, rfl⟩
  exact (hvalidated _).trans ((heditor _).trans ((hpainted _ _).trans ⟨rfl, rfl, rfl, rfl⟩))

/-- What follows the changes of single windows: nothing if none were planned; otherwise the host
gets the sizes, and panes and frames are brought up to date. -/
def Concludes (changes : List LayoutChange) (e e' : Engine) : Prop :=
  changes = [] ∧ e' = e ∨
    changes ≠ [] ∧ ∃ applied : List LayoutChange,
      e' = (applied.foldl (applySize applied) e).finishLayout applied

theorem Concludes.sameWindows {changes : List LayoutChange} (h : Concludes changes e e') :
    SameWindows e e' := by
  rcases h with ⟨-, rfl⟩ | ⟨-, applied, rfl⟩
  · exact .refl
  · exact (SameWindows.foldl (sameWindows_applySize applied) applied).trans
      (sameWindows_finishLayout applied)

theorem entryIs_available_foretold (changes : List LayoutChange) :
    (e.foretold changes).entryIs key Entry.available = e.entryIs key Entry.available := by
  rw [entryIs, get?_foretold, entryIs, Option.any_map]

theorem orderConflict?_of_violations (hl : l.violations = []) : orderConflict? l = none := by
  rw [orderConflict?, hl]
  rfl

/-- A layout in which no order is given twice is not refused. It is in place, completed, before its
changes are applied one after another, those of unavailable windows left out; `R` holds of each
change and what it came back as. -/
theorem ensures_setLayout_applied {I : List LayoutChange → Engine → Prop}
    {R : LayoutChange → LayoutChange → Prop} (hnone : orderConflict? l = none)
    (hstep : ∀ c rest e, I (c :: rest) e →
      Ensures (applyChange c) e fun c' e' ↦ R c c' ∧ I rest e')
    (h : I (e.liveChanges l) ((e.replaceLayout (e.completed l)).foretold (e.planned l))) :
    Ensures (setLayout l).run e fun res e' ↦ res = .ok () ∧ ∃ e₁ applied, I [] e₁ ∧
      List.Forall₂ R (e.liveChanges l) applied ∧
        (e.planned l = [] ∧ e' = e₁ ∨ e.planned l ≠ [] ∧
          e' = (applied.foldl (applySize applied) e₁).finishLayout applied) := by
  have hplan : e.planLayout l = (e.completed l, e.planned l) := rfl
  unfold setLayout
  rw [hnone]
  simp only [ensures_run_get_bind, hplan, ensures_run_modify_bind]
  rw [ensures_run_ite]
  refine ⟨fun hsome ↦ ?_, fun hempty ↦ ?_⟩
  · have hne : e.planned l ≠ [] := by simpa using hsome
    have hlive : ((e.planned l).filter fun c ↦ ((e.replaceLayout (e.completed l)).foretold
        (e.planned l)).entryIs c.key Entry.available) = e.liveChanges l :=
      List.filter_congr fun c _ ↦ entryIs_available_foretold (e.planned l)
    refine ensures_run_lift.2 ?_
    simp only [applyChanges, ensures_bind, ensures_modify, ensures_get]
    change Ensures (List.mapM applyChange (List.filter (fun c ↦
      ((e.replaceLayout (e.completed l)).foretold (e.planned l)).entryIs c.key Entry.available)
        (e.planned l))) _ _
    rw [hlive]
    exact (ensures_mapM_related hstep h).mono fun applied e₁ ⟨hrelated, h₁⟩ ↦
      ⟨trivial, e₁, applied, h₁, hrelated, Or.inr ⟨hne, rfl⟩⟩
  · have hnil : e.planned l = [] := by simpa using hempty
    have hlive : e.liveChanges l = [] := by rw [liveChanges, hnil, List.filter_nil]
    rw [hlive] at h ⊢
    rw [hnil] at h ⊢
    exact ensures_run_pure.2 ⟨rfl, _, [], h, .nil, Or.inl ⟨rfl, rfl⟩⟩

theorem ensures_setLayout_planned {I : List LayoutChange → Engine → Prop}
    (hnone : orderConflict? l = none)
    (hstep : ∀ c rest e, I (c :: rest) e → Ensures (applyChange c) e fun _ e' ↦ I rest e')
    (h : I (e.liveChanges l) ((e.replaceLayout (e.completed l)).foretold (e.planned l))) :
    Ensures (setLayout l).run e fun res e' ↦
      res = .ok () ∧ ∃ e₁, I [] e₁ ∧ Concludes (e.planned l) e₁ e' := by
  refine (ensures_setLayout_applied (R := fun _ _ ↦ True) hnone (fun c rest e hI ↦
    (hstep c rest e hI).mono fun _ _ h' ↦ ⟨trivial, h'⟩) h).mono ?_
  intro res e' hq
  rcases hq with ⟨hres, e₁, applied, h₁, -, hlast⟩
  exact ⟨hres, e₁, h₁, hlast.imp_right fun ⟨hne, he'⟩ ↦ ⟨hne, applied, he'⟩⟩

theorem ensures_setLayout {I : List LayoutChange → Engine → Prop} (hcovers : Covers l e)
    (hl : l.violations = [])
    (hstep : ∀ c rest e, I (c :: rest) e → Ensures (applyChange c) e fun _ e' ↦ I rest e')
    (h : I (e.changesTo l) ((e.replaceLayout l).foretold (e.changesTo l))) :
    Ensures (setLayout l).run e fun res e' ↦
      res = .ok () ∧ ∃ e₁, I [] e₁ ∧ SameWindows e₁ e' := by
  refine (ensures_setLayout_planned (orderConflict?_of_violations hl) hstep ?_).mono
    fun _ _ ⟨hres, e₁, h₁, hlast⟩ ↦ ⟨hres, e₁, h₁, hlast.sameWindows⟩
  rw [hcovers.planned, hcovers.completed, hcovers.liveChanges]
  exact h

end Engine

end ToolDock

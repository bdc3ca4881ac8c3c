import ToolDock.Proofs.Completing
import ToolDock.Proofs.Recording
import ToolDock.Proofs.Requests

/-!
Applying the layout in place once more. Where it knows every registered window nothing is planned,
and all that happens is that readers see it; a window that it lacks is added, and the listeners are
told. Main statement: `setLayout_layout`.
-/

namespace ToolDock

theorem WindowInfo.agrees_self {info : WindowInfo} (hw : info.weight.isNaN = false)
    (hs : info.sideWeight.isNaN = false) : info.agrees info := by
  simp [agrees, Weight.equals_self, hw, hs]

namespace Engine

variable {e e' : Engine} {l : Layout} {key : SlotKey} {x : Entry}

/-- No weight in a layout is a not-a-number. -/
def HasNumbers (l : Layout) : Prop :=
  ∀ info ∈ l.windows, info.weight.isNaN = false ∧ info.sideWeight.isNaN = false

theorem HasNumbers.agrees_self {info : WindowInfo} {id : String} (hnumbers : HasNumbers l)
    (hinfo : l.get? id = some info) : info.agrees info := by
  obtain ⟨hw, hs⟩ := hnumbers info (Layout.mem_of_get? hinfo)
  exact WindowInfo.agrees_self hw hs

theorem planLayout_layout (hnumbers : HasNumbers e.layout) (hknows : Knows e.layout e) :
    e.planLayout e.layout = (e.layout, []) := by
  have hsame : ∀ key x new, e.entries.get? key = some x → e.layout.get? x.id = some new →
      (e.oldInfo x).agrees new := by
    intro key x new _ hnew
    rw [oldInfo, hnew, Option.getD_some]
    exact hnumbers.agrees_self hnew
  rw [planLayout_of_knows hknows fun key x new hx hnew ↦ Or.inr (hsame key x new hx hnew)]
  have hnone : e.changesTo e.layout = [] := by
    refine List.eq_nil_iff_forall_not_mem.2 fun c hc ↦ ?_
    obtain ⟨x, hx, hnew, hold, hne⟩ := mem_changesTo.1 hc
    rw [hold, hsame _ x _ hx hnew] at hne
    cases hne
  rw [hnone]

theorem run_setLayout_of_planned (hnone : orderConflict? l = none) (hplanned : e.planned l = []) :
    (setLayout l).run e = .ok (.ok ()) (e.replaceLayout (e.completed l)) := by
  have hplan : e.planLayout l = (e.completed l, e.planned l) := rfl
  have hrun : (setLayout l).run e = ((if !(e.planned l).isEmpty then
      liftM (applyChanges (e.planned l)) else pure () : Operation Unit)).run
        (e.replaceLayout (e.completed l)) := by
    unfold setLayout
    rw [hnone]
    rfl
  rw [hrun, hplanned]
  rfl

/-- A layout without an order given twice may be applied again while it is in place. If it knows
every registered window, nothing happens but that readers see it. Where placements in entries are
about their windows, the engine stays exactly as it was just if the layout knows every window and
readers saw it before. -/
theorem setLayout_layout (horders : ∀ i j, ¬ e.layout.SharesOrder i j)
    (hnumbers : HasNumbers e.layout) :
    (Knows e.layout e → (setLayout e.layout).run e = .ok (.ok ()) { e with snapshot := e.layout }) ∧
      ((∀ key x, e.entries.get? key = some x → x.info.id = x.id) →
        ((setLayout e.layout).run e = .ok (.ok ()) e ↔
          Knows e.layout e ∧ e.snapshot = e.layout)) := by
  have hnone := Layout.orderConflict?_eq_none_iff.2 horders
  have hknown : Knows e.layout e →
      (setLayout e.layout).run e = .ok (.ok ()) { e with snapshot := e.layout } := by
    intro hknows
    have hplan := planLayout_layout hnumbers hknows
    rw [run_setLayout_of_planned hnone (congrArg Prod.snd hplan), completed, hplan]
    rfl
  refine ⟨hknown, fun hid ↦ ⟨fun hrun ↦ ?_, fun ⟨hknows, hsnapshot⟩ ↦ ?_⟩⟩
  · by_cases hplanned : e.planned e.layout = []
    · rw [run_setLayout_of_planned hnone hplanned] at hrun
      have hsame : e.replaceLayout (e.completed e.layout) = e := (EStateM.Result.ok.inj hrun).2
      have hlayout : e.completed e.layout = e.layout := congrArg Engine.layout hsame
      refine ⟨fun key x hx ↦ ?_, ?_⟩
      · rw [← hlayout]
        exact contains_completed (fun {key x} hx ↦ id_oldInfo (hid key x hx)) hx
      · exact (congrArg Engine.snapshot hsame).symm.trans hlayout
    · exact absurd ((records_setLayout hnone hrun).2 hplanned) (Nat.lt_irrefl _)
  · have hsame : { e with snapshot := e.layout } = e := by
      cases e
      cases hsnapshot
      rfl
    rw [hknown hknows, hsame]

/-- The layout with one visible window that is shown to readers. -/
theorem setLayout_layout_visibleRequest :
    ∃ e, (Request.register (visibleRequest true)).run.run blank = .ok (.ok ()) e ∧
      (setLayout e.layout).run e = .ok (.ok ()) e := by
  obtain ⟨e, hrun, hnone, hnumbers, hid, hknows, hsnapshot⟩ : ∃ e,
      (Request.register (visibleRequest true)).run.run blank = .ok (.ok ()) e ∧
      orderConflict? e.layout = none ∧
      (∀ info ∈ e.layout.windows, info.weight.isNaN = false ∧ info.sideWeight.isNaN = false) ∧
      (∀ row ∈ e.entries.toList, row.2.info.id = row.2.id) ∧
      (∀ row ∈ e.entries.toList, e.layout.contains row.2.id) ∧ e.snapshot = e.layout :=
    ⟨_, rfl, by decide +kernel, by decide +kernel, by decide +kernel, by decide +kernel, rfl⟩
  refine ⟨e, hrun, ?_⟩
  refine ((setLayout_layout (Layout.orderConflict?_eq_none_iff.1 hnone) hnumbers).2
    fun key x hx ↦ hid _ (SlotTable.mem_toList.2 hx)).2 ⟨fun key x hx ↦ ?_, hsnapshot⟩
  exact hknows _ (SlotTable.mem_toList.2 hx)

def unavailableRequest : RegisterRequest where
  id := "A"
  anchor := .left
  split := false
  available := false
  hasContent := true
  placement := none

/-- The layout does not know such a window. Once it is applied again it does, and the host and the
listeners have heard of it. A request to show the window only makes the layout know it, which
readers see when the layout is applied again. -/
theorem not_fixed_unavailableRequest : ∃ e e' e₁ e₁', Session Request.Fits blank e ∧
    (∀ i j, ¬ e.layout.SharesOrder i j) ∧ HasNumbers e.layout ∧
      (setLayout e.layout).run e = .ok (.ok ()) e' ∧ e'.host.ops ≠ e.host.ops ∧
      e'.events ≠ e.events ∧ e'.layout ≠ e.layout ∧ e'.snapshot ≠ e.snapshot ∧
    Session Request.Fits blank e₁ ∧ (∀ i j, ¬ e₁.layout.SharesOrder i j) ∧ HasNumbers e₁.layout ∧
      Knows e₁.layout e₁ ∧ (setLayout e₁.layout).run e₁ = .ok (.ok ()) e₁' ∧
      e₁'.snapshot ≠ e₁.snapshot := by
  obtain ⟨e, e', hregister, hknown, hnone, hnumbers, hrun, hops, hevents, hlayout, hsnapshot⟩ :
      ∃ e e', (Request.register unavailableRequest).run.run blank = .ok (.ok ()) e ∧
        known? unavailableRequest blank.layout = none ∧ orderConflict? e.layout = none ∧
        (∀ info ∈ e.layout.windows, info.weight.isNaN = false ∧ info.sideWeight.isNaN = false) ∧
        (setLayout e.layout).run e = .ok (.ok ()) e' ∧ e'.host.ops ≠ e.host.ops ∧
        e'.events ≠ e.events ∧ e'.layout ≠ e.layout ∧ e'.snapshot ≠ e.snapshot :=
    ⟨_, _, rfl, rfl, by decide +kernel, by decide +kernel, rfl, by decide +kernel,
      by decide +kernel, by decide +kernel, by decide +kernel⟩
  obtain ⟨e₀, e₁, e₁', hregister₁, hreveal, hnone₁, hnumbers₁, hknows, hrun₁, hsnapshot₁⟩ :
      ∃ e₀ e₁ e₁', (Request.register unavailableRequest).run.run blank = .ok (.ok ()) e₀ ∧
        (Request.reveal "A").run.run e₀ = .ok (.ok ()) e₁ ∧ orderConflict? e₁.layout = none ∧
        (∀ info ∈ e₁.layout.windows, info.weight.isNaN = false ∧ info.sideWeight.isNaN = false) ∧
        (∀ row ∈ e₁.entries.toList, e₁.layout.contains row.2.id) ∧
        (setLayout e₁.layout).run e₁ = .ok (.ok ()) e₁' ∧ e₁'.snapshot ≠ e₁.snapshot :=
    ⟨_, _, _, rfl, rfl, by decide +kernel, by decide +kernel, by decide +kernel, rfl,
      by decide +kernel⟩
  have hfits : (Request.register unavailableRequest).Fits blank :=
    ⟨fun _ h ↦ (nomatch hknown.symm.trans h), fun _ h ↦ (nomatch hknown.symm.trans h)⟩
  refine ⟨e, e', e₁, e₁', .step .start hfits hregister, Layout.orderConflict?_eq_none_iff.1 hnone,
    hnumbers, hrun, hops, hevents, hlayout, hsnapshot, ?_⟩
  refine ⟨.step (.step .start hfits hregister₁) ?_ hreveal,
    Layout.orderConflict?_eq_none_iff.1 hnone₁, hnumbers₁, fun _ _ hx ↦ ?_, hrun₁, hsnapshot₁⟩
  · trivial
  · exact hknows _ (SlotTable.mem_toList.2 hx)

end Engine

end ToolDock

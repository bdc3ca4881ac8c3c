import ToolDock.Proofs.Recalling

/-!
What the side stacks hold after any calls in any order, as long as no layout takes the place of
another while there are windows; a new layout shows windows without regard to the stacks. Main
statement: `Course.sideStack_orderly`.
-/

namespace ToolDock.Engine

variable {e e' : Engine} {l : Layout} {id : String} {call : Call}

/-- Whether a call may put a layout in the place of another while there are windows. -/
def Call.replaces : Call → Bool
  | setLayout _ | load _ | applyScheduled => true
  | _ => false

theorem Recalls.closeProject (h : e.Recalls) : e.closeProject.Recalls := by
  refine (h.foldl (f := removeExternalDecorators) (p := fun _ ↦ True) (fun h hx _ ↦ ?_)
    nodup_keysWhere fun k hk ↦ ?_).1.recalls
  · have hex := exchanged_removeExternalDecorators (D := False) hx False.elim
    exact ⟨h.same hx hex rfl rfl rfl, fun _ ↦ hex.get?_other⟩
  · obtain ⟨y, hy, -⟩ := mem_keysWhere.1 hk
    exact ⟨y, hy, trivial⟩

theorem Recalls.overlay (h : e.Recalls) (change : Option OverlayChange) (chord : KeyChord) :
    (({ e with keyChord := chord } : Engine).overlay change).Recalls := by
  refine (h.refl.rest (rests_chord change chord) ?_).recalls
  unfold Engine.overlay
  split <;> rfl

theorem Recalls.setInitialLayout (h : e.Recalls) :
    Ensures (setInitialLayout l).run e fun _ e' ↦ e'.Recalls := by
  simp only [Engine.setInitialLayout, ensures_run_get_bind, ensures_run_ite, ensures_run_modify]
  refine ⟨fun hsize ↦ ⟨h.named, h.unique, h.orderly, fun w hw ↦ ?_, h.disabled⟩,
    fun _ ↦ ensures_run_throw.2 h⟩
  obtain ⟨k, y, placed, hl, -⟩ := h.off w hw
  have hsize : e.entries.size = 0 := by simpa using hsize
  have hnil : e.entries.toList = [] := List.eq_nil_of_length_eq_zero hsize
  have hrow := SlotTable.mem_toList.2 hl.entry
  rw [hnil] at hrow
  cases hrow

theorem Recalls.run (h : e.Recalls) (hown : call.BringsOwn) (hkeeps : call.replaces = false) :
    Ensures call.run.run e fun _ e' ↦ e'.Recalls := by
  have same : ∀ {e' : Engine}, Rests e e' → e'.sideStack = e.sideStack → e'.Recalls :=
    fun hr hside ↦ (h.refl.rest hr hside).recalls
  cases call with
  | request request => exact h.run_request hown
  | setLayout | load | applyScheduled => cases hkeeps
  | setInitialLayout l => exact h.setInitialLayout
  | closeProject => exact ensures_run_modify.2 h.closeProject
  | dispatchKey event now => exact ensures_run_modify.2 (h.overlay _ _)
  | tick now => exact ensures_run_modify.2 (h.overlay _ _)
  | editorFocused => exact ensures_run_modify.2 (same Idles.editorFocused.rests rfl)
  | clearSideStack =>
    refine ensures_run_modify.2 (h.restack fun a ↦ ?_).recalls
    rw [SideStack.get_empty]
    exact List.nil_sublist _
  | setDefaultLayout | restoreLater | schedule | advance | takeEvents =>
    exact ensures_run_modify.2 (same
      ⟨rfl, rfl, rfl, .refl, fun _ h ↦ h, fun _ h ↦ h, fun _ _ h ↦ h⟩ rfl)
  | takeOps =>
    exact ensures_run_modify.2 (same
      ⟨rfl, rfl, rfl, .of_objects rfl, fun _ h ↦ h, fun _ h ↦ h, fun _ _ h ↦ h⟩ rfl)
  | setFocused | setApplicationActive =>
    exact ensures_run_modify.2 (same (rests_onHost (.of_objects rfl)) rfl)
  | moveExternal id bounds =>
    exact ensures_run_modify.2 (same (rests_onHost Host.keepsButtons_moveExternal) rfl)
  | maximizeExternal id maximized =>
    exact ensures_run_modify.2 (same (rests_onHost Host.keepsButtons_maximizeExternal) rfl)

theorem Steps.settings {may : Layout → Layout → Prop} (h : Steps may e e') :
    e'.settings = e.settings := by
  induction h with
  | refl => rfl
  | tail _ hs ih => exact hs.settings.trans ih

theorem Turn.settings (h : Turn e call e') (hd : Drafted e) : e'.settings = e.settings := by
  cases h with
  | steps h => exact h.settings
  | @register r info button l _ _ _ hsteps =>
    obtain ⟨entries, heq⟩ := admitted_eq { e with layout := l } r info button
    rw [hsteps.settings, heq]
  | unregister hkey =>
    obtain ⟨x, hx, hname⟩ := get?_of_keyOf? hkey
    rw [unregister_eq hkey]
    exact (steps_stripped Layout.permissive_true.toStable hd hx hname).settings
  | replace hrests h => exact h.settings.trans hrests.settings

theorem recalls_of_empty (hnone : e.entries = .empty) (hside : e.sideStack = .empty) :
    e.Recalls := by
  have hno : ∀ {key x}, e.entries.get? key ≠ some x := by
    intro key x hx
    rw [hnone] at hx
    cases hx
  have hnil : e.sideStack.evicted = [] := SideStack.evicted_eq_nil_iff.2 hside
  refine ⟨fun hx ↦ absurd hx hno, fun hx ↦ absurd hx hno, ⟨?_, ?_, ?_⟩, ?_, fun _ ↦ hnil⟩
  · rw [hside]
    decide
  all_goals simp [hnil]

theorem Recalls.entry?_of_isOff (h : e.Recalls) (hoff : e.IsOff id) :
    ∃ x, e.entry? id = some x ∧ x.info.visible = false := by
  obtain ⟨k, x, _, hl, rfl, hv, -⟩ := hoff
  refine ⟨x, ?_, hv⟩
  unfold Engine.entry?
  cases hkey : e.keyOf? x.id with
  | none => exact absurd (h.named hl.entry).1.symm (name_ne_of_keyOf?_eq_none hkey hl.entry)
  | some k' =>
    obtain ⟨y, hy, hname⟩ := get?_of_keyOf? hkey
    cases h.unique hy hl.entry (hname.trans (h.named hl.entry).1)
    exact hl.entry

namespace Course

variable {allowed : Engine → Call → Prop} {e₀ : Engine} {host : Host} {settings : Settings}
  {keyChord : KeyChord}

theorem settings_eq (hc : Course allowed e₀ e) (hd : Drafted e₀) : e.settings = e₀.settings :=
  hc.invariant (I := (·.settings = e₀.settings)) hd rfl fun hd _ hturn heq ↦
    (hturn.settings hd).trans heq

theorem recalls (hc : Course (fun _ call ↦ call.BringsOwn ∧ call.replaces = false) e₀ e)
    (h : e₀.Recalls) : e.Recalls := by
  induction hc with
  | refl => exact h
  | tail _ hstep ih =>
    obtain ⟨call, result, ⟨hown, hkeeps⟩, hrun⟩ := hstep
    exact ih.run hown hkeeps hrun

/-- Whatever is asked for, as long as no layout replaces another while there are windows, no window
has two evicted placements. Each is that of a docked window that does not hide by itself, in the
stack of its own anchor, and its window is registered and hidden. There are none if evicted windows
are not to be remembered. -/
theorem sideStack_orderly (hc : Course (fun _ call ↦ call.BringsOwn ∧ call.replaces = false)
    (.new host settings keyChord) e) : e.sideStack.Orderly ∧
    (∀ w ∈ e.sideStack.evicted, e.isRegistered w.id = true ∧ e.isVisible w.id = false ∧
      ∃ info, e.layout.get? w.id = some info ∧ info.visible = false) ∧
    (settings.stackEnabled = false → e.sideStack = .empty) := by
  have h := hc.recalls (recalls_of_empty rfl rfl)
  refine ⟨h.orderly, fun w hw ↦ ?_, fun hoff ↦ ?_⟩
  · have hisoff := h.off w hw
    obtain ⟨x, hx, hv⟩ := h.entry?_of_isOff hisoff
    have hkey : (e.keyOf? w.id).isSome = true := by
      cases hkey : e.keyOf? w.id with
      | none => simp [Engine.entry?, hkey] at hx
      | some k => rfl
    refine ⟨hkey, by simp [isVisible, windowInfo?, hx, hv], ?_⟩
    obtain ⟨k, y, info, hl, hid, -, hoff⟩ := hisoff
    exact ⟨info, hid ▸ hl.placement, hoff⟩
  · have hset := hc.settings_eq (drafted_of_empty rfl)
    exact SideStack.evicted_eq_nil_iff.1 (h.disabled (by rw [hset]; exact hoff))

/-- A docked window is evicted by another one that is shown in its slot, and remembered while it is
hidden. -/
theorem sideStack_orderly_evicted : ∃ e,
    Course (fun _ call ↦ call.BringsOwn ∧ call.replaces = false)
      (.new (.new .default) .default defaultKeyChord) e ∧
    e.sideStack.evicted.map WindowInfo.id = ["A"] ∧ e.sideStack.Orderly ∧
    (∀ w ∈ e.sideStack.evicted, e.isRegistered w.id = true ∧ e.isVisible w.id = false ∧
      ∃ info, e.layout.get? w.id = some info ∧ info.visible = false) ∧
    (Settings.default.stackEnabled = false → e.sideStack = .empty) := by
  have hleads : blank.leadsTo (register (hiddenRequest "A")) fun e ↦
      e.leadsTo (register (hiddenRequest "B")) fun e ↦
        e.leadsTo (reveal "A") fun e ↦
          e.leadsTo (reveal "B") fun e ↦ e.sideStack.evicted.map WindowInfo.id == ["A"] := by
    decide +kernel
  obtain ⟨e₁, hA, hleads⟩ := exists_run_of_leadsTo hleads
  obtain ⟨e₂, hB, hleads⟩ := exists_run_of_leadsTo hleads
  obtain ⟨e₃, hshowA, hleads⟩ := exists_run_of_leadsTo hleads
  obtain ⟨e₄, hshowB, hids⟩ := exists_run_of_leadsTo hleads
  have hown : ∀ id, (Call.request (.register (hiddenRequest id))).BringsOwn := by rintro _ _ ⟨⟩
  have hc : Course (fun _ call ↦ call.BringsOwn ∧ call.replaces = false)
      (.new (.new .default) .default defaultKeyChord) e₄ :=
    (((Relation.ReflTransGen.refl.tail ⟨.request (.register (hiddenRequest "A")), _,
      ⟨hown "A", rfl⟩, hA⟩).tail ⟨.request (.register (hiddenRequest "B")), _,
      ⟨hown "B", rfl⟩, hB⟩).tail ⟨.request (.reveal "A"), _, ⟨trivial, rfl⟩, hshowA⟩).tail
      ⟨.request (.reveal "B"), _, ⟨trivial, rfl⟩, hshowB⟩
  exact ⟨e₄, hc, beq_iff_eq.1 hids, sideStack_orderly hc⟩

end Course

end ToolDock.Engine

import ToolDock.Proofs.Installing
import ToolDock.Proofs.Steadiness

/-!
A new layout reaches the host in batches: what is done to decorators and stripe buttons, for all
windows that change; then sizes; then each pane that changes touch is validated, once, the editor
gets the focus, and each frame of those panes is repainted, once. Main statement:
`batched_setLayout`.
-/

namespace ToolDock

namespace HostOp

def strips (named : String → Bool) : HostOp → Bool
  | detach id _ _ => named id
  | op => op.adorns

theorem strips_of_adorns {named : String → Bool} {op : HostOp} (h : op.adorns) :
    op.strips named := by
  cases op <;> first | exact h | cases h

end HostOp

theorem nodup_eraseDups {α : Type} [BEq α] [LawfulBEq α] (xs : List α) : xs.eraseDups.Nodup := by
  induction hn : xs.length using Nat.strong_induction_on generalizing xs with
  | _ n ih =>
    cases xs with
    | nil => exact List.nodup_nil
    | cons x xs =>
      have hshorter : (xs.filter fun y ↦ !y == x).length < n := by
        have := List.length_filter_le (fun y ↦ !y == x) xs
        simp only [List.length_cons] at hn
        omega
      rw [List.eraseDups_cons, List.nodup_cons]
      exact ⟨by simp, ih _ hshorter _ rfl⟩

namespace Engine

variable {e e' e'' : Engine} {key : SlotKey} {info : WindowInfo} {dirty : Bool} {l : Layout}
  {c c' : LayoutChange} {named : String → Bool} {changes live applied : List LayoutChange}

def KnownAs (named : String → Bool) (key : SlotKey) (e : Engine) : Prop :=
  ∀ x d, e.entries.get? key = some x → x.decorator = some d → named (e.host.decoratorId d)

theorem records_removeInternalDecorator_strips (hnamed : KnownAs named key e) :
    Records (HostOp.strips named) e (e.removeInternalDecorator key dirty) := by
  unfold removeInternalDecorator
  split
  case h_1 => exact .refl
  case h_2 x hx =>
    dsimp only
    split
    case h_1 d p hd _ =>
      exact ⟨Host.records_record (hnamed x d hx hd), List.prefix_refl _⟩
    case h_2 => exact .of_eq rfl rfl

theorem records_removeDecorators_strips (hnamed : ∀ e₁, Steady e e₁ → KnownAs named key e₁) :
    Records (HostOp.strips named) e (e.removeDecorators key info dirty).2 := by
  have hclosed : Records HostOp.adorns e
      ((e.saveExternalState key info).2.removeExternalDecorators key) :=
    records_saveExternalState.trans records_removeExternalDecorators
  refine (hclosed.mono fun _ ↦ HostOp.strips_of_adorns).trans ?_
  exact records_removeInternalDecorator_strips
    (hnamed _ (steady_saveExternalState.trans steady_removeExternalDecorators))

namespace LayoutChange

/-- What a change asks the host for, with the names under which the decorator of its window may be
known: only a window of its own leaves a decorator behind that nobody has to validate a pane
for. -/
def handles (c : LayoutChange) (named : String → Bool) (op : HostOp) : Bool :=
  op.decorates true || (c.old.isExternal && op.strips named)

end LayoutChange

theorem records_retyped_handles (hnamed : ∀ e₁, Steady e e₁ → KnownAs named c.key e₁) :
    Records (c.handles named) e (e.retyped c) := by
  unfold retyped
  split
  · cases hext : c.old.isExternal with
    | true =>
      refine (records_removeDecorators_strips hnamed).mono fun op hop ↦ ?_
      rw [LayoutChange.handles, hext, hop, Bool.true_and, Bool.or_true]
    | false =>
      have hinternal : c.old.windowType.isInternal = true := by
        rw [WindowInfo.isExternal] at hext
        simpa using hext
      rw [hinternal]
      refine records_removeDecorators.mono fun op hop ↦ ?_
      rw [LayoutChange.handles, hop, Bool.true_or]
  · exact .refl

/-- A change comes back for the same window with its old placement, and with its new one, in which
at most the state of an external window was saved. -/
structure LayoutChange.Carries (c c' : LayoutChange) : Prop where
  key : c'.key = c.key
  old : c'.old = c.old
  new : ∃ saved, c'.new = c.new.withState saved

theorem LayoutChange.Carries.pane (h : c.Carries c') : c'.new.pane = c.new.pane := by
  obtain ⟨saved, heq⟩ := h.new
  rw [heq]
  rfl

theorem withState_saveExternalState :
    ∃ saved, (e.saveExternalState key info).1 = info.withState saved := by
  cases hx : e.entries.get? key with
  | none =>
    refine ⟨info, ?_⟩
    rw [saveExternalState, hx]
    rfl
  | some x => exact ⟨_, (saveExternalState_eq info hx).1⟩

theorem carries_applyHiding : c.Carries (applyHiding c e).1 := by
  unfold applyHiding
  split
  · exact ⟨rfl, rfl, withState_saveExternalState⟩
  · exact ⟨rfl, rfl, c.new, rfl⟩

theorem ensures_applyChange_handles (hnamed : ∀ e₁, Steady e e₁ → KnownAs named c.key e₁) :
    Ensures (applyChange c) e fun c' e' ↦
      c.Carries c' ∧ Records (c.handles named) e e' ∧ Steady e e' := by
  obtain ⟨c', e₁, hhiding⟩ : ∃ c' e₁, applyHiding c e = (c', e₁) := ⟨_, _, rfl⟩
  have hcarries : c.Carries c' := by
    have := carries_applyHiding (c := c) (e := e)
    rwa [hhiding] at this
  have h₁ : Steady e e₁ := by
    have := steady_applyHiding (c := c) (e := e)
    rwa [hhiding] at this
  have hsame : c'.handles named = c.handles named := by
    funext op
    rw [LayoutChange.handles, hcarries.old, LayoutChange.handles]
  have hrecords : Ensures (applyChange c) e fun _ e' ↦ Records (c.handles named) e e' := by
    refine Records.applyChange (fun op hop ↦ ?_) hhiding ?_
    · rw [LayoutChange.handles, hop, Bool.true_or]
    · refine (h₁.then steady_applyPlace).mono fun shown e₂ h₂ ↦ ?_
      refine (h₂.then steady_leaveSlot).mono fun _ e₃ h₃ ↦ ?_
      rw [← hsame]
      exact records_retyped_handles fun e₄ h₄ ↦ hcarries.key ▸ hnamed e₄ (h₃.trans h₄)
  have hresult : Ensures (applyChange c) e fun d _ ↦ c.Carries d :=
    ensures_applyChange_stages hhiding fun _ _ _ _ _ _ _ _ _ ↦ hcarries
  exact ensures_and hresult (ensures_and hrecords steady_applyChange)

theorem steady_applySize : Steady e (applySize changes e c) := by
  have hrecord : ∀ (e : Engine) (op : HostOp), Steady e (e.onHost (·.record op)) := fun _ _ ↦
    ⟨rfl, rfl, rfl, .of_entries rfl, fun _ h ↦
      h.onHost (P := fun _ ↦ true) (Host.records_record rfl)⟩
  unfold applySize
  dsimp only
  repeat' split
  · exact .refl
  · exact hrecord _ _
  · exact hrecord _ _
  · exact (hrecord e _).trans (hrecord _ _)
  · exact .refl

def touched (e : Engine) (changes : List LayoutChange) : List String :=
  (changes.flatMap fun c ↦ [e.paneFor c.old.pane, e.paneFor c.new.pane]).eraseDups

theorem mem_touched {pane : String} : pane ∈ e.touched changes ↔
    ∃ c ∈ changes, pane = e.paneFor c.old.pane ∨ pane = e.paneFor c.new.pane := by
  rw [touched, List.mem_eraseDups, List.mem_flatMap]
  simp only [List.mem_cons, List.not_mem_nil, or_false]

theorem touched_eq (h : List.Forall₂ LayoutChange.Carries live applied)
    (hpanes : ∀ pane, e'.paneFor pane = e.paneFor pane) : e'.touched applied = e.touched live := by
  have hflat : applied.flatMap (fun c ↦ [e'.paneFor c.old.pane, e'.paneFor c.new.pane]) =
      live.flatMap fun c ↦ [e.paneFor c.old.pane, e.paneFor c.new.pane] := by
    induction h with
    | nil => rfl
    | cons hc _ ih => rw [List.flatMap_cons, List.flatMap_cons, ih, hc.old, hc.pane, hpanes, hpanes]
  rw [touched, hflat, touched]

theorem ops_foldl_record {α : Type} (f : α → HostOp) (as : List α) :
    (as.foldl (fun e a ↦ e.onHost (·.record (f a))) e).host.ops = e.host.ops ++ as.map f := by
  induction as generalizing e with
  | nil => exact (List.append_nil _).symm
  | cons a as ih =>
    rw [List.foldl_cons, ih, List.map_cons, ← List.singleton_append, ← List.append_assoc]
    rfl

theorem ops_finishLayout : (e.finishLayout changes).host.ops = e.host.ops ++
    ((e.touched changes).map .validatePane ++ [.activateEditor] ++
      (((e.touched changes).map e.host.frameOf).eraseDups).map .repaintFrame) := by
  have hvalidated : ((e.touched changes).foldl validatePane e).host.ops =
      e.host.ops ++ (e.touched changes).map .validatePane := ops_foldl_record _ _
  have hpainted : ∀ (e : Engine) (frames : List UInt32),
      (frames.foldl repaintFrame e).host.ops = e.host.ops ++ frames.map .repaintFrame :=
    fun _ frames ↦ ops_foldl_record _ frames
  change ((((e.touched changes).map e.host.frameOf).eraseDups).foldl repaintFrame
    ((e.touched changes).foldl validatePane e).activateEditor).host.ops = _
  rw [hpainted]
  change ((e.touched changes).foldl validatePane e).host.ops ++ [.activateEditor] ++ _ = _
  rw [hvalidated]
  simp only [List.append_assoc]

theorem steady_foretold : Steady e ((e.replaceLayout l).foretold changes) := by
  obtain ⟨entries, heq, hget⟩ := foretold_replaceLayout (e := e) l changes
  refine ⟨by rw [heq], by rw [heq], by rw [heq], fun k x hx ↦ ?_, fun _ h ↦ h.foretold⟩
  rw [heq]
  exact ⟨_, hget.2 ⟨x, hx, rfl⟩, rfl⟩

/-- `id` is what the host calls the window of a change: its entry has that id, unless the decorator
that it holds is another window's. -/
def Concerns (e : Engine) (c : LayoutChange) (id : String) : Prop :=
  ∃ x, e.entries.get? c.key = some x ∧ (x.IsMounted e.host → x.id = id)

/-- What the first batch may ask for: a decorator goes into a pane or out of it marked as asked for,
unless it goes because its window had a window of its own. -/
def Restructures (e : Engine) (l : Layout) : HostOp → Prop
  | .attach _ _ dirty => dirty = true
  | .detach id _ dirty =>
    dirty = true ∨ ∃ c ∈ e.liveChanges l, c.old.isExternal ∧ e.Concerns c id
  | op => op.adorns

/-- The batches of a new layout: `S` for the windows, `W` for sizes, `V` for panes, `R` for frames.
-/
structure Batched (e : Engine) (l : Layout) (S W : List HostOp) (V : List String)
    (R : List UInt32) : Prop where
  windows : ∀ op ∈ S, e.Restructures l op
  sizes : ∀ op ∈ W, op.sizes
  nodup_panes : V.Nodup
  panes : ∀ pane, pane ∈ V ↔
    ∃ c ∈ e.liveChanges l, pane = e.paneFor c.old.pane ∨ pane = e.paneFor c.new.pane
  nodup_frames : R.Nodup
  frames : ∀ frame, frame ∈ R ↔ ∃ pane ∈ V, frame = e.host.frameOf pane

theorem restructures_of_handles (hc : c ∈ e.liveChanges l)
    (hnamed : ∀ id, named id → e.Concerns c id) {op : HostOp} (hop : c.handles named op) :
    e.Restructures l op := by
  simp only [LayoutChange.handles, Bool.or_eq_true, Bool.and_eq_true] at hop
  cases op with
  | attach id slot dirty =>
    rcases hop with hop | ⟨-, hop⟩
    · change dirty = true
      simpa [HostOp.decorates] using hop
    · cases hop
  | detach id slot dirty =>
    rcases hop with hop | ⟨hext, hop⟩
    · exact Or.inl (by simpa [HostOp.decorates] using hop)
    · exact Or.inr ⟨c, hc, hext, hnamed id hop⟩
  | _ => exact hop.elim id And.right

theorem exists_get?_of_mem_liveChanges (hc : c ∈ e.liveChanges l) :
    ∃ x, e.entries.get? c.key = some x := by
  have havailable : e.entryIs c.key Entry.available := (List.mem_filter.1 hc).2
  obtain ⟨x, hx, -⟩ := (Option.any_eq_true _ _).1 havailable
  exact ⟨x, hx⟩

theorem knownAs_of_steady (hc : c ∈ e.liveChanges l) (h : Steady e e')
    (hnamed : ∀ id, e.Concerns c id → named id) : KnownAs named c.key e' := by
  intro x' d hx' hd
  obtain ⟨x, hx⟩ := exists_get?_of_mem_liveChanges hc
  refine hnamed _ ⟨x, hx, fun hmounted ↦ ?_⟩
  have hmounted' : x'.IsMounted e'.host := h.mounted c.key (fun y hy ↦ ?_) x' hx'
  · obtain ⟨y, hy, hidentity⟩ := h.identity hx
    cases hx'.symm.trans hy
    rw [Host.decoratorId_of_get? (hmounted'.decorator d hd)]
    exact (congrArg (fun i ↦ i.2.1) hidentity).symm
  · cases hx.symm.trans hy
    exact hmounted

/-- While changes are made, one after another: what was asked for so far belongs to the first batch,
of which there is none without a change. -/
structure Restructuring (e : Engine) (l : Layout) (rest : List LayoutChange) (e' : Engine) :
    Prop where
  live : ∀ c ∈ rest, c ∈ e.liveChanges l
  steady : Steady e e'
  ops : ∃ S, e'.host.ops = e.host.ops ++ S ∧
    ∀ op ∈ S, e.Restructures l op ∧ e.liveChanges l ≠ []

theorem restructuring_foretold : Restructuring e l (e.liveChanges l)
    ((e.replaceLayout (e.completed l)).foretold (e.planned l)) := by
  obtain ⟨entries, heq, -⟩ := foretold_replaceLayout (e := e) (e.completed l) (e.planned l)
  refine ⟨fun _ hc ↦ hc, steady_foretold, [], ?_, fun _ hop ↦ (nomatch hop)⟩
  rw [heq]
  exact (List.append_nil _).symm

open Classical in
theorem Restructuring.step {rest : List LayoutChange} (h : Restructuring e l (c :: rest) e') :
    Ensures (applyChange c) e' fun c' e'' ↦ c.Carries c' ∧ Restructuring e l rest e'' := by
  have hc := h.live c (List.mem_cons_self ..)
  let named : String → Bool := fun id ↦ decide (e.Concerns c id)
  have hnamed : ∀ e₁, Steady e' e₁ → KnownAs named c.key e₁ := fun e₁ h₁ ↦
    knownAs_of_steady hc (h.steady.trans h₁) fun _ ↦ decide_eq_true
  refine (ensures_applyChange_handles hnamed).mono fun c' e'' ⟨hcarries, hrecords, hsteady⟩ ↦ ?_
  refine ⟨hcarries, fun d hd ↦ h.live d (List.mem_cons_of_mem c hd), h.steady.trans hsteady, ?_⟩
  obtain ⟨S, hS, hbatch⟩ := h.ops
  obtain ⟨ops, hops, hhandles⟩ := hrecords.host.ops
  refine ⟨S ++ ops, by rw [hops, hS, List.append_assoc], fun op hop ↦ ?_⟩
  rcases List.mem_append.1 hop with hop | hop
  · exact hbatch op hop
  · exact ⟨restructures_of_handles hc (fun _ ↦ of_decide_eq_true) (hhandles op hop),
      List.ne_nil_of_mem hc⟩

/-- A new layout is applied in batches, or the host does not hear of it. Decorators go into panes
and out of them before any pane is validated, each pane and each frame comes once, and only what was
in a window of its own goes without being marked. -/
theorem batched_setLayout (hrun : (setLayout l).run e = .ok (.ok ()) e') :
    ∃ ops, e'.host.ops = e.host.ops ++ ops ∧ (ops = [] ∨ ∃ S W V R,
      ops = S ++ W ++ V.map .validatePane ++ [.activateEditor] ++ R.map .repaintFrame ∧
        e.Batched l S W V R) := by
  have hnone : orderConflict? l = none := by
    cases hconflict : orderConflict? l with
    | none => rfl
    | some error =>
      unfold setLayout at hrun
      rw [hconflict] at hrun
      cases hrun
  obtain ⟨-, e₁, applied, h₁, hcarries, ⟨hnil, rfl⟩ | ⟨-, rfl⟩⟩ :=
    ensures_setLayout_applied hnone (fun _ _ _ h ↦ h.step) restructuring_foretold hrun
  · obtain ⟨S, hS, hbatch⟩ := h₁.ops
    refine ⟨S, hS, Or.inl (List.eq_nil_iff_forall_not_mem.2 fun op hop ↦ ?_)⟩
    exact (hbatch op hop).2 (by rw [liveChanges, hnil, List.filter_nil])
  · obtain ⟨S, hS, hbatch⟩ := h₁.ops
    have hsized : Records HostOp.sizes e₁ (applied.foldl (applySize applied) e₁) :=
      .foldl (fun _ _ ↦ records_applySize) applied
    have hsteady : Steady e (applied.foldl (applySize applied) e₁) :=
      h₁.steady.trans (.foldl (fun _ _ ↦ steady_applySize) applied)
    obtain ⟨W, hW, hsizes⟩ := hsized.host.ops
    have htouched := touched_eq hcarries hsteady.paneFor_eq
    have hframes : (applied.foldl (applySize applied) e₁).host.frameOf = e.host.frameOf :=
      funext hsteady.frameOf_eq
    refine ⟨_, ?_, Or.inr ⟨S, W, e.touched (e.liveChanges l),
      ((e.touched (e.liveChanges l)).map e.host.frameOf).eraseDups, rfl, ?_⟩⟩
    · rw [ops_finishLayout, hW, hS, htouched, hframes]
      simp only [List.append_assoc]
    · refine ⟨fun op hop ↦ (hbatch op hop).1, hsizes, nodup_eraseDups _, fun pane ↦ mem_touched,
        nodup_eraseDups _, fun frame ↦ ?_⟩
      rw [List.mem_eraseDups, List.mem_map]
      constructor
      · rintro ⟨pane, hpane, rfl⟩
        exact ⟨pane, hpane, rfl⟩
      · rintro ⟨pane, hpane, rfl⟩
        exact ⟨pane, hpane, rfl⟩

def rightLayout : Layout := .ofList
  [{ WindowInfo.new "A" .right with visible := true, order := 0 }, .new "B" .left]

/-- A window that moves from the left to the right reaches the host in batches. -/
theorem batched_setLayout_rightLayout : ∃ e e' S W V R,
    (Request.register (visibleRequest true)).run.run blank = .ok (.ok ()) e ∧
      (setLayout rightLayout).run e = .ok (.ok ()) e' ∧ e'.host.ops = e.host.ops ++
        (S ++ W ++ V.map .validatePane ++ [.activateEditor] ++ R.map .repaintFrame) ∧
      e.Batched rightLayout S W V R := by
  have hleads : blank.leadsTo (register (visibleRequest true)) fun e ↦
      e.leadsTo (setLayout rightLayout) fun e' ↦ e'.host.ops ≠ e.host.ops := by
    decide +kernel
  obtain ⟨e, hregister, hleads⟩ := exists_run_of_leadsTo hleads
  obtain ⟨e', hrun, hops⟩ := exists_run_of_leadsTo hleads
  obtain ⟨ops, hissued, rfl | ⟨S, W, V, R, rfl, hbatched⟩⟩ := batched_setLayout hrun
  · exact absurd (hissued.trans (List.append_nil _)) (of_decide_eq_true hops)
  · exact ⟨e, e', S, W, V, R, hregister, hrun, hissued, hbatched⟩

end Engine

end ToolDock

import ToolDock.Proofs.Courses

/-!
Slots and the windows that nobody registered. The layout keeps the placements of windows that are
not registered yet, or not any more, and whoever is shown in a slot evicts registered windows only.
Main statement: `no_sharedSlot_iff`, by which a registered window that is shown where the layout has
such a window visible is all that can go wrong with slots.
-/

namespace ToolDock

namespace Layout

variable {l : Layout} {i j : String}

/-- No two windows are visible in one slot. -/
def SlotsExclusive (l : Layout) : Prop := ∀ i j, ¬ l.SharesSlot i j

theorem slotsExclusive_iff :
    l.SlotsExclusive ↔ ∀ slot ids, LayoutViolation.sharedSlot slot ids ∉ l.violations := by
  have hcollisions : (∀ slot ids, LayoutViolation.sharedSlot slot ids ∉ l.violations) ↔
      collisions WindowInfo.slot (l.windows.filter (·.occupiesSlot)) = [] := by
    rw [List.eq_nil_iff_forall_not_mem]
    simp [violations]
  rw [hcollisions, collisions_eq_nil_iff (l.nodup.sublist (List.filter_sublist.map _))]
  simp only [List.mem_filter]
  constructor
  · intro h a ha b hb hslot
    by_contra hne
    exact h a.id b.id ⟨hne, a, b, get?_of_mem ha.1, get?_of_mem hb.1, ha.2, hb.2, hslot⟩
  · intro h i j hshares
    obtain ⟨hne, a, b, ha, hb, hoa, hob, hslot⟩ := hshares
    refine hne ?_
    rw [← id_of_get? ha, ← id_of_get? hb]
    exact h a ⟨mem_of_get? ha, hoa⟩ b ⟨mem_of_get? hb, hob⟩ hslot

theorem slotsExclusive_of_violations (h : l.violations = []) : l.SlotsExclusive :=
  slotsExclusive_iff.2 fun _ _ ↦ by simp [h]

def core? (l : Layout) (id : String) : Option (Bool × Slot × WindowType) :=
  (l.get? id).map WindowInfo.core

theorem core?_congr {m : Layout} (h : Option.Rel WindowInfo.Reordered (l.get? i) (m.get? i)) :
    m.core? i = l.core? i := by
  unfold core?
  generalize l.get? i = a, m.get? i = b at h
  cases h with
  | none => rfl
  | some h => exact congrArg some h.core_eq

theorem SharesSlot.congr {m : Layout} (h : m.SharesSlot i j) (hi : m.core? i = l.core? i)
    (hj : m.core? j = l.core? j) : l.SharesSlot i j := by
  obtain ⟨hne, a, b, ha, hb, hoa, hob, hslot⟩ := h
  rw [core?, ha, Option.map_some, core?, eq_comm, Option.map_eq_some_iff] at hi
  rw [core?, hb, Option.map_some, core?, eq_comm, Option.map_eq_some_iff] at hj
  obtain ⟨a', ha', hcorea⟩ := hi
  obtain ⟨b', hb', hcoreb⟩ := hj
  refine ⟨hne, a', b', ha', hb', ?_, ?_, ?_⟩
  · rwa [WindowInfo.occupiesSlot_of_core hcorea]
  · rwa [WindowInfo.occupiesSlot_of_core hcoreb]
  · rwa [WindowInfo.slot_of_core hcorea, WindowInfo.slot_of_core hcoreb]

theorem SharesSlot.symm (h : l.SharesSlot i j) : l.SharesSlot j i := by
  obtain ⟨hne, a, b, ha, hb, hoa, hob, hslot⟩ := h
  exact ⟨hne.symm, b, a, hb, ha, hob, hoa, hslot.symm⟩

end Layout

namespace Engine

variable {may : Layout → Layout → Prop} {e e₀ e' : Engine} {key : SlotKey} {x : Entry}
  {info : WindowInfo} {id i j : String} {r : RegisterRequest} {request : Request}
  {result : Except EngineError Unit}

def Absent (e : Engine) (id : String) : Prop :=
  ∀ ⦃key x⦄, e.entries.get? key = some x → x.name ≠ id ∧ x.id ≠ id

theorem Absent.of_keepsNames (ha : e'.Absent id) (h : KeepsNames e e') : e.Absent id := by
  intro k x hx
  obtain ⟨x', hx', hnames⟩ := h hx
  obtain ⟨hname, hid⟩ := Prod.mk.inj hnames
  rw [← hname, ← hid]
  exact ha hx'

theorem Step.core? (h : Step may e e') (hd : Drafted e) (ha : e.Absent id) :
    e'.layout.core? id = e.layout.core? id := by
  have hwindows : e'.layout.windows = e.layout.windows →
      e'.layout.core? id = e.layout.core? id := fun h ↦ by
    rw [Layout.core?, Layout.get?, h, Layout.core?, Layout.get?]
  cases h with
  | rest h => exact hwindows h.windows
  | unlabel => exact hwindows (by rw [layout_removeStripeButton])
  | alter | label | activate | remember => rfl
  | @list key x hx =>
    cases hinfo : e.layout.get? x.id with
    | some info => rw [Located.registeredInfo_eq ⟨hx, hinfo⟩]
    | none =>
      have hid := (hd.isDraft hx hinfo).info_id
      rw [registeredInfo_eq hx hid, hinfo, Layout.core?, Layout.core?]
      dsimp only
      rw [get?_storeInfo, if_neg fun heq ↦ (ha hx).2 (heq.trans hid).symm]
  | @place key x _ _ _ hx hid _ hmoves =>
    have hne : id ≠ _ := fun heq ↦ hid.elim (fun h ↦ (ha hx).2 (heq.trans h).symm)
      fun h ↦ (ha hx).1 (heq.trans h).symm
    exact Layout.core?_congr (hmoves.others id hne)

theorem Steps.core? (h : Steps may e e') (hd : Drafted e) (ha : e'.Absent id) :
    e'.layout.core? id = e.layout.core? id := by
  induction h with
  | refl => rfl
  | tail hsteps hs ih =>
    have ha' := ha.of_keepsNames hs.keepsNames
    exact (hs.core? (hd.steps hsteps) ha').trans (ih ha')

theorem core?_stripped (hx : e.entries.get? key = some x) (i : String) :
    (e.stripped key id).layout.core? i = e.layout.core? i := by
  unfold stripped
  split
  case h_2 => rfl
  case h_1 info hinfo =>
    obtain ⟨⟨saved, hsaved⟩, hex⟩ :=
      exchanged_removeDecorators (D := False) info false hx False.elim
    have hlayout : (e.withdraw key id info).layout = e.layout.put (info.withState saved) := by
      rw [← hsaved, ← hex.layout]
      exact layout_removeStripeButton.trans layout_forgetEvicted
    rw [hlayout, Layout.core?, Layout.get?_put, Layout.core?]
    split
    case isTrue heq =>
      rw [heq, WindowInfo.id_withState, Layout.id_of_get? hinfo, hinfo]
      rfl
    case isFalse => rfl

theorem Intake.core? {l : Layout} {button : Bool} (h : Intake r e.layout info button l)
    (hno : r.placement = none) (hne : i ≠ r.id) : l.core? i = e.layout.core? i := by
  cases h with
  | brought h => cases hno.symm.trans h
  | known | draft => rfl
  | fresh =>
    unfold Layout.core?
    rw [Layout.get?_put]
    exact congrArg _ (if_neg hne)

theorem core?_register (hd : Drafted e) (hno : r.placement = none) :
    Ensures (register r).run e fun _ e' ↦
      ∀ i, e'.Absent i → e'.layout.core? i = e.layout.core? i := by
  refine ensures_register_admitted (fun _ _ _ ↦ rfl) fun _ info button l h ↦ ?_
  refine (steps_settle Layout.permissive_true.toLenient hd h).mono fun _ e' hq i ha ↦ ?_
  have hadmitted := ha.of_keepsNames hq.2.keepsNames
  have hnew := hadmitted ((get?_admitted _ r info button _).trans (if_pos rfl))
  rw [hq.2.core? (hd.admitted h) ha, layout_admitted]
  exact h.core? hno fun heq ↦ hnew.1 heq.symm

/-- Registration of an available window with content, for which the layout decides where it goes;
any other request. -/
def Request.IsPlain : Request → Prop
  | register r => r.available ∧ r.hasContent ∧ r.placement = none
  | _ => True

theorem core?_run (hd : Drafted e) (hplain : request.IsPlain)
    (hrun : request.run.run e = .ok result e') (ha : e'.Absent i) :
    e'.layout.core? i = e.layout.core? i := by
  by_cases hregister : ∃ r, request = .register r
  · obtain ⟨r, rfl⟩ := hregister
    exact core?_register hd hplain.2.2 hrun i ha
  by_cases hunregister : ∃ id, request = .unregister id
  · obtain ⟨id, rfl⟩ := hunregister
    have hok : Ensures (Request.unregister id).run.run e fun _ e' ↦
        e'.layout.core? i = e.layout.core? i := by
      refine ensures_run_modify.2 ?_
      cases hkey : e.keyOf? id with
      | none => rw [unregister_of_none hkey]
      | some key =>
        obtain ⟨x, hx, -⟩ := get?_of_keyOf? hkey
        rw [unregister_eq hkey]
        exact core?_stripped hx i
    exact hok hrun
  · have hsteps := steps_run Layout.permissive_true hd (fun _ _ _ _ _ _ ↦ trivial)
      (fun r h ↦ hregister ⟨r, h⟩) (fun id h ↦ hunregister ⟨id, h⟩) hrun
    exact hsteps.core? hd ha

theorem exists_of_isRegistered (h : e.isRegistered id = true) :
    ∃ key x, e.entries.get? key = some x ∧ x.name = id := by
  obtain ⟨key, hkey⟩ := Option.isSome_iff_exists.1 h
  exact ⟨key, get?_of_keyOf? hkey⟩

theorem absent_of_not_isRegistered (hc : Coherent e) (h : e.isRegistered id = false) :
    e.Absent id := by
  intro k x hx
  have hname := isNew_of_not_isRegistered h hx
  have hid : x.id = x.name := hc.id_eq (standing?_of_get? hx)
  exact ⟨hname, hid ▸ hname⟩

theorem exists_core (hc : Coherent e) (h : e.isRegistered id = true)
    (hinfo : e.layout.get? id = some info) : ∃ key x, e.entries.get? key = some x ∧ x.name = id ∧
      x.info.core = info.core := by
  obtain ⟨key, x, hx, rfl⟩ := exists_of_isRegistered h
  have hid : x.id = x.name := hc.id_eq (standing?_of_get? hx)
  rw [← hid] at hinfo
  exact ⟨key, x, hx, rfl, (hc.agrees (Set.notMem_empty key) (standing?_of_get? hx) hinfo).1⟩

theorem not_sharesSlot (hc : Coherent e) (hi : e.isRegistered i = true)
    (hj : e.isRegistered j = true) : ¬ e.layout.SharesSlot i j := by
  intro hshares
  obtain ⟨hne, a, b, ha, hb, hoa, hob, hslot⟩ := hshares
  obtain ⟨k, x, hx, rfl, hcorex⟩ := exists_core hc hi ha
  obtain ⟨k', y, hy, rfl, hcorey⟩ := exists_core hc hj hb
  have hkey : k = k' := by
    refine hc.exclusive (Set.notMem_empty k) (Set.notMem_empty k') (standing?_of_get? hx)
      (standing?_of_get? hy) ?_ ?_ ?_
    · exact (WindowInfo.occupiesSlot_of_core hcorex).trans hoa
    · exact (WindowInfo.occupiesSlot_of_core hcorey).trans hob
    · exact (WindowInfo.slot_of_core hcorex).trans
        (hslot.trans (WindowInfo.slot_of_core hcorey).symm)
  subst hkey
  cases hx.symm.trans hy
  exact hne rfl

theorem fits_of_isPlain (hc : Coherent e) (hl : e.layout.SlotsExclusive)
    (hplain : (Request.register r).IsPlain) (hnew : e.isRegistered r.id = false) : Fits r e := by
  obtain ⟨ha, hcontent, hno⟩ := hplain
  have hknown : ∀ {info}, known? r e.layout = some info → e.layout.get? r.id = some info := by
    intro info hinfo
    rwa [known?, hno] at hinfo
  refine ⟨fun info hinfo ↦ Layout.id_of_get? (hknown hinfo), fun info hinfo _ ↦
    ⟨hcontent, ha, Or.inr fun ho k y hy hoy hslot ↦ ?_⟩⟩
  -- whoever is visible in the slot is visible there in the layout too
  have hid : y.id = y.name := hc.id_eq (standing?_of_get? hy)
  have hstanding := standing?_of_get? hy
  obtain ⟨-, hcontains⟩ := hc.ready (Set.notMem_empty k) hstanding
    (WindowInfo.occupiesSlot_iff.1 hoy).1
  obtain ⟨b, hb⟩ := Layout.contains_iff.1 hcontains
  have hcore := (hc.agrees (Set.notMem_empty k) hstanding hb).1
  refine hl r.id y.id ⟨fun heq ↦ ?_, info, b, hknown hinfo, hb, ho, ?_, ?_⟩
  · exact isNew_of_not_isRegistered hnew hy (hid.symm.trans heq.symm)
  · exact (WindowInfo.occupiesSlot_of_core hcore).symm.trans hoy
  · exact hslot.symm.trans (WindowInfo.slot_of_core hcore)

theorem isNew_of_registered (hrun : (register r).run e = .ok (.ok ()) e') :
    e.isRegistered r.id = false := by
  have h : Ensures (register r).run e fun res _ ↦ res = .ok () → e.isRegistered r.id = false :=
    ensures_register_admitted (fun _ hok ↦ nomatch hok) fun hnew _ _ _ _ _ _ _ _ ↦ hnew
  exact h hrun rfl

theorem coherent_run_of_isPlain (hc : Coherent e) (hl : e.layout.SlotsExclusive)
    (hplain : request.IsPlain) (hrun : request.run.run e = .ok result e') : Coherent e' := by
  refine (coherent_run_iff hc hrun).2 fun hok ↦ ?_
  subst hok
  cases request with
  | register r => exact fits_of_isPlain hc hl hplain (isNew_of_registered hrun)
  | _ => trivial

/-- A registered window is visible where the layout has one visible that is not registered. -/
def IsHaunted (e : Engine) : Prop :=
  ∃ i j, e.isRegistered i = false ∧ e.isRegistered j = true ∧ e.layout.SharesSlot i j

/-- A session of plain requests in which nobody has shared a slot yet. -/
abbrev ExclusiveSession : Engine → Engine → Prop :=
  Session fun e request ↦ request.IsPlain ∧ e.layout.SlotsExclusive

theorem Session.coherent_of_exclusive (hs : ExclusiveSession e₀ e) (hc : Coherent e₀) :
    Coherent e := by
  induction hs with
  | start => exact hc
  | step _ hallowed hrun ih => exact coherent_run_of_isPlain ih hallowed.2 hallowed.1 hrun

/-- A request that makes two windows share a slot makes the engine haunted. -/
theorem slotsExclusive_run (hc : Coherent e) (hd : Drafted e) (hl : e.layout.SlotsExclusive)
    (hplain : request.IsPlain) (hrun : request.run.run e = .ok result e') :
    e'.layout.SlotsExclusive ↔ ¬ e'.IsHaunted := by
  have hc' := coherent_run_of_isPlain hc hl hplain hrun
  constructor
  · intro hl' hq
    obtain ⟨i, j, -, -, hshares⟩ := hq
    exact hl' i j hshares
  · intro hnot i j hshares
    cases hi : e'.isRegistered i with
    | true =>
      cases hj : e'.isRegistered j with
      | true => exact not_sharesSlot hc' hi hj hshares
      | false => exact hnot ⟨j, i, hj, hi, hshares.symm⟩
    | false =>
      cases hj : e'.isRegistered j with
      | true => exact hnot ⟨i, j, hi, hj, hshares⟩
      | false =>
        have hstays : ∀ {i}, e'.isRegistered i = false →
            e'.layout.core? i = e.layout.core? i := fun hi ↦
          core?_run hd hplain hrun (absent_of_not_isRegistered hc' hi)
        exact hl i j (hshares.congr (hstays hi) (hstays hj))

theorem Session.slotsExclusive_iff (hempty : e₀.entries = .empty) (hl : e₀.layout.SlotsExclusive)
    (hs : ExclusiveSession e₀ e) : e.layout.SlotsExclusive ↔ ¬ e.IsHaunted := by
  cases hs with
  | start =>
    refine iff_of_true hl fun hq ↦ ?_
    obtain ⟨i, j, -, hj, -⟩ := hq
    obtain ⟨k, x, hx, -⟩ := exists_of_isRegistered hj
    rw [hempty] at hx
    cases hx
  | step hs hallowed hrun =>
    exact slotsExclusive_run (hs.coherent_of_exclusive (coherentOn_of_empty hempty))
      (hs.drafted (drafted_of_empty hempty)) hallowed.2 hallowed.1 hrun

/-- As long as no engine of a session is haunted, nobody shares a slot. -/
theorem Session.slotsExclusive (hempty : e₀.entries = .empty) (hl : e₀.layout.SlotsExclusive)
    (hs : Session (fun e request ↦ request.IsPlain ∧ ¬ e.IsHaunted) e₀ e) (hnot : ¬ e.IsHaunted) :
    e.layout.SlotsExclusive := by
  have hexclusive : ExclusiveSession e₀ e := by
    induction hs with
    | start => exact .start
    | step _ hallowed hrun ih =>
      have h := ih hallowed.2
      exact h.step ⟨hallowed.1, (Session.slotsExclusive_iff hempty hl h).2 hallowed.2⟩ hrun
  exact (Session.slotsExclusive_iff hempty hl hexclusive).2 hnot

/-- From a layout that nothing is wrong about, plain requests lead to one with a shared slot just
when a registered window is visible where the layout has one visible that is not registered. -/
theorem no_sharedSlot_iff (hempty : e₀.entries = .empty) (hl : e₀.layout.violations = [])
    (hs : ExclusiveSession e₀ e) :
    (∀ slot ids, LayoutViolation.sharedSlot slot ids ∉ e.layout.violations) ↔ ¬ e.IsHaunted := by
  rw [← Layout.slotsExclusive_iff]
  exact hs.slotsExclusive_iff hempty (Layout.slotsExclusive_of_violations hl)

def faultlesslyLeadsTo (e : Engine) (request : Request) (p : Engine → Bool) : Bool :=
  decide (e.layout.violations = []) && e.leadsTo request.run p

theorem exists_session_of_faultlesslyLeadsTo {p : Engine → Bool} (hs : ExclusiveSession e₀ e)
    (h : e.faultlesslyLeadsTo request p) (hplain : request.IsPlain) :
    ∃ e', ExclusiveSession e₀ e' ∧ p e' := by
  rw [faultlesslyLeadsTo, Bool.and_eq_true, decide_eq_true_iff] at h
  obtain ⟨e', hrun, hp⟩ := exists_run_of_leadsTo h.2
  exact ⟨e', hs.step ⟨hplain, Layout.slotsExclusive_of_violations h.1⟩ hrun, hp⟩

/-- A window that is unregistered while it is visible, and another one that is shown in its slot. -/
theorem isHaunted_hiddenRequests : ∃ e, ExclusiveSession blank e ∧
    .sharedSlot ⟨defaultPane, .left, false⟩ ["A", "B"] ∈ e.layout.violations ∧ e.IsHaunted := by
  have hleads : blank.faultlesslyLeadsTo (.register (hiddenRequest "A"))
      (·.faultlesslyLeadsTo (.reveal "A") (·.faultlesslyLeadsTo (.unregister "A")
        (·.faultlesslyLeadsTo (.register (hiddenRequest "B")) (·.faultlesslyLeadsTo (.reveal "B")
          fun e ↦ decide (.sharedSlot ⟨defaultPane, .left, false⟩ ["A", "B"] ∈
            e.layout.violations))))) := by
    decide +kernel
  obtain ⟨e₁, hs₁, hleads⟩ := exists_session_of_faultlesslyLeadsTo .start hleads ⟨rfl, rfl, rfl⟩
  obtain ⟨e₂, hs₂, hleads⟩ := exists_session_of_faultlesslyLeadsTo hs₁ hleads trivial
  obtain ⟨e₃, hs₃, hleads⟩ := exists_session_of_faultlesslyLeadsTo hs₂ hleads trivial
  obtain ⟨e₄, hs₄, hleads⟩ := exists_session_of_faultlesslyLeadsTo hs₃ hleads ⟨rfl, rfl, rfl⟩
  obtain ⟨e, hs, hleads⟩ := exists_session_of_faultlesslyLeadsTo hs₄ hleads trivial
  have hshared := of_decide_eq_true hleads
  refine ⟨e, hs, hshared, ?_⟩
  by_contra hnot
  exact (no_sharedSlot_iff rfl rfl hs).2 hnot _ _ hshared

end Engine

end ToolDock

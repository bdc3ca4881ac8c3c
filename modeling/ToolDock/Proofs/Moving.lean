import ToolDock.Engine.Moving
import ToolDock.Proofs.Reordering
import ToolDock.Proofs.Showing

namespace ToolDock

namespace Layout

variable {l : Layout} {info : WindowInfo}

theorem put_of_get? (h : l.get? info.id = some info) : l.put info = l := by
  have hreplaced : replaced info l.windows = l.windows := by
    refine (List.map_congr_left fun w hw ↦ ?_).trans (List.map_id _)
    split
    case isTrue hid =>
      have hget := get?_of_mem hw
      rw [hid, h] at hget
      exact Option.some.inj hget
    case isFalse => rfl
  unfold put
  rw [dif_pos (contains_of_get? h)]
  simp only [hreplaced]

theorem Moves.get?_others {id other : String} {moved info' : WindowInfo} {l' : Layout}
    (h : Moves id moved l l') (hne : other ≠ id) (hinfo : l'.get? other = some info') :
    ∃ info, l.get? other = some info ∧ info.Reordered info' :=
  exists_left_of_rel (h.others other hne) hinfo

theorem Moves.contains {id other : String} {moved : WindowInfo} {l' : Layout}
    (h : Moves id moved l l') (hc : l.contains other) : l'.contains other := by
  by_cases hne : other = id
  · obtain ⟨placed, -, hself⟩ := h.self
    exact hne ▸ contains_of_get? hself
  · obtain ⟨info, hinfo⟩ := contains_iff.1 hc
    obtain ⟨info', hinfo', -⟩ := exists_right_of_rel (h.others other hne) hinfo
    exact contains_of_get? hinfo'

theorem Moves.get?_of_not_mem {id : String} {moved : WindowInfo} {l' : Layout}
    (h : Moves id moved l l') (hne : info.id ≠ id) (hinfo : l'.get? info.id = some info)
    (hnot : info ∉ reordered l l' id) : l.get? info.id = some info := by
  obtain ⟨old, hold, hre⟩ := h.get?_others hne hinfo
  have horder : old.order = info.order := by
    by_contra ho
    refine hnot (List.mem_filter.2 ⟨mem_of_get? hinfo, ?_⟩)
    simp [hne, hold, ho]
  rw [hold, hre.eq_of_order horder]

end Layout

namespace Engine

variable {κ : Type} {detail : Int32 × Bool × Bool → κ} {D : Prop} {s t : Set SlotKey}
  {e e' e'' : Engine} {key k : SlotKey} {x y : Entry} {info cur w : WindowInfo}
  {ws : List WindowInfo} {pane id : String} {anchor : Anchor} {order : Int32}

theorem applyToEntry_of_get? (h : e.layout.get? info.id = some info) :
    e.applyToEntry key info = e.commit key info := by
  rw [commit, storeInfo, Layout.put_of_get? h]

theorem Sound.relabelEntry (h : Sound detail D s s e) (hl : Located e k y info) :
    Sound detail D s s (e.relabelEntry info k) ∧
      ∃ b, Exchanged D k y { y with stripeButton := b, info := info } e.layout e
        (e.relabelEntry info k) := by
  obtain ⟨b, hb⟩ := exchanged_refreshStripeButton info hl.entry (h.isServed hl.entry)
  have hbutton := h.rebutton hl.entry hb fun _ _ ↦ Layout.contains_of_get? hl.placement
  have hstored : (e.refreshStripeButton k info).layout.get? info.id = some info := by
    rw [hb.layout, Layout.id_of_get? hl.placement]
    exact hl.placement
  have hid : info.id = y.name := h.placement_id hl
  have hcore : k ∉ s → info.core = y.info.core := fun hk ↦ (h.core_eq hl hk).symm
  refine ⟨?_, b, hb.andThen (exchanged_applyToEntry hb.get?_self hb.isServed)⟩
  rw [Engine.relabelEntry, applyToEntry_of_get? hstored]
  exact hbutton.commit_core hb.get?_self hid hcore hcore

structure Relabels (key : SlotKey) (ws : List WindowInfo) (e e' : Engine) : Prop where
  layout : e'.layout = e.layout
  desktop : e'.host.desktop = e.host.desktop
  self : e'.entries.get? key = e.entries.get? key
  others : ∀ {k y'}, k ≠ key → e'.entries.get? k = some y' → ∃ y, e.entries.get? k = some y ∧
    y'.id = y.id ∧ y'.info.core = y.info.core ∧ ((∀ w ∈ ws, w.id ≠ y.id) → y'.info = y.info) ∧
    ∀ w ∈ ws, w.id = y.id → y'.info = w

namespace Relabels

theorem nil : Relabels key [] e e where
  layout := rfl
  desktop := rfl
  self := rfl
  others _ hy := ⟨_, hy, rfl, rfl, fun _ ↦ rfl, fun _ hw ↦ (nomatch hw)⟩

theorem cons (h : Relabels key [w] e e') (h' : Relabels key ws e' e'')
    (hws : ∀ v ∈ ws, e.layout.get? v.id = some v) (hw : e.layout.get? w.id = some w) :
    Relabels key (w :: ws) e e'' where
  layout := h'.layout.trans h.layout
  desktop := h'.desktop.trans h.desktop
  self := h'.self.trans h.self
  others hk hy'' := by
    obtain ⟨y', hy', hid', hcore', hnot', hmem'⟩ := h'.others hk hy''
    obtain ⟨y, hy, hid, hcore, hnot, hmem⟩ := h.others hk hy'
    refine ⟨y, hy, hid'.trans hid, hcore'.trans hcore, fun hne ↦ ?_, fun v hv hvid ↦ ?_⟩
    · rw [hnot' fun v hv ↦ hid ▸ hne v (List.mem_cons_of_mem _ hv)]
      exact hnot fun v hv ↦ hne v (List.mem_singleton.1 hv ▸ List.mem_cons_self ..)
    · rcases List.mem_cons.1 hv with rfl | hv
      · by_cases hlater : ∃ u ∈ ws, u.id = y'.id
        · -- a later placement of the same id is the same one
          obtain ⟨u, hu, huid⟩ := hlater
          have := hws u hu
          rw [huid, hid, ← hvid, hw] at this
          rw [hmem' u hu huid, Option.some.inj this]
        · rw [hnot' fun u hu huid ↦ hlater ⟨u, hu, huid⟩]
          exact hmem v (List.mem_singleton_self v) hvid
      · exact hmem' v hv (hvid.trans hid.symm)

end Relabels

theorem Sound.relabelSibling (h : Sound detail D {key} {key} e)
    (hx : e.entries.get? key = some x) (hw : e.layout.get? w.id = some w) (hne : w.id ≠ x.id) :
    Sound detail D {key} {key} (relabelSibling e w) ∧ Relabels key [w] e (relabelSibling e w) := by
  unfold Engine.relabelSibling
  cases hk : e.keyOf? w.id with
  | none =>
    refine ⟨h, rfl, rfl, rfl, fun {k y} _ hy ↦ ⟨y, hy, rfl, rfl, fun _ ↦ rfl, fun v hv hvid ↦ ?_⟩⟩
    cases List.mem_singleton.1 hv
    exact absurd (hvid.trans (h.id_eq hy)).symm (name_ne_of_keyOf?_eq_none hk hy)
  | some k =>
    obtain ⟨y, hy, hname⟩ := get?_of_keyOf? hk
    have hyid : y.id = w.id := (h.id_eq hy).trans hname
    have hl : Located e k y w := ⟨hy, by rw [hyid]; exact hw⟩
    have hkey : k ≠ key := by
      rintro rfl
      cases hx.symm.trans hy
      exact hne hyid.symm
    obtain ⟨hsound, b, hex⟩ := h.relabelEntry hl
    refine ⟨hsound, hex.layout, hex.desktop, hex.get?_other hkey.symm, fun {k' y'} hk' hy' ↦ ?_⟩
    rw [hex.get?] at hy'
    split at hy'
    case isTrue heq =>
      subst heq
      cases hy'
      refine ⟨y, hy, rfl, (h.core_eq hl hk').symm, fun hnot ↦ ?_, fun v hv _ ↦ ?_⟩
      · exact absurd hyid.symm (hnot w (List.mem_singleton_self w))
      · exact (List.mem_singleton.1 hv).symm
    case isFalse hkk =>
      refine ⟨y', hy', rfl, rfl, fun _ ↦ rfl, fun v hv hvid ↦ absurd ?_ hkk⟩
      cases List.mem_singleton.1 hv
      exact h.coherent.key_eq hy' hy (hvid.symm.trans hyid.symm)

theorem Sound.relabelSiblings (h : Sound detail D {key} {key} e)
    (hx : e.entries.get? key = some x) (hws : ∀ w ∈ ws, e.layout.get? w.id = some w)
    (hne : ∀ w ∈ ws, w.id ≠ x.id) :
    Sound detail D {key} {key} (ws.foldl Engine.relabelSibling e) ∧
      Relabels key ws e (ws.foldl Engine.relabelSibling e) := by
  induction ws generalizing e with
  | nil => exact ⟨h, .nil⟩
  | cons w ws ih =>
    have hw := hws w (List.mem_cons_self ..)
    obtain ⟨hstep, hlabel⟩ := h.relabelSibling hx hw (hne w (List.mem_cons_self ..))
    have hrest : ∀ v ∈ ws, e.layout.get? v.id = some v :=
      fun v hv ↦ hws v (List.mem_cons_of_mem _ hv)
    obtain ⟨hsound, hlabels⟩ := ih hstep (hlabel.self.trans hx) (hlabel.layout ▸ hrest)
      fun v hv ↦ hne v (List.mem_cons_of_mem _ hv)
    exact ⟨hsound, hlabel.cons hlabels hrest hw⟩

theorem ensures_onLayout {α : Type} {change : EStateM Fault Layout α} {Q : α → Engine → Prop} :
    Ensures (onLayout change) e Q ↔
      ∀ a l, change e.layout = .ok a l → Q a { e with layout := l } := by
  unfold Ensures onLayout
  cases change e.layout with
  | ok a l =>
    refine ⟨fun h b m hb ↦ ?_, fun h b e' hb ↦ ?_⟩
    · cases hb
      exact h rfl
    · cases hb
      exact h a l rfl
  | error f l => exact ⟨fun _ _ _ hb ↦ (nomatch hb), fun _ _ _ hb ↦ (nomatch hb)⟩

namespace CoherentOn

theorem withDetail (h : CoherentOn (fun _ ↦ ()) s e)
    (hdetail : ∀ {k y info}, k ∉ s → Located e k y info →
      detail y.info.marks = detail info.marks) : CoherentOn detail s e where
  id_eq := h.id_eq
  info_id := h.info_id
  unique := h.unique
  agrees hk hx hinfo := by
    refine ⟨(h.agrees hk hx hinfo).1, ?_⟩
    obtain ⟨entry, hentry, rfl⟩ := standing?_eq_some.1 hx
    exact hdetail hk ⟨hentry, hinfo⟩
  ready := h.ready
  exclusive := h.exclusive

theorem move {l : Layout} (h : CoherentOn detail {key} e) (hx : e.entries.get? key = some x)
    (hm : Layout.Moves x.id cur e.layout l) :
    CoherentOn (fun _ ↦ ()) {key} { e with layout := l } where
  id_eq := h.id_eq
  info_id := h.info_id
  unique := h.unique
  agrees := by
    intro k y info hk hy hinfo
    have hne : y.id ≠ x.id := by
      intro heq
      have hx := standing?_of_get? hx
      exact hk (h.unique hy hx ((h.id_eq hy).symm.trans (heq.trans (h.id_eq hx))))
    obtain ⟨old, hold, hre⟩ := hm.get?_others hne hinfo
    exact ⟨((h.agrees hk hy hold).1).trans hre.core_eq.symm, rfl⟩
  ready hk hy hv := ⟨(h.ready hk hy hv).1, hm.contains (h.ready hk hy hv).2⟩
  exclusive := h.exclusive

end CoherentOn

structure Relocates (key : SlotKey) (x : Entry) (moved : WindowInfo) (e e' : Engine) : Prop where
  self : ∃ b placed, moved.Reordered placed ∧
    Located e' key { x with stripeButton := b, info := placed } placed
  others : ∀ {k y'}, k ≠ key → e'.entries.get? k = some y' →
    ∃ y, e.entries.get? k = some y ∧ y'.info.core = y.info.core
  desktop : e'.host.desktop = e.host.desktop

theorem Sound.relabel (h : Sound detail D {key} {key} e) (hl : Located e key x cur) :
    Ensures (Engine.relabel key pane anchor order) e fun _ e' ↦ Sound detail D {key} {key} e' ∧
      Relocates key x { cur with pane := pane, anchor := anchor } e e' := by
  simp only [Engine.relabel, ensures_bind, ensures_get]
  rw [hl.entry]
  simp only [ensures_bind, ensures_onLayout, ensures_modify]
  intro changed l hset
  obtain ⟨hm, rfl⟩ := Layout.setAnchor_cases hl.placement hset
  obtain ⟨placed, hplaced, hself⟩ := hm.self
  simp only [hself]
  -- the layout moves first, then the entry of the window, then those of its siblings
  have hmoved : Sound (fun _ ↦ ()) D {key} {key} { e with layout := l } :=
    ⟨h.coherent.move hl.entry hm, fun hd ↦ (h.decorated hd).congr rfl .refl fun _ ↦ hm.contains⟩
  obtain ⟨hown, b, hex⟩ := hmoved.relabelEntry ⟨hl.entry, hself⟩
  have hchanged : ∀ w ∈ Layout.reordered e.layout l x.id, l.get? w.id = some w ∧ w.id ≠ x.id := by
    intro w hw
    obtain ⟨hmem, hp⟩ := List.mem_filter.1 hw
    rw [Bool.and_eq_true, bne_iff_ne] at hp
    exact ⟨Layout.get?_of_mem hmem, hp.1⟩
  obtain ⟨hsound, hlabels⟩ := hown.relabelSiblings hex.get?_self
    (fun w hw ↦ hex.layout ▸ (hchanged w hw).1) fun w hw ↦ (hchanged w hw).2
  have hlayout := hlabels.layout.trans hex.layout
  refine ⟨⟨hsound.coherent.withDetail fun {k y' info} hk hy ↦ ?_, hsound.decorated⟩, ?_, ?_, ?_⟩
  · obtain ⟨y₁, hy₁, hid, -, hkeep, htake⟩ := hlabels.others hk hy.entry
    have hold : e.entries.get? k = some y₁ := (hex.get?_other hk).symm.trans hy₁
    have hinfo : l.get? info.id = some info := by
      have := hy.placement
      rwa [hlayout, ← Layout.id_of_get? this] at this
    have hinfoid : info.id = y₁.id := (Layout.id_of_get? hy.placement).trans hid
    by_cases hmem : info ∈ Layout.reordered e.layout l x.id
    · rw [htake info hmem hinfoid]
    · have hne : info.id ≠ x.id := by
        intro heq
        exact hk (h.coherent.key_eq hold hl.entry (hinfoid.symm.trans heq))
      have hsame := hm.get?_of_not_mem hne hinfo hmem
      rw [hinfoid] at hsame
      rw [hkeep fun w hw hwid ↦ ?_]
      · exact h.detail_eq ⟨hold, hsame⟩ hk
      · have := (hchanged w hw).1
        rw [hwid, ← hinfoid, hinfo] at this
        exact hmem (Option.some.inj this ▸ hw)
  · refine ⟨b, placed, hplaced, hlabels.self.trans hex.get?_self, ?_⟩
    rw [hlayout]
    exact hself
  · intro k y' hk hy'
    obtain ⟨y, hy, -, hcore, -⟩ := hlabels.others hk hy'
    exact ⟨y, (hex.get?_other hk).symm.trans hy, hcore⟩
  · exact hlabels.desktop.trans hex.desktop

end Engine

end ToolDock

import ToolDock.Engine.Decoration

namespace ToolDock

theorem Checked.bind_eq_ok_iff {α β : Type} {x : Checked α} {f : α → Checked β} {b : β} :
    x >>= f = .ok b ↔ ∃ a, x = .ok a ∧ f a = .ok b := by
  cases x with
  | ok a => exact ⟨fun h ↦ ⟨a, rfl, h⟩, fun ⟨_, rfl, h⟩ ↦ h⟩
  | error _ => exact ⟨nofun, fun ⟨_, h, _⟩ ↦ nomatch h⟩

namespace Rect

variable {r s frame b : Rect}

theorem size_of_translatedInto (h : r.translatedInto frame = .ok s) : s.size = r.size := by
  simp only [translatedInto, Checked.bind_eq_ok_iff, pure, Except.pure, Except.ok.injEq] at h
  obtain ⟨_, -, _, -, rfl⟩ := h
  rfl

theorem size_of_centeredIn (h : r.centeredIn frame = .ok s) : s.size = r.size := by
  simp only [centeredIn, Checked.bind_eq_ok_iff, pure, Except.pure, Except.ok.injEq] at h
  obtain ⟨_, -, _, -, _, -, _, -, rfl⟩ := h
  rfl

theorem centeredIn_congr (h : r.size = s.size) : r.centeredIn frame = s.centeredIn frame := by
  obtain ⟨hw, hh⟩ := Size.mk.inj h
  simp only [centeredIn, hw, hh]

end Rect

namespace Desktop

variable {d : Desktop} {stored : Option Rect} {r b b' : Rect}

def keeps (d : Desktop) (r : Rect) : Checked Bool := do
  ExternalBounds.isValid r (← ScreenSet.ofList d.screens)

/-- A window of a given size over the middle of the frame. -/
def center (d : Desktop) (size : Size) : Checked Rect :=
  (Rect.ofParts ⟨0, 0⟩ size).centeredIn d.frameBounds

def freshSize (d : Desktop) : Size :=
  if d.decoratorSize.isDegenerate then d.preferredSize else d.decoratorSize

def place (d : Desktop) (stored : Option Rect) : Checked Rect := do
  let screens ← ScreenSet.ofList d.screens
  let fit := match ← screens.nearest? d.frameBounds with
    | some screen => screen.frame
    | none => d.frameBounds
  let placed ← ExternalBounds.compute stored screens fit d.decoratorSize d.preferredSize
    d.externalOrigin
  if placed.needsCentering then placed.bounds.centeredIn d.frameBounds else return placed.bounds

/-- The ways in which a window finds its place: its bounds are kept, their size is centered, or the
size of a window without bounds is. -/
inductive Places (d : Desktop) : Option Rect → Rect → Prop
  | keep {r : Rect} (hv : d.keeps r = .ok true) : Places d (some r) r
  | center {r b : Rect} (hv : d.keeps r = .ok false) (hr : r.isEmpty = false)
    (hb : d.center r.size = .ok b) : Places d (some r) b
  | fresh {stored : Option Rect} {b : Rect}
    (hstored : ∀ r, stored = some r → d.keeps r = .ok false ∧ r.isEmpty)
    (hb : d.center d.freshSize = .ok b) : Places d stored b

theorem places_of_place (h : d.place stored = .ok b) : d.Places stored b := by
  simp only [place, Checked.bind_eq_ok_iff] at h
  obtain ⟨screens, hscreens, nearest, -, placed, hplaced, h⟩ := h
  have hkeeps : ∀ r, d.keeps r = ExternalBounds.isValid r screens := fun r ↦ by
    rw [keeps, hscreens]
    rfl
  cases stored with
  | none =>
    cases hplaced
    exact .fresh nofun ((Rect.centeredIn_congr rfl).trans h)
  | some r =>
    simp only [ExternalBounds.compute, Checked.bind_eq_ok_iff] at hplaced
    obtain ⟨valid, hvalid, hplaced⟩ := hplaced
    rw [← hkeeps] at hvalid
    cases valid with
    | true =>
      cases hplaced
      cases h
      exact .keep hvalid
    | false =>
      cases hr : r.isEmpty with
      | true =>
        simp only [hr, Bool.false_eq_true, if_false, if_true] at hplaced
        cases hplaced
        refine .fresh (fun s hs ↦ ?_) ((Rect.centeredIn_congr rfl).trans h)
        cases hs
        exact ⟨hvalid, hr⟩
      | false =>
        simp only [hr, Bool.false_eq_true, if_false, Checked.bind_eq_ok_iff] at hplaced
        obtain ⟨moved, hmoved, hplaced⟩ := hplaced
        cases hplaced
        refine .center hvalid hr ?_
        rw [center, ← h]
        exact Rect.centeredIn_congr (Rect.size_of_translatedInto hmoved).symm

theorem Places.eq_of_keeps (h : d.Places (some r) b) (hv : d.keeps r = .ok true) : b = r := by
  cases h with
  | keep => rfl
  | center hnot => cases hv.symm.trans hnot
  | fresh hstored => cases hv.symm.trans (hstored r rfl).1

theorem Places.center_of_not_keeps (h : d.Places (some r) b) (hv : d.keeps r = .ok false)
    (hr : r.isEmpty = false) : d.center r.size = .ok b := by
  cases h with
  | keep hkeeps => cases hv.symm.trans hkeeps
  | center _ _ hb => exact hb
  | fresh hstored => cases hr.symm.trans (hstored r rfl).2

theorem size_of_center {size : Size} (h : d.center size = .ok b) : b.size = size :=
  Rect.size_of_centeredIn h

theorem Places.again (h : d.Places stored b) (h' : d.Places (some b) b') : b' = b := by
  cases h' with
  | keep => rfl
  | center hv hb hcenter =>
    cases h with
    | keep hkeeps => cases hv.symm.trans hkeeps
    | center _ _ hcentered =>
      rw [size_of_center hcentered, hcentered] at hcenter
      cases hcenter
      rfl
    | fresh _ hfresh =>
      rw [size_of_center hfresh, hfresh] at hcenter
      cases hcenter
      rfl
  | fresh hstored hfresh =>
    obtain ⟨hv, hb⟩ := hstored b rfl
    cases h with
    | keep hkeeps => cases hv.symm.trans hkeeps
    | center _ hr hcentered =>
      have hsize := size_of_center hcentered
      rw [Rect.isEmpty, hsize] at hb
      cases hr.symm.trans hb
    | fresh _ hfresh' =>
      cases hfresh.symm.trans hfresh'
      rfl

end Desktop

theorem Engine.externalPlacement_eq {h : Host} {a : Handle} {info : WindowInfo}
    (ho : (h.externalBounds a).origin = h.desktop.externalOrigin) :
    externalPlacement h a info = h.desktop.place info.floatingBounds := by
  rw [externalPlacement, ho]
  rfl

end ToolDock

import Mathlib.Data.List.Basic
import ToolDock.Proofs.Replacement

/-!
Stored bounds on their way to a screen. Bounds that can be kept are kept, and others are moved on
each axis by as much as it takes, never resized. Only a 32-bit sum or difference that does not fit
can stop the computation: areas always fit, and an interval is clamped only where it is shorter than
the screen, so the range to clamp into has both its ends in order. Moved once, bounds stay where
they are, whether or not they can be kept by then. Main statements: `fits_of_fitInterval` and
`fitInterval_again` for one axis, and `compute_settles`.
-/

namespace ToolDock

def Fault.isOverflow32 : Fault → Bool
  | .addOverflow | .subOverflow => true
  | .mulOverflow | .emptyRange | .staleKey => false

namespace Checked

variable {α β : Type} {x y : Checked α} {f : α → Checked β} {P Q : α → Prop} {R : β → Prop}
  {F : Fault → Prop} {a b c : Int32}

def Ends (x : Checked α) (P : α → Prop) (F : Fault → Prop) : Prop :=
  match x with
  | .ok a => P a
  | .error fault => F fault

namespace Ends

theorem ok {a : α} (h : P a) : Ends (.ok a) P F := h

theorem of_eq {a : α} (hx : x = .ok a) (h : P a) : x.Ends P F := hx ▸ h

theorem mono (h : x.Ends P F) (hPQ : ∀ a, P a → Q a) : x.Ends Q F := by
  cases x with
  | ok a => exact hPQ a h
  | error fault => exact h

theorem bind (h : x.Ends P F) (hf : ∀ a, P a → (f a).Ends R F) : (x >>= f).Ends R F := by
  cases x with
  | ok a => exact hf a h
  | error fault => exact h

theorem ite {C : Prop} [Decidable C] (hx : C → x.Ends P F) (hy : ¬ C → y.Ends P F) :
    Ends (if C then x else y) P F := by
  split
  case isTrue h => exact hx h
  case isFalse h => exact hy h

theorem anyM {l : List α} {p : α → Checked Bool} (h : ∀ a ∈ l, (p a).Ends (fun _ ↦ True) F) :
    Ends (l.anyM p) (fun _ ↦ True) F := by
  induction l with
  | nil => exact ok trivial
  | cons a l ih =>
    refine bind (h a (List.mem_cons_self ..)) fun found _ ↦ ?_
    cases found with
    | true => exact ok trivial
    | false => exact ih fun b hb ↦ h b (List.mem_cons_of_mem _ hb)

theorem exists_ok (h : x.Ends P F) (hno : ∀ fault, x = .error fault → ¬ F fault) :
    ∃ a, x = .ok a ∧ P a := by
  cases x with
  | ok a => exact ⟨a, rfl, h⟩
  | error fault => exact absurd h (hno fault rfl)

end Ends

/-- Some 32-bit sum or difference on the way does not fit. -/
def Overflows32 (x : Checked α) : Prop := ∃ fault, x = .error fault ∧ fault.isOverflow32

abbrev OnlyOverflows (x : Checked α) : Prop := x.Ends (fun _ ↦ True) (·.isOverflow32)

theorem OnlyOverflows.exists_ok (h : OnlyOverflows x) (hno : ¬ x.Overflows32) :
    ∃ a, x = .ok a := by
  obtain ⟨a, ha, -⟩ := Ends.exists_ok h fun fault hx hover ↦ hno ⟨fault, hx, hover⟩
  exact ⟨a, ha⟩

theorem ends_fit32 {fault : Fault} {n : Int}
    (h : ¬ (-2147483648 ≤ n ∧ n ≤ 2147483647) → F fault) :
    (fit32 fault n).Ends (fun c ↦ c.toInt = n) F :=
  .ite toInt_ofInt_of_mem h

theorem ends_add32 : (add32 a b).Ends (fun c ↦ c.toInt = a.toInt + b.toInt) (·.isOverflow32) :=
  ends_fit32 fun _ ↦ rfl

theorem ends_sub32 : (sub32 a b).Ends (fun c ↦ c.toInt = a.toInt - b.toInt) (·.isOverflow32) :=
  ends_fit32 fun _ ↦ rfl

theorem clamp32_of_mem (hlow : b ≤ a) (hhigh : a ≤ c) : clamp32 a b c = .ok a := by
  rw [clamp32, if_neg (Int32.not_lt.2 (Int32.le_trans hlow hhigh)), if_neg (Int32.not_lt.2 hlow),
    if_neg (Int32.not_lt.2 hhigh)]

theorem exists_clamp32 (a : Int32) (h : b ≤ c) : ∃ d, clamp32 a b c = .ok d ∧ b ≤ d ∧ d ≤ c := by
  refine ⟨_, if_neg (Int32.not_lt.2 h), ?_⟩
  split
  case isTrue => exact ⟨Int32.le_refl b, h⟩
  case isFalse hlow =>
    split
    case isTrue => exact ⟨h, Int32.le_refl c⟩
    case isFalse hhigh => exact ⟨Int32.not_lt.1 hlow, Int32.not_lt.1 hhigh⟩

end Checked

namespace Rect

open Checked

variable {r s fit : Rect} {pos len start extent p : Int32} {q : Point} {F : Fault → Prop}

theorem exists_area (r : Rect) : ∃ n, r.area = .ok n ∧ (r.isEmpty = false → 0 < n) := by
  unfold area
  split
  case isTrue h => exact ⟨0, rfl, fun hr ↦ by rw [h] at hr; cases hr⟩
  case isFalse h =>
    simp only [isEmpty, Size.isDegenerate, Bool.or_eq_true, decide_eq_true_eq, not_or,
      Int32.not_le, Int32.lt_iff_toInt_lt] at h
    obtain ⟨hw, hh⟩ := h
    have hw' := toInt_mem_range r.size.width
    have hh' := toInt_mem_range r.size.height
    have hpos : 0 < r.width.toInt * r.height.toInt := Int.mul_pos hw hh
    have hle : r.width.toInt * r.height.toInt ≤ 2147483647 * 2147483647 :=
      Int.mul_le_mul hw'.2 hh'.2 (Int.le_of_lt hh) (by decide)
    refine ⟨_, if_pos ⟨by omega, by omega⟩, fun _ ↦ hpos⟩

theorem ends_area : r.area.Ends (fun _ ↦ True) F := by
  obtain ⟨n, hn, -⟩ := r.exists_area
  exact .of_eq hn trivial

theorem ends_contains (hx : r.maxX.Ends (fun _ ↦ True) F) (hy : r.maxY.Ends (fun _ ↦ True) F) :
    (r.contains q).Ends (fun _ ↦ True) F :=
  .ite (fun _ ↦ .ok trivial) fun _ ↦ hx.bind fun _ _ ↦
    .ite (fun _ ↦ .ok trivial) fun _ ↦ hy.bind fun _ _ ↦ .ok trivial

theorem onlyOverflows_maxX : OnlyOverflows r.maxX := ends_add32.mono fun _ _ ↦ trivial

theorem onlyOverflows_maxY : OnlyOverflows r.maxY := ends_add32.mono fun _ _ ↦ trivial

theorem onlyOverflows_intersection : OnlyOverflows (r.intersection s) :=
  onlyOverflows_maxX.bind fun _ _ ↦ onlyOverflows_maxX.bind fun _ _ ↦
    onlyOverflows_maxY.bind fun _ _ ↦ onlyOverflows_maxY.bind fun _ _ ↦
      .ite (fun _ ↦ .ok trivial) fun _ ↦ ends_sub32.bind fun _ _ ↦ ends_sub32.bind fun _ _ ↦
        .ok trivial

theorem fitInterval_of_le (h : extent ≤ len) : fitInterval pos len start extent = .ok start :=
  if_pos h

theorem fitInterval_of_lt (h : len < extent) :
    fitInterval pos len start extent = (do
      let stop ← add32 start extent
      let last ← sub32 stop len
      clamp32 pos start last) :=
  if_neg (Int32.not_le.2 h)

theorem start_le_last {stop last : Int32} (h : len < extent)
    (hstop : stop.toInt = start.toInt + extent.toInt)
    (hlast : last.toInt = stop.toInt - len.toInt) : start ≤ last := by
  rw [Int32.lt_iff_toInt_lt] at h
  rw [Int32.le_iff_toInt_le]
  omega

theorem ends_fitInterval
    (hstop : (add32 start extent).Ends (fun c ↦ c.toInt = start.toInt + extent.toInt) F)
    (hlast : ∀ stop : Int32, stop.toInt = start.toInt + extent.toInt →
      (sub32 stop len).Ends (fun c ↦ c.toInt = stop.toInt - len.toInt) F) :
    (fitInterval pos len start extent).Ends (fun _ ↦ True) F := by
  by_cases h : extent ≤ len
  case pos => exact .of_eq (fitInterval_of_le h) trivial
  case neg =>
    have hlt := Int32.not_le.1 h
    rw [fitInterval_of_lt hlt]
    refine hstop.bind fun stop hstop ↦ (hlast stop hstop).bind fun last hlast ↦ ?_
    obtain ⟨p, hp, -⟩ := exists_clamp32 pos (start_le_last hlt hstop hlast)
    exact .of_eq hp trivial

theorem onlyOverflows_fitInterval : OnlyOverflows (fitInterval pos len start extent) :=
  ends_fitInterval ends_add32 fun _ _ ↦ ends_sub32

/-- `p` is where an interval at `pos` comes to lie in the one of length `extent` at `start`. -/
structure Fits (pos len start extent p : Int32) : Prop where
  /-- A short interval lies inside. -/
  inside : len < extent → start ≤ p ∧ p.toInt + len.toInt ≤ start.toInt + extent.toInt
  /-- A long one begins at the edge. -/
  pinned : extent ≤ len → p = start
  /-- One that was inside has not moved. -/
  kept : start ≤ pos → pos.toInt + len.toInt ≤ start.toInt + extent.toInt → p = pos

theorem fits_of_fitInterval (h : fitInterval pos len start extent = .ok p) :
    Fits pos len start extent p := by
  by_cases hlong : extent ≤ len
  case pos =>
    rw [fitInterval_of_le hlong] at h
    cases h
    refine ⟨fun hlt ↦ absurd hlong (Int32.not_le.2 hlt), fun _ ↦ rfl, fun hle hin ↦ ?_⟩
    rw [Int32.le_iff_toInt_le] at hlong hle
    rw [← Int32.toInt_inj]
    omega
  case neg =>
    have hlt := Int32.not_le.1 hlong
    simp only [fitInterval_of_lt hlt, bind_eq_ok_iff] at h
    obtain ⟨stop, hstop, last, hlast, h⟩ := h
    rw [add32_eq_ok_iff] at hstop
    rw [sub32_eq_ok_iff] at hlast
    obtain ⟨p', hp', hlow, hhigh⟩ :=
      exists_clamp32 pos (start_le_last hlt hstop.symm hlast.symm)
    cases h.symm.trans hp'
    refine ⟨fun _ ↦ ⟨hlow, ?_⟩, fun hle ↦ absurd hle hlong, fun hle hin ↦ ?_⟩
    · rw [Int32.le_iff_toInt_le] at hhigh
      omega
    · have hbefore : pos ≤ last := Int32.le_iff_toInt_le.2 (by omega)
      rw [clamp32_of_mem hle hbefore] at h
      cases h
      rfl

theorem fitInterval_again (h : fitInterval pos len start extent = .ok p) :
    fitInterval p len start extent = .ok p := by
  by_cases hlong : extent ≤ len
  case pos =>
    rw [fitInterval_of_le hlong] at h ⊢
    exact h
  case neg =>
    have hlt := Int32.not_le.1 hlong
    simp only [fitInterval_of_lt hlt, bind_eq_ok_iff] at h ⊢
    obtain ⟨stop, hstop, last, hlast, h⟩ := h
    obtain ⟨p', hp', hlow, hhigh⟩ := exists_clamp32 pos
      (start_le_last hlt (add32_eq_ok_iff.1 hstop).symm (sub32_eq_ok_iff.1 hlast).symm)
    cases h.symm.trans hp'
    exact ⟨stop, hstop, last, hlast, clamp32_of_mem hlow hhigh⟩

theorem ends_translatedInto
    (hx : (fitInterval r.x r.width fit.x fit.width).Ends (fun _ ↦ True) F)
    (hy : (fitInterval r.y r.height fit.y fit.height).Ends (fun _ ↦ True) F) :
    (r.translatedInto fit).Ends (fun s ↦ s.size = r.size) F :=
  hx.bind fun _ _ ↦ hy.bind fun _ _ ↦ .ok rfl

theorem fits_of_translatedInto (h : r.translatedInto fit = .ok s) :
    Fits r.x r.width fit.x fit.width s.x ∧ Fits r.y r.height fit.y fit.height s.y := by
  simp only [translatedInto, bind_eq_ok_iff, pure, Except.pure, Except.ok.injEq] at h
  obtain ⟨x, hx, y, hy, rfl⟩ := h
  exact ⟨fits_of_fitInterval hx, fits_of_fitInterval hy⟩

theorem translatedInto_again (h : r.translatedInto fit = .ok s) : s.translatedInto fit = .ok s := by
  simp only [translatedInto, bind_eq_ok_iff, pure, Except.pure, Except.ok.injEq] at h ⊢
  obtain ⟨x, hx, y, hy, rfl⟩ := h
  exact ⟨x, fitInterval_again hx, y, fitInterval_again hy, rfl⟩

end Rect

namespace ScreenSet

open Checked Rect

variable {set : ScreenSet} {r : Rect} {q : Point} {F : Fault → Prop}

theorem ends_isPointVisible (hx : ∀ s ∈ set.screens, s.frame.maxX.Ends (fun _ ↦ True) F)
    (hy : ∀ s ∈ set.screens, s.frame.maxY.Ends (fun _ ↦ True) F) :
    (set.isPointVisible q).Ends (fun _ ↦ True) F :=
  .anyM fun s hs ↦ ends_contains (hx s hs) (hy s hs)

theorem ends_isRectVisible
    (h : ∀ s ∈ set.screens, (s.frame.intersection r).Ends (fun _ ↦ True) F) :
    (set.isRectVisible r).Ends (fun _ ↦ True) F := by
  refine .ite (fun _ ↦ .ok trivial) fun _ ↦ ends_area.bind fun total _ ↦ .anyM fun s hs ↦
    (h s hs).bind fun part _ ↦ ?_
  cases part with
  | none => exact .ok trivial
  | some i => exact ends_area.bind fun _ _ ↦ .ok trivial

end ScreenSet

namespace ExternalBounds

open Checked Rect

variable {r fit : Rect} {screens : ScreenSet} {current preferred : Size} {origin : Point}
  {b : ExternalBounds} {F : Fault → Prop}

theorem ends_isValid (hright : r.maxX.Ends (fun _ ↦ True) F)
    (hx : ∀ s ∈ screens.screens, s.frame.maxX.Ends (fun _ ↦ True) F)
    (hy : ∀ s ∈ screens.screens, s.frame.maxY.Ends (fun _ ↦ True) F)
    (hpart : ∀ s ∈ screens.screens, (s.frame.intersection r).Ends (fun _ ↦ True) F) :
    (isValid r screens).Ends (fun _ ↦ True) F := by
  have hpoint : ∀ q, (screens.isPointVisible q).Ends (fun _ ↦ True) F :=
    fun _ ↦ ScreenSet.ends_isPointVisible hx hy
  have hrest : ∀ header : Bool,
      Ends (if r.isEmpty || !header then return false else screens.isRectVisible r)
        (fun _ ↦ True) F :=
    fun _ ↦ .ite (fun _ ↦ .ok trivial) fun _ ↦ ScreenSet.ends_isRectVisible hpart
  have hcorner : r.topRight.Ends (fun _ ↦ True) F := hright.bind fun _ _ ↦ .ok trivial
  exact (hpoint _).bind fun left _ ↦ .ite (fun _ ↦ hrest true) fun _ ↦
    hcorner.bind fun corner _ ↦ (hpoint corner).bind fun header _ ↦ hrest header

theorem onlyOverflows_isValid : OnlyOverflows (isValid r screens) :=
  ends_isValid onlyOverflows_maxX (fun _ _ ↦ onlyOverflows_maxX) (fun _ _ ↦ onlyOverflows_maxY)
    fun _ _ ↦ onlyOverflows_intersection

theorem compute_eq (hr : r.isEmpty = false) :
    compute (some r) screens fit current preferred origin = (do
      if ← isValid r screens then return ⟨r, false⟩
      return ⟨← r.translatedInto fit, true⟩) := by
  simp only [compute, hr, Bool.false_eq_true, if_false]

theorem onlyOverflows_compute (hr : r.isEmpty = false) :
    OnlyOverflows (compute (some r) screens fit current preferred origin) := by
  rw [compute_eq hr]
  exact onlyOverflows_isValid.bind fun _ _ ↦ .ite (fun _ ↦ .ok trivial) fun _ ↦
    (ends_translatedInto onlyOverflows_fitInterval onlyOverflows_fitInterval).bind fun _ _ ↦
      .ok trivial

theorem compute_cases (hr : r.isEmpty = false)
    (h : compute (some r) screens fit current preferred origin = .ok b) :
    isValid r screens = .ok true ∧ b = ⟨r, false⟩ ∨
      isValid r screens = .ok false ∧ ∃ moved, r.translatedInto fit = .ok moved ∧
        b = ⟨moved, true⟩ := by
  rw [compute_eq hr, bind_eq_ok_iff] at h
  obtain ⟨valid, hvalid, h⟩ := h
  cases valid with
  | true =>
    cases h
    exact .inl ⟨hvalid, rfl⟩
  | false =>
    simp only [Bool.false_eq_true, if_false, bind_eq_ok_iff, pure, Except.pure,
      Except.ok.injEq] at h
    obtain ⟨moved, hmoved, rfl⟩ := h
    exact .inr ⟨hvalid, moved, hmoved, rfl⟩

theorem compute_of_translatedInto_self {valid : Bool} (hr : r.isEmpty = false)
    (hself : r.translatedInto fit = .ok r) (hvalid : isValid r screens = .ok valid) :
    compute (some r) screens fit current preferred origin = .ok ⟨r, !valid⟩ := by
  rw [compute_eq hr, hvalid]
  cases valid with
  | true => rfl
  | false =>
    rw [hself]
    rfl

/-- Bounds that are not empty, and for which no 32-bit sum or difference overflows, get a place, of
their own size. It is the bounds themselves, and needs no centering, just if they can be kept;
otherwise they are moved on each axis by as much as it takes. Asked again with the outcome as stored
bounds, nothing but the test whether these can be kept may overflow, and whatever it says, the
outcome is the same rectangle. -/
theorem compute_settles (hr : r.isEmpty = false)
    (hno : ¬ (compute (some r) screens fit current preferred origin).Overflows32) :
    ∃ b, compute (some r) screens fit current preferred origin = .ok b ∧
      b.bounds.size = r.size ∧ (b = ⟨r, false⟩ ↔ isValid r screens = .ok true) ∧
      (isValid r screens ≠ .ok true → b.needsCentering = true ∧
        Fits r.x r.width fit.x fit.width b.bounds.x ∧
        Fits r.y r.height fit.y fit.height b.bounds.y) ∧
      (¬ (isValid b.bounds screens).Overflows32 → ∃ valid, isValid b.bounds screens = .ok valid ∧
        compute (some b.bounds) screens fit current preferred origin =
          .ok ⟨b.bounds, !valid⟩) := by
  obtain ⟨b, hb⟩ := (onlyOverflows_compute hr).exists_ok hno
  refine ⟨b, hb, ?_⟩
  obtain ⟨hvalid, rfl⟩ | ⟨hvalid, moved, hmoved, rfl⟩ := compute_cases hr hb
  · exact ⟨rfl, iff_of_true rfl hvalid, fun hnot ↦ absurd hvalid hnot,
      fun _ ↦ ⟨true, hvalid, hb⟩⟩
  · have hsize := size_of_translatedInto hmoved
    have hempty : moved.isEmpty = false := by rw [isEmpty, hsize, ← isEmpty, hr]
    refine ⟨hsize, ?_, fun _ ↦ ⟨rfl, fits_of_translatedInto hmoved⟩, fun hno' ↦ ?_⟩
    · rw [hvalid]
      exact iff_of_false (fun h ↦ by cases h) fun h ↦ by cases h
    · obtain ⟨valid, hvalid'⟩ := onlyOverflows_isValid.exists_ok hno'
      exact ⟨valid, hvalid', compute_of_translatedInto_self hempty (translatedInto_again hmoved)
        hvalid'⟩

def twoScreens : ScreenSet := ⟨[⟨1, ⟨0, 0, 1920, 1080⟩⟩, ⟨2, ⟨1920, 0, 1280, 1024⟩⟩]⟩

/-- Bounds beyond both screens are moved into the corner of the first one, and can be kept there. -/
theorem compute_settles_beyond :
    let place := fun stored ↦
      compute (some stored) twoScreens ⟨0, 0, 1920, 1080⟩ ⟨0, 0⟩ ⟨400, 300⟩ ⟨10, 10⟩
    let beyond : Rect := ⟨5000, 3000, 600, 400⟩
    beyond.isEmpty = false ∧ ¬ (place beyond).Overflows32 ∧ ∃ b, place beyond = .ok b ∧
      b.bounds.size = beyond.size ∧ b.bounds = ⟨1320, 680, 600, 400⟩ ∧
      place b.bounds = .ok ⟨b.bounds, false⟩ := by
  intro place beyond
  have hplaced : place beyond = .ok ⟨⟨1320, 680, 600, 400⟩, true⟩ := by decide +kernel
  have hvalid : isValid ⟨1320, 680, 600, 400⟩ twoScreens = .ok true := by decide +kernel
  have hno : ¬ (place beyond).Overflows32 := by
    rintro ⟨fault, hfault, -⟩
    cases hplaced.symm.trans hfault
  obtain ⟨b, hb, hsize, -, -, hagain⟩ := compute_settles (r := beyond) rfl hno
  cases hplaced.symm.trans hb
  have hno' : ¬ (isValid ⟨1320, 680, 600, 400⟩ twoScreens).Overflows32 := by
    rintro ⟨fault, hfault, -⟩
    cases hvalid.symm.trans hfault
  obtain ⟨valid, hvalid', hsame⟩ := hagain hno'
  cases hvalid.symm.trans hvalid'
  exact ⟨rfl, hno, _, hb, hsize, rfl, hsame⟩

end ExternalBounds

end ToolDock

import Mathlib.Tactic.Linarith
import ToolDock.Proofs.Arranging
import ToolDock.Proofs.Fitting

/-!
Coordinates that are far enough from the ends of the 32-bit range. If screens, frame and stored
bounds keep to 2 ^ 29 in every coordinate and extent, everything that is computed from them to place
an external window fits: centers keep to 3 * 2 ^ 28, their differences to 3 * 2 ^ 29, and far edges
to 2 ^ 30. Main statements: one `gives_…` lemma for each function, which bounds its result as far as
the next one needs it, and `externalPlacement_of_moderate`.
-/

namespace ToolDock

namespace Checked

variable {α : Type} {x : Checked α} {P : α → Prop} {a b : Int32}

abbrev Gives (x : Checked α) (P : α → Prop) : Prop := x.Ends P fun _ ↦ False

theorem Gives.exists_ok (h : x.Gives P) : ∃ a, x = .ok a ∧ P a := Ends.exists_ok h fun _ _ ↦ id

theorem gives_add32 (h : -2147483648 ≤ a.toInt + b.toInt ∧ a.toInt + b.toInt ≤ 2147483647) :
    (add32 a b).Gives fun c ↦ c.toInt = a.toInt + b.toInt :=
  ends_fit32 fun hnot ↦ hnot h

theorem gives_sub32 (h : -2147483648 ≤ a.toInt - b.toInt ∧ a.toInt - b.toInt ≤ 2147483647) :
    (sub32 a b).Gives fun c ↦ c.toInt = a.toInt - b.toInt :=
  ends_fit32 fun hnot ↦ hnot h

theorem half_bounds (a : Int32) :
    min a.toInt 0 ≤ 2 * (a / 2).toInt ∧ 2 * (a / 2).toInt ≤ max a.toInt 0 := by
  have htdiv : (a / 2).toInt = a.toInt.tdiv 2 := Int32.toInt_div_of_ne_right _ _ (by decide)
  rw [htdiv, Int.tdiv_eq_ediv, show Int.sign 2 = 1 from rfl]
  split <;> omega

theorem square_bounds {n k : Int} (h : -k ≤ n ∧ n ≤ k) : 0 ≤ n * n ∧ n * n ≤ k * k := by
  obtain ⟨hlow, hhigh⟩ := h
  have hproduct := mul_nonneg (sub_nonneg.2 hhigh) (neg_le_iff_add_nonneg.1 hlow)
  exact ⟨mul_self_nonneg n, by linarith⟩

end Checked

def IsModerate (a : Int32) : Prop := -536870912 ≤ a.toInt ∧ a.toInt ≤ 536870912

structure Size.Moderate (s : Size) : Prop where
  width : IsModerate s.width
  height : IsModerate s.height

structure Rect.Moderate (r : Rect) : Prop where
  x : IsModerate r.x
  y : IsModerate r.y
  width : IsModerate r.width
  height : IsModerate r.height

theorem Rect.Moderate.size {r : Rect} (h : r.Moderate) : r.size.Moderate := ⟨h.width, h.height⟩

def IsCentral (a : Int32) : Prop := -805306368 ≤ a.toInt ∧ a.toInt ≤ 805306368

namespace Rect

open Checked

variable {r s fit frame : Rect} {p : Point} {pos len start extent : Int32}

theorem gives_edge (hstart : IsModerate start) (hextent : IsModerate extent) :
    (add32 start extent).Gives fun c ↦ c.toInt = start.toInt + extent.toInt := by
  obtain ⟨hs, hs'⟩ := hstart
  obtain ⟨he, he'⟩ := hextent
  exact gives_add32 (by omega)

theorem gives_middle (hstart : IsModerate start) (hextent : IsModerate extent) :
    (add32 start (extent / 2)).Gives IsCentral := by
  obtain ⟨hs, hs'⟩ := hstart
  obtain ⟨he, he'⟩ := hextent
  have hhalf := half_bounds extent
  refine (gives_add32 (by omega)).mono fun c hc ↦ ?_
  rw [IsCentral, hc]
  omega

theorem gives_difference {c d : Int32} (hc : IsCentral c) (hd : IsCentral d) :
    (sub32 c d).Gives fun n ↦ -1610612736 ≤ n.toInt ∧ n.toInt ≤ 1610612736 := by
  obtain ⟨hc, hc'⟩ := hc
  obtain ⟨hd, hd'⟩ := hd
  refine (gives_sub32 (by omega)).mono fun n hn ↦ ?_
  rw [hn]
  omega

theorem gives_fitInterval (hlen : IsModerate len) (hstart : IsModerate start)
    (hextent : IsModerate extent) :
    (fitInterval pos len start extent).Gives fun _ ↦ True := by
  refine ends_fitInterval (gives_edge hstart hextent) fun stop hstop ↦ gives_sub32 ?_
  obtain ⟨hl, hl'⟩ := hlen
  obtain ⟨hs, hs'⟩ := hstart
  obtain ⟨he, he'⟩ := hextent
  omega

theorem gives_overlap {start' stop stop' : Int32} (h : IsModerate start) (h' : IsModerate start')
    (hstop : stop.toInt ≤ 1073741824) (hstop' : stop'.toInt ≤ 1073741824)
    (hlt : (if start' < start then start else start') < if stop' < stop then stop' else stop) :
    (sub32 (if stop' < stop then stop' else stop)
      (if start' < start then start else start')).Gives fun _ ↦ True := by
  have hfirst : -536870912 ≤ (if start' < start then start else start').toInt := by
    split
    · exact h.1
    · exact h'.1
  have hlast : (if stop' < stop then stop' else stop).toInt ≤ 1073741824 := by
    split
    · exact hstop'
    · exact hstop
  rw [Int32.lt_iff_toInt_lt] at hlt
  exact (gives_sub32 (by omega)).mono fun _ _ ↦ trivial

theorem gives_slack (hlen : IsModerate len) (hextent : IsModerate extent) :
    (sub32 extent len).Gives fun n ↦ -1073741824 ≤ n.toInt ∧ n.toInt ≤ 1073741824 := by
  obtain ⟨hl, hl'⟩ := hlen
  obtain ⟨he, he'⟩ := hextent
  refine (gives_sub32 (by omega)).mono fun n hn ↦ ?_
  rw [hn]
  omega

theorem gives_offset {slack : Int32} (hstart : IsModerate start)
    (hslack : -1073741824 ≤ slack.toInt ∧ slack.toInt ≤ 1073741824) :
    (add32 start (slack / 2)).Gives fun _ ↦ True := by
  obtain ⟨hs, hs'⟩ := hstart
  have hhalf := half_bounds slack
  exact (gives_add32 (by omega)).mono fun _ _ ↦ trivial

theorem gives_center (h : r.Moderate) :
    r.center.Gives fun c ↦ IsCentral c.x ∧ IsCentral c.y :=
  (gives_middle h.x h.width).bind fun _ hx ↦ (gives_middle h.y h.height).bind fun _ hy ↦
    .ok ⟨hx, hy⟩

theorem gives_maxX (h : r.Moderate) :
    r.maxX.Gives fun c ↦ c.toInt = r.x.toInt + r.width.toInt :=
  gives_edge h.x h.width

theorem gives_maxY (h : r.Moderate) :
    r.maxY.Gives fun c ↦ c.toInt = r.y.toInt + r.height.toInt :=
  gives_edge h.y h.height

theorem gives_intersection (h : r.Moderate) (h' : s.Moderate) :
    (r.intersection s).Gives fun _ ↦ True := by
  have hedge : ∀ {start extent stop : Int32}, IsModerate start → IsModerate extent →
      stop.toInt = start.toInt + extent.toInt → stop.toInt ≤ 1073741824 := by
    rintro _ _ _ ⟨-, hs⟩ ⟨-, he⟩ hstop
    omega
  refine (gives_maxX h).bind fun rx hrx ↦ (gives_maxX h').bind fun sx hsx ↦
    (gives_maxY h).bind fun ry hry ↦ (gives_maxY h').bind fun sy hsy ↦
    .ite (fun _ ↦ .ok trivial) fun hover ↦ ?_
  simp only [Bool.or_eq_true, decide_eq_true_eq, not_or, Int32.not_le] at hover
  exact (gives_overlap h.x h'.x (hedge h.x h.width hrx) (hedge h'.x h'.width hsx) hover.1).bind
    fun _ _ ↦ (gives_overlap h.y h'.y (hedge h.y h.height hry) (hedge h'.y h'.height hsy)
      hover.2).bind fun _ _ ↦ .ok trivial

theorem gives_translatedInto (h : r.size.Moderate) (h' : fit.Moderate) :
    (r.translatedInto fit).Gives fun s ↦ s.size = r.size :=
  ends_translatedInto (gives_fitInterval h.width h'.x h'.width)
    (gives_fitInterval h.height h'.y h'.height)

theorem gives_centeredIn (h : r.size.Moderate) (h' : frame.Moderate) :
    (r.centeredIn frame).Gives fun _ ↦ True :=
  (gives_slack h.width h'.width).bind fun _ hx ↦ (gives_offset h'.x hx).bind fun _ _ ↦
    (gives_slack h.height h'.height).bind fun _ hy ↦ (gives_offset h'.y hy).bind fun _ _ ↦
      .ok trivial

theorem gives_distanceSq (h : r.Moderate) (hp : IsCentral p.x ∧ IsCentral p.y) :
    (r.distanceSq p).Gives fun _ ↦ True := by
  refine (gives_center h).bind fun c hc ↦ (gives_difference hc.1 hp.1).bind fun dx hdx ↦
    (gives_difference hc.2 hp.2).bind fun dy hdy ↦ ?_
  have hxx := square_bounds hdx
  have hyy := square_bounds hdy
  have hsquare : ∀ n : Int, 0 ≤ n * n ∧ n * n ≤ 1610612736 * 1610612736 →
      (mul64 n n).Gives (· = n * n) :=
    fun n hn ↦ .ite (fun _ ↦ .ok rfl) fun hnot ↦ hnot (by omega)
  refine (hsquare _ hxx).bind fun xx hx ↦ (hsquare _ hyy).bind fun yy hy ↦
    .ite (fun _ ↦ .ok trivial) fun hnot ↦ hnot ?_
  subst hx hy
  omega

end Rect

namespace ScreenSet

open Checked Rect

variable {screens : List Screen} {set : ScreenSet} {r : Rect} {p : Point}

theorem gives_ofList (h : ∀ s ∈ screens, s.frame.Moderate) :
    (ofList screens).Gives fun set ↦ ∀ s ∈ set.screens, s.frame.Moderate := by
  have hcenters : ∀ s ∈ screens, ∃ c, s.frame.center = .ok c := by
    intro s hs
    obtain ⟨c, hc, -⟩ := (gives_center (h s hs)).exists_ok
    exact ⟨c, hc⟩
  obtain ⟨placed, rfl, -, hsort⟩ := exists_placed hcenters
  have hset : ofList (placed.map (·.2)) =
      .ok ⟨mainFirst ((placed.mergeSort precedes).map (·.2))⟩ := by
    rw [ofList, hsort]
    rfl
  refine .of_eq hset fun s hs ↦ h s ?_
  exact ((List.mergeSort_perm placed precedes).map _).mem_iff.1 (mem_of_mem_mainFirst hs)

theorem gives_nearest? (h : ∀ s ∈ set.screens, s.frame.Moderate) (hr : r.Moderate) :
    (set.nearest? r).Gives fun s ↦ ∀ t, s = some t → t.frame.Moderate := by
  obtain ⟨c, hc, hcentral⟩ := (gives_center hr).exists_ok
  have hdistances : ∀ s ∈ set.screens, ∃ d, s.frame.distanceSq c = .ok d := by
    intro s hs
    obtain ⟨d, hd, -⟩ := (gives_distanceSq (h s hs) hcentral).exists_ok
    exact ⟨d, hd⟩
  obtain ⟨placed, hplaced⟩ := exists_mapM_tagged hdistances
  have hnearest : set.nearest? r = .ok ((nearestOf placed).map (·.2)) :=
    bind_eq_ok_iff.2 ⟨c, hc, bind_eq_ok_iff.2 ⟨placed, hplaced, rfl⟩⟩
  refine .of_eq hnearest fun t ht ↦ h t ?_
  rw [ht] at hnearest
  obtain ⟨_, _, before, after, _, hscreens, -⟩ := nearestFirst_of_nearest? hnearest
  rw [hscreens]
  exact List.mem_append_right _ (List.mem_cons_self ..)

end ScreenSet

namespace ExternalBounds

open Checked Rect ScreenSet

variable {set : ScreenSet} {r fit : Rect} {stored : Option Rect} {current preferred : Size}
  {origin : Point}

theorem gives_isValid (h : ∀ s ∈ set.screens, s.frame.Moderate) (hr : r.Moderate) :
    (isValid r set).Gives fun _ ↦ True :=
  ends_isValid ((gives_maxX hr).mono fun _ _ ↦ trivial)
    (fun s hs ↦ (gives_maxX (h s hs)).mono fun _ _ ↦ trivial)
    (fun s hs ↦ (gives_maxY (h s hs)).mono fun _ _ ↦ trivial)
    fun s hs ↦ gives_intersection (h s hs) hr

theorem gives_compute (h : ∀ s ∈ set.screens, s.frame.Moderate)
    (hstored : ∀ r, stored = some r → r.Moderate) (hfit : fit.Moderate)
    (hcurrent : current.Moderate) (hpreferred : preferred.Moderate) :
    (compute stored set fit current preferred origin).Gives fun b ↦ b.bounds.size.Moderate := by
  have hinitial : (initial current preferred origin).bounds.size.Moderate := by
    unfold initial
    split
    · exact ⟨hpreferred.width, hpreferred.height⟩
    · exact ⟨hcurrent.width, hcurrent.height⟩
  cases stored with
  | none => exact .ok hinitial
  | some r =>
    have hr := hstored r rfl
    exact (gives_isValid h hr).bind fun valid _ ↦ .ite (fun _ ↦ .ok hr.size) fun _ ↦
      .ite (fun _ ↦ .ok hinitial) fun _ ↦ (gives_translatedInto hr.size hfit).bind fun s hs ↦
        .ok (hs ▸ hr.size)

theorem gives_centering {b : ExternalBounds} {frame : Rect} (h : b.bounds.size.Moderate)
    (h' : frame.Moderate) :
    Gives (if b.needsCentering then b.bounds.centeredIn frame else return b.bounds)
      fun _ ↦ True :=
  .ite (fun _ ↦ gives_centeredIn h h') fun _ ↦ .ok trivial

end ExternalBounds

namespace Engine

open Checked ExternalBounds

/-- If the frames of the screens, the frame of the host, the stored bounds, if there are any, and
the current and preferred sizes keep to 2 ^ 29 in every coordinate and extent, also to the negative
side, then an external window has a place: no sum, difference or product on the way overflows, no
range to clamp into is empty, and where portions of the stored bounds are compared with their area,
that area is not zero. Where new windows open does not matter. -/
theorem externalPlacement_of_moderate (h : Host) (handle : Handle) (info : WindowInfo)
    (hscreens : ∀ s ∈ h.desktop.screens, s.frame.Moderate)
    (hframe : h.desktop.frameBounds.Moderate)
    (hstored : ∀ r, info.floatingBounds = some r → r.Moderate)
    (hcurrent : h.desktop.decoratorSize.Moderate)
    (hpreferred : h.desktop.preferredSize.Moderate) :
    (∃ b, externalPlacement h handle info = .ok b) ∧
      ∀ r, info.floatingBounds = some r → r.isEmpty = false →
        ∃ total, r.area = .ok total ∧ 0 < total := by
  constructor
  · have hplaced : (externalPlacement h handle info).Gives fun _ ↦ True := by
      refine (ScreenSet.gives_ofList hscreens).bind fun set hset ↦
        (ScreenSet.gives_nearest? hset hframe).bind fun nearest hnearest ↦ ?_
      cases nearest with
      | none =>
        exact (gives_compute hset hstored hframe hcurrent hpreferred).bind fun _ hsize ↦
          gives_centering hsize hframe
      | some screen =>
        exact (gives_compute hset hstored (hnearest screen rfl) hcurrent hpreferred).bind
          fun _ hsize ↦ gives_centering hsize hframe
    obtain ⟨b, hb, -⟩ := hplaced.exists_ok
    exact ⟨b, hb⟩
  · intro r _ hr
    obtain ⟨total, htotal, hpos⟩ := r.exists_area
    exact ⟨total, htotal, hpos hr⟩

def farDesktop : Desktop := { Desktop.default with
  screens := [⟨1, ⟨536870912, 536870912, 536870912, 536870912⟩⟩,
    ⟨2, ⟨-536870912, -536870912, 536870912, 536870912⟩⟩]
  frameBounds := ⟨-536870912, -536870912, 536870912, 536870912⟩
  decoratorSize := ⟨-536870912, 0⟩
  preferredSize := ⟨400, 300⟩ }

def farWindow : WindowInfo := { WindowInfo.new "A" .left with
  floatingBounds := some ⟨-536870912, 536870912, 536870912, 1⟩ }

theorem externalPlacement_of_moderate_far :
    (∃ b, externalPlacement (.new farDesktop) 0 farWindow = .ok b) ∧
      ∃ total, Rect.area ⟨-536870912, 536870912, 536870912, 1⟩ = .ok total ∧ 0 < total := by
  have hhigh : IsModerate 536870912 := ⟨by decide, by decide⟩
  have hlow : IsModerate (-536870912) := ⟨by decide, by decide⟩
  have hsmall : ∀ {a : Int32}, 0 ≤ a.toInt ∧ a.toInt ≤ 400 → IsModerate a :=
    fun h ↦ ⟨by omega, by omega⟩
  have hscreens : ∀ s ∈ farDesktop.screens, s.frame.Moderate := by
    simp only [farDesktop, List.forall_mem_cons]
    exact ⟨⟨hhigh, hhigh, hhigh, hhigh⟩, ⟨hlow, hlow, hhigh, hhigh⟩, by simp⟩
  have hstored : ∀ r, farWindow.floatingBounds = some r → r.Moderate := by
    rintro _ ⟨⟩
    exact ⟨hlow, hhigh, hhigh, hsmall (by decide)⟩
  obtain ⟨hplaced, harea⟩ := externalPlacement_of_moderate (.new farDesktop) 0 farWindow hscreens
    ⟨hlow, hlow, hhigh, hhigh⟩ hstored ⟨hlow, hsmall (by decide)⟩
    ⟨hsmall (by decide), hsmall (by decide)⟩
  exact ⟨hplaced, harea _ rfl rfl⟩

end Engine

end ToolDock

namespace ToolDock

inductive Anchor where
  | left
  | right
  | top
  | bottom
deriving DecidableEq, Repr, Inhabited

namespace Anchor

def all : List Anchor := [.left, .right, .top, .bottom]

def name : Anchor → String
  | .left => "left"
  | .right => "right"
  | .top => "top"
  | .bottom => "bottom"

def ofName? (s : String) : Option Anchor := all.find? (·.name == s)

def isHorizontal : Anchor → Bool
  | .top | .bottom => true
  | .left | .right => false

/-- Left and right split windows are stacked on top of each other. -/
def isSplitVertically (a : Anchor) : Bool := !a.isHorizontal

theorem mem_all (a : Anchor) : a ∈ all := by cases a <;> simp [all]

theorem ofName?_name (a : Anchor) : ofName? a.name = some a := by cases a <;> rfl

end Anchor

structure PerAnchor (α : Type) where
  left : α
  right : α
  top : α
  bottom : α
deriving DecidableEq, Repr, Inhabited

namespace PerAnchor

variable {α β : Type}

def const (x : α) : PerAnchor α := ⟨x, x, x, x⟩

def get (t : PerAnchor α) : Anchor → α
  | .left => t.left
  | .right => t.right
  | .top => t.top
  | .bottom => t.bottom

def set (t : PerAnchor α) (a : Anchor) (x : α) : PerAnchor α :=
  match a with
  | .left => { t with left := x }
  | .right => { t with right := x }
  | .top => { t with top := x }
  | .bottom => { t with bottom := x }

def map (f : α → β) (t : PerAnchor α) : PerAnchor β := ⟨f t.left, f t.right, f t.top, f t.bottom⟩

@[simp] theorem get_const (x : α) (a : Anchor) : (const x).get a = x := by cases a <;> rfl

theorem get_set (t : PerAnchor α) (a b : Anchor) (x : α) :
    (t.set a x).get b = if b = a then x else t.get b := by
  cases a <;> cases b <;> rfl

@[simp] theorem get_map (f : α → β) (t : PerAnchor α) (a : Anchor) :
    (t.map f).get a = f (t.get a) := by cases a <;> rfl

theorem ext_get {t u : PerAnchor α} (h : ∀ a, t.get a = u.get a) : t = u := by
  cases t
  cases u
  have hl := h .left
  have hr := h .right
  have ht := h .top
  have hb := h .bottom
  simp only [get] at hl hr ht hb
  rw [hl, hr, ht, hb]

end PerAnchor

end ToolDock

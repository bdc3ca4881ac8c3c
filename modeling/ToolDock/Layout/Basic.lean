import ToolDock.Window.Info

/-!
Desktop layouts: the placements of all known windows, each id once, in a fixed order, and the
weights that docked windows at an anchor share. Main statements: `get?_put` and `get?_remove` say
what the two changes do to a look-up, `ids_put` what they do to the order.
-/

namespace ToolDock

structure Layout where
  windows : List WindowInfo
  /-- The shared weight of each anchor for which one was set. -/
  unified : PerAnchor (Option Weight)
  nodup : (windows.map WindowInfo.id).Nodup
deriving DecidableEq

namespace Layout

def empty : Layout := ⟨[], .const none, List.nodup_nil⟩

instance : Inhabited Layout := ⟨empty⟩

def ids (l : Layout) : List String := l.windows.map WindowInfo.id

def size (l : Layout) : Nat := l.windows.length

def get? (l : Layout) (id : String) : Option WindowInfo := l.windows.find? (·.id == id)

def contains (l : Layout) (id : String) : Bool := l.windows.any (·.id == id)

def replaced (info : WindowInfo) (ws : List WindowInfo) : List WindowInfo :=
  ws.map fun w ↦ if w.id = info.id then info else w

theorem map_id_replaced (info : WindowInfo) (ws : List WindowInfo) :
    (replaced info ws).map WindowInfo.id = ws.map WindowInfo.id := by
  unfold replaced
  rw [List.map_map]
  refine List.map_congr_left fun w _ ↦ ?_
  simp only [Function.comp]
  split
  case isTrue h => exact h.symm
  case isFalse h => rfl

theorem contains_eq_true_iff {l : Layout} {id : String} : l.contains id = true ↔ id ∈ l.ids := by
  simp [contains, ids]

theorem nodup_append_of_not_contains {l : Layout} {info : WindowInfo}
    (h : l.contains info.id = false) :
    ((l.windows ++ [info]).map WindowInfo.id).Nodup := by
  have hm : info.id ∉ l.windows.map WindowInfo.id := fun hin ↦ by
    rw [contains_eq_true_iff.2 hin] at h
    cases h
  rw [List.map_append, List.nodup_append]
  refine ⟨l.nodup, by simp, fun a ha b hb hab ↦ hm ?_⟩
  simp only [List.map_cons, List.map_nil, List.mem_singleton] at hb
  rw [← hb, ← hab]
  exact ha

/-- Inserts the placement at the end, or in the position of the one with its id. -/
def put (l : Layout) (info : WindowInfo) : Layout :=
  if h : l.contains info.id then
    { l with windows := replaced info l.windows, nodup := by rw [map_id_replaced]; exact l.nodup }
  else
    { l with
      windows := l.windows ++ [info]
      nodup := nodup_append_of_not_contains (by simpa using h) }

/-- The placement stored for the id of `info`, which is `info` itself if there was none, and the
layout that holds it. -/
def add (l : Layout) (info : WindowInfo) : WindowInfo × Layout :=
  match l.get? info.id with
  | some stored => (stored, l)
  | none => (info, l.put info)

def remove (l : Layout) (id : String) : Layout :=
  { l with
    windows := l.windows.filter (·.id != id)
    nodup := l.nodup.sublist (List.Sublist.map _ List.filter_sublist) }

def ofList (infos : List WindowInfo) : Layout := infos.foldl put empty

def mapWindows (l : Layout) (f : List WindowInfo → List WindowInfo)
    (h : ∀ ws, (f ws).map WindowInfo.id = ws.map WindowInfo.id) : Layout :=
  { l with windows := f l.windows, nodup := by rw [h]; exact l.nodup }

def panes (l : Layout) : List String := (l.windows.map WindowInfo.pane).eraseDups

def unifiedWeight (l : Layout) (a : Anchor) : Weight := (l.unified.get a).getD defaultWeight

def setUnifiedWeight (l : Layout) (a : Anchor) (w : Weight) : Layout :=
  { l with unified := l.unified.set a (some w) }

def setWeights (l : Layout) : List (Anchor × Weight) :=
  Anchor.all.filterMap fun a ↦ (l.unified.get a).map (a, ·)

/-- Paint order: by assigned order, unassigned ones last. -/
def paintsBefore (a b : WindowInfo) : Bool :=
  if a.hasOrder then !b.hasOrder || a.order ≤ b.order else !b.hasOrder

/-- The windows of one slot in paint order; ties keep layout order. -/
def bucket (l : Layout) (s : Slot) : List WindowInfo :=
  (l.windows.filter (·.slot == s)).mergeSort paintsBefore

def lastOrder? (l : Layout) (pane : String) (anchor : Anchor) : Option Int32 :=
  (l.windows.filter (·.isAt pane anchor)).foldl (fun best w ↦
    match best with
    | none => some w.order
    | some o => some (if o < w.order then w.order else o)) none

def nextOrder (l : Layout) (pane : String) (anchor : Anchor) : Checked Int32 :=
  match l.lastOrder? pane anchor with
  | none => return 0
  | some last => do
    let next ← Checked.add32 last 1
    return if next < 0 then 0 else next

/-- The same windows with agreeing placements, in whatever order, and the same shared weights. -/
def agrees (l m : Layout) : Bool :=
  l.size == m.size
    && l.windows.all (fun w ↦ match m.get? w.id with
      | some v => w.agrees v
      | none => false)
    && Anchor.all.all fun a ↦ match l.unified.get a, m.unified.get a with
      | some w, some v => w.equals v
      | none, none => true
      | _, _ => false

def loaded (infos : List WindowInfo) (unified : PerAnchor (Option Weight)) : Layout :=
  { ofList (infos.map fun w ↦ { w with persisted := true }) with unified := unified }

variable {l : Layout} {info : WindowInfo} {id : String}

theorem ids_put (l : Layout) (info : WindowInfo) :
    (l.put info).ids = if l.contains info.id then l.ids else l.ids ++ [info.id] := by
  unfold put
  split
  case isTrue h => simp only [ids, map_id_replaced]
  case isFalse h => simp [ids]

theorem find?_replaced (ws : List WindowInfo) (info : WindowInfo) (id : String) :
    (replaced info ws).find? (·.id == id) =
      if id = info.id then
        if ws.any (·.id == id) then some info else none
      else ws.find? (·.id == id) := by
  induction ws with
  | nil => simp [replaced]
  | cons w ws ih =>
    simp only [replaced, List.map_cons] at ih ⊢
    by_cases hw : w.id = info.id <;> by_cases hid : id = info.id
    · subst hid
      simp [hw]
    · have hne : ¬ info.id = id := fun h ↦ hid h.symm
      simp [hw, hid, hne, ih]
    · subst hid
      simp [hw, ih]
    · by_cases hwid : w.id = id
      · simp [hwid, hid]
      · simp [hw, hwid, hid, ih]

theorem get?_put (l : Layout) (info : WindowInfo) (id : String) :
    (l.put info).get? id = if id = info.id then some info else l.get? id := by
  unfold put
  split
  case isTrue h =>
    simp only [get?, find?_replaced]
    by_cases hid : id = info.id
    · subst hid
      have : l.windows.any (·.id == info.id) = true := h
      simp [this]
    · simp [hid]
  case isFalse h =>
    have hnone : l.get? info.id = none := by
      simpa [get?, contains] using h
    by_cases hid : id = info.id
    · subst hid
      simp only [get?] at hnone ⊢
      simp [List.find?_append, hnone]
    · have hne : ¬ info.id = id := fun h ↦ hid h.symm
      simp [get?, List.find?_append, hid, hne]

theorem get?_remove (l : Layout) (id other : String) :
    (l.remove id).get? other = if other = id then none else l.get? other := by
  simp only [get?, remove, List.find?_filter]
  by_cases h : other = id
  · subst h
    simp
  · rw [if_neg h]
    congr 1
    funext w
    by_cases hw : w.id = other
    · simp [hw, h]
    · simp [hw]

theorem id_of_get? (h : l.get? id = some info) : info.id = id := by
  have := List.find?_some h
  simpa using this

end Layout

end ToolDock

import Mathlib.Data.List.Nodup
import ToolDock.Proofs.Decimals

/-!
Saving and loading of layouts. What is written for a window or a layout is read back as it is,
window by window and field by field, and `Layout.read?_write_of_numbers` says so of the text: only
the mark of loaded windows differs, and that is not written. Weights that are no numbers are left
out, since their payload is not in the text.
-/

namespace ToolDock

open Notation Stored

namespace Notation.Value

variable {n : Nat}

theorem depthOfItems_le {items : List Value} (h : ∀ v ∈ items, v.depth < n) :
    depthOfItems items ≤ n := by
  induction items with
  | nil => exact Nat.zero_le _
  | cons v items ih =>
    have hv : v.depth < n := h v (.head _)
    have hrest := ih fun v hv ↦ h v (.tail _ hv)
    rw [depthOfItems]
    omega

theorem depthOfEntries_le {entries : List (Value × Value)}
    (h : ∀ p ∈ entries, p.1.depth < n ∧ p.2.depth < n) : depthOfEntries entries ≤ n := by
  induction entries with
  | nil => exact Nat.zero_le _
  | cons p entries ih =>
    obtain ⟨hkey, hvalue⟩ := h p (.head _)
    have hrest := ih fun p hp ↦ h p (.tail _ hp)
    rw [depthOfEntries]
    omega

theorem depthOfFields_le {fields : List (String × Value)} (h : ∀ p ∈ fields, p.2.depth < n) :
    depthOfFields fields ≤ n := by
  induction fields with
  | nil => exact Nat.zero_le _
  | cons p fields ih =>
    have hp : p.2.depth < n := h p (.head _)
    have hrest := ih fun p hp ↦ h p (.tail _ hp)
    rw [depthOfFields]
    omega

end Notation.Value

theorem Weight.depth_toValue (w : Weight) : w.toValue.depth = 0 := by
  unfold toValue
  split <;> rfl

namespace Stored

variable {α : Type} {fields : List (String × Value)} {name : String} {v : Value}
  {read : Value → Option α} {x d : α}

theorem flag?_flag (b : Bool) : flag? (flag b) = some b := by cases b <;> rfl

theorem int?_int (n : Int32) : int? (int n) = some n := Numeral.readInt32?_integer n

theorem filter_of_notMem (h : name ∉ fields.map Prod.fst) : fields.filter (·.1 == name) = [] :=
  List.filter_eq_nil_iff.2 fun _ hp heq ↦ h (List.mem_map.2 ⟨_, hp, beq_iff_eq.1 heq⟩)

theorem filter_of_mem (hn : (fields.map Prod.fst).Nodup) (h : (name, v) ∈ fields) :
    fields.filter (·.1 == name) = [(name, v)] := by
  induction fields with
  | nil => cases h
  | cons p fields ih =>
    rw [List.map_cons, List.nodup_cons] at hn
    obtain rfl | h := List.mem_cons.1 h
    · rw [List.filter_cons, filter_of_notMem hn.1]
      exact if_pos (beq_self_eq_true name)
    · have hne : ¬ (p.1 == name) = true := fun heq ↦
        hn.1 (List.mem_map.2 ⟨_, h, (beq_iff_eq.1 heq).symm⟩)
      rw [List.filter_cons, if_neg hne, ih hn.2 h]

theorem field?_of_notMem (h : name ∉ fields.map Prod.fst) : field? fields name = some none := by
  rw [field?, filter_of_notMem h]

theorem field?_of_mem (hn : (fields.map Prod.fst).Nodup) (h : (name, v) ∈ fields) :
    field? fields name = some (some v) := by
  rw [field?, filter_of_mem hn h]

theorem optional_of_mem (hn : (fields.map Prod.fst).Nodup) (h : (name, v) ∈ fields)
    (hread : read v = some x) : Stored.optional fields name read d = some x := by
  rw [Stored.optional, field?_of_mem hn h]
  exact hread

theorem optional_of_notMem (h : name ∉ fields.map Prod.fst) :
    Stored.optional fields name read d = some d := by
  rw [Stored.optional, field?_of_notMem h]
  rfl

theorem required_of_mem (hn : (fields.map Prod.fst).Nodup) (h : (name, v) ∈ fields)
    (hread : read v = some x) : required fields name read = some x := by
  rw [required, field?_of_mem hn h]
  exact hread

theorem plain_flag (b : Bool) : (flag b).Plain := by
  cases b with
  | false => exact .ident (isName_of_isAlpha (by decide) (by decide)) (by decide)
  | true => exact .ident (isName_of_isAlpha (by decide) (by decide)) (by decide)

theorem isNumber_integer (n : Int32) : Value.IsNumber (Digits.integer n.toInt) := by
  have hdigit : ∀ c ∈ Digits.decimal n.toInt.natAbs, Numeral.isStart c := fun c hc ↦ by
    simp only [Numeral.isStart, Digits.isDigit_of_mem_decimal hc, Bool.true_or]
  refine .of_isStart ?_ (Numeral.isNumeral_integer n)
  unfold Digits.integer
  split
  case isTrue h =>
    rw [String.toList_ofList]
    exact List.forall_mem_cons.2 ⟨by decide, hdigit⟩
  case isFalse h =>
    rw [String.toList_ofList]
    exact hdigit

theorem plain_int (n : Int32) : (int n).Plain := .number (isNumber_integer n)

theorem fields?_record (name : String) (fields : List (String × Value)) :
    fields? .none name (.record none fields) = some fields := rfl

end Stored

theorem Anchor.plain_name (a : Anchor) : (Value.ident false a.name).Plain := by
  cases a <;> exact .ident (isName_of_isAlpha (by decide) (by decide)) (by decide)

theorem WindowType.plain_name (t : WindowType) : (Value.ident false t.name).Plain := by
  cases t <;> exact .ident (isName_of_isAlpha (by decide) (by decide)) (by decide)

theorem ContentUi.plain_name (u : ContentUi) : (Value.ident false u.name).Plain := by
  cases u <;> exact .ident (isName_of_isAlpha (by decide) (by decide)) (by decide)

namespace Rect

def fields (r : Rect) : List (String × Value) :=
  [("x", int r.x), ("y", int r.y), ("width", int r.width), ("height", int r.height)]

theorem toValue_eq (r : Rect) : r.toValue = .record none r.fields := rfl

theorem ofValue?_toValue (r : Rect) : ofValue? .none r.toValue = some r := by
  have hn : (r.fields.map Prod.fst).Nodup := by simp [fields]
  have hint : ∀ {name n}, (name, int n) ∈ r.fields → required r.fields name int? = some n :=
    fun h ↦ required_of_mem hn h (int?_int _)
  have hx : required r.fields "x" int? = some r.x := hint (by simp [fields])
  have hy : required r.fields "y" int? = some r.y := hint (by simp [fields])
  have hwidth : required r.fields "width" int? = some r.width := hint (by simp [fields])
  have hheight : required r.fields "height" int? = some r.height := hint (by simp [fields])
  rw [toValue_eq]
  simp only [ofValue?, ofFields?, fields?_record, hx, hy, hwidth, hheight, Option.bind_eq_bind,
    Option.bind_some]
  rfl

theorem ofOption?_toValue (r : Rect) :
    ofOption? .none (.option true r.toValue) = some (some r) := by
  have hread := ofValue?_toValue r
  simp only [ofOption?, hread]
  rfl

theorem plain_toValue (r : Rect) : r.toValue.Plain := by
  refine .record (List.cons_ne_nil _ _) ?_ ?_
  · simp only [List.forall_mem_cons]
    exact ⟨isName_of_isAlpha (by decide) (by decide), isName_of_isAlpha (by decide) (by decide),
      isName_of_isAlpha (by decide) (by decide), isName_of_isAlpha (by decide) (by decide), nofun⟩
  · simp only [List.forall_mem_cons]
    exact ⟨plain_int _, plain_int _, plain_int _, plain_int _, nofun⟩

end Rect

namespace WindowInfo

variable {w : WindowInfo}

def fields (w : WindowInfo) : List (String × Value) :=
  [("id", .text w.id), ("pane_id", .text w.pane), ("anchor", .ident false w.anchor.name),
      ("type", .ident false w.windowType.name),
      ("internal_type", .ident false w.internalType.name), ("visible", flag w.visible),
      ("active_on_start", flag w.activeOnStart), ("auto_hide", flag w.autoHide),
      ("split", flag w.split), ("order", int w.order), ("weight", w.weight.toValue),
      ("side_weight", w.sideWeight.toValue)]
    ++ (w.floatingBounds.map fun r ↦ ("floating_bounds", Value.option true r.toValue)).toList
    ++ [("maximized", flag w.maximized), ("content_ui_type", .ident false w.contentUi.name),
      ("show_stripe_button", flag w.showStripeButton)]

theorem toValue_eq (w : WindowInfo) : w.toValue = .record none w.fields := rfl

def fieldNames : List String :=
  ["id", "pane_id", "anchor", "type", "internal_type", "visible", "active_on_start", "auto_hide",
    "split", "order", "weight", "side_weight", "floating_bounds", "maximized", "content_ui_type",
    "show_stripe_button"]

theorem names_sublist (w : WindowInfo) : (w.fields.map Prod.fst).Sublist fieldNames := by
  unfold fields
  cases w.floatingBounds with
  | none => simp [fieldNames]
  | some r => simp [fieldNames]

theorem nodup_fields (w : WindowInfo) : (w.fields.map Prod.fst).Nodup :=
  w.names_sublist.nodup (by decide)

theorem optional_floatingBounds (w : WindowInfo) :
    Stored.optional w.fields "floating_bounds" (Rect.ofOption? .none) none =
      some w.floatingBounds := by
  cases hb : w.floatingBounds with
  | none => exact optional_of_notMem (by simp [fields, hb])
  | some r => exact optional_of_mem w.nodup_fields (by simp [fields, hb]) (Rect.ofOption?_toValue r)

theorem optional_text {name s d : String} (h : (name, .text s) ∈ w.fields) :
    Stored.optional w.fields name text? d = some s :=
  optional_of_mem w.nodup_fields h rfl

theorem optional_flag {name : String} {b d : Bool} (h : (name, flag b) ∈ w.fields) :
    Stored.optional w.fields name flag? d = some b :=
  optional_of_mem w.nodup_fields h (flag?_flag b)

theorem optional_name {α : Type} {ofName? : String → Option α} {name s : String} {x d : α}
    (h : (name, .ident false s) ∈ w.fields) (hname : ofName? s = some x) :
    Stored.optional w.fields name (name? ofName?) d = some x :=
  optional_of_mem w.nodup_fields h hname

theorem ofValue?_toValue (hw : w.weight.isNaN = false) (hs : w.sideWeight.isNaN = false) :
    ofValue? .none w.toValue = some { w with persisted := false } := by
  have hid (d) : Stored.optional w.fields "id" text? d = some w.id :=
    optional_text (by simp [fields])
  have hpane (d) : Stored.optional w.fields "pane_id" text? d = some w.pane :=
    optional_text (by simp [fields])
  have hanchor (d) : Stored.optional w.fields "anchor" (name? Anchor.ofName?) d = some w.anchor :=
    optional_name (by simp [fields]) (Anchor.ofName?_name _)
  have htype (d) : Stored.optional w.fields "type" (name? WindowType.ofName?) d =
      some w.windowType :=
    optional_name (by simp [fields]) (WindowType.ofName?_name _)
  have hinternal (d) : Stored.optional w.fields "internal_type" (name? WindowType.ofName?) d =
      some w.internalType :=
    optional_name (by simp [fields]) (WindowType.ofName?_name _)
  have hvisible (d) : Stored.optional w.fields "visible" flag? d = some w.visible :=
    optional_flag (by simp [fields])
  have hactive (d) : Stored.optional w.fields "active_on_start" flag? d = some w.activeOnStart :=
    optional_flag (by simp [fields])
  have hautoHide (d) : Stored.optional w.fields "auto_hide" flag? d = some w.autoHide :=
    optional_flag (by simp [fields])
  have hsplit (d) : Stored.optional w.fields "split" flag? d = some w.split :=
    optional_flag (by simp [fields])
  have horder (d) : Stored.optional w.fields "order" int? d = some w.order :=
    optional_of_mem w.nodup_fields (show ("order", int w.order) ∈ _ by simp [fields]) (int?_int _)
  have hweight (d) : Stored.optional w.fields "weight" Weight.ofValue? d = some w.weight :=
    optional_of_mem w.nodup_fields (show ("weight", w.weight.toValue) ∈ _ by simp [fields])
      (Weight.ofValue?_toValue hw)
  have hside (d) : Stored.optional w.fields "side_weight" Weight.ofValue? d = some w.sideWeight :=
    optional_of_mem w.nodup_fields (show ("side_weight", w.sideWeight.toValue) ∈ _ by simp [fields])
      (Weight.ofValue?_toValue hs)
  have hmaximized (d) : Stored.optional w.fields "maximized" flag? d = some w.maximized :=
    optional_flag (by simp [fields])
  have hui (d) : Stored.optional w.fields "content_ui_type" (name? ContentUi.ofName?) d =
      some w.contentUi :=
    optional_name (by simp [fields]) (ContentUi.ofName?_name _)
  have hshow (d) : Stored.optional w.fields "show_stripe_button" flag? d =
      some w.showStripeButton :=
    optional_flag (by simp [fields])
  have hbounds : Stored.optional w.fields "floating_bounds" (Rect.ofOption? .none)
      (WindowInfo.new "" .left).floatingBounds = some w.floatingBounds :=
    optional_floatingBounds w
  rw [toValue_eq, ofValue?, fields?_record, Option.bind_eq_bind, Option.bind_some]
  dsimp only
  rw [hid, hpane, hanchor, htype, hinternal, hvisible, hactive, hautoHide, hsplit, horder, hweight,
    hside, hbounds, hmaximized, hui, hshow]
  rfl

theorem plain_toValue (hweight : w.weight.isNaN = false) (hside : w.sideWeight.isNaN = false) :
    w.toValue.Plain := by
  have hletters : ∀ name ∈ fieldNames, name ≠ "" ∧ name.toList.all fun c ↦ c.isAlpha || c == '_' :=
    by decide
  have hname : ∀ p ∈ w.fields, isName p.1 := fun p hp ↦
    have hletters := hletters _ (w.names_sublist.subset (List.mem_map_of_mem hp))
    isName_of_isAlpha hletters.1 hletters.2
  refine .record (by simp) hname ?_
  simp only [List.forall_mem_append, List.forall_mem_cons]
  refine ⟨⟨⟨.text _, .text _, w.anchor.plain_name, w.windowType.plain_name,
    w.internalType.plain_name, plain_flag _, plain_flag _, plain_flag _, plain_flag _, plain_int _,
    Weight.plain_toValue hweight, Weight.plain_toValue hside, nofun⟩, ?_⟩,
    plain_flag _, w.contentUi.plain_name, plain_flag _, nofun⟩
  cases w.floatingBounds with
  | none => exact nofun
  | some r => exact List.forall_mem_cons.2 ⟨.option r.plain_toValue, nofun⟩

theorem depth_toValue_le (w : WindowInfo) : w.toValue.depth ≤ 5 := by
  have hfields : ∀ p ∈ w.fields, p.2.depth < 4 := by
    unfold fields
    cases w.floatingBounds with
    | none => simp [flag, int, Value.depth, Weight.depth_toValue]
    | some r =>
      simp [flag, int, Rect.toValue, Value.depth, Value.depthOfFields, Weight.depth_toValue]
  have hdepth := Value.depthOfFields_le hfields
  rw [toValue_eq, Value.depth]
  omega

end WindowInfo

namespace Layout

variable {l : Layout} {ws : List WindowInfo}

theorem mem_setWeights {a : Anchor} {w : Weight} :
    (a, w) ∈ l.setWeights ↔ l.unified.get a = some w := by
  simp only [setWeights, List.mem_filterMap, Option.map_eq_some_iff, Prod.mk.injEq]
  constructor
  · rintro ⟨_, -, _, h, rfl, rfl⟩
    exact h
  · exact fun h ↦ ⟨a, a.mem_all, w, h, rfl, rfl⟩

theorem depth_toValue_le (l : Layout) : l.toValue.depth ≤ 9 := by
  have hwindows : Value.depthOfItems (l.windows.map WindowInfo.toValue) ≤ 6 :=
    Value.depthOfItems_le (List.forall_mem_map.2 fun w _ ↦ Nat.lt_succ_of_le w.depth_toValue_le)
  have hweights : Value.depthOfEntries
      (l.setWeights.map fun p ↦ (.ident false p.1.name, p.2.toValue)) ≤ 1 :=
    Value.depthOfEntries_le (List.forall_mem_map.2 fun p _ ↦ by
      simp [Value.depth, Weight.depth_toValue])
  simp only [toValue, Value.depth, Value.depthOfFields]
  omega

theorem plain_toValue
    (hwindows : ∀ w ∈ l.windows, w.weight.isNaN = false ∧ w.sideWeight.isNaN = false)
    (hunified : ∀ p ∈ l.setWeights, p.2.isNaN = false) : l.toValue.Plain := by
  refine .record (List.cons_ne_nil _ _) ?_ ?_
  · simp only [List.forall_mem_cons]
    exact ⟨isName_of_isAlpha (by decide) (by decide), isName_of_isAlpha (by decide) (by decide),
      nofun⟩
  · simp only [List.forall_mem_cons]
    refine ⟨.list (List.forall_mem_map.2 fun w hw ↦ ?_), .map ?_ ?_, nofun⟩
    · exact WindowInfo.plain_toValue (hwindows w hw).1 (hwindows w hw).2
    · exact List.forall_mem_map.2 fun p _ ↦ p.1.plain_name
    · exact List.forall_mem_map.2 fun p hp ↦ Weight.plain_toValue (hunified p hp)

theorem windowsOfValue?_toValue
    (h : ∀ w ∈ ws, w.weight.isNaN = false ∧ w.sideWeight.isNaN = false) :
    windowsOfValue? .none (.list (ws.map WindowInfo.toValue)) =
      some (ws.map fun w ↦ { w with persisted := false }) := by
  simp only [windowsOfValue?]
  induction ws with
  | nil => rfl
  | cons w ws ih =>
    have hw := h w (.head _)
    rw [List.map_cons, List.mapM_cons, WindowInfo.ofValue?_toValue hw.1 hw.2,
      ih fun w hw ↦ h w (.tail _ hw)]
    rfl

def weightEntry (p : Anchor × Weight) : Value × Value := (.ident false p.1.name, p.2.toValue)

def fields (l : Layout) : List (String × Value) :=
  [("windows", .list (l.windows.map WindowInfo.toValue)),
    ("unified_weights", .map (l.setWeights.map weightEntry))]

theorem toValue_eq (l : Layout) : l.toValue = .record none l.fields := rfl

theorem weightsOfEntries?_from {as : List Anchor} {t acc : PerAnchor (Option Weight)}
    (hacc : ∀ b, acc.get b = t.get b ∨ b ∈ as ∧ acc.get b = none)
    (hnum : ∀ b w, t.get b = some w → w.isNaN = false) :
    ((as.filterMap fun a ↦ (t.get a).map (a, ·)).map weightEntry).foldlM
      (fun weights entry ↦ do
        return weights.set (← name? Anchor.ofName? entry.1) (some (← Weight.ofValue? entry.2)))
      acc = some t := by
  induction as generalizing acc with
  | nil =>
    have heq : acc = t := PerAnchor.ext_get fun b ↦ (hacc b).resolve_right (by simp)
    rw [heq]
    rfl
  | cons a as ih =>
    cases ha : t.get a with
    | none =>
      simp only [List.filterMap_cons, ha, Option.map_none]
      refine ih fun b ↦ ?_
      obtain h | ⟨hb, hnone⟩ := hacc b
      · exact .inl h
      · obtain rfl | hb := List.mem_cons.1 hb
        · exact .inl (hnone.trans ha.symm)
        · exact .inr ⟨hb, hnone⟩
    | some w =>
      have hname : name? Anchor.ofName? (weightEntry (a, w)).1 = some a := Anchor.ofName?_name a
      have hweight : Weight.ofValue? (weightEntry (a, w)).2 = some w :=
        Weight.ofValue?_toValue (hnum a w ha)
      simp only [List.filterMap_cons, ha, Option.map_some, List.map_cons, List.foldlM_cons, hname,
        hweight, Option.bind_eq_bind, Option.bind_some]
      refine ih fun b ↦ ?_
      rw [PerAnchor.get_set]
      split
      case isTrue hb => exact .inl (hb ▸ ha.symm)
      case isFalse hb =>
        exact (hacc b).imp_right fun ⟨hmem, hnone⟩ ↦ ⟨List.mem_of_ne_of_mem hb hmem, hnone⟩

theorem weightsOfValue?_toValue (h : ∀ p ∈ l.setWeights, p.2.isNaN = false) :
    weightsOfValue? (.map (l.setWeights.map weightEntry)) = some l.unified :=
  weightsOfEntries?_from (fun b ↦ .inr ⟨b.mem_all, PerAnchor.get_const _ _⟩)
    fun _ _ hw ↦ h _ (mem_setWeights.2 hw)

theorem windows_foldl_put (h : (l.ids ++ ws.map WindowInfo.id).Nodup) :
    (ws.foldl put l).windows = l.windows ++ ws := by
  induction ws generalizing l with
  | nil => exact (List.append_nil _).symm
  | cons w ws ih =>
    have hnot : ¬ l.contains w.id := fun hc ↦
      (List.nodup_append.1 h).2.2 _ (contains_eq_true_iff.1 hc) _ (.head _) rfl
    have hput : (l.put w).windows = l.windows ++ [w] := by rw [put, dif_neg hnot]
    have hids : (l.put w).ids = l.ids ++ [w.id] := by rw [ids_put, if_neg hnot]
    rw [List.foldl_cons, ih (by rw [hids]; simpa using h), hput]
    simp

theorem windows_loaded (t : PerAnchor (Option Weight)) (h : (ws.map WindowInfo.id).Nodup) :
    (loaded ws t).windows = ws.map fun w ↦ { w with persisted := true } := by
  have hids : (ws.map fun w : WindowInfo ↦ { w with persisted := true }).map WindowInfo.id =
      ws.map WindowInfo.id := List.map_map
  exact (windows_foldl_put (l := empty) (by rw [hids]; exact h)).trans (List.nil_append _)

theorem map_toValue_persisted (b : Bool) :
    (ws.map fun w ↦ { w with persisted := b }).map WindowInfo.toValue = ws.map WindowInfo.toValue :=
  List.map_map

theorem ofValue?_toValue
    (hwindows : ∀ w ∈ l.windows, w.weight.isNaN = false ∧ w.sideWeight.isNaN = false)
    (hunified : ∀ p ∈ l.setWeights, p.2.isNaN = false) :
    ofValue? .none l.toValue = some (.loaded (l.windows.map fun w ↦ { w with persisted := false })
      l.unified) := by
  have hn : (l.fields.map Prod.fst).Nodup := by simp [fields]
  have hlist : Stored.optional l.fields "windows" (windowsOfValue? .none) [] = _ :=
    optional_of_mem hn (.head _) (windowsOfValue?_toValue hwindows)
  have hmap : Stored.optional l.fields "unified_weights" weightsOfValue? (.const none) = _ :=
    optional_of_mem hn (.tail _ (.head _)) (weightsOfValue?_toValue hunified)
  rw [toValue_eq]
  simp only [ofValue?, fields?_record, hlist, hmap, Option.bind_eq_bind, Option.bind_some]
  rfl

/-- The text of a layout is read as that layout with all windows marked as loaded, which has the
same text. -/
theorem read?_write_of_numbers (l : Layout)
    (hwindows : ∀ w ∈ l.windows, w.weight.isNaN = false ∧ w.sideWeight.isNaN = false)
    (hunified : ∀ p ∈ l.setWeights, p.2.isNaN = false) :
    ∃ m, read? l.write = some m ∧ m.ids = l.ids ∧
      m.windows = l.windows.map (fun w ↦ { w with persisted := true }) ∧
      m.unified = l.unified ∧ m.write = l.write := by
  have htext : Value.read? l.write = some (.none, l.toValue) :=
    (plain_toValue hwindows hunified).read?_write (l.depth_toValue_le.trans (by decide))
  have hread : read? l.write = some (.loaded (l.windows.map fun w ↦ { w with persisted := false })
      l.unified) := by
    simp only [read?, htext, Option.bind_eq_bind, Option.bind_some,
      ofValue?_toValue hwindows hunified]
  have hids : (l.windows.map fun w ↦ { w with persisted := false }).map WindowInfo.id = l.ids :=
    List.map_map
  have hloaded : (loaded (l.windows.map fun w ↦ { w with persisted := false }) l.unified).windows =
      l.windows.map fun w ↦ { w with persisted := true } := by
    -- each window is added in turn, at the end as long as no two have one id
    rw [windows_loaded _ (hids ▸ l.nodup)]
    exact List.map_map
  refine ⟨_, hread, ?_, hloaded, rfl, ?_⟩
  · rw [ids, hloaded]
    exact List.map_map
  · simp only [write, toValue, setWeights, hloaded, map_toValue_persisted]
    rfl

def saved : Layout :=
  { ofList [{ WindowInfo.new "a \"b\"\\ü" .left with
        pane := "line\nbreak"
        visible := true
        order := 0 },
      { WindowInfo.new "Find" .bottom with
        windowType := .floating
        order := -2147483648
        weight := .infinity
        floatingBounds := some ⟨-100, 100, 640, 480⟩ }] with
    unified := (PerAnchor.const none).set .left (some (Weight.ofDecimal false 1 (-1))) }

theorem reads_saved :
    (∀ w ∈ saved.windows, w.weight.isNaN = false ∧ w.sideWeight.isNaN = false) ∧
      (∀ p ∈ saved.setWeights, p.2.isNaN = false) ∧
      ∃ m, read? saved.write = some m ∧ m.ids = saved.ids ∧
        m.windows = saved.windows.map (fun w ↦ { w with persisted := true }) ∧
        m.unified = saved.unified ∧ m.write = saved.write := by
  have hwindows : ∀ w ∈ saved.windows, w.weight.isNaN = false ∧ w.sideWeight.isNaN = false := by
    decide +kernel
  have hunified : ∀ p ∈ saved.setWeights, p.2.isNaN = false := by decide +kernel
  exact ⟨hwindows, hunified, read?_write_of_numbers saved hwindows hunified⟩

end Layout

end ToolDock

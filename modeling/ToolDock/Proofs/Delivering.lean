import Mathlib.Algebra.GroupWithZero.Nat
import ToolDock.Proofs.Posting
import ToolDock.Proofs.Requests

/-!
How layouts that were scheduled arrive. Several schedulers ask for layouts with delays of their own,
time passes, and now and then what arrived is applied. When a layout arrives is said of the inputs
alone, without an engine. Main statement: `delivered_as_scheduled`.
-/

namespace ToolDock.Engine

/-- What happens to a mailbox. -/
inductive Input where
  | schedule (scheduler : Nat) (layout : Layout) (delay : Nat)
  | advance (elapsed : Nat)
  | apply

namespace Input

def elapsed : Input → Nat
  | schedule .. => 0
  | advance elapsed => elapsed
  | apply => 0

def isAdvance : Input → Bool
  | advance _ => true
  | _ => false

/-- What an input leaves of an engine, also if a layout cannot be applied. -/
def run (e : Engine) : Input → Engine
  | schedule scheduler layout delay => e.schedule scheduler layout delay
  | advance elapsed => e.advance elapsed
  | apply => leftBy (applyScheduled.run e)

end Input

variable {start i j k : Nat} {inputs : List Input} {p q : Pending Nat Layout}

/-- The engine after the first `i` inputs. -/
def after (e : Engine) (inputs : List Input) (i : Nat) : Engine :=
  (inputs.take i).foldl Input.run e

def clock (start : Nat) (inputs : List Input) (i : Nat) : Nat :=
  start + ((inputs.take i).map Input.elapsed).sum

def request? (start : Nat) (inputs : List Input) (j : Nat) : Option (Pending Nat Layout) :=
  match inputs[j]? with
  | some (.schedule scheduler layout delay) =>
    some ⟨scheduler, clock start inputs j + delay, layout⟩
  | _ => none

def Reaches (start : Nat) (inputs : List Input) (i due : Nat) : Prop :=
  (inputs[i]?).any Input.isAdvance ∧ due ≤ clock start inputs (i + 1)

/-- What the `j`-th input asks for is still to be delivered before the `i`-th: no input between them
took the clock to when it is due, and none asked the same scheduler for another layout. -/
structure Waits (start : Nat) (inputs : List Input) (p : Pending Nat Layout) (j i : Nat) :
    Prop where
  request : request? start inputs j = some p
  lt : j < i
  early : ∀ k, j < k → k < i → ¬ Reaches start inputs k p.due
  last : ∀ k q, j < k → k < i → request? start inputs k = some q → q.key ≠ p.key

/-- What the `j`-th input asks for is delivered by the `i`-th, the first after it that takes the
clock to when it is due. -/
def Delivers (start : Nat) (inputs : List Input) (j i : Nat) : Prop :=
  ∃ p, Waits start inputs p j i ∧ Reaches start inputs i p.due

theorem waits_succ : Waits start inputs p j (i + 1) ↔ request? start inputs j = some p ∧
    (j = i ∨ Waits start inputs p j i ∧ ¬ Reaches start inputs i p.due ∧
      ∀ q, request? start inputs i = some q → q.key ≠ p.key) := by
  constructor
  · intro h
    refine ⟨h.request, (Nat.lt_succ_iff_lt_or_eq.1 h.lt).symm.imp_right fun hlt ↦ ?_⟩
    exact ⟨⟨h.request, hlt, fun k hj hk ↦ h.early k hj (Nat.lt_succ_of_lt hk),
      fun k q hj hk ↦ h.last k q hj (Nat.lt_succ_of_lt hk)⟩,
      h.early i hlt (Nat.lt_succ_self i), fun q ↦ h.last i q hlt (Nat.lt_succ_self i)⟩
  · rintro ⟨hp, rfl | ⟨h, hearly, hlast⟩⟩
    · exact ⟨hp, Nat.lt_succ_self j, fun k hj hk ↦ by omega, fun k q hj hk ↦ by omega⟩
    · refine ⟨hp, Nat.lt_succ_of_lt h.lt, fun k hj hk ↦ ?_, fun k q hj hk ↦ ?_⟩
      · rcases Nat.lt_succ_iff_lt_or_eq.1 hk with hk | rfl
        · exact h.early k hj hk
        · exact hearly
      · rcases Nat.lt_succ_iff_lt_or_eq.1 hk with hk | rfl
        · exact h.last k q hj hk
        · exact hlast q

theorem Delivers.unique (h : Delivers start inputs j i) (h' : Delivers start inputs j k) :
    i = k := by
  obtain ⟨p, hw, hr⟩ := h
  obtain ⟨q, hw', hr'⟩ := h'
  obtain rfl : p = q := Option.some.inj (hw.request.symm.trans hw'.request)
  rcases Nat.lt_trichotomy i k with hlt | heq | hlt
  · exact absurd hr (hw'.early i hw.lt hlt)
  · exact heq
  · exact absurd hr' (hw.early k hw'.lt hlt)

/-- What the `j`-th input asks for, if it asks for a layout. -/
def requested (start : Nat) (inputs : List Input) (j : Nat) : Pending Nat Layout :=
  (request? start inputs j).getD ⟨0, 0, .empty⟩

theorem requested_eq (h : request? start inputs j = some p) : requested start inputs j = p := by
  rw [requested, h, Option.getD_some]

theorem delivers_iff : Delivers start inputs j i ↔
    Waits start inputs (requested start inputs j) j i ∧
      Reaches start inputs i (requested start inputs j).due := by
  constructor
  · rintro ⟨p, hw, hr⟩
    rw [requested_eq hw.request]
    exact ⟨hw, hr⟩
  · exact fun h ↦ ⟨_, h⟩

theorem waits_iff : Waits start inputs p j i ↔ request? start inputs j = some p ∧ j < i ∧
    (∀ k < i, j < k → ¬ Reaches start inputs k p.due) ∧
      ∀ k < i, j < k → (request? start inputs k).all (·.key != p.key) := by
  simp only [Option.all_eq_true, bne_iff_ne]
  constructor
  · intro h
    exact ⟨h.request, h.lt, fun k hk hj ↦ h.early k hj hk, fun k hk hj q ↦ h.last k q hj hk⟩
  · rintro ⟨hp, hlt, hearly, hlast⟩
    exact ⟨hp, hlt, fun k hj hk ↦ hearly k hk hj, fun k q hj hk ↦ hlast k hk hj q⟩

instance (due : Nat) : Decidable (Reaches start inputs i due) :=
  inferInstanceAs (Decidable (_ ∧ _))

instance : Decidable (Waits start inputs p j i) := decidable_of_iff _ waits_iff.symm

instance : Decidable (Delivers start inputs j i) := decidable_of_iff _ delivers_iff.symm

/-- The inputs among the first `i` whose layouts are still to be delivered. -/
def waiting (start : Nat) (inputs : List Input) (i : Nat) : List Nat :=
  (List.range i).filter fun j ↦ Waits start inputs (requested start inputs j) j i

/-- The inputs whose layouts the `i`-th delivers, in the order in which they are due. -/
def arrivals (start : Nat) (inputs : List Input) (i : Nat) : List Nat :=
  ((List.range i).filter fun j ↦ Delivers start inputs j i).mergeSort fun j k ↦
    (requested start inputs j).due ≤ (requested start inputs k).due

theorem mem_arrivals : j ∈ arrivals start inputs i ↔ Delivers start inputs j i := by
  simp only [arrivals, List.mem_mergeSort, List.mem_filter, List.mem_range, decide_eq_true_eq]
  exact ⟨And.right, fun h ↦ ⟨(delivers_iff.1 h).1.lt, h⟩⟩

theorem nodup_arrivals : (arrivals start inputs i).Nodup :=
  (List.mergeSort_perm _ _).nodup_iff.2 (List.nodup_range.filter _)

def stays (start : Nat) (inputs : List Input) (i : Nat) (p : Pending Nat Layout) : Bool :=
  ¬ Reaches start inputs i p.due ∧ (request? start inputs i).all (·.key != p.key)

theorem waiting_succ : (waiting start inputs (i + 1)).map (requested start inputs) =
    ((waiting start inputs i).map (requested start inputs)).filter (stays start inputs i) ++
      (request? start inputs i).toList := by
  rw [waiting, List.range_succ, List.filter_append, List.map_append, waiting, List.filter_map,
    List.filter_filter]
  congr 1
  · refine congrArg _ (List.filter_congr fun j hj ↦ ?_)
    have hne : j ≠ i := Nat.ne_of_lt (List.mem_range.1 hj)
    rw [Bool.eq_iff_iff]
    simp only [Function.comp, stays, decide_eq_true_eq, Bool.and_eq_true, waits_succ, hne,
      false_or, Option.all_eq_true, bne_iff_ne]
    exact ⟨fun h ↦ ⟨h.2.2, h.2.1⟩, fun h ↦ ⟨h.2.request, h.2, h.1⟩⟩
  · cases hi : request? start inputs i with
    | none => simp [waits_succ, hi]
    | some p => simp [waits_succ, hi, requested_eq hi]

theorem after_succ {input : Input} {e : Engine} (h : inputs[i]? = some input) :
    after e inputs (i + 1) = input.run (after e inputs i) := by
  rw [after, List.take_add_one, h, List.foldl_append]
  rfl

theorem clock_succ {input : Input} (h : inputs[i]? = some input) :
    clock start inputs (i + 1) = clock start inputs i + input.elapsed := by
  rw [clock, List.take_add_one, h, List.map_append, List.sum_append, clock]
  simp [Nat.add_assoc]

theorem applyScheduled_run (e : Engine) : applyScheduled.run e =
    (match e.mailbox.getLast? with
      | some layout => do setLayout layout; return true
      | none => return false : Operation Bool).run { e with mailbox := [] } := rfl

theorem post_applied (e : Engine) : (Input.apply.run e).post = (e.scheduled, []) := by
  rw [Input.run, applyScheduled_run]
  cases e.mailbox.getLast? with
  | some layout =>
    exact LeavesPost.run_bind (leavesPost_setLayout layout) (fun _ ↦ leavesPost_pure _) _
  | none => rfl

theorem request?_of (h : ∀ scheduler layout delay,
    inputs[i]? ≠ some (.schedule scheduler layout delay)) : request? start inputs i = none := by
  unfold request?
  split
  case h_1 heq => exact absurd heq (h _ _ _)
  case h_2 => rfl

theorem scheduled_run {e : Engine} {input : Input} (hinput : inputs[i]? = some input)
    (hnow : e.scheduled.now = clock start inputs i) : (input.run e).scheduled =
      ⟨clock start inputs (i + 1),
        e.scheduled.pending.filter (stays start inputs i) ++ (request? start inputs i).toList⟩ := by
  rw [clock_succ hinput]
  cases input with
  | schedule scheduler layout delay =>
    have hr : request? start inputs i =
        some ⟨scheduler, clock start inputs i + delay, layout⟩ := by rw [request?, hinput]
    have hstays : stays start inputs i = (·.key != scheduler) := by
      funext p
      rw [Bool.eq_iff_iff]
      simpa [stays, Reaches, hinput, Input.isAdvance, hr] using ne_comm
    change e.scheduled.schedule scheduler delay layout = _
    rw [Debouncer.schedule, Debouncer.cancel, hstays, hr, hnow]
    rfl
  | advance elapsed =>
    have hr : request? start inputs i = none := request?_of (by simp [hinput])
    have hstays : stays start inputs i =
        (!Debouncer.isDueBy (clock start inputs i + elapsed) ·) := by
      funext p
      rw [Bool.eq_iff_iff]
      simp [stays, Reaches, hinput, Input.isAdvance, hr, clock_succ hinput, Input.elapsed,
        Debouncer.isDueBy]
    change (e.scheduled.advance elapsed).2 = _
    rw [Debouncer.advance, hstays, hr, hnow, Option.toList_none, List.append_nil]
    rfl
  | apply =>
    have hr : request? start inputs i = none := request?_of (by simp [hinput])
    have hstays : stays start inputs i = fun _ ↦ true := by
      funext p
      simp [stays, Reaches, hinput, Input.isAdvance, hr]
    have happlied := congrArg Prod.fst (post_applied e)
    change (Input.apply.run e).scheduled = _ at happlied
    rw [happlied, hstays, hr, List.filter_true, Option.toList_none, List.append_nil, ← hnow]
    rfl

theorem scheduled_after {e : Engine} (hpending : e.scheduled.pending = [])
    (hi : i ≤ inputs.length) : (after e inputs i).scheduled =
      ⟨clock e.scheduled.now inputs i,
        (waiting e.scheduled.now inputs i).map (requested e.scheduled.now inputs)⟩ := by
  generalize hstart : e.scheduled.now = start
  induction i with
  | zero =>
    have hscheduled : e.scheduled = ⟨start, []⟩ := by rw [← hpending, ← hstart]
    simpa [after, clock, waiting] using hscheduled
  | succ i ih =>
    have ih := ih (by omega)
    have hinput : inputs[i]? = some inputs[i] := List.getElem?_eq_getElem (by omega)
    rw [after_succ hinput, scheduled_run hinput (congrArg Debouncer.now ih), ih, waiting_succ]

theorem mailbox_advance {e : Engine} {elapsed : Nat} (hpending : e.scheduled.pending = [])
    (h : inputs[i]? = some (.advance elapsed)) : (after e inputs (i + 1)).mailbox =
      (after e inputs i).mailbox ++ (arrivals e.scheduled.now inputs i).map fun j ↦
        (requested e.scheduled.now inputs j).value := by
  have hi : i ≤ inputs.length := Nat.le_of_lt (List.getElem?_eq_some_iff.1 h).1
  rw [after_succ h]
  change _ ++ ((after e inputs i).scheduled.advance elapsed).1.map Pending.value = _
  congr 1
  rw [scheduled_after hpending hi]
  generalize e.scheduled.now = start
  have hdue : ((waiting start inputs i).map (requested start inputs)).filter
      (Debouncer.isDueBy (clock start inputs i + elapsed)) =
        ((List.range i).filter fun j ↦ Delivers start inputs j i).map (requested start inputs) := by
    rw [List.filter_map, waiting, List.filter_filter]
    refine congrArg _ (List.filter_congr fun j _ ↦ ?_)
    rw [Bool.eq_iff_iff, decide_eq_true_eq, delivers_iff, Bool.and_eq_true, decide_eq_true_eq,
      and_comm]
    simp [Reaches, h, Input.isAdvance, clock_succ h, Input.elapsed, Debouncer.isDueBy]
  rw [Debouncer.advance, hdue, arrivals, ← List.map_mergeSort (r := fun j k ↦
    (requested start inputs j).due ≤ (requested start inputs k).due) fun _ _ _ _ ↦ rfl,
    List.map_map]
  rfl

theorem arrivals_of_not (h : (inputs[i]?).any Input.isAdvance = false) :
    arrivals start inputs i = [] := by
  refine List.eq_nil_iff_forall_not_mem.2 fun j hj ↦ ?_
  obtain ⟨p, -, hr, -⟩ := mem_arrivals.1 hj
  exact Bool.false_ne_true (h.symm.trans hr)

theorem mailbox_applied {e : Engine} (h : inputs[i]? = some .apply) :
    (after e inputs (i + 1)).mailbox = [] := by
  rw [after_succ h]
  exact congrArg Prod.snd (post_applied (after e inputs i))

/-- As long as none are applied, all layouts that arrive stay in the mailbox. -/
theorem mailbox_collects {e : Engine} {n : Nat} (hpending : e.scheduled.pending = [])
    (hn : i + n ≤ inputs.length) (hno : ∀ j < n, inputs[i + j]? ≠ some .apply) :
    (after e inputs (i + n)).mailbox = (after e inputs i).mailbox ++
      ((List.range' i n).flatMap (arrivals e.scheduled.now inputs)).map fun j ↦
        (requested e.scheduled.now inputs j).value := by
  induction n with
  | zero => exact (List.append_nil _).symm
  | succ n ih =>
    have ih := ih (by omega) fun j hj ↦ hno j (by omega)
    obtain ⟨input, hinput⟩ : ∃ input, inputs[i + n]? = some input :=
      ⟨inputs[i + n], List.getElem?_eq_getElem (by omega)⟩
    rw [List.range'_concat, Nat.one_mul, List.flatMap_append, List.map_append, ← List.append_assoc,
      ← ih, List.flatMap_singleton]
    cases input with
    | advance elapsed => exact mailbox_advance hpending hinput
    | schedule =>
      rw [← Nat.add_assoc, after_succ hinput, arrivals_of_not (by rw [hinput]; rfl), List.map_nil,
        List.append_nil]
      rfl
    | apply => exact absurd hinput (hno n (by omega))

/-- Layouts arrive as they were asked for, and are applied as they arrived. What an input asks for
arrives once, with the first later input that takes the clock to when it is due, unless the same
scheduler is asked for another layout before. The mailbox holds what arrived since layouts were
applied last. Applying them applies the one that arrived last and drops the others, or changes
nothing if none arrived, and leaves the mailbox empty even if the layout is refused. -/
theorem delivered_as_scheduled {e : Engine} (hpending : e.scheduled.pending = [])
    (hmailbox : e.mailbox = []) (inputs : List Input) :
    (∀ i, (arrivals e.scheduled.now inputs i).Nodup ∧
      ∀ j, j ∈ arrivals e.scheduled.now inputs i ↔ Delivers e.scheduled.now inputs j i) ∧
    (∀ i k j, Delivers e.scheduled.now inputs j i → Delivers e.scheduled.now inputs j k → i = k) ∧
    (∀ i n, i + n ≤ inputs.length → (i = 0 ∨ inputs[i - 1]? = some .apply) →
      (∀ j < n, inputs[i + j]? ≠ some .apply) →
        (after e inputs (i + n)).mailbox =
          ((List.range' i n).flatMap (arrivals e.scheduled.now inputs)).map fun j ↦
            (requested e.scheduled.now inputs j).value) ∧
    ∀ i, inputs[i]? = some .apply → (after e inputs (i + 1)).mailbox = [] ∧
      ((after e inputs i).mailbox = [] →
        applyScheduled.run (after e inputs i) = .ok (.ok false) (after e inputs i)) ∧
      ∀ layout ∈ (after e inputs i).mailbox.getLast?, applyScheduled.run (after e inputs i) =
        (do setLayout layout; return true : Operation Bool).run
          { after e inputs i with mailbox := [] } := by
  refine ⟨fun i ↦ ⟨nodup_arrivals, fun j ↦ mem_arrivals⟩, fun i k j ↦ Delivers.unique,
    fun i n hn hstart hno ↦ ?_, fun i hi ↦ ⟨mailbox_applied hi, fun hnone ↦ ?_, fun l hl ↦ ?_⟩⟩
  · have hempty : (after e inputs i).mailbox = [] := by
      cases i with
      | zero => exact hmailbox
      | succ i => exact mailbox_applied (hstart.resolve_left (Nat.succ_ne_zero i))
    rw [mailbox_collects hpending hn hno, hempty, List.nil_append]
  · have hsame : { after e inputs i with mailbox := [] } = after e inputs i := by rw [← hnone]
    rw [applyScheduled_run, hsame, hnone]
    rfl
  · rw [applyScheduled_run, hl]

def handover : List Input := [.schedule 0 (.ofList [WindowInfo.new "A" .left]) 100,
  .schedule 0 (.ofList [WindowInfo.new "B" .left]) 100, .apply, .advance 150, .apply]

theorem delivered_as_scheduled_handover :
    blank.scheduled.pending = [] ∧ blank.mailbox = [] ∧
      (after blank handover 4).mailbox = [.ofList [WindowInfo.new "B" .left]] ∧
      applyScheduled.run (after blank handover 4) =
        (do setLayout (.ofList [WindowInfo.new "B" .left]); return true : Operation Bool).run
          { after blank handover 4 with mailbox := [] } := by
  obtain ⟨harrivals, -, hmailbox, happly⟩ := delivered_as_scheduled (e := blank) rfl rfl handover
  obtain ⟨hnodup, hmem⟩ := harrivals 3
  have hsecond : arrivals 0 handover 3 = [1] := by
    refine List.perm_singleton.1 ((List.perm_ext_iff_of_nodup hnodup (by simp)).2 ?_)
    intro j
    have hthree : ∀ j < 3, Delivers 0 handover j 3 ↔ j = 1 := by decide +kernel
    rw [List.mem_singleton]
    refine (hmem j).trans ⟨fun h ↦ (hthree j (delivers_iff.1 h).1.lt).1 h, ?_⟩
    rintro rfl
    exact (hthree 1 (by decide)).2 rfl
  have hlast : (after blank handover 4).mailbox = [.ofList [WindowInfo.new "B" .left]] := by
    refine (hmailbox 3 1 (by decide) (Or.inr rfl) fun j hj ↦ ?_).trans ?_
    · rw [Nat.lt_one_iff.1 hj]
      simp [handover]
    · change (arrivals 0 handover 3 ++ []).map _ = _
      rw [hsecond]
      rfl
  exact ⟨rfl, rfl, hlast, (happly 4 rfl).2.2 _ (by rw [hlast]; rfl)⟩

end ToolDock.Engine

import ToolDock.WindowButtons

/-!
The best layout of the title bar's buttons that is known so far. A refresh computes the layout of
the configured text or, where this has none, that of what the settings program says, and nothing if
this has none either. In whatever order cached layouts and refreshes come, the last layout computed
is in use, and as long as there is none, the first one cached. Main statements:
`computed?_eq_some_iff`, `state_run`, `state_after` and `prefers_computed`.
-/

namespace ToolDock

/-- The text is what the output of the settings program says: what is left of it without the blanks
around it, then without apostrophes and then without quotes, unless nothing is left. -/
def IsSetting (output text : String) : Prop :=
  text ≠ "" ∧ ∃ cs cs', Blank.Strips Blank.isBlank output.toList cs ∧
    Blank.Strips (· == '\'') cs cs' ∧ Blank.Strips (· == '"') cs' text.toList

theorem settingText?_eq_some_iff {output text : String} :
    settingText? output = some text ↔ IsSetting output text := by
  simp only [IsSetting, Blank.strips_iff, exists_and_left, exists_eq_left']
  rw [settingText?, ← Blank.trim]
  split
  case isTrue h =>
    rw [List.isEmpty_iff.1 h, eq_comm (a := []), String.toList_eq_nil_iff]
    simp
  case isFalse h =>
    rw [Option.some_inj, ← String.toList_inj, String.toList_ofList]
    constructor
    · intro heq
      refine ⟨?_, heq⟩
      rintro rfl
      exact h (List.isEmpty_iff.2 (heq.trans String.toList_empty))
    · exact And.right

namespace WindowButtons

/-- What may be done with the layout in use. Every refresh has its own probe, which may be the one
that an earlier refresh left, and its own programs, so that it may end in any way. -/
inductive Call where
  | loadCached (layout : ButtonLayout)
  | refresh (override : Option String) (probe : Probe) (installed : Programs)

namespace Call

def run (w : WindowButtons) : Call → WindowButtons
  | loadCached layout => (w.loadCached layout).2
  | refresh override probe installed => (w.refresh override probe installed).1.2

def cached? : Call → Option ButtonLayout
  | loadCached layout => some layout
  | refresh .. => none

def outcome (probe : Probe) (installed : Programs) : ProbeOutcome :=
  (probe.run installed settingsProgram buttonLayoutQuery).1

/-- The layout of the configured text, unless this is empty, and if there is none, that of what the
settings program says when it succeeds. -/
inductive Computes : Call → ButtonLayout → Prop
  | configured {text : String} {probe : Probe} {installed : Programs} {layout : ButtonLayout}
    (hne : text ≠ "") (hlayout : ButtonLayout.parse? text = some layout) :
    Computes (refresh (some text) probe installed) layout
  | reported {override : Option String} {probe : Probe} {installed : Programs}
    {output text : String} {layout : ButtonLayout}
    (hnone : ∀ text ∈ override, text ≠ "" → ButtonLayout.parse? text = none)
    (hsuccess : outcome probe installed = .success output) (htext : IsSetting output text)
    (hlayout : ButtonLayout.parse? text = some layout) :
    Computes (refresh override probe installed) layout

def computed? : Call → Option ButtonLayout
  | loadCached _ => none
  | refresh override probe installed =>
    (configured? override).or
      (((outcome probe installed).output?.bind settingText?).bind ButtonLayout.parse?)

end Call

variable {w : WindowButtons} {override : Option String} {ending : ProbeOutcome} {call : Call}
  {layout : ButtonLayout} {text : String} {calls : List Call}

theorem configured?_eq_some_iff :
    configured? override = some layout ↔
      ∃ text ∈ override, text ≠ "" ∧ ButtonLayout.parse? text = some layout := by
  simp [configured?, Option.bind_eq_some_iff, Option.filter_eq_some_iff, and_assoc]

theorem configured?_eq_none_iff :
    configured? override = none ↔
      ∀ text ∈ override, text ≠ "" → ButtonLayout.parse? text = none := by
  simp [configured?, Option.bind_eq_none_iff, Option.filter_eq_some_iff]

theorem output?_eq_some_iff {output : String} :
    ending.output? = some output ↔ ending = .success output := by
  cases ending <;> simp [ProbeOutcome.output?]

theorem Call.computed?_eq_some_iff : call.computed? = some layout ↔ call.Computes layout := by
  cases call with
  | loadCached cached =>
    constructor
    · intro h
      cases h
    · intro h
      cases h
  | refresh override probe installed =>
    simp only [computed?, Option.or_eq_some_iff, configured?_eq_some_iff, configured?_eq_none_iff,
      Option.bind_eq_some_iff, output?_eq_some_iff, settingText?_eq_some_iff]
    constructor
    · rintro (⟨text, hmem, hne, hlayout⟩ | ⟨hnone, text, ⟨output, hsuccess, htext⟩, hlayout⟩)
      · obtain rfl := Option.mem_def.1 hmem
        exact .configured hne hlayout
      · exact .reported hnone hsuccess htext hlayout
    · rintro (@⟨text, _, _, _, hne, hlayout⟩ | ⟨hnone, hsuccess, htext, hlayout⟩)
      · exact .inl ⟨text, rfl, hne, hlayout⟩
      · exact .inr ⟨hnone, _, ⟨_, hsuccess, htext⟩, hlayout⟩

theorem Call.outcome_eq (probe : Probe) (installed : Programs) :
    Call.outcome probe installed =
      if probe.isKnownMissing settingsProgram then .failure .notFound
      else match installed.lookup settingsProgram with
        | some program => program.run buttonLayoutQuery
        | none => .failure .notFound := by
  have hspawns : (settingsProgram :: buttonLayoutQuery).any (·.contains '\x00') = false := by
    simp [settingsProgram, buttonLayoutQuery]
  rw [Call.outcome, Probe.run]
  split
  · rfl
  · rw [hspawns]
    cases installed.lookup settingsProgram <;> rfl

/-- The layout in use after calls. -/
def after (w : WindowButtons) (calls : List Call) : WindowButtons := calls.foldl Call.run w

theorem state_run (w : WindowButtons) (call : Call) :
    (call.run w).state = call.computed?.or (w.state.or call.cached?) := by
  cases call with
  | loadCached layout =>
    rw [Call.run, loadCached]
    split
    case h_1 h => simp [Call.computed?, h]
    case h_2 h => simp [Call.computed?, Call.cached?, h]
  | refresh override probe installed =>
    rw [Call.run, refresh]
    split
    case h_1 h => simp [Call.computed?, h]
    case h_2 h =>
      simp only [Call.computed?, h, Option.none_or, Call.outcome, Call.cached?, Option.or_none,
        queryButtonLayout]
      split
      case h_1 h => simp [h]
      case h_2 h => simp [h]

theorem state_after (w : WindowButtons) (calls : List Call) :
    (w.after calls).state = (calls.filterMap Call.computed?).getLast?.or
      (w.state.or (calls.filterMap Call.cached?).head?) := by
  induction calls generalizing w with
  | nil => simp [after]
  | cons call calls ih =>
    have hafter : w.after (call :: calls) = (call.run w).after calls := rfl
    -- what the first call computes gives way to all that is computed later, and what it has cached
    -- goes before all that is cached later
    have hlast : ((call :: calls).filterMap Call.computed?).getLast? =
        (calls.filterMap Call.computed?).getLast?.or call.computed? := by
      rw [List.filterMap_cons]
      cases call.computed? with
      | none => exact Option.or_none.symm
      | some layout => rw [List.getLast?_cons, Option.or_some]
    have hfirst : ((call :: calls).filterMap Call.cached?).head? =
        call.cached?.or (calls.filterMap Call.cached?).head? := by
      rw [List.filterMap_cons]
      cases call.cached? <;> rfl
    rw [hafter, ih, state_run, hlast, hfirst]
    simp only [Option.or_assoc]

/-- After any calls the layout in use is the last one that a refresh computed and, if none did, the
first one cached; there is none if none was cached either. So once a layout was computed, neither a
refresh that computes none nor a cached layout that comes late changes it. -/
theorem prefers_computed (calls : List Call) :
    (new.after calls).state =
        (calls.filterMap Call.computed?).getLast?.or (calls.filterMap Call.cached?).head? ∧
      (∀ (call : Call) (layout : ButtonLayout),
        call.computed? = some layout ↔ call.Computes layout) ∧
      ∀ later : List Call, (∃ call ∈ calls, call.computed?.isSome = true) →
        (∀ call ∈ later, call.computed? = none) →
          (new.after (calls ++ later)).state = (new.after calls).state := by
  refine ⟨state_after new calls, fun _ _ ↦ Call.computed?_eq_some_iff, fun later hsome hnone ↦ ?_⟩
  have hlater : later.filterMap Call.computed? = [] := List.filterMap_eq_nil_iff.2 hnone
  have hne : calls.filterMap Call.computed? ≠ [] := by
    obtain ⟨call, hmem, hcall⟩ := hsome
    obtain ⟨layout, hlayout⟩ := Option.isSome_iff_exists.1 hcall
    exact List.ne_nil_of_mem (List.mem_filterMap.2 ⟨call, hmem, hlayout⟩)
  rw [state_after, state_after, List.filterMap_append, hlater, List.append_nil,
    List.getLast?_eq_some_getLast hne]
  rfl

/-- The desktop's layout stands in for a configured one with a button twice, and stays in use while
the settings program is missing and when another layout is cached. -/
theorem prefers_computed_reported :
    let output := "'close,minimize:'\n".toList.map fun c ↦ c.toNat.toUInt8
    let desktop := [(settingsProgram, ⟨false, output, .exits 0, true⟩)]
    let calls := [Call.loadCached ⟨true, []⟩, .refresh (some "close:close") .new desktop]
    let later := [Call.refresh none .new [], .loadCached ⟨true, [.maximize]⟩]
    (∃ call ∈ calls, call.computed?.isSome = true) ∧ (∀ call ∈ later, call.computed? = none) ∧
      (new.after (calls ++ later)).state = some ⟨false, [.close, .minimize]⟩ := by
  intro output desktop calls later
  have hreported : (Call.refresh (some "close:close") .new desktop).computed? =
      some ⟨false, [.close, .minimize]⟩ := by
    rw [Call.computed?, Call.outcome_eq]
    decide +kernel
  have hmissing : (Call.refresh none .new []).computed? = none := by
    rw [Call.computed?, Call.outcome_eq]
    decide +kernel
  have hsome : ∃ call ∈ calls, call.computed?.isSome = true :=
    ⟨_, List.mem_cons_of_mem _ (List.mem_singleton_self _), by rw [hreported]; rfl⟩
  have hnone : ∀ call ∈ later, call.computed? = none :=
    List.forall_mem_cons.2 ⟨hmissing, List.forall_mem_singleton.2 rfl⟩
  have hstate : (new.after calls).state = some ⟨false, [.close, .minimize]⟩ := by
    rw [(prefers_computed calls).1, List.filterMap_cons_none (by rfl),
      List.filterMap_cons_some hreported]
    rfl
  exact ⟨hsome, hnone, ((prefers_computed calls).2.2 later hsome hnone).trans hstate⟩

end WindowButtons

end ToolDock

import ToolDock.Proofs.Overlaying

/-!
What brings the overlay up: two presses of the modifier in time. Of the key events that a chord is
told it ignores some, and the others are its history. While it is `pressed`, the last of these was a
press, and while it is `released`, the last two were a press and a release, at a time from which the
deadline counts; so the overlay appears only at a second press before the deadline. The other way
round, nothing that is ignored, no repeated press and no tick before the deadline disturbs a gesture
that began in `waiting`. Main statements: `Recounts.after` and `appears_on_doublePress`.
-/

namespace ToolDock

namespace KeyEvent

/-- Typing while a modifier is held is ignored, and so is a modifier that is not in the mask, or any
with a mouse button down. -/
def isIgnored (mask : Modifiers) (e : KeyEvent) : Bool :=
  if e.code.isModifier then !mask.contains e.code.modifiers || e.mouseButtonDown
  else !e.modifiers.isEmpty

/-- A press of a key of the mask that leaves just the mask held. -/
structure IsPress (mask : Modifiers) (e : KeyEvent) : Prop where
  isModifier : e.code.isModifier = true
  inMask : mask.contains e.code.modifiers = true
  noMouse : e.mouseButtonDown = false
  pressed : e.pressed = true
  modifiers : e.modifiers = mask

/-- A release of a key of the mask. -/
structure IsRelease (mask : Modifiers) (e : KeyEvent) : Prop where
  isModifier : e.code.isModifier = true
  inMask : mask.contains e.code.modifiers = true
  noMouse : e.mouseButtonDown = false
  released : e.pressed = false

end KeyEvent

namespace ChordInput

def time : ChordInput → Nat
  | .key _ now => now
  | .tick now => now

def isIdle (mask : Modifiers) : ChordInput → Bool
  | .key event _ => event.isIgnored mask
  | .tick _ => true

def heeded? (mask : Modifiers) : ChordInput → Option (KeyEvent × Nat)
  | .key event now => if event.isIgnored mask then none else some (event, now)
  | .tick _ => none

/-- The inputs come in the order of their times. -/
def InOrder (is : List ChordInput) : Prop := is.Pairwise fun i j ↦ i.time ≤ j.time

end ChordInput

/-- The events among the inputs that a chord heeds. -/
def heeded (mask : Modifiers) (is : List ChordInput) : List (KeyEvent × Nat) :=
  is.filterMap (ChordInput.heeded? mask)

namespace KeyChord

open KeyEvent ChordInput

variable {k : KeyChord} {e : KeyEvent} {now t : Nat} {mask : Modifiers} {delay : Nat}
  {events : List (KeyEvent × Nat)}

theorem handle_of_isIgnored (hm : k.mask.isEmpty = false) (h : e.isIgnored k.mask = true) :
    k.handle e now = (none, k) := by
  unfold isIgnored at h
  unfold handle
  cases hmod : e.code.isModifier with
  | false =>
    have hheld : e.modifiers.isEmpty = false := by simpa [hmod] using h
    simp [hheld]
  | true =>
    rw [if_pos hmod] at h
    simp [hm, h]

theorem handle_of_isPress (hm : k.mask.isEmpty = false) (h : e.IsPress k.mask) :
    k.handle e now = k.press := by
  simp [handle, h.isModifier, hm, h.inMask, h.noMouse, h.pressed, h.modifiers]

theorem handle_of_isRelease (hm : k.mask.isEmpty = false) (h : e.IsRelease k.mask) :
    k.handle e now = k.release now := by
  simp [handle, h.isModifier, hm, h.inMask, h.noMouse, h.released]

theorem handle_cases (hm : k.mask.isEmpty = false) (h : e.isIgnored k.mask = false) (now : Nat) :
    (e.IsPress k.mask ∧ k.handle e now = k.press) ∨
      (e.IsRelease k.mask ∧ k.handle e now = k.release now) ∨ k.handle e now = k.reset := by
  unfold isIgnored at h
  cases hmod : e.code.isModifier with
  | false =>
    have hnone : e.modifiers.isEmpty = true := by simpa [hmod] using h
    exact .inr (.inr (by simp [handle, hmod, hnone]))
  | true =>
    rw [if_pos hmod, Bool.or_eq_false_iff, Bool.not_eq_false'] at h
    obtain ⟨hin, hmouse⟩ := h
    cases hp : e.pressed with
    | false =>
      have hrelease : e.IsRelease k.mask := ⟨hmod, hin, hmouse, hp⟩
      exact .inr (.inl ⟨hrelease, handle_of_isRelease hm hrelease⟩)
    | true =>
      by_cases hmods : e.modifiers = k.mask
      · have hpress : e.IsPress k.mask := ⟨hmod, hin, hmouse, hp, hmods⟩
        exact .inl ⟨hpress, handle_of_isPress hm hpress⟩
      · exact .inr (.inr (by simp [handle, hmod, hm, hin, hmouse, hp, hmods]))

theorem tick_of_before (h : ∀ d, k.deadline = some d → now < d) : k.tick now = (none, k) := by
  unfold tick
  split
  case h_1 d hd => rw [if_neg (Nat.not_le.2 (h d hd))]
  case h_2 => rfl

theorem Timed.tick_cases (h : Timed k) (now : Nat) :
    ((k.tick now).2 = k ∧ ∀ d, k.deadline = some d → now < d) ∨ (k.tick now).2 = k.reset.2 := by
  by_cases hbefore : ∀ d, k.deadline = some d → now < d
  · exact .inl ⟨congrArg Prod.snd (tick_of_before hbefore), hbefore⟩
  · simp only [not_forall, Nat.not_lt] at hbefore
    obtain ⟨d, hd, hle⟩ := hbefore
    have hreleased : k.state = .released := h.deadline.1 (by rw [hd]; rfl)
    refine .inr ?_
    simp [KeyChord.tick, hd, hle, hreleased, KeyChord.reset]

theorem Timed.deadline_eq_none (h : Timed k) (hs : k.state ≠ .released) : k.deadline = none :=
  Option.not_isSome_iff_eq_none.1 (mt h.deadline.1 hs)

/-- What a chord knows of the events that it has heeded. -/
structure Recounts (mask : Modifiers) (delay : Nat) (events : List (KeyEvent × Nat))
    (k : KeyChord) : Prop where
  mask_eq : k.mask = mask
  delay_eq : k.delay = delay
  timed : Timed k
  /-- While a chord is pressed, its last event was a press. -/
  pressed : k.state = .pressed → ∃ earlier p, events = earlier ++ [p] ∧ p.1.IsPress mask
  /-- While it has a deadline, its last events were a press and a release. -/
  released : ∀ d, k.deadline = some d → ∃ earlier p r, events = earlier ++ [p, r] ∧
    p.1.IsPress mask ∧ r.1.IsRelease mask ∧ d = r.2 + delay

theorem Recounts.new (mask : Modifiers) (delay : Nat) : Recounts mask delay [] (.new mask delay) :=
  ⟨rfl, rfl, .new mask delay, nofun, nofun⟩

theorem Recounts.reset (h : Recounts mask delay events k) (events' : List (KeyEvent × Nat)) :
    Recounts mask delay events' k.reset.2 :=
  ⟨h.mask_eq, h.delay_eq, h.timed.reset.1, nofun, nofun⟩

theorem Recounts.tick (h : Recounts mask delay events k) (now : Nat) :
    Recounts mask delay events (k.tick now).2 := by
  rcases h.timed.tick_cases now with ⟨heq, -⟩ | heq
  · rw [heq]
    exact h
  · rw [heq]
    exact h.reset events

theorem Recounts.press (h : Recounts mask delay events k) (he : e.IsPress mask) (now : Nat) :
    Recounts mask delay (events ++ [(e, now)]) k.press.2 := by
  have htimed := h.timed.press.1
  have hkept : k.press.2.mask = k.mask ∧ k.press.2.delay = k.delay ∧
      k.press.2.state ≠ .released := by
    unfold KeyChord.press
    cases hs : k.state <;> simp [hs, h.timed.unsuppressed]
  obtain ⟨hmask, hdelay, hstate⟩ := hkept
  refine ⟨hmask.trans h.mask_eq, hdelay.trans h.delay_eq, htimed, fun _ ↦ ⟨events, _, rfl, he⟩, ?_⟩
  intro d hd
  rw [htimed.deadline_eq_none hstate] at hd
  cases hd

theorem Recounts.release (h : Recounts mask delay events k) (he : e.IsRelease mask) (now : Nat) :
    Recounts mask delay (events ++ [(e, now)]) (k.release now).2 := by
  have htimed := (h.timed.release now).1
  unfold KeyChord.release at htimed ⊢
  split at htimed
  case isTrue hs =>
    obtain ⟨earlier, p, rfl, hp⟩ := h.pressed hs
    rw [if_pos hs]
    refine ⟨h.mask_eq, h.delay_eq, htimed, nofun, fun d hd ↦ ?_⟩
    cases hd
    exact ⟨earlier, p, (e, now), by simp, hp, he, by rw [h.delay_eq]⟩
  case isFalse hs =>
    rw [if_neg hs]
    exact h.reset _

theorem Recounts.handle (h : Recounts mask delay events k) (hmask : mask.isEmpty = false)
    (hi : e.isIgnored mask = false) (now : Nat) :
    Recounts mask delay (events ++ [(e, now)]) (k.handle e now).2 := by
  obtain rfl := h.mask_eq
  rcases handle_cases hmask hi now with ⟨he, heq⟩ | ⟨he, heq⟩ | heq
  · rw [heq]
    exact h.press he now
  · rw [heq]
    exact h.release he now
  · rw [heq]
    exact h.reset _

theorem Recounts.step (h : Recounts mask delay events k) (hmask : mask.isEmpty = false)
    (i : ChordInput) :
    Recounts mask delay (events ++ (i.heeded? mask).toList) (k.step i).2 := by
  cases i with
  | tick now => simpa [heeded?, KeyChord.step] using h.tick now
  | key e now =>
    have hticked := h.tick now
    cases hi : e.isIgnored mask with
    | true =>
      have hm := hticked.mask_eq
      have hsame : (k.tick now).2.handle e now = (none, (k.tick now).2) :=
        handle_of_isIgnored (hm ▸ hmask) (hm ▸ hi)
      simpa [heeded?, hi, KeyChord.step, onKey, hsame] using hticked
    | false => simpa [heeded?, hi, KeyChord.step, onKey] using hticked.handle hmask hi now

theorem Recounts.after (h : Recounts mask delay events k) (hmask : mask.isEmpty = false)
    (is : List ChordInput) :
    Recounts mask delay (events ++ heeded mask is) (k.after is) := by
  induction is generalizing k events with
  | nil => simpa [heeded, KeyChord.after] using h
  | cons i is ih =>
    have hrest := ih (h.step hmask i)
    have hsplit : heeded mask (i :: is) = (i.heeded? mask).toList ++ heeded mask is := by
      cases hi : i.heeded? mask <;> simp [heeded, hi]
    rw [hsplit, ← List.append_assoc]
    exact hrest

theorem appears_of_handle (hm : k.mask.isEmpty = false)
    (h : (k.handle e now).1 = some .appear) : e.IsPress k.mask ∧ k.state = .released := by
  have hreset : k.reset.1 ≠ some .appear := by
    unfold KeyChord.reset
    split <;> simp
  cases hi : e.isIgnored k.mask with
  | true =>
    rw [handle_of_isIgnored hm hi] at h
    cases h
  | false =>
    rcases handle_cases hm hi now with ⟨he, heq⟩ | ⟨-, heq⟩ | heq
    · refine ⟨he, ?_⟩
      rw [heq] at h
      unfold KeyChord.press at h
      split at h
      case h_2 hs => exact hs
      all_goals cases h
    · rw [heq] at h
      unfold KeyChord.release at h
      split at h
      · cases h
      · exact absurd h hreset
    · rw [heq] at h
      exact absurd h hreset

theorem Recounts.appears (h : Recounts mask delay events k) (hmask : mask.isEmpty = false)
    (ha : (k.onKey e now).1 = some .appear) :
    e.IsPress mask ∧ ∃ earlier p r, events = earlier ++ [p, r] ∧ p.1.IsPress mask ∧
      r.1.IsRelease mask ∧ now < r.2 + delay := by
  have hticked := h.tick now
  have hm := hticked.mask_eq
  obtain ⟨he, hs⟩ := appears_of_handle (hm ▸ hmask) ha
  obtain ⟨d, hd⟩ := Option.isSome_iff_exists.1 (hticked.timed.deadline.2 hs)
  obtain ⟨earlier, p, r, hevents, hp, hr, rfl⟩ := hticked.released d hd
  refine ⟨hm ▸ he, earlier, p, r, hevents, hp, hr, ?_⟩
  rcases h.timed.tick_cases now with ⟨heq, hbefore⟩ | heq
  · exact hbefore _ (heq ▸ hd)
  · rw [heq] at hs
    cases hs

theorem after_append (k : KeyChord) (is js : List ChordInput) :
    k.after (is ++ js) = (k.after is).after js := by
  induction is generalizing k with
  | nil => rfl
  | cons i is ih => exact ih _

theorem after_of_still {is : List ChordInput} (h : ∀ i ∈ is, (k.step i).2 = k) :
    k.after is = k := by
  induction is with
  | nil => rfl
  | cons i is ih =>
    rw [KeyChord.after, h i (List.mem_cons_self ..)]
    exact ih fun j hj ↦ h j (List.mem_cons_of_mem _ hj)

theorem step_of_isIdle {i : ChordInput} (hm : k.mask.isEmpty = false) (hi : i.isIdle k.mask = true)
    (hd : ∀ d, k.deadline = some d → i.time < d) : (k.step i).2 = k := by
  cases i with
  | tick now => exact congrArg Prod.snd (tick_of_before hd)
  | key e now =>
    have htick : k.tick now = (none, k) := tick_of_before hd
    rw [KeyChord.step, onKey, htick, handle_of_isIgnored hm hi]

theorem step_of_isPress (hm : k.mask.isEmpty = false) (he : e.IsPress k.mask)
    (hd : ∀ d, k.deadline = some d → now < d) : k.step (.key e now) = k.press := by
  rw [KeyChord.step, onKey, tick_of_before hd, handle_of_isPress hm he]

theorem step_of_isRelease (hm : k.mask.isEmpty = false) (he : e.IsRelease k.mask)
    (hd : ∀ d, k.deadline = some d → now < d) : k.step (.key e now) = k.release now := by
  rw [KeyChord.step, onKey, tick_of_before hd, handle_of_isRelease hm he]

theorem appears_of_released (hm : k.mask.isEmpty = false) (he : e.IsPress k.mask)
    (hs : k.state = .released) (hun : k.suppressed = false) (hd : k.deadline = some t)
    (hnow : now < t) : (k.onKey e now).1 = some .appear := by
  have hbefore : ∀ d, k.deadline = some d → now < d := fun d hd' ↦ by
    cases hd.symm.trans hd'
    exact hnow
  have hpress := step_of_isPress hm he hbefore
  rw [KeyChord.step] at hpress
  rw [hpress, KeyChord.press, hs]
  simp [hun]

/-- A press, which may be repeated while it lasts, and its release at the given time. Besides, no
event comes that is heeded. -/
inductive IsTap (mask : Modifiers) : List ChordInput → Nat → Prop
  | intro {first release : KeyEvent} {t₁ t₂ : Nat} {held idle : List ChordInput}
    (hfirst : first.IsPress mask)
    (hheld : ∀ i ∈ held, i.isIdle mask = true ∨ ∃ e t, i = .key e t ∧ e.IsPress mask)
    (hrelease : release.IsRelease mask) (hidle : ∀ i ∈ idle, i.isIdle mask = true) :
    IsTap mask (.key first t₁ :: (held ++ .key release t₂ :: idle)) t₂

theorem IsTap.after {is : List ChordInput} {t₂ : Nat} (h : IsTap mask is t₂)
    (hmask : mask.isEmpty = false) (hk : k.mask = mask) (htimed : Timed k)
    (hwaiting : k.state = .waiting) (htimes : ∀ i ∈ is, i.time < t₂ + k.delay) :
    k.after is = { k with state := .released, deadline := some (t₂ + k.delay) } := by
  subst hk
  have hnone : k.deadline = none := htimed.deadline_eq_none (by rw [hwaiting]; decide)
  have hbefore : ∀ now d, k.deadline = some d → now < d := fun _ d hd ↦ by
    rw [hnone] at hd
    cases hd
  obtain @⟨first, release, t₁, _, held, idle, hfirst, hheld, hrelease, hidle⟩ := h
  -- the press is held through whatever comes before its release
  let pressed : KeyChord := { k with state := .pressed }
  have hpressed : (k.step (.key first t₁)).2 = pressed := by
    rw [step_of_isPress hmask hfirst (hbefore t₁), KeyChord.press, hwaiting]
  have hstill : ∀ i ∈ held, (pressed.step i).2 = pressed := by
    intro i hi
    rcases hheld i hi with hi | ⟨e, t, rfl, he⟩
    · exact step_of_isIdle (k := pressed) hmask hi (hbefore _)
    · rw [step_of_isPress (k := pressed) hmask he (hbefore t)]
      rfl
  let released : KeyChord := { k with state := .released, deadline := some (t₂ + k.delay) }
  have hreleased : (pressed.step (.key release t₂)).2 = released := by
    rw [step_of_isRelease (k := pressed) hmask hrelease (hbefore t₂)]
    rfl
  have hidled : ∀ i ∈ idle, (released.step i).2 = released := by
    intro i hi
    refine step_of_isIdle (k := released) hmask (hidle i hi) fun d hd ↦ ?_
    cases hd
    exact htimes i (by simp [hi])
  rw [KeyChord.after, hpressed, after_append, after_of_still hstill, KeyChord.after, hreleased,
    after_of_still hidled]

theorem IsTap.appears {is : List ChordInput} {t₂ : Nat} (h : IsTap mask is t₂)
    (hmask : mask.isEmpty = false) (hk : k.mask = mask) (htimed : Timed k)
    (hwaiting : k.state = .waiting) (htimes : ∀ i ∈ is, i.time < t₂ + k.delay)
    (he : e.IsPress mask) (hnow : now < t₂ + k.delay) :
    ((k.after is).onKey e now).1 = some .appear := by
  rw [h.after hmask hk htimed hwaiting htimes]
  subst hk
  exact appears_of_released hmask he rfl htimed.unsuppressed rfl hnow

/-- Let a chord with a mask that is not empty be told of any key events and ticks. If the overlay
appears at an event, then this is a press of a key of the mask with just the mask held, the last
event before it that was not ignored is a release of a key of the mask, less than the delay ago, and
the last one before that is a press again. The other way round, when a chord that waits is tapped
and pressed a second time before the delay is over, the overlay appears, whatever ignored events,
repeated presses and ticks came in between, in the order of their times. -/
theorem appears_on_doublePress (hmask : mask.isEmpty = false) (delay : Nat) :
    (∀ history second now,
      (((KeyChord.new mask delay).after history).onKey second now).1 = some .appear →
        second.IsPress mask ∧ ∃ earlier press release,
          heeded mask history = earlier ++ [press, release] ∧ press.1.IsPress mask ∧
            release.1.IsRelease mask ∧ now < release.2 + delay) ∧
    ∀ history tap t₂ second now, InOrder (history ++ tap ++ [.key second now]) →
      ((KeyChord.new mask delay).after history).state = .waiting → IsTap mask tap t₂ →
        second.IsPress mask → now < t₂ + delay →
          (((KeyChord.new mask delay).after (history ++ tap)).onKey second now).1 =
            some .appear := by
  have hrecounts := (Recounts.new mask delay).after hmask
  constructor
  · intro history second now
    exact (hrecounts history).appears hmask
  · intro history tap t₂ second now horder hwaiting htap hsecond hnow
    have hk := hrecounts history
    rw [← hk.delay_eq] at hnow
    rw [after_append]
    refine htap.appears hmask hk.mask_eq hk.timed hwaiting (fun i hi ↦ ?_) hsecond hnow
    have hle := (List.pairwise_append.1 horder).2.2 i (List.mem_append_right _ hi) _
      (List.mem_singleton_self _)
    exact Nat.lt_of_le_of_lt hle hnow

/-- A tap that came to nothing, and another one with typing and a repeated press in between. -/
theorem appears_on_doublePress_retried :
    let alt := KeyCode.alt.modifiers
    let down : KeyEvent := ⟨.alt, true, alt, false⟩
    let up : KeyEvent := ⟨.alt, false, .none, false⟩
    let typed : KeyEvent := ⟨.other 65, true, alt, false⟩
    let slow := [.key down 0, .key up 10, .tick 400]
    let tap := [.key down 500, .key typed 510, .key down 520, .key up 530, .tick 829]
    let k := (KeyChord.new alt 300).after (slow ++ tap)
    alt.isEmpty = false ∧ IsTap alt tap 530 ∧ (k.onKey down 829).1 = some .appear ∧
      ∃ earlier press release, heeded alt (slow ++ tap) = earlier ++ [press, release] ∧
        press.1.IsPress alt ∧ release.1.IsRelease alt ∧ 829 < release.2 + 300 := by
  intro alt down up typed slow tap k
  have hmask : alt.isEmpty = false := rfl
  have hdown : down.IsPress alt := ⟨rfl, rfl, rfl, rfl, rfl⟩
  have hheld : ∀ i ∈ [ChordInput.key typed 510, .key down 520],
      i.isIdle alt = true ∨ ∃ e t, i = .key e t ∧ e.IsPress alt := by
    simp only [List.mem_cons, List.not_mem_nil, or_false, forall_eq_or_imp, forall_eq]
    exact ⟨.inl rfl, .inr ⟨down, 520, rfl, hdown⟩⟩
  have htap : IsTap alt tap 530 :=
    .intro hdown hheld ⟨rfl, rfl, rfl, rfl⟩ (List.forall_mem_singleton.2 rfl)
  have horder : InOrder (slow ++ tap ++ [.key down 829]) := by
    unfold InOrder
    decide
  obtain ⟨hdouble, htimely⟩ := appears_on_doublePress hmask 300
  have happears := htimely slow tap 530 down 829 horder (by decide) htap hdown (by decide)
  exact ⟨hmask, htap, happears, (hdouble (slow ++ tap) down 829 happears).2⟩

end KeyChord

end ToolDock

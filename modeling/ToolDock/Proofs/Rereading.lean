import ToolDock.Notation.Value.Reader
import ToolDock.Notation.Value.Writer
import ToolDock.Proofs.Quoting

/-!
Written values of the object notation are read back. What is written begins with none of the marks
that end a value, and what follows it begins with one. Main statements: `Value.Plain.reads` for a
value inside a text and `Value.Plain.read?_write` for a whole one.
-/

namespace ToolDock.Identifier

variable {c : Char}

theorem isNext_of_isFirst (h : isFirst c) : isNext c := by
  obtain h | h := Bool.or_eq_true_iff.1 h
  · rw [beq_iff_eq.1 h]
    decide +kernel
  · exact Bool.or_eq_true_iff.2 (.inl h)

theorem isFirst_of_isAlpha (h : c.isAlpha) : isFirst c := by
  simp only [isFirst, Letter.isLetter, h, Bool.true_or, Bool.or_true]

theorem isNext_mark (h : c ∈ ",:()[]\x7b\x7d\"'#/+-.".toList) : isNext c = false := by
  have hall : ∀ c ∈ ",:()[]\x7b\x7d\"'#/+-.".toList, isNext c = false :=
    List.all_iff_forall_prop.1 (by decide +kernel)
  exact hall c h

theorem isFirst_mark (h : c ∈ ",:()[]\x7b\x7d\"'#/+-.".toList) : isFirst c = false :=
  Bool.eq_false_iff.2 fun hfirst ↦
    Bool.eq_false_iff.1 (isNext_mark h) (isNext_of_isFirst hfirst)

end ToolDock.Identifier

namespace ToolDock.Notation

variable {c : Char} {cs ds rest : List Char}

namespace Spacing

theorem skip?_cons (h : c ≠ '/') :
    skip? (c :: cs) = if isBlank c then skip? cs else some (c :: cs) := by
  unfold skip?
  rw [skipFrom?.eq_4 _ _ (fun _ hc _ ↦ h hc) (fun _ hc _ ↦ h hc), if_neg h]

theorem skip?_append_of_isBlank (h : ∀ c ∈ cs, isBlank c) (ds : List Char) :
    skip? (cs ++ ds) = skip? ds := by
  induction cs with
  | nil => rfl
  | cons c cs ih =>
    have hc : isBlank c := h c (.head _)
    have hslash : c ≠ '/' := by
      rintro rfl
      exact absurd hc (by decide)
    rw [List.cons_append, skip?_cons hslash, if_pos hc]
    exact ih fun d hd ↦ h d (.tail _ hd)

end Spacing

def isName (s : String) : Bool :=
  s.toList.head?.any Identifier.isFirst && s.toList.all Identifier.isNext

theorem isName_of_isAlpha {s : String} (hne : s ≠ "")
    (h : s.toList.all fun c ↦ c.isAlpha || c == '_') : isName s := by
  have hfirst : ∀ c ∈ s.toList, Identifier.isFirst c := fun c hc ↦ by
    obtain h | h := Bool.or_eq_true_iff.1 (List.all_eq_true.1 h c hc)
    · exact Identifier.isFirst_of_isAlpha h
    · rw [beq_iff_eq.1 h]
      rfl
  unfold isName
  rw [Bool.and_eq_true, List.all_eq_true]
  refine ⟨?_, fun c hc ↦ Identifier.isNext_of_isFirst (hfirst c hc)⟩
  have hnil : s.toList ≠ [] := mt String.toList_eq_nil_iff.1 hne
  rw [List.head?_eq_some_head hnil, Option.any_some]
  exact hfirst _ (List.head_mem hnil)

theorem exists_of_isName {s : String} (h : isName s) :
    ∃ c cs, s.toList = c :: cs ∧ Identifier.isFirst c ∧ ∀ d ∈ c :: cs, Identifier.isNext d := by
  unfold isName at h
  cases hcs : s.toList with
  | nil =>
    rw [hcs] at h
    cases h
  | cons c cs =>
    rw [hcs, List.head?_cons, Option.any_some, Bool.and_eq_true, List.all_eq_true] at h
    exact ⟨c, cs, rfl, h⟩

def Ends (rest : List Char) : Prop := ∀ c ∈ rest.head?, c ∈ [',', ':', ')', '(']

namespace Ends

theorem nil : Ends [] := nofun

theorem cons (h : c ∈ [',', ':', ')', '(']) : Ends (c :: rest) := by
  rintro d ⟨⟩
  exact h

theorem skip? (h : Ends rest) : Spacing.skip? rest = some rest := by
  cases rest with
  | nil => rfl
  | cons c rest =>
    have hall : ∀ c ∈ [',', ':', ')', '('], c ≠ '/' ∧ Spacing.isBlank c = false :=
      List.all_iff_forall_prop.1 (by decide)
    obtain ⟨hslash, hblank⟩ := hall c (h c rfl)
    rw [Spacing.skip?_cons hslash, hblank, if_neg Bool.false_ne_true]

theorem takeWhile_append {p : Char → Bool} (h : Ends rest)
    (hp : ∀ c ∈ [',', ':', ')', '('], p c = false) (hcs : ∀ c ∈ cs, p c) :
    (cs ++ rest).takeWhile p = cs ∧ (cs ++ rest).dropWhile p = rest := by
  rw [List.takeWhile_append_of_pos hcs, List.dropWhile_append_of_pos hcs]
  cases rest with
  | nil => exact ⟨List.append_nil cs, rfl⟩
  | cons c rest =>
    have hc := hp c (h c rfl)
    simp only [List.takeWhile_cons, List.dropWhile_cons, hc, Bool.false_eq_true, if_false,
      List.append_nil, and_self]

end Ends

theorem beginsQuote_append (hcs : ∀ c ∈ cs, Identifier.isNext c) (h : Ends rest) :
    Name.beginsQuote (cs ++ rest) = false := by
  refine Bool.eq_false_iff.2 fun hq ↦ ?_
  obtain ⟨q, hq, hprefix⟩ := List.any_eq_true.1 hq
  -- a beginning of a quote holds a mark that no name holds, and none of the marks that end one
  have hmark : ∀ q ∈ Name.quotes, q.toList.any (· ∈ ",:()[]\x7b\x7d\"'#/+-.".toList) := by decide
  have hends : ∀ q ∈ Name.quotes, q.toList.all (· ∉ [',', ':', ')', '(']) := by decide
  obtain ⟨ds, hds⟩ := List.isPrefixOf_iff_prefix.1 hprefix
  obtain ⟨c, hc, hm⟩ := List.any_eq_true.1 (hmark q hq)
  have hnext := Identifier.isNext_mark (of_decide_eq_true hm)
  obtain ⟨as, hcs', -⟩ | ⟨as, hq', hrest⟩ := List.append_eq_append_iff.1 hds
  · exact absurd (hcs c (hcs' ▸ List.mem_append_left as hc)) (by rw [hnext]; decide)
  · rw [hq', List.mem_append] at hc
    cases as with
    | nil =>
      refine absurd (hcs c (hc.resolve_right ?_)) (by rw [hnext]; decide)
      exact List.not_mem_nil
    | cons a as =>
      refine List.all_iff_forall_prop.1 (hends q hq) a ?_ (h a (by rw [hrest]; rfl))
      rw [hq']
      exact List.mem_append_right _ (.head _)

theorem Name.read?_append {s : String} (hs : isName s) (h : Ends rest) :
    Name.read? (s.toList ++ rest) = some (⟨false, s⟩, rest) := by
  obtain ⟨c, cs, hcs, hfirst, hnext⟩ := exists_of_isName hs
  have hmark : [',', ':', ')', '('] ⊆ ",:()[]\x7b\x7d\"'#/+-.".toList := by decide
  obtain ⟨htake, hdrop⟩ :=
    h.takeWhile_append (fun _ hc ↦ Identifier.isNext_mark (hmark hc)) hnext
  have hread : Name.readWhile? false Identifier.isNext (c :: cs ++ rest) =
      some (⟨false, s⟩, rest) := by
    rw [Name.readWhile?, htake, hdrop, List.isEmpty_cons, if_neg Bool.false_ne_true, ← hcs,
      String.ofList_toList]
  unfold Name.read?
  rw [hcs, beginsQuote_append hnext h, if_neg Bool.false_ne_true]
  split
  case h_1 ds heq =>
    -- a hash is neither in a name nor what ends one
    obtain ⟨-, heq⟩ := List.cons.inj heq
    have hhash : Identifier.isNext '#' = false := Identifier.isNext_mark (by decide)
    cases cs with
    | nil => exact absurd (h '#' (congrArg List.head? heq)) (by decide)
    | cons d cs =>
      obtain ⟨rfl, -⟩ := List.cons.inj heq
      exact absurd (hnext '#' (.tail _ (.head _))) (by rw [hhash]; decide)
  case h_2 d ds _ heq =>
    obtain ⟨rfl, -⟩ := List.cons.inj heq
    rw [if_pos hfirst, hread]
  case h_3 heq => cases heq

theorem Name.read?_before {s : String} (hs : isName s) (c : Char) (hc : c ∈ [',', ':', ')', '('])
    (ds : List Char) : Name.read? (s.toList ++ c :: ds) = some (⟨false, s⟩, c :: ds) :=
  Name.read?_append hs (.cons hc)

theorem Name.read?_eq_none (hfirst : Identifier.isFirst c = false) :
    Name.read? (c :: cs) = none := by
  unfold Name.read?
  split
  case isTrue => rfl
  case isFalse =>
    split
    case h_1 heq =>
      obtain ⟨rfl, -⟩ := List.cons.inj heq
      exact absurd hfirst (by decide)
    case h_2 heq =>
      obtain ⟨rfl, -⟩ := List.cons.inj heq
      rw [hfirst, if_neg Bool.false_ne_true]
    case h_3 heq => rfl

def Begins (c : Char) : Prop := Spacing.isBlank c = false ∧ c ∉ "/)]\x7d#".toList

instance : Decidable (Begins c) := inferInstanceAs (Decidable (_ ∧ _))

theorem Begins.skip? (h : Begins c) : Spacing.skip? (c :: cs) = some (c :: cs) := by
  have hslash : c ≠ '/' := by
    rintro rfl
    exact h.2 (.head _)
  rw [Spacing.skip?_cons hslash, h.1, if_neg Bool.false_ne_true]

theorem begins_of_isFirst (h : Identifier.isFirst c) : Begins c := by
  have hblank : ∀ n ∈ Spacing.blanks, Identifier.isFirst (Char.ofNat n) = false := by decide +kernel
  have hmarks : "/)]\x7d#".toList ⊆ ",:()[]\x7b\x7d\"'#/+-.".toList := by decide
  refine ⟨Bool.eq_false_iff.2 fun hc ↦ ?_, fun hc ↦ ?_⟩
  · have hno := hblank c.toNat (List.contains_iff_mem.1 hc)
    rw [Char.ofNat_toNat, h] at hno
    cases hno
  · rw [Identifier.isFirst_mark (hmarks hc)] at h
    cases h

theorem skip?_name {s : String} (h : isName s) (rest : List Char) :
    Spacing.skip? (s.toList ++ rest) = some (s.toList ++ rest) := by
  obtain ⟨c, cs, hcs, hfirst, -⟩ := exists_of_isName h
  rw [hcs]
  exact (begins_of_isFirst hfirst).skip?

theorem head?_ne_of_isName {s : String} (h : isName s) (rest : List Char) :
    (s.toList ++ rest).head? ≠ some ')' := by
  obtain ⟨c, cs, hcs, hfirst, -⟩ := exists_of_isName h
  rw [hcs]
  rintro ⟨⟩
  exact (begins_of_isFirst hfirst).2 (by decide)

theorem mem_starts_of_isStart (h : Numeral.isStart c) : c ∈ "0123456789+-.".toList := by
  simp only [Numeral.isStart, Bool.or_eq_true, beq_iff_eq] at h
  obtain ((h | rfl) | rfl) | rfl := h
  · exact List.mem_append_left "+-.".toList (Digits.mem_digits_of_isDigit h)
  all_goals decide

theorem begins_of_isStart (h : Numeral.isStart c) : Begins c := by
  have hall : ∀ c ∈ "0123456789+-.".toList, Begins c := List.all_iff_forall_prop.1 (by decide)
  exact hall c (mem_starts_of_isStart h)

theorem isFirst_of_isStart (h : Numeral.isStart c) : Identifier.isFirst c = false := by
  have hall : ∀ c ∈ "0123456789+-.".toList, Identifier.isFirst c = false :=
    List.all_iff_forall_prop.1 (by decide +kernel)
  exact hall c (mem_starts_of_isStart h)

namespace Value

/-- The text is read as the value, whatever ends it. -/
structure Reads (v : Value) (cs : List Char) : Prop where
  begins : ∃ c ds, cs = c :: ds ∧ Begins c
  read : ∀ {fuel : Nat} {rest : List Char}, 2 * cs.length ≤ fuel → Ends rest →
    rest.head? ≠ some '(' → readWith? .none fuel (cs ++ rest) = some (v, rest)

variable {v : Value} {margin : List Char} {fuel : Nat}

namespace Reads

theorem skip? (h : Reads v cs) (rest : List Char) :
    Spacing.skip? (cs ++ rest) = some (cs ++ rest) := by
  obtain ⟨c, ds, rfl, hc⟩ := h.begins
  exact hc.skip?

theorem skip?_space (h : Reads v cs) (rest : List Char) :
    Spacing.skip? (' ' :: (cs ++ rest)) = some (cs ++ rest) := h.skip? rest

theorem before (h : Reads v cs) (hf : 2 * cs.length ≤ fuel) (c : Char) (hc : c ∈ [',', ':', ')'])
    (rest : List Char) : readWith? .none fuel (cs ++ c :: rest) = some (v, c :: rest) := by
  have hends : c ∈ [',', ':', ')', '('] := List.mem_append_left ['('] hc
  refine h.read hf (.cons hends) ?_
  rintro ⟨⟩
  exact absurd hc (by decide)

theorem head?_ne (h : Reads v cs) (c : Char) (hc : c ∈ "/)]\x7d#".toList) (rest : List Char) :
    (cs ++ rest).head? ≠ some c := by
  obtain ⟨d, ds, rfl, hd⟩ := h.begins
  rintro ⟨⟩
  exact hd.2 hc

end Reads

theorem reads_ident {s : String} (hs : isName s) (hsome : s ≠ "Some") :
    Reads (ident false s) s.toList where
  begins := by
    obtain ⟨c, cs, hcs, hfirst, -⟩ := exists_of_isName hs
    exact ⟨c, cs, hcs, begins_of_isFirst hfirst⟩
  read := by
    intro fuel rest hf hends hopen
    obtain ⟨fuel, rfl⟩ : ∃ n, fuel = n + 1 := by
      obtain ⟨c, cs, hcs, -⟩ := exists_of_isName hs
      rw [hcs, List.length_cons] at hf
      exact ⟨fuel - 1, by omega⟩
    unfold readWith?
    simp only [Name.read?_append hs hends, Bool.not_false, Bool.true_and, hends.skip?, beq_iff_eq,
      hsome, if_false, Option.bind_eq_bind, Option.bind_some]
    split
    case isTrue => rfl
    case isFalse =>
      split
      case h_1 => exact absurd rfl hopen
      case h_2 => rfl

theorem reads_text (s : String) : Reads (text s) (Quoted.encode true s) where
  begins := ⟨'"', _, rfl, by decide⟩
  read := by
    intro fuel rest hf _ _
    obtain ⟨fuel, rfl⟩ : ∃ n, fuel = n + 1 := by
      simp only [Quoted.encode, List.cons_append, List.length_cons] at hf
      exact ⟨fuel - 1, by omega⟩
    have hname : Name.read? (Quoted.encode true s ++ rest) = none :=
      Name.read?_eq_none (Identifier.isFirst_mark (by decide))
    have hscalar : readScalar? (Quoted.encode true s ++ rest) = some (text s, rest) := by
      have hread := Literal.readText?_encode s rest
      simp only [Quoted.encode, List.cons_append] at hread ⊢
      simp only [readScalar?, hread]
      rfl
    unfold readWith?
    rw [hname]
    exact hscalar

structure IsNumber (s : String) : Prop where
  starts : ∃ c ∈ s.toList.head?, Numeral.isStart c
  parts : ∀ c ∈ s.toList, Numeral.isPart c
  numeral : Numeral.isNumeral s

theorem IsNumber.of_isStart {s : String} (h : ∀ c ∈ s.toList, Numeral.isStart c)
    (hs : Numeral.isNumeral s) : IsNumber s where
  starts := by
    have hne : s.toList ≠ [] := fun hnil ↦ by
      rw [String.toList_eq_nil_iff.1 hnil] at hs
      exact absurd hs (by decide +kernel)
    exact ⟨_, List.head?_eq_some_head hne, h _ (List.head_mem hne)⟩
  parts c hc := by simp only [Numeral.isPart, h c hc, Bool.true_or]
  numeral := hs

theorem reads_number {s : String} (hs : IsNumber s) : Reads (number s) s.toList := by
  obtain ⟨c, hc, hstart⟩ := hs.starts
  obtain ⟨cs, hcs⟩ := List.head?_eq_some_iff.1 hc
  refine ⟨⟨c, cs, hcs, begins_of_isStart hstart⟩, fun {fuel rest} hf hends _ ↦ ?_⟩
  obtain ⟨fuel, rfl⟩ : ∃ n, fuel = n + 1 := by
    rw [hcs, List.length_cons] at hf
    exact ⟨fuel - 1, by omega⟩
  obtain ⟨htake, hdrop⟩ := hends.takeWhile_append (List.all_iff_forall_prop.1 (by decide)) hs.parts
  have hscalar : readScalar? (s.toList ++ rest) = some (number s, rest) := by
    have hread : Numeral.read? (s.toList ++ rest) = some (s, rest) := by
      simp only [Numeral.read?, htake, hdrop, String.ofList_toList, hs.numeral, if_true]
    rw [hcs, List.cons_append] at hread ⊢
    simp only [readScalar?, hstart, if_true, hread, Option.map_some]
  have hname : Name.read? (s.toList ++ rest) = none := by
    rw [hcs]
    exact Name.read?_eq_none (isFirst_of_isStart hstart)
  have hopening : ∀ d ∈ "([\x7b".toList, ∀ ds, s.toList ++ rest ≠ d :: ds := by
    have hall : ∀ d ∈ "([\x7b".toList, Numeral.isStart d = false :=
      List.all_iff_forall_prop.1 (by decide)
    rintro d hd ds heq
    rw [hcs] at heq
    obtain ⟨rfl, -⟩ := List.cons.inj heq
    exact absurd hstart (by rw [hall c hd]; decide)
  unfold readWith?
  rw [hname]
  simp only []
  split
  case h_1 heq => exact absurd heq (hopening '(' (by decide) _)
  case h_2 heq => exact absurd heq (hopening '(' (by decide) _)
  case h_3 heq => exact absurd heq (hopening '[' (by decide) _)
  case h_4 heq => exact absurd heq (hopening '{' (by decide) _)
  case h_5 => exact hscalar

theorem reads_option {v : Value} (h : Reads v cs) :
    Reads (option true v) ("Some".toList ++ '(' :: (cs ++ [')'])) where
  begins := ⟨'S', _, rfl, by decide⟩
  read := by
    intro fuel rest hf _ _
    simp only [List.length_append, List.length_cons, List.length_nil] at hf
    obtain ⟨fuel, rfl⟩ : ∃ n, fuel = n + 2 := ⟨fuel - 2, by omega⟩
    have hends : Ends ('(' :: (cs ++ ')' :: rest)) := .cons (by decide)
    have hname : Name.read? ("Some".toList ++ '(' :: (cs ++ ')' :: rest)) =
        some (⟨false, "Some"⟩, '(' :: (cs ++ ')' :: rest)) :=
      Name.read?_append (isName_of_isAlpha (by decide) (by decide)) hends
    have hcontent : readWith? .none fuel (cs ++ ')' :: rest) = some (v, ')' :: rest) :=
      h.before (by omega) ')' (by decide) rest
    have hskip : Spacing.skip? (cs ++ ')' :: rest) = some (cs ++ ')' :: rest) := h.skip? _
    have hclosing : afterClosing? (')' :: rest) = some rest := by
      have hskip : Spacing.skip? (')' :: rest) = some (')' :: rest) :=
        Ends.skip? (.cons (by decide))
      simp only [afterClosing?, hskip]
      rfl
    have hoption : readOption? .none (fuel + 1) ('(' :: (cs ++ ')' :: rest)) =
        some (option true v, rest) := by
      unfold readOption?
      simp only [hskip, hcontent, hclosing, Option.bind_eq_bind, Option.bind_some]
      rfl
    rw [List.append_assoc, List.cons_append, List.append_assoc, List.singleton_append]
    unfold readWith?
    simp only [hname, hends.skip?, Option.bind_eq_bind, Option.bind_some]
    exact hoption

def onLines {α : Type} (margin : List Char) (text : α → List Char) (parts : List α) : List Char :=
  parts.flatMap fun x ↦ '\n' :: margin ++ (text x ++ [','])

section Lines

variable {α : Type} {x : α} {parts : List α} {text : α → List Char} {closing : List Char}

theorem onLines_cons_append (margin : List Char) (text : α → List Char) (x : α) (parts : List α)
    (ds : List Char) : onLines margin text (x :: parts) ++ ds =
      '\n' :: (margin ++ (text x ++ ',' :: (onLines margin text parts ++ ds))) := by
  simp [onLines]

theorem length_onLines_cons : (onLines margin text (x :: parts)).length =
    (text x).length + (onLines margin text parts).length + margin.length + 2 := by
  simp [onLines]
  omega

theorem skip?_line (hm : ∀ c ∈ margin, Spacing.isBlank c) (ds : List Char) :
    Spacing.skip? ('\n' :: (margin ++ ds)) = Spacing.skip? ds :=
  Spacing.skip?_append_of_isBlank (List.forall_mem_cons.2 ⟨by decide, hm⟩) ds

theorem skip?_mark (c : Char) (hc : c ∈ ",:)]\x7d".toList) (rest : List Char) :
    Spacing.skip? (c :: rest) = some (c :: rest) := by
  have hall : ∀ c ∈ ",:)]\x7d".toList, c ≠ '/' ∧ Spacing.isBlank c = false :=
    List.all_iff_forall_prop.1 (by decide)
  obtain ⟨hslash, hblank⟩ := hall c hc
  rw [Spacing.skip?_cons hslash, hblank, if_neg Bool.false_ne_true]

theorem readGroup?_of_fields {name : String} {fields : List (String × Value)} (hname : isName name)
    (hskip : Spacing.skip? cs = some (name.toList ++ ':' :: ds))
    (hread : readFields? .none (fuel + 1) cs = some (fields, rest)) :
    readGroup? .none (fuel + 2) none cs = some (record none fields, rest) := by
  have hholds : holdsFields? (name.toList ++ ':' :: ds) = some true := by
    simp only [holdsFields?, Name.read?_before hname ':' (by decide), skip?_mark ':' (by decide)]
    rfl
  have hfields : readFields? .none (fuel + 1) (name.toList ++ ':' :: ds) = some (fields, rest) := by
    unfold readFields? at hread ⊢
    rw [hskip] at hread
    rw [skip?_name hname]
    exact hread
  unfold readGroup?
  simp only [hskip, hholds, hfields, Option.bind_eq_bind, Option.bind_some]
  rfl

theorem toList_lines {indent : String} (hindent : ∀ c ∈ indent.toList, Spacing.isBlank c)
    (opening mark : String) (f : α → String) (parts : List α) :
    ∃ closing, (∀ c ∈ closing, Spacing.isBlank c) ∧
      (lines opening mark indent (parts.map f)).toList = opening.toList ++
        (onLines (indent ++ "    ").toList (fun x ↦ (f x).toList) parts ++
          (closing ++ mark.toList)) := by
  cases parts with
  | nil => exact ⟨[], nofun, by simp [lines, onLines]⟩
  | cons x parts =>
    refine ⟨'\n' :: indent.toList, List.forall_mem_cons.2 ⟨by decide, hindent⟩, ?_⟩
    -- the ends of the lines are the beginnings of those that follow
    have hshift : ∀ xs : List α,
        '\n' :: xs.flatMap (fun x ↦ (indent ++ "    " ++ f x ++ ",\n").toList) =
          onLines (indent ++ "    ").toList (fun x ↦ (f x).toList) xs ++ ['\n'] := by
      intro xs
      induction xs with
      | nil => rfl
      | cons x xs ih =>
        rw [onLines_cons_append, ← ih]
        simp
    have hjoin := congrArg (· ++ (indent.toList ++ mark.toList)) (hshift (x :: parts))
    simpa [lines, String.toList_join, List.flatMap_map] using hjoin

variable (hm : ∀ c ∈ margin, Spacing.isBlank c) (hclosing : ∀ c ∈ closing, Spacing.isBlank c)

include hm hclosing

/-- What reads parts up to a closing mark reads those on lines, if it stops at the mark, and if it
goes on behind a part and a comma. -/
theorem read_onLines {mark : Char} (hmark : mark ∈ ",:)]\x7d".toList)
    (reader : Nat → List Char → Option (List α × List Char))
    (hstop : ∀ fuel cs rest, Spacing.skip? cs = some (mark :: rest) →
      reader (fuel + 1) cs = some ([], rest))
    (hgoes : ∀ x ∈ parts, ∀ fuel cs ds xs rest, 2 * (text x).length ≤ fuel →
      Spacing.skip? cs = Spacing.skip? (text x ++ ',' :: ds) → reader fuel ds = some (xs, rest) →
        reader (fuel + 1) cs = some (x :: xs, rest))
    (fuel : Nat) (hf : 2 * (onLines margin text parts).length < fuel) (rest : List Char) :
    reader fuel (onLines margin text parts ++ (closing ++ mark :: rest)) = some (parts, rest) := by
  induction parts generalizing fuel with
  | nil =>
    obtain ⟨fuel, rfl⟩ : ∃ n, fuel = n + 1 := ⟨fuel - 1, by omega⟩
    exact hstop fuel _ rest
      ((Spacing.skip?_append_of_isBlank hclosing _).trans (skip?_mark mark hmark _))
  | cons x parts ih =>
    -- a line is longer than the part on it, so what fuel is left suffices for the other lines
    rw [length_onLines_cons] at hf
    obtain ⟨fuel, rfl⟩ : ∃ n, fuel = n + 1 := ⟨fuel - 1, by omega⟩
    obtain ⟨hx, hparts⟩ := List.forall_mem_cons.1 hgoes
    rw [onLines_cons_append]
    exact hx fuel _ _ _ _ (by omega) (skip?_line hm _) (ih hparts fuel (by omega))

theorem readItems?_onLines {items : List Value} {text : Value → List Char}
    (h : ∀ v ∈ items, Reads v (text v)) (fuel : Nat)
    (hf : 2 * (onLines margin text items).length < fuel) (rest : List Char) :
    readItems? .none fuel ']' (onLines margin text items ++ (closing ++ ']' :: rest)) =
      some (items, rest) := by
  refine read_onLines hm hclosing (by decide) (readItems? .none · ']')
    (fun fuel cs rest hskip ↦ ?_) (fun v hv fuel cs ds vs rest hf hskip hrest ↦ ?_) fuel hf rest
  · unfold readItems?
    simp only [hskip]
    rfl
  · have hread := (h v hv).before hf ',' (by decide) ds
    unfold readItems?
    simp only [hskip, (h v hv).skip?, (h v hv).head?_ne ']' (by decide), hread,
      skip?_mark ',' (by decide), hrest, Option.bind_eq_bind, Option.bind_some, if_false]
    rfl

theorem readEntries?_onLines {entries : List (Value × Value)} {text : Value → List Char}
    (hkeys : ∀ p ∈ entries, Reads p.1 (text p.1)) (hvalues : ∀ p ∈ entries, Reads p.2 (text p.2))
    (fuel : Nat)
    (hf : 2 * (onLines margin (fun p ↦ text p.1 ++ ':' :: ' ' :: text p.2) entries).length < fuel)
    (rest : List Char) :
    readEntries? .none fuel (onLines margin (fun p ↦ text p.1 ++ ':' :: ' ' :: text p.2) entries ++
      (closing ++ '}' :: rest)) = some (entries, rest) := by
  refine read_onLines hm hclosing (by decide) (readEntries? .none)
    (fun fuel cs rest hskip ↦ ?_) (fun p hp fuel cs ds ps rest hf hskip hrest ↦ ?_) fuel hf rest
  · unfold readEntries?
    simp only [hskip]
    rfl
  · obtain ⟨key, v⟩ := p
    have hkey : Reads key (text key) := hkeys _ hp
    have hv : Reads v (text v) := hvalues _ hp
    simp only [List.length_append, List.length_cons] at hf
    have hreadKey : ∀ ds, readWith? .none fuel (text key ++ ':' :: ds) = some (key, ':' :: ds) :=
      hkey.before (by omega) ':' (by decide)
    have hread : readWith? .none fuel (text v ++ ',' :: ds) = some (v, ',' :: ds) :=
      hv.before (by omega) ',' (by decide) ds
    unfold readEntries?
    simp only [hskip, List.append_assoc, List.cons_append, hkey.skip?,
      hkey.head?_ne '}' (by decide), hreadKey, skip?_mark ':' (by decide), hv.skip?_space, hread,
      skip?_mark ',' (by decide), hrest, Option.bind_eq_bind, Option.bind_some, if_false]
    rfl

theorem readFields?_onLines {fields : List (String × Value)} {text : Value → List Char}
    (hnames : ∀ p ∈ fields, isName p.1) (hvalues : ∀ p ∈ fields, Reads p.2 (text p.2)) (fuel : Nat)
    (hf : 2 * (onLines margin (fun p ↦ p.1.toList ++ ':' :: ' ' :: text p.2) fields).length < fuel)
    (rest : List Char) :
    readFields? .none fuel (onLines margin (fun p ↦ p.1.toList ++ ':' :: ' ' :: text p.2) fields ++
      (closing ++ ')' :: rest)) = some (fields, rest) := by
  refine read_onLines hm hclosing (by decide) (readFields? .none)
    (fun fuel cs rest hskip ↦ ?_) (fun p hp fuel cs ds ps rest hf hskip hrest ↦ ?_) fuel hf rest
  · unfold readFields?
    simp only [hskip]
    rfl
  · obtain ⟨name, v⟩ := p
    have hname : isName name := hnames _ hp
    have hv : Reads v (text v) := hvalues _ hp
    simp only [List.length_append, List.length_cons] at hf
    have hread : readWith? .none fuel (text v ++ ',' :: ds) = some (v, ',' :: ds) :=
      hv.before (by omega) ',' (by decide) ds
    unfold readFields?
    simp only [hskip, List.append_assoc, List.cons_append, skip?_name hname,
      head?_ne_of_isName hname, Name.read?_before hname ':' (by decide), skip?_mark ':' (by decide),
      hv.skip?_space, hread, skip?_mark ',' (by decide), hrest, Option.bind_eq_bind,
      Option.bind_some, if_false]
    rfl

omit hm hclosing in
theorem reads_enclosed {opening mark : Char} (hopening : Begins opening) {wrap : List α → Value}
    {reader : Nat → List Char → Option (List α × List Char)}
    (hopens : ∀ fuel cs, readWith? .none (fuel + 1) (opening :: cs) =
      (reader fuel cs).map fun (xs, rest) ↦ (wrap xs, rest))
    (hread : ∀ fuel, 2 * cs.length < fuel → ∀ rest,
      reader fuel (cs ++ (closing ++ mark :: rest)) = some (parts, rest)) :
    Reads (wrap parts) (opening :: (cs ++ (closing ++ [mark]))) where
  begins := ⟨opening, _, rfl, hopening⟩
  read := by
    intro fuel rest hf _ _
    simp only [List.length_cons, List.length_append] at hf
    obtain ⟨fuel, rfl⟩ : ∃ n, fuel = n + 1 := ⟨fuel - 1, by omega⟩
    simp only [List.cons_append, List.append_assoc, List.nil_append, hopens,
      hread fuel (by omega) rest, Option.map_some]

theorem reads_list {items : List Value} (text : Value → List Char)
    (h : ∀ v ∈ items, Reads v (text v)) :
    Reads (list items) ('[' :: (onLines margin text items ++ (closing ++ [']']))) := by
  refine reads_enclosed (by decide) (fun fuel cs ↦ ?_) (readItems?_onLines hm hclosing h)
  unfold readWith?
  rw [Name.read?_eq_none (Identifier.isFirst_mark (by decide)), Option.map_eq_bind]
  rfl

theorem reads_map {entries : List (Value × Value)} (text : Value → List Char)
    (hkeys : ∀ p ∈ entries, Reads p.1 (text p.1)) (hvalues : ∀ p ∈ entries, Reads p.2 (text p.2)) :
    Reads (map entries)
      ('{' :: (onLines margin (fun p ↦ text p.1 ++ ':' :: ' ' :: text p.2) entries ++
        (closing ++ ['}']))) := by
  refine reads_enclosed (by decide) (fun fuel cs ↦ ?_)
    (readEntries?_onLines hm hclosing hkeys hvalues)
  unfold readWith?
  rw [Name.read?_eq_none (Identifier.isFirst_mark (by decide)), Option.map_eq_bind]
  rfl

theorem reads_record {fields : List (String × Value)} (text : Value → List Char)
    (hne : fields ≠ []) (hnames : ∀ p ∈ fields, isName p.1)
    (hvalues : ∀ p ∈ fields, Reads p.2 (text p.2)) :
    Reads (record none fields)
      ('(' :: (onLines margin (fun p ↦ p.1.toList ++ ':' :: ' ' :: text p.2) fields ++
        (closing ++ [')']))) where
  begins := ⟨'(', _, rfl, by decide⟩
  read := by
    intro fuel rest hf _ _
    simp only [List.length_cons, List.length_append] at hf
    obtain ⟨fuel, rfl⟩ : ∃ n, fuel = n + 3 := ⟨fuel - 3, by omega⟩
    obtain ⟨p, fields, rfl⟩ := List.exists_cons_of_ne_nil hne
    have hread := readFields?_onLines hm hclosing hnames hvalues (fuel + 1) (by omega) rest
    have hname : isName p.1 := hnames p (.head _)
    rw [onLines_cons_append] at hread
    have hgroup := readGroup?_of_fields hname (by
      rw [skip?_line hm, List.append_assoc, List.cons_append]
      exact skip?_name hname _) hread
    unfold readWith?
    simp only [List.cons_append, List.append_assoc, List.nil_append, onLines_cons_append,
      Name.read?_eq_none (Identifier.isFirst_mark (show '(' ∈ _ by decide))] at hgroup ⊢
    exact hgroup

end Lines

theorem writeItems_eq_map (indent : String) (items : List Value) :
    writeItems indent items = items.map (write indent) := by
  induction items with
  | nil => simp [writeItems]
  | cons v items ih => simp [writeItems, ih]

theorem writeEntries_eq_map (indent : String) (entries : List (Value × Value)) :
    writeEntries indent entries =
      entries.map fun p ↦ write indent p.1 ++ ": " ++ write indent p.2 := by
  induction entries with
  | nil => simp [writeEntries]
  | cons p entries ih => simp [writeEntries, ih]

theorem writeFields_eq_map (indent : String) (fields : List (String × Value)) :
    writeFields indent fields = fields.map fun p ↦ p.1 ++ ": " ++ write indent p.2 := by
  induction fields with
  | nil => simp [writeFields]
  | cons p fields ih => simp [writeFields, ih]

/-- The values that are written as they are read: none is raw, a character or bytes, structs have no
names but fields, and what an option holds is in parentheses of its own. -/
inductive Plain : Value → Prop where
  | ident {s : String} (hs : isName s) (hsome : s ≠ "Some") : Plain (ident false s)
  | number {s : String} (hs : IsNumber s) : Plain (number s)
  | text (s : String) : Plain (text s)
  | list {items : List Value} (h : ∀ v ∈ items, Plain v) : Plain (list items)
  | map {entries : List (Value × Value)} (hkeys : ∀ p ∈ entries, Plain p.1)
    (hvalues : ∀ p ∈ entries, Plain p.2) : Plain (map entries)
  | record {fields : List (String × Value)} (hne : fields ≠ []) (hnames : ∀ p ∈ fields, isName p.1)
    (hvalues : ∀ p ∈ fields, Plain p.2) : Plain (record none fields)
  | option {v : Value} (h : Plain v) : Plain (option true v)

theorem isBlank_indented {indent : String} (h : ∀ c ∈ indent.toList, Spacing.isBlank c) :
    ∀ c ∈ (indent ++ "    ").toList, Spacing.isBlank c := by
  rw [String.toList_append]
  exact List.forall_mem_append.2 ⟨h, List.all_iff_forall_prop.1 (by decide)⟩

theorem toList_entry (s t : String) :
    (s ++ ": " ++ t).toList = s.toList ++ ':' :: ' ' :: t.toList := by
  simp

namespace Plain

theorem reads (h : Plain v) {indent : String} (hindent : ∀ c ∈ indent.toList, Spacing.isBlank c) :
    Reads v (v.write indent).toList := by
  induction h generalizing indent with
  | ident hs hsome => simpa [write] using reads_ident hs hsome
  | number hs => simpa [write] using reads_number hs
  | text s => simpa [write] using reads_text s
  | option _ ih => simpa [write] using reads_option (ih hindent)
  | list _ ih =>
    have hmargin := isBlank_indented hindent
    rw [write, writeItems_eq_map]
    obtain ⟨closing, hclosing, heq⟩ := toList_lines hindent "[" "]" (write (indent ++ "    ")) _
    rw [heq]
    exact reads_list hmargin hclosing _ fun v hv ↦ ih v hv hmargin
  | map _ _ hkeys hvalues =>
    have hmargin := isBlank_indented hindent
    rw [write, writeEntries_eq_map]
    obtain ⟨closing, hclosing, heq⟩ := toList_lines hindent "\x7b" "\x7d"
      (fun p : Value × Value ↦
        write (indent ++ "    ") p.1 ++ ": " ++ write (indent ++ "    ") p.2) _
    rw [heq]
    simp only [toList_entry]
    exact reads_map hmargin hclosing (fun v ↦ (write (indent ++ "    ") v).toList)
      (fun p hp ↦ hkeys p hp hmargin) fun p hp ↦ hvalues p hp hmargin
  | record hne hnames _ ih =>
    have hmargin := isBlank_indented hindent
    rw [write, writeFields_eq_map]
    obtain ⟨closing, hclosing, heq⟩ := toList_lines hindent
      ((none : Option String).getD "" ++ "(") ")"
      (fun p : String × Value ↦ p.1 ++ ": " ++ write (indent ++ "    ") p.2) _
    rw [heq]
    simp only [toList_entry]
    exact reads_record hmargin hclosing (fun v ↦ (write (indent ++ "    ") v).toList) hne hnames
      fun p hp ↦ ih p hp hmargin

theorem read?_write (h : Plain v) (hdepth : v.depth ≤ maxDepth) :
    Value.read? (v.write "") = some (.none, v) := by
  have hreads : Reads v (v.write "").toList := h.reads nofun
  obtain ⟨c, cs, hcs, hbegins⟩ := hreads.begins
  have hskip : Spacing.skip? (v.write "").toList = some (v.write "").toList := by
    rw [hcs]
    exact hbegins.skip?
  have hextensions : Extensions.none.read? (v.write "").toList.length (v.write "").toList =
      some (.none, (v.write "").toList) := by
    rw [hcs, Extensions.read?.eq_2]
    rintro _ _ - ⟨⟩
    exact hbegins.2 (by decide)
  have hread : readWith? .none (4 * (v.write "").toList.length + 4) ((v.write "").toList ++ []) =
      some (v, []) := hreads.read (by omega) .nil nofun
  rw [List.append_nil] at hread
  simp only [Value.read?, hskip, hextensions, hread, Option.bind_eq_bind, Option.bind_some]
  simp [Spacing.skip?, Spacing.skipFrom?, hdepth]

end Plain

end Value

end ToolDock.Notation

import Mathlib.Data.List.Chain
import ScreenActions.Action.Labels
import ScreenActions.Proofs.Numerals

/-!
Message patterns that are put together from texts and references. A text is quoted, so that
nothing in it is read as a reference, and formatting brings it back as it was.
-/

namespace ScreenActions.MessagePattern

open Text Number

/-! ### Outside references -/

theorem formatText_cons_of_ne {c : Char} (hquote : c ≠ '\'') {quoted : Bool}
    (hopen : quoted = true ∨ c ≠ '{') (args : List String) (s : List Char) :
    formatText args quoted (c :: s) = c :: formatText args quoted s := by
  rw [formatText, if_neg hquote, if_neg]
  · rcases hopen with rfl | hne <;> simp_all
  · rintro s' rfl
    exact fun _ => hquote rfl

/-- A quote that no quote follows turns quoting on or off. -/
theorem formatText_quote {s : List Char} (h : s.head? ≠ some '\'') (args : List String)
    (quoted : Bool) : formatText args quoted ('\'' :: s) = formatText args (!quoted) s := by
  rw [formatText, if_pos rfl]
  rintro s' - rfl
  exact h rfl

/-- The text with each of its quotes written twice. -/
def doubleQuotes (s : List Char) : List Char :=
  s.flatMap fun c => if c = '\'' then ['\'', '\''] else [c]

theorem doubleQuotes_cons_of_ne {c : Char} (h : c ≠ '\'') (s : List Char) :
    doubleQuotes (c :: s) = c :: doubleQuotes s := by
  rw [doubleQuotes, List.flatMap_cons, if_neg h]
  rfl

theorem formatText_doubleQuotes {s : List Char} {quoted : Bool} (h : quoted = true ∨ '{' ∉ s)
    (args : List String) (rest : List Char) :
    formatText args quoted (doubleQuotes s ++ rest) = s ++ formatText args quoted rest := by
  induction s with
  | nil => rfl
  | cons c s ih =>
    have htail := ih (h.imp_right fun hc hs => hc (List.mem_cons_of_mem _ hs))
    by_cases hc : c = '\''
    · subst hc
      change formatText args quoted ('\'' :: '\'' :: (doubleQuotes s ++ rest)) = _
      rw [formatText, htail, List.cons_append]
    · rw [doubleQuotes_cons_of_ne hc, List.cons_append, formatText_cons_of_ne hc, htail,
        List.cons_append]
      exact h.imp_right fun hmem => (List.ne_and_not_mem_of_not_mem_cons hmem).1.symm

/-- How a text is quoted: each quote twice, and from the first brace on between quotes. -/
def quoteText (s : List Char) : List Char :=
  if '{' ∈ s then
    doubleQuotes (s.takeWhile (· != '{')) ++
      '\'' :: (doubleQuotes (s.dropWhile (· != '{')) ++ ['\''])
  else doubleQuotes s

theorem quoteText_append {front : List Char} (h : '{' ∉ front) (back : List Char) :
    quoteText (front ++ '{' :: back) =
      doubleQuotes front ++ '\'' :: '{' :: (doubleQuotes back ++ ['\'']) := by
  have hfront : ∀ c ∈ front, (c != '{') = true := fun c hc => by
    simpa using ne_of_mem_of_not_mem hc h
  unfold quoteText
  rw [if_pos (by simp), List.takeWhile_append_of_pos hfront, List.dropWhile_append_of_pos hfront,
    List.takeWhile_cons_of_neg (by decide), List.dropWhile_cons_of_neg (by decide),
    List.append_nil, doubleQuotes_cons_of_ne (by decide), List.cons_append]

/-- A quoted text is read back, if what follows it does not go on with a quote. -/
theorem formatText_quoteText {rest : List Char} (h : rest.head? ≠ some '\'') (args : List String)
    (s : List Char) :
    formatText args false (quoteText s ++ rest) = s ++ formatText args false rest := by
  by_cases hbrace : '{' ∈ s
  · obtain ⟨front, back, rfl, hfront⟩ := List.eq_append_cons_of_mem hbrace
    have hopening : ('{' :: (doubleQuotes back ++ '\'' :: rest)).head? ≠ some '\'' :=
      fun h => absurd (Option.some.inj h) (by decide)
    have hclosing : formatText args true ('\'' :: rest) = formatText args false rest :=
      formatText_quote h args true
    calc formatText args false (quoteText (front ++ '{' :: back) ++ rest)
        = formatText args false
            (doubleQuotes front ++ '\'' :: '{' :: (doubleQuotes back ++ '\'' :: rest)) := by
          simp only [quoteText_append hfront, List.append_assoc, List.cons_append,
            List.nil_append]
      _ = front ++ formatText args true ('{' :: (doubleQuotes back ++ '\'' :: rest)) := by
          rw [formatText_doubleQuotes (.inr hfront), formatText_quote hopening, Bool.not_false]
      _ = front ++ '{' :: (back ++ formatText args true ('\'' :: rest)) := by
          rw [formatText_cons_of_ne (by decide) (.inl rfl), formatText_doubleQuotes (.inl rfl)]
      _ = front ++ '{' :: back ++ formatText args false rest := by
          rw [hclosing, List.append_assoc, List.cons_append]
  · rw [quoteText, if_neg hbrace]
    exact formatText_doubleQuotes (.inr hbrace) args rest

/-! ### References -/

theorem formatBrace_append {inner : List Char} (h : '}' ∉ inner) (args : List String)
    (gathered rest : List Char) :
    formatBrace args gathered (inner ++ '}' :: rest) =
      argument args (gathered.reverse ++ inner) ++ formatText args false rest := by
  induction inner generalizing gathered with
  | nil => rw [List.nil_append, formatBrace, if_pos rfl, List.append_nil]
  | cons c inner ih =>
    obtain ⟨hc, hinner⟩ := List.ne_and_not_mem_of_not_mem_cons h
    rw [List.cons_append, formatBrace, if_neg hc.symm, ih hinner, List.reverse_cons,
      List.append_assoc]
    rfl

/-- What stands between braces is a reference of its own. -/
theorem formatText_braces {inner : List Char} (h : '}' ∉ inner) (args : List String)
    (rest : List Char) :
    formatText args false ('{' :: inner ++ '}' :: rest) =
      argument args inner ++ formatText args false rest := by
  rw [List.cons_append, formatText, if_neg (by decide), if_pos (by decide), formatBrace_append h]
  · rfl
  · rintro s' h' -
    exact absurd h' (by decide)

/-- A reference to an argument as it may be written: the digits of a number, with blanks around
them and with a format after a comma. -/
structure Reference where
  number : Nat
  before : List Char
  digits : List Char
  after : List Char
  format : Option (List Char)
  before_blank : ∀ c ∈ before, isBlank c = true
  spells : SpellsNatural digits number
  after_blank : ∀ c ∈ after, isBlank c = true
  format_inside : ∀ f ∈ format, '}' ∉ f ∧ '\n' ∉ f

namespace Reference

/-- The comma and the format, if there is one. -/
def suffix (r : Reference) : List Char :=
  match r.format with
  | none => []
  | some f => ',' :: f

def inner (r : Reference) : List Char := r.before ++ (r.digits ++ (r.after ++ r.suffix))

def written (r : Reference) : List Char := '{' :: r.inner ++ ['}']

theorem suffix_cases (r : Reference) :
    r.suffix = [] ∨ ∃ f, r.suffix = ',' :: f ∧ '}' ∉ f ∧ '\n' ∉ f := by
  unfold suffix
  cases hformat : r.format with
  | none => exact .inl rfl
  | some f => exact .inr ⟨f, rfl, r.format_inside f hformat⟩

theorem not_mem_inner (r : Reference) : '}' ∉ r.inner := by
  unfold inner
  simp only [List.mem_append, not_or]
  refine ⟨fun h => ?_, fun h => ?_, fun h => ?_, fun h => ?_⟩
  · exact absurd (r.before_blank _ h) (by decide)
  · exact absurd (r.spells.isDigit_of_mem _ h) (by decide)
  · exact absurd (r.after_blank _ h) (by decide)
  · obtain hs | ⟨f, hs, hf, -⟩ := r.suffix_cases
    · simp [hs] at h
    · simp [hs, hf] at h

theorem trimStart_tail (r : Reference) : trimStart (r.after ++ r.suffix) = r.suffix := by
  rw [trimStart, List.dropWhile_append_of_pos r.after_blank]
  obtain hs | ⟨f, hs, -, -⟩ := r.suffix_cases
  · rw [hs, List.dropWhile_nil]
  · rw [hs, List.dropWhile_cons_of_neg (by decide)]

theorem head_tail_not_isDigit (r : Reference) :
    ∀ c ∈ (r.after ++ r.suffix).head?, isDigit c = false := by
  intro c hc
  cases hafter : r.after with
  | nil =>
    rw [hafter, List.nil_append] at hc
    obtain hs | ⟨f, hs, -, -⟩ := r.suffix_cases
    · simp [hs] at hc
    · obtain rfl : ',' = c := by simpa [hs] using hc
      decide
  | cons d after =>
    obtain rfl : d = c := by simpa [hafter] using hc
    have hblank := r.after_blank d (hafter ▸ List.mem_cons_self)
    exact Bool.eq_false_iff.mpr fun h => by simp [not_isBlank_of_isDigit h] at hblank

/-- The number in a reference is read through the blanks around it and the format after it. -/
theorem argumentIndex?_inner (r : Reference) :
    argumentIndex? r.inner = if r.number ≤ wordMax then some r.number else none := by
  have hstart : trimStart r.inner = r.digits ++ (r.after ++ r.suffix) := by
    rw [trimStart, inner, List.dropWhile_append_of_pos r.before_blank]
    exact r.spells.trimStart_append _
  unfold argumentIndex?
  dsimp only
  rw [hstart, r.spells.takeWhile_append r.head_tail_not_isDigit,
    r.spells.dropWhile_append r.head_tail_not_isDigit, r.trimStart_tail,
    unsigned?_of_spellsNatural r.spells]
  obtain hs | ⟨f, hs, -, hf⟩ := r.suffix_cases
  · simp [hs]
  · simp [hs, hf]

/-- What a reference stands for: the display text of its argument, or the reference as it is
written if there is no such argument. -/
def meaning (heap : BundleHeap) (args : List Value) (r : Reference) : List Char :=
  match args[r.number]? with
  | some v => if r.number ≤ wordMax then (v.display heap).toList else r.written
  | none => r.written

theorem argument_inner (heap : BundleHeap) (args : List Value) (r : Reference) :
    argument (args.map (·.display heap)) r.inner = r.meaning heap args := by
  unfold argument meaning
  rw [argumentIndex?_inner]
  by_cases hlimit : r.number ≤ wordMax
  · rw [if_pos hlimit, Option.bind_some, List.getElem?_map]
    cases args[r.number]? with
    | none => rfl
    | some v => exact (if_pos hlimit).symm
  · rw [if_neg hlimit, Option.bind_none]
    cases args[r.number]? with
    | none => rfl
    | some v => exact (if_neg hlimit).symm

theorem formatText_written (heap : BundleHeap) (args : List Value) (r : Reference)
    (rest : List Char) :
    formatText (args.map (·.display heap)) false (r.written ++ rest) =
      r.meaning heap args ++ formatText (args.map (·.display heap)) false rest := by
  rw [← argument_inner, ← formatText_braces r.not_mem_inner, written, List.append_assoc]
  rfl

end Reference

/-! ### Messages -/

inductive MessagePart
  | text (t : List Char)
  | reference (r : Reference)

namespace MessagePart

def print : MessagePart → List Char
  | .text t => quoteText t
  | .reference r => r.written

def meaning (heap : BundleHeap) (args : List Value) : MessagePart → List Char
  | .text t => t
  | .reference r => r.meaning heap args

/-- One part may follow another, unless both are texts. -/
def MayPrecede : MessagePart → MessagePart → Prop
  | .text _, .text _ => False
  | _, _ => True

/-- What follows a text does not begin with a quote. -/
theorem head?_flatMap_print {t : List Char} {parts : List MessagePart}
    (h : (text t :: parts).IsChain MayPrecede) : (parts.flatMap print).head? ≠ some '\'' := by
  cases parts with
  | nil => simp
  | cons p parts =>
    cases p with
    | text t' => exact absurd h.rel id
    | reference r =>
      rw [List.flatMap_cons, print, Reference.written]
      simp

end MessagePart

open MessagePart

theorem formatText_flatMap_print {parts : List MessagePart} (h : parts.IsChain MayPrecede)
    (heap : BundleHeap) (args : List Value) :
    formatText (args.map (·.display heap)) false (parts.flatMap print) =
      parts.flatMap (meaning heap args) := by
  induction parts with
  | nil => rfl
  | cons p parts ih =>
    have htail := ih h.tail
    rw [List.flatMap_cons, List.flatMap_cons]
    cases p with
    | text t =>
      rw [print, formatText_quoteText (head?_flatMap_print h), htail, MessagePart.meaning]
    | reference r =>
      rw [print, Reference.formatText_written, htail, MessagePart.meaning]

/-- Quoting undoes itself: texts come back as they were and references stand for their
arguments, whatever the texts and the arguments hold. -/
theorem format_print (heap : BundleHeap) (args : List Value) {parts : List MessagePart}
    (h : parts.IsChain MayPrecede) :
    format (String.ofList (parts.flatMap print)) (args.map (·.display heap)) =
      String.ofList (parts.flatMap (meaning heap args)) := by
  rw [format, String.toList_ofList, formatText_flatMap_print h]

theorem format_print_quoted_brace :
    format "It''s '\x7b '\x7b 0 ,x\x7d\x7b7\x7d" ["Widget"] = "It's \x7b Widget\x7b7\x7d" :=
  have spells (c : Char) (n : Nat) (h : c.isDigit = true) (hn : Nat.ofDigitChars 10 [c] 0 = n) :
      SpellsNatural [c] n :=
    ⟨List.cons_ne_nil _ _, List.forall_mem_singleton.mpr h, hn⟩
  have blank : ∀ c ∈ [' '], isBlank c = true := List.forall_mem_singleton.mpr rfl
  @format_print [] [.text "Widget"]
    [.text "It's \x7b ".toList,
      .reference ⟨0, [' '], ['0'], [' '], some ['x'], blank, spells _ _ rfl rfl, blank, by simp⟩,
      .reference ⟨7, [], ['7'], [], none, nofun, spells _ _ rfl rfl, nofun, nofun⟩]
    (by simp [MayPrecede])

end ScreenActions.MessagePattern

import Mathlib.Data.List.Chain
import ScreenActions.Proofs.TemplateExpansion
import ScreenActions.Proofs.TextParts

/-!
Templates put together from parts. What is printed for the parts expands to what they mean, as long
as no text runs into what stands next to it.
-/

namespace ScreenActions

open Text

/-- A part of a template: text as it is to come out, a field by its path, or a field whose path is
put together from parts. -/
inductive TemplatePart
  | text (t : String)
  | field (path : String)
  | nested (parts : List TemplatePart)
  deriving Repr

namespace TemplatePart

def isText : TemplatePart → Bool
  | .text _ => true
  | _ => false

/-- Text as it is written in a template. -/
def escape : List Char → List Char
  | [] => []
  | '$' :: '{' :: s => '\\' :: '$' :: '{' :: escape s
  | c :: s => c :: escape s

mutual
/-- A part as it is written. -/
def print : TemplatePart → List Char
  | .text t => escape t.toList
  | .field path => '$' :: '{' :: path.toList ++ ['}']
  | .nested parts => '$' :: '{' :: printAll parts ++ ['}']

def printAll : List TemplatePart → List Char
  | [] => []
  | p :: ps => print p ++ printAll ps
end

section

variable {σ : Type} [FieldStore σ]

/-- The text shown for the field at a path, which is empty if the field is missing. -/
def fieldText (heap : BundleHeap) (s : σ) (path : String) : String :=
  TemplatePiece.valueText heap ((FieldPath.ofText path).getValue? heap s)

mutual
/-- What a part stands for. -/
def meaning (heap : BundleHeap) (s : σ) : TemplatePart → String
  | .text t => t
  | .field path => fieldText heap s path
  | .nested parts => fieldText heap s (meaningAll heap s parts)

def meaningAll (heap : BundleHeap) (s : σ) : List TemplatePart → String
  | [] => ""
  | p :: ps => meaning heap s p ++ meaningAll heap s ps
end

end

/-- The text neither opens nor closes a placeholder. -/
def Plain (s : List Char) : Prop := occursIn ['$', '{'] s = false ∧ '}' ∉ s

/-- The second part may follow the first one. A text is not followed by a text, and a backslash at
its end would escape a placeholder. -/
def Precedes : TemplatePart → TemplatePart → Prop
  | .text t, q => q.isText = false ∧ t.toList.getLast? ≠ some '\\'
  | _, _ => True

/-- The part may stand inside a placeholder. -/
inductive Inner : TemplatePart → Prop
  | text {t : String} (plain : Plain t.toList) : Inner (.text t)
  | field {path : String} (plain : Plain path.toList) : Inner (.field path)
  | nested {parts : List TemplatePart} (inner : ∀ p ∈ parts, Inner p)
      (chain : parts.IsChain Precedes) (placeholder : ∃ p ∈ parts, p.isText = false) :
      Inner (.nested parts)

/-- The parts of a template: any text, and placeholders that can be read back. -/
structure Printable (parts : List TemplatePart) : Prop where
  inner : ∀ p ∈ parts, p.isText = true ∨ p.Inner
  chain : parts.IsChain Precedes

theorem exists_print_of_not_text {p : TemplatePart} (h : p.isText = false) :
    ∃ r, print p = '$' :: '{' :: r := by
  cases p with
  | text t => cases h
  | field path => exact ⟨_, by rw [print]; rfl⟩
  | nested parts => exact ⟨_, by rw [print]; rfl⟩

theorem Precedes.not_isText {p q : TemplatePart} (h : Precedes p q) (hp : p.isText = true) :
    q.isText = false := by
  cases p with
  | text t => exact h.1
  | field path => cases hp
  | nested parts => cases hp

/-- A text that opens no placeholder is written as it is. -/
theorem escape_of_not_occursIn {s : List Char} (h : occursIn ['$', '{'] s = false) :
    escape s = s := by
  fun_induction escape s with
  | case1 => rfl
  | case2 s => exact absurd ⟨s, .inl rfl⟩ (TemplatePiece.not_opens_of_not_occursIn h)
  | case3 c s hs ih => rw [ih (TemplatePiece.not_occursIn_tail h)]

open TemplatePiece (cutClose read Opens)

/-- The search for a closing brace runs over the whole of `s` into `rest`, at every depth. -/
def Passes (s rest : List Char) : Prop :=
  ∀ depth, cutClose depth (s ++ rest) = (cutClose depth rest).map fun (a, b) => (s ++ a, b)

theorem Passes.append {s t rest : List Char} (hs : Passes s (t ++ rest)) (ht : Passes t rest) :
    Passes (s ++ t) rest := by
  intro depth
  rw [List.append_assoc, hs depth, ht depth, Option.map_map]
  apply congrFun (congrArg _ _)
  funext ⟨a, b⟩
  simp

theorem passes_plain {s rest : List Char} (hs : Plain s) (hrest : rest.head? ≠ some '{') :
    Passes s rest := by
  intro depth
  obtain ⟨hopen, hclose⟩ := hs
  induction s with
  | nil => simp
  | cons c s ih =>
    obtain ⟨hc, hclose⟩ := List.ne_and_not_mem_of_not_mem_cons hclose
    have hnext : ∀ r, c :: (s ++ rest) ≠ '$' :: '{' :: r := by
      intro r hr
      obtain ⟨rfl, htail⟩ := List.cons.inj hr
      cases s with
      | nil => exact hrest (by rw [← List.nil_append rest, htail]; rfl)
      | cons d s =>
        obtain ⟨rfl, -⟩ := List.cons.inj htail
        exact TemplatePiece.not_opens_of_not_occursIn hopen ⟨s, .inl rfl⟩
    rw [List.cons_append, TemplatePiece.cutClose_of_ne depth (Ne.symm hc) hnext,
      ih (TemplatePiece.not_occursIn_tail hopen) hclose, Option.map_map]
    rfl

/-- The braces of a placeholder are passed together with what stands between them. -/
theorem Passes.placeholder {s rest : List Char} (hs : Passes s ('}' :: rest)) :
    Passes ('$' :: '{' :: s ++ ['}']) rest := by
  intro depth
  have hclose : cutClose (depth + 1) ('}' :: rest) =
      (cutClose depth rest).map fun (a, b) => ('}' :: a, b) := by simp [cutClose]
  simp only [List.cons_append, List.append_assoc, List.nil_append, cutClose, hs (depth + 1),
    hclose, Option.map_map]
  rfl

theorem Passes.cutClose_eq {s rest : List Char} (hs : Passes s ('}' :: rest)) :
    cutClose 0 (s ++ '}' :: rest) = some (s, rest) := by
  rw [hs 0]
  simp [cutClose]

theorem passes_printAll {parts : List TemplatePart} {rest : List Char}
    (hparts : ∀ p ∈ parts, ∀ r, (p.isText = true → r.head? ≠ some '{') → Passes (print p) r)
    (hchain : parts.IsChain Precedes) (hrest : rest.head? ≠ some '{') :
    Passes (printAll parts) rest := by
  induction parts with
  | nil => intro depth; simp [printAll]
  | cons p ps ih =>
    -- A text is followed by a placeholder or by `rest`, so that no brace completes a dollar sign.
    obtain ⟨hp, hps⟩ := List.forall_mem_cons.mp hparts
    have htail : Passes (printAll ps) rest := ih hps hchain.tail
    rw [printAll]
    refine Passes.append (hp _ fun htext => ?_) htail
    cases ps with
    | nil => exact hrest
    | cons q ps =>
      obtain ⟨r, hr⟩ := exists_print_of_not_text (hchain.rel.not_isText htext)
      simp [printAll, hr]

theorem Inner.passes_print {p : TemplatePart} (hp : p.Inner) {rest : List Char}
    (hrest : p.isText = true → rest.head? ≠ some '{') : Passes (print p) rest := by
  induction hp generalizing rest with
  | @text t plain =>
    rw [print, escape_of_not_occursIn plain.1]
    exact passes_plain plain (hrest rfl)
  | @field path plain =>
    rw [print]
    exact (passes_plain plain (by simp)).placeholder
  | @nested parts inner chain placeholder ih =>
    rw [print]
    exact (passes_printAll ih chain (by simp)).placeholder

/-- What follows a text ends the template or is a placeholder that the text does not escape. -/
def Apart (s rest : List Char) : Prop :=
  rest = [] ∨ (∃ r, rest = '$' :: '{' :: r) ∧ s.getLast? ≠ some '\\'

theorem Apart.head?_ne {s rest : List Char} (h : Apart s rest) : rest.head? ≠ some '{' := by
  rcases h with rfl | ⟨⟨r, rfl⟩, -⟩ <;> simp

theorem Apart.of_append {s t rest : List Char} (h : Apart (s ++ t) rest) : Apart t rest := by
  rcases h with rfl | ⟨hrest, hlast⟩
  · exact .inl rfl
  · refine .inr ⟨hrest, fun ht => hlast ?_⟩
    rw [List.getLast?_append, ht]
    rfl

theorem head?_escape_append {s rest : List Char} (hs : s.head? ≠ some '{')
    (hrest : rest.head? ≠ some '{') : (escape s ++ rest).head? ≠ some '{' := by
  fun_cases escape s with
  | case1 => exact hrest
  | case2 s => simp
  | case3 c s _ => exact hs

theorem head?_ne_of_ne_cons {s : List Char} (h : ∀ r, s ≠ '{' :: r) : s.head? ≠ some '{' := by
  intro hs
  obtain ⟨r, hr⟩ := List.head?_eq_some_iff.mp hs
  exact h r hr

/-- Escaping leaves no placeholder at the front, and no backslash that would take part in one. -/
theorem not_opens_escape {c : Char} {s rest : List Char} (hs : ∀ r, c :: s ≠ '$' :: '{' :: r)
    (h : Apart (c :: s) rest) : ¬Opens (c :: (escape s ++ rest)) := by
  rintro ⟨r, hr | hr⟩
  -- A dollar sign: no brace follows it in `s`, so none follows it in what is written for `s`.
  · obtain ⟨rfl, htail⟩ := List.cons.inj hr
    have hhead : s.head? ≠ some '{' := head?_ne_of_ne_cons fun r hr => hs r (by rw [hr])
    exact head?_escape_append hhead h.head?_ne (congrArg List.head? htail)
  -- A backslash: what follows it is a placeholder of the rest only if `s` is empty, which `h`
  -- excludes, since a placeholder in `s` is written with a backslash of its own.
  · obtain ⟨rfl, htail⟩ := List.cons.inj hr
    fun_cases escape s with
    | case1 =>
      rcases h with rfl | ⟨-, hlast⟩
      · cases htail
      · exact hlast rfl
    | case2 s => cases htail
    | case3 d s hd =>
      rw [escape.eq_3 d s hd] at htail
      obtain ⟨rfl, hnext⟩ := List.cons.inj htail
      have hhead : s.head? ≠ some '{' := head?_ne_of_ne_cons fun r => hd r rfl
      exact head?_escape_append hhead h.head?_ne (congrArg List.head? hnext)

/-- A text is read back as itself, up to what follows it. -/
theorem read_escape_append {s rest : List Char} (text : List Char) (h : Apart s rest) :
    read text (escape s ++ rest) = read (s.reverse ++ text) rest := by
  fun_induction escape s generalizing text with
  | case1 => rfl
  | case2 s ih =>
    have hs : Apart s rest := h.of_append (s := ['$', '{'])
    simp only [List.cons_append, TemplatePiece.read_escape, ih _ hs, List.reverse_cons,
      List.append_assoc, List.nil_append]
  | case3 c s hs ih =>
    have hs' : Apart s rest := h.of_append (s := [c])
    have hopens : ¬Opens (c :: (escape s ++ rest)) := not_opens_escape (by
      rintro r hr
      exact hs r (List.cons.inj hr).1 (List.cons.inj hr).2) h
    rw [List.cons_append, TemplatePiece.read_of_not_opens text hopens, ih _ hs',
      List.reverse_cons, List.append_assoc]
    rfl

section

variable {σ : Type} [FieldStore σ] {heap : BundleHeap} {s : σ}

open TemplatePiece (expandAll)

/-- What is printed for the part expands to what it means. -/
def ReadsBack (heap : BundleHeap) (s : σ) (p : TemplatePart) : Prop :=
  ∀ text rest, (∀ t, p = .text t → Apart t.toList rest) →
    expandAll heap s (read text (print p ++ rest)) =
      String.ofList text.reverse ++ (meaning heap s p ++ expandAll heap s (read [] rest))

theorem readsBack_text (t : String) : ReadsBack heap s (.text t) := by
  intro text rest hrest
  rw [print, read_escape_append text (hrest t rfl), TemplatePiece.expandAll_read]
  simp [meaning, String.append_assoc]

/-- The piece of a placeholder comes out between the text gathered before and the rest. -/
theorem Passes.expandAll_read {inner rest : List Char} (h : Passes inner ('}' :: rest))
    (text : List Char) :
    expandAll heap s (read text ('$' :: '{' :: inner ++ ['}'] ++ rest)) =
      String.ofList text.reverse ++
        (TemplatePiece.expand heap s (TemplatePiece.placeholder inner) ++
          expandAll heap s (read [] rest)) := by
  have hread : read text ('$' :: '{' :: inner ++ ['}'] ++ rest) =
      TemplatePiece.flush text ++ TemplatePiece.placeholder inner :: read [] rest := by
    rw [← TemplatePiece.read_placeholder text h.cutClose_eq]
    simp
  rw [hread, TemplatePiece.expandAll_append, TemplatePiece.expandAll_flush, expandAll]

theorem readsBack_field {path : String} (h : Plain path.toList) :
    ReadsBack heap s (.field path) := by
  intro text rest _
  have hpass : Passes path.toList ('}' :: rest) := passes_plain h (by simp)
  rw [print, hpass.expandAll_read text]
  simp [TemplatePiece.placeholder, h.1, TemplatePiece.expand, meaning, fieldText]

theorem expandAll_read_printAll {parts : List TemplatePart}
    (hparts : ∀ p ∈ parts, ReadsBack heap s p) (hchain : parts.IsChain Precedes)
    (text : List Char) :
    expandAll heap s (read text (printAll parts)) =
      String.ofList text.reverse ++ meaningAll heap s parts := by
  induction parts generalizing text with
  | nil => simp [printAll, meaningAll, TemplatePiece.read_nil, TemplatePiece.expandAll_flush]
  | cons p ps ih =>
    obtain ⟨hp, hps⟩ := List.forall_mem_cons.mp hparts
    have hnext : ∀ t, p = .text t → Apart t.toList (printAll ps) := by
      rintro t rfl
      cases ps with
      | nil => exact .inl rfl
      | cons q ps =>
        obtain ⟨hq, hlast⟩ := hchain.rel
        obtain ⟨r, hr⟩ := exists_print_of_not_text hq
        exact .inr ⟨⟨r ++ printAll ps, by rw [printAll, hr]; rfl⟩, hlast⟩
    rw [printAll, hp text _ hnext, ih hps hchain.tail, meaningAll]
    simp

theorem occursIn_printAll {parts : List TemplatePart} (h : ∃ p ∈ parts, p.isText = false) :
    occursIn ['$', '{'] (printAll parts) = true := by
  rw [occursIn_iff_isInfix]
  induction parts with
  | nil => simp at h
  | cons q ps ih =>
    rw [printAll]
    obtain ⟨p, hp, htext⟩ := h
    rcases List.mem_cons.mp hp with rfl | hp
    · obtain ⟨r, hr⟩ := exists_print_of_not_text htext
      rw [hr]
      exact (List.prefix_append ['$', '{'] (r ++ printAll ps)).isInfix
    · exact (ih ⟨p, hp, htext⟩).trans (List.suffix_append _ _).isInfix

theorem Inner.readsBack {p : TemplatePart} (h : p.Inner) : ReadsBack heap s p := by
  induction h with
  | text => exact readsBack_text _
  | field plain => exact readsBack_field plain
  | @nested parts inner chain placeholder ih =>
    intro text rest _
    have hpass : Passes (printAll parts) ('}' :: rest) :=
      passes_printAll (fun p hp _ => (inner p hp).passes_print) chain (by simp)
    rw [print, hpass.expandAll_read text]
    simp [TemplatePiece.placeholder, occursIn_printAll placeholder, TemplatePiece.expand, meaning,
      fieldText, expandAll_read_printAll ih chain]

/-- The template printed for the parts expands to what they mean, one after the other. -/
theorem Printable.expandText_print {parts : List TemplatePart} (h : Printable parts)
    (heap : BundleHeap) (s : σ) :
    (Template.ofText (String.ofList (printAll parts))).expandText heap s =
      meaningAll heap s parts := by
  have hparts : ∀ p ∈ parts, ReadsBack heap s p := by
    intro p hp
    rcases h.inner p hp with htext | hinner
    · cases p with
      | text t => exact readsBack_text t
      | field path => cases htext
      | nested parts => cases htext
    · exact hinner.readsBack
  unfold Template.ofText Template.expandText
  rw [String.toList_ofList, expandAll_read_printAll hparts h.chain []]
  simp

end

theorem expandText_print_twice_nested :
    let m : ValueMap := [("ab", .text "c"), ("c", .text "Orders"), ("k", .text "b")]
    let parts : List TemplatePart :=
      [.text "$\x7bk\x7d costs $", .nested [.nested [.text "a", .field "k"]], .text "\\"]
    Printable parts ∧
      String.ofList (printAll parts) = "\\$\x7bk\x7d costs $$\x7b$\x7ba$\x7bk\x7d\x7d\x7d\\" ∧
      (Template.ofText (String.ofList (printAll parts))).expandText [] m = meaningAll [] m parts ∧
      meaningAll [] m parts = "$\x7bk\x7d costs $Orders\\" := by
  intro m parts
  have hplain : ∀ t : String, t = "a" ∨ t = "k" → Plain t.toList := by
    rintro t (rfl | rfl) <;> exact ⟨by decide, by decide⟩
  have hinner : Inner (.nested [.text "a", .field "k"]) := by
    refine .nested ?_ (by simp [Precedes, isText]) ⟨_, List.mem_cons_of_mem _ (.head _), rfl⟩
    simp only [List.forall_mem_cons]
    exact ⟨.text (hplain _ (.inl rfl)), .field (hplain _ (.inr rfl)), nofun⟩
  have hparts : Printable parts := by
    refine ⟨?_, by simp [parts, Precedes, isText]⟩
    simp only [parts, List.forall_mem_cons]
    refine ⟨.inl rfl, .inr (.nested ?_ (by simp) ⟨_, .head _, rfl⟩), .inl rfl, nofun⟩
    simpa using hinner
  exact ⟨hparts, by decide, hparts.expandText_print [] m, by decide⟩

end TemplatePart
end ScreenActions

import ScreenActions.Template

/-!
How a template is read from left to right, and what follows for its expansion: the three ways to
expand agree, and a template whose placeholders are closed expands apart from what follows it.
-/

namespace ScreenActions

open Text

namespace TemplatePiece

/-- A placeholder starts here, or one that is escaped. -/
def Opens (s : List Char) : Prop := ∃ r, s = '$' :: '{' :: r ∨ s = '\\' :: '$' :: '{' :: r

theorem read_of_not_opens {c : Char} {s : List Char} (text : List Char) (h : ¬Opens (c :: s)) :
    read text (c :: s) = read (c :: text) s := by
  apply read.eq_4
  · rintro r rfl rfl
    exact h ⟨r, .inr rfl⟩
  · rintro r rfl rfl
    exact h ⟨r, .inl rfl⟩

theorem read_nil (text : List Char) : read text [] = flush text := read.eq_1 text

theorem read_escape (text s : List Char) :
    read text ('\\' :: '$' :: '{' :: s) = read ('{' :: '$' :: text) s :=
  read.eq_2 text s

/-- The piece for what stands between the braces. -/
def placeholder (inner : List Char) : TemplatePiece :=
  if occursIn ['$', '{'] inner then .nested (read [] inner)
  else .field (FieldPath.ofText (String.ofList inner))

theorem read_placeholder {s inner rest : List Char} (text : List Char)
    (h : cutClose 0 s = some (inner, rest)) :
    read text ('$' :: '{' :: s) = flush text ++ placeholder inner :: read [] rest := by
  rw [read.eq_3]
  split
  · next h' =>
    rw [h] at h'
    cases h'
  · next h' =>
    rw [h] at h'
    cases h'
    rfl

theorem read_open {s : List Char} (text : List Char) (h : cutClose 0 s = none) :
    read text ('$' :: '{' :: s) = flush (s.reverse ++ '{' :: '$' :: text) := by
  rw [read.eq_3]
  split
  · rfl
  · next h' =>
    rw [h] at h'
    cases h'

theorem not_opens_of_not_occursIn {c : Char} {s : List Char}
    (h : occursIn ['$', '{'] (c :: s) = false) : ¬Opens (c :: s) := by
  rintro ⟨r, hr | hr⟩
  · rw [hr] at h
    simp [occursIn, startsWith, stripLead?] at h
  · rw [hr] at h
    simp [occursIn, startsWith, stripLead?] at h

theorem not_occursIn_tail {part : List Char} {c : Char} {s : List Char}
    (h : occursIn part (c :: s) = false) : occursIn part s = false :=
  (Bool.or_eq_false_iff.mp h).2

/-- A text without a placeholder is read as itself. -/
theorem read_of_not_occursIn (text : List Char) {s : List Char}
    (h : occursIn ['$', '{'] s = false) : read text s = flush (s.reverse ++ text) := by
  induction s generalizing text with
  | nil => exact read_nil text
  | cons c s ih =>
    rw [read_of_not_opens text (not_opens_of_not_occursIn h), ih (c :: text) (not_occursIn_tail h)]
    simp

theorem cutClose_of_ne {c : Char} {s : List Char} (depth : Nat) (hc : c ≠ '}')
    (h : ∀ r, c :: s ≠ '$' :: '{' :: r) :
    cutClose depth (c :: s) = (cutClose depth s).map fun (a, b) => (c :: a, b) := by
  have hopen : ∀ r, c = '$' → s = '{' :: r → False := by
    rintro r rfl rfl
    exact h r rfl
  cases depth with
  | zero => rw [cutClose.eq_3 c s hopen, if_neg hc]
  | succ depth => rw [cutClose.eq_4 c s depth hopen, if_neg hc]

/-- What follows the closing brace of a placeholder plays no part in finding it. -/
theorem cutClose_append {depth : Nat} {s inner rest : List Char}
    (h : cutClose depth s = some (inner, rest)) (t : List Char) :
    cutClose depth (s ++ t) = some (inner, rest ++ t) := by
  fun_induction cutClose depth s generalizing inner rest with
  | case1 => cases h
  | case2 depth s ih =>
    obtain ⟨⟨a, b⟩, hab, h⟩ := Option.map_eq_some_iff.mp h
    cases h
    simp only [List.cons_append, cutClose, ih hab, Option.map_some]
  | case3 s hs =>
    cases h
    simp [cutClose]
  | case4 s hs depth ih =>
    obtain ⟨⟨a, b⟩, hab, h⟩ := Option.map_eq_some_iff.mp h
    cases h
    simp [cutClose, ih hab]
  | case5 depth c s hs hc ih =>
    obtain ⟨⟨a, b⟩, hab, h⟩ := Option.map_eq_some_iff.mp h
    cases h
    -- A dollar sign at the end of `s` cannot meet a brace of `t`: `s` has the closing brace still.
    have hopen : ∀ r, c :: (s ++ t) ≠ '$' :: '{' :: r := by
      intro r hr
      obtain ⟨hdollar, hr⟩ := List.cons.inj hr
      cases s with
      | nil => cases hab
      | cons d s =>
        obtain ⟨rfl, -⟩ := List.cons.inj hr
        exact hs s hdollar rfl
    rw [List.cons_append, cutClose_of_ne depth hc hopen, ih hab]
    rfl

variable {σ : Type} [FieldStore σ]

theorem expandAll_append (heap : BundleHeap) (s : σ) (ps qs : List TemplatePiece) :
    expandAll heap s (ps ++ qs) = expandAll heap s ps ++ expandAll heap s qs := by
  induction ps with
  | nil => simp [expandAll]
  | cons p ps ih => simp only [List.cons_append, expandAll, ih, String.append_assoc]

theorem expandAll_flush (heap : BundleHeap) (s : σ) (text : List Char) :
    expandAll heap s (flush text) = String.ofList text.reverse := by
  unfold flush
  split
  · next h =>
    rw [List.isEmpty_iff.mp h]
    rfl
  · simp [expandAll, expand]

/-- The text gathered before comes out before the rest. -/
theorem expandAll_read_append (heap : BundleHeap) (s : σ) (before text t : List Char) :
    expandAll heap s (read (text ++ before) t) =
      String.ofList before.reverse ++ expandAll heap s (read text t) := by
  fun_induction read text t with
  | case1 text =>
    rw [read_nil, expandAll_flush, expandAll_flush, List.reverse_append, String.ofList_append]
  | case2 text t ih => rw [read_escape]; exact ih
  | case3 text t h =>
    rw [read_open _ h, expandAll_flush, expandAll_flush, ← String.ofList_append,
      ← List.reverse_append, List.append_assoc]
    rfl
  | case4 text t inner rest h =>
    rw [read_placeholder _ h]
    simp only [expandAll_append, expandAll_flush, List.reverse_append, String.ofList_append,
      String.append_assoc]
    rfl
  | case5 text c t hescape hopen ih =>
    rw [read.eq_4 _ _ _ hescape hopen]
    exact ih

theorem expandAll_read (heap : BundleHeap) (s : σ) (text t : List Char) :
    expandAll heap s (read text t) =
      String.ofList text.reverse ++ expandAll heap s (read [] t) :=
  expandAll_read_append heap s text [] t

/-- Each placeholder that reading comes to, unless it is escaped, is closed within the text. -/
inductive Closed : List Char → Prop
  | nil : Closed []
  | escape {s : List Char} (tail : Closed s) : Closed ('\\' :: '$' :: '{' :: s)
  | placeholder {s inner rest : List Char} (close : cutClose 0 s = some (inner, rest))
      (tail : Closed rest) : Closed ('$' :: '{' :: s)
  | char {c : Char} {s : List Char} (plain : ¬Opens (c :: s)) (tail : Closed s) : Closed (c :: s)

/-- The last character, if any, cannot take part in what opens a placeholder. -/
def EndsApart (s : List Char) : Prop := ∀ c ∈ s.getLast?, c ≠ '\\' ∧ c ≠ '$'

theorem EndsApart.of_append {s t : List Char} (h : EndsApart (s ++ t)) : EndsApart t := by
  intro c hc
  apply h
  rw [Option.mem_def] at hc ⊢
  rw [List.getLast?_append, hc]
  rfl

theorem EndsApart.not_opens {c : Char} {s : List Char} (h : EndsApart (c :: s))
    (hs : ¬Opens (c :: s)) (t : List Char) : ¬Opens (c :: s ++ t) := by
  rintro ⟨r, hr | hr⟩
  · obtain ⟨rfl, htail⟩ := List.cons.inj hr
    cases s with
    | nil => exact (h _ rfl).2 rfl
    | cons d s =>
      obtain ⟨rfl, -⟩ := List.cons.inj htail
      exact hs ⟨s, .inl rfl⟩
  · obtain ⟨rfl, htail⟩ := List.cons.inj hr
    match s with
    | [] => exact (h _ rfl).1 rfl
    | [d] => exact (h d rfl).2 (List.cons.inj htail).1
    | d :: e :: s =>
      simp only [List.cons_append, List.append_eq, List.cons.injEq] at htail
      obtain ⟨rfl, rfl, -⟩ := htail
      exact hs ⟨s, .inr rfl⟩

/-- A text whose placeholders are closed is read apart from what follows it. -/
theorem Closed.expandAll_read_append {t : List Char} (ht : Closed t) (hlast : EndsApart t)
    (heap : BundleHeap) (s : σ) (text u : List Char) :
    expandAll heap s (read text (t ++ u)) =
      expandAll heap s (read text t) ++ expandAll heap s (read [] u) := by
  induction ht generalizing text with
  | nil => rw [List.nil_append, expandAll_read, read_nil, expandAll_flush]
  | @escape t tail ih =>
    have hlast : EndsApart t := hlast.of_append (s := ['\\', '$', '{'])
    simp only [List.cons_append, read_escape, ih hlast]
  | @placeholder t inner rest close tail ih =>
    have hrest : EndsApart rest := by
      apply EndsApart.of_append (s := '$' :: '{' :: inner ++ ['}'])
      simpa [eq_append_of_cutClose close] using hlast
    simp only [List.cons_append, read_placeholder text (cutClose_append close u),
      read_placeholder text close, expandAll_append, expandAll, ih hrest, String.append_assoc]
  | @char c t plain tail ih =>
    have hplain := hlast.not_opens plain u
    have hlast : EndsApart t := hlast.of_append (s := [c])
    rw [read_of_not_opens text plain, ← ih hlast]
    exact congrArg _ (read_of_not_opens text hplain)

end TemplatePiece

namespace Template

open TemplatePiece

variable {σ : Type} [FieldStore σ]

/-- A template without a placeholder is a text. -/
theorem ofText_of_not_occursIn {t : String} (h : occursIn ['$', '{'] t.toList = false) :
    ofText t = ⟨t, flush t.toList.reverse⟩ := by
  rw [ofText, read_of_not_occursIn [] h, List.append_nil]

/-- A template whose placeholders are closed, and whose end cannot open one, expands apart from
whatever follows it. -/
theorem expandText_append {t : String} (hclosed : Closed t.toList) (hend : EndsApart t.toList)
    (u : String) (heap : BundleHeap) (s : σ) :
    (ofText (t ++ u)).expandText heap s =
      (ofText t).expandText heap s ++ (ofText u).expandText heap s := by
  unfold ofText expandText
  rw [String.toList_append]
  exact hclosed.expandAll_read_append hend heap s [] u.toList

theorem expandText_append_unclosed :
    let m : ValueMap := [("ab", .text "Orders"), ("k", .text "b")]
    let t := "\\$\x7b$\x7ba$\x7bk\x7d\x7d."
    let u := " $\x7bk"
    Closed t.toList ∧ EndsApart t.toList ∧
      (ofText (t ++ u)).expandText [] m =
        (ofText t).expandText [] m ++ (ofText u).expandText [] m ∧
      (ofText t).expandText [] m = "$\x7bOrders." ∧ (ofText u).expandText [] m = " $\x7bk" := by
  intro m t u
  have ht : t.toList = ['\\', '$', '{', '$', '{', 'a', '$', '{', 'k', '}', '}', '.'] := by simp [t]
  have hclosed : Closed t.toList := by
    rw [ht]
    exact .escape (.placeholder rfl (.char (by simp [Opens]) .nil))
  have hend : EndsApart t.toList := by simp [EndsApart, ht]
  exact ⟨hclosed, hend, expandText_append hclosed hend u [] m, by decide +kernel,
    by decide +kernel⟩

theorem display_getD_null (heap : BundleHeap) (v : Option Value) :
    (v.getD .null).display heap = valueText heap v := by
  cases v <;> rfl

/-- Expanding a text at once, expanding its template to a text, and showing the value that its
template expands to, are the same. -/
theorem expandOnce_eq_expandText_and_display_expand (t : String) (heap : BundleHeap) (s : σ) :
    expandOnce t heap s = (ofText t).expandText heap s ∧
      ((ofText t).expand heap s).display heap = (ofText t).expandText heap s := by
  constructor
  · unfold expandOnce
    split
    · rfl
    · next h =>
      unfold ofText expandText
      rw [read_of_not_occursIn [] (Bool.not_eq_true _ ▸ h), expandAll_flush]
      simp
  · unfold expand
    split
    · next p hp => simp [expandText, hp, expandAll, TemplatePiece.expand, display_getD_null]
    · next pieces hp => simp [expandText, hp, expandAll, TemplatePiece.expand, display_getD_null]
    · rfl

end Template
end ScreenActions

import Mathlib.Data.List.Infix
import ScreenActions.Proofs.FieldMapping
import ScreenActions.Proofs.MessageQuoting
import ScreenActions.Proofs.Step
import ScreenActions.Proofs.TemplatePrinting

/-!
Messages that are expanded before they are formatted. What a field gives to a message becomes part
of the pattern, and comes out as it is where nothing in it has a meaning there.
-/

namespace ScreenActions

open Text Step

namespace MessagePattern

/-! ### Texts that are formatted apart from what follows them -/

/-- A text of a message without dollar signs, backslashes and quotes, where each brace that is
opened is closed. -/
structure Settled (s : List Char) : Prop where
  not_mark : ∀ c ∈ s, c ≠ '$' ∧ c ≠ '\\' ∧ c ≠ '\''
  closed : ∀ back, '{' :: back <:+ s → '}' ∈ back

theorem settled_iff_tails {s : List Char} :
    Settled s ↔ (∀ c ∈ s, c ≠ '$' ∧ c ≠ '\\' ∧ c ≠ '\'') ∧
      ∀ t ∈ s.tails, t.head? = some '{' → '}' ∈ t.tail := by
  constructor
  · intro h
    refine ⟨h.not_mark, fun t ht hopen => ?_⟩
    obtain ⟨back, rfl⟩ := List.head?_eq_some_iff.mp hopen
    exact h.closed back ((List.mem_tails _ _).mp ht)
  · rintro ⟨hmark, hclosed⟩
    exact ⟨hmark, fun back hback => hclosed _ ((List.mem_tails _ _).mpr hback) rfl⟩

instance (s : List Char) : Decidable (Settled s) :=
  have : Decidable (∀ c ∈ s, c ≠ '$' ∧ c ≠ '\\' ∧ c ≠ '\'') := List.decidableBAll _ s
  decidable_of_iff' _ settled_iff_tails

theorem Settled.of_append (front : List Char) {back : List Char} (h : Settled (front ++ back)) :
    Settled back where
  not_mark c hc := h.not_mark c (List.mem_append_right front hc)
  closed rest hrest := h.closed rest (hrest.trans (List.suffix_append front back))

theorem Settled.formatText_append {s : List Char} (h : Settled s) (args : List String)
    (rest : List Char) :
    formatText args false (s ++ rest) = formatText args false s ++ formatText args false rest := by
  -- A closed pair of braces is taken at once, so the induction is on the length.
  induction hlength : s.length using Nat.strongRecOn generalizing s with
  | ind n ih =>
    cases s with
    | nil => rfl
    | cons c s =>
      have hs : Settled s := h.of_append [c]
      have hshorter : s.length < n := hlength ▸ Nat.lt_succ_self _
      have hquote : c ≠ '\'' := (h.not_mark c List.mem_cons_self).2.2
      by_cases hopen : c = '{'
      · subst hopen
        obtain ⟨inner, tail, rfl, hinner⟩ := List.eq_append_cons_of_mem (h.closed s List.suffix_rfl)
        have htail : Settled tail := (hs.of_append inner).of_append ['}']
        have hfewer : tail.length < n := by
          simp only [List.length_append, List.length_cons] at hshorter
          omega
        have hbraces : '{' :: (inner ++ '}' :: tail) ++ rest =
            '{' :: inner ++ '}' :: (tail ++ rest) := by simp
        rw [hbraces, formatText_braces hinner, ih _ hfewer htail rfl, ← List.append_assoc,
          ← formatText_braces hinner, List.cons_append]
      · rw [List.cons_append, formatText_cons_of_ne hquote (.inr hopen),
          formatText_cons_of_ne hquote (.inr hopen), ih _ hshorter hs rfl, List.cons_append]

/-! ### Texts that come out as they are -/

/-- A text that has no meaning in a pattern with `n` arguments: it has no quote outside braces,
and its braces are closed and hold no reference to one of the arguments. -/
inductive Inert (n : Nat) : List Char → Prop
  | nil : Inert n []
  | char {c : Char} {s : List Char} (hquote : c ≠ '\'') (hopen : c ≠ '{') (tail : Inert n s) :
      Inert n (c :: s)
  | braces {inner s : List Char} (hclose : '}' ∉ inner)
      (hindex : ∀ i ∈ argumentIndex? inner, n ≤ i) (tail : Inert n s) :
      Inert n ('{' :: inner ++ '}' :: s)

theorem argument_of_le {args : List String} {inner : List Char}
    (h : ∀ i ∈ argumentIndex? inner, args.length ≤ i) :
    argument args inner = '{' :: inner ++ ['}'] := by
  have hnone : (argumentIndex? inner).bind (args[·]?) = none :=
    Option.bind_eq_none_iff.mpr fun i hi => List.getElem?_eq_none (h i hi)
  rw [argument, hnone]

theorem Inert.formatText_append {args : List String} {s : List Char} (h : Inert args.length s)
    (rest : List Char) : formatText args false (s ++ rest) = s ++ formatText args false rest := by
  generalize hn : args.length = n at h
  induction h with
  | nil => rfl
  | char hquote hopen tail ih =>
    rw [List.cons_append, formatText_cons_of_ne hquote (.inr hopen), ih, List.cons_append]
  | @braces inner s hclose hindex tail ih =>
    have hbraces : '{' :: inner ++ '}' :: s ++ rest = '{' :: inner ++ '}' :: (s ++ rest) := by simp
    rw [hbraces, formatText_braces hclose, argument_of_le (hn ▸ hindex), ih]
    simp

section

variable (n : Nat)

/-- Arguments of which nothing is seen. -/
def noTexts : List String := List.replicate n ""

/-- A reference to an argument vanishes, and anything else between braces stays. -/
theorem argument_noTexts_cases (inner : List Char) :
    argument (noTexts n) inner = [] ∨
      argument (noTexts n) inner = '{' :: inner ++ ['}'] ∧ ∀ i ∈ argumentIndex? inner, n ≤ i := by
  by_cases h : ∀ i ∈ argumentIndex? inner, n ≤ i
  · exact .inr ⟨argument_of_le (by simpa [noTexts] using h), h⟩
  · push Not at h
    obtain ⟨i, hindex, hi⟩ := h
    have hfound : (argumentIndex? inner).bind ((noTexts n)[·]?) = some "" := by
      rw [Option.mem_def.mp hindex, Option.bind_some, noTexts, List.getElem?_replicate, if_pos hi]
    rw [argument, hfound]
    exact .inl rfl

theorem length_argument_noTexts_le (inner : List Char) :
    (argument (noTexts n) inner).length ≤ inner.length + 2 := by
  obtain h | ⟨h, -⟩ := argument_noTexts_cases n inner <;> rw [h] <;> simp

/-- Formatting with empty arguments makes nothing longer. -/
theorem length_formatText_noTexts_le (quoted : Bool) (s : List Char) :
    (formatText (noTexts n) quoted s).length ≤ s.length := by
  refine formatText.induct
    (fun quoted s => (formatText (noTexts n) quoted s).length ≤ s.length)
    (fun gathered s => (formatBrace (noTexts n) gathered s).length ≤ gathered.length + 1 + s.length)
    ?nothing ?quotes ?quote ?brace ?char ?unclosed ?close ?inside quoted s
  case nothing => exact fun _ => Nat.le_refl 0
  case quotes =>
    intro quoted s ih
    rw [formatText, List.length_cons, List.length_cons, List.length_cons]
    omega
  case quote =>
    intro quoted s hnext ih
    rw [formatText.eq_3 _ _ _ _ hnext, if_pos rfl, List.length_cons]
    omega
  case brace =>
    intro quoted c s hnext hquote hopen ih
    rw [formatText.eq_3 _ _ _ _ hnext, if_neg hquote, if_pos hopen, List.length_cons]
    simp only [List.length_nil] at ih
    omega
  case char =>
    intro quoted c s hnext hquote hopen ih
    rw [formatText.eq_3 _ _ _ _ hnext, if_neg hquote, if_neg hopen, List.length_cons,
      List.length_cons]
    omega
  case unclosed =>
    intro gathered
    simp [formatBrace]
  case close =>
    intro gathered s ih
    have hargument := length_argument_noTexts_le n gathered.reverse
    rw [formatBrace, if_pos rfl, List.length_append, List.length_cons]
    rw [List.length_reverse] at hargument
    omega
  case inside =>
    intro gathered c s hclose ih
    rw [formatBrace, if_neg hclose, List.length_cons]
    rw [List.length_cons] at ih
    omega

/-- The text comes out as it is before any text, with empty arguments. -/
def Verbatim (s : List Char) : Prop := ∀ rest, Settled rest →
  formatText (noTexts n) false (s ++ rest) = s ++ formatText (noTexts n) false rest

namespace Verbatim

variable {n} {s : List Char}

theorem length_eq (h : Verbatim n s) : (formatText (noTexts n) false s).length = s.length := by
  have halone := h [] (by decide)
  rw [List.append_nil, formatText, List.append_nil] at halone
  rw [halone]

theorem head?_ne_quote (h : Verbatim n s) : s.head? ≠ some '\'' := by
  intro hquote
  obtain ⟨s, rfl⟩ := List.head?_eq_some_iff.mp hquote
  have hlength := h.length_eq
  by_cases hnext : s.head? = some '\''
  · obtain ⟨tail, rfl⟩ := List.head?_eq_some_iff.mp hnext
    have htail := length_formatText_noTexts_le n false tail
    rw [formatText, List.length_cons, List.length_cons, List.length_cons] at hlength
    omega
  · have htail := length_formatText_noTexts_le n (!false) s
    rw [formatText_quote hnext, List.length_cons] at hlength
    omega

theorem of_cons {c : Char} (hquote : c ≠ '\'') (hopen : c ≠ '{') (h : Verbatim n (c :: s)) :
    Verbatim n s := by
  intro rest hrest
  have hcons := h rest hrest
  rw [List.cons_append, formatText_cons_of_ne hquote (.inr hopen)] at hcons
  exact (List.cons.inj hcons).2

/-- A brace that is not closed takes what follows it for a reference, up to its end. -/
theorem close_mem (hn : 0 < n) (h : Verbatim n ('{' :: s)) : '}' ∈ s := by
  by_contra hclose
  have hinner : '}' ∉ s ++ ['{', '0'] := by simpa using hclose
  have hzero : argument (noTexts n) ['0'] = [] := by
    obtain hempty | ⟨-, hindex⟩ := argument_noTexts_cases n ['0']
    · exact hempty
    · exact absurd (hindex 0 (by decide)) (by omega)
  have hreference : formatText (noTexts n) false ['{', '0', '}'] = [] := by
    have hbraces := formatText_braces (show '}' ∉ ['0'] by decide) (noTexts n) []
    rw [hzero] at hbraces
    exact hbraces
  have hleft : formatText (noTexts n) false ('{' :: s ++ ['{', '0', '}']) =
      argument (noTexts n) (s ++ ['{', '0']) := by
    have hbraces := formatText_braces hinner (noTexts n) []
    simpa [formatText] using hbraces
  have hlength := congrArg List.length (h ['{', '0', '}'] (by decide))
  rw [hleft, hreference, List.append_nil, List.length_cons] at hlength
  obtain hempty | ⟨hsame, -⟩ := argument_noTexts_cases n (s ++ ['{', '0'])
  · simp [hempty] at hlength
  · simp [hsame] at hlength

/-- A pair of braces holds no reference to an argument, which would vanish. -/
theorem of_braces {inner : List Char} (hclose : '}' ∉ inner)
    (h : Verbatim n ('{' :: inner ++ '}' :: s)) :
    (∀ i ∈ argumentIndex? inner, n ≤ i) ∧ Verbatim n s := by
  have hbraces (rest : List Char) :
      formatText (noTexts n) false ('{' :: inner ++ '}' :: s ++ rest) =
        argument (noTexts n) inner ++ formatText (noTexts n) false (s ++ rest) := by
    rw [← formatText_braces hclose]
    simp
  obtain hempty | ⟨hsame, hindex⟩ := argument_noTexts_cases n inner
  · have hle := length_formatText_noTexts_le n false s
    have hlength := h.length_eq
    rw [formatText_braces hclose, hempty, List.nil_append, List.length_append,
      List.length_cons, List.length_cons] at hlength
    omega
  · refine ⟨hindex, fun rest hrest => ?_⟩
    have htext := h rest hrest
    rw [hbraces, hsame] at htext
    simpa using htext

/-- Only a text without a meaning in the pattern comes out as it is. -/
theorem inert (hn : 0 < n) (h : Verbatim n s) : Inert n s := by
  induction hlength : s.length using Nat.strongRecOn generalizing s with
  | ind k ih =>
    cases s with
    | nil => exact .nil
    | cons c s =>
      have hshorter : s.length < k := hlength ▸ Nat.lt_succ_self _
      have hquote : c ≠ '\'' := fun hc => h.head?_ne_quote (hc ▸ rfl)
      by_cases hopen : c = '{'
      · subst hopen
        obtain ⟨inner, tail, rfl, hclose⟩ := List.eq_append_cons_of_mem (h.close_mem hn)
        have hfewer : tail.length < k := by
          simp only [List.length_append, List.length_cons] at hshorter
          omega
        obtain ⟨hindex, htail⟩ := of_braces hclose h
        exact .braces hclose hindex (ih _ hfewer htail rfl)
      · exact .char hquote hopen (ih _ hshorter (h.of_cons hquote hopen) rfl)

end Verbatim

end

/-- A text comes out as it is, with any arguments of a number and before any text, exactly if it
has no meaning in a pattern with that many arguments. -/
theorem verbatim_iff_inert (heap : BundleHeap) {n : Nat} (hn : 0 < n) (value : String) :
    (∀ (args : List Value) (rest : String), args.length = n → Settled rest.toList →
      format (value ++ rest) (args.map (·.display heap)) =
        value ++ format rest (args.map (·.display heap))) ↔ Inert n value.toList := by
  constructor
  · intro h
    refine Verbatim.inert hn fun rest hrest => ?_
    have hargs : (List.replicate n (Value.text "")).map (·.display heap) = noTexts n := by
      rw [List.map_replicate]
      rfl
    have htext := h (List.replicate n (.text "")) (String.ofList rest) List.length_replicate
      (by rwa [String.toList_ofList])
    rw [hargs] at htext
    simpa [format] using congrArg String.toList htext
  · rintro h args rest rfl -
    have hinert : Inert (args.map (·.display heap)).length value.toList := by
      rwa [List.length_map]
    rw [format, String.toList_append, hinert.formatText_append, String.ofList_append,
      String.ofList_toList]
    rfl

end MessagePattern

/-! ### Messages around a field -/

/-- A message that shows a field between two texts. -/
def aroundField (left field right : String) : String :=
  left ++ "$\x7b" ++ field ++ "\x7d" ++ right

theorem MessagePattern.Settled.not_occursIn {s : List Char} (h : Settled s) :
    occursIn ['$', '{'] s = false := by
  rw [Bool.eq_false_iff, Ne, Text.occursIn_iff_isInfix]
  intro hpart
  exact (h.not_mark '$' (hpart.subset List.mem_cons_self)).1 rfl

theorem MessagePattern.Settled.format_append {left : String} (h : Settled left.toList)
    (rest : String) (args : List String) :
    format (left ++ rest) args = format left args ++ format rest args := by
  rw [format, String.toList_append, h.formatText_append, String.ofList_append]
  rfl

theorem FieldPath.PlainName.getValue? {f : String} (h : PlainName f) (heap : BundleHeap)
    (c : Context) : (ofText f).getValue? heap c = c.get? f := by
  rw [FieldPath.getValue?, h.root?_ofText, Option.bind_some]
  exact Option.bind_fun_some _

theorem Template.expandOnce_aroundField {left right f value : String} {c : Context}
    (hleft : MessagePattern.Settled left.toList) (hright : MessagePattern.Settled right.toList)
    (hf : FieldPath.PlainName f) (hplain : TemplatePart.Plain f.toList)
    (hvalue : c.get? f = some (.text value)) (heap : BundleHeap) :
    expandOnce (aroundField left f right) heap c = left ++ value ++ right := by
  have hprint : (aroundField left f right).toList =
      TemplatePart.printAll [.text left, .field f, .text right] := by
    simp [aroundField, TemplatePart.printAll, TemplatePart.print,
      TemplatePart.escape_of_not_occursIn hleft.not_occursIn,
      TemplatePart.escape_of_not_occursIn hright.not_occursIn]
  have hopen : occursIn ['$', '{'] (aroundField left f right).toList = true :=
    hprint ▸ TemplatePart.occursIn_printAll ⟨.field f, by simp, rfl⟩
  have hlast : left.toList.getLast? ≠ some '\\' := fun h =>
    (hleft.not_mark _ (List.mem_of_getLast? h)).2.1 rfl
  have hchain : [.text left, .field f, .text right].IsChain TemplatePart.Precedes := by
    simp [TemplatePart.Precedes, TemplatePart.isText, hlast]
  have hparts : ∀ p ∈ [.text left, .field f, .text right], TemplatePart.ReadsBack heap c p := by
    simp only [List.forall_mem_cons]
    exact ⟨TemplatePart.readsBack_text left, TemplatePart.readsBack_field hplain,
      TemplatePart.readsBack_text right, List.forall_mem_nil _⟩
  have hfield : TemplatePart.fieldText heap c f = value := by
    rw [TemplatePart.fieldText, hf.getValue?, hvalue]
    rfl
  unfold expandOnce ofText expandText
  rw [if_pos hopen, hprint, TemplatePart.expandAll_read_printAll hparts hchain []]
  simp [TemplatePart.meaningAll, TemplatePart.meaning, hfield, String.append_assoc]

namespace PropertyToField

open MessagePattern

variable {ω : Type}

/-- The message that the action asks for is found, and the collaborators are left as `w`. -/
def Finds (a : PropertyToField) (env : ActionEnv ω) (s : RunState ω) (message : String) (w : ω) :
    Prop :=
  ∃ source, env.properties = some source ∧
    source.message (a.resource.expandText s.heap s.context)
      (a.property.expandText s.heap s.context) (if a.noLocale then none else s.context.locale)
      s.world = (.ok (some message), w)

theorem Finds.outcome_run {a : PropertyToField} {env : ActionEnv ω} {s : RunState ω}
    {message : String} {w : ω} (h : a.Finds env s message w) :
    outcome (a.run env) s = outcome (mapError .path
      (put a.field (.text (a.text s (some message))))) { s with world := w } := by
  obtain ⟨source, hsource, hmessage⟩ := h
  have hrequire : outcome
      (require propertySourceName (some source) : Step ω ActionError (PropertySource ω)) s =
      (.ok source, s) := rfl
  rw [run, outcome_bind_of_ok (outcome_get s), hsource, outcome_bind_of_ok hrequire]
  apply outcome_bind_of_ok
  rw [outcome_call, hmessage]
  rfl

theorem text_aroundField {a : PropertyToField} {s : RunState ω} {left right f value : String}
    {values : List Value} (hleft : Settled left.toList) (hright : Settled right.toList)
    (hf : FieldPath.PlainName f) (hplain : TemplatePart.Plain f.toList)
    (hvalue : s.context.get? f = some (.text value))
    (hargs : a.argListName.get? s.context = some (.list values)) (hne : values ≠ []) :
    a.text s (some (aroundField left f right)) =
      format left (values.map (·.display s.heap)) ++
        format (value ++ right) (values.map (·.display s.heap)) := by
  have hmessage : (some (aroundField left f right)).filter (!·.isEmpty) =
      some (aroundField left f right) := by
    have hfull : (aroundField left f right).isEmpty = false := by
      rw [Bool.eq_false_iff, Ne, String.isEmpty_iff]
      intro h
      simpa [aroundField] using congrArg String.toList h
    rw [Option.filter_some, hfull]
    rfl
  have harguments : a.arguments s = values.map (·.display s.heap) := by
    rw [arguments, hargs]
  have hsome : (values.map (·.display s.heap)).isEmpty = false := by
    simpa using hne
  unfold text
  rw [hmessage, harguments]
  dsimp only
  rw [hsome, if_neg (by decide), Template.expandOnce_aroundField hleft hright hf hplain hvalue,
    String.append_assoc, hleft.format_append]

/-- The message is expanded before it is formatted, so that the value of a field is read as a part
of the pattern; it comes out as it is, with any arguments and before any text, exactly if nothing
in it has a meaning in a pattern with that many arguments. -/
theorem formats_after_expanding (a : PropertyToField) {env : ActionEnv ω} {s : RunState ω}
    {left right f value : String} {values : List Value} {w : ω} (hleft : Settled left.toList)
    (hright : Settled right.toList) (hf : FieldPath.PlainName f)
    (hplain : TemplatePart.Plain f.toList) (hvalue : s.context.get? f = some (.text value))
    (hmessage : a.Finds env s (aroundField left f right) w)
    (hargs : a.argListName.get? s.context = some (.list values)) (hne : values ≠ []) :
    outcome (a.run env) s =
        outcome (mapError .path (put a.field (.text
          (format left (values.map (·.display s.heap)) ++
            format (value ++ right) (values.map (·.display s.heap))))))
          { s with world := w } ∧
      ((∀ (others : List Value) (rest : String), others.length = values.length →
        Settled rest.toList →
          format (value ++ rest) (others.map (·.display s.heap)) =
            value ++ format rest (others.map (·.display s.heap))) ↔
        Inert values.length value.toList) := by
  refine ⟨?_, verbatim_iff_inert s.heap (List.length_pos_of_ne_nil hne) value⟩
  rw [hmessage.outcome_run, text_aroundField hleft hright hf hplain hvalue hargs hne]

/-- Puts the label for a number of items. -/
def itemsLabel : PropertyToField where
  resource := ⟨"Labels", [.text "Labels"]⟩
  property := ⟨"Items", [.text "Items"]⟩
  field := .ofText "label"
  default := .ofText ""
  noLocale := true
  argListName := .ofText "args"

def itemsEnv : ActionEnv Unit where
  properties := some (MemorySource.source Unit
    [("Labels", [("", [("Items", "\x7b0\x7d items for $\x7bpartyName\x7d")])])])

def itemsFor (partyName : String) : RunState Unit :=
  ⟨{ top := [("args", .list [.int 3]), ("partyName", .text partyName)] }, [], none, none, ()⟩

theorem finds_itemsLabel (partyName : String) :
    itemsLabel.Finds itemsEnv (itemsFor partyName)
      (aroundField "\x7b0\x7d items for " "partyName" "") () := by
  have htext (t : String) : Template.expandText ⟨t, [.text t]⟩ (itemsFor partyName).heap
      (itemsFor partyName).context = t := by
    simp [Template.expandText, TemplatePiece.expandAll, TemplatePiece.expand]
  refine ⟨_, rfl, ?_⟩
  rw [itemsLabel, htext, htext, if_pos rfl]
  rfl

theorem formats_after_expanding_unknown_index :
    (outcome (itemsLabel.run itemsEnv) (itemsFor "Acme \x7b1\x7d")).2.context.get? "label" =
      some (.text "3 items for Acme \x7b1\x7d") := by
  rw [(formats_after_expanding itemsLabel (by decide) (by decide) (by decide)
    ⟨by decide, by decide⟩ rfl (finds_itemsLabel _) rfl (by simp)).1]
  rfl

/-- An apostrophe in the value of a field is read as a quote, and is lost. -/
theorem formats_after_expanding_apostrophe :
    Settled "\x7b0\x7d items for ".toList ∧ Settled "".toList ∧
      (itemsFor "O'Brien").context.get? "partyName" = some (.text "O'Brien") ∧
      itemsLabel.Finds itemsEnv (itemsFor "O'Brien")
        (aroundField "\x7b0\x7d items for " "partyName" "") () ∧
      itemsLabel.argListName.get? (itemsFor "O'Brien").context = some (.list [.int 3]) ∧
      (outcome (itemsLabel.run itemsEnv) (itemsFor "O'Brien")).2.context.get? "label" =
        some (.text "3 items for OBrien") ∧
      format "\x7b0\x7d items for " ["3"] ++ "O'Brien" ++ format "" ["3"] =
        "3 items for O'Brien" := by
  have hleft : Settled "\x7b0\x7d items for ".toList := by decide
  have hright : Settled "".toList := by decide
  refine ⟨hleft, hright, rfl, finds_itemsLabel _, rfl, ?_, by decide⟩
  rw [(finds_itemsLabel _).outcome_run, text_aroundField hleft hright (by decide)
    ⟨by decide, by decide⟩ rfl rfl (by simp)]
  rfl

end PropertyToField

end ScreenActions

import ScreenActions.Proofs.KeyedOrder
import ScreenActions.Proofs.SplitPieces
import ScreenActions.Proofs.TypeNames

/-!
Flat collections and their display texts. Texts without commas and without blanks around them are
read back from the text of a list or a map that holds them.
-/

namespace ScreenActions

open Text

/-! ### Items between commas -/

/-- A text that is one item where commas stand between items: it has no comma and no blanks around
it. -/
structure IsItem (s : String) : Prop where
  comma : ',' ∉ s.toList
  head : ∀ c ∈ s.toList.head?, isBlank c = false
  last : ∀ c ∈ s.toList.getLast?, isBlank c = false

-- An instance for `∀ c ∈ s.toList.head?` itself may be one that tries all characters.
instance (s : String) : Decidable (IsItem s) :=
  decidable_of_iff (',' ∉ s.toList ∧ s.toList.head?.all (!isBlank ·) = true ∧
    s.toList.getLast?.all (!isBlank ·) = true) <| by
    simp only [Option.all_eq_true, Bool.not_eq_true']
    exact ⟨fun ⟨comma, head, last⟩ => ⟨comma, head, last⟩, fun h => ⟨h.comma, h.head, h.last⟩⟩

theorem IsItem.trimmed_eq {s : String} (h : IsItem s) : Conversion.trimmed s.toList = s := by
  rw [Conversion.trimmed, trim_eq_self h.head h.last, String.ofList_toList]

namespace Text

theorem intercalate_cons_cons (sep : List Char) (c : Char) (first : List Char)
    (rest : List (List Char)) :
    sep.intercalate ((c :: first) :: rest) = c :: sep.intercalate (first :: rest) := by
  cases rest with
  | nil => simp
  | cons second rest => simp [List.intercalate_cons_of_ne_nil]

/-- The blank after a comma belongs to the item that follows. -/
theorem intercalate_comma_blank (first : List Char) (rest : List (List Char)) :
    [',', ' '].intercalate (first :: rest) = [','].intercalate (first :: rest.map (' ' :: ·)) := by
  induction rest generalizing first with
  | nil => simp
  | cons second rest ih =>
    rw [List.intercalate_cons_of_ne_nil (List.cons_ne_nil second rest), ih, List.map_cons,
      List.intercalate_cons_of_ne_nil (List.cons_ne_nil _ _), intercalate_cons_cons]
    simp

/-- What disregards a blank before a piece finds the items again. -/
theorem map_splitAll_join {α : Type} {f : List Char → α} (hf : ∀ s, f (' ' :: s) = f s)
    {items : List String} (hne : items ≠ []) (hitems : ∀ s ∈ items, ',' ∉ s.toList) :
    (splitAll (· == ',') (join ", " items).toList).map f = items.map fun s => f s.toList := by
  obtain ⟨first, rest, rfl⟩ := List.exists_cons_of_ne_nil hne
  have hpieces : ∀ w ∈ first.toList :: (rest.map String.toList).map (' ' :: ·),
      ∀ c ∈ w, (c == ',') = false := by
    have hplain : ∀ s ∈ first :: rest, ∀ c ∈ s.toList, (c == ',') = false := by
      rintro s hs c hc
      rw [beq_eq_false_iff_ne]
      rintro rfl
      exact hitems s hs hc
    refine List.forall_mem_cons.mpr ⟨hplain first List.mem_cons_self, ?_⟩
    simp only [List.map_map, List.forall_mem_map, Function.comp_apply, List.forall_mem_cons]
    exact fun s hs => ⟨rfl, hplain s (List.mem_cons_of_mem first hs)⟩
  rw [join, String.toList_intercalate, List.map_cons,
    show ", ".toList = [',', ' '] from rfl, intercalate_comma_blank,
    splitAll_intercalate (by rfl) (by simp) hpieces]
  simp [hf]

end Text

namespace Conversion

theorem unwrap_bracketed {left right : Char} (hleft : isBlank left = false)
    (hright : isBlank right = false) (s : List Char) :
    unwrap left right (left :: (s ++ [right])) = s := by
  have htrim : trim (left :: (s ++ [right])) = left :: (s ++ [right]) := by
    refine trim_eq_self (by simpa using hleft) ?_
    rw [← List.cons_append, List.getLast?_concat]
    simpa using hright
  have hlead : stripLead? [left] (left :: (s ++ [right])) = some (s ++ [right]) :=
    stripLead?_eq_some_iff.mpr rfl
  have htail : stripTail? [right] (s ++ [right]) = some s := by
    simp [stripTail?, stripLead?]
  simp only [unwrap, htrim, hlead, Option.bind_some, htail, Option.getD_some]

/-! ### Lists -/

theorem isAllBlank_eq_false {c : Char} {s : List Char} (hc : c ∈ s) (hblank : isBlank c = false) :
    isAllBlank s = false := by
  rw [isAllBlank, List.all_eq_false]
  exact ⟨c, hc, by simp [hblank]⟩

/-- Only the list of one empty text is displayed as no items at all. -/
theorem isAllBlank_join {items : List String} (hne : items ≠ []) (hitems : ∀ s ∈ items, IsItem s)
    (hempty : items ≠ [""]) : isAllBlank (join ", " items).toList = false := by
  obtain ⟨first, rest, rfl⟩ := List.exists_cons_of_ne_nil hne
  cases rest with
  | nil =>
    have hfirst : first.toList ≠ [] := by simpa using hempty
    obtain ⟨c, s, hs⟩ := List.exists_cons_of_ne_nil hfirst
    have hc : isBlank c = false := (hitems first List.mem_cons_self).head c (by simp [hs])
    exact isAllBlank_eq_false (c := c) (by simp [join, hs]) hc
  | cons second rest =>
    have hcomma : ',' ∈ (join ", " (first :: second :: rest)).toList := by simp [join]
    exact isAllBlank_eq_false hcomma rfl

theorem listItems_join {items : List String} (hitems : ∀ s ∈ items, IsItem s)
    (hempty : items ≠ [""]) :
    listItems ('[' :: ((join ", " items).toList ++ [']'])) = items.map .text := by
  rw [listItems, unwrap_bracketed rfl rfl]
  by_cases hne : items = []
  · simp [hne, join, isAllBlank]
  · simp only [isAllBlank_join hne hitems hempty, Bool.false_eq_true, if_false]
    rw [map_splitAll_join (f := fun item => Value.text (trimmed item)) (fun s => rfl) hne
      fun s hs => (hitems s hs).comma]
    refine List.map_congr_left fun s hs => ?_
    rw [(hitems s hs).trimmed_eq]

/-! ### Maps -/

theorem pair?_blank_cons (s : List Char) : pair? (' ' :: s) = pair? s := by
  rw [pair?, pair?, cutFirst, if_neg (by decide), Option.map_map]
  rfl

theorem pair?_append {k v : String} (hkey : '=' ∉ k.toList) (hk : IsItem k) (hv : IsItem v) :
    pair? (k ++ "=" ++ v).toList = some (k, .text v) := by
  have hchars : (k ++ "=" ++ v).toList = k.toList ++ '=' :: v.toList := by simp
  simp only [pair?, hchars, cutFirst_append hkey, Option.map_some, hk.trimmed_eq, hv.trimmed_eq]

end Conversion

/-- A text that is a key where an equals sign stands between a key and its value. -/
structure IsKey (s : String) : Prop extends IsItem s where
  equals : '=' ∉ s.toList

instance (s : String) : Decidable (IsKey s) :=
  decidable_of_iff (IsItem s ∧ '=' ∉ s.toList)
    ⟨fun ⟨item, equals⟩ => ⟨item, equals⟩, fun h => ⟨h.toIsItem, h.equals⟩⟩

namespace Conversion

variable {entries : Keyed String}

/-- The pairs of a map as they are displayed. -/
def pairTexts (entries : Keyed String) : List String := entries.map fun e => e.1 ++ "=" ++ e.2

theorem comma_not_mem_pairTexts (h : ∀ e ∈ entries, IsKey e.1 ∧ IsItem e.2) :
    ∀ s ∈ pairTexts entries, ',' ∉ s.toList := by
  intro s hs
  obtain ⟨e, he, rfl⟩ := List.mem_map.mp hs
  obtain ⟨hkey, hvalue⟩ := h e he
  simp [hkey.comma, hvalue.comma]

theorem splitAll_pairTexts (h : ∀ e ∈ entries, IsKey e.1 ∧ IsItem e.2) (hne : entries ≠ []) :
    (splitAll (· == ',') (join ", " (pairTexts entries)).toList).map pair? =
      (Keyed.mapValues .text entries).map some := by
  rw [map_splitAll_join pair?_blank_cons (by simpa [pairTexts] using hne)
    (comma_not_mem_pairTexts h), pairTexts, Keyed.mapValues, List.map_map, List.map_map]
  refine List.map_congr_left fun e he => ?_
  obtain ⟨hkey, hvalue⟩ := h e he
  exact pair?_append hkey.equals hkey.toIsItem hvalue

/-- Each pair has an equals sign. -/
theorem not_isAllBlank_of_pair (h : ∀ e ∈ entries, IsKey e.1 ∧ IsItem e.2) (hne : entries ≠ []) :
    ∀ piece ∈ splitAll (· == ',') (join ", " (pairTexts entries)).toList,
      isAllBlank piece = false := by
  have htexts : pairTexts entries ≠ [] := by simpa [pairTexts] using hne
  have hblanks :=
    map_splitAll_join (f := isAllBlank) (fun s => rfl) htexts (comma_not_mem_pairTexts h)
  intro piece hpiece
  have hmem := hblanks ▸ List.mem_map_of_mem (f := isAllBlank) hpiece
  obtain ⟨s, hs, hblank⟩ := List.mem_map.mp hmem
  obtain ⟨e, -, rfl⟩ := List.mem_map.mp hs
  rw [← hblank]
  exact isAllBlank_eq_false (c := '=') (by simp) rfl

theorem mapM_eq_some_of_map {α β : Type} {f : α → Option β} {l : List α} {r : List β}
    (h : l.map f = r.map some) : l.mapM f = some r := by
  induction l generalizing r with
  | nil =>
    obtain rfl : r = [] := by simpa using h.symm
    rfl
  | cons a l ih =>
    obtain ⟨b, r, rfl, hhead, htail⟩ := List.map_eq_cons_iff.mp h.symm
    rw [List.mapM_cons, ← hhead, ih htail.symm]
    rfl

theorem mapEntries?_join {m : Keyed.OrderedMap String}
    (h : ∀ e ∈ m.entries, IsKey e.1 ∧ IsItem e.2) :
    mapEntries? ('\x7b' :: ((join ", " (pairTexts m.entries)).toList ++ ['\x7d'])) =
      some (Keyed.mapValues .text m.entries) := by
  obtain ⟨entries, hordered⟩ := m
  rw [mapEntries?, unwrap_bracketed rfl rfl]
  by_cases hne : entries = []
  · subst hne
    rfl
  · have hfilter : (splitAll (· == ',') (join ", " (pairTexts entries)).toList).filter
        (!isAllBlank ·) = splitAll (· == ',') (join ", " (pairTexts entries)).toList := by
      refine List.filter_eq_self.mpr fun piece hpiece => ?_
      rw [not_isAllBlank_of_pair h hne piece hpiece]
      rfl
    have hread : (splitAll (· == ',') (join ", " (pairTexts entries)).toList).mapM pair? =
        some (Keyed.mapValues .text entries) :=
      mapM_eq_some_of_map (splitAll_pairTexts h hne)
    simp only [hfilter, hread, Option.map_some]
    rw [Keyed.ofEntries_of_ordered (hordered.mapValues _)]

end Conversion

/-! ### Displayed collections -/

namespace Value

theorem displayItems_texts (heap : BundleHeap) (items : List String) :
    displayItems heap (items.map .text) = items := by
  induction items with
  | nil => rfl
  | cons s items ih => rw [List.map_cons, displayItems, ih]; rfl

theorem displayPairs_texts (heap : BundleHeap) (entries : Keyed String) :
    displayPairs heap (Keyed.mapValues .text entries) = Conversion.pairTexts entries := by
  induction entries with
  | nil => rfl
  | cons e entries ih =>
    unfold Keyed.mapValues Conversion.pairTexts at ih ⊢
    rw [List.map_cons, displayPairs, ih]
    rfl

/-- The text of a list, converted. -/
theorem convert_display_list (heap : BundleHeap) {name : String} (hname : FieldType.list.Names name)
    {items : List String} (hitems : ∀ s ∈ items, IsItem s) (hempty : items ≠ [""]) :
    (Value.text ((Value.list (items.map .text)).display heap)).convert heap name =
      .ok (.list (items.map .text)) := by
  have hchars : ((Value.list (items.map .text)).display heap).toList =
      '[' :: ((join ", " items).toList ++ [']']) := by
    simp [display, displayItems_texts]
  refine convert_text_eq_ok hname.ofQualified? ?_ ?_
  · rw [hchars]
    rfl
  · rw [Conversion.to?, Conversion.list?, hchars, Conversion.listItems_join hitems hempty]

theorem convert_display_map (heap : BundleHeap) {name : String} (hname : FieldType.map.Names name)
    {m : Keyed.OrderedMap String} (h : ∀ e ∈ m.entries, IsKey e.1 ∧ IsItem e.2) :
    (Value.text ((Value.map (Keyed.mapValues .text m.entries)).display heap)).convert heap name =
      .ok (.map (Keyed.mapValues .text m.entries)) := by
  have hchars : ((Value.map (Keyed.mapValues .text m.entries)).display heap).toList =
      '\x7b' :: ((join ", " (Conversion.pairTexts m.entries)).toList ++ ['\x7d']) := by
    simp [display, displayPairs_texts]
  refine convert_text_eq_ok hname.ofQualified? ?_ ?_
  · rw [hchars]
    rfl
  · rw [Conversion.to?, Conversion.map?, hchars, Conversion.mapEntries?_join h]
    rfl

/-- Flat lists and maps survive their display texts. -/
theorem convert_display_flat (heap : BundleHeap) :
    (∀ name, FieldType.list.Names name → ∀ items : List String, (∀ s ∈ items, IsItem s) →
      items ≠ [""] →
      (Value.text ((Value.list (items.map .text)).display heap)).convert heap name =
        .ok (.list (items.map .text))) ∧
    ∀ name, FieldType.map.Names name → ∀ m : Keyed.OrderedMap String,
      (∀ e ∈ m.entries, IsKey e.1 ∧ IsItem e.2) →
      (Value.text ((Value.map (Keyed.mapValues .text m.entries)).display heap)).convert heap name =
        .ok (.map (Keyed.mapValues .text m.entries)) :=
  ⟨fun _ hname _ hitems hempty => convert_display_list heap hname hitems hempty,
    fun _ hname _ h => convert_display_map heap hname h⟩

/-- Brackets, braces and equals signs inside the texts do no harm, nor do empty texts. -/
theorem convert_display_flat_brackets :
    (Value.text "[[a], , k=v]").convert [] "java.util.List" =
        .ok (.list [.text "[a]", .text "", .text "k=v"]) ∧
      (Value.text "\x7b=\x7bx\x7d, k=a=b\x7d").convert [] "Map" =
        .ok (.map [("", .text "\x7bx\x7d"), ("k", .text "a=b")]) := by
  have hlist : FieldType.list.Names "java.util.List" :=
    .qualified "java.util".toList (s := "List".toList) (by decide) rfl
  have hmap : FieldType.map.Names "Map" := .short (s := "Map".toList) (by decide) rfl
  obtain ⟨lists, maps⟩ := convert_display_flat []
  exact ⟨lists _ hlist ["[a]", "", "k=v"] (by decide) (by decide),
    maps _ hmap ⟨[("", "\x7bx\x7d"), ("k", "a=b")], List.pairwise_pair.mpr (by decide)⟩
      (by decide)⟩

end Value

end ScreenActions

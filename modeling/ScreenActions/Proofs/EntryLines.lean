import ScreenActions.Proofs.EntrySpelling
import ScreenActions.Proofs.KeyedOrder

/-!
Entries of messages on lines, with comments, empty lines and values that go on over several lines.
Whatever way a text of entries is written, it is read as the map of these entries.
-/

namespace ScreenActions.Properties

open Text

def IsLineEnd (n : List Char) : Prop := n = ['\n'] ∨ n = ['\r', '\n']

instance : DecidablePred IsLineEnd := fun n =>
  inferInstanceAs (Decidable (n = ['\n'] ∨ n = ['\r', '\n']))

/-- The last line may be open. -/
def EndsLine (n rest : List Char) : Prop := IsLineEnd n ∨ n = [] ∧ rest = []

/-- Each fold is a backslash at the end of a line and the blanks that start the next one. -/
inductive Folds : List Char → Prop
  | nil : Folds []
  | cons {n g f : List Char} (hn : IsLineEnd n) (hg : IsGap g) (hf : Folds f) :
      Folds ('\\' :: (n ++ (g ++ f)))

/-- The ways to write the characters of a value after the first. -/
inductive SpellsTail : List Char → List Char → Prop
  | nil : SpellsTail [] []
  | cons {c : Char} {s f w t : List Char} (hf : Folds f)
      (hc : SpellsChar (fun c => f = [] ∨ AllowedAtStart c) c w) (hs : SpellsTail s t) :
      SpellsTail (c :: s) (f ++ (w ++ t))

/-- The ways to write a value. -/
inductive SpellsValue : List Char → List Char → Prop
  | nil : SpellsValue [] []
  | cons {c : Char} {s w t : List Char} (hc : SpellsChar AllowedAtStart c w)
      (hs : SpellsTail s t) : SpellsValue (c :: s) (w ++ t)

/-- The ways to write at most one entry, up to the end of its last line. -/
inductive SpellsLine : List (String × String) → List Char → Prop
  | blank {g : List Char} (hg : IsGap g) : SpellsLine [] g
  | comment {g t : List Char} {m : Char} (hg : IsGap g) (hm : m = '#' ∨ m = '!') (ht : '\n' ∉ t) :
      SpellsLine [] (g ++ m :: t)
  | entry {i key k a b value v : List Char} {sep : Char} (hi : IsGap i)
      (hk : Spells AllowedInKey key k) (hstart : ∀ c ∈ k.head?, c ≠ '#' ∧ c ≠ '!') (ha : IsGap a)
      (hsep : sep = '=' ∨ sep = ':') (hb : IsGap b) (hv : SpellsValue value v) :
      SpellsLine [(String.ofList key, String.ofList value)] (i ++ (k ++ (a ++ sep :: (b ++ v))))

/-- The ways to write entries, one after the other. -/
inductive SpellsEntries : List (String × String) → List Char → Prop
  | nil : SpellsEntries [] []
  | line {es rest : List (String × String)} {l n t : List Char} (hl : SpellsLine es l)
      (hn : EndsLine n t) (ht : SpellsEntries rest t) : SpellsEntries (es ++ rest) (l ++ (n ++ t))

/-- Characters that stand on one line and leave the number of backslashes at its end even. -/
structure IsWord (w : List Char) : Prop where
  ne_nil : w ≠ []
  inline : ∀ x ∈ w, x ≠ '\n' ∧ x ≠ '\r'
  even : ∀ s, isContinued s = false → isContinued (s ++ w) = false

/-- Words one after the other, and the same with folds between them. -/
inductive Folded : List Char → List Char → Prop
  | nil : Folded [] []
  | cons {f w v t : List Char} (hf : Folds f) (hw : IsWord w) (hstart : f = [] ∨ trimStart w = w)
      (hs : Folded v t) : Folded (w ++ v) (f ++ (w ++ t))

section Words

variable {allowed : Char → Prop} {c : Char} {w s t : List Char}

theorem isWord_of_spellsChar (h : SpellsChar allowed c w) : IsWord w :=
  ⟨ne_nil_of_spellsChar h, not_lineEnd_of_mem h, fun _ => isContinued_append h⟩

theorem trimStart_of_spellsChar (h : SpellsChar allowed c w)
    (hallowed : allowed c → isBlank c = false) : trimStart w = w := by
  have hhead := head_of_spellsChar h hallowed []
  rw [List.append_nil] at hhead
  exact trimStart_of_head hhead

theorem exists_folded_of_spellsTail (h : SpellsTail s t) :
    ∃ v, Folded v t ∧ Spells (fun _ => True) s v := by
  induction h with
  | nil => exact ⟨[], .nil, .nil⟩
  | @cons c s f w t hf hc _ ih =>
    obtain ⟨v, hfolded, hv⟩ := ih
    have hstart : f = [] ∨ trimStart w = w := by
      by_cases hnil : f = []
      · exact .inl hnil
      · exact .inr (trimStart_of_spellsChar hc fun hallowed => hallowed.resolve_left hnil)
    exact ⟨w ++ v, .cons hf (isWord_of_spellsChar hc) hstart hfolded,
      .cons (hc.mono fun _ => trivial) hv⟩

theorem exists_folded_of_spellsValue (h : SpellsValue s t) :
    ∃ v, Folded v t ∧ Spells (fun _ => True) s v ∧ trimStart v = v := by
  cases h with
  | nil => exact ⟨[], .nil, .nil, rfl⟩
  | @cons c s w t hc hs =>
    obtain ⟨v, hfolded, hv⟩ := exists_folded_of_spellsTail hs
    exact ⟨w ++ v, .cons .nil (isWord_of_spellsChar hc) (.inl rfl) hfolded,
      .cons (hc.mono fun _ => trivial) hv, trimStart_of_head (head_of_spellsChar hc id v)⟩

end Words

section Lines

variable {line n w : List Char}

theorem linesFrom_append (hw : ∀ x ∈ w, x ≠ '\n') (line rest : List Char) :
    linesFrom line (w ++ rest) = linesFrom (w.reverse ++ line) rest := by
  induction w generalizing line with
  | nil => rfl
  | cons x w ih =>
    have hx : x ≠ '\n' := hw x List.mem_cons_self
    rw [List.cons_append, linesFrom, if_neg hx, ih fun y hy => hw y (List.mem_cons_of_mem x hy)]
    simp

theorem closeLine_reverse (hline : '\r' ∉ line) : closeLine line.reverse = line := by
  unfold closeLine
  split
  · rename_i r hr
    have hmem : '\r' ∈ line.reverse := by
      rw [hr]
      exact List.mem_cons_self
    exact absurd (List.mem_reverse.mp hmem) hline
  · exact List.reverse_reverse line

theorem linesFrom_crlf (line rest : List Char) :
    linesFrom line.reverse (['\r', '\n'] ++ rest) = line :: lines rest := by
  simp [linesFrom, lines, closeLine]

theorem linesFrom_lineEnd (hn : IsLineEnd n) (hline : '\r' ∉ line) (rest : List Char) :
    linesFrom line.reverse (n ++ rest) = line :: lines rest := by
  rcases hn with rfl | rfl
  · simp [linesFrom, lines, closeLine_reverse hline]
  · exact linesFrom_crlf line rest

theorem trimStart_append (h : trimStart line ≠ [] ∨ trimStart w = w) :
    trimStart (line ++ w) = trimStart line ++ w := by
  rw [trimStart, List.dropWhile_append]
  rcases h with h | h
  · rw [if_neg (by simpa using h)]
  · split
    · next hempty =>
      have hline : trimStart line = [] := List.isEmpty_iff.mp hempty
      rw [hline]
      exact h
    · rfl

end Lines

/-- The logical lines when `line` has been read of the line at hand and `rest` follows. -/
def linesAfter (pending : Option (List Char)) (line rest : List Char) : List (List Char) :=
  joinLines pending (linesFrom line.reverse rest)

/-- The line at hand, put after the pending lines, gives `text` as a logical line. -/
structure Collects (pending : Option (List Char)) (line text : List Char) : Prop where
  text_eq : pending.getD [] ++ trimStart line = text
  opened : pending = none → trimStart line ≠ [] ∧ isComment (trimStart line) = false
  even : isContinued text = false
  inline : ∀ x ∈ line, x ≠ '\n' ∧ x ≠ '\r'

namespace Collects

variable {pending : Option (List Char)} {line text n w : List Char}

theorem not_skipped (h : Collects pending line text) (w : List Char) :
    (pending.isNone && ((trimStart line ++ w).isEmpty || isComment (trimStart line ++ w))) =
      false := by
  cases pending with
  | some p => rfl
  | none =>
    obtain ⟨hne, hcomment⟩ := h.opened rfl
    obtain ⟨x, r, hx⟩ := List.exists_cons_of_ne_nil hne
    rw [hx] at hcomment ⊢
    exact hcomment

theorem joinLines_cons (h : Collects pending line text) (ls : List (List Char)) :
    joinLines pending (line :: ls) = text :: joinLines none ls := by
  have hskip := h.not_skipped []
  rw [List.append_nil] at hskip
  rw [joinLines]
  dsimp only
  rw [hskip, h.text_eq, h.even]
  rfl

theorem joinLines_backslash (h : Collects pending line text) (ls : List (List Char)) :
    joinLines pending ((line ++ ['\\']) :: ls) = joinLines (some text) ls := by
  have htrim : trimStart (line ++ ['\\']) = trimStart line ++ ['\\'] := trimStart_append (.inr rfl)
  rw [joinLines]
  dsimp only
  rw [htrim, h.not_skipped, ← List.append_assoc, h.text_eq, isContinued_concat_backslash, h.even,
    List.dropLast_concat]
  rfl

theorem not_mem_cr (h : Collects pending line text) : '\r' ∉ line :=
  fun hmem => (h.inline _ hmem).2 rfl

/-- A line that ends closes the logical line. -/
theorem linesAfter_endsLine (h : Collects pending line text) {rest : List Char}
    (hn : EndsLine n rest) :
    linesAfter pending line (n ++ rest) = text :: joinLines none (lines rest) := by
  unfold linesAfter
  rcases hn with hn | ⟨rfl, rfl⟩
  · rw [linesFrom_lineEnd hn h.not_mem_cr, h.joinLines_cons]
  · rw [List.append_nil, linesFrom]
    split
    · next hempty =>
      -- Nothing was read after the last fold, so that the pending lines are the logical line.
      have hline : line = [] := List.reverse_eq_nil_iff.mp (List.isEmpty_iff.mp hempty)
      have htext := h.text_eq
      rw [hline] at htext
      cases pending with
      | none => exact absurd (congrArg trimStart hline) (h.opened rfl).1
      | some p => exact congrArg (fun t => [t]) ((List.append_nil p).symm.trans htext)
    · rw [List.reverse_reverse, h.joinLines_cons]
      rfl

/-- A fold keeps the logical line and starts another line. -/
theorem fold (h : Collects pending line text) {g : List Char} (hn : IsLineEnd n) (hg : IsGap g) :
    Collects (some text) g text ∧ ∀ rest, linesAfter pending line ('\\' :: (n ++ (g ++ rest))) =
      linesAfter (some text) g rest := by
  constructor
  · have htrim : trimStart g = [] := by
      simpa using trimStart_gap_append hg []
    refine ⟨?_, nofun, h.even, fun x hx => (hg x hx).2⟩
    rw [htrim]
    exact List.append_nil text
  · intro rest
    have hcr : '\r' ∉ line ++ ['\\'] := by
      simpa using h.not_mem_cr
    have hback : linesFrom line.reverse ('\\' :: (n ++ (g ++ rest))) =
        linesFrom (line ++ ['\\']).reverse (n ++ (g ++ rest)) := by
      simp [linesFrom]
    unfold linesAfter
    rw [hback, linesFrom_lineEnd hn hcr, h.joinLines_backslash, lines,
      linesFrom_append fun x hx => (hg x hx).2.1, List.append_nil]

/-- A word goes to the line at hand and to the logical line. -/
theorem append_word (h : Collects pending line text) (hw : IsWord w)
    (hstart : trimStart line ≠ [] ∨ trimStart w = w) :
    Collects pending (line ++ w) (text ++ w) ∧ trimStart (line ++ w) ≠ [] ∧
      ∀ rest, linesAfter pending line (w ++ rest) = linesAfter pending (line ++ w) rest := by
  have htrim : trimStart (line ++ w) = trimStart line ++ w := trimStart_append hstart
  have hne : trimStart (line ++ w) ≠ [] := by
    rw [htrim]
    exact List.append_ne_nil_of_right_ne_nil _ hw.ne_nil
  refine ⟨⟨?_, ?_, hw.even text h.even, ?_⟩, hne, ?_⟩
  · rw [htrim, ← List.append_assoc, h.text_eq]
  · rintro rfl
    rw [htrim] at hne ⊢
    exact ⟨hne, (Bool.or_eq_false_iff.mp (h.not_skipped w)).2⟩
  · intro x hx
    rcases List.mem_append.mp hx with hx | hx
    · exact h.inline x hx
    · exact hw.inline x hx
  · intro rest
    unfold linesAfter
    rw [linesFrom_append fun x hx => (hw.inline x hx).1, List.reverse_append]

/-- After folds, the line at hand is another one unless there are none. -/
theorem folds {f : List Char} (h : Collects pending line text) (hf : Folds f) :
    ∃ pending' line', Collects pending' line' text ∧ (f = [] → line' = line) ∧
      ∀ rest, linesAfter pending line (f ++ rest) = linesAfter pending' line' rest := by
  induction hf generalizing pending line with
  | nil => exact ⟨pending, line, h, fun _ => rfl, fun _ => rfl⟩
  | @cons n g f hn hg _ ih =>
    obtain ⟨hfold, hread⟩ := h.fold hn hg
    obtain ⟨pending', line', hcollects, -, hrest⟩ := ih hfold
    refine ⟨pending', line', hcollects, nofun, fun rest => ?_⟩
    rw [← hrest, ← hread]
    simp

/-- Words go to the logical line without the folds between them. -/
theorem linesAfter_folded {v t : List Char} (h : Collects pending line text)
    (hline : trimStart line ≠ []) (hv : Folded v t) {rest : List Char} (hn : EndsLine n rest) :
    linesAfter pending line (t ++ (n ++ rest)) = (text ++ v) :: joinLines none (lines rest) := by
  induction hv generalizing pending line text with
  | nil =>
    rw [List.nil_append, List.append_nil]
    exact h.linesAfter_endsLine hn
  | @cons f w v t hf hw hstart _ ih =>
    obtain ⟨pending', line', hfolds, hsame, hread⟩ := h.folds hf
    have hstart' : trimStart line' ≠ [] ∨ trimStart w = w := by
      refine hstart.imp_left fun hnil => ?_
      rw [hsame hnil]
      exact hline
    obtain ⟨hword, hne, hstep⟩ := hfolds.append_word hw hstart'
    rw [List.append_assoc, List.append_assoc, hread, hstep, ih hword hne, List.append_assoc]

end Collects

/-- Lines that give no entry when no line is pending. -/
def Skipped (line : List Char) : Prop := trimStart line = [] ∨ isComment (trimStart line) = true

namespace Skipped

variable {line n : List Char}

theorem joinLines_cons (h : Skipped line) (ls : List (List Char)) :
    joinLines none (line :: ls) = joinLines none ls := by
  have hskip : ((trimStart line).isEmpty || isComment (trimStart line)) = true := by
    rcases h with h | h
    · rw [h]
      rfl
    · rw [h, Bool.or_true]
  rw [joinLines]
  dsimp only [Option.isNone, Bool.true_and]
  rw [hskip]
  rfl

theorem of_append {x : Char} (h : Skipped (line ++ [x])) : Skipped line := by
  by_cases hline : trimStart line = []
  · exact .inl hline
  · rw [Skipped, trimStart_append (.inl hline)] at h
    obtain ⟨y, r, hy⟩ := List.exists_cons_of_ne_nil hline
    rw [hy] at h
    refine .inr ?_
    rw [hy]
    exact h.resolve_left nofun

theorem closeLine_reverse (h : Skipped line) : Skipped (closeLine line.reverse) := by
  unfold closeLine
  split
  · next r hr =>
    rw [← List.reverse_reverse line, hr, List.reverse_cons] at h
    exact h.of_append
  · rwa [List.reverse_reverse]

theorem linesAfter_endsLine (h : Skipped line) {rest : List Char} (hn : EndsLine n rest) :
    linesAfter none line (n ++ rest) = joinLines none (lines rest) := by
  unfold linesAfter
  rcases hn with (rfl | rfl) | ⟨rfl, rfl⟩
  · exact h.closeLine_reverse.joinLines_cons _
  · rw [linesFrom_crlf, h.joinLines_cons]
  · rw [List.append_nil, linesFrom, List.reverse_reverse]
    split
    · rfl
    · rw [h.joinLines_cons]
      rfl

end Skipped

section Entries

variable {key k a b i n rest : List Char} {sep : Char}

theorem isContinued_append_gap {s : List Char} (hs : isContinued s = false) (hb : IsGap b) :
    isContinued (s ++ b) = false := by
  rcases List.eq_nil_or_concat b with rfl | ⟨r, x, rfl⟩
  · rwa [List.append_nil]
  · have hx : x ≠ '\\' := by
      rintro rfl
      cases (hb '\\' (by simp)).1
    rw [List.concat_eq_append, ← List.append_assoc]
    exact isContinued_concat_of_ne hx _

/-- Up to its separator and the blanks after it, an entry is one line that is not a comment. The
blanks before the separator belong to the indentation when the key is empty. -/
theorem collects_key (hi : IsGap i) (hk : ∀ x ∈ k, x ≠ '\n' ∧ x ≠ '\r')
    (hhead : ∀ x ∈ k.head?, isBlank x = false) (hstart : ∀ c ∈ k.head?, c ≠ '#' ∧ c ≠ '!')
    (ha : IsGap a) (hsep : isSeparator sep = true) (hb : IsGap b) :
    ∃ a', IsGap a' ∧ Collects none (i ++ (k ++ (a ++ sep :: b))) (k ++ (a' ++ sep :: b)) := by
  have hsepEnd : sep ≠ '\n' ∧ sep ≠ '\r' ∧ sep ≠ '\\' ∧ isComment (sep :: b) = false := by
    simp only [isSeparator, Bool.or_eq_true, beq_iff_eq] at hsep
    rcases hsep with rfl | rfl <;> exact ⟨by decide, by decide, by decide, rfl⟩
  have heven : ∀ s, isContinued (s ++ sep :: b) = false := by
    intro s
    rw [List.append_cons]
    exact isContinued_append_gap (isContinued_concat_of_ne hsepEnd.2.2.1 s) hb
  have hinline : ∀ x ∈ i ++ (k ++ (a ++ sep :: b)), x ≠ '\n' ∧ x ≠ '\r' := by
    simp only [List.mem_append, List.mem_cons]
    rintro x (hx | hx | hx | rfl | hx)
    · exact (hi x hx).2
    · exact hk x hx
    · exact (ha x hx).2
    · exact ⟨hsepEnd.1, hsepEnd.2.1⟩
    · exact (hb x hx).2
  have htrim : ∃ a', IsGap a' ∧
      trimStart (i ++ (k ++ (a ++ sep :: b))) = k ++ (a' ++ sep :: b) ∧
      isComment (k ++ (a' ++ sep :: b)) = false := by
    rw [trimStart_gap_append hi]
    cases k with
    | nil =>
      refine ⟨[], by decide, ?_, hsepEnd.2.2.2⟩
      exact (trimStart_gap_append ha _).trans (trimStart_separator hsep b)
    | cons x r =>
      refine ⟨a, ha, trimStart_of_head fun y hy => hhead y hy, ?_⟩
      simp [isComment, hstart x rfl]
  obtain ⟨a', ha', htext, hcomment⟩ := htrim
  refine ⟨a', ha', htext, fun _ => ?_, ?_, hinline⟩
  · rw [htext]
    exact ⟨by simp, hcomment⟩
  · rw [← List.append_assoc]
    exact heven (k ++ a')

theorem joinLines_lines_append {u : List Char} (hu : ∀ x ∈ u, x ≠ '\n') (t : List Char) :
    joinLines none (lines (u ++ t)) = linesAfter none u t := by
  rw [lines, linesFrom_append hu, List.append_nil, linesAfter]

/-- The line of an entry gives that entry before those of the lines that follow. -/
theorem map_entry_line_of_folded {v : List Char} (hi : IsGap i)
    (hk : ∀ rest, cutKey (k ++ rest) = (k ++ (cutKey rest).1, (cutKey rest).2))
    (hinline : ∀ x ∈ k, x ≠ '\n' ∧ x ≠ '\r') (hhead : ∀ x ∈ k.head?, isBlank x = false)
    (hstart : ∀ c ∈ k.head?, c ≠ '#' ∧ c ≠ '!') (ha : IsGap a) (hsep : sep = '=' ∨ sep = ':')
    (hb : IsGap b) {w : List Char} (hv : Folded v w) (htrim : trimStart v = v)
    (hn : EndsLine n rest) :
    (joinLines none (lines (i ++ (k ++ (a ++ sep :: (b ++ w))) ++ (n ++ rest)))).map entry =
      (String.ofList (unescape k), String.ofList (unescape v)) ::
        (joinLines none (lines rest)).map entry := by
  have hsep' : isSeparator sep = true := by
    rcases hsep with rfl | rfl <;> rfl
  obtain ⟨a', ha', hkey⟩ := collects_key hi hinline hhead hstart ha hsep' hb
  have hsplit : i ++ (k ++ (a ++ sep :: (b ++ w))) ++ (n ++ rest) =
      i ++ (k ++ (a ++ sep :: b)) ++ (w ++ (n ++ rest)) := by
    simp
  have htext : k ++ (a' ++ sep :: b) ++ v = k ++ (a' ++ sep :: (b ++ v)) := by
    simp
  rw [hsplit, joinLines_lines_append fun x hx => (hkey.inline x hx).1,
    hkey.linesAfter_folded (hkey.opened rfl).1 hv hn, htext, List.map_cons,
    entry_append hk ha' hsep' hb htrim]

/-- A line gives its entries before those of the lines that follow. -/
theorem map_entry_line {es : List (String × String)} {l : List Char} (hl : SpellsLine es l)
    (hn : EndsLine n rest) : (joinLines none (lines (l ++ (n ++ rest)))).map entry =
      es ++ (joinLines none (lines rest)).map entry := by
  cases hl with
  | blank hg =>
    have hskipped : Skipped l := .inl (by simpa using trimStart_gap_append hg [])
    rw [joinLines_lines_append fun x hx => (hg x hx).2.1, hskipped.linesAfter_endsLine hn,
      List.nil_append]
  | @comment g t m hg hm ht =>
    have hskipped : Skipped (g ++ m :: t) := by
      rw [Skipped, trimStart_gap_append hg]
      rcases hm with rfl | rfl <;> exact .inr rfl
    have hu : ∀ x ∈ g ++ m :: t, x ≠ '\n' := by
      simp only [List.mem_append, List.mem_cons]
      rintro x (hx | rfl | hx)
      · exact (hg x hx).2.1
      · rcases hm with rfl | rfl <;> decide
      · exact fun h => ht (h ▸ hx)
    rw [joinLines_lines_append hu, hskipped.linesAfter_endsLine hn, List.nil_append]
  | entry hi hk hstart ha hsep hb hv =>
    obtain ⟨v, hfolded, hv, htrim⟩ := exists_folded_of_spellsValue hv
    rw [map_entry_line_of_folded hi (cutKey_spelled hk) (not_lineEnd_of_mem_spelled hk)
      (head_of_spells hk) hstart ha hsep hb hfolded htrim hn, unescape_spelled hk,
      unescape_spelled hv]
    rfl

theorem map_entry_entries {entries : List (String × String)} {t : List Char}
    (h : SpellsEntries entries t) : (joinLines none (lines t)).map entry = entries := by
  induction h with
  | nil => rfl
  | line hl hn _ ih => rw [map_entry_line hl hn, ih]

end Entries

/-- Whatever way entries with different keys are written, the text is read as the map of exactly
these entries. -/
theorem parse_of_spellsEntries {entries : List (String × String)} {text : String}
    (h : SpellsEntries entries text.toList) (distinct : (entries.map Prod.fst).Nodup) :
    (parse text).Perm entries ∧ Keyed.Ordered (parse text) := by
  unfold parse
  rw [map_entry_entries h]
  exact ⟨Keyed.perm_ofEntries distinct, Keyed.ordered_ofEntries entries⟩

theorem parse_of_folded_text :
    let entries := [("k=1", "abé")]
    let text := "# labels\r\n  k\\=1 : a\\\n\tb\\u00e9\n"
    SpellsEntries entries text.toList ∧ (entries.map Prod.fst).Nodup ∧
      (parse text).Perm entries ∧ Keyed.Ordered (parse text) := by
  intro entries text
  have hcomment : SpellsLine [] ([] ++ '#' :: " labels".toList) :=
    .comment (by decide) (by decide) (by decide)
  have hkey : Spells AllowedInKey "k=1".toList ['k', '\\', '=', '1'] :=
    .cons (.itself (by decide) (by decide))
      (.cons (.escaped (by decide)) (.cons (.itself (by decide) (by decide)) .nil))
  have hfold : Folds ['\\', '\n', '\t'] :=
    .cons (by decide : IsLineEnd ['\n']) (by decide : IsGap ['\t']) .nil
  have hcode : ∀ allowed, SpellsChar allowed 'é' ['\\', 'u', '0', '0', 'e', '9'] :=
    fun _ => .code rfl rfl rfl rfl rfl
  have hvalue : SpellsValue "abé".toList
      ['a', '\\', '\n', '\t', 'b', '\\', 'u', '0', '0', 'e', '9'] :=
    .cons (.itself (by decide) (by decide))
      (.cons hfold (.itself (by decide) (by decide)) (.cons .nil (hcode _) .nil))
  have hentry : SpellsLine entries _ :=
    .entry (by decide : IsGap [' ', ' ']) hkey (by simp) (by decide : IsGap [' ']) (.inr rfl)
      (by decide : IsGap [' ']) hvalue
  have hspells : SpellsEntries entries text.toList := by
    have hlines := SpellsEntries.line hcomment (.inl (by decide : IsLineEnd ['\r', '\n']))
      (.line hentry (.inl (by decide : IsLineEnd ['\n'])) .nil)
    simpa [entries, text] using hlines
  exact ⟨hspells, by decide, parse_of_spellsEntries hspells (by decide)⟩

end ScreenActions.Properties

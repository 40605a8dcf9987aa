import ScreenActions.Proofs.EntryLines

/-!
Messages in ASCII. Any other character is written as the escapes of its UTF-16 code units, and a
text comes back exactly if each of its characters is one code unit: the two escapes of any other
character stay in the text as they are written.
-/

namespace ScreenActions.Properties

open Text Number

/-- The character is one UTF-16 code unit. -/
def OneUnit (c : Char) : Prop := c.toNat < 65536

instance : DecidablePred OneUnit := fun c => inferInstanceAs (Decidable (c.toNat < 65536))

/-- The UTF-16 code units of a character: itself, or a high and a low surrogate. -/
def codeUnits (c : Char) : List Nat :=
  if OneUnit c then [c.toNat]
  else [55296 + (c.toNat - 65536) / 1024, 56320 + (c.toNat - 65536) % 1024]

/-- The ways to write code units one after the other. -/
inductive SpellsUnits : List Nat → List Char → Prop
  | nil : SpellsUnits [] []
  | cons {n : Nat} {units : List Nat} {w t : List Char} (hn : SpellsUnit n w)
      (hs : SpellsUnits units t) : SpellsUnits (n :: units) (w ++ t)

/-- The ways to write a character in ASCII: outside ASCII, there are only those by code units. -/
inductive SpellsInAscii (allowed : Char → Prop) (c : Char) : List Char → Prop
  | ascii {w : List Char} (hc : c.toNat < 128) (hw : SpellsChar allowed c w) :
      SpellsInAscii allowed c w
  | units {w : List Char} (hc : 128 ≤ c.toNat) (hw : SpellsUnits (codeUnits c) w) :
      SpellsInAscii allowed c w

/-- The characters of a text, each with the way it is written. -/
abbrev WrittenText := List (Char × List Char)

namespace WrittenText

/-- The text that is written. -/
def meant (t : WrittenText) : String := String.ofList (t.map Prod.fst)

/-- The text that is read: the escapes of a character of two code units stay as they are. -/
def read (t : WrittenText) : String :=
  String.ofList (t.flatMap fun p => if OneUnit p.1 then [p.1] else p.2)

end WrittenText

/-- The ways to write a key in ASCII. -/
inductive AsciiKey : WrittenText → List Char → Prop
  | nil : AsciiKey [] []
  | cons {c : Char} {s : WrittenText} {w t : List Char} (hc : SpellsInAscii AllowedInKey c w)
      (hs : AsciiKey s t) : AsciiKey ((c, w) :: s) (w ++ t)

/-- The ways to write the characters of a value after the first in ASCII. -/
inductive AsciiTail : WrittenText → List Char → Prop
  | nil : AsciiTail [] []
  | cons {c : Char} {s : WrittenText} {f w t : List Char} (hf : Folds f)
      (hc : SpellsInAscii (fun c => f = [] ∨ AllowedAtStart c) c w) (hs : AsciiTail s t) :
      AsciiTail ((c, w) :: s) (f ++ (w ++ t))

/-- The ways to write a value in ASCII. -/
inductive AsciiValue : WrittenText → List Char → Prop
  | nil : AsciiValue [] []
  | cons {c : Char} {s : WrittenText} {w t : List Char} (hc : SpellsInAscii AllowedAtStart c w)
      (hs : AsciiTail s t) : AsciiValue ((c, w) :: s) (w ++ t)

/-- The ways to write entries with keys and values in ASCII, with comments and empty lines between
them. -/
inductive AsciiEntries : List (WrittenText × WrittenText) → List Char → Prop
  | nil : AsciiEntries [] []
  | skip {entries : List (WrittenText × WrittenText)} {l n t : List Char} (hl : SpellsLine [] l)
      (hn : EndsLine n t) (ht : AsciiEntries entries t) : AsciiEntries entries (l ++ (n ++ t))
  | entry {entries : List (WrittenText × WrittenText)} {key value : WrittenText}
      {i k a b v n t : List Char} {sep : Char} (hi : IsGap i) (hk : AsciiKey key k)
      (hstart : ∀ c ∈ k.head?, c ≠ '#' ∧ c ≠ '!') (ha : IsGap a) (hsep : sep = '=' ∨ sep = ':')
      (hb : IsGap b) (hv : AsciiValue value v) (hn : EndsLine n t) (ht : AsciiEntries entries t) :
      AsciiEntries ((key, value) :: entries) (i ++ (k ++ (a ++ sep :: (b ++ v))) ++ (n ++ t))

section Characters

variable {allowed : Char → Prop} {c : Char} {w : List Char}

theorem exists_of_spellsUnits_cons {n : Nat} {units : List Nat} (h : SpellsUnits (n :: units) w) :
    ∃ u v, w = u ++ v ∧ SpellsUnit n u ∧ SpellsUnits units v := by
  cases h with
  | cons hn hs => exact ⟨_, _, rfl, hn, hs⟩

theorem eq_nil_of_spellsUnits_nil (h : SpellsUnits [] w) : w = [] := by
  cases h
  rfl

theorem isAscii_of_spellsUnit {n : Nat} (h : SpellsUnit n w) : ∀ x ∈ w, x.toNat < 128 := by
  cases h with
  | digits h₃ h₂ h₁ h₀ _ =>
    have hdigit : ∀ {d : Char} {n : Nat}, hexValue? d = some n → d.toNat < 128 := by
      intro d n hd
      have hbounds := hexValue?_bounds hd
      omega
    simp only [List.forall_mem_cons]
    exact ⟨by decide, by decide, hdigit h₃, hdigit h₂, hdigit h₁, hdigit h₀, nofun⟩

theorem isAscii_of_spellsUnits {units : List Nat} (h : SpellsUnits units w) :
    ∀ x ∈ w, x.toNat < 128 := by
  induction h with
  | nil => nofun
  | cons hn _ ih => exact List.forall_mem_append.mpr ⟨isAscii_of_spellsUnit hn, ih⟩

/-- A surrogate is the code of no character. -/
theorem not_isValidChar_codeUnits (hc : ¬OneUnit c) : ∀ n ∈ codeUnits c, ¬n.isValidChar := by
  have hmax : c.toNat < 1114112 := by
    rcases c.valid with h | h
    · exact Nat.lt_trans h (by decide)
    · exact h.2
  rw [codeUnits, if_neg hc]
  unfold OneUnit at hc
  simp only [List.forall_mem_cons, Nat.isValidChar]
  refine ⟨?_, ?_, nofun⟩ <;> omega

/-- A character is written as if there were no code units, or as two escapes that are no
characters. -/
theorem SpellsInAscii.char_or_pair (h : SpellsInAscii allowed c w) :
    OneUnit c ∧ SpellsChar allowed c w ∨
      ¬OneUnit c ∧ ∃ m n u v, SpellsUnit m u ∧ SpellsUnit n v ∧ ¬m.isValidChar ∧
        ¬n.isValidChar ∧ w = u ++ v := by
  cases h with
  | ascii hc hw => exact .inl ⟨Nat.lt_trans hc (by decide), hw⟩
  | units hc hw =>
    by_cases hone : OneUnit c
    · rw [codeUnits, if_pos hone] at hw
      obtain ⟨u, v, rfl, hu, hv⟩ := exists_of_spellsUnits_cons hw
      obtain rfl := eq_nil_of_spellsUnits_nil hv
      refine .inl ⟨hone, ?_⟩
      rw [List.append_nil]
      cases hu with
      | digits h₃ h₂ h₁ h₀ h => exact .code h₃ h₂ h₁ h₀ h
    · have hinvalid := not_isValidChar_codeUnits hone
      rw [codeUnits, if_neg hone] at hw hinvalid
      obtain ⟨hm, hinvalid⟩ := List.forall_mem_cons.mp hinvalid
      obtain ⟨hn, -⟩ := List.forall_mem_cons.mp hinvalid
      obtain ⟨u, r, rfl, hu, hr⟩ := exists_of_spellsUnits_cons hw
      obtain ⟨v, r', rfl, hv, hr'⟩ := exists_of_spellsUnits_cons hr
      obtain rfl := eq_nil_of_spellsUnits_nil hr'
      exact .inr ⟨hone, _, _, u, v, hu, hv, hm, hn, by rw [List.append_nil]⟩

namespace SpellsInAscii

theorem unescape_append (h : SpellsInAscii allowed c w) (rest : List Char) :
    unescape (w ++ rest) = (if OneUnit c then [c] else w) ++ unescape rest := by
  rcases h.char_or_pair with ⟨hone, hchar⟩ | ⟨hpair, m, n, u, v, hu, hv, hm, hn, rfl⟩
  · rw [Properties.unescape_append hchar, if_pos hone]
    rfl
  · rw [List.append_assoc, hu.unescape_append, if_neg hm, hv.unescape_append, if_neg hn,
      if_neg hpair, List.append_assoc]

theorem cutKey_append (h : SpellsInAscii AllowedInKey c w) (rest : List Char) :
    cutKey (w ++ rest) = (w ++ (cutKey rest).1, (cutKey rest).2) := by
  rcases h.char_or_pair with ⟨-, hchar⟩ | ⟨-, m, n, u, v, hu, hv, -, -, rfl⟩
  · exact Properties.cutKey_append hchar rest
  · rw [List.append_assoc, hu.cutKey_append, hv.cutKey_append, List.append_assoc]

theorem isWord (h : SpellsInAscii allowed c w) : IsWord w := by
  rcases h.char_or_pair with ⟨-, hchar⟩ | ⟨-, m, n, u, v, hu, hv, -, -, rfl⟩
  · exact isWord_of_spellsChar hchar
  · refine ⟨?_, List.forall_mem_append.mpr ⟨hu.not_lineEnd_of_mem, hv.not_lineEnd_of_mem⟩, ?_⟩
    · obtain ⟨digits, rfl, -⟩ := hu.exists_digits
      exact List.cons_ne_nil _ _
    · intro s _
      rw [← List.append_assoc]
      exact hv.isContinued_append _

/-- A character that is no blank is written without a blank in front. -/
theorem head (h : SpellsInAscii allowed c w) (hallowed : allowed c → isBlank c = false)
    (rest : List Char) : ∀ x ∈ (w ++ rest).head?, isBlank x = false := by
  rcases h.char_or_pair with ⟨-, hchar⟩ | ⟨-, m, n, u, v, hu, hv, -, -, rfl⟩
  · exact head_of_spellsChar hchar hallowed rest
  · obtain ⟨digits, rfl, -⟩ := hu.exists_digits
    intro x hx
    cases hx
    rfl

theorem trimStart_eq (h : SpellsInAscii allowed c w) (hallowed : allowed c → isBlank c = false) :
    trimStart w = w := by
  have hhead := h.head hallowed []
  rw [List.append_nil] at hhead
  exact trimStart_of_head hhead

/-- What is written is in ASCII. -/
theorem isAscii (h : SpellsInAscii allowed c w) : ∀ x ∈ w, x.toNat < 128 := by
  cases h with
  | units _ hw => exact isAscii_of_spellsUnits hw
  | ascii hc hw =>
    cases hw with
    | itself _ _ => simpa using hc
    | escaped _ => simpa using hc
    | named h =>
      simp only [List.mem_cons, List.not_mem_nil, or_false, Prod.mk.injEq] at h
      rcases h with ⟨-, rfl⟩ | ⟨-, rfl⟩ | ⟨-, rfl⟩ | ⟨-, rfl⟩ <;> simp
    | code h₃ h₂ h₁ h₀ h => exact isAscii_of_spellsUnit (.digits h₃ h₂ h₁ h₀ h)

end SpellsInAscii

end Characters

section Texts

variable {t : WrittenText} {k w : List Char}

theorem unescape_asciiKey (h : AsciiKey t k) : String.ofList (unescape k) = t.read := by
  unfold WrittenText.read
  rw [String.ofList_inj]
  induction h with
  | nil => rfl
  | cons hc _ ih => rw [hc.unescape_append, ih, List.flatMap_cons]

theorem cutKey_asciiKey (h : AsciiKey t k) (rest : List Char) :
    cutKey (k ++ rest) = (k ++ (cutKey rest).1, (cutKey rest).2) := by
  induction h with
  | nil => rfl
  | cons hc _ ih => rw [List.append_assoc, hc.cutKey_append, ih, List.append_assoc]

theorem not_lineEnd_of_mem_asciiKey (h : AsciiKey t k) : ∀ x ∈ k, x ≠ '\n' ∧ x ≠ '\r' := by
  induction h with
  | nil => nofun
  | cons hc _ ih => exact List.forall_mem_append.mpr ⟨hc.isWord.inline, ih⟩

theorem head_of_asciiKey (h : AsciiKey t k) : ∀ x ∈ k.head?, isBlank x = false := by
  cases h with
  | nil => nofun
  | cons hc _ => exact hc.head (fun h => h.2) _

theorem exists_folded_of_asciiTail (h : AsciiTail t w) :
    ∃ v, Folded v w ∧ String.ofList (unescape v) = t.read := by
  unfold WrittenText.read
  simp only [String.ofList_inj]
  induction h with
  | nil => exact ⟨[], .nil, rfl⟩
  | @cons c s f w t hf hc _ ih =>
    obtain ⟨v, hfolded, hv⟩ := ih
    have hstart : f = [] ∨ trimStart w = w := by
      by_cases hnil : f = []
      · exact .inl hnil
      · exact .inr (hc.trimStart_eq fun hallowed => hallowed.resolve_left hnil)
    refine ⟨w ++ v, .cons hf hc.isWord hstart hfolded, ?_⟩
    rw [hc.unescape_append, hv, List.flatMap_cons]

theorem exists_folded_of_asciiValue (h : AsciiValue t w) :
    ∃ v, Folded v w ∧ String.ofList (unescape v) = t.read ∧ trimStart v = v := by
  cases h with
  | nil => exact ⟨[], .nil, rfl, rfl⟩
  | @cons c s w t hc hs =>
    obtain ⟨v, hfolded, hv⟩ := exists_folded_of_asciiTail hs
    refine ⟨w ++ v, .cons .nil hc.isWord (.inl rfl) hfolded, ?_, trimStart_of_head (hc.head id v)⟩
    unfold WrittenText.read at hv ⊢
    rw [String.ofList_inj] at hv ⊢
    rw [hc.unescape_append, hv, List.flatMap_cons]

theorem map_entry_asciiEntries {entries : List (WrittenText × WrittenText)} {t : List Char}
    (h : AsciiEntries entries t) :
    (joinLines none (lines t)).map entry = entries.map fun e => (e.1.read, e.2.read) := by
  induction h with
  | nil => rfl
  | skip hl hn _ ih => rw [map_entry_line hl hn, ih, List.nil_append]
  | entry hi hk hstart ha hsep hb hv hn _ ih =>
    obtain ⟨v, hfolded, hv, htrim⟩ := exists_folded_of_asciiValue hv
    rw [map_entry_line_of_folded hi (cutKey_asciiKey hk) (not_lineEnd_of_mem_asciiKey hk)
      (head_of_asciiKey hk) hstart ha hsep hb hfolded htrim hn, unescape_asciiKey hk, hv, ih,
      List.map_cons]

/-- Each character of the text is written in ASCII, in one place or another. -/
def WrittenText.InAscii (t : WrittenText) : Prop :=
  ∀ p ∈ t, ∃ allowed, SpellsInAscii allowed p.1 p.2

theorem inAscii_of_asciiKey (h : AsciiKey t k) : t.InAscii := by
  induction h with
  | nil => nofun
  | cons hc _ ih => exact List.forall_mem_cons.mpr ⟨⟨_, hc⟩, ih⟩

theorem inAscii_of_asciiTail (h : AsciiTail t w) : t.InAscii := by
  induction h with
  | nil => nofun
  | cons _ hc _ ih => exact List.forall_mem_cons.mpr ⟨⟨_, hc⟩, ih⟩

theorem inAscii_of_asciiValue (h : AsciiValue t w) : t.InAscii := by
  cases h with
  | nil => nofun
  | cons hc hs => exact List.forall_mem_cons.mpr ⟨⟨_, hc⟩, inAscii_of_asciiTail hs⟩

theorem inAscii_of_asciiEntries {entries : List (WrittenText × WrittenText)} {t : List Char}
    (h : AsciiEntries entries t) : ∀ e ∈ entries, e.1.InAscii ∧ e.2.InAscii := by
  induction h with
  | nil => nofun
  | skip _ _ _ ih => exact ih
  | entry _ hk _ _ _ _ hv _ _ ih =>
    exact List.forall_mem_cons.mpr ⟨⟨inAscii_of_asciiKey hk, inAscii_of_asciiValue hv⟩, ih⟩

/-- A text that is read has characters of one code unit only. -/
theorem oneUnit_of_mem_read (h : t.InAscii) : ∀ c ∈ t.read.toList, OneUnit c := by
  intro c hc
  rw [WrittenText.read, String.toList_ofList, List.mem_flatMap] at hc
  obtain ⟨p, hp, hc⟩ := hc
  obtain ⟨allowed, hspells⟩ := h p hp
  split at hc
  · next hone => rwa [List.mem_singleton.mp hc]
  · exact Nat.lt_trans (hspells.isAscii c hc) (by decide)

/-- A text comes back exactly if each of its characters is one code unit. -/
theorem read_eq_meant_iff (h : t.InAscii) :
    t.read = t.meant ↔ ∀ c ∈ t.meant.toList, OneUnit c := by
  constructor
  · intro heq
    rw [← heq]
    exact oneUnit_of_mem_read h
  · intro hone
    rw [WrittenText.meant, String.toList_ofList, List.forall_mem_map] at hone
    rw [WrittenText.read, WrittenText.meant, String.ofList_inj, List.map_eq_flatMap]
    exact List.flatMap_congr fun p hp => if_pos (hone p hp)

end Texts

/-- Entries that are written in ASCII are read character by character, but for the characters of two
code units, whose escapes stay as they are; so the value comes back under its key exactly if there
is no such character in either. -/
theorem get?_parse_of_asciiEntries {entries : List (WrittenText × WrittenText)} {text : String}
    (h : AsciiEntries entries text.toList) (distinct : (entries.map fun e => e.1.read).Nodup) :
    ∀ key value, (key, value) ∈ entries →
      Keyed.get? (parse text) key.read = some value.read ∧
      (Keyed.get? (parse text) key.meant = some value.meant ↔
        (∀ c ∈ key.meant.toList, OneUnit c) ∧ ∀ c ∈ value.meant.toList, OneUnit c) := by
  intro key value hmem
  obtain ⟨hkey, hvalue⟩ := inAscii_of_asciiEntries h _ hmem
  have hnodup : ((entries.map fun e => (e.1.read, e.2.read)).map Prod.fst).Nodup := by
    rwa [List.map_map]
  have hparse : (parse text).Perm (entries.map fun e => (e.1.read, e.2.read)) := by
    unfold parse
    rw [map_entry_asciiEntries h]
    exact Keyed.perm_ofEntries hnodup
  have hget : Keyed.get? (parse text) key.read = some value.read := by
    refine Keyed.get?_of_mem ((hparse.map Prod.fst).nodup_iff.mpr hnodup) ?_
    exact hparse.mem_iff.mpr (List.mem_map_of_mem (f := fun e => (e.1.read, e.2.read)) hmem)
  refine ⟨hget, fun hfound => ?_, fun ⟨hk, hv⟩ => ?_⟩
  · -- Whatever is read under the key is that of an entry, whose key has been read too.
    have hread : ∀ c ∈ key.meant.toList, OneUnit c := by
      have hentry := hparse.mem_iff.mp (Keyed.mem_of_get? hfound)
      obtain ⟨e, he, heq⟩ := List.mem_map.mp hentry
      rw [← (Prod.mk.inj heq).1]
      exact oneUnit_of_mem_read (inAscii_of_asciiEntries h e he).1
    rw [← (read_eq_meant_iff hkey).mpr hread, hget] at hfound
    exact ⟨hread, (read_eq_meant_iff hvalue).mp (Option.some.inj hfound)⟩
  · rw [← (read_eq_meant_iff hkey).mpr hk, ← (read_eq_meant_iff hvalue).mpr hv]
    exact hget

theorem spellsInAscii_smile (allowed : Char → Prop) : SpellsInAscii allowed '😀'
    ['\\', 'u', 'd', '8', '3', 'd', '\\', 'u', 'd', 'e', '0', '0'] := by
  have hunits : codeUnits '😀' = [55357, 56832] := by decide
  have hhigh : SpellsUnit 55357 ['\\', 'u', 'd', '8', '3', 'd'] := .digits rfl rfl rfl rfl rfl
  have hlow : SpellsUnit 56832 ['\\', 'u', 'd', 'e', '0', '0'] := .digits rfl rfl rfl rfl rfl
  exact .units (by decide) (hunits ▸ .cons hhigh (.cons hlow .nil))

theorem get?_parse_of_asciiEntries_with_pair :
    let name : WrittenText := [('n', ['n']), ('ï', ['\\', 'u', '0', '0', 'E', 'F'])]
    let smile : WrittenText :=
      [('😀', ['\\', 'u', 'd', '8', '3', 'd', '\\', 'u', 'd', 'e', '0', '0']), ('!', ['!'])]
    let entries := [(name, smile), ([('k', ['k'])], name)]
    let text := "n\\u00EF : \\ud83d\\ude00\\\r\n\t!\nk=n\\u00EF"
    AsciiEntries entries text.toList ∧ (entries.map fun e => e.1.read).Nodup ∧
      Keyed.get? (parse text) "nï" = some "\\ud83d\\ude00!" ∧
      Keyed.get? (parse text) "nï" ≠ some "😀!" ∧ Keyed.get? (parse text) "k" = some "nï" := by
  intro name smile entries text
  have hcode : ∀ allowed, SpellsInAscii allowed 'ï' ['\\', 'u', '0', '0', 'E', 'F'] := by
    intro allowed
    have hunits : codeUnits 'ï' = [239] := by decide
    have hunit : SpellsUnit 239 ['\\', 'u', '0', '0', 'E', 'F'] := .digits rfl rfl rfl rfl rfl
    exact .units (by decide) (hunits ▸ .cons hunit .nil)
  have hfold : Folds ['\\', '\r', '\n', '\t'] :=
    .cons (by decide : IsLineEnd ['\r', '\n']) (by decide : IsGap ['\t']) .nil
  have hsmile : AsciiValue smile _ :=
    .cons (spellsInAscii_smile _)
      (.cons hfold (.ascii (by decide) (.itself (by decide) (.inr rfl))) .nil)
  have hname : AsciiKey name _ :=
    .cons (.ascii (by decide) (.itself (by decide) (by decide))) (.cons (hcode _) .nil)
  have hname' : AsciiValue name _ :=
    .cons (.ascii (by decide) (.itself (by decide) (by decide))) (.cons .nil (hcode _) .nil)
  have hk : AsciiKey [('k', ['k'])] _ :=
    .cons (.ascii (by decide) (.itself (by decide) (by decide))) .nil
  have hentries : AsciiEntries entries text.toList := by
    have hlines := AsciiEntries.entry (by decide : IsGap []) hname (by simp)
      (by decide : IsGap [' ']) (.inr rfl) (by decide : IsGap [' ']) hsmile
      (.inl (by decide : IsLineEnd ['\n']))
      (.entry (by decide : IsGap []) hk (by simp) (by decide : IsGap []) (.inl rfl)
        (by decide : IsGap []) hname' (.inr ⟨rfl, rfl⟩) .nil)
    simpa [entries, text] using hlines
  have hdistinct : (entries.map fun e => e.1.read).Nodup := by decide
  have hread := get?_parse_of_asciiEntries hentries hdistinct
  obtain ⟨hget, hiff⟩ := hread name smile (by simp [entries])
  obtain ⟨hget', -⟩ := hread [('k', ['k'])] name (by simp [entries])
  have hpair : ¬∀ c ∈ smile.meant.toList, OneUnit c := fun h =>
    absurd (h '😀' (by decide)) (by decide)
  exact ⟨hentries, hdistinct, hget, fun hfound => hpair (hiff.mp hfound).2, hget'⟩

/-- A value of one character outside the first 65536 is read as the twelve characters of its two
escapes. -/
theorem parse_ne_of_pair :
    let smile : WrittenText :=
      [('😀', ['\\', 'u', 'd', '8', '3', 'd', '\\', 'u', 'd', 'e', '0', '0'])]
    let text := "k=\\ud83d\\ude00"
    AsciiEntries [([('k', ['k'])], smile)] text.toList ∧ smile.meant = "😀" ∧
      Keyed.get? (parse text) "k" = some "\\ud83d\\ude00" ∧
      Keyed.get? (parse text) "k" ≠ some smile.meant := by
  intro smile text
  have hk : AsciiKey [('k', ['k'])] _ :=
    .cons (.ascii (by decide) (.itself (by decide) (by decide))) .nil
  have hsmile : AsciiValue smile _ := .cons (spellsInAscii_smile _) .nil
  have hentries : AsciiEntries [([('k', ['k'])], smile)] text.toList := by
    have hlines := AsciiEntries.entry (by decide : IsGap []) hk (by simp) (by decide : IsGap [])
      (.inl rfl) (by decide : IsGap []) hsmile (.inr ⟨rfl, rfl⟩) .nil
    simpa [text] using hlines
  exact ⟨hentries, rfl, by decide, by decide⟩

end ScreenActions.Properties

import ScreenActions.Messages.Properties
import ScreenActions.Proofs.PlainPath

/-!
The ways to write entries of messages. Each character of a key or a value can be written as itself,
after a backslash, by a name or by its code, and an entry in these characters is read as it was
meant.
-/

namespace ScreenActions.Properties

open Text Number

/-- The ways to write a character. The last two stand for it by a name and by its code in four
hexadecimal digits; what is allowed as itself depends on the place. -/
inductive SpellsChar (allowed : Char → Prop) (c : Char) : List Char → Prop
  | itself (plain : c ≠ '\\' ∧ c ≠ '\n' ∧ c ≠ '\r') (h : allowed c) : SpellsChar allowed c [c]
  | escaped (h : c ∉ ['t', 'n', 'r', 'f', 'u', '\n', '\r']) : SpellsChar allowed c ['\\', c]
  | named {name : Char}
      (h : (c, name) ∈ [('\t', 't'), ('\n', 'n'), ('\r', 'r'), ('\x0c', 'f')]) :
      SpellsChar allowed c ['\\', name]
  | code {d₃ d₂ d₁ d₀ : Char} {n₃ n₂ n₁ n₀ : Nat} (h₃ : hexValue? d₃ = some n₃)
      (h₂ : hexValue? d₂ = some n₂) (h₁ : hexValue? d₁ = some n₁) (h₀ : hexValue? d₀ = some n₀)
      (h : c.toNat = n₃ * 4096 + n₂ * 256 + n₁ * 16 + n₀) :
      SpellsChar allowed c ['\\', 'u', d₃, d₂, d₁, d₀]

/-- The ways to write a code unit: a backslash, `u` and four hexadecimal digits. -/
inductive SpellsUnit (n : Nat) : List Char → Prop
  | digits {d₃ d₂ d₁ d₀ : Char} {n₃ n₂ n₁ n₀ : Nat} (h₃ : hexValue? d₃ = some n₃)
      (h₂ : hexValue? d₂ = some n₂) (h₁ : hexValue? d₁ = some n₁) (h₀ : hexValue? d₀ = some n₀)
      (h : n = n₃ * 4096 + n₂ * 256 + n₁ * 16 + n₀) : SpellsUnit n ['\\', 'u', d₃, d₂, d₁, d₀]

/-- The ways to write characters one after the other. -/
inductive Spells (allowed : Char → Prop) : List Char → List Char → Prop
  | nil : Spells allowed [] []
  | cons {c : Char} {s w t : List Char} (hc : SpellsChar allowed c w) (hs : Spells allowed s t) :
      Spells allowed (c :: s) (w ++ t)

/-- Blanks within a line. -/
def IsGap (s : List Char) : Prop := ∀ c ∈ s, isBlank c = true ∧ c ≠ '\n' ∧ c ≠ '\r'

instance : DecidablePred IsGap := fun s => List.decidableBAll _ s

/-- In a key, a separator or a blank cannot stand as itself. -/
def AllowedInKey (c : Char) : Prop := isSeparator c = false ∧ isBlank c = false

instance : DecidablePred AllowedInKey := fun c =>
  inferInstanceAs (Decidable (isSeparator c = false ∧ isBlank c = false))

/-- At the start of a value and of a continued line, a blank cannot stand as itself. -/
def AllowedAtStart (c : Char) : Prop := isBlank c = false

instance : DecidablePred AllowedAtStart := fun c =>
  inferInstanceAs (Decidable (isBlank c = false))

theorem hexValue?_bounds {c : Char} {n : Nat} (h : hexValue? c = some n) :
    n < 16 ∧ (48 ≤ c.toNat ∧ c.toNat ≤ 57 ∨ 65 ≤ c.toNat ∧ c.toNat ≤ 70 ∨
      97 ≤ c.toNat ∧ c.toNat ≤ 102) := by
  have hle : ∀ a b : Char, a ≤ b ↔ a.toNat ≤ b.toNat := fun a b => Iff.rfl
  unfold hexValue? isDigit digitValue at h
  simp only [Bool.and_eq_true, decide_eq_true_eq, hle, Char.reduceToNat] at h
  split at h
  · have hn := Option.some.inj h
    omega
  · split at h
    · have hn := Option.some.inj h
      omega
    · split at h
      · have hn := Option.some.inj h
        omega
      · cases h

/-- A hexadecimal digit has no meaning of its own in an entry. -/
theorem hexDigit_ordinary {c : Char} {n : Nat} (h : hexValue? c = some n) :
    isBlank c = false ∧ isSeparator c = false ∧ c ≠ '\\' ∧ c ≠ '+' := by
  obtain ⟨-, hrange⟩ := hexValue?_bounds h
  refine ⟨?_, ?_, ?_, ?_⟩
  · simp only [isBlank]
    simp
    omega
  · have hne : c ≠ '=' ∧ c ≠ ':' := by
      constructor <;> rintro rfl <;> simp at hrange
    simp [isSeparator, hne]
  · rintro rfl
    simp at hrange
  · rintro rfl
    simp at hrange

theorem not_lineEnd_of_not_isBlank {c : Char} (h : isBlank c = false) : c ≠ '\n' ∧ c ≠ '\r' := by
  constructor <;> rintro rfl <;> cases h

theorem cutKey_ordinary {x : Char} (hsep : isSeparator x = false) (hblank : isBlank x = false)
    (hne : x ≠ '\\') (s : List Char) : cutKey (x :: s) = (x :: (cutKey s).1, (cutKey s).2) := by
  rw [cutKey.eq_3]
  · rw [hsep, hblank]
    rfl
  · exact fun _ _ hx => absurd hx hne

theorem isContinued_concat_backslash (s : List Char) :
    isContinued (s ++ ['\\']) = !isContinued s := by
  have htake : ((s ++ ['\\']).reverse.takeWhile (· == '\\')).length =
      (s.reverse.takeWhile (· == '\\')).length + 1 := by
    rw [List.reverse_append]
    rfl
  unfold isContinued
  rw [htake]
  rcases Nat.mod_two_eq_zero_or_one (s.reverse.takeWhile (· == '\\')).length with h | h <;>
    simp [Nat.add_mod, h]

theorem isContinued_concat_of_ne {x : Char} (hx : x ≠ '\\') (s : List Char) :
    isContinued (s ++ [x]) = false := by
  simp [isContinued, hx]

theorem backslash_not_lineEnd : '\\' ≠ '\n' ∧ '\\' ≠ '\r' := by decide

namespace SpellsUnit

variable {n : Nat} {w : List Char}

theorem exists_digits (h : SpellsUnit n w) :
    ∃ digits, w = '\\' :: 'u' :: digits ∧ radix? 16 digits = some n := by
  cases h with
  | @digits d₃ d₂ d₁ d₀ n₃ n₂ n₁ n₀ h₃ h₂ h₁ h₀ h =>
    refine ⟨_, rfl, ?_⟩
    have hplus : ∀ r, [d₃, d₂, d₁, d₀] ≠ '+' :: r := by
      intro r hr
      exact (hexDigit_ordinary h₃).2.2.2 (List.cons.inj hr).1
    have hvalue : 16 * (16 * (16 * n₃ + n₂) + n₁) + n₀ = n := by
      omega
    unfold radix?
    simp [h₃, h₂, h₁, h₀, (hexValue?_bounds h₃).1, (hexValue?_bounds h₂).1,
      (hexValue?_bounds h₁).1, (hexValue?_bounds h₀).1, hvalue]

/-- A code unit is read as the character of that number, or stays as written if there is none. -/
theorem unescape_append (h : SpellsUnit n w) (rest : List Char) :
    unescape (w ++ rest) = (if n.isValidChar then [Char.ofNat n] else w) ++ unescape rest := by
  obtain ⟨digits, hw, hradix⟩ := h.exists_digits
  have hunicode : unicode digits = if n.isValidChar then [Char.ofNat n] else w := by
    rw [unicode, hradix, hw, Option.filter_some]
    by_cases hn : n.isValidChar <;> simp [hn]
  rw [← hunicode]
  cases h with
  | digits =>
    obtain rfl := (List.cons.inj (List.cons.inj hw).2).2
    rfl

theorem cutKey_append (h : SpellsUnit n w) (rest : List Char) :
    cutKey (w ++ rest) = (w ++ (cutKey rest).1, (cutKey rest).2) := by
  cases h with
  | digits h₃ h₂ h₁ h₀ _ =>
    have hdigit : ∀ {d : Char} {n : Nat}, hexValue? d = some n → ∀ s : List Char,
        cutKey (d :: s) = (d :: (cutKey s).1, (cutKey s).2) := by
      intro d n hd s
      obtain ⟨hblank, hsep, hne, -⟩ := hexDigit_ordinary hd
      exact cutKey_ordinary hsep hblank hne s
    simp only [List.cons_append, List.nil_append, cutKey, hdigit h₃, hdigit h₂, hdigit h₁,
      hdigit h₀]

theorem isContinued_append (h : SpellsUnit n w) (s : List Char) :
    isContinued (s ++ w) = false := by
  cases h with
  | @digits d₃ d₂ d₁ d₀ _ _ _ _ _ _ _ h₀ _ =>
    have hlast : s ++ ['\\', 'u', d₃, d₂, d₁, d₀] = s ++ ['\\', 'u', d₃, d₂, d₁] ++ [d₀] := by simp
    rw [hlast]
    exact isContinued_concat_of_ne (hexDigit_ordinary h₀).2.2.1 _

theorem not_lineEnd_of_mem (h : SpellsUnit n w) : ∀ x ∈ w, x ≠ '\n' ∧ x ≠ '\r' := by
  cases h with
  | digits h₃ h₂ h₁ h₀ _ =>
    have hdigit : ∀ {d : Char} {n : Nat}, hexValue? d = some n → d ≠ '\n' ∧ d ≠ '\r' :=
      fun hd => not_lineEnd_of_not_isBlank (hexDigit_ordinary hd).1
    simp only [List.forall_mem_cons]
    exact ⟨backslash_not_lineEnd, by decide, hdigit h₃, hdigit h₂, hdigit h₁, hdigit h₀, nofun⟩

end SpellsUnit

section Characters

variable {allowed : Char → Prop} {c : Char} {w : List Char}

theorem unescape_append (h : SpellsChar allowed c w) (rest : List Char) :
    unescape (w ++ rest) = c :: unescape rest := by
  cases h with
  | itself plain _ =>
    rw [List.singleton_append, unescape.eq_6]
    all_goals simp [plain.1]
  | escaped h =>
    simp only [List.mem_cons, List.not_mem_nil, or_false, not_or] at h
    have hescaped : escaped c = c := by simp [escaped, h]
    rw [List.cons_append, List.singleton_append, unescape.eq_5, hescaped]
    · exact fun _ _ _ _ _ hu => absurd hu h.2.2.2.2.1
    · exact h.2.2.2.2.1
  | named h =>
    simp only [List.mem_cons, List.not_mem_nil, or_false, Prod.mk.injEq] at h
    rcases h with ⟨rfl, rfl⟩ | ⟨rfl, rfl⟩ | ⟨rfl, rfl⟩ | ⟨rfl, rfl⟩ <;> simp [unescape, escaped]
  | code h₃ h₂ h₁ h₀ h =>
    have hvalid : c.toNat.isValidChar := c.valid
    rw [SpellsUnit.unescape_append (.digits h₃ h₂ h₁ h₀ h), if_pos hvalid, Char.ofNat_toNat]
    rfl

theorem cutKey_append (h : SpellsChar AllowedInKey c w) (rest : List Char) :
    cutKey (w ++ rest) = (w ++ (cutKey rest).1, (cutKey rest).2) := by
  cases h with
  | itself plain h => exact cutKey_ordinary h.1 h.2 plain.1 rest
  | escaped h => rfl
  | named h => rfl
  | code h₃ h₂ h₁ h₀ h => exact SpellsUnit.cutKey_append (.digits h₃ h₂ h₁ h₀ h) rest

/-- After a written character, the number of backslashes at the end is even if it was before. -/
theorem isContinued_append (h : SpellsChar allowed c w) {s : List Char}
    (hs : isContinued s = false) : isContinued (s ++ w) = false := by
  cases h with
  | itself plain _ => exact isContinued_concat_of_ne plain.1 s
  | escaped _ =>
    rw [List.append_cons]
    by_cases hc : c = '\\'
    · rw [hc, isContinued_concat_backslash, isContinued_concat_backslash, hs]
      rfl
    · exact isContinued_concat_of_ne hc _
  | @named name h =>
    have hname : name ≠ '\\' := by
      rintro rfl
      simp at h
    rw [List.append_cons]
    exact isContinued_concat_of_ne hname _
  | code h₃ h₂ h₁ h₀ h => exact SpellsUnit.isContinued_append (.digits h₃ h₂ h₁ h₀ h) s

theorem not_lineEnd_of_mem (h : SpellsChar allowed c w) : ∀ x ∈ w, x ≠ '\n' ∧ x ≠ '\r' := by
  cases h with
  | itself plain _ => simpa using plain.2
  | escaped h =>
    simp only [List.mem_cons, List.not_mem_nil, or_false, not_or] at h
    simp only [List.forall_mem_cons]
    exact ⟨backslash_not_lineEnd, h.2.2.2.2.2, nofun⟩
  | named h =>
    simp only [List.mem_cons, List.not_mem_nil, or_false, Prod.mk.injEq] at h
    rcases h with ⟨-, rfl⟩ | ⟨-, rfl⟩ | ⟨-, rfl⟩ | ⟨-, rfl⟩ <;> simp
  | code h₃ h₂ h₁ h₀ h => exact SpellsUnit.not_lineEnd_of_mem (.digits h₃ h₂ h₁ h₀ h)

theorem ne_nil_of_spellsChar (h : SpellsChar allowed c w) : w ≠ [] := by
  cases h <;> exact List.cons_ne_nil _ _

/-- A character that is no blank is written without a blank in front. -/
theorem head_of_spellsChar (h : SpellsChar allowed c w) (hallowed : allowed c → isBlank c = false)
    (rest : List Char) : ∀ x ∈ (w ++ rest).head?, isBlank x = false := by
  intro x hx
  cases h with
  | itself _ h =>
    cases hx
    exact hallowed h
  | escaped _ =>
    cases hx
    rfl
  | named _ =>
    cases hx
    rfl
  | code =>
    cases hx
    rfl

theorem SpellsChar.mono {allowed' : Char → Prop} (h : SpellsChar allowed c w)
    (hallowed : allowed c → allowed' c) : SpellsChar allowed' c w := by
  cases h with
  | itself plain h => exact .itself plain (hallowed h)
  | escaped h => exact .escaped h
  | named h => exact .named h
  | code h₃ h₂ h₁ h₀ h => exact .code h₃ h₂ h₁ h₀ h

end Characters

section Texts

variable {allowed : Char → Prop} {s t : List Char}

theorem unescape_spelled (h : Spells allowed s t) : unescape t = s := by
  induction h with
  | nil => rfl
  | cons hc _ ih => rw [unescape_append hc, ih]

theorem cutKey_spelled (h : Spells AllowedInKey s t) (rest : List Char) :
    cutKey (t ++ rest) = (t ++ (cutKey rest).1, (cutKey rest).2) := by
  induction h with
  | nil => rfl
  | cons hc _ ih => rw [List.append_assoc, cutKey_append hc, ih, List.append_assoc]

theorem not_lineEnd_of_mem_spelled (h : Spells allowed s t) :
    ∀ x ∈ t, x ≠ '\n' ∧ x ≠ '\r' := by
  induction h with
  | nil => nofun
  | cons hc _ ih =>
    intro x hx
    rcases List.mem_append.mp hx with hx | hx
    · exact not_lineEnd_of_mem hc x hx
    · exact ih x hx

theorem head_of_spells (h : Spells AllowedInKey s t) : ∀ x ∈ t.head?, isBlank x = false := by
  cases h with
  | nil => nofun
  | cons hc _ => exact head_of_spellsChar hc (fun h => h.2) _

theorem trimStart_gap_append (h : IsGap s) (t : List Char) : trimStart (s ++ t) = trimStart t :=
  List.dropWhile_append_of_pos fun c hc => (h c hc).1

/-- The key ends at a separator or at a blank. -/
theorem cutKey_gap_append {sep : Char} (h : IsGap s) (hsep : isSeparator sep = true)
    (rest : List Char) : cutKey (s ++ sep :: rest) = ([], s ++ sep :: rest) := by
  have hstop : ∀ (x : Char) (r : List Char), (isSeparator x || isBlank x) = true → x ≠ '\\' →
      cutKey (x :: r) = ([], x :: r) := by
    intro x r hx hne
    rw [cutKey.eq_3, if_pos hx]
    exact fun _ _ hx => absurd hx hne
  cases s with
  | nil =>
    refine hstop sep rest (by rw [hsep]; rfl) ?_
    rintro rfl
    cases hsep
  | cons x s =>
    have hblank : isBlank x = true := (h x List.mem_cons_self).1
    refine hstop x _ (by rw [hblank, Bool.or_true]) ?_
    rintro rfl
    cases hblank

theorem trimStart_separator {sep : Char} (h : isSeparator sep = true) (s : List Char) :
    trimStart (sep :: s) = sep :: s := by
  apply trimStart_of_head
  intro c hc
  cases hc
  simp only [isSeparator, Bool.or_eq_true, beq_iff_eq] at h
  rcases h with rfl | rfl <;> rfl

/-- An entry is its key and its value, each of them unescaped. -/
theorem entry_append {k a b v : List Char} {sep : Char}
    (hk : ∀ rest, cutKey (k ++ rest) = (k ++ (cutKey rest).1, (cutKey rest).2)) (ha : IsGap a)
    (hsep : isSeparator sep = true) (hb : IsGap b) (hstart : trimStart v = v) :
    entry (k ++ (a ++ sep :: (b ++ v))) =
      (String.ofList (unescape k), String.ofList (unescape v)) := by
  have hcut : cutKey (k ++ (a ++ sep :: (b ++ v))) = (k, a ++ sep :: (b ++ v)) := by
    rw [hk, cutKey_gap_append ha hsep, List.append_nil]
  have hvalue : valueText (a ++ sep :: (b ++ v)) = v := by
    rw [valueText, trimStart_gap_append ha, trimStart_separator hsep]
    dsimp only
    rw [if_pos hsep, trimStart_gap_append hb, hstart]
  unfold entry
  rw [hcut]
  dsimp only
  rw [hvalue]

end Texts

end ScreenActions.Properties

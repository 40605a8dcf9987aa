import ScreenActions.Proofs.Numerals
import ScreenActions.Proofs.PlainPath

/-!
Paths as they are spelled. A key stands in a path as it is, after a point, or between brackets and
quotes, and whatever is chosen for each of them, the segments are read back.
-/

namespace ScreenActions

open Text Number

namespace FieldPath

theorem readBracket_append {inner : List Char} (h : ']' ∉ inner) (key gathered rest : List Char) :
    readBracket key gathered (inner ++ ']' :: rest) =
      flush key ++ bracketed (gathered.reverse ++ inner) :: readKey [] rest := by
  induction inner generalizing gathered with
  | nil => simp [readBracket]
  | cons c inner ih =>
    obtain ⟨hc, hinner⟩ := List.ne_and_not_mem_of_not_mem_cons h
    rw [List.cons_append, readBracket, if_neg (Ne.symm hc), ih hinner, List.reverse_cons,
      List.append_assoc]
    rfl

/-- What stands between brackets is a segment of its own. -/
theorem readKey_bracket {inner : List Char} (h : ']' ∉ inner) (key rest : List Char) :
    readKey key ('[' :: inner ++ ']' :: rest) =
      flush key ++ bracketed inner :: readKey [] rest := by
  rw [List.cons_append, readKey, if_neg (by decide), if_pos rfl, readBracket_append h]
  rfl

theorem unquote_quoted {name : List Char} (hhead : name.head?.any isQuote = false)
    (hlast : name.getLast?.any isQuote = false) : unquote ('"' :: name ++ ['"']) = name := by
  have hdrop : ∀ s : List Char, s.head?.any isQuote = false → s.dropWhile isQuote = s := by
    intro s hs
    cases s with
    | nil => rfl
    | cons c s => exact List.dropWhile_cons_of_neg (Bool.eq_false_iff.mp hs)
  by_cases hname : name = []
  · subst hname
    rfl
  · have hfront : ('"' :: name ++ ['"']).dropWhile isQuote = name ++ ['"'] := by
      rw [List.cons_append, List.dropWhile_cons_of_pos rfl]
      apply hdrop
      rwa [List.head?_append, Option.or_of_isSome (by simpa using hname)]
    have hback : ('"' :: name.reverse).dropWhile isQuote = name.reverse := by
      rw [List.dropWhile_cons_of_pos rfl]
      apply hdrop
      rwa [List.head?_reverse]
    rw [unquote, hfront, List.reverse_append]
    exact (congrArg List.reverse hback).trans (List.reverse_reverse name)

theorem bracketed_quoted {name : List Char} (hhead : name.head?.any isQuote = false)
    (hlast : name.getLast?.any isQuote = false) :
    bracketed ('"' :: name ++ ['"']) = .key (String.ofList name) := by
  have htrim : trim ('"' :: name ++ ['"']) = '"' :: name ++ ['"'] :=
    trim_eq_self (fun c hc => Option.some.inj hc ▸ by decide) fun c hc => by
      rw [List.getLast?_concat] at hc
      exact Option.some.inj hc ▸ by decide
  have hnumber : unsigned? wordMax ('"' :: name ++ ['"']) = none := by
    simp [unsigned?, natural?, show isDigit '"' = false from by decide]
  unfold bracketed
  simp only [htrim, hnumber, unquote_quoted hhead hlast]
  rfl

theorem bracketed_naturalText {i : Nat} (h : i ≤ wordMax) :
    bracketed (naturalText i) = .index i := by
  have hblank : ∀ c ∈ naturalText i, isBlank c = false := fun c hc =>
    not_isBlank_of_isDigit (isDigit_of_mem_naturalText hc)
  have htrim : trim (naturalText i) = naturalText i :=
    trim_eq_self (fun c hc => hblank c (List.mem_of_head? hc))
      fun c hc => hblank c (List.mem_of_getLast? hc)
  have hne : naturalText i ≠ [] := Nat.toDigits_ne_nil
  unfold bracketed
  simp [htrim, unsigned?_naturalText h, hne]

/-- Every bracket that is opened in the text is closed after it. -/
def BracketsClosed (s : List Char) : Prop := ∀ front back, s = front ++ '[' :: back → ']' ∈ back

theorem BracketsClosed.of_append (front : List Char) {back : List Char}
    (h : BracketsClosed (front ++ back)) : BracketsClosed back := fun a b heq =>
  h (front ++ a) b (by rw [heq, List.append_assoc])

/-- A pair of brackets after a text that closes its own is a segment of its own. -/
theorem readKey_append_brackets {s : List Char} (h : BracketsClosed s) (key : List Char) :
    readKey key (s ++ ['[', ']']) = readKey key s ++ [.append] := by
  induction hlength : s.length using Nat.strongRecOn generalizing s key with
  | ind n ih =>
    cases s with
    | nil => exact readKey_bracket List.not_mem_nil key []
    | cons c s =>
      have hs : BracketsClosed s := h.of_append [c]
      have hshorter : s.length < n := hlength ▸ Nat.lt_succ_self _
      rw [List.cons_append, readKey, readKey]
      split
      · rw [ih _ hshorter hs [] rfl, List.append_assoc]
      · split
        · next hopen =>
          obtain ⟨inner, rest, rfl, hinner⟩ := List.eq_append_cons_of_mem (h [] s (hopen ▸ rfl))
          have hrest : BracketsClosed rest := (hs.of_append inner).of_append [']']
          have hfewer : rest.length < n := by
            simp at hshorter
            omega
          rw [List.append_assoc, List.cons_append, readBracket_append hinner,
            readBracket_append hinner, ih _ hfewer hrest [] rfl, List.append_assoc]
          rfl
        · exact ih _ hshorter hs (c :: key) rfl

end FieldPath

/-- A segment and the way it is spelled. -/
inductive SpelledSegment
  | plain (name : String)
  | quoted (name : String)
  | index (i : Nat)
  | append
  deriving DecidableEq, Repr

namespace SpelledSegment

open FieldPath

def segment : SpelledSegment → PathSegment
  | .plain name => .key name
  | .quoted name => .key name
  | .index i => .index i
  | .append => .append

/-- The segment at the front of a path. -/
def chars : SpelledSegment → List Char
  | .plain name => name.toList
  | .quoted name => '[' :: '"' :: name.toList ++ ['"', ']']
  | .index i => '[' :: naturalText i ++ [']']
  | .append => ['[', ']']

/-- The segment after another one. -/
def following : SpelledSegment → List Char
  | .plain name => '.' :: name.toList
  | w => w.chars

def print : List SpelledSegment → List Char
  | [] => []
  | w :: ws => w.chars ++ ws.flatMap following

/-- The segment can be spelled like this. -/
def Sound : SpelledSegment → Prop
  | .plain name => name ≠ "" ∧ Unbroken name.toList
  | .quoted name => ']' ∉ name.toList ∧ name.toList.head?.any isQuote = false ∧
      name.toList.getLast?.any isQuote = false
  | .index i => i ≤ wordMax
  | .append => True

instance : (w : SpelledSegment) → Decidable w.Sound
  | .plain _ => inferInstanceAs (Decidable (_ ∧ _))
  | .quoted _ => inferInstanceAs (Decidable (_ ∧ _ ∧ _))
  | .index _ => inferInstanceAs (Decidable (_ ≤ _))
  | .append => inferInstanceAs (Decidable True)

/-- Each segment can be spelled as it is, and the path has no blank at its ends. -/
structure Readable (ws : List SpelledSegment) : Prop where
  sound : ∀ w ∈ ws, w.Sound
  opens : ∀ w ∈ ws.head?, w.chars.head?.any isBlank = false
  closes : ∀ w ∈ ws.getLast?, w.chars.getLast?.any isBlank = false

variable {w : SpelledSegment} {ws : List SpelledSegment}

theorem chars_ne_nil (h : w.Sound) : w.chars ≠ [] := by
  cases w with
  | plain name => exact fun hnil => h.1 (String.toList_eq_nil_iff.mp hnil)
  | quoted name => exact List.cons_ne_nil _ _
  | index i => exact List.cons_ne_nil _ _
  | append => exact List.cons_ne_nil _ _

/-- A segment is a key as it is or stands between brackets. -/
theorem plain_or_bracket (h : w.Sound) : (∃ name, w = .plain name) ∨
    ∃ inner, w.chars = '[' :: inner ++ [']'] ∧ w.following = w.chars ∧ ']' ∉ inner ∧
      bracketed inner = w.segment := by
  cases w with
  | plain name => exact .inl ⟨name, rfl⟩
  | quoted name =>
    obtain ⟨hclose, hhead, hlast⟩ := h
    refine .inr ⟨'"' :: name.toList ++ ['"'], by simp [chars], rfl, by simpa using hclose, ?_⟩
    rw [bracketed_quoted hhead hlast, String.ofList_toList]
    rfl
  | index i =>
    refine .inr ⟨naturalText i, rfl, rfl, fun hmem => ?_, bracketed_naturalText h⟩
    exact absurd (isDigit_of_mem_naturalText hmem) (by decide)
  | append => exact .inr ⟨[], rfl, rfl, List.not_mem_nil, rfl⟩

/-- After a point, or at the front, a plain key is read up to what ends it. -/
theorem readKey_plain_append {name : String} (h : (plain name).Sound) (rest : List Char)
    {segs : List PathSegment} (hrest : ∀ key, readKey key rest = flush key ++ segs) :
    readKey [] (name.toList ++ rest) = .key name :: segs := by
  have hne : name.toList ≠ [] := chars_ne_nil h
  rw [readKey_append h.2, hrest, List.append_nil]
  simp [flush, hne]

theorem readKey_following (h : ∀ w ∈ ws, w.Sound) (key : List Char) :
    readKey key (ws.flatMap following) = flush key ++ ws.map segment := by
  induction ws generalizing key with
  | nil => simp [readKey]
  | cons w ws ih =>
    obtain ⟨hw, hws⟩ := List.forall_mem_cons.mp h
    rw [List.flatMap_cons, List.map_cons]
    rcases plain_or_bracket hw with ⟨name, rfl⟩ | ⟨inner, hchars, hfollowing, hinner, hsegment⟩
    · rw [following, List.cons_append, readKey, if_pos rfl, readKey_plain_append hw _ (ih hws)]
      rfl
    · rw [hfollowing, hchars, List.append_assoc, List.singleton_append, readKey_bracket hinner,
        hsegment, ih hws]
      rfl

theorem readKey_print (h : ∀ w ∈ ws, w.Sound) : readKey [] (print ws) = ws.map segment := by
  cases ws with
  | nil => rfl
  | cons w ws =>
    obtain ⟨hw, hws⟩ := List.forall_mem_cons.mp h
    rw [print, List.map_cons]
    rcases plain_or_bracket hw with ⟨name, rfl⟩ | ⟨inner, hchars, -, hinner, hsegment⟩
    · exact readKey_plain_append hw _ (readKey_following hws)
    · rw [hchars, List.append_assoc, List.singleton_append, readKey_bracket hinner, hsegment,
        readKey_following hws]
      rfl

theorem exists_print_concat (ws : List SpelledSegment) (w : SpelledSegment) :
    ∃ s, print (ws ++ [w]) = s ++ w.chars := by
  have hfollowing : ∃ s, w.following = s ++ w.chars := by
    cases w with
    | plain name => exact ⟨['.'], rfl⟩
    | quoted name => exact ⟨[], rfl⟩
    | index i => exact ⟨[], rfl⟩
    | append => exact ⟨[], rfl⟩
  cases ws with
  | nil => exact ⟨[], by simp [print]⟩
  | cons w' ws =>
    obtain ⟨s, hs⟩ := hfollowing
    exact ⟨w'.chars ++ ws.flatMap following ++ s, by simp [print, hs]⟩

theorem Readable.trim_print (h : Readable ws) : trim (print ws) = print ws := by
  apply trim_eq_self
  · intro c hc
    cases ws with
    | nil => cases hc
    | cons w ws =>
      have hne := chars_ne_nil (h.sound w List.mem_cons_self)
      rw [print, List.head?_append, Option.or_of_isSome (by simpa using hne)] at hc
      have hopens := h.opens w rfl
      rwa [Option.mem_def.mp hc] at hopens
  · intro c hc
    rcases List.eq_nil_or_concat ws with rfl | ⟨init, w, rfl⟩
    · cases hc
    · rw [List.concat_eq_append] at h hc
      obtain ⟨s, hs⟩ := exists_print_concat init w
      have hne := chars_ne_nil (h.sound w (by simp))
      rw [hs, List.getLast?_append, Option.or_of_isSome (by simpa using hne)] at hc
      have hcloses := h.closes w (by simp)
      rwa [Option.mem_def.mp hc] at hcloses

/-- A path is the text that is printed for its segments, and these segments. -/
theorem Readable.ofText_print (h : Readable ws) :
    ofText (String.ofList (print ws)) = ⟨String.ofList (print ws), ws.map segment⟩ := by
  simp only [ofText, String.toList_ofList, h.trim_print, readKey_print h.sound]

theorem ofText_print_all_spellings :
    let ws : List SpelledSegment :=
      [.quoted "a.b", .plain "c] d", .quoted "", .index 10, .append, .plain "e", .quoted "7"]
    Readable ws ∧ String.ofList (print ws) = "[\"a.b\"].c] d[\"\"][10][].e[\"7\"]" ∧
      (ofText "[\"a.b\"].c] d[\"\"][10][].e[\"7\"]").segments =
        [.key "a.b", .key "c] d", .key "", .index 10, .append, .key "e", .key "7"] := by
  intro ws
  have hreadable : Readable ws := ⟨by decide, by decide, by decide⟩
  have hprint : String.ofList (print ws) = "[\"a.b\"].c] d[\"\"][10][].e[\"7\"]" := by decide
  refine ⟨hreadable, hprint, ?_⟩
  rw [← hprint, hreadable.ofText_print]
  rfl

end SpelledSegment
end ScreenActions

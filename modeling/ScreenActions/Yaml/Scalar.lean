import ScreenActions.Number.Numeral
import ScreenActions.Yaml.Cursor

/-! Scalars of YAML texts: quoted, plain and block. -/

namespace ScreenActions.Yaml

/-- Blanks and line breaks between two words of a scalar. -/
structure Gap where
  /-- Blanks before the first break, from last to first. -/
  blanks : List Char := []
  broken : Bool := false
  first : List Char := []
  /-- Breaks after the first one, from last to first. -/
  others : List Char := []
  /-- Count of the blanks after the last break. -/
  column : Nat := 0

namespace Gap

def addBreak (g : Gap) (c : Char) : Gap :=
  if g.broken then { g with others := c :: g.others, column := 0 }
  else { g with broken := true, first := [c], column := 0 }

/-- What a gap adds to a scalar: a single line feed becomes a space, and the first of several is
dropped. -/
def text (g : Gap) : List Char :=
  if !g.broken then g.blanks.reverse
  else if g.first = ['\n'] then if g.others.isEmpty then [' '] else g.others.reverse
  else g.first ++ g.others.reverse

/-- Blanks and breaks up to the next word. A tab that stands before column `limit` of a line is
refused. -/
def read (limit : Nat) (g : Gap) : List Char → Option (Gap × List Char)
  | [] => some (g, [])
  | '\r' :: '\n' :: s => read limit (g.addBreak '\n') s
  | c :: s =>
      if isBreak c then read limit (g.addBreak (breakChar c)) s
      else if isBlank c then
        if !g.broken then read limit { g with blanks := c :: g.blanks } s
        else if c = '\t' && g.column < limit then none
        else read limit { g with column := g.column + 1 } s
      else some (g, c :: s)

theorem length_of_read {limit : Nat} {g g' : Gap} {s rest : List Char}
    (h : read limit g s = some (g', rest)) : rest.length ≤ s.length := by
  fun_induction read limit g s with
  | case1 => obtain ⟨_, rfl⟩ := Prod.mk.inj (Option.some.inj h); exact Nat.le_refl _
  | case2 _ _ ih => exact Nat.le_trans (ih h) (by simp only [List.length_cons]; omega)
  | case3 _ _ _ _ _ ih => exact Nat.le_succ_of_le (ih h)
  | case4 _ _ _ _ _ _ _ ih => exact Nat.le_succ_of_le (ih h)
  | case5 => simp at h
  | case6 _ _ _ _ _ _ _ _ ih => exact Nat.le_succ_of_le (ih h)
  | case7 => obtain ⟨_, rfl⟩ := Prod.mk.inj (Option.some.inj h); exact Nat.le_refl _

theorem length_of_read_cons {limit : Nat} {g g' : Gap} {c : Char} {s rest : List Char}
    (hc : isGap c = true) (h : read limit g (c :: s) = some (g', rest)) :
    rest.length ≤ s.length := by
  rw [read.eq_def] at h
  split at h
  · contradiction
  · next heq =>
      obtain ⟨_, rfl⟩ := List.cons.inj heq
      exact Nat.le_succ_of_le (length_of_read h)
  · next heq =>
      obtain ⟨rfl, rfl⟩ := List.cons.inj heq
      split at h
      · exact length_of_read h
      · next hb =>
          have hblank : isBlank c = true := by simpa [isGap, hb] using hc
          simp only [hblank, if_true] at h
          split at h
          · exact length_of_read h
          · split at h
            · contradiction
            · exact length_of_read h

/-- Whether a line that separates documents follows. -/
def endsDocument (g : Gap) (rest : List Char) : Bool :=
  g.broken && g.column == 0 && startsDocumentMark rest

end Gap

/-- The character that an escape after a backslash stands for, and the length of the escape. -/
def readEscape : List Char → Option (Char × Nat)
  | '0' :: _ => some ('\x00', 1)
  | 'a' :: _ => some ('\x07', 1)
  | 'b' :: _ => some ('\x08', 1)
  | 't' :: _ => some ('\t', 1)
  | '\t' :: _ => some ('\t', 1)
  | 'n' :: _ => some ('\n', 1)
  | 'v' :: _ => some ('\x0b', 1)
  | 'f' :: _ => some ('\x0c', 1)
  | 'r' :: _ => some ('\r', 1)
  | 'e' :: _ => some ('\x1b', 1)
  | ' ' :: _ => some (' ', 1)
  | '"' :: _ => some ('"', 1)
  | '/' :: _ => some ('/', 1)
  | '\\' :: _ => some ('\\', 1)
  | 'N' :: _ => some ('\u0085', 1)
  | '_' :: _ => some ('\u00a0', 1)
  | 'L' :: _ => some ('\u2028', 1)
  | 'P' :: _ => some ('\u2029', 1)
  | 'x' :: s => code 2 s
  | 'u' :: s => code 4 s
  | 'U' :: s => code 8 s
  | _ => none
where
  /-- The character with a number of `count` hexadecimal digits. -/
  code (count : Nat) (s : List Char) : Option (Char × Nat) :=
    let digits := s.take count
    if digits.length = count && digits.all (Number.hexValue? · |>.isSome) then
      (Number.radix? 16 digits).bind fun n =>
        if n < 0xD800 || (0xDFFF < n && n < 0x110000) then some (Char.ofNat n, count + 1) else none
    else none

/-- The text of a quoted scalar, from its opening quote on, and what follows its closing quote;
`out` is the text so far, from last to first. Between single quotes only a doubled quote is an
escape. -/
def readQuoted (single : Bool) (out : List Char) (s : List Char) :
    Option (List Char × List Char) :=
  match s with
  | [] => none
  | c :: r =>
      if hc : isGap c then
        match h : Gap.read 0 {} (c :: r) with
        | none => none
        | some (gap, rest) =>
            have := Gap.length_of_read_cons hc h
            if gap.endsDocument rest then none
            else readQuoted single (gap.text.reverse ++ out) rest
      else if c = '\'' && single then
        match r with
        | '\'' :: r => readQuoted single ('\'' :: out) r
        | _ => some (out.reverse, r)
      else if c = '"' && !single then some (out.reverse, r)
      else if c = '\\' && !single then
        if isBreak (r.headD ' ') then
          let line := if r.take 2 = ['\r', '\n'] then r.drop 2 else r.drop 1
          match h : Gap.read 0 { broken := true } line with
          | none => none
          | some (gap, rest) =>
              have := Gap.length_of_read h
              have : line.length ≤ r.length := by simp only [line]; split <;> simp
              if gap.endsDocument rest then none
              else readQuoted single (gap.text.reverse ++ out) rest
        else
          match readEscape r with
          | none => none
          | some (x, n) => readQuoted single (x :: out) (r.drop n)
      else readQuoted single (c :: out) r
termination_by s.length
decreasing_by all_goals simp_wf <;> omega

/-- Characters that have a meaning inside brackets and braces. -/
def isFlowIndicator (c : Char) : Bool :=
  c == ',' || c == '[' || c == ']' || c == '\x7b' || c == '\x7d'

/-- The text of a plain scalar. -/
structure PlainScalar where
  text : List Char
  /-- Whether it ends before a new line. -/
  broken : Bool
  rest : List Char

/-- A plain scalar inside (`flow`) or outside brackets, whose lines begin at column `indent` or to
the right of it; `out` is the text so far, from last to first, and `gap` what follows it. -/
def readPlain (flow : Bool) (indent : Nat) (out : List Char) (gap : Gap) (s : List Char) :
    Option PlainScalar :=
  match s with
  | [] => some ⟨out.reverse, gap.broken, []⟩
  | c :: r =>
      if hc : isGap c then
        match h : Gap.read indent {} (c :: r) with
        | none => none
        | some (gap, rest) =>
            have := Gap.length_of_read_cons hc h
            if (gap.broken && !flow && gap.column < indent) || gap.endsDocument rest ||
                rest.head? == some '#' then
              some ⟨out.reverse, gap.broken, rest⟩
            else readPlain flow indent out gap rest
      else if flow && c == ':' && (r.head?.any fun x => x == '?' || isFlowIndicator x) then none
      else if (c == ':' && startsGap r) || (flow && isFlowIndicator c) then
        some ⟨out.reverse, gap.broken, c :: r⟩
      else readPlain flow indent (c :: (gap.text.reverse ++ out)) {} r
termination_by s.length
decreasing_by all_goals simp_wf <;> omega

/-- Empty lines of a block scalar up to its next line of text. -/
structure BlockGap where
  /-- Breaks, from last to first. -/
  breaks : List Char := []
  column : Nat := 0
  /-- The rightmost column reached. -/
  widest : Nat := 0

/-- Empty lines and the indentation that follows them; an `indent` of zero is not known yet. A tab
inside the indentation is refused. -/
def BlockGap.read (indent : Nat) (g : BlockGap) : List Char → Option (BlockGap × List Char)
  | [] => some ({ g with widest := max g.widest g.column }, [])
  | '\r' :: '\n' :: s =>
      read indent ⟨'\n' :: g.breaks, 0, max g.widest g.column⟩ s
  | c :: s =>
      let inside := indent = 0 || g.column < indent
      if c = ' ' && inside then read indent { g with column := g.column + 1 } s
      else if c = '\t' && inside then none
      else if isBreak c then read indent ⟨breakChar c :: g.breaks, 0, max g.widest g.column⟩ s
      else some ({ g with widest := max g.widest g.column }, c :: s)

theorem BlockGap.length_of_read {indent : Nat} {g g' : BlockGap} {s rest : List Char}
    (h : read indent g s = some (g', rest)) : rest.length ≤ s.length := by
  fun_induction read indent g s with
  | case1 => obtain ⟨_, rfl⟩ := Prod.mk.inj (Option.some.inj h); exact Nat.le_refl _
  | case2 _ _ ih => exact Nat.le_trans (ih h) (by simp only [List.length_cons]; omega)
  | case3 _ _ _ _ _ _ ih => exact Nat.le_succ_of_le (ih h)
  | case4 => simp at h
  | case5 _ _ _ _ _ _ _ _ ih => exact Nat.le_succ_of_le (ih h)
  | case6 => obtain ⟨_, rfl⟩ := Prod.mk.inj (Option.some.inj h); exact Nat.le_refl _

/-- What becomes of the line breaks at the end of a block scalar. -/
inductive Chomping
  | strip | clip | keep

/-- The form of a block scalar: lines kept or folded into paragraphs. -/
structure BlockStyle where
  literal : Bool
  chomping : Chomping := .clip
  indent : Option Nat := none

/-- A line break as it stands for itself, and what follows it. -/
def takeBreak : List Char → List Char × List Char
  | '\r' :: '\n' :: s => (['\n'], s)
  | c :: s => if isBreak c then ([breakChar c], s) else ([], c :: s)
  | [] => ([], [])

theorem length_takeBreak (s : List Char) : (takeBreak s).2.length ≤ s.length := by
  unfold takeBreak
  split
  · simp only [List.length_cons]; omega
  · split <;> simp
  · simp

/-- The lines of a block scalar from the one at hand on: `last` is the break before it, `gap` the
empty lines in between, and `blank` tells whether the line before began with a blank. -/
def readBlockLines (style : BlockStyle) (indent : Nat) (out last : List Char) (gap : BlockGap)
    (blank : Bool) (s : List Char) : Option (List Char × List Char) :=
  match s with
  | [] => some (finish out last gap, [])
  | c :: r =>
      if gap.column ≠ indent then some (finish out last gap, c :: r)
      else
        let here := isBlank c
        let join :=
          if !style.literal && last == ['\n'] && !blank && !here then
            if gap.breaks.isEmpty then [' '] else gap.breaks.reverse
          else last ++ gap.breaks.reverse
        let line := c :: r.takeWhile (!isBreak ·)
        let after := takeBreak (r.dropWhile (!isBreak ·))
        match h : BlockGap.read indent {} after.2 with
        | none => none
        | some (gap, rest) =>
            have := BlockGap.length_of_read h
            have := length_takeBreak (r.dropWhile (!isBreak ·))
            have := (List.dropWhile_sublist (l := r) (!isBreak ·)).length_le
            readBlockLines style indent (line.reverse ++ (join.reverse ++ out)) after.1 gap here rest
termination_by s.length
decreasing_by simp_wf; simp only [after] at *; omega
where
  /-- The text with the breaks at its end that the style keeps. -/
  finish (out last : List Char) (gap : BlockGap) : List Char :=
    out.reverse ++ (match style.chomping with
      | .strip => []
      | .clip => last
      | .keep => last ++ gap.breaks.reverse)

/-- The indicators that follow the sign of a block scalar, in either order. -/
def readBlockStyle (literal : Bool) (s : List Char) : Option (BlockStyle × List Char) :=
  let chomping? : Char → Option Chomping := fun c =>
    if c = '+' then some .keep else if c = '-' then some .strip else none
  let digit? : Char → Option Nat := fun c =>
    if Number.isDigit c then some (Number.digitValue c) else none
  match s with
  | [] => some ({ literal := literal }, [])
  | c :: r =>
      match chomping? c, digit? c with
      | some k, _ =>
          match r.head?.bind digit? with
          | some 0 => none
          | some n => some (⟨literal, k, some n⟩, r.drop 1)
          | none => some (⟨literal, k, none⟩, r)
      | none, some 0 => none
      | none, some n =>
          match r.head?.bind chomping? with
          | some k => some (⟨literal, k, some n⟩, r.drop 1)
          | none => some (⟨literal, .clip, some n⟩, r)
      | none, none => some ({ literal := literal }, c :: r)

/-- A blank rest of a line, with an optional comment, and the break at its end. -/
def readLineEnd (s : List Char) : Option (List Char) :=
  let s := s.dropWhile isBlank
  let s := if s.head? = some '#' then s.dropWhile (!isBreak ·) else s
  match s with
  | [] => some []
  | c :: _ => if isBreak c then some (takeBreak s).2 else none

/-- A block scalar after its sign, in a block whose lines begin at column `base` or to the right
of it. -/
def readBlock (literal : Bool) (base : Nat) (s : List Char) : Option (List Char × List Char) := do
  let (style, s) ← readBlockStyle literal s
  let s ← readLineEnd s
  let known := match style.indent with
    | some n => base - 1 + n
    | none => 0
  let (gap, s) ← BlockGap.read known {} s
  let indent := if known = 0 then max gap.widest (max base 1) else known
  readBlockLines style indent [] [] gap false s

end ScreenActions.Yaml

import ScreenActions.Proofs.MarkupText
import ScreenActions.Proofs.ViewCourses

/-!
The page that reports a failed transform. It shows the failure as it is, whatever the request or the
page before it has left in a context, and no message can break its markup.
-/

namespace ScreenActions

namespace Text

/-- What follows the first occurrence of a part. -/
def after? (part : List Char) : List Char → Option (List Char)
  | [] => stripLead? part []
  | c :: s => (stripLead? part (c :: s)).or (after? part s)

theorem length_le_of_after? {part s rest : List Char} (h : after? part s = some rest) :
    part.length ≤ s.length := by
  induction s with
  | nil => simp [stripLead?_eq_some_iff.mp h]
  | cons c s ih =>
    rcases Option.or_eq_some_iff.mp h with hlead | ⟨-, hlater⟩
    · simp [stripLead?_eq_some_iff.mp hlead]
    · exact Nat.le_succ_of_le (ih hlater)

/-- The first occurrence of a part is the same in a longer text. -/
theorem after?_append {part s rest : List Char} (h : after? part s = some rest) (t : List Char) :
    after? part (s ++ t) = some (rest ++ t) := by
  induction s with
  | nil =>
    obtain ⟨rfl, rfl⟩ := List.append_eq_nil_iff.mp (stripLead?_eq_some_iff.mp h).symm
    cases t <;> rfl
  | cons c s ih =>
    rcases Option.or_eq_some_iff.mp h with hlead | ⟨hnone, hlater⟩
    · have hlonger : stripLead? part (c :: s ++ t) = some (rest ++ t) := by
        rw [stripLead?_eq_some_iff, stripLead?_eq_some_iff.mp hlead, List.append_assoc]
      rw [List.cons_append] at hlonger
      rw [List.cons_append, after?, hlonger, Option.some_or]
    · have hlonger : stripLead? part (c :: (s ++ t)) = none := by
        -- the part would be found where it is not, as it is no longer than what is left of `s`
        refine Option.eq_none_iff_forall_ne_some.mpr fun r hr => ?_
        have hpart : part <+: c :: (s ++ t) := ⟨r, (stripLead?_eq_some_iff.mp hr).symm⟩
        obtain ⟨r', hr'⟩ := List.prefix_of_prefix_length_le hpart (List.prefix_append (c :: s) t)
          (Nat.le_succ_of_le (length_le_of_after? hlater))
        rw [stripLead?_eq_some_iff.mpr hr'.symm] at hnone
        cases hnone
      rw [List.cons_append, after?, hlonger, Option.none_or, ih hlater]

/-- The characters of a literal are read off it here, which is faster than to decode it. -/
theorem toList_of_eq_ofList {s : String} {l : List Char} (h : s = String.ofList l) :
    s.toList = l := by
  rw [h, String.toList_ofList]

end Text

namespace ErrorPage

open Text

def messageTag : List Char := "<fo:block linefeed-treatment=\"preserve\">".toList

def blockEnd : List Char := "</fo:block>".toList

/-- What stands between the tags of the message's block in a page. -/
def messageText? (fo : String) : Option (List Char) :=
  (after? messageTag fo.toList).bind fun s =>
    if startsWith blockEnd (s.dropWhile (· != '<')) then some (s.takeWhile (· != '<')) else none

theorem after?_opening : after? messageTag (opening title).toList = some [] := by
  rw [opening, join, String.toList_intercalate]
  simp only [List.map_cons, List.map_nil, String.toList_append]
  repeat rw [toList_of_eq_ofList rfl]
  decide +kernel

/-- The text of the block is the escaped message, whatever the message is. -/
theorem messageText?_document (m : String) :
    messageText? (document title m) = some (Markup.escape m.toList) := by
  have hclosing : startsWith blockEnd (closing.toList.dropWhile (· != '<')) = true ∧
    closing.toList.takeWhile (· != '<') = [] := by decide +kernel
  have hmessage : ∀ c ∈ Markup.escape m.toList, (c != '<') = true := fun c hc =>
    bne_iff_ne.mpr (ne_of_mem_of_not_mem hc (Markup.not_mem_escape rfl (by decide)))
  have hdocument : (document title m).toList =
      (opening title).toList ++ (Markup.escape m.toList ++ closing.toList) := by
    simp [document, Markup.escapeText]
  rw [messageText?, hdocument, after?_append after?_opening]
  simp [List.takeWhile_append_of_pos hmessage, List.dropWhile_append_of_pos hmessage, hclosing]

theorem text_of_message {heap : BundleHeap} {c : Context} {m : String}
    (h : c.get? messageKey = some (.text m)) : text heap c = document title m := by
  rw [text, message, h]
  rfl

end ErrorPage

/-- The renderer has no screen at a location, whatever it writes before it says so, and it does not
bind the message of a page anew there. -/
def ScreenRenderer.Lacks {ω : Type} (r : ScreenRenderer ω) (location : String) : Prop :=
  ∀ s, ∃ written missing t, r location s = ((written, .error (.screenNotFound missing)), t) ∧
    t.context.get? ErrorPage.messageKey = s.context.get? ErrorPage.messageKey

variable {ω : Type}

theorem ScreenRenderer.Lacks.withErrorPage_eq {r : ScreenRenderer ω} {location : String}
    (hr : r.Lacks location) {s : PageState ω} {m : String}
    (hm : s.context.get? ErrorPage.messageKey = some (.text m)) :
    (r.withErrorPage location location s).1 =
      (ErrorPage.document ErrorPage.title m, .ok ()) := by
  obtain ⟨written, missing, t, heq, hkept⟩ := hr s
  rw [withErrorPage, if_pos rfl, heq]
  change (ErrorPage.text t.heap t.context, Except.ok ()) = _
  rw [ErrorPage.text_of_message (hkept.trans hm)]

namespace ViewHandler

/-- A handler whose error template is the error page reports every failure on it. -/
theorem report_eq_of_lacks {h : ViewHandler ω} {r : ScreenRenderer ω}
    (hrenderer : h.renderer = r.withErrorPage h.errorTemplate) (hr : r.Lacks h.errorTemplate)
    {format : OutputFormat} {m : String} {report : List ViewEvent} {pages : Option (List UInt8)}
    (hc : ReportCourse h.errorTemplate format (.failed m) report pages)
    (hanswers : ∀ e ∈ report, e.AnsweredBy h) :
    ∃ context answer, report = [
      .rendered h.errorTemplate context (ErrorPage.document ErrorPage.title m, .ok ()),
      .transformed (ErrorPage.document ErrorPage.title m) format answer] := by
  have hpage : ∀ {context answer}, ViewEvent.rendered h.errorTemplate context answer ∈ report →
      context.get? ErrorPage.messageKey = some (.text m) →
        answer = (ErrorPage.document ErrorPage.title m, .ok ()) := by
    intro context answer hmem hm
    obtain ⟨heap, w, rfl⟩ := hanswers _ hmem
    rw [hrenderer]
    exact hr.withErrorPage_eq hm
  cases hc with
  | unrendered hm => cases hpage List.mem_cons_self hm
  | untransformed hm =>
    cases hpage List.mem_cons_self hm
    exact ⟨_, _, rfl⟩
  | transformed hm =>
    cases hpage List.mem_cons_self hm
    exact ⟨_, _, rfl⟩

/-- A first transform that fails is followed by one of the error page with the failure on it. The
text of its message block has no tags, no ampersand but of a reference, and reads as the failure. -/
theorem transforms_errorPage_of_failed {h : ViewHandler ω} {r : ScreenRenderer ω}
    (hrenderer : h.renderer = r.withErrorPage h.errorTemplate) (hr : r.Lacks h.errorTemplate)
    (p : RequestPopulator ω) (request : RenderRequest) (heap : BundleHeap) (w : ω) {fo : String}
    {format : OutputFormat} {written : List UInt8} {m : String}
    (hfirst : (h.events p request heap w).find? ViewEvent.isTransform =
      some (.transformed fo format (written, .error (.failed m)))) :
    (∃ answer, (h.events p request heap w).filter ViewEvent.isTransform = [
        .transformed fo format (written, .error (.failed m)),
        .transformed (ErrorPage.document ErrorPage.title m) format answer]) ∧
      ∃ block, ErrorPage.messageText? (ErrorPage.document ErrorPage.title m) = some block ∧
        '<' ∉ block ∧ '>' ∉ block ∧
        (∀ before rest, block = before ++ '&' :: rest →
          (Text.Markup.readReference rest).isSome = true) ∧
        Text.Markup.unescape block = some m.toList := by
  obtain ⟨hcourse, hanswers⟩ := viewCourse_events h p request heap w
  constructor
  · obtain ⟨context, page, report, pages, heq, hreport, -⟩ := hcourse.of_find_eq_failed hfirst
    have hmem : ∀ e ∈ report, e.AnsweredBy h := fun e he => hanswers e (by simp [heq, he])
    obtain ⟨context', answer, rfl⟩ := report_eq_of_lacks hrenderer hr hreport hmem
    exact ⟨answer, by rw [heq]; rfl⟩
  · exact ⟨_, ErrorPage.messageText?_document m,
      Text.Markup.not_mem_escape rfl (by decide), Text.Markup.not_mem_escape rfl (by decide),
      fun _ _ => Text.Markup.readReference_of_escape_eq, Text.Markup.unescape_escape _⟩

/-- The message looks like markup, the request has bound another one, and so has the first page. -/
theorem transforms_errorPage_of_failed_markup :
    let m := "</fo:block> & &#60; \"'"
    let r : ScreenRenderer Unit := fun location s =>
      if location = "error" then (("<fo:part", .error (.screenNotFound location)), s)
      else (("page", .ok ()), { s with context := s.context.insert "errorMessage" (.int 1) })
    let engine : FormattingEngine Unit := {
      transform := fun fo _ w =>
        (if fo = "page" then ([1], .error (.failed m)) else ([2], .ok ()), w)
      clearImageCache := id }
    let h : ViewHandler Unit := ⟨r.withErrorPage "error", engine, "application/pdf", "error"⟩
    let p : RequestPopulator Unit := fun s =>
      { s with context := s.context.insert "errorMessage" (.text "stale") }
    let request : RenderRequest := { name := "Orders", page := "orders" }
    h.renderer = r.withErrorPage h.errorTemplate ∧ r.Lacks h.errorTemplate ∧
      (h.events p request [] ()).find? ViewEvent.isTransform =
        some (.transformed "page" .pdf ([1], .error (.failed m))) ∧
      (∃ answer, (h.events p request [] ()).filter ViewEvent.isTransform = [
        .transformed "page" .pdf ([1], .error (.failed m)),
        .transformed (ErrorPage.document ErrorPage.title m) .pdf answer]) ∧
      ∃ block, ErrorPage.messageText? (ErrorPage.document ErrorPage.title m) = some block ∧
        Text.Markup.unescape block = some m.toList := by
  refine ⟨rfl, fun s => ⟨_, _, s, rfl, rfl⟩, rfl, ?_⟩
  refine And.imp_right ?_
    (transforms_errorPage_of_failed rfl (fun s => ⟨_, _, s, rfl, rfl⟩) _ _ [] () rfl)
  rintro ⟨block, hblock, -, -, -, hread⟩
  exact ⟨block, hblock, hread⟩

end ViewHandler
end ScreenActions

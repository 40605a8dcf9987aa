import ScreenActions.Proofs.ContextMaps
import ScreenActions.Proofs.ViewRecord

/-!
The courses that a view can take: its calls, their answers and what comes of them. The image cache
is cleared once after the last transform, and the pages of a view are those of its successful one.
-/

namespace ScreenActions

namespace ViewEvent

def isTransform : ViewEvent → Bool
  | .transformed .. => true
  | _ => false

def isCleared : ViewEvent → Bool
  | .cleared => true
  | _ => false

/-- The answer is one that the collaborator of the handler gives. -/
def AnsweredBy {ω : Type} (h : ViewHandler ω) : ViewEvent → Prop
  | .rendered location context answer =>
      ∃ heap w, (h.renderer location ⟨context, heap, w⟩).1 = answer
  | .transformed fo format answer => ∃ w, (h.engine.transform fo format w).1 = answer
  | .cleared => True

end ViewEvent

/-- The report of a failed transform: a page of the error template with the reason in its context,
and its transform. -/
inductive ReportCourse (template : String) (format : OutputFormat) (cause : TransformError) :
    List ViewEvent → Option (List UInt8) → Prop
  | unrendered {context text error}
      (message : context.get? ErrorPage.messageKey = some (.text cause.message)) :
      ReportCourse template format cause [.rendered template context (text, .error error)] none
  | untransformed {context fo bytes error}
      (message : context.get? ErrorPage.messageKey = some (.text cause.message)) :
      ReportCourse template format cause [.rendered template context (fo, .ok ()),
        .transformed fo format (bytes, .error error)] none
  | transformed {context fo bytes}
      (message : context.get? ErrorPage.messageKey = some (.text cause.message)) :
      ReportCourse template format cause [.rendered template context (fo, .ok ()),
        .transformed fo format (bytes, .ok ())] (some bytes)

/-- From the transform of a page up to the image cache. -/
inductive BodyCourse (template contentType : String) (format : OutputFormat) (fo : String) :
    List ViewEvent → Except ViewError (List UInt8) → Prop
  | transformed {bytes} : BodyCourse template contentType format fo
      [.transformed fo format (bytes, .ok ())] (.ok bytes)
  | unconfigured {bytes reason} : BodyCourse template contentType format fo
      [.transformed fo format (bytes, .error (.configuration reason))]
      (.error (.configuration (.configuration reason)))
  | reported {written reason report bytes}
      (course : ReportCourse template format (.failed reason) report (some bytes)) :
      BodyCourse template contentType format fo
        (.transformed fo format (written, .error (.failed reason)) :: report) (.ok bytes)
  | unreported {written reason report}
      (course : ReportCourse template format (.failed reason) report none) :
      BodyCourse template contentType format fo
        (.transformed fo format (written, .error (.failed reason)) :: report)
        (.error (.transform contentType (.failed reason)))

/-- What a view of a request in a content type does and gives. -/
inductive ViewCourse (template contentType : String) (request : RenderRequest) :
    List ViewEvent → Except ViewError RenderedView → Prop
  | unsupported (unknown : OutputFormat.ofMime? contentType = none) :
      ViewCourse template contentType request [] (.error (.unsupportedContentType contentType))
  | unrendered {format context text error}
      (known : OutputFormat.ofMime? contentType = some format) :
      ViewCourse template contentType request
        [.rendered request.page context (text, .error error)] (.error (.render error))
  | rendered {format context fo events result}
      (known : OutputFormat.ofMime? contentType = some format)
      (course : BodyCourse template contentType format fo events result) :
      ViewCourse template contentType request
        (.rendered request.page context (fo, .ok ()) :: events ++ [.cleared])
        (result.map fun bytes => ⟨contentType, request.encoding, bytes⟩)

/-- The image cache is cleared last and once if there is a transform, and not at all otherwise. -/
def ClearedOnce (events : List ViewEvent) : Prop :=
  if events.any ViewEvent.isTransform then
    ∃ before, events = before ++ [.cleared] ∧ ∀ e ∈ before, e.isCleared = false
  else ∀ e ∈ events, e.isCleared = false

namespace ReportCourse

variable {template : String} {format : OutputFormat} {cause : TransformError}
  {report : List ViewEvent} {pages : Option (List UInt8)}

theorem not_cleared (hc : ReportCourse template format cause report pages) :
    ∀ e ∈ report, e.isCleared = false := by
  cases hc <;> simp [ViewEvent.isCleared]

theorem pages_eq_some_iff (hc : ReportCourse template format cause report pages)
    (bytes : List UInt8) :
    pages = some bytes ↔ ∃ fo format, .transformed fo format (bytes, .ok ()) ∈ report := by
  cases hc <;> simp [eq_comm]

end ReportCourse

namespace BodyCourse

variable {template contentType : String} {format : OutputFormat} {fo : String}
  {events : List ViewEvent} {result : Except ViewError (List UInt8)}

theorem head_eq (hc : BodyCourse template contentType format fo events result) :
    ∃ answer, events.head? = some (.transformed fo format answer) := by
  cases hc <;> exact ⟨_, rfl⟩

theorem not_cleared (hc : BodyCourse template contentType format fo events result) :
    ∀ e ∈ events, e.isCleared = false := by
  cases hc with
  | transformed => simp [ViewEvent.isCleared]
  | unconfigured => simp [ViewEvent.isCleared]
  | reported course => exact List.forall_mem_cons.mpr ⟨rfl, course.not_cleared⟩
  | unreported course => exact List.forall_mem_cons.mpr ⟨rfl, course.not_cleared⟩

theorem result_eq_ok_iff (hc : BodyCourse template contentType format fo events result)
    (bytes : List UInt8) :
    result = .ok bytes ↔ ∃ fo format, .transformed fo format (bytes, .ok ()) ∈ events := by
  cases hc with
  | transformed => simp [eq_comm]
  | unconfigured => simp
  | reported course => simp [← course.pages_eq_some_iff]
  | unreported course => simp [← course.pages_eq_some_iff]

/-- When the transform of a page fails other than by its set-up, the report of it gives the pages,
and its failure is the error if there are none. -/
theorem of_head_eq_failed (hc : BodyCourse template contentType format fo events result)
    {fo' : String} {format' : OutputFormat} {written : List UInt8} {reason : String}
    (hfirst : events.head? = some (.transformed fo' format' (written, .error (.failed reason)))) :
    ∃ report pages, events = .transformed fo' format' (written, .error (.failed reason)) :: report ∧
      ReportCourse template format' (.failed reason) report pages ∧
        result = pages.elim (.error (.transform contentType (.failed reason))) .ok := by
  cases hc with
  | transformed => simp at hfirst
  | unconfigured => simp at hfirst
  | @reported _ _ report bytes course =>
    cases hfirst
    exact ⟨report, some bytes, rfl, course, rfl⟩
  | @unreported _ _ report course =>
    cases hfirst
    exact ⟨report, none, rfl, course, rfl⟩

end BodyCourse

namespace ViewCourse

variable {template contentType : String} {request : RenderRequest} {events : List ViewEvent}
  {result : Except ViewError RenderedView}

theorem clearedOnce (hc : ViewCourse template contentType request events result) :
    ClearedOnce events := by
  cases hc with
  | unsupported _ => simp [ClearedOnce]
  | unrendered _ => simp [ClearedOnce, ViewEvent.isTransform, ViewEvent.isCleared]
  | @rendered _ _ _ body _ _ course =>
    obtain ⟨answer, hfirst⟩ := course.head_eq
    have htransform : body.any ViewEvent.isTransform = true :=
      List.any_eq_true.mpr ⟨_, List.mem_of_mem_head? hfirst, rfl⟩
    rw [ClearedOnce, if_pos (by simp [htransform])]
    exact ⟨_, rfl, List.forall_mem_cons.mpr ⟨rfl, course.not_cleared⟩⟩

theorem result_eq_ok_iff (hc : ViewCourse template contentType request events result)
    (view : RenderedView) :
    result = .ok view ↔ ∃ bytes, (∃ fo format, .transformed fo format (bytes, .ok ()) ∈ events) ∧
      view = ⟨contentType, request.encoding, bytes⟩ := by
  cases hc with
  | unsupported _ => simp
  | unrendered _ => simp
  | @rendered _ _ _ body result _ course =>
    have hmap : (result.map fun bytes => ⟨contentType, request.encoding, bytes⟩) = .ok view ↔
        ∃ bytes, result = .ok bytes ∧ view = ⟨contentType, request.encoding, bytes⟩ := by
      cases result <;> simp [Except.map, eq_comm]
    simp [hmap, course.result_eq_ok_iff]

theorem of_find_eq_failed (hc : ViewCourse template contentType request events result)
    {fo : String} {format : OutputFormat} {written : List UInt8} {reason : String}
    (hfirst : events.find? ViewEvent.isTransform =
      some (.transformed fo format (written, .error (.failed reason)))) :
    ∃ context page report pages, events = .rendered request.page context page ::
        .transformed fo format (written, .error (.failed reason)) :: report ++ [.cleared] ∧
      ReportCourse template format (.failed reason) report pages ∧
        result = pages.elim (.error (.transform contentType (.failed reason)))
          fun bytes => .ok ⟨contentType, request.encoding, bytes⟩ := by
  cases hc with
  | unsupported _ => simp at hfirst
  | unrendered _ => simp [ViewEvent.isTransform] at hfirst
  | @rendered _ context page body _ _ course =>
    obtain ⟨answer, hhead⟩ := course.head_eq
    obtain ⟨rest, rfl⟩ := List.head?_eq_some_iff.mp hhead
    obtain ⟨report, pages, heq, hreport, hresult⟩ := course.of_head_eq_failed hfirst
    refine ⟨context, (page, .ok ()), report, pages, by rw [heq], hreport, ?_⟩
    cases pages with
    | none => rw [hresult]; rfl
    | some bytes => rw [hresult]; rfl

theorem eq_of_result_eq_error (hc : ViewCourse template contentType request events result)
    {error : ViewError} (herror : result = .error error) {fo : String} {format : OutputFormat}
    {written : List UInt8} {reason : String} (hfirst : events.find? ViewEvent.isTransform =
      some (.transformed fo format (written, .error (.failed reason)))) :
    error = .transform contentType (.failed reason) := by
  obtain ⟨-, -, -, pages, -, -, hresult⟩ := hc.of_find_eq_failed hfirst
  cases pages with
  | none => exact Except.error.inj (herror.symm.trans hresult)
  | some bytes => exact absurd (herror.symm.trans hresult) nofun

end ViewCourse

namespace ViewHandler

variable {ω α β : Type}

/-- The computation makes calls, answered by the handler, that are of a course with its result. -/
def Takes (h : ViewHandler ω) (x : StateM (Shared (Recorded ω)) α)
    (course : List ViewEvent → α → Prop) : Prop :=
  ∀ heap (r : Recorded ω), ∃ events a heap' w',
    x (heap, r) = (a, heap', ⟨r.events ++ events, w'⟩) ∧
      (∀ e ∈ events, e.AnsweredBy h) ∧ course events a

namespace Takes

variable {h : ViewHandler ω} {x : StateM (Shared (Recorded ω)) α}
  {course : List ViewEvent → α → Prop}

theorem pure {a : α} (ha : course [] a) : Takes h (Pure.pure a) course := fun heap r =>
  ⟨[], a, heap, r.world, by rw [List.append_nil]; rfl, nofun, ha⟩

theorem bind {g : α → StateM (Shared (Recorded ω)) β} {whole : List ViewEvent → β → Prop}
    (hx : Takes h x course)
    (hg : ∀ events a, course events a → Takes h (g a) fun more b => whole (events ++ more) b) :
    Takes h (x >>= g) whole := by
  intro heap r
  obtain ⟨events, a, heap₁, w₁, hrun, hanswers, hcourse⟩ := hx heap r
  obtain ⟨more, b, heap₂, w₂, hmore, hanswers', hwhole⟩ :=
    hg events a hcourse heap₁ ⟨r.events ++ events, w₁⟩
  refine ⟨events ++ more, b, heap₂, w₂, ?_, ?_, hwhole⟩
  · change (g (x (heap, r)).1) (x (heap, r)).2 = _
    rw [hrun, hmore, List.append_assoc]
  · exact List.forall_mem_append.mpr ⟨hanswers, hanswers'⟩

end Takes

variable (h : ViewHandler ω) (p : RequestPopulator ω)

theorem takes_page (location : String) (message : Option String) :
    Takes h ((Recorded.handler h).page (Recorded.populator p) location message)
      fun events result => ∃ context answer, events = [.rendered location context answer] ∧
        result = answer.2.map (fun _ => answer.1) ∧
          ∀ m, message = some m → context.get? ErrorPage.messageKey = some (.text m) := by
  intro heap r
  let s := p ⟨{}, heap, r.world⟩
  let answer context := h.renderer location ⟨context, s.heap, s.world⟩
  obtain ⟨context, hpage, hmessage⟩ : ∃ context,
      (Recorded.handler h).page (Recorded.populator p) location message (heap, r) =
          ((answer context).1.2.map fun _ => (answer context).1.1, (answer context).2.heap,
            r.add (.rendered location context (answer context).1) (answer context).2.world) ∧
        ∀ m, message = some m → context.get? ErrorPage.messageKey = some (.text m) := by
    cases message with
    | none => exact ⟨s.context, rfl, nofun⟩
    | some m =>
      refine ⟨s.context.insert ErrorPage.messageKey (.text m), rfl, ?_⟩
      rintro _ ⟨⟩
      exact (Context.get?_insert ..).trans (if_pos rfl)
  exact ⟨[.rendered location context (answer context).1], _, _, _, hpage,
    List.forall_mem_singleton.mpr ⟨s.heap, s.world, rfl⟩, context, _, rfl, rfl, hmessage⟩

theorem takes_transform (fo : String) (format : OutputFormat) :
    Takes h ((Recorded.handler h).transform fo format) fun events result =>
      ∃ answer, events = [.transformed fo format answer] ∧
        result = answer.2.map fun _ => answer.1 := by
  intro heap r
  let answer := h.engine.transform fo format r.world
  exact ⟨[.transformed fo format answer.1], answer.1.2.map fun _ => answer.1.1, heap, answer.2, rfl,
    List.forall_mem_singleton.mpr ⟨r.world, rfl⟩, answer.1, rfl, rfl⟩

theorem takes_clearImageCache :
    Takes h (Recorded.handler h).clearImageCache fun events _ => events = [.cleared] :=
  fun heap r => ⟨[.cleared], (), heap, h.engine.clearImageCache r.world, rfl,
    List.forall_mem_singleton.mpr trivial, rfl⟩

theorem takes_errorView (format : OutputFormat) (cause : TransformError) :
    Takes h ((Recorded.handler h).errorView (Recorded.populator p) format cause)
      (ReportCourse h.errorTemplate format cause) := by
  refine (takes_page h p h.errorTemplate (some cause.message)).bind fun events result hpage => ?_
  obtain ⟨context, ⟨fo, answer⟩, rfl, rfl, hmessage⟩ := hpage
  replace hmessage := hmessage _ rfl
  cases answer with
  | error _ => exact .pure (.unrendered hmessage)
  | ok _ =>
    refine (takes_transform h fo format).bind fun events result htransform => ?_
    obtain ⟨⟨bytes, answer⟩, rfl, rfl⟩ := htransform
    cases answer with
    | error _ => exact .pure (.untransformed hmessage)
    | ok _ => exact .pure (.transformed hmessage)

theorem takes_body (contentType : String) (format : OutputFormat) (fo : String) :
    Takes h ((Recorded.handler h).body (Recorded.populator p) contentType format fo)
      (BodyCourse h.errorTemplate contentType format fo) := by
  refine (takes_transform h fo format).bind fun events result htransform => ?_
  obtain ⟨⟨bytes, answer⟩, rfl, rfl⟩ := htransform
  match answer with
  | .ok _ => exact .pure .transformed
  | .error (.configuration _) => exact .pure .unconfigured
  | .error (.failed reason) =>
    refine (takes_errorView h p format (.failed reason)).bind fun report result hreport => ?_
    cases result with
    | none => exact .pure (by simpa using .unreported hreport)
    | some _ => exact .pure (by simpa using .reported hreport)

theorem takes_render (request : RenderRequest) :
    Takes h ((Recorded.handler h).render (Recorded.populator p) request)
      (ViewCourse h.errorTemplate (h.contentTypeOf request) request) := by
  have hcontent : (Recorded.handler h).contentTypeOf request = h.contentTypeOf request := rfl
  simp only [render, hcontent]
  cases hformat : OutputFormat.ofMime? (h.contentTypeOf request) with
  | none => exact .pure (.unsupported hformat)
  | some format =>
    refine (takes_page h p request.page none).bind fun events result hpage => ?_
    obtain ⟨context, ⟨fo, answer⟩, rfl, rfl, -⟩ := hpage
    cases answer with
    | error _ => exact .pure (.unrendered hformat)
    | ok _ =>
      refine (takes_body h p _ format fo).bind fun events result hbody => ?_
      refine (takes_clearImageCache h).bind fun events _ hclear => ?_
      subst hclear
      exact .pure (by simpa using .rendered hformat hbody)

/-- A view takes one of the courses, with answers of its collaborators. -/
theorem viewCourse_events (request : RenderRequest) (heap : BundleHeap) (w : ω) :
    ViewCourse h.errorTemplate (h.contentTypeOf request) request (h.events p request heap w)
        (h.render p request (heap, w)).1 ∧
      ∀ e ∈ h.events p request heap w, e.AnsweredBy h := by
  obtain ⟨events, result, heap', w', hrun, hanswers, hcourse⟩ :=
    takes_render h p request heap ⟨[], w⟩
  have hrecorded : h.recordedRender p request heap w = (result, heap', ⟨events, w'⟩) := hrun
  rw [render_eq_recordedRender, ViewHandler.events, hrecorded]
  exact ⟨hcourse, hanswers⟩

/-- Every view takes one of the courses, with answers of its collaborators, and these are the calls
of its log. It clears the image cache once after the last transform if there is one and not at all
otherwise. It gives pages exactly if a transform succeeds, those that this transform has written, and
if the report of a failed transform fails as well, the error is that of the first transform. -/
theorem render_takes_course (request : RenderRequest) (heap : BundleHeap) (w : ω) :
    let events := h.events p request heap w
    let result := (h.render p request (heap, w)).1
    (Logged.handler h).render (Logged.populator p) request (heap, ⟨[], w⟩) =
        Prod.map id (Prod.map id fun w' => ⟨events.map ViewEvent.call, w'⟩)
          (h.render p request (heap, w)) ∧
      (∀ e ∈ events, e.AnsweredBy h) ∧
      ViewCourse h.errorTemplate (h.contentTypeOf request) request events result ∧
      ClearedOnce events ∧
      (∀ view, result = .ok view ↔
        ∃ bytes, (∃ fo format, .transformed fo format (bytes, .ok ()) ∈ events) ∧
          view = ⟨h.contentTypeOf request, request.encoding, bytes⟩) ∧
      ∀ error fo format written reason, result = .error error →
        events.find? ViewEvent.isTransform =
          some (.transformed fo format (written, .error (.failed reason))) →
        error = .transform (h.contentTypeOf request) (.failed reason) := by
  obtain ⟨hcourse, hanswers⟩ := viewCourse_events h p request heap w
  refine ⟨logged_render h p request heap w, hanswers, hcourse, hcourse.clearedOnce,
    hcourse.result_eq_ok_iff, ?_⟩
  intro error fo format written reason herror hfirst
  exact hcourse.eq_of_result_eq_error herror hfirst

end ViewHandler
end ScreenActions

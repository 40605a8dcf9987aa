import ScreenActions.Rendering.Calls

/-!
The calls of a view recorded with their answers. A view does the same whatever its collaborators
keep besides, and so the record changes nothing and holds the logged calls.
-/

namespace ScreenActions

/-- A call of a collaborator with its answer. -/
inductive ViewEvent
  | rendered (location : String) (context : Context) (answer : String × Except RenderError Unit)
  | transformed (fo : String) (format : OutputFormat)
      (answer : List UInt8 × Except TransformError Unit)
  | cleared

def ViewEvent.call : ViewEvent → ViewCall
  | .rendered location context _ => .render location context
  | .transformed fo format _ => .transform fo format
  | .cleared => .clearImageCache

variable {ω ω' α β : Type}

def PageState.mapWorld (f : ω → ω') (s : PageState ω) : PageState ω' :=
  ⟨s.context, s.heap, f s.world⟩

/-- What the collaborators keep, with what they were asked for and answered so far. -/
structure Recorded (ω : Type) where
  events : List ViewEvent := []
  world : ω

namespace Recorded

def add (r : Recorded ω) (event : ViewEvent) (world : ω) : Recorded ω :=
  ⟨r.events ++ [event], world⟩

def renderer (f : ScreenRenderer ω) : ScreenRenderer (Recorded ω) := fun location s =>
  let (answer, t) := f location (s.mapWorld Recorded.world)
  (answer, t.mapWorld (s.world.add (.rendered location s.context answer)))

def engine (e : FormattingEngine ω) : FormattingEngine (Recorded ω) where
  transform fo format r :=
    let (answer, w) := e.transform fo format r.world
    (answer, r.add (.transformed fo format answer) w)
  clearImageCache r := r.add .cleared (e.clearImageCache r.world)

def populator (p : RequestPopulator ω) : RequestPopulator (Recorded ω) := fun s =>
  (p (s.mapWorld Recorded.world)).mapWorld fun w => { s.world with world := w }

/-- The handler with every call and its answer recorded. -/
def handler (h : ViewHandler ω) : ViewHandler (Recorded ω) :=
  ⟨renderer h.renderer, engine h.engine, h.contentType, h.errorTemplate⟩

/-- The log of the recorded calls. -/
def logged (r : Recorded ω) : Logged ω := ⟨r.events.map ViewEvent.call, r.world⟩

end Recorded

namespace ViewHandler

/-- The second computation does what the first does, on what `f` makes of its collaborators. -/
def Follows (f : ω → ω') (x : StateM (Shared ω) α) (x' : StateM (Shared ω') α) : Prop :=
  ∀ heap w, x' (heap, f w) = Prod.map id (Prod.map id f) (x (heap, w))

namespace Follows

variable {f : ω → ω'} {x : StateM (Shared ω) α} {x' : StateM (Shared ω') α}

theorem pure (a : α) : Follows f (Pure.pure a) (Pure.pure a) := fun _ _ => rfl

theorem bind {g : α → StateM (Shared ω) β} {g' : α → StateM (Shared ω') β} (hx : Follows f x x')
    (hg : ∀ a, Follows f (g a) (g' a)) : Follows f (x >>= g) (x' >>= g') := by
  intro heap w
  change (g' (x' (heap, f w)).1) (x' (heap, f w)).2 = _
  rw [hx heap w]
  exact hg _ _ _

end Follows

/-- Each collaborator of the second handler does what that of the first does. -/
structure Simulates (f : ω → ω') (h : ViewHandler ω) (p : RequestPopulator ω)
    (h' : ViewHandler ω') (p' : RequestPopulator ω') : Prop where
  contentType : h'.contentType = h.contentType
  errorTemplate : h'.errorTemplate = h.errorTemplate
  renderer : ∀ location s, h'.renderer location (s.mapWorld f) =
    Prod.map id (PageState.mapWorld f) (h.renderer location s)
  transform : ∀ fo format w,
    h'.engine.transform fo format (f w) = Prod.map id f (h.engine.transform fo format w)
  clearImageCache : ∀ w, h'.engine.clearImageCache (f w) = f (h.engine.clearImageCache w)
  populator : ∀ s, p' (s.mapWorld f) = (p s).mapWorld f

namespace Simulates

variable {f : ω → ω'} {h : ViewHandler ω} {p : RequestPopulator ω} {h' : ViewHandler ω'}
  {p' : RequestPopulator ω'}

theorem follows_page (hs : Simulates f h p h' p') (location : String) (message : Option String) :
    Follows f (h.page p location message) (h'.page p' location message) := by
  intro heap w
  have hp : p' ⟨{}, heap, f w⟩ = (p ⟨{}, heap, w⟩).mapWorld f := hs.populator ⟨{}, heap, w⟩
  cases message with
  | none =>
    simp only [page, hp, hs.renderer]
    rfl
  | some m =>
    have hr := hs.renderer location { p ⟨{}, heap, w⟩ with
      context := (p ⟨{}, heap, w⟩).context.insert ErrorPage.messageKey (.text m) }
    simp only [PageState.mapWorld] at hr
    simp only [page, hp, PageState.mapWorld, hr]
    rfl

theorem follows_transform (hs : Simulates f h p h' p') (fo : String) (format : OutputFormat) :
    Follows f (h.transform fo format) (h'.transform fo format) := by
  intro heap w
  simp only [ViewHandler.transform, hs.transform]
  rfl

theorem follows_clearImageCache (hs : Simulates f h p h' p') :
    Follows f h.clearImageCache h'.clearImageCache := by
  intro heap w
  change ((), heap, h'.engine.clearImageCache (f w)) = _
  rw [hs.clearImageCache]
  rfl

theorem follows_errorView (hs : Simulates f h p h' p') (format : OutputFormat)
    (cause : TransformError) :
    Follows f (h.errorView p format cause) (h'.errorView p' format cause) := by
  rw [errorView, errorView, hs.errorTemplate]
  refine (hs.follows_page _ _).bind fun result => ?_
  cases result with
  | error _ => exact .pure _
  | ok fo => exact (hs.follows_transform fo format).bind fun _ => .pure _

theorem follows_body (hs : Simulates f h p h' p') (contentType : String) (format : OutputFormat)
    (fo : String) :
    Follows f (h.body p contentType format fo) (h'.body p' contentType format fo) := by
  refine (hs.follows_transform fo format).bind fun result => ?_
  match result with
  | .ok _ => exact .pure _
  | .error (.configuration _) => exact .pure _
  | .error (.failed reason) =>
    refine (hs.follows_errorView format (.failed reason)).bind fun report => ?_
    cases report with
    | none => exact .pure _
    | some _ => exact .pure _

/-- The views of two handlers whose collaborators do the same are the same. -/
theorem follows_render (hs : Simulates f h p h' p') (request : RenderRequest) :
    Follows f (h.render p request) (h'.render p' request) := by
  have hcontent : h'.contentTypeOf request = h.contentTypeOf request := by
    rw [contentTypeOf, contentTypeOf, hs.contentType]
  simp only [render, hcontent]
  cases OutputFormat.ofMime? (h.contentTypeOf request) with
  | none => exact .pure _
  | some format =>
    refine (hs.follows_page request.page none).bind fun result => ?_
    cases result with
    | error _ => exact .pure _
    | ok fo =>
      exact (hs.follows_body _ format fo).bind fun _ =>
        hs.follows_clearImageCache.bind fun _ => .pure _

end Simulates

variable (h : ViewHandler ω) (p : RequestPopulator ω)

theorem simulates_world :
    Simulates Recorded.world (Recorded.handler h) (Recorded.populator p) h p where
  contentType := rfl
  errorTemplate := rfl
  renderer _ _ := rfl
  transform _ _ _ := rfl
  clearImageCache _ := rfl
  populator _ := rfl

theorem simulates_logged : Simulates Recorded.logged (Recorded.handler h) (Recorded.populator p)
    (Logged.handler h) (Logged.populator p) where
  contentType := rfl
  errorTemplate := rfl
  renderer location s := by
    simp [Recorded.handler, Recorded.renderer, Logged.handler, Logged.renderer, PageState.mapWorld,
      Recorded.logged, Recorded.add, Logged.add, ViewEvent.call]
  transform fo format r := by
    simp [Recorded.handler, Recorded.engine, Logged.handler, Logged.engine, Recorded.logged,
      Recorded.add, Logged.add, ViewEvent.call]
  clearImageCache r := by
    simp [Recorded.handler, Recorded.engine, Logged.handler, Logged.engine, Recorded.logged,
      Recorded.add, Logged.add, ViewEvent.call]
  populator _ := rfl

variable (request : RenderRequest) (heap : BundleHeap) (w : ω)

/-- The view with its calls recorded. -/
def recordedRender : Except ViewError RenderedView × Shared (Recorded ω) :=
  (Recorded.handler h).render (Recorded.populator p) request (heap, ⟨[], w⟩)

/-- The calls of a view with their answers. -/
def events : List ViewEvent := (h.recordedRender p request heap w).2.2.events

/-- A view is the same whether it is recorded or not. -/
theorem render_eq_recordedRender : h.render p request (heap, w) =
    Prod.map id (Prod.map id Recorded.world) (h.recordedRender p request heap w) :=
  (simulates_world h p).follows_render request heap ⟨[], w⟩

/-- The log of a view has the calls that are recorded. -/
theorem logged_render : (Logged.handler h).render (Logged.populator p) request (heap, ⟨[], w⟩) =
    Prod.map id (Prod.map id fun w' => ⟨(h.events p request heap w).map ViewEvent.call, w'⟩)
      (h.render p request (heap, w)) := by
  rw [h.render_eq_recordedRender p]
  exact (simulates_logged h p).follows_render request heap ⟨[], w⟩

end ViewHandler
end ScreenActions

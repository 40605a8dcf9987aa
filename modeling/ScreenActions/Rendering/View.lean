import ScreenActions.Config
import ScreenActions.Rendering.Format
import ScreenActions.Rendering.Screen

/-! Views: a screen is rendered to formatting objects and those are turned into pages. -/

namespace ScreenActions

/-- A failed set-up of the engine is not reported on a page. -/
inductive TransformError
  | configuration (reason : String)
  | failed (reason : String)
  deriving DecidableEq, Repr

def TransformError.message : TransformError → String
  | .configuration reason => reason
  | .failed reason => reason

inductive ViewError
  | unsupportedContentType (contentType : String)
  | render (source : RenderError)
  | configuration (source : TransformError)
  | transform (contentType : String) (source : TransformError)
  deriving DecidableEq, Repr

def ViewError.message : ViewError → String
  | .unsupportedContentType contentType => "Unsupported content type: " ++ contentType
  | .render source => "Problems with the response writer/output stream: " ++ source.message
  | .configuration source => "Transformer Configuration Error: " ++ source.message
  | .transform contentType source =>
      "Unable to transform FO to " ++ contentType ++ ": " ++ source.message

/-- Turns formatting objects into pages: the bytes written, whether or not it has failed then. -/
structure FormattingEngine (ω : Type) where
  transform : String → OutputFormat → ω → (List UInt8 × Except TransformError Unit) × ω
  clearImageCache : ω → ω

/-- The view that is asked for; `page` is the location of its screen. -/
structure RenderRequest where
  name : String
  page : String
  info : String := ""
  contentType : Option String := none
  encoding : Option String := none
  deriving DecidableEq, Repr

open Document in
def RenderRequest.ofDocument? (d : Document) : Option RenderRequest := do
  match ← d.fields? ["name", "page", "info", "content_type", "encoding"] with
  | [some name, some page, info, contentType, encoding] => some {
      name := ← name.text?
      page := ← page.text?
      info := ← orElse "" Document.text? info
      contentType := ← orElse none textOrNull? contentType
      encoding := ← orElse none textOrNull? encoding }
  | _ => none

structure RenderedView where
  contentType : String
  encoding : Option String
  body : List UInt8
  deriving DecidableEq, Repr

/-- Fills the fresh context of a page with what the request carries. -/
abbrev RequestPopulator (ω : Type) := PageState ω → PageState ω

structure ViewHandler (ω : Type) where
  renderer : ScreenRenderer ω
  engine : FormattingEngine ω
  contentType : String
  errorTemplate : String

namespace ViewHandler

variable {ω : Type}

def ofSettings (renderer : ScreenRenderer ω) (engine : FormattingEngine ω)
    (settings : RenderSettings) : ViewHandler ω :=
  ⟨renderer, engine, settings.contentType, settings.errorTemplate⟩

/-- What outlives a page. -/
abbrev Shared (ω : Type) := BundleHeap × ω

/-- The page at a location in a fresh context, with a message in it if there is one. -/
def page (h : ViewHandler ω) (populate : RequestPopulator ω) (location : String)
    (message : Option String) : StateM (Shared ω) (Except RenderError String) := fun (heap, w) =>
  let s := populate ⟨{}, heap, w⟩
  let s := match message with
    | some m => { s with context := s.context.insert ErrorPage.messageKey (.text m) }
    | none => s
  let ((text, result), s) := h.renderer location s
  (result.map fun _ => text, (s.heap, s.world))

def transform (h : ViewHandler ω) (fo : String) (format : OutputFormat) :
    StateM (Shared ω) (Except TransformError (List UInt8)) := fun (heap, w) =>
  let ((bytes, result), w) := h.engine.transform fo format w
  (result.map fun _ => bytes, (heap, w))

def clearImageCache (h : ViewHandler ω) : StateM (Shared ω) Unit :=
  modify fun (heap, w) => (heap, h.engine.clearImageCache w)

/-- The pages that report a failed transform, if they can be made. -/
def errorView (h : ViewHandler ω) (populate : RequestPopulator ω) (format : OutputFormat)
    (cause : TransformError) : StateM (Shared ω) (Option (List UInt8)) := do
  match ← h.page populate h.errorTemplate (some cause.message) with
  | .error _ => return none
  | .ok fo => return (← h.transform fo format).toOption

/-- The pages of a text, or of the error template when the transform fails other than by its
set-up; if that fails too, the first failure counts. -/
def body (h : ViewHandler ω) (populate : RequestPopulator ω) (contentType : String)
    (format : OutputFormat) (fo : String) :
    StateM (Shared ω) (Except ViewError (List UInt8)) := do
  match ← h.transform fo format with
  | .ok bytes => return .ok bytes
  | .error (.configuration reason) => return .error (.configuration (.configuration reason))
  | .error cause =>
      match ← h.errorView populate format cause with
      | some bytes => return .ok bytes
      | none => return .error (.transform contentType cause)

/-- The content type of a request, or the default one when it has none. -/
def contentTypeOf (h : ViewHandler ω) (request : RenderRequest) : String :=
  match request.contentType with
  | some t => if Text.isBlankText t then h.contentType else t
  | none => h.contentType

/-- The view of a request. The image cache is cleared once after the last transform. -/
def render (h : ViewHandler ω) (populate : RequestPopulator ω) (request : RenderRequest) :
    StateM (Shared ω) (Except ViewError RenderedView) := do
  let contentType := h.contentTypeOf request
  match OutputFormat.ofMime? contentType with
  | none => return .error (.unsupportedContentType contentType)
  | some format =>
      match ← h.page populate request.page none with
      | .error e => return .error (.render e)
      | .ok fo =>
          let body ← h.body populate contentType format fo
          h.clearImageCache
          return body.map fun bytes => ⟨contentType, request.encoding, bytes⟩

end ViewHandler
end ScreenActions

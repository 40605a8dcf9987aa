import ScreenActions.Context
import ScreenActions.Text.Markup

/-! Screens rendered to formatting objects, and the page that reports a failure. -/

namespace ScreenActions

inductive RenderError
  | screenNotFound (location : String)
  | failed (reason : String)
  deriving DecidableEq, Repr

def RenderError.message : RenderError → String
  | .screenNotFound location => "Screen not found: " ++ location
  | .failed reason => reason

/-- What rendering a page reads and may change: the context of the page, the bundle maps that
values share, and what the collaborators keep. -/
structure PageState (ω : Type) where
  context : Context
  heap : BundleHeap
  world : ω

/-- A renderer answers for a location with the text that it has written, whether or not it has
failed then. -/
abbrev ScreenRenderer (ω : Type) :=
  String → PageState ω → (String × Except RenderError Unit) × PageState ω

namespace ErrorPage

/-- The field that holds the message. -/
def messageKey : String := "errorMessage"

def title : String := "Error rendering document"

/-- The markup of the page before its message. -/
def opening (title : String) : String :=
  Text.join "\n" [
    "<?xml version=\"1.0\" encoding=\"UTF-8\"?>",
    "<fo:root xmlns:fo=\"http://www.w3.org/1999/XSL/Format\">",
    "  <fo:layout-master-set>",
    "    <fo:simple-page-master master-name=\"main\" page-width=\"8.5in\" page-height=\"11in\"",
    "        margin-top=\"0.5in\" margin-bottom=\"0.5in\" margin-left=\"0.5in\" margin-right=\"0.5in\">",
    "      <fo:region-body/>",
    "    </fo:simple-page-master>",
    "  </fo:layout-master-set>",
    "  <fo:page-sequence master-reference=\"main\">",
    "    <fo:flow flow-name=\"xsl-region-body\" font-family=\"Helvetica\" font-size=\"10pt\">",
    "      <fo:block font-size=\"14pt\" font-weight=\"bold\" space-after=\"0.2in\">" ++
      Text.Markup.escapeText title ++ "</fo:block>",
    "      <fo:block linefeed-treatment=\"preserve\">"]

/-- The markup of the page after its message. -/
def closing : String :=
  Text.join "\n" ["</fo:block>", "    </fo:flow>", "  </fo:page-sequence>", "</fo:root>"]

/-- A document of one page with a title and a message. -/
def document (title message : String) : String :=
  opening title ++ Text.Markup.escapeText message ++ closing

/-- The message in a context, empty when there is none. -/
def message (heap : BundleHeap) (c : Context) : String :=
  ((c.get? messageKey).map (Value.display heap)).getD ""

def text (heap : BundleHeap) (c : Context) : String := document title (message heap c)

end ErrorPage

/-- A renderer whose screen at `location` is the error page if it has none of its own. -/
def ScreenRenderer.withErrorPage {ω : Type} (inner : ScreenRenderer ω) (location : String) :
    ScreenRenderer ω := fun target s =>
  if target = location then
    match inner target s with
    | ((_, .error (.screenNotFound _)), t) => ((ErrorPage.text t.heap t.context, .ok ()), t)
    | answer => answer
  else inner target s

end ScreenActions

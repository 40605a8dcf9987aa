import ScreenActions.Text.Blank

/-! Paginated output formats. -/

namespace ScreenActions

inductive OutputFormat
  | pdf | pcl | postScript
  deriving DecidableEq, Repr

namespace OutputFormat

def mime : OutputFormat → String
  | .pdf => "application/pdf"
  | .pcl => "application/vnd.hp-PCL"
  | .postScript => "application/postscript"

def all : List OutputFormat := [.pdf, .pcl, .postScript]

/-- The format of a media type in any case; its parameters do not count. -/
def ofMime? (mime : String) : Option OutputFormat :=
  let essence := match Text.splitAll (· == ';') mime.toList with
    | first :: _ => Text.lower (String.ofList (Text.trim first))
    | [] => ""
  all.find? fun f => Text.lower f.mime == essence

end OutputFormat
end ScreenActions

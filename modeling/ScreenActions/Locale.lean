import ScreenActions.Text.Blank
import ScreenActions.Text.Quoted

/-! Locales: a language with an optional country and variant. -/

namespace ScreenActions

structure Locale where
  language : String
  country : Option String := none
  variant : Option String := none
  deriving DecidableEq, Repr

namespace Locale

/-- The language in lower case. -/
def ofLanguage (language : String) : Locale := { language := Text.lower language }

/-- The country in upper case. -/
def withCountry (l : Locale) (country : String) : Locale :=
  { l with country := some (Text.upper country) }

def withVariant (l : Locale) (variant : String) : Locale := { l with variant := some variant }

def isAsciiLetter (c : Char) : Bool := ('a' ≤ c && c ≤ 'z') || ('A' ≤ c && c ≤ 'Z')

/-- A language of ASCII letters, then parts set off by underscores or hyphens: the country if it is
not empty, and the other parts that are not empty as the variant. -/
def ofTag? (tag : String) : Option Locale :=
  match Text.splitAll (fun c => c == '_' || c == '-') (Text.trim tag.toList) with
  | [] => none
  | language :: parts =>
      if language.isEmpty || !language.all isAsciiLetter then none
      else
        let base := ofLanguage (String.ofList language)
        let base := match parts with
          | country :: _ =>
              if country.isEmpty then base else base.withCountry (String.ofList country)
          | [] => base
        let rest := (parts.drop 1).filter (!·.isEmpty)
        some (if rest.isEmpty then base
          else base.withVariant (Text.join "_" (rest.map String.ofList)))

/-- Tags from the most to the least specific. A variant counts only with a country. -/
def candidates (l : Locale) : List String :=
  match l.country with
  | none => [l.language]
  | some country =>
      let narrow := match l.variant with
        | some variant => [l.language ++ "_" ++ country ++ "_" ++ variant]
        | none => []
      narrow ++ [l.language ++ "_" ++ country, l.language]

/-- The most specific tag. -/
def tag (l : Locale) : String := l.candidates.headD l.language

def invalidMessage (tag : String) : String := "invalid locale tag: " ++ Text.Quoted.encode tag

end Locale
end ScreenActions

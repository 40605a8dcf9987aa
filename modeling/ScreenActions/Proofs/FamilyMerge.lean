import ScreenActions.Proofs.SourceAgreement

/-!
Loading a family of files. For each name of the family the file in the first root that has it is
consulted, and a narrower file hides the messages of a wider one, in whatever roots the two stand.
-/

theorem List.findSome?_filterMap {α β γ : Type} (f : α → Option β) (g : β → Option γ)
    (as : List α) : (as.filterMap f).findSome? g = as.findSome? fun a => (f a).bind g := by
  rw [← head?_filterMap, filterMap_filterMap, head?_filterMap]

namespace ScreenActions

open Messages

/-- The path is that of a file. -/
def FileTree.HasFile (files : FileTree) (path : String) : Prop :=
  ∃ content, files path = some content ∧ content.isFile = true

theorem FileContent.eq_text_of_text? {content : FileContent} {s : String}
    (h : content.text? = some s) : content = .text s := by
  cases content <;> cases h
  rfl

theorem FileContent.eq_binary_of_text? {content : FileContent} (hfile : content.isFile = true)
    (h : content.text? = none) : content = .binary := by
  cases content with
  | text s => cases h
  | binary => rfl
  | directory => cases hfile

namespace FileSource

/-- The names of a family from the most specific one to the base. A variant counts only with a
country. -/
def familyNames (name : String) : Option Locale → List String
  | none => [name ++ ".properties"]
  | some ⟨language, none, _⟩ => [name ++ "_" ++ language ++ ".properties", name ++ ".properties"]
  | some ⟨language, some country, none⟩ =>
      [name ++ "_" ++ language ++ "_" ++ country ++ ".properties",
        name ++ "_" ++ language ++ ".properties", name ++ ".properties"]
  | some ⟨language, some country, some variant⟩ =>
      [name ++ "_" ++ language ++ "_" ++ country ++ "_" ++ variant ++ ".properties",
        name ++ "_" ++ language ++ "_" ++ country ++ ".properties",
        name ++ "_" ++ language ++ ".properties", name ++ ".properties"]

/-- The file consulted for a name is the one in the first root that has it as a file. -/
def Consults (src : FileSource) (files : FileTree) (file path : String) (content : FileContent) :
    Prop :=
  ∃ passed root rest, src.roots = passed ++ root :: rest ∧ path = FilePath.join root file ∧
    files path = some content ∧ content.isFile = true ∧
    ∀ r ∈ passed, ¬files.HasFile (FilePath.join r file)

/-- The file consulted for a name is a text that says this under the key. -/
def Defines (src : FileSource) (files : FileTree) (key file message : String) : Prop :=
  ∃ path text, src.Consults files file path (.text text) ∧
    Keyed.get? (Properties.parse text) key = some message

/-- The bundle says of each key what the most specific file that defines it says. -/
structure Merges (src : FileSource) (files : FileTree) (names : List String) (b : Bundle) :
    Prop where
  some_iff : ∀ key message, b.get? key = some message ↔ ∃ narrower file wider,
    names = narrower ++ file :: wider ∧ src.Defines files key file message ∧
      ∀ file' ∈ narrower, ∀ message', ¬src.Defines files key file' message'
  none_iff : ∀ key, b.get? key = none ↔
    ∀ file ∈ names, ∀ message, ¬src.Defines files key file message

theorem fileNames_eq_reverse (name : String) (locale : Option Locale) :
    fileNames name locale = (familyNames name locale).reverse := by
  rcases locale with _ | ⟨language, _ | country, _ | variant⟩ <;>
    simp [fileNames, familyNames, fileSuffix, Locale.candidates, String.append_assoc]

section Consulted

variable {src : FileSource} {files : FileTree} {file path key message : String}
  {content : FileContent}

theorem filter_isFile_eq_none_iff :
    (files path).filter FileContent.isFile = none ↔ ¬files.HasFile path := by
  rw [Option.filter_eq_none_iff]
  exact ⟨fun h ⟨content, hc, hfile⟩ => h content hc hfile,
    fun h content hc hfile => h ⟨content, hc, hfile⟩⟩

theorem find?_eq_some_iff :
    src.find? files file = some (path, content) ↔ src.Consults files file path content := by
  unfold find? Consults
  rw [List.findSome?_eq_some_iff]
  constructor
  · rintro ⟨passed, root, rest, hroots, hfound, hpassed⟩
    obtain ⟨_, hcontent, heq⟩ := Option.map_eq_some_iff.mp hfound
    obtain ⟨rfl, rfl⟩ := Prod.mk.inj heq
    obtain ⟨hcontent, hfile⟩ := Option.filter_eq_some_iff.mp hcontent
    refine ⟨passed, root, rest, hroots, rfl, hcontent, hfile, fun r hr => ?_⟩
    exact filter_isFile_eq_none_iff.mp (Option.map_eq_none_iff.mp (hpassed r hr))
  · rintro ⟨passed, root, rest, hroots, rfl, hcontent, hfile, hpassed⟩
    refine ⟨passed, root, rest, hroots, ?_, fun r hr => ?_⟩
    · dsimp only
      rw [hcontent, Option.filter_some_pos hfile]
      rfl
    · exact Option.map_eq_none_iff.mpr (filter_isFile_eq_none_iff.mpr (hpassed r hr))

theorem find?_eq_none_iff : src.find? files file = none ↔
    ∀ root ∈ src.roots, ¬files.HasFile (FilePath.join root file) := by
  unfold find?
  rw [List.findSome?_eq_none_iff]
  exact forall₂_congr fun root _ => Option.map_eq_none_iff.trans filter_isFile_eq_none_iff

/-- What the file consulted for a name says under a key. -/
def messageIn? (src : FileSource) (files : FileTree) (key file : String) : Option String :=
  ((src.find? files file).bind layer?).bind (Keyed.get? · key)

theorem messageIn?_eq_some_iff :
    src.messageIn? files key file = some message ↔ src.Defines files key file message := by
  unfold messageIn? Defines
  constructor
  · intro h
    obtain ⟨layer, hlayer, hmessage⟩ := Option.bind_eq_some_iff.mp h
    obtain ⟨⟨path, content⟩, hfound, htext⟩ := Option.bind_eq_some_iff.mp hlayer
    obtain ⟨text, hcontent, rfl⟩ := Option.map_eq_some_iff.mp htext
    have hcontent : content = .text text := FileContent.eq_text_of_text? hcontent
    exact ⟨path, text, hcontent ▸ find?_eq_some_iff.mp hfound, hmessage⟩
  · rintro ⟨path, text, hconsults, hmessage⟩
    rw [find?_eq_some_iff.mpr hconsults]
    exact hmessage

theorem messageIn?_eq_none_iff :
    src.messageIn? files key file = none ↔ ∀ message, ¬src.Defines files key file message := by
  rw [Option.eq_none_iff_forall_ne_some]
  exact forall_congr' fun message => not_congr messageIn?_eq_some_iff

end Consulted

/-- Merging fails for a file that is not text. -/
theorem gather_eq_error {found : List (String × FileContent)} {e : PropertyError}
    (h : gather found = .error e) :
    ∃ path content, (path, content) ∈ found ∧ content.text? = none ∧ e = .unreadable path := by
  induction found with
  | nil => cases h
  | cons file found ih =>
    obtain ⟨path, content⟩ := file
    cases htext : content.text? with
    | none =>
      simp only [gather, htext] at h
      cases h
      exact ⟨path, content, List.mem_cons_self, htext, rfl⟩
    | some s =>
      simp only [gather, htext] at h
      cases hrest : gather found with
      | ok upper => rw [hrest] at h; cases h
      | error e' =>
        rw [hrest] at h
        cases h
        obtain ⟨path', content', hmem, htext', rfl⟩ := ih hrest
        exact ⟨path', content', List.mem_cons_of_mem _ hmem, htext', rfl⟩

/-- Merging that succeeds has read every file as text. -/
theorem texts_of_gather_eq_ok {found : List (String × FileContent)} {messages : Keyed String}
    (h : gather found = .ok messages) {path : String} {content : FileContent}
    (hmem : (path, content) ∈ found) : ∃ s, content = .text s := by
  induction found generalizing messages with
  | nil => cases hmem
  | cons file found ih =>
    cases htext : file.2.text? with
    | none =>
      simp only [gather, htext] at h
      cases h
    | some s =>
      simp only [gather, htext] at h
      cases hrest : gather found with
      | error e => rw [hrest] at h; cases h
      | ok upper =>
        rcases List.mem_cons.mp hmem with rfl | hmem
        · exact ⟨s, FileContent.eq_text_of_text? htext⟩
        · exact ih hrest hmem

/-- In what is merged the last file that defines a key counts. -/
theorem get?_of_gather {found : List (String × FileContent)} {messages : Keyed String}
    (h : gather found = .ok messages) (key : String) : Keyed.get? messages key =
      found.reverse.findSome? fun file => (layer? file).bind (Keyed.get? · key) := by
  have hlayers : found.map layer? = (found.filterMap layer?).map some := by
    rw [List.map_filterMap]
    refine (List.filterMap_eq_map_iff_forall_eq_some.mpr fun file hfile => ?_).symm
    obtain ⟨s, hs⟩ := texts_of_gather_eq_ok h hfile
    simp [layer?, hs, FileContent.text?]
  obtain rfl : messages = (found.filterMap layer?).foldr Keyed.extend [] :=
    Except.ok.inj (h.symm.trans (gather_of_layers hlayers))
  rw [Keyed.get?_foldr_extend, ← List.filterMap_reverse, List.findSome?_filterMap]

section Load

variable (src : FileSource) (files : FileTree) (name : String) (locale : Option Locale)

/-- The files that loading a family finds, from the base to the most specific one. -/
def found : List (String × FileContent) := (fileNames name locale).filterMap (src.find? files)

variable {src files name locale}

theorem mem_found_iff {path : String} {content : FileContent} :
    (path, content) ∈ src.found files name locale ↔
      ∃ file ∈ familyNames name locale, src.Consults files file path content := by
  simp only [found, fileNames_eq_reverse, List.mem_filterMap, List.mem_reverse, find?_eq_some_iff]

theorem found_eq_nil_iff : src.found files name locale = [] ↔
    ∀ file ∈ familyNames name locale, ∀ root ∈ src.roots,
      ¬files.HasFile (FilePath.join root file) := by
  simp only [found, fileNames_eq_reverse, List.filterMap_eq_nil_iff, List.mem_reverse,
    find?_eq_none_iff]

theorem found_ne_nil_iff : src.found files name locale ≠ [] ↔
    ∃ file ∈ familyNames name locale, ∃ path content, src.Consults files file path content := by
  constructor
  · intro h
    obtain ⟨⟨path, content⟩, hmem⟩ := List.exists_mem_of_ne_nil _ h
    obtain ⟨file, hfile, hconsults⟩ := mem_found_iff.mp hmem
    exact ⟨file, hfile, path, content, hconsults⟩
  · rintro ⟨file, hfile, path, content, hconsults⟩
    exact List.ne_nil_of_mem (mem_found_iff.mpr ⟨file, hfile, hconsults⟩)

theorem load_of_nil (h : src.found files name locale = []) :
    src.load files name locale = .error (notFound name locale) := by
  unfold found at h
  simp only [load, h, List.isEmpty_nil, if_true]

theorem load_of_ne_nil (h : src.found files name locale ≠ []) :
    src.load files name locale =
      (gather (src.found files name locale)).map fun messages => ⟨name, locale, messages⟩ := by
  unfold found at h ⊢
  simp only [load, List.isEmpty_iff, if_neg h]

/-- The messages of a family that loads are those of the narrowest files consulted. -/
theorem get?_of_found {messages : Keyed String}
    (h : gather (src.found files name locale) = .ok messages) (key : String) :
    Keyed.get? messages key =
      (familyNames name locale).findSome? (src.messageIn? files key) := by
  rw [get?_of_gather h, found, fileNames_eq_reverse, List.filterMap_reverse, List.reverse_reverse,
    List.findSome?_filterMap]
  refine congrArg (List.findSome? · _) (funext fun file => ?_)
  rw [messageIn?, Option.bind_assoc]

theorem merges_of_gather {messages : Keyed String}
    (h : gather (src.found files name locale) = .ok messages) :
    src.Merges files (familyNames name locale) ⟨name, locale, messages⟩ where
  some_iff key message := by
    simp only [Bundle.get?, get?_of_found h, List.findSome?_eq_some_iff, messageIn?_eq_some_iff,
      messageIn?_eq_none_iff]
  none_iff key := by
    simp only [Bundle.get?, get?_of_found h, List.findSome?_eq_none_iff, messageIn?_eq_none_iff]

/-- A family is not found, has a file that is not text, or is merged. -/
theorem load_cases (src : FileSource) (files : FileTree) (name : String) (locale : Option Locale) :
    (src.found files name locale = [] ∧
      src.load files name locale = .error (notFound name locale)) ∨
    (∃ path, (path, .binary) ∈ src.found files name locale ∧
      src.load files name locale = .error (.unreadable path)) ∨
    ∃ messages, src.found files name locale ≠ [] ∧
      gather (src.found files name locale) = .ok messages ∧
      src.load files name locale = .ok ⟨name, locale, messages⟩ := by
  by_cases hnil : src.found files name locale = []
  · exact .inl ⟨hnil, load_of_nil hnil⟩
  have hload := load_of_ne_nil hnil
  cases hgather : gather (src.found files name locale) with
  | error e =>
    obtain ⟨path, content, hmem, htext, rfl⟩ := gather_eq_error hgather
    obtain ⟨file, -, _, _, _, -, -, -, hfile, -⟩ := mem_found_iff.mp hmem
    obtain rfl := FileContent.eq_binary_of_text? hfile htext
    rw [hgather] at hload
    exact .inr (.inl ⟨path, hmem, hload⟩)
  | ok messages =>
    rw [hgather] at hload
    exact .inr (.inr ⟨messages, hnil, rfl, hload⟩)

theorem load_eq_notFound_iff : src.load files name locale = .error (notFound name locale) ↔
    src.found files name locale = [] := by
  refine ⟨fun h => ?_, load_of_nil⟩
  rcases src.load_cases files name locale with
    ⟨hnil, -⟩ | ⟨path, -, hload⟩ | ⟨messages, -, -, hload⟩
  · exact hnil
  · cases hload.symm.trans h
  · cases hload.symm.trans h

theorem load_eq_unreadable_iff : (∃ path, src.load files name locale = .error (.unreadable path)) ↔
    ∃ path, (path, .binary) ∈ src.found files name locale := by
  rcases src.load_cases files name locale with
    ⟨hnil, hload⟩ | ⟨path, hbinary, hload⟩ | ⟨messages, -, hgather, hload⟩
  · rw [hload, hnil]
    exact iff_of_false (by rintro ⟨_, ⟨⟩⟩) (by rintro ⟨_, ⟨⟩⟩)
  · exact iff_of_true ⟨path, hload⟩ ⟨path, hbinary⟩
  · rw [hload]
    refine iff_of_false (by rintro ⟨_, ⟨⟩⟩) fun ⟨_, hbinary⟩ => ?_
    obtain ⟨_, htext⟩ := texts_of_gather_eq_ok hgather hbinary
    cases htext

theorem load_eq_ok_iff :
    (∃ b, src.load files name locale = .ok b ∧ b.resource = name ∧ b.locale = locale ∧
      src.Merges files (familyNames name locale) b) ↔
    src.found files name locale ≠ [] ∧
      ∀ path content, (path, content) ∈ src.found files name locale → ∃ s, content = .text s := by
  rcases src.load_cases files name locale with
    ⟨hnil, hload⟩ | ⟨path, hbinary, hload⟩ | ⟨messages, hne, hgather, hload⟩
  · rw [hload]
    exact iff_of_false (by rintro ⟨_, ⟨⟩, -⟩) fun ⟨hne, _⟩ => hne hnil
  · rw [hload]
    refine iff_of_false (by rintro ⟨_, ⟨⟩, -⟩) fun ⟨_, htexts⟩ => ?_
    obtain ⟨_, htext⟩ := htexts path _ hbinary
    cases htext
  · exact iff_of_true ⟨_, hload, rfl, rfl, merges_of_gather hgather⟩
      ⟨hne, fun _ _ hmem => texts_of_gather_eq_ok hgather hmem⟩

end Load

/-- Loading a family answers by the files consulted for its names. Without one it is not found, one
that is not text fails it, and otherwise a key has the message of the most specific file that
defines it. -/
theorem load_by_consulted_files (src : FileSource) (files : FileTree) (name : String)
    (locale : Option Locale) :
    let names := familyNames name locale
    let answer := src.load files name locale
    (answer = .error (notFound name locale) ↔
      ∀ file ∈ names, ∀ root ∈ src.roots, ¬files.HasFile (FilePath.join root file)) ∧
    ((∃ path, answer = .error (.unreadable path)) ↔
      ∃ file ∈ names, ∃ path, src.Consults files file path .binary) ∧
    (∀ path, answer = .error (.unreadable path) →
      ∃ file ∈ names, src.Consults files file path .binary) ∧
    ((∃ b, answer = .ok b ∧ b.resource = name ∧ b.locale = locale ∧ src.Merges files names b) ↔
      (∃ file ∈ names, ∃ path content, src.Consults files file path content) ∧
        ∀ file ∈ names, ∀ path content, src.Consults files file path content →
          ∃ text, content = .text text) := by
  intro names answer
  refine ⟨load_eq_notFound_iff.trans found_eq_nil_iff, ?_, ?_, ?_⟩
  · simp only [answer, load_eq_unreadable_iff, mem_found_iff]
    exact ⟨fun ⟨path, file, hfile, h⟩ => ⟨file, hfile, path, h⟩,
      fun ⟨file, hfile, path, h⟩ => ⟨path, file, hfile, h⟩⟩
  · intro path hpath
    rcases src.load_cases files name locale with
      ⟨-, hload⟩ | ⟨path', hbinary, hload⟩ | ⟨messages, -, -, hload⟩
    · cases hload.symm.trans hpath
    · cases hload.symm.trans hpath
      exact mem_found_iff.mp hbinary
    · cases hload.symm.trans hpath
  · refine load_eq_ok_iff.trans (and_congr found_ne_nil_iff ?_)
    simp only [mem_found_iff]
    exact ⟨fun h file hfile path content hconsults => h path content ⟨file, hfile, hconsults⟩,
      fun h path content ⟨file, hfile, hconsults⟩ => h file hfile path content hconsults⟩

/-- Messages in two directories, of which the first hides files of the second. -/
def orderFiles : FileTree
  | "over/App_en.properties" => some (.text "title=Your orders\nnote=Check them")
  | "over/App_en_US.properties" => some .directory
  | "base/App.properties" => some (.text "title=Orders\nhelp=Call us")
  | "base/App_en.properties" => some (.text "title=Hidden\nhidden=yes")
  | "base/App_en_US.properties" => some (.text "title=US orders")
  | "base/App_fr.properties" => some .binary
  | _ => none

/-- The narrower file of the second directory counts against the wider one of the first. -/
theorem load_by_consulted_files_of_two_roots :
    let src : FileSource := ⟨["over", "base"], 64⟩
    let locale : Locale := ⟨"en", some "US", some "x"⟩
    let names := ["App_en_US_x.properties", "App_en_US.properties", "App_en.properties",
      "App.properties"]
    let b : Bundle := ⟨"App", some locale,
      [("help", "Call us"), ("note", "Check them"), ("title", "US orders")]⟩
    familyNames "App" (some locale) = names ∧
      src.load orderFiles "App" (some locale) = .ok b ∧ src.Merges orderFiles names b ∧
      src.load orderFiles "App" (some ⟨"fr", none, none⟩) =
        .error (.unreadable "base/App_fr.properties") ∧
      (∃ file ∈ ["App_fr.properties", "App.properties"],
        src.Consults orderFiles file "base/App_fr.properties" .binary) ∧
      src.load orderFiles "Shop" none = .error (.notFound "Shop" "none") ∧
      ∀ root ∈ src.roots, ¬orderFiles.HasFile (FilePath.join root "Shop.properties") := by
  intro src locale names b
  have hnames : familyNames "App" (some locale) = names := by decide +kernel
  have hload : src.load orderFiles "App" (some locale) = .ok b := by decide +kernel
  have hbinary : src.load orderFiles "App" (some ⟨"fr", none, none⟩) =
    .error (.unreadable "base/App_fr.properties") := by decide +kernel
  have hmissing : src.load orderFiles "Shop" none = .error (.notFound "Shop" "none") := by
    decide +kernel
  obtain ⟨-, hunreadable, -, hok⟩ := load_by_consulted_files src orderFiles "App" (some locale)
  rw [hnames] at hunreadable hok
  have hbase : src.Consults orderFiles "App.properties" "base/App.properties"
      (.text "title=Orders\nhelp=Call us") := by
    refine ⟨["over"], "base", [], rfl, by decide, rfl, rfl, fun r hr => ?_⟩
    obtain rfl := List.mem_singleton.mp hr
    exact fun ⟨_, hsome, _⟩ => absurd hsome (by decide +revert)
  have htexts : ∀ file ∈ names, ∀ path content, src.Consults orderFiles file path content →
      ∃ text, content = .text text := by
    intro file hfile path content hconsults
    cases content with
    | text s => exact ⟨s, rfl⟩
    | binary =>
      obtain ⟨_, herror⟩ := hunreadable.mpr ⟨file, hfile, path, hconsults⟩
      cases hload.symm.trans herror
    | directory =>
      obtain ⟨_, _, _, -, -, -, hfile, -⟩ := hconsults
      cases hfile
  obtain ⟨_, hb, -, -, hmerges⟩ := hok.mpr ⟨⟨_, by decide, _, _, hbase⟩, htexts⟩
  obtain rfl := Except.ok.inj (hload.symm.trans hb)
  refine ⟨hnames, hload, hmerges, hbinary, ?_, hmissing, ?_⟩
  · exact (load_by_consulted_files src orderFiles "App" _).2.2.1 _ hbinary
  · exact (load_by_consulted_files src orderFiles "Shop" none).1.mp hmissing _ (by decide)

end FileSource
end ScreenActions

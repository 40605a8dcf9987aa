import ScreenActions.Messages.Source
import ScreenActions.Proofs.BundleCache
import ScreenActions.Proofs.KeyedOrder

/-!
A family of message layers in memory and in files. Both sources lay the layers of a locale over each
other and answer alike, unless the family has layers and none of them counts for the locale.
-/

namespace ScreenActions

open Messages

/-- The layers of a resource under their locale tags, the base under the empty one. -/
structure LayerFamily where
  layers : Keyed (Keyed String)
  orderedTags : Keyed.Ordered layers
  orderedKeys : ∀ e ∈ layers, Keyed.Ordered e.2

namespace LayerFamily

/-- The family whose layers the texts are read as. -/
def parsed (texts : Keyed String) (h : Keyed.Ordered texts) : LayerFamily where
  layers := Keyed.mapValues Properties.parse texts
  orderedTags := h.mapValues _
  orderedKeys e he := by
    obtain ⟨⟨tag, text⟩, -, rfl⟩ := List.mem_map.mp he
    exact Keyed.ordered_ofEntries _

/-- The layers that count for a locale, from the base to the most specific one. -/
def layersOf (family : LayerFamily) (locale : Option Locale) : List (Keyed String) :=
  (tags locale).filterMap (Keyed.get? family.layers)

/-- One of the layers counts for the locale. -/
def Serves (family : LayerFamily) (locale : Option Locale) : Prop :=
  ∃ tag ∈ tags locale, Keyed.contains family.layers tag = true

variable {family : LayerFamily}

theorem ordered_of_get? {tag : String} {layer : Keyed String}
    (h : Keyed.get? family.layers tag = some layer) : Keyed.Ordered layer :=
  family.orderedKeys _ (Keyed.mem_of_get? h)

theorem ordered_of_mem_layersOf {locale : Option Locale} :
    ∀ l ∈ family.layersOf locale, Keyed.Ordered l := by
  intro l hl
  obtain ⟨tag, -, hlayer⟩ := List.mem_filterMap.mp hl
  exact ordered_of_get? hlayer

theorem serves_iff {locale : Option Locale} :
    family.Serves locale ↔ family.layersOf locale ≠ [] := by
  unfold Serves layersOf Keyed.contains
  simp [Option.isSome_iff_ne_none]

end LayerFamily

namespace MemorySource

/-- The source in which the layers of one resource are registered. -/
def ofFamily (resource : String) (family : LayerFamily) : MemorySource :=
  family.layers.foldl (fun m layer => insert m resource layer.1 layer.2) []

theorem insert_fresh {resource tag : String} {layers : Keyed (Keyed String)} {layer : Keyed String}
    (htag : Keyed.get? (Keyed.ofEntries layers) tag = none) (hlayer : Keyed.Ordered layer) :
    insert (if layers = [] then [] else [(resourceName resource, Keyed.ofEntries layers)])
      resource tag layer =
        [(resourceName resource, Keyed.insert tag layer (Keyed.ofEntries layers))] := by
  have hextend := Keyed.extend_nil hlayer
  by_cases hnil : layers = []
  · subst hnil
    simp [insert, Keyed.get?, Keyed.insert, Keyed.ofEntries, hextend]
  · simp [insert, Keyed.get?, Keyed.insert, hnil, htag, hextend]

theorem foldl_insert (resource : String) {layers : Keyed (Keyed String)}
    (hkeys : (layers.map Prod.fst).Nodup) (hlayers : ∀ e ∈ layers, Keyed.Ordered e.2) :
    layers.foldl (fun m layer => insert m resource layer.1 layer.2) [] =
      if layers = [] then [] else [(resourceName resource, Keyed.ofEntries layers)] := by
  induction layers using List.reverseRecOn with
  | nil => rfl
  | append_singleton layers e ih =>
    rw [List.map_append, List.nodup_append] at hkeys
    obtain ⟨hlayers, hlayer⟩ := List.forall_mem_append.mp hlayers
    have hfresh : Keyed.get? (Keyed.ofEntries layers) e.1 = none := by
      rw [Keyed.get?_ofEntries, Keyed.get?_eq_none_iff]
      exact fun e' he' =>
        hkeys.2.2 _ (List.mem_map_of_mem (List.mem_reverse.mp he')) _ List.mem_cons_self
    rw [List.foldl_concat, ih hkeys.1 hlayers, insert_fresh hfresh (hlayer e List.mem_cons_self),
      Keyed.ofEntries_concat, if_neg (by simp)]

/-- The source keeps the family as it is, and knows nothing of a family without layers. -/
theorem ofFamily_eq (resource : String) (family : LayerFamily) : ofFamily resource family =
    if family.layers = [] then [] else [(resourceName resource, family.layers)] := by
  rw [ofFamily, foldl_insert resource family.orderedTags.nodup family.orderedKeys,
    Keyed.ofEntries_of_ordered family.orderedTags]

theorem bundle_ofFamily (resource : String) (family : LayerFamily) (locale : Option Locale) :
    (ofFamily resource family).bundle resource locale =
      if family.layers = [] then .error (notFound (resourceName resource) locale)
      else .ok ⟨resourceName resource, locale, (family.layersOf locale).foldl Keyed.extend []⟩ := by
  unfold bundle
  rw [ofFamily_eq]
  split
  · rfl
  · simp [Keyed.get?, LayerFamily.layersOf]

end MemorySource

namespace FileSource

/-- The file name of a layer. -/
def layerFile (name tag : String) : String :=
  if tag = "" then name ++ fileSuffix else name ++ "_" ++ tag ++ fileSuffix

/-- In the directory stands a file for each layer of the family, which parses to that layer, and no
other file of the resource. -/
structure HoldsFamily (files : FileTree) (root name : String) (family : LayerFamily) : Prop where
  text_of_layer : ∀ tag layer, Keyed.get? family.layers tag = some layer →
    ∃ text, files (FilePath.join root (layerFile name tag)) = some (.text text) ∧
      Properties.parse text = layer
  base_of_file : ∀ content, files (FilePath.join root (name ++ fileSuffix)) = some content →
    content.isFile = true → Keyed.contains family.layers "" = true
  layer_of_file : ∀ tag content,
    files (FilePath.join root (name ++ "_" ++ tag ++ fileSuffix)) = some content →
      content.isFile = true → tag ≠ "" ∧ Keyed.contains family.layers tag = true

/-- The layer that a file is read as. -/
def layer? (file : String × FileContent) : Option (Keyed String) :=
  file.2.text?.map Properties.parse

theorem layerFile_base (name : String) : layerFile name "" = name ++ fileSuffix :=
  if_pos rfl

theorem layerFile_of_ne {tag : String} (h : tag ≠ "") (name : String) :
    layerFile name tag = name ++ "_" ++ tag ++ fileSuffix :=
  if_neg h

theorem gather_of_layers {found : List (String × FileContent)} {layers : List (Keyed String)}
    (h : found.map layer? = layers.map some) :
    gather found = .ok (layers.foldr Keyed.extend []) := by
  induction found generalizing layers with
  | nil =>
    obtain rfl : layers = [] := by simpa using h.symm
    rfl
  | cons file found ih =>
    obtain ⟨path, content⟩ := file
    obtain _ | ⟨layer, layers⟩ := layers
    · cases h
    · obtain ⟨hlayer, hfound⟩ := List.cons.inj h
      obtain ⟨text, htext, rfl⟩ := Option.map_eq_some_iff.mp hlayer
      simp only [gather, htext, ih hfound]
      rfl

section Family

variable {files : FileTree} {root name : String} {family : LayerFamily} {size : Nat}

theorem HoldsFamily.find?_layerFile (h : HoldsFamily files root name family) (tag : String) :
    (find? ⟨[root], size⟩ files (layerFile name tag)).map layer? =
      (Keyed.get? family.layers tag).map some := by
  have hfind : find? ⟨[root], size⟩ files (layerFile name tag) =
      ((files (FilePath.join root (layerFile name tag))).filter FileContent.isFile).map
        fun content => (FilePath.join root (layerFile name tag), content) := by
    simp [find?]
  rw [hfind]
  cases hlayer : Keyed.get? family.layers tag with
  | some layer =>
    obtain ⟨text, htext, rfl⟩ := h.text_of_layer tag layer hlayer
    rw [htext]
    rfl
  | none =>
    have hmissing : ¬Keyed.contains family.layers tag = true := by
      rw [Keyed.contains, hlayer]
      exact Bool.false_ne_true
    have hnone : (files (FilePath.join root (layerFile name tag))).filter FileContent.isFile =
        none := by
      rw [Option.filter_eq_none_iff]
      intro content hcontent hfile
      by_cases htag : tag = ""
      · subst htag
        rw [layerFile_base] at hcontent
        exact hmissing (h.base_of_file content hcontent hfile)
      · rw [layerFile_of_ne htag] at hcontent
        exact hmissing (h.layer_of_file tag content hcontent hfile).2
    rw [hnone]
    rfl

/-- A file name that is set off for a tag and goes on without one is not that of a layer. -/
theorem HoldsFamily.find?_underscore (h : HoldsFamily files root name family) :
    find? ⟨[root], size⟩ files (name ++ "_" ++ fileSuffix) = none := by
  have hnone : (files (FilePath.join root (name ++ "_" ++ fileSuffix))).filter FileContent.isFile =
      none := by
    rw [Option.filter_eq_none_iff]
    intro content hcontent hfile
    exact (h.layer_of_file "" content (by rwa [String.append_empty]) hfile).1 rfl
  simp [find?, hnone]

/-- The file names of a family are those of the tags, but for a language without letters, whose tag
is that of the base. -/
theorem fileNames_cases (name : String) (locale : Option Locale) : ∃ narrow,
    (tags locale = "" :: narrow ∧ fileNames name locale = ("" :: narrow).map (layerFile name)) ∨
    (tags locale = "" :: "" :: narrow ∧ fileNames name locale =
      layerFile name "" :: (name ++ "_" ++ fileSuffix) :: narrow.map (layerFile name)) := by
  have hbase : name ++ "" ++ fileSuffix = layerFile name "" := by
    rw [layerFile_base, String.append_empty]
  have hlayer : ∀ {tag : String}, tag ≠ "" → name ++ ("_" ++ tag) ++ fileSuffix =
      layerFile name tag := by
    intro tag htag
    rw [layerFile_of_ne htag, ← String.append_assoc]
  obtain _ | ⟨language, country, variant⟩ := locale
  · exact ⟨[], .inl ⟨rfl, congrArg (fun file => [file]) hbase⟩⟩
  -- The tags above the language have a separator in them.
  obtain ⟨narrow, hcandidates, hnarrow⟩ : ∃ narrow : List String,
      (Locale.mk language country variant).candidates.reverse = language :: narrow ∧
        ∀ tag ∈ narrow, tag ≠ "" := by
    cases country <;> cases variant <;> simp [Locale.candidates]
  have hfiles : (narrow.map ("_" ++ ·)).map (fun suffix => name ++ suffix ++ fileSuffix) =
      narrow.map (layerFile name) := by
    rw [List.map_map]
    exact List.map_congr_left fun tag htag => hlayer (hnarrow tag htag)
  by_cases hlanguage : language = ""
  · subst hlanguage
    refine ⟨narrow, .inr ⟨?_, ?_⟩⟩
    · simp only [tags, hcandidates]
    · simp only [fileNames, hcandidates, List.map_cons, hfiles, hbase]
      rfl
  · refine ⟨language :: narrow, .inl ⟨?_, ?_⟩⟩
    · simp only [tags, hcandidates]
    · simp only [fileNames, hcandidates, List.map_cons, hfiles, hbase, hlayer hlanguage]

/-- The files found are those of the layers that count, the base once. -/
theorem HoldsFamily.exists_layers (h : HoldsFamily files root name family) (size : Nat)
    (locale : Option Locale) : ∃ layers : List (Keyed String),
      ((fileNames name locale).filterMap (find? ⟨[root], size⟩ files)).map layer? =
        layers.map some ∧
      (∀ l ∈ layers, Keyed.Ordered l) ∧ (layers = [] ↔ family.layersOf locale = []) ∧
      layers.foldl Keyed.extend [] = (family.layersOf locale).foldl Keyed.extend [] := by
  have hfound : ∀ tags : List String,
      ((tags.map (layerFile name)).filterMap (find? ⟨[root], size⟩ files)).map layer? =
        (tags.filterMap (Keyed.get? family.layers)).map some := by
    intro tags
    simp only [List.filterMap_map, List.map_filterMap, Function.comp_def, h.find?_layerFile]
  obtain ⟨narrow, ⟨htags, hnames⟩ | ⟨htags, hnames⟩⟩ := fileNames_cases name locale
  · refine ⟨family.layersOf locale, ?_, LayerFamily.ordered_of_mem_layersOf, Iff.rfl, rfl⟩
    rw [hnames, hfound, LayerFamily.layersOf, htags]
  · have hnames' : (fileNames name locale).filterMap (find? ⟨[root], size⟩ files) =
        (("" :: narrow).map (layerFile name)).filterMap (find? ⟨[root], size⟩ files) := by
      rw [hnames, List.map_cons, List.filterMap_cons, List.filterMap_cons, List.filterMap_cons,
        h.find?_underscore]
    have hlayers : family.layersOf locale =
        (Keyed.get? family.layers "").toList ++
          ("" :: narrow).filterMap (Keyed.get? family.layers) := by
      rw [LayerFamily.layersOf, htags, List.filterMap_cons]
      cases Keyed.get? family.layers "" <;> rfl
    refine ⟨("" :: narrow).filterMap (Keyed.get? family.layers), ?_, ?_, ?_, ?_⟩
    · rw [hnames', hfound]
    · intro l hl
      exact LayerFamily.ordered_of_mem_layersOf l (hlayers ▸ List.mem_append_right _ hl)
    · rw [hlayers, List.filterMap_cons]
      cases Keyed.get? family.layers "" <;> simp
    · rw [hlayers, List.filterMap_cons]
      cases hbase : Keyed.get? family.layers "" with
      | none => rfl
      | some base =>
        have hordered : Keyed.Ordered base := LayerFamily.ordered_of_get? hbase
        simp only [Option.toList_some, List.singleton_append, List.foldl_cons,
          Keyed.extend_nil hordered, Keyed.extend_self hordered]

theorem HoldsFamily.load_eq (h : HoldsFamily files root name family) (size : Nat)
    (locale : Option Locale) : load ⟨[root], size⟩ files name locale =
      if family.layersOf locale = [] then .error (notFound name locale)
      else .ok ⟨name, locale, (family.layersOf locale).foldl Keyed.extend []⟩ := by
  obtain ⟨layers, hfound, hordered, hnil, hfold⟩ := h.exists_layers size locale
  have hempty : ((fileNames name locale).filterMap (find? ⟨[root], size⟩ files)).isEmpty = true ↔
      family.layersOf locale = [] := by
    rw [← hnil, List.isEmpty_iff, ← List.map_eq_nil_iff (f := layer?), hfound, List.map_eq_nil_iff]
  simp only [load, hempty, gather_of_layers hfound, Keyed.foldr_extend_eq_foldl hordered, hfold]
  rfl

end Family

section FamilyTree

variable (root name : String) (texts : Keyed String)

/-- The directory of a family whose layers are written as the texts. -/
def familyTree : FileTree := fun path =>
  texts.findSome? fun e =>
    if FilePath.join root (layerFile name e.1) = path then some (.text e.2) else none

theorem join_inj {dir path path' : String}
    (habsolute : FilePath.isAbsolute path = FilePath.isAbsolute path')
    (h : FilePath.join dir path = FilePath.join dir path') : path = path' := by
  unfold FilePath.join at h
  rw [habsolute] at h
  split at h
  · exact h
  · split at h <;> exact (String.append_right_inj _).mp h

theorem isAbsolute_append {c : Char} (hc : c ≠ '/') (rest : String) :
    FilePath.isAbsolute (name ++ (String.singleton c ++ rest)) = FilePath.isAbsolute name := by
  unfold FilePath.isAbsolute
  rw [String.toList_append, String.toList_append]
  cases name.toList with
  | nil => simp [Text.startsWith, Text.stripLead?, Ne.symm hc]
  | cons first cs =>
    simp only [List.cons_append, Text.startsWith, Text.stripLead?]
    split <;> rfl

theorem isAbsolute_layerFile (tag : String) :
    FilePath.isAbsolute (layerFile name tag) = FilePath.isAbsolute name := by
  by_cases htag : tag = ""
  · subst htag
    rw [layerFile_base]
    exact isAbsolute_append name (c := '.') (by decide) "properties"
  · rw [layerFile_of_ne htag, String.append_assoc, String.append_assoc]
    exact isAbsolute_append name (c := '_') (by decide) (tag ++ fileSuffix)

variable {root name}

theorem eq_of_layerFile_eq {tag tag' : String} (h : layerFile name tag = layerFile name tag') :
    tag = tag' := by
  -- The file of a tag is longer than the one of the base.
  have hlength := congrArg String.length h
  have hmark : "_".length = 1 := rfl
  by_cases htag : tag = "" <;> by_cases htag' : tag' = ""
  · rw [htag, htag']
  · rw [htag, layerFile_base, layerFile_of_ne htag'] at hlength
    simp only [String.length_append] at hlength
    omega
  · rw [htag', layerFile_base, layerFile_of_ne htag] at hlength
    simp only [String.length_append] at hlength
    omega
  · rw [layerFile_of_ne htag, layerFile_of_ne htag'] at h
    exact (String.append_right_inj _).mp ((String.append_left_inj _).mp h)

theorem layerFile_ne_underscore (tag : String) :
    layerFile name tag ≠ name ++ "_" ++ fileSuffix := by
  intro h
  have hlength := congrArg String.length h
  by_cases htag : tag = ""
  · rw [htag, layerFile_base] at hlength
    simp at hlength
  · rw [layerFile_of_ne htag] at hlength
    exact htag (by simpa using hlength)

theorem eq_of_join_layerFile {tag tag' : String}
    (h : FilePath.join root (layerFile name tag) = FilePath.join root (layerFile name tag')) :
    tag = tag' :=
  eq_of_layerFile_eq
    (join_inj ((isAbsolute_layerFile name tag).trans (isAbsolute_layerFile name tag').symm) h)

theorem join_layerFile_ne_underscore (tag : String) : FilePath.join root (layerFile name tag) ≠
    FilePath.join root (name ++ "_" ++ fileSuffix) := by
  have habsolute : FilePath.isAbsolute (name ++ "_" ++ fileSuffix) = FilePath.isAbsolute name := by
    rw [String.append_assoc]
    exact isAbsolute_append name (c := '_') (by decide) fileSuffix
  exact fun h => layerFile_ne_underscore tag
    (join_inj ((isAbsolute_layerFile name tag).trans habsolute.symm) h)

variable (root name)

theorem familyTree_layerFile (tag : String) :
    familyTree root name texts (FilePath.join root (layerFile name tag)) =
      (Keyed.get? texts tag).map .text := by
  unfold familyTree
  induction texts with
  | nil => rfl
  | cons e texts ih =>
    rw [List.findSome?_cons, Keyed.get?]
    by_cases htag : e.1 = tag
    · rw [if_pos (by rw [htag]), if_pos htag]
      rfl
    · rw [if_neg fun h => htag (eq_of_join_layerFile h), if_neg htag]
      exact ih

theorem familyTree_underscore :
    familyTree root name texts (FilePath.join root (name ++ "_" ++ fileSuffix)) = none := by
  rw [familyTree, List.findSome?_eq_none_iff]
  exact fun e _ => if_neg (join_layerFile_ne_underscore e.1)

theorem holdsFamily_familyTree (h : Keyed.Ordered texts) :
    HoldsFamily (familyTree root name texts) root name (.parsed texts h) := by
  have hget : ∀ tag, Keyed.get? (LayerFamily.parsed texts h).layers tag =
      (Keyed.get? texts tag).map Properties.parse := Keyed.get?_mapValues _ _
  have hcontains : ∀ tag content,
      familyTree root name texts (FilePath.join root (layerFile name tag)) = some content →
        Keyed.contains (LayerFamily.parsed texts h).layers tag = true := by
    intro tag content hcontent
    rw [familyTree_layerFile] at hcontent
    obtain ⟨text, htext, -⟩ := Option.map_eq_some_iff.mp hcontent
    rw [Keyed.contains, hget, htext]
    rfl
  constructor
  · intro tag layer hlayer
    rw [hget] at hlayer
    obtain ⟨text, htext, rfl⟩ := Option.map_eq_some_iff.mp hlayer
    exact ⟨text, by rw [familyTree_layerFile, htext]; rfl, rfl⟩
  · intro content hcontent _
    exact hcontains "" content (by rwa [layerFile_base])
  · intro tag content hcontent _
    by_cases htag : tag = ""
    · subst htag
      rw [String.append_empty, familyTree_underscore] at hcontent
      cases hcontent
    · exact ⟨htag, hcontains tag content (by rwa [layerFile_of_ne htag])⟩

end FamilyTree

/-- A source that has answered no request yet loads what is asked for. -/
theorem bundle_empty_cache (src : FileSource) (files : FileTree) (resource : String)
    (locale : Option Locale) : ((src.source files).bundle resource locale {}).1 =
      src.load files (resourceName resource) locale := by
  have hmiss : src.request files resource locale {} = _ :=
    request_of_miss (r := ⟨resource, locale⟩) rfl
  have hanswer : src.answer files ⟨resource, locale⟩ =
      src.load files (resourceName resource) locale := rfl
  change ((src.request files resource locale {}).1.map LoadedBundle.bundle) = _
  rw [hmiss, hanswer]
  cases src.load files (resourceName resource) locale <;> rfl

/-- The first answer of the files is that of the memory exactly if the family has no layer at all or
one that counts for the locale. In any other case the memory answers with no messages, and the
files are not found. -/
theorem bundle_eq_memory_bundle_iff {ω : Type} {files : FileTree} {root resource : String}
    {family : LayerFamily}
    (h : HoldsFamily files root (resourceName resource) family) (size : Nat)
    (locale : Option Locale) (w : ω) :
    let memory := (((MemorySource.ofFamily resource family).source ω).bundle resource locale w).1
    let file := (((⟨[root], size⟩ : FileSource).source files).bundle resource locale {}).1
    (file = memory ↔ family.layers = [] ∨ family.Serves locale) ∧
      (family.layers ≠ [] → ¬family.Serves locale →
        memory = .ok ⟨resourceName resource, locale, []⟩ ∧
          file = .error (notFound (resourceName resource) locale)) := by
  intro memory file
  have hmemory : memory =
      if family.layers = [] then .error (notFound (resourceName resource) locale)
      else .ok ⟨resourceName resource, locale, (family.layersOf locale).foldl Keyed.extend []⟩ :=
    MemorySource.bundle_ofFamily resource family locale
  have hfile : file = if family.layersOf locale = [] then
      .error (notFound (resourceName resource) locale)
      else .ok ⟨resourceName resource, locale, (family.layersOf locale).foldl Keyed.extend []⟩ :=
    (bundle_empty_cache _ files resource locale).trans (h.load_eq size locale)
  rw [LayerFamily.serves_iff]
  by_cases hnone : family.layers = []
  · have hlayers : family.layersOf locale = [] := by
      rw [LayerFamily.layersOf, hnone, List.filterMap_eq_nil_iff]
      exact fun _ _ => rfl
    rw [if_pos hnone] at hmemory
    rw [if_pos hlayers] at hfile
    exact ⟨iff_of_true (hfile.trans hmemory.symm) (.inl hnone), fun h => absurd hnone h⟩
  rw [if_neg hnone] at hmemory
  by_cases hlayers : family.layersOf locale = []
  · rw [if_pos hlayers] at hfile
    rw [hlayers] at hmemory
    have hdiffer : file ≠ memory := by
      rw [hfile, hmemory]
      nofun
    exact ⟨iff_of_false hdiffer (by simp [hnone, hlayers]), fun _ _ => ⟨hmemory, hfile⟩⟩
  · rw [if_neg hlayers] at hfile
    exact ⟨iff_of_true (hfile.trans hmemory.symm) (.inr hlayers), fun _ h => absurd hlayers h⟩

theorem bundle_eq_memory_bundle_iff_base_and_country :
    let texts : Keyed String := [("", "bye=Bye\ngreet=Hello"), ("fr_CA", "greet=Allo")]
    let family := LayerFamily.parsed texts (List.pairwise_pair.mpr (by decide))
    let files := familyTree "labels" "App" texts
    let memory := (((MemorySource.ofFamily "App.properties" family).source Unit).bundle
      "App.properties" (Locale.ofTag? "fr-CA") ()).1
    HoldsFamily files "labels" (resourceName "App.properties") family ∧
      family.Serves (Locale.ofTag? "fr-CA") ∧
      memory = .ok ⟨"App", Locale.ofTag? "fr-CA", [("bye", "Bye"), ("greet", "Allo")]⟩ ∧
      (((⟨["labels"], 4⟩ : FileSource).source files).bundle
        "App.properties" (Locale.ofTag? "fr-CA") {}).1 = memory := by
  intro texts family files memory
  have hname : resourceName "App.properties" = "App" := by decide
  have hfiles : HoldsFamily files "labels" (resourceName "App.properties") family := by
    rw [hname]
    exact holdsFamily_familyTree "labels" "App" texts _
  have hserves : family.Serves (Locale.ofTag? "fr-CA") := ⟨"", by decide, by decide⟩
  exact ⟨hfiles, hserves, by decide,
    (bundle_eq_memory_bundle_iff hfiles 4 (Locale.ofTag? "fr-CA") ()).1.mpr (.inr hserves)⟩

/-- A family with no base and with a layer for one language, of which no bundle without a locale is
found in files, while the memory answers with an empty one. -/
theorem bundle_ne_memory_bundle_without_base :
    let texts : Keyed String := [("fr", "greet=Bonjour")]
    let family := LayerFamily.parsed texts (List.pairwise_singleton _ _)
    let files := familyTree "labels" "App" texts
    HoldsFamily files "labels" (resourceName "App") family ∧
      (((MemorySource.ofFamily "App" family).source Unit).bundle "App" none ()).1 =
        .ok ⟨"App", none, []⟩ ∧
      (((⟨["labels"], 4⟩ : FileSource).source files).bundle "App" none {}).1 =
        .error (.notFound "App" "none") := by
  intro texts family files
  have hname : resourceName "App" = "App" := by decide
  refine ⟨?_, by decide, by decide⟩
  rw [hname]
  exact holdsFamily_familyTree "labels" "App" texts _

end FileSource
end ScreenActions

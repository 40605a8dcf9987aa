import ScreenActions.Messages.Source

/-!
Bundles answered from a cache. An entry of the cache holds what an earlier request under the same
name and label loads, so the answers are those without a cache exactly as long as no two locales
asked for share a label.
-/

namespace ScreenActions

open Messages

/-- A bundle asked for by resource and locale. -/
structure BundleRequest where
  resource : String
  locale : Option Locale
  deriving DecidableEq, Repr

namespace BundleRequest

def name (r : BundleRequest) : String := resourceName r.resource

/-- What the cache tells requests apart by. -/
def key (r : BundleRequest) : String × String := (r.name, localeLabel r.locale)

theorem name_eq_of_key_eq {r r' : BundleRequest} (h : r.key = r'.key) : r.name = r'.name :=
  congrArg Prod.fst h

end BundleRequest

namespace BundleCache

theorem mem_of_use {c c' : BundleCache} {key : String × String} {loaded : LoadedBundle}
    (h : c.use key = some (loaded, c')) : (key, loaded) ∈ c.entries := by
  obtain ⟨e, he, h⟩ := Option.map_eq_some_iff.mp h
  obtain ⟨rfl, -⟩ := Prod.mk.inj h
  have hk : e.1 = key := by simpa using List.find?_some he
  rw [← hk]
  exact List.mem_of_find?_eq_some he

/-- A hit moves an entry to the front and drops none. -/
theorem mem_entries_of_use {c c' : BundleCache} {key : String × String} {loaded : LoadedBundle}
    (h : c.use key = some (loaded, c')) {e : (String × String) × LoadedBundle}
    (he : e ∈ c'.entries) : e ∈ c.entries := by
  obtain ⟨e', he', h⟩ := Option.map_eq_some_iff.mp h
  obtain ⟨-, rfl⟩ := Prod.mk.inj h
  rcases List.mem_cons.mp he with rfl | he
  · exact List.mem_of_find?_eq_some he'
  · exact (List.mem_filter.mp he).1

theorem mem_entries_of_load {c : BundleCache} {size : Nat} {key : String × String} {b : Bundle}
    {e : (String × String) × LoadedBundle} (he : e ∈ (c.load size key b).2.entries) :
    e = (key, (c.load size key b).1) ∨ e ∈ c.entries := by
  rcases List.mem_cons.mp (List.mem_of_mem_take he) with rfl | he
  · exact .inl rfl
  · exact .inr (List.mem_filter.mp he).1

/-- At least the entry that was just loaded stays. -/
theorem use_load (c : BundleCache) (size : Nat) (key : String × String) (b : Bundle) :
    ∃ c', (c.load size key b).2.use key = some (⟨c.loads, b⟩, c') := by
  have hs : max 1 size = (max 1 size - 1) + 1 := by omega
  simp only [load, use]
  rw [hs, List.take_succ_cons, List.find?_cons_of_pos (by simp)]
  exact ⟨_, rfl⟩

end BundleCache

namespace FileSource

variable (src : FileSource) (files : FileTree)

/-- The answer to a request without a cache. -/
def answer (r : BundleRequest) : Except PropertyError Bundle := src.load files r.name r.locale

/-- The answers to requests made one after the other on one cache. -/
def answers (cache : BundleCache) : List BundleRequest → List (Except PropertyError Bundle)
  | [] => []
  | r :: rest =>
      let (found, cache) := src.request files r.resource r.locale cache
      found.map LoadedBundle.bundle :: answers cache rest

/-- Each entry of a cache holds the answer to a request of `Q` under its key. -/
def Backed (Q : BundleRequest → Prop) (cache : BundleCache) : Prop :=
  ∀ e ∈ cache.entries, ∃ r, Q r ∧ r.key = e.1 ∧ src.answer files r = .ok e.2.bundle

theorem backed_empty (Q : BundleRequest → Prop) : Backed src files Q {} := by
  intro e he
  cases he

variable {src files}

theorem request_of_hit {r : BundleRequest} {cache cache' : BundleCache} {loaded : LoadedBundle}
    (h : cache.use r.key = some (loaded, cache')) :
    src.request files r.resource r.locale cache = (.ok loaded, cache') := by
  unfold BundleRequest.key BundleRequest.name at h
  simp only [request, h]

theorem request_of_miss {r : BundleRequest} {cache : BundleCache} (h : cache.use r.key = none) :
    src.request files r.resource r.locale cache = match src.answer files r with
      | .error e => (.error e, cache)
      | .ok b =>
        (.ok (cache.load src.cacheSize r.key b).1, (cache.load src.cacheSize r.key b).2) := by
  unfold BundleRequest.key BundleRequest.name at h
  simp only [request, h]
  rfl

/-- An answer is that of a request under the same key, and entries stay answers. -/
theorem request_backed {Q : BundleRequest → Prop} {cache : BundleCache} {r : BundleRequest}
    (hc : Backed src files Q cache) (hr : Q r) :
    (∃ r', Q r' ∧ r'.key = r.key ∧
      (src.request files r.resource r.locale cache).1.map LoadedBundle.bundle =
        src.answer files r') ∧
      Backed src files Q (src.request files r.resource r.locale cache).2 := by
  cases hu : cache.use r.key with
  | some hit =>
    obtain ⟨loaded, cache'⟩ := hit
    rw [request_of_hit hu]
    obtain ⟨r', hr', hk, ha⟩ := hc _ (BundleCache.mem_of_use hu)
    exact ⟨⟨r', hr', hk, ha.symm⟩, fun e he => hc e (BundleCache.mem_entries_of_use hu he)⟩
  | none =>
    rw [request_of_miss hu]
    cases ha : src.answer files r with
    | error e => exact ⟨⟨r, hr, rfl, ha.symm⟩, hc⟩
    | ok b =>
      refine ⟨⟨r, hr, rfl, ha.symm⟩, fun e he => ?_⟩
      rcases BundleCache.mem_entries_of_load he with rfl | he
      · exact ⟨r, hr, rfl, ha⟩
      · exact hc e he

/-- Requests told apart by their keys are answered as without a cache. -/
theorem answers_eq_of_backed {Q : BundleRequest → Prop}
    (hQ : ∀ r r', Q r → Q r' → r.key = r'.key → r.locale = r'.locale) {cache : BundleCache}
    (hc : Backed src files Q cache) {requests : List BundleRequest} (hr : ∀ r ∈ requests, Q r) :
    src.answers files cache requests = requests.map (src.answer files) := by
  induction requests generalizing cache with
  | nil => rfl
  | cons r rest ih =>
    obtain ⟨hr, hrest⟩ := List.forall_mem_cons.mp hr
    obtain ⟨⟨r', hr', hk, ha⟩, hc'⟩ := request_backed hc hr
    have hsame : src.answer files r' = src.answer files r := by
      unfold answer
      rw [BundleRequest.name_eq_of_key_eq hk, hQ r' r hr' hr hk]
    simp only [answers, List.map_cons, ha, hsame, ih hc' hrest]

theorem locale_of_load {name : String} {locale : Option Locale} {b : Bundle}
    (h : src.load files name locale = .ok b) : b.locale = locale := by
  simp only [load] at h
  split at h
  · cases h
  · cases hg : gather ((fileNames name locale).filterMap (src.find? files)) with
    | error e => rw [hg] at h; cases h
    | ok messages => rw [hg] at h; cases h; rfl

/-- A second request under the key of the first one gets the bundle of the first one. -/
theorem answers_pair {r r' : BundleRequest} {b : Bundle} (hk : r.key = r'.key)
    (hb : src.answer files r = .ok b) : src.answers files {} [r, r'] = [.ok b, .ok b] := by
  have hm : BundleCache.use {} r.key = none := rfl
  obtain ⟨cache', hu⟩ := BundleCache.use_load {} src.cacheSize r.key b
  have hu' : (BundleCache.load {} src.cacheSize r.key b).2.use r'.key = some (⟨0, b⟩, cache') := by
    rw [← hk]
    exact hu
  simp only [answers, request_of_miss hm, hb, request_of_hit hu']
  rfl

theorem content_of_find? {name path : String} {content : FileContent}
    (h : src.find? files name = some (path, content)) : files path = some content := by
  obtain ⟨root, -, h⟩ := List.exists_of_findSome?_eq_some h
  obtain ⟨found, hf, h⟩ := Option.map_eq_some_iff.mp h
  obtain ⟨rfl, rfl⟩ := Prod.mk.inj h
  exact (Option.filter_eq_some_iff.mp hf).1

theorem gather_of_texts {found : List (String × FileContent)}
    (h : ∀ e ∈ found, ∃ s, e.2 = .text s) : ∃ messages, gather found = .ok messages := by
  induction found with
  | nil => exact ⟨[], rfl⟩
  | cons e rest ih =>
    obtain ⟨path, content⟩ := e
    obtain ⟨⟨s, rfl⟩, hrest⟩ := List.forall_mem_cons.mp h
    obtain ⟨upper, hu⟩ := ih hrest
    exact ⟨_, by simp only [gather, FileContent.text?, hu]; rfl⟩

/-- A directory that holds nothing but an empty base file of one family. -/
def baseOnly (name : String) : FileTree := fun path =>
  if path = FilePath.join "labels" (name ++ fileSuffix) then some (.text "") else none

/-- The family of a base file loads for every locale. -/
theorem load_baseOnly (size : Nat) (name : String) (locale : Option Locale) :
    ∃ b, (FileSource.mk ["labels"] size).load (baseOnly name) name locale = .ok b := by
  have hbase : name ++ fileSuffix ∈ fileNames name locale := by
    cases locale <;> simp [fileNames]
  have hfind : (FileSource.mk ["labels"] size).find? (baseOnly name) (name ++ fileSuffix) =
      some (FilePath.join "labels" (name ++ fileSuffix), .text "") := by
    simp [find?, baseOnly, FileContent.isFile]
  have hfound := List.mem_filterMap.mpr ⟨_, hbase, hfind⟩
  have htexts : ∀ e ∈ (fileNames name locale).filterMap
      ((FileSource.mk ["labels"] size).find? (baseOnly name)), ∃ s, e.2 = .text s := by
    rintro ⟨path, content⟩ he
    obtain ⟨file, -, hf⟩ := List.mem_filterMap.mp he
    have hc := content_of_find? hf
    simp only [baseOnly] at hc
    split at hc
    · exact ⟨"", (Option.some.inj hc).symm⟩
    · cases hc
  obtain ⟨messages, hg⟩ := gather_of_texts htexts
  have hne : ((fileNames name locale).filterMap
      ((FileSource.mk ["labels"] size).find? (baseOnly name))).isEmpty = false :=
    List.isEmpty_eq_false_iff.mpr (List.ne_nil_of_mem hfound)
  exact ⟨⟨name, locale, messages⟩, by simp only [load, hne, hg]; rfl⟩

/-- Whatever the directories, the files and the size of the cache, requests from a set are answered
as without a cache, exactly if no two of them have one resource name and one label but different
locales. -/
theorem answers_eq_map_answer_iff (Q : BundleRequest → Prop) :
    (∀ (src : FileSource) (files : FileTree) (requests : List BundleRequest),
      (∀ r ∈ requests, Q r) → src.answers files {} requests = requests.map (src.answer files)) ↔
      ∀ r r', Q r → Q r' → r.key = r'.key → r.locale = r'.locale := by
  constructor
  · intro h r r' hr hr' hk
    let src : FileSource := ⟨["labels"], defaultCacheSize⟩
    obtain ⟨b, hb⟩ := load_baseOnly src.cacheSize r.name r.locale
    have hrun := h src (baseOnly r.name) [r, r'] (by simp [hr, hr'])
    rw [answers_pair hk hb] at hrun
    have hb' : src.answer (baseOnly r.name) r' = .ok b := by
      simp only [List.map_cons, List.map_nil, List.cons.injEq, and_true] at hrun
      exact hrun.2.symm
    exact (locale_of_load hb).symm.trans (locale_of_load hb')
  · intro h src files requests hr
    exact answers_eq_of_backed h (backed_empty src files Q) hr

/-- A base file, and one for the language `none`. -/
def baseAndNone : FileTree := fun path =>
  if path = "r/App.properties" then some (.text "k=base")
  else if path = "r/App_none.properties" then some (.text "k=narrow") else none

/-- The language `none` has the label of no language at all, so the second request is answered from
the base file alone. -/
theorem answers_ne_of_label_none :
    let src : FileSource := ⟨["r"], defaultCacheSize⟩
    let requests : List BundleRequest := [⟨"App", none⟩, ⟨"App", Locale.ofTag? "none"⟩]
    let base : Bundle := ⟨"App", none, [("k", "base")]⟩
    let narrow : Bundle := ⟨"App", some { language := "none" }, [("k", "narrow")]⟩
    src.answers baseAndNone {} requests = [.ok base, .ok base] ∧
      requests.map (src.answer baseAndNone) = [.ok base, .ok narrow] ∧ base ≠ narrow :=
  ⟨rfl, rfl, by decide⟩

end FileSource
end ScreenActions

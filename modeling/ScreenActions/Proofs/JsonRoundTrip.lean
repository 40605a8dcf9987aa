import ScreenActions.Proofs.KeyedOrder
import ScreenActions.Value.Json

/-!
Documents and the values that are read from them. A document whose numbers are values too is given
back by the value that is read from it, and a value that a document can hold is read back from the
document that it is written to. Entities keep their name in a member of their own on the way.
-/

namespace ScreenActions

namespace Keyed

variable {α β γ : Type}

theorem mapValues_mapValues (f : α → β) (g : β → γ) (m : Keyed α) :
    mapValues g (mapValues f m) = mapValues (g ∘ f) m := by
  simp [mapValues]

theorem mapValues_congr {f g : α → β} {m : Keyed α} (h : ∀ e ∈ m, f e.2 = g e.2) :
    mapValues f m = mapValues g m :=
  List.map_congr_left fun e he => by rw [h e he]

theorem mapValues_eq_self {f : α → α} {m : Keyed α} (h : ∀ e ∈ m, f e.2 = e.2) :
    mapValues f m = m := by
  have hmap : m.map (fun e => (e.1, f e.2)) = m.map id :=
    List.map_congr_left fun e he => by rw [h e he]; rfl
  exact hmap.trans (List.map_id m)

end Keyed

namespace Json

/-- The integers of the document are signed ones of 64 bits, and its other numbers are finite. -/
inductive NumbersFit : Json → Prop
  | null : NumbersFit .null
  | bool (b : Bool) : NumbersFit (.bool b)
  | int {n : Int} (low : Number.int64Min ≤ n) (high : n ≤ Number.int64Max) : NumbersFit (.int n)
  | float {x : Binary64} (finite : x.isFinite = true) : NumbersFit (.float x)
  | string (s : String) : NumbersFit (.string s)
  | array {items : List Json} (h : ∀ j ∈ items, NumbersFit j) : NumbersFit (.array items)
  | object {members : List (String × Json)} (h : ∀ e ∈ members, NumbersFit e.2) :
      NumbersFit (.object members)

/-- The members of every object stand in the order of their names, each name once. -/
inductive MembersOrdered : Json → Prop
  | null : MembersOrdered .null
  | bool (b : Bool) : MembersOrdered (.bool b)
  | int (n : Int) : MembersOrdered (.int n)
  | float (x : Binary64) : MembersOrdered (.float x)
  | string (s : String) : MembersOrdered (.string s)
  | array {items : List Json} (h : ∀ j ∈ items, MembersOrdered j) : MembersOrdered (.array items)
  | object {members : List (String × Json)} (ordered : Keyed.Ordered members)
      (h : ∀ e ∈ members, MembersOrdered e.2) : MembersOrdered (.object members)

mutual
/-- The document with the members of every object in the order of their names, and of each name the
last one. -/
def sorted : Json → Json
  | .array items => .array (sortedItems items)
  | .object members => .object (Keyed.ofEntries (sortedMembers members))
  | j => j

def sortedItems : List Json → List Json
  | [] => []
  | j :: js => sorted j :: sortedItems js

def sortedMembers : List (String × Json) → List (String × Json)
  | [] => []
  | (k, j) :: js => (k, sorted j) :: sortedMembers js
end

theorem sortedItems_eq_map (items : List Json) : sortedItems items = items.map sorted := by
  induction items with
  | nil => rfl
  | cons j items ih => rw [sortedItems, ih, List.map_cons]

theorem sortedMembers_eq_mapValues (members : List (String × Json)) :
    sortedMembers members = Keyed.mapValues sorted members := by
  induction members with
  | nil => rfl
  | cons e members ih => rw [sortedMembers, ih]; rfl

theorem MembersOrdered.sorted_eq {j : Json} (h : j.MembersOrdered) : j.sorted = j := by
  induction h with
  | array _ ih =>
    rw [sorted, sortedItems_eq_map, List.map_congr_left ih, List.map_id']
  | object ordered _ ih =>
    rw [sorted, sortedMembers_eq_mapValues, Keyed.mapValues_eq_self ih,
      Keyed.ofEntries_of_ordered ordered]
  | null => rfl
  | bool => rfl
  | int => rfl
  | float => rfl
  | string => rfl

end Json

namespace Value

/-- Values that a document can hold. A map with a text under the name of the entity marker, or an
entity with such a field, is none of them. -/
inductive Storable : Value → Prop
  | null : Storable .null
  | bool (b : Bool) : Storable (.bool b)
  | int {n : Int} (low : Number.int64Min ≤ n) (high : n ≤ Number.int64Max) : Storable (.int n)
  | float {x : Binary64} (finite : x.isFinite = true) : Storable (.float x)
  | text (s : String) : Storable (.text s)
  | list {items : List Value} (h : ∀ v ∈ items, Storable v) : Storable (.list items)
  | map {entries : List (String × Value)} (ordered : Keyed.Ordered entries)
      (unmarked : ∀ s, Keyed.get? entries entityNameKey ≠ some (.text s))
      (h : ∀ e ∈ entries, Storable e.2) : Storable (.map entries)
  | entity {fields : List (String × Value)} (name : String) (ordered : Keyed.Ordered fields)
      (unmarked : Keyed.get? fields entityNameKey = none)
      (h : ∀ e ∈ fields, Storable e.2) : Storable (.entity name fields)

theorem ofJsonItems_eq_map (items : List Json) : ofJsonItems items = items.map ofJson := by
  induction items with
  | nil => rfl
  | cons j items ih => rw [ofJsonItems, ih, List.map_cons]

theorem ofJsonMembers_eq_mapValues (members : List (String × Json)) :
    ofJsonMembers members = Keyed.mapValues ofJson members := by
  induction members with
  | nil => rfl
  | cons e members ih => rw [ofJsonMembers, ih]; rfl

section

variable (heap : BundleHeap)

theorem toJsonItems_eq_map (items : List Value) :
    toJsonItems heap items = items.map (toJson heap) := by
  induction items with
  | nil => rfl
  | cons v items ih => rw [toJsonItems, ih, List.map_cons]

theorem toJsonEntries_eq_mapValues (entries : List (String × Value)) :
    toJsonEntries heap entries = Keyed.mapValues (toJson heap) entries := by
  induction entries with
  | nil => rfl
  | cons e entries ih => rw [toJsonEntries, ih]; rfl

theorem toJson_text (s : String) : toJson heap (.text s) = .string s := rfl

/-- An entity is written as the map of its fields and of its name under the marker. -/
theorem toJson_entity (name : String) (fields : ValueMap) :
    toJson heap (.entity name fields) =
      .object (Keyed.mapValues (toJson heap) (Keyed.insert entityNameKey (.text name) fields)) := by
  rw [toJson, toJsonEntries_eq_mapValues, Keyed.mapValues_insert, toJson_text]

/-- Whether members are read as a map or as an entity, they are all written again. -/
theorem toJson_ofMembers {m : ValueMap} (hm : Keyed.Ordered m) :
    toJson heap (ofMembers m) = .object (Keyed.mapValues (toJson heap) m) := by
  unfold ofMembers
  split
  · next name hname => rw [toJson_entity, Keyed.insert_erase hm hname]
  · rw [toJson, toJsonEntries_eq_mapValues]

theorem toJson_ofJson {j : Json} (h : j.NumbersFit) : toJson heap (ofJson j) = j.sorted := by
  induction h with
  | null => rfl
  | bool b => rfl
  | @int n low high =>
    rw [ofJson, if_pos high]
    rfl
  | @float x finite =>
    rw [ofJson, toJson, if_pos finite]
    rfl
  | string s => rfl
  | @array items _ ih =>
    have hitems : items.map (toJson heap ∘ ofJson) = items.map Json.sorted :=
      List.map_congr_left ih
    rw [ofJson, toJson, Json.sorted, ofJsonItems_eq_map, toJsonItems_eq_map, List.map_map, hitems,
      Json.sortedItems_eq_map]
  | @object members _ ih =>
    have hmembers : Keyed.mapValues (toJson heap ∘ ofJson) members =
        Keyed.mapValues Json.sorted members := Keyed.mapValues_congr ih
    rw [ofJson, toJson_ofMembers heap (Keyed.ordered_ofEntries _), Json.sorted,
      ofJsonMembers_eq_mapValues, Keyed.mapValues_ofEntries, Keyed.mapValues_mapValues, hmembers,
      Json.sortedMembers_eq_mapValues]

/-- Members that are written from values are read as these values. -/
theorem ofJson_object {m : ValueMap} (hm : Keyed.Ordered m)
    (h : ∀ e ∈ m, ofJson (toJson heap e.2) = e.2) :
    ofJson (.object (Keyed.mapValues (toJson heap) m)) = ofMembers m := by
  have hvalues : Keyed.mapValues (ofJson ∘ toJson heap) m = m := Keyed.mapValues_eq_self h
  rw [ofJson, ofJsonMembers_eq_mapValues, Keyed.mapValues_mapValues, hvalues,
    Keyed.ofEntries_of_ordered hm]

theorem ofJson_toJson {v : Value} (h : v.Storable) : ofJson (toJson heap v) = v := by
  induction h with
  | null => rfl
  | bool b => rfl
  | @int n low high =>
    rw [toJson, ofJson, if_pos high]
  | @float x finite =>
    rw [toJson, if_pos finite]
    rfl
  | text s => rfl
  | @list items _ ih =>
    have hitems : items.map (ofJson ∘ toJson heap) = items.map id := List.map_congr_left ih
    rw [toJson, ofJson, toJsonItems_eq_map, ofJsonItems_eq_map, List.map_map, hitems, List.map_id]
  | @map entries ordered unmarked _ ih =>
    rw [toJson, toJsonEntries_eq_mapValues, ofJson_object heap ordered ih]
    unfold ofMembers
    split
    · next name hname => exact absurd hname (unmarked name)
    · rfl
  | @entity fields name ordered unmarked _ ih =>
    have hmembers : ∀ e ∈ Keyed.insert entityNameKey (.text name) fields,
        ofJson (toJson heap e.2) = e.2 := by
      intro e he
      rcases Keyed.mem_insert he with rfl | he
      · rfl
      · exact ih e he
    rw [toJson_entity, ofJson_object heap (ordered.insert _ _) hmembers, ofMembers,
      Keyed.get?_insert_self]
    dsimp only
    rw [Keyed.erase_insert _ unmarked]

end

/-- Reading values from documents and writing them are inverse to each other, up to the order in
which a document has the members of an object. -/
theorem toJson_ofJson_and_ofJson_toJson (heap : BundleHeap) :
    (∀ j : Json, j.NumbersFit → toJson heap (ofJson j) = j.sorted ∧
      (j.MembersOrdered → toJson heap (ofJson j) = j)) ∧
    ∀ v : Value, v.Storable → ofJson (toJson heap v) = v :=
  ⟨fun _ hj => ⟨toJson_ofJson heap hj, fun ho => (toJson_ofJson heap hj).trans ho.sorted_eq⟩,
    fun _ hv => ofJson_toJson heap hv⟩

theorem toJson_ofJson_marked_product :
    let j : Json := .object [("_entityName", .string "Product"),
      ("tags", .array [.int 7, .object [("_entityName", .int 1)]])]
    let v : Value := .entity "Product" [("tags", .list [.int 7, .map [("_entityName", .int 1)]])]
    j.NumbersFit ∧ j.MembersOrdered ∧ v.Storable ∧ ofJson j = v ∧ toJson [] (ofJson j) = j ∧
      ofJson (toJson [] v) = v := by
  intro j v
  have hfit : j.NumbersFit := by
    have htag : Json.NumbersFit (.object [("_entityName", .int 1)]) :=
      .object (List.forall_mem_cons.mpr ⟨.int (by decide) (by decide), nofun⟩)
    have htags : Json.NumbersFit (.array [.int 7, .object [("_entityName", .int 1)]]) :=
      .array (List.forall_mem_cons.mpr ⟨.int (by decide) (by decide),
        List.forall_mem_cons.mpr ⟨htag, nofun⟩⟩)
    exact .object (List.forall_mem_cons.mpr ⟨.string _, List.forall_mem_cons.mpr ⟨htags, nofun⟩⟩)
  have hordered : j.MembersOrdered := by
    have htag : Json.MembersOrdered (.object [("_entityName", .int 1)]) :=
      .object (List.pairwise_singleton _ _) (List.forall_mem_cons.mpr ⟨.int 1, nofun⟩)
    have htags : Json.MembersOrdered (.array [.int 7, .object [("_entityName", .int 1)]]) :=
      .array (List.forall_mem_cons.mpr ⟨.int 7, List.forall_mem_cons.mpr ⟨htag, nofun⟩⟩)
    have hkeys : "_entityName" < "tags" := by decide
    refine .object (List.pairwise_pair.mpr hkeys) ?_
    exact List.forall_mem_cons.mpr ⟨.string _, List.forall_mem_cons.mpr ⟨htags, nofun⟩⟩
  have hstorable : v.Storable := by
    have htag : Storable (.map [("_entityName", .int 1)]) :=
      .map (List.pairwise_singleton _ _) nofun
        (List.forall_mem_cons.mpr ⟨.int (by decide) (by decide), nofun⟩)
    have htags : Storable (.list [.int 7, .map [("_entityName", .int 1)]]) :=
      .list (List.forall_mem_cons.mpr ⟨.int (by decide) (by decide),
        List.forall_mem_cons.mpr ⟨htag, nofun⟩⟩)
    exact .entity "Product" (List.pairwise_singleton _ _) rfl
      (List.forall_mem_cons.mpr ⟨htags, nofun⟩)
  obtain ⟨hdocument, hvalue⟩ := toJson_ofJson_and_ofJson_toJson []
  exact ⟨hfit, hordered, hstorable, by rfl, (hdocument j hfit).2 hordered, hvalue v hstorable⟩

end Value
end ScreenActions

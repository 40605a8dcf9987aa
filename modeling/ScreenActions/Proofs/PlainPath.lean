import ScreenActions.FieldStore
import ScreenActions.Proofs.TextParts

/-!
Paths of plain keys. A text without points and brackets is a path of one key, and a point between
two of them makes a path of two keys, blanks around the whole apart.
-/

namespace ScreenActions

open Text

namespace FieldPath

/-- The text has no character with a meaning in a path. -/
def Plain (s : List Char) : Prop := ∀ c ∈ s, c ≠ '.' ∧ c ≠ '[' ∧ c ≠ ']'

instance (s : List Char) : Decidable (Plain s) := List.decidableBAll _ s

/-- The text goes on with the key that is being read. -/
def Unbroken (s : List Char) : Prop := ∀ c ∈ s, c ≠ '.' ∧ c ≠ '['

instance (s : List Char) : Decidable (Unbroken s) := List.decidableBAll _ s

theorem Plain.unbroken {s : List Char} (h : Plain s) : Unbroken s := fun c hc =>
  ⟨(h c hc).1, (h c hc).2.1⟩

theorem readKey_append {s : List Char} (hs : Unbroken s) (key rest : List Char) :
    readKey key (s ++ rest) = readKey (s.reverse ++ key) rest := by
  induction s generalizing key with
  | nil => rfl
  | cons c s ih =>
    obtain ⟨⟨hdot, hopen⟩, hs⟩ := List.forall_mem_cons.mp hs
    rw [List.cons_append, readKey, if_neg hdot, if_neg hopen, ih hs, List.reverse_cons,
      List.append_assoc]
    rfl

/-- A plain text that is not empty is a path of one key. -/
theorem readKey_plain {s : List Char} (hs : Plain s) (hne : s ≠ []) :
    readKey [] s = [.key (String.ofList s)] := by
  have h := readKey_append hs.unbroken [] []
  simp only [List.append_nil] at h
  simp [h, readKey, flush, hne]

theorem readKey_plain_pair {s t : List Char} (hs : Plain s) (hne : s ≠ []) (ht : Plain t)
    (htne : t ≠ []) :
    readKey [] (s ++ '.' :: t) = [.key (String.ofList s), .key (String.ofList t)] := by
  rw [readKey_append hs.unbroken, readKey, if_pos rfl, readKey_plain ht htne]
  simp [flush, hne]

/-- A plain text is the path of the key that it is without the blanks around it. -/
theorem root?_ofText {attr : String} (hplain : Plain attr.toList) (hne : trimText attr ≠ "") :
    (ofText attr).root? = some (trimText attr, []) := by
  have hname : trim attr.toList ≠ [] := fun h => hne (by simp [trimText, h])
  have htrim : Plain (trim attr.toList) := fun c hc => hplain c (mem_of_mem_trim hc)
  simp [ofText, root?, readKey_plain htrim hname, trimText]

/-- Two plain keys with a point between them, the second one without a blank at its end. -/
theorem root?_ofText_pair {attr key : String} (hplain : Plain attr.toList)
    (hne : trimText attr ≠ "") (hkey : Plain key.toList) (hkne : key ≠ "")
    (hend : ∀ c ∈ key.toList.getLast?, isBlank c = false) :
    (ofText (trimText attr ++ "." ++ key)).root? = some (trimText attr, [.key key]) := by
  have hname : trim attr.toList ≠ [] := fun h => hne (by simp [trimText, h])
  have htrim : Plain (trim attr.toList) := fun c hc => hplain c (mem_of_mem_trim hc)
  have hkey' : key.toList ≠ [] := fun h => hkne (String.toList_inj.mp h)
  have htext : (trimText attr ++ "." ++ key).toList = trim attr.toList ++ '.' :: key.toList := by
    simp [trimText]
  have hkeep : trim (trim attr.toList ++ '.' :: key.toList) =
      trim attr.toList ++ '.' :: key.toList := by
    apply trim_eq_self
    · intro c hc
      rw [List.head?_append, Option.or_of_isSome (by simpa using hname)] at hc
      exact head_trim _ c hc
    · intro c hc
      rw [List.append_cons, List.getLast?_append, Option.or_of_isSome (by simpa using hkne)] at hc
      exact hend c hc
  rw [ofText, htext, hkeep]
  simp [root?, readKey_plain_pair htrim hname hkey hkey', trimText]

variable {σ : Type} [FieldStore σ]

theorem get?_of_root {p : FieldPath} {root : String} (h : p.root? = some (root, [])) (s : σ) :
    p.get? s = FieldStore.lookup s root := by
  simp [get?, h, Value.get?]

theorem put_of_root {p : FieldPath} {root : String} (h : p.root? = some (root, [])) (s : σ)
    (v : Value) : p.put s v = (FieldStore.store s root v, .ok ()) := by
  simp [put, h]

theorem getValue?_of_none {p : FieldPath} {root : String} {rest : List PathSegment} {s : σ}
    (hp : p.root? = some (root, rest)) (hs : FieldStore.lookup s root = none)
    (heap : BundleHeap) : p.getValue? heap s = none := by
  simp [getValue?, hp, hs]

/-- A key after a bundle map reads its message. -/
theorem getValue?_of_bundle {p : FieldPath} {root key : String} {s : σ} {h : BundleHandle}
    (hp : p.root? = some (root, [.key key])) (hs : FieldStore.lookup s root = some (.bundle h))
    (heap : BundleHeap) : p.getValue? heap s = (heap.message? h key).map .text := by
  simp [getValue?, hp, hs, Value.resolve?]

end FieldPath

end ScreenActions

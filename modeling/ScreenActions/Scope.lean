import ScreenActions.Text.Blank
import ScreenActions.Value.Basic

/-! Stores that outlive a request, with keys under widget trails. -/

namespace ScreenActions

/-- Values under keys; none of them is null. -/
abbrev ScopedStore := ValueMap

namespace ScopedStore

/-- Writing null removes the key. -/
def set (s : ScopedStore) (key : String) (v : Value) : ScopedStore :=
  if v.isNull then Keyed.erase key s else Keyed.insert key v s

def get? (s : ScopedStore) (key : String) : Option Value := Keyed.get? s key

def ofMap (m : ValueMap) : ScopedStore := m.foldl (fun s e => set s e.1 e.2) []

def trailSeparator : String := "|"

/-- The key of a name under a trail. A trail that joins to nothing adds nothing. -/
def trailKey (trail : List String) (name : String) : String :=
  let joined := Text.join trailSeparator trail
  if joined.isEmpty then name else joined ++ trailSeparator ++ name

/-- The prefixes of a trail, the longest first. -/
def prefixes (trail : List String) : List (List String) :=
  (List.range (trail.length + 1)).reverse.map (trail.take ·)

/-- The value of a name under the longest part of the trail that has one. -/
def findInTrail? (s : ScopedStore) (trail : List String) (name : String) : Option Value :=
  (prefixes trail).findSome? fun p => (get? s (trailKey p name)).filter (!·.isNull)

end ScopedStore
end ScreenActions

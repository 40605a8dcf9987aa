import ScreenActions.Keyed
import ScreenActions.Locale

/-! Message bundles and the stacks of bundles that values share by handle. -/

namespace ScreenActions

/-- The messages of one resource for one locale. -/
structure Bundle where
  resource : String
  locale : Option Locale
  messages : Keyed String
  deriving DecidableEq, Repr

namespace Bundle

def get? (b : Bundle) (key : String) : Option String := Keyed.get? b.messages key

def sameSource (a b : Bundle) : Bool := a.resource == b.resource && a.locale == b.locale

end Bundle

/-- Bundles from the top downward. -/
abbrev BundleStack := List Bundle

namespace BundleStack

/-- A bundle put below the others, unless its resource and locale are there already. -/
def addBottom (s : BundleStack) (b : Bundle) : BundleStack × Bool :=
  if s.any (·.sameSource b) then (s, false) else (s ++ [b], true)

/-- The message of the topmost bundle that has the key. -/
def get? (s : BundleStack) (key : String) : Option String := s.findSome? (·.get? key)

def contains (s : BundleStack) (key : String) : Bool :=
  s.any fun b => Keyed.contains b.messages key

def resources (s : BundleStack) : List String := s.map Bundle.resource

/-- All messages in one map, upper bundles over lower ones. -/
def flatten (s : BundleStack) : Keyed String :=
  s.reverse.foldl (fun acc b => Keyed.extend acc b.messages) []

end BundleStack

abbrev BundleHandle := Nat

/-- The stacks behind all handles. A handle is the position of its stack, so that whatever holds
the same handle sees the same bundles. -/
abbrev BundleHeap := List BundleStack

namespace BundleHeap

def stack (heap : BundleHeap) (h : BundleHandle) : BundleStack := heap[h]?.getD []

/-- A new handle for a stack of one bundle. -/
def alloc (heap : BundleHeap) (top : Bundle) : BundleHandle × BundleHeap :=
  (heap.length, heap ++ [[top]])

def addBottom (heap : BundleHeap) (h : BundleHandle) (b : Bundle) : BundleHeap × Bool :=
  let (s, added) := (stack heap h).addBottom b
  (heap.set h s, added)

def message? (heap : BundleHeap) (h : BundleHandle) (key : String) : Option String :=
  (stack heap h).get? key

end BundleHeap
end ScreenActions

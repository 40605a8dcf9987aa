import ScreenActions.Calendar.Text
import ScreenActions.Number.Shortest
import ScreenActions.Text.Quoted
import ScreenActions.Value.Basic

/-! Display texts of values. -/

namespace ScreenActions.Value

def scalarText (heap : BundleHeap) : Value → String
  | .bool b => if b then "true" else "false"
  | .int n => String.ofList (Number.integerText n)
  | .float x => String.ofList x.pointText
  | .decimal d => String.ofList d.text
  | .text s => s
  | .date d => String.ofList d.text
  | .time t => String.ofList t.text
  | .timestamp t => String.ofList t.text
  | .bundle h => "BundleMap" ++ Text.Quoted.encodeAll (BundleHeap.stack heap h).resources
  | _ => ""

mutual
/-- Null is the empty text; collections list their members in brackets or braces. -/
def display (heap : BundleHeap) : Value → String
  | .list items => "[" ++ Text.join ", " (displayItems heap items) ++ "]"
  | .map entries => "\x7b" ++ Text.join ", " (displayPairs heap entries) ++ "\x7d"
  | .entity name fields => name ++ "[" ++ Text.join ", " (displayPairs heap fields) ++ "]"
  | v => scalarText heap v

def displayItems (heap : BundleHeap) : List Value → List String
  | [] => []
  | v :: vs => display heap v :: displayItems heap vs

def displayPairs (heap : BundleHeap) : List (String × Value) → List String
  | [] => []
  | (k, v) :: vs => (k ++ "=" ++ display heap v) :: displayPairs heap vs
end

end ScreenActions.Value

import ScreenActions.Rendering.View

/-! The calls that a view makes of its collaborators, in their order. -/

namespace ScreenActions

inductive ViewCall
  | render (location : String) (context : Context)
  | transform (fo : String) (format : OutputFormat)
  | clearImageCache
  deriving Repr

/-- What the collaborators keep, with the calls made of them so far. -/
structure Logged (ω : Type) where
  calls : List ViewCall := []
  world : ω

namespace Logged

variable {ω : Type}

def add (l : Logged ω) (call : ViewCall) : Logged ω := { l with calls := l.calls ++ [call] }

def renderer (r : ScreenRenderer ω) : ScreenRenderer (Logged ω) := fun location s =>
  let l := s.world.add (.render location s.context)
  let (answer, t) := r location ⟨s.context, s.heap, l.world⟩
  (answer, ⟨t.context, t.heap, { l with world := t.world }⟩)

def engine (e : FormattingEngine ω) : FormattingEngine (Logged ω) where
  transform fo format l :=
    let l := l.add (.transform fo format)
    let (answer, w) := e.transform fo format l.world
    (answer, { l with world := w })
  clearImageCache l :=
    let l := l.add .clearImageCache
    { l with world := e.clearImageCache l.world }

def populator (p : RequestPopulator ω) : RequestPopulator (Logged ω) := fun s =>
  let t := p ⟨s.context, s.heap, s.world.world⟩
  ⟨t.context, t.heap, { s.world with world := t.world }⟩

/-- The handler with every call logged. -/
def handler (h : ViewHandler ω) : ViewHandler (Logged ω) :=
  ⟨renderer h.renderer, engine h.engine, h.contentType, h.errorTemplate⟩

end Logged
end ScreenActions

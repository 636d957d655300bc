import Lindenmayer.Drawing.Turtle

/-
  This file defines renderers and the calls they answer.

  A call that is refused leaves a single renderer as it was.
  A batch passes each call on to its members in order, and a
  refusal keeps it from the members that follow.

  Key definitions include:
    * `Call`
    * `Renderer`
    * `Renderer.call`
    * `Renderer.text`
    * `Renderer.polylines`
    * `Renderer.Plan`
    * `Renderer.ofPlan`
-/

namespace Lindenmayer

------------------------------------------------------------
-- Calls
------------------------------------------------------------

/- The calls that a renderer answers. -/
inductive Call where
  | push
  | pop
  | render (i : Instruction)
  | finish
deriving DecidableEq, Repr

namespace Call

/- The text of a call: instructions go by their names. -/
def describe : Call → String
  | .push => "push()"
  | .pop => "pop()"
  | .render i => i.name
  | .finish => "finish()"

/-
  The glyph of a call; a branch is opened and closed like by
  the instructions for it.
-/
def glyph : Call → String
  | .push => "["
  | .pop => "]"
  | .render i => i.glyph
  | .finish => ""

end Call

namespace Turtle

/- Answer a call. -/
def call
    (t : Turtle) : Call → Except RenderError Turtle
  | .push => t.push
  | .pop => t.pop
  | .render i => t.render i
  | .finish => .ok t.finish

end Turtle

------------------------------------------------------------
-- Renderers
------------------------------------------------------------

/-
  A renderer writes the glyphs of its calls to a text, keeps
  the calls with the newest first, draws with a turtle, or is
  a batch of renderers.
-/
inductive Renderer where
  | collector (text : String)
  | recorder (calls : List Call)
  | turtle (t : Turtle)
  | batch (members : List Renderer)

/- A renderer after a call, and why the call was refused. -/
structure Called (ρ : Type) where
  renderer : ρ
  refusal : Option RenderError

namespace Renderer

mutual

/- Answer a call. -/
def call
    (c : Call) : Renderer → Called Renderer
  | .collector text =>
      ⟨.collector (text ++ c.glyph), none⟩
  | .recorder calls => ⟨.recorder (c :: calls), none⟩
  | .turtle t =>
      match t.call c with
      | .ok u => ⟨.turtle u, none⟩
      | .error e => ⟨.turtle t, some e⟩
  | .batch members =>
      let r := callAll c members
      ⟨.batch r.renderer, r.refusal⟩

/- Answer a call in order until a member refuses. -/
def callAll
    (c : Call) : List Renderer → Called (List Renderer)
  | [] => ⟨[], none⟩
  | m :: members =>
      match call c m with
      | ⟨n, some e⟩ => ⟨n :: members, some e⟩
      | ⟨n, none⟩ =>
          let r := callAll c members
          ⟨n :: r.renderer, r.refusal⟩

end

------------------------------------------------------------
-- Results
------------------------------------------------------------

/- The text that a renderer has written. -/
def text : Renderer → String
  | .collector s => s
  | _ => ""

/- The polylines that a renderer has drawn. -/
def polylines : Renderer → List Polyline
  | .turtle t => t.polylines
  | _ => []

------------------------------------------------------------
-- Fresh Renderers
------------------------------------------------------------

/- What renderer to make. -/
inductive Plan where
  | collector
  | recorder
  | turtle (c : Config)
  | batch (members : List Plan)

mutual

/- The fresh renderer of a plan. -/
def ofPlan : Plan → Except ConfigError Renderer
  | .collector => .ok (.collector "")
  | .recorder => .ok (.recorder [])
  | .turtle c =>
      match Turtle.start c with
      | .ok t => .ok (.turtle t)
      | .error e => .error e
  | .batch members =>
      match ofPlans members with
      | .ok ms => .ok (.batch ms)
      | .error e => .error e

/- The fresh renderers of some plans. -/
def ofPlans : List Plan → Except ConfigError (List Renderer)
  | [] => .ok []
  | p :: plans =>
      match ofPlan p with
      | .error e => .error e
      | .ok m =>
          match ofPlans plans with
          | .error e => .error e
          | .ok ms => .ok (m :: ms)

end

end Renderer

end Lindenmayer

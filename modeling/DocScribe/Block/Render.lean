/-
Rendering a block for a candidate: by the layout of its style, or by the
template that replaces the layout.
-/
import DocScribe.Block.Layout
import DocScribe.Failure
import DocScribe.Template.Render

namespace DocScribe
namespace Style

/-- What a template can speak of. -/
def bindings (s : Style) (c : Candidate) (d : DocText) : Template.Env :=
  let argument (a : ArgumentText) : Template.Value :=
    .map [(.str "doc", .str a.doc), (.str "name", .str a.name),
      (.str "type", (a.type.map Template.Value.str).getD .none)]
  [("doc_open", .str s.docOpen), ("doc_close", .str s.docClose), ("name", .str c.name),
    ("kind", .str c.kind.name), ("indent", .str s.indent), ("docstring", .str (s.docstring d)),
    ("arguments", .list (d.arguments.map argument)),
    ("argument_section", .str (Text.joinLines (s.argumentLines d)))]

/-- The block of a candidate before it is indented. -/
def layout (s : Style) (c : Candidate) (d : DocText) : Except Failure Text :=
  match s.template with
  | some template =>
    match Template.renderText template (s.bindings c d) with
    | .ok t => .ok (Text.trimEndBy (· == '\n') t)
    | .error fault => .error (.template fault.message)
  | none => .ok (Text.joinLines (s.parts d))

/-- The block of a candidate. -/
def render (s : Style) (c : Candidate) (d : DocText) : Except Failure Block :=
  (s.layout c d).map fun t =>
    { text := indentBlock t s.innerIndent c.indentation
      start := c.start
      stop := c.stop
      placement := c.placement
      withinScope := c.withinScope }

end Style
end DocScribe

import Gll.Trace.Transcript

/-!
Stack graphs in the DOT language.

```text
digraph gss {
  node [shape=box];
  g0 [label="⊥"];
  g1 [label="L0@0 accept"];
  g1 -> g0 [label="[0,0)"];
}
```

Every stack is a node, in the order in which the stacks were made, and every link is an edge that
follows the node of its frame. Edges may show the span of the prefix that they carry.
-/

set_option autoImplicit false

namespace Gll

namespace Dot

/-- The characters of a quoted text: those with a meaning of their own are protected. -/
def escape : List Char → List Char
  | [] => []
  | c :: rest =>
    if c = '"' ∨ c = '\\' then '\\' :: c :: escape rest else c :: escape rest

/-- A quoted text. -/
def quoted (text : String) : String := "\"" ++ String.ofList (escape text.toList) ++ "\""

/-- A statement about a node or an edge, with its label if it has one. -/
def statement (subject : String) : Option String → String
  | none => "  " ++ subject ++ ";"
  | some label => "  " ++ subject ++ " [label=" ++ quoted label ++ "];"

end Dot

namespace StackGraph

/-- The edge of a link. If a forest is given, it shows the span of the prefix. -/
def dotEdge (spans : Option Forest) (id : StackId) (link : Link) : Except Fault String := do
  let subject := id.text ++ " -> " ++ link.caller.text
  match spans with
  | none => return Dot.statement subject none
  | some forest =>
    return Dot.statement subject (some (← forest.prefixNode link.stem).span.text)

/-- What is written on a stack. -/
def dotLabel (program : Program) : Stack → Except Fault String
  | .initial => .ok "⊥"
  | .frame label origin _ => do
    let item ← program.item label
    return label.text ++ "@" ++ toString origin ++ " " ++ Text.Styled.render .off item

/-- The lines of a stack. -/
def dotStack (program : Program) (spans : Option Forest) (id : StackId) (stack : Stack) :
    Except Fault (List String) := do
  let label ← dotLabel program stack
  let edges ← stack.links.toList.mapM (dotEdge spans id)
  return Dot.statement id.text (some label) :: edges

/-- A stack graph in the DOT language. -/
def dot (program : Program) (spans : Option Forest) (graph : StackGraph) :
    Except Fault (List String) := do
  let groups ← graph.members.toList.zipIdx.mapM fun (stack, index) =>
    dotStack program spans ⟨index⟩ stack
  return ["digraph gss \x7b", "  node [shape=box];"] ++ groups.flatten ++ ["\x7d"]

end StackGraph

end Gll

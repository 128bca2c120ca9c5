import CiteStyle.Node
import CiteStyle.Text.Quoted

/-!
An element tree as indented text, one line for each element and each run of text. Values are quoted,
so that nothing in them can be taken for another line.
-/

namespace CiteStyle

def indentation (depth : Nat) : String := String.ofList (List.replicate (2 * depth) ' ')

def Element.header (tag : String) (attributes : Table String) (line : Int) : String :=
  "<" ++ tag ++ ">" ++
    String.join (attributes.entries.map fun (k, v) => " " ++ k ++ "=" ++ Text.Quoted.ofString v) ++
    "  @" ++ toString line

mutual

def Node.dumpAt (depth : Nat) : Node → String
  | .text value => indentation depth ++ "Text(" ++ Text.Quoted.ofString value ++ ")\n"
  | .element tag attributes children line =>
    indentation depth ++ Element.header tag attributes line ++ "\n" ++
      dumpAllAt (depth + 1) children

def dumpAllAt (depth : Nat) : List Node → String
  | [] => ""
  | node :: rest => node.dumpAt depth ++ dumpAllAt depth rest

end

def Element.dump (e : Element) : String := e.toNode.dumpAt 0

end CiteStyle

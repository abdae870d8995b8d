import PostEditor.Text

namespace PostEditor

/-- A part of the page as it is drawn. -/
inductive Node
  | text (value : Text)
  | element (tag : String) (attributes : List (String × Text)) (children : List Node)

namespace Node

def escapeChar (c : Char) : Text :=
  if c = '&' then "&amp;".toList
  else if c = '<' then "&lt;".toList
  else if c = '>' then "&gt;".toList
  else if c = '"' then "&quot;".toList
  else [c]

def escape (t : Text) : Text := t.flatMap escapeChar

def attributeText (name : String) (value : Text) : Text :=
  ' ' :: name.toList ++ ['=', '"'] ++ escape value ++ ['"']

mutual

def render : Node → Text
  | .text t => escape t
  | .element tag attributes children =>
    '<' :: tag.toList ++ attributes.flatMap (fun (name, value) => attributeText name value) ++
      '>' :: renderAll children ++ "</".toList ++ tag.toList ++ ['>']

def renderAll : List Node → Text
  | [] => []
  | n :: rest => render n ++ renderAll rest

end

end Node

end PostEditor

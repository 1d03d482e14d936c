import Camelmailer.Text.Str
import Camelmailer.Text.Occurrences

/-!
# Message templates

`camelmailer-core/src/template.rs`: a template is cut at its tags into a tree of nodes, and the tree
is written out against a model. Sections look their value up in a stack of contexts and may put it
on that stack, and what is written may not be longer than a limit.

What a tag says is read apart from what it does to the tree. A JSON number is kept as the text that
it is written as.
-/

namespace Camelmailer.Template

open Utf8 Occurrences

/-! ## Parsing -/

/-- `MAX_DEPTH`. -/
def maxDepth : Nat := 32

/-- `MAX_OUTPUT`. -/
def maxOutput : Nat := 512 * 1024

inductive RenderError where
  | unclosedTag
  | unclosedSection
  | unexpectedClose (path : Text)
  | mismatchedClose (expected found : Text)
  | tooDeep
  | outputTooLarge
deriving DecidableEq

inductive Node where
  | text (text : Text)
  | var (path : Text) (escaped : Bool)
  | sec (path : Text) (inverted : Bool) (children : List Node)
deriving Repr

/-- A section that is open. -/
structure Frame where
  path : Text
  inverted : Bool
  children : List Node

/-- The nodes of the root, and the open sections from the innermost one. -/
structure Parser where
  root : List Node
  stack : List Frame

/-- A node goes to the `sink`. -/
def Parser.push (parser : Parser) (node : Node) : Parser :=
  match parser.stack with
  | [] => { parser with root := parser.root ++ [node] }
  | frame :: outer =>
      { parser with stack := { frame with children := frame.children ++ [node] } :: outer }

def Parser.pushText (parser : Parser) (text : Text) : Parser :=
  if text = [] then parser else parser.push (.text text)

/-- What a tag says. -/
inductive Tag where
  | nothing
  | var (path : Text) (escaped : Bool)
  | opens (path : Text) (inverted : Bool)
  | closes (path : Text)
deriving DecidableEq

/-- What a tag is opened, what it is closed and what a raw one is closed with. -/
def opening : Text := ['\x7b', '\x7b']

def closing : Text := ['\x7d', '\x7d']

def rawClosing : Text := ['\x7d', '\x7d', '\x7d']

/-- What stands in a tag that is not opened by a third brace, without white space around it. -/
def tagOf : Text → Tag
  | [] => .nothing
  | '!' :: _ => .nothing
  | '#' :: rest => .opens (Str.trim rest) false
  | '^' :: rest => .opens (Str.trim rest) true
  | '/' :: rest => .closes (Str.trim rest)
  | '&' :: rest => .var (Str.trim rest) false
  | tag => .var tag true

/-- The tag behind an opening, and what is left. -/
def readTag : Text → Option (Tag × Text)
  | '\x7b' :: triple =>
      (cut rawClosing triple).map (fun parts => (.var (Str.trim parts.1) false, parts.2))
  | after => (cut closing after).map (fun parts => (tagOf (Str.trim parts.1), parts.2))

def applyTag (parser : Parser) : Tag → Except RenderError Parser
  | .nothing => .ok parser
  | .var path escaped => .ok (parser.push (.var path escaped))
  | .opens path inverted =>
      if maxDepth ≤ parser.stack.length then .error .tooDeep
      else .ok { parser with stack := ⟨path, inverted, []⟩ :: parser.stack }
  | .closes path =>
      match parser.stack with
      | [] => .error (.unexpectedClose path)
      | frame :: outer =>
          if frame.path ≠ path then .error (.mismatchedClose frame.path path)
          else .ok ({ parser with stack := outer }.push
            (.sec frame.path frame.inverted frame.children))

/-- The end of a template. -/
def finish (parser : Parser) : Except RenderError (List Node) :=
  if parser.stack = [] then .ok parser.root else .error .unclosedSection

/-- The loop of `parse`. Each turn takes a tag away, so there are no more turns than characters. -/
def loop : Nat → Parser → Text → Except RenderError (List Node)
  | 0, parser, _ => finish parser
  | turns + 1, parser, rest =>
      match cut opening rest with
      | none => finish (parser.pushText rest)
      | some (front, after) =>
          match readTag after with
          | none => .error .unclosedTag
          | some (tag, rest) =>
              match applyTag (parser.pushText front) tag with
              | .error error => .error error
              | .ok parser => loop turns parser rest

def parse (template : Text) : Except RenderError (List Node) :=
  loop (template.length + 1) ⟨[], []⟩ template

/-! ## Values -/

inductive Value where
  | null
  | bool (flag : Bool)
  | number (text : Text)
  | string (text : Text)
  | array (items : List Value)
  | object (map : List (Text × Value))
deriving Repr

def get (map : List (Text × Value)) (key : Text) : Option Value :=
  (map.find? (fun entry => entry.1 = key)).map Prod.snd

def insert (map : List (Text × Value)) (key : Text) (value : Value) : List (Text × Value) :=
  (key, value) :: map.filter (fun entry => entry.1 ≠ key)

def isTruthy : Value → Bool
  | .null => false
  | .bool flag => flag
  | .string text => text ≠ []
  | .array items => !items.isEmpty
  | .number _ => true
  | .object _ => true

def scalar : Value → Text
  | .string text => text
  | .number text => text
  | .bool true => "true"
  | .bool false => "false"
  | _ => []

def escapeChar : Char → Text
  | '&' => "&amp;"
  | '<' => "&lt;"
  | '>' => "&gt;"
  | '"' => "&quot;"
  | '\'' => "&#39;"
  | char => [char]

def htmlEscape (input : Text) : Text := input.flatMap escapeChar

/-- The value of a key, where there are keys. -/
def entry (value : Value) (key : Text) : Option Value :=
  match value with
  | .object map => get map key
  | _ => none

/-- `lookup`, in the contexts from the innermost one. -/
def lookup (stack : List Value) (path : Text) : Option Value :=
  if path = ['.'] then stack.head?
  else match path.splitOn '.' with
  | [] => none
  | first :: segments =>
      (stack.findSome? (fun scope => entry scope first)).bind (fun value => segments.foldlM entry value)

/-! ## Rendering -/

/-- The contexts from the innermost one, and the output. -/
structure Rendering where
  stack : List Value
  out : Text

/-- A part of a rendering. What it has done stays done when it fails. -/
abbrev Render : Type := Rendering → Except RenderError Unit × Rendering

def done : Render := fun rendering => (.ok (), rendering)

/-- A part behind another one, which may fail. -/
def Render.andThen (first second : Render) : Render := fun rendering =>
  match first rendering with
  | (.ok (), after) => second after
  | (.error error, after) => (.error error, after)

def pushCapped (text : Text) : Render := fun rendering =>
  if maxOutput < Str.byteLen rendering.out + Str.byteLen text then (.error .outputTooLarge, rendering)
  else (.ok (), { rendering with out := rendering.out ++ text })

/-- A value is pushed onto the stack, and popped behind the body. -/
def inScope (value : Value) (body : Render) : Render := fun rendering =>
  let (result, after) := body { rendering with stack := value :: rendering.stack }
  (result, { after with stack := after.stack.tail })

def overItems (body : Render) : List Value → Render
  | [] => done
  | item :: items => (inScope item body).andThen (overItems body items)

def renderVar (path : Text) (escaped : Bool) : Render := fun rendering =>
  match lookup rendering.stack path with
  | some value =>
      pushCapped (if escaped then htmlEscape (scalar value) else scalar value) rendering
  | none => done rendering

def renderSection (path : Text) (inverted : Bool) (body : Render) : Render := fun rendering =>
  let value := lookup rendering.stack path
  if inverted then
    if value.any isTruthy then done rendering else body rendering
  else match value with
  | some (.array items) => overItems body items rendering
  | some value => if isTruthy value then inScope value body rendering else done rendering
  | none => done rendering

mutual

def renderNodes : List Node → Render
  | [] => done
  | node :: rest => (renderNode node).andThen (renderNodes rest)

def renderNode : Node → Render
  | .text text => pushCapped text
  | .var path escaped => renderVar path escaped
  | .sec path inverted children => renderSection path inverted (renderNodes children)

end

def render (template : Text) (model : Value) : Except RenderError Text :=
  match parse template with
  | .error error => .error error
  | .ok nodes =>
      match renderNodes nodes ⟨[model], []⟩ with
      | (.ok (), rendering) => .ok rendering.out
      | (.error error, _) => .error error

/-! ## Layouts -/

def isRawContent : Node → Bool
  | .var path escaped => path = "content" && !escaped
  | _ => false

def wrapperHasRawContent (wrapper : Text) : Bool :=
  match parse wrapper with
  | .ok nodes => nodes.any isRawContent
  | .error _ => false

/-- The model of a layout, with the body. -/
def layoutModel (model : Value) (content : Text) : Value :=
  let entries := match model with
    | .object map => map
    | _ => []
  .object (insert entries "content" (.string content))

def renderInLayout (wrapper : Text) (model : Value) (content : Text) : Except RenderError Text :=
  render wrapper (layoutModel model content)

end Camelmailer.Template

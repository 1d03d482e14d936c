import Camelmailer.Core.TemplateOutput

/-!
# Layouts

A layout is rendered against the model with the body under `content`. What that comes to is worked
out before the body is known: a document with places where the body is printed, and with parts that
are there or not when the body is tested for being empty. A wrapper that is accepted prints the body
in a place that is always there.
-/

namespace Camelmailer.Template

open Utf8

/-! ## Documents -/

/-- A part of a document that waits for its body. -/
inductive Part where
  | text (text : Text)
  | content (escaped : Bool)
  | tested (filled : Bool) (inside : List Part)

mutual

/-- The document with a body. -/
def fill (content : Text) : List Part → Text
  | [] => []
  | part :: rest => fillPart content part ++ fill content rest

def fillPart (content : Text) : Part → Text
  | .text text => text
  | .content escaped => if escaped then htmlEscape content else content
  | .tested filled inside => if isTruthy (.string content) = filled then fill content inside else []

end

theorem fill_append (content : Text) (front back : List Part) :
    fill content (front ++ back) = fill content front ++ fill content back := by
  induction front with
  | nil => rfl
  | cons part front ih =>
      rw [List.cons_append, fill, ih, fill, List.append_assoc]

/-- The body is in a document that prints it as it is. -/
theorem infix_fill {document : List Part} (printed : .content false ∈ document) (content : Text) :
    content <:+: fill content document := by
  obtain ⟨front, back, rfl⟩ := List.append_of_mem printed
  rw [fill_append]
  exact ⟨_, _, List.append_assoc _ _ _⟩

/-! ## Working out a document -/

/-- What is on the stack of contexts: the model of the layout, the body, or a value that is known. -/
inductive Scope where
  | layout
  | content
  | known (value : Value)

section Layout

variable (map : List (Text × Value))

/-- What a scope stands for. -/
def Scope.realize (content : Text) : Scope → Value
  | .layout => .object (insert map "content" (.string content))
  | .content => .string content
  | .known value => value

def Scope.entry (scope : Scope) (key : Text) : Option Scope :=
  match scope with
  | .layout => if key = "content" then some .content else (get map key).map .known
  | .content => none
  | .known value => (Template.entry value key).map .known

/-- `lookup`, before the body is known. -/
def Scope.lookup (stack : List Scope) (path : Text) : Option Scope :=
  if path = ['.'] then stack.head?
  else match path.splitOn '.' with
  | [] => none
  | first :: segments =>
      (stack.findSome? (fun scope => scope.entry map first)).bind
        (fun scope => segments.foldlM (Scope.entry map) scope)

def scopeParts (escaped : Bool) : Scope → List Part
  | .layout => []
  | .content => [.content escaped]
  | .known value => [.text (if escaped then htmlEscape (scalar value) else scalar value)]

def varParts (path : Text) (escaped : Bool) (stack : List Scope) : List Part :=
  match Scope.lookup map stack path with
  | some scope => scopeParts escaped scope
  | none => []

def sectionParts (path : Text) (inverted : Bool) (body : List Scope → List Part)
    (stack : List Scope) : List Part :=
  match Scope.lookup map stack path, inverted with
  | none, true => body stack
  | none, false => []
  | some .layout, true => []
  | some .layout, false => body (.layout :: stack)
  | some .content, true => [.tested false (body stack)]
  | some .content, false => [.tested true (body (.content :: stack))]
  | some (.known value), true => if isTruthy value then [] else body stack
  | some (.known (.array items)), false => items.flatMap (fun item => body (.known item :: stack))
  | some (.known value), false => if isTruthy value then body (.known value :: stack) else []

mutual

/-- The document of a tree. -/
def parts : List Node → List Scope → List Part
  | [], _ => []
  | node :: rest, stack => nodeParts node stack ++ parts rest stack

def nodeParts : Node → List Scope → List Part
  | .text text, _ => [.text text]
  | .var path escaped, stack => varParts map path escaped stack
  | .sec path inverted children, stack => sectionParts map path inverted (parts children) stack

end

/-! ## Rendering and filling -/

variable {map}

theorem get_insert (key other : Text) (value : Value) : get (insert map key value) other =
    if other = key then some value else get map other := by
  unfold get insert
  rw [List.find?_cons]
  by_cases same : key = other
  · rw [decide_eq_true same, if_pos same.symm]
    rfl
  · rw [decide_eq_false same, if_neg (Ne.symm same), List.find?_filter]
    dsimp only
    congr 2
    funext entry
    by_cases found : entry.1 = other
    · simp [found, Ne.symm same]
    · simp [found]

theorem entry_realize (content : Text) (scope : Scope) (key : Text) :
    entry (scope.realize map content) key = (scope.entry map key).map (Scope.realize map content) := by
  cases scope with
  | layout =>
      change get (insert map _ _) key = _
      rw [get_insert, Scope.entry]
      split_ifs
      · rfl
      · rw [Option.map_map]
        exact Option.map_id'.symm
  | content => rfl
  | known value =>
      rw [Scope.entry, Option.map_map]
      exact Option.map_id'.symm

theorem findSome_realize (content : Text) (stack : List Scope) (key : Text) :
    (stack.map (Scope.realize map content)).findSome? (fun scope => entry scope key) =
      (stack.findSome? (fun scope => scope.entry map key)).map (Scope.realize map content) := by
  induction stack with
  | nil => rfl
  | cons scope stack ih =>
      rw [List.map_cons, List.findSome?_cons, List.findSome?_cons, entry_realize]
      cases scope.entry map key with
      | none => exact ih
      | some scope => rfl

theorem descend_realize (content : Text) (segments : List Text) (scope : Scope) :
    segments.foldlM entry (scope.realize map content) =
      (segments.foldlM (Scope.entry map) scope).map (Scope.realize map content) := by
  induction segments generalizing scope with
  | nil => rfl
  | cons segment segments ih =>
      rw [List.foldlM_cons, List.foldlM_cons, entry_realize]
      cases scope.entry map segment with
      | none => rfl
      | some scope => exact ih scope

theorem lookup_realize (content : Text) (stack : List Scope) (path : Text) :
    lookup (stack.map (Scope.realize map content)) path =
      (Scope.lookup map stack path).map (Scope.realize map content) := by
  unfold lookup Scope.lookup
  split_ifs
  · exact List.head?_map
  · cases path.splitOn '.' with
    | nil => rfl
    | cons first segments =>
        dsimp only
        rw [findSome_realize]
        cases stack.findSome? (fun scope => scope.entry map first) with
        | none => rfl
        | some scope => exact descend_realize content segments scope

variable (map) in
/-- The pieces of a body are its document with the content, in every stack. -/
def Fills (content : Text) (body : List Value → List Piece) (outline : List Scope → List Part) : Prop :=
  ∀ stack : List Scope,
    textOf (body (stack.map (Scope.realize map content))) = fill content (outline stack)

theorem fills_varPieces (content : Text) (path : Text) (escaped : Bool) :
    Fills map content (varPieces path escaped) (varParts map path escaped) := by
  intro stack
  unfold varPieces varParts
  rw [lookup_realize]
  cases Scope.lookup map stack path with
  | none => rfl
  | some scope =>
      cases scope <;> cases escaped <;>
        simp [scopeParts, textOf, Piece.text, fill, fillPart, Scope.realize, scalar, htmlEscape]

variable {outline : List Scope → List Part} {body : List Value → List Piece}

theorem fills_items {content : Text} (fills : Fills map content body outline) (stack : List Scope)
    (items : List Value) :
    textOf (items.flatMap (fun item => body (item :: stack.map (Scope.realize map content)))) =
      fill content (items.flatMap (fun item => outline (.known item :: stack))) := by
  induction items with
  | nil => rfl
  | cons item items ih =>
      rw [List.flatMap_cons, List.flatMap_cons, textOf_append, fill_append, ih]
      exact congrArg (· ++ _) (fills (.known item :: stack))

theorem fills_sectionPieces {content : Text} (fills : Fills map content body outline) (path : Text)
    (inverted : Bool) :
    Fills map content (sectionPieces path inverted body) (sectionParts map path inverted outline) := by
  intro stack
  have tested (scope : Scope) : textOf (body (scope.realize map content ::
      stack.map (Scope.realize map content))) = fill content (outline (scope :: stack)) :=
    fills (scope :: stack)
  have plain := fills stack
  unfold sectionPieces sectionParts
  rw [lookup_realize]
  cases Scope.lookup map stack path with
  | none =>
      cases inverted with
      | true => exact plain
      | false => rfl
  | some scope =>
      cases scope with
      | layout =>
          cases inverted with
          | true => rfl
          | false => exact tested .layout
      | content =>
          cases inverted with
          | true =>
              cases truthy : isTruthy (.string content)
              · simp [Scope.realize, fill, fillPart, truthy, plain]
              · simp [Scope.realize, fill, fillPart, truthy]
          | false =>
              cases truthy : isTruthy (.string content)
              · simp [Scope.realize, fill, fillPart, truthy]
              · simpa [Scope.realize, fill, fillPart, truthy] using tested .content
      | known value =>
          cases inverted with
          | true =>
              cases truthy : isTruthy value
              · simp [Scope.realize, truthy, plain]
              · simp [Scope.realize, truthy, fill]
          | false =>
              cases value with
              | array items => exact fills_items fills stack items
              | null => rfl
              | number text => exact tested (.known (.number text))
              | object entries => exact tested (.known (.object entries))
              | bool flag =>
                  cases flag with
                  | false => rfl
                  | true => exact tested (.known (.bool true))
              | string text =>
                  cases truthy : isTruthy (.string text)
                  · simp [Scope.realize, truthy, fill]
                  · simpa [Scope.realize, truthy] using tested (.known (.string text))

mutual

theorem fills_pieces (content : Text) :
    ∀ nodes : List Node, Fills map content (pieces nodes) (parts map nodes)
  | [] => fun _ => rfl
  | node :: rest => by
      intro stack
      rw [pieces, parts, textOf_append, fill_append, fills_nodePieces content node,
        fills_pieces content rest]

theorem fills_nodePieces (content : Text) :
    ∀ node : Node, Fills map content (nodePieces node) (nodeParts map node)
  | .text text => fun _ => rfl
  | .var path escaped => fills_varPieces content path escaped
  | .sec path inverted children => fills_sectionPieces (fills_pieces content children) path inverted

end

end Layout

/-- The entries of a model. -/
def entriesOf : Value → List (Text × Value)
  | .object map => map
  | _ => []

/-- The document of a layout: what the wrapper and the model come to before the body is known. -/
def document (model : Value) (wrapper : List Node) : List Part := parts (entriesOf model) wrapper [.layout]

theorem isRawContent_eq {node : Node} (raw : isRawContent node = true) :
    node = .var "content" false := by
  cases node with
  | var path escaped =>
      cases escaped with
      | true => simp [isRawContent] at raw
      | false =>
          have same : path = "content" := by
            rw [isRawContent, Bool.and_eq_true, decide_eq_true_eq] at raw
            exact raw.1
          rw [same]
  | text text => cases raw
  | sec path inverted children => cases raw

theorem mem_parts {map : List (Text × Value)} {nodes : List Node} {node : Node} {part : Part}
    {stack : List Scope} (member : node ∈ nodes) (written : part ∈ nodeParts map node stack) :
    part ∈ parts map nodes stack := by
  induction nodes with
  | nil => cases member
  | cons first nodes ih =>
      rw [parts, List.mem_append]
      rcases List.mem_cons.mp member with rfl | later
      · exact .inl written
      · exact .inr (ih later)

theorem varParts_content (map : List (Text × Value)) :
    varParts map "content" false [.layout] = [.content false] := by
  have whole : "content".toList.splitOn '.' = ["content"] := by decide
  have other : "content" ≠ ['.'] := by decide
  rfl

/-- A wrapper that is accepted is a document for each model, with a place that is always there where
the body is printed. The layout is that document with the body. -/
theorem accepted_layout_shows_content {wrapper : Text} (accepted : wrapperHasRawContent wrapper = true)
    (model : Value) :
    ∃ nodes, parse wrapper = .ok nodes ∧ .content false ∈ document model nodes ∧ ∀ content,
      renderInLayout wrapper model content = capped (fill content (document model nodes)) ∧
        ∀ out, renderInLayout wrapper model content = .ok out → content <:+: out := by
  unfold wrapperHasRawContent at accepted
  cases parsed : parse wrapper with
  | error error => simp [parsed] at accepted
  | ok nodes =>
      rw [parsed] at accepted
      obtain ⟨node, member, raw⟩ := List.any_eq_true.mp accepted
      have printed : .content false ∈ document model nodes := by
        rw [isRawContent_eq raw] at member
        exact mem_parts member (by rw [nodeParts, varParts_content]; exact List.mem_singleton_self _)
      refine ⟨nodes, rfl, printed, fun content => ?_⟩
      have layout : renderInLayout wrapper model content = capped (fill content (document model nodes)) := by
        rw [renderInLayout, render_eq, parsed]
        exact congrArg capped (fills_pieces content nodes [.layout])
      refine ⟨layout, fun out shown => ?_⟩
      rw [layout, capped] at shown
      split_ifs at shown
      rw [← Except.ok.inj shown]
      exact infix_fill printed content

def boldWrapper : Text := "<b>\x7b\x7b\x7bcontent\x7d\x7d\x7d</b>"

def ownContent : Value := .object [("content", .null)]

/-- The body is shown although the model has one of its own. -/
theorem own_content_replaced : ∃ nodes, parse boldWrapper = .ok nodes ∧
    .content false ∈ document ownContent nodes ∧ ∀ content,
      renderInLayout boldWrapper ownContent content =
          capped (fill content (document ownContent nodes)) ∧
        ∀ out, renderInLayout boldWrapper ownContent content = .ok out → content <:+: out :=
  accepted_layout_shows_content (by decide +kernel) ownContent

end Camelmailer.Template

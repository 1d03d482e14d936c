import Camelmailer.Core.Template
import Mathlib.Data.List.Forall2

/-!
# What a template is rendered to

Without a limit a tree is rendered to pieces: texts of the template, and values that are written
raw or escaped. The limit takes nothing away from that, it only refuses what is too long. Two models
that differ in their strings give the same pieces but for these strings, and what is escaped has no
markup of its own.
-/

namespace Camelmailer.Template

open Utf8

/-! ## Pieces -/

inductive Piece where
  | template (text : Text)
  | raw (value : Text)
  | escaped (value : Text)
deriving DecidableEq

def Piece.text : Piece → Text
  | .template text => text
  | .raw value => value
  | .escaped value => htmlEscape value

def varPieces (path : Text) (escaped : Bool) (stack : List Value) : List Piece :=
  match lookup stack path with
  | some value => [if escaped then .escaped (scalar value) else .raw (scalar value)]
  | none => []

/-- What a section does, with the pieces of its body in each stack. -/
def sectionPieces (path : Text) (inverted : Bool) (body : List Value → List Piece)
    (stack : List Value) : List Piece :=
  let value := lookup stack path
  if inverted then if value.any isTruthy then [] else body stack
  else match value with
  | some (.array items) => items.flatMap (fun item => body (item :: stack))
  | some value => if isTruthy value then body (value :: stack) else []
  | none => []

mutual

/-- The rendering without a limit. -/
def pieces : List Node → List Value → List Piece
  | [], _ => []
  | node :: rest, stack => nodePieces node stack ++ pieces rest stack

def nodePieces : Node → List Value → List Piece
  | .text text, _ => [.template text]
  | .var path escaped, stack => varPieces path escaped stack
  | .sec path inverted children, stack => sectionPieces path inverted (pieces children) stack

end

def textOf (written : List Piece) : Text := written.flatMap Piece.text

@[simp] theorem textOf_nil : textOf [] = [] := rfl

@[simp] theorem textOf_append (front back : List Piece) :
    textOf (front ++ back) = textOf front ++ textOf back := List.flatMap_append

/-! ## The limit -/

/-- A text within the limit. -/
def capped (text : Text) : Except RenderError Text :=
  if maxOutput < Str.byteLen text then .error .outputTooLarge else .ok text

/-- A part of a rendering that writes a text where there is room for it, that fails where there is
none, and that leaves the stack as it was. -/
def Writes (part : Render) (text : List Value → Text) : Prop :=
  ∀ stack out, Str.byteLen out ≤ maxOutput →
    (Str.byteLen (out ++ text stack) ≤ maxOutput ∧
      part ⟨stack, out⟩ = (.ok (), ⟨stack, out ++ text stack⟩)) ∨
    (maxOutput < Str.byteLen (out ++ text stack) ∧
      ∃ written, part ⟨stack, out⟩ = (.error .outputTooLarge, ⟨stack, written⟩))

theorem writes_done : Writes done (fun _ => []) := by
  intro stack out within
  exact .inl ⟨by simpa using within, by simp [done]⟩

theorem writes_pushCapped (text : Text) : Writes (pushCapped text) (fun _ => text) := by
  intro stack out within
  unfold pushCapped
  rw [← Str.byteLen_append]
  split_ifs with long
  · exact .inr ⟨long, out, rfl⟩
  · exact .inl ⟨Nat.le_of_not_lt long, rfl⟩

/-- What is too long stays so with more behind it. -/
theorem Writes.andThen {first second : Render} {front back : List Value → Text}
    (one : Writes first front) (other : Writes second back) :
    Writes (first.andThen second) (fun stack => front stack ++ back stack) := by
  intro stack out within
  unfold Render.andThen
  rcases one stack out within with ⟨fits, ran⟩ | ⟨long, written, ran⟩
  · rw [ran, ← List.append_assoc]
    exact other stack _ fits
  · rw [ran]
    refine .inr ⟨?_, written, rfl⟩
    rw [← List.append_assoc, Str.byteLen_append]
    omega

variable {text : List Value → Text} {body : Render}

theorem Writes.inScope (writes : Writes body text) (value : Value) :
    Writes (inScope value body) (fun stack => text (value :: stack)) := by
  intro stack out within
  unfold Template.inScope
  rcases writes (value :: stack) out within with ⟨fits, ran⟩ | ⟨long, written, ran⟩
  · rw [ran]
    exact .inl ⟨fits, rfl⟩
  · rw [ran]
    exact .inr ⟨long, written, rfl⟩

theorem Writes.overItems (writes : Writes body text) (items : List Value) :
    Writes (overItems body items) (fun stack => items.flatMap (fun item => text (item :: stack))) := by
  induction items with
  | nil => exact writes_done
  | cons item items ih => exact (writes.inScope item).andThen ih

theorem writes_renderVar (path : Text) (escaped : Bool) :
    Writes (renderVar path escaped) (fun stack => textOf (varPieces path escaped stack)) := by
  intro stack out within
  unfold renderVar varPieces
  dsimp only
  cases lookup stack path with
  | none => exact writes_done stack out within
  | some value =>
      cases escaped with
      | false => simpa [textOf, Piece.text] using writes_pushCapped (scalar value) stack out within
      | true => simpa [textOf, Piece.text] using writes_pushCapped (htmlEscape (scalar value)) stack out within

theorem Writes.renderSection {inside : List Value → List Piece}
    (writes : Writes body (fun stack => textOf (inside stack))) (path : Text) (inverted : Bool) :
    Writes (renderSection path inverted body)
      (fun stack => textOf (sectionPieces path inverted inside stack)) := by
  intro stack out within
  have nothing := writes_done stack out within
  have scoping (value : Value) := writes.inScope value stack out within
  unfold Template.renderSection sectionPieces
  dsimp only
  cases inverted with
  | true =>
      rw [if_pos rfl, if_pos rfl]
      split_ifs
      · exact nothing
      · exact writes stack out within
  | false =>
      rw [if_neg Bool.false_ne_true, if_neg Bool.false_ne_true]
      cases lookup stack path with
      | none => exact nothing
      | some value =>
          cases value with
          | array items =>
              simpa [textOf, List.flatMap_assoc] using writes.overItems items stack out within
          | null => exact nothing
          | number text => exact scoping (.number text)
          | object map => exact scoping (.object map)
          | bool flag =>
              cases flag with
              | false => exact nothing
              | true => exact scoping (.bool true)
          | string text =>
              dsimp only
              split_ifs
              · exact scoping (.string text)
              · exact nothing

mutual

theorem writes_renderNodes :
    ∀ nodes : List Node, Writes (renderNodes nodes) (fun stack => textOf (pieces nodes stack))
  | [] => writes_done
  | node :: rest => by
      have both := (writes_renderNode node).andThen (writes_renderNodes rest)
      intro stack out within
      simpa [pieces, renderNodes] using both stack out within

theorem writes_renderNode :
    ∀ node : Node, Writes (renderNode node) (fun stack => textOf (nodePieces node stack))
  | .text text => by
      intro stack out within
      simpa [nodePieces, renderNode, textOf, Piece.text] using writes_pushCapped text stack out within
  | .var path escaped => writes_renderVar path escaped
  | .sec path inverted children => (writes_renderNodes children).renderSection path inverted

end

/-! ## The stack -/

/-- A part of a rendering that leaves the stack as it was, also when it fails. -/
def Restores (part : Render) : Prop := ∀ rendering, (part rendering).2.stack = rendering.stack

theorem restores_done : Restores done := fun _ => rfl

theorem restores_pushCapped (text : Text) : Restores (pushCapped text) := by
  intro rendering
  unfold pushCapped
  split_ifs <;> rfl

theorem Restores.andThen {first second : Render} (one : Restores first) (other : Restores second) :
    Restores (first.andThen second) := by
  intro rendering
  have before := one rendering
  unfold Render.andThen
  cases ran : first rendering with
  | mk result after =>
      rw [ran] at before
      cases result with
      | error error => exact before
      | ok value => exact (other after).trans before

theorem Restores.inScope (restores : Restores body) (value : Value) :
    Restores (inScope value body) :=
  fun rendering => congrArg List.tail (restores { rendering with stack := value :: rendering.stack })

theorem Restores.overItems (restores : Restores body) (items : List Value) :
    Restores (overItems body items) := by
  induction items with
  | nil => exact restores_done
  | cons item items ih => exact (restores.inScope item).andThen ih

theorem restores_renderVar (path : Text) (escaped : Bool) : Restores (renderVar path escaped) := by
  intro rendering
  unfold renderVar
  cases lookup rendering.stack path with
  | none => rfl
  | some value => exact restores_pushCapped _ rendering

theorem Restores.renderSection (restores : Restores body) (path : Text) (inverted : Bool) :
    Restores (renderSection path inverted body) := by
  intro rendering
  unfold Template.renderSection
  dsimp only
  split
  · split
    · rfl
    · exact restores rendering
  · split
    · exact restores.overItems _ rendering
    · split
      · exact restores.inScope _ rendering
      · rfl
    · rfl

mutual

theorem restores_renderNodes : ∀ nodes : List Node, Restores (renderNodes nodes)
  | [] => restores_done
  | node :: rest => (restores_renderNode node).andThen (restores_renderNodes rest)

theorem restores_renderNode : ∀ node : Node, Restores (renderNode node)
  | .text text => restores_pushCapped text
  | .var path escaped => restores_renderVar path escaped
  | .sec path inverted children => (restores_renderNodes children).renderSection path inverted

end

/-- A rendering is the one without a limit, or there is none. -/
theorem render_eq (template : Text) (model : Value) :
    render template model =
      (parse template).bind (fun nodes => capped (textOf (pieces nodes [model]))) := by
  unfold render
  cases parse template with
  | error error => rfl
  | ok nodes =>
      dsimp only [Except.bind]
      unfold capped
      rcases writes_renderNodes nodes [model] [] (Nat.zero_le _) with ⟨fits, ran⟩ | ⟨long, written, ran⟩
      · rw [List.nil_append] at fits ran
        rw [ran, if_neg (Nat.not_lt.mpr fits)]
      · rw [List.nil_append] at long
        rw [ran, if_pos long]

/-- The limit is only a limit, and no section leaves anything on the stack. -/
theorem rendering_capped (template : Text) (model : Value) :
    render template model =
        (parse template).bind (fun nodes => capped (textOf (pieces nodes [model]))) ∧
      ∀ path inverted children rendering,
        (renderNode (.sec path inverted children) rendering).2.stack = rendering.stack :=
  ⟨render_eq template model,
    fun path inverted children => restores_renderNode (.sec path inverted children)⟩

/-! ## What is escaped -/

def entities : List Text :=
  ["&amp;", "&lt;", "&gt;", "&quot;", "&#39;"]

/-- A character that is markup wherever it stands. -/
def isMarkup (char : Char) : Bool := char ∈ ['<', '>', '"', '\'']

theorem escapeChar_cases (char : Char) :
    escapeChar char ∈ entities ∨ escapeChar char = [char] ∧ char ≠ '&' ∧ isMarkup char = false := by
  unfold escapeChar
  split
  all_goals first | exact .inl (by decide) | skip
  next ampersand less greater double single =>
    refine .inr ⟨rfl, ampersand, ?_⟩
    simpa [isMarkup] using ⟨less, greater, double, single⟩

theorem markup_entity {entity : Text} (member : entity ∈ entities) :
    (∀ char ∈ entity, isMarkup char = false) ∧ ∃ rest, entity = '&' :: rest ∧ '&' ∉ rest := by
  have plain : entities.all (fun entity => entity.all (fun char => !isMarkup char)) = true := by decide
  have single : entities.all (fun entity =>
      entity.head? = some '&' && !entity.tail.contains '&') = true := by decide
  refine ⟨fun char inside => ?_, ?_⟩
  · simpa using List.all_eq_true.mp (List.all_eq_true.mp plain entity member) char inside
  · have starts := List.all_eq_true.mp single entity member
    cases entity with
    | nil => simp at starts
    | cons first rest =>
        obtain ⟨rfl, once⟩ : first = '&' ∧ '&' ∉ rest := by simpa using starts
        exact ⟨rest, rfl, once⟩

theorem markup_htmlEscape (value : Text) : ∀ char ∈ htmlEscape value, isMarkup char = false := by
  intro char member
  obtain ⟨original, -, inside⟩ := List.mem_flatMap.mp member
  rcases escapeChar_cases original with entity | ⟨same, -, plain⟩
  · exact (markup_entity entity).1 char inside
  · rw [same, List.mem_singleton] at inside
    rwa [inside]

/-- Every `&` that is written for a value starts an entity. -/
theorem ampersand_htmlEscape {value front back : Text}
    (split : htmlEscape value = front ++ '&' :: back) :
    ∃ entity ∈ entities, entity <+: '&' :: back := by
  induction value generalizing front with
  | nil => simp [htmlEscape] at split
  | cons char rest ih =>
      rcases List.append_eq_append_iff.mp split with ⟨more, rfl, later⟩ | ⟨more, within, later⟩
      · exact ih later
      · cases more with
        | nil =>
            have split : htmlEscape rest = [] ++ '&' :: back := later.symm
            exact ih split
        | cons first more =>
            obtain ⟨rfl, rfl⟩ := List.cons.inj later
            rcases escapeChar_cases char with entity | ⟨same, other, -⟩
            · obtain ⟨-, tail, whole, single⟩ := markup_entity entity
              cases front with
              | nil => exact ⟨_, entity, by rw [within]; exact List.prefix_append _ _⟩
              | cons initial front =>
                  rw [whole] at within
                  obtain ⟨-, rfl⟩ := List.cons.inj within
                  exact absurd (List.mem_append_right _ List.mem_cons_self) single
            · rw [same] at within
              cases front with
              | nil => exact absurd (List.cons.inj within).1 other
              | cons initial front => simp at within

/-! ## Models that differ in their strings -/

mutual

/-- Two values with the same shape, and with strings that are empty together. -/
inductive Alike : Value → Value → Prop
  | null : Alike .null .null
  | bool (flag : Bool) : Alike (.bool flag) (.bool flag)
  | number (text : Text) : Alike (.number text) (.number text)
  | string {text other : Text} (empty : text = [] ↔ other = []) : Alike (.string text) (.string other)
  | array {items others : List Value} (each : AlikeItems items others) :
      Alike (.array items) (.array others)
  | object {map other : List (Text × Value)} (each : AlikeEntries map other) :
      Alike (.object map) (.object other)

inductive AlikeItems : List Value → List Value → Prop
  | nil : AlikeItems [] []
  | cons {item other : Value} {items others : List Value} (first : Alike item other)
      (rest : AlikeItems items others) : AlikeItems (item :: items) (other :: others)

inductive AlikeEntries : List (Text × Value) → List (Text × Value) → Prop
  | nil : AlikeEntries [] []
  | cons {key : Text} {value other : Value} {map others : List (Text × Value)}
      (first : Alike value other) (rest : AlikeEntries map others) :
      AlikeEntries ((key, value) :: map) ((key, other) :: others)

end

theorem alike_get {map others : List (Text × Value)} (alike : AlikeEntries map others) (key : Text) :
    Option.Rel Alike (get map key) (get others key) := by
  induction map generalizing others with
  | nil =>
      cases alike
      exact .none
  | cons entry map ih =>
      cases alike with
      | cons first rest =>
          unfold get
          rw [List.find?_cons, List.find?_cons]
          rename_i counterkey value other others
          by_cases same : counterkey = key
          · rw [decide_eq_true same]
            exact .some first
          · rw [decide_eq_false same]
            exact ih rest

theorem alike_cases {found other : Option Value} (alike : Option.Rel Alike found other) :
    (found = none ∧ other = none) ∨ ∃ value counterpart, found = some value ∧
      other = some counterpart ∧ Alike value counterpart := by
  cases alike with
  | none => exact .inl ⟨rfl, rfl⟩
  | some same => exact .inr ⟨_, _, rfl, rfl, same⟩

theorem alike_entry {value other : Value} (alike : Alike value other) (key : Text) :
    Option.Rel Alike (entry value key) (entry other key) := by
  cases alike with
  | object each => exact alike_get each key
  | _ => exact .none

theorem alike_findSome {stack others : List Value} (alike : AlikeItems stack others) (key : Text) :
    Option.Rel Alike (stack.findSome? (fun scope => entry scope key))
      (others.findSome? (fun scope => entry scope key)) := by
  induction stack generalizing others with
  | nil =>
      cases alike
      exact .none
  | cons scope stack ih =>
      cases alike with
      | cons first rest =>
          rw [List.findSome?_cons, List.findSome?_cons]
          rcases alike_cases (alike_entry first key) with ⟨none, nothing⟩ | ⟨_, _, one, another, same⟩
          · rw [none, nothing]
            exact ih rest
          · rw [one, another]
            exact .some same

theorem alike_descend (segments : List Text) {value other : Value} (alike : Alike value other) :
    Option.Rel Alike (segments.foldlM entry value) (segments.foldlM entry other) := by
  induction segments generalizing value other with
  | nil => exact .some alike
  | cons segment segments ih =>
      rw [List.foldlM_cons, List.foldlM_cons]
      rcases alike_cases (alike_entry alike segment) with ⟨none, nothing⟩ | ⟨_, _, one, another, same⟩
      · rw [none, nothing]
        exact .none
      · rw [one, another]
        exact ih same

theorem alike_lookup {stack others : List Value} (alike : AlikeItems stack others) (path : Text) :
    Option.Rel Alike (lookup stack path) (lookup others path) := by
  unfold lookup
  split_ifs
  · cases alike with
    | nil => exact .none
    | cons first rest => exact .some first
  · split
    · exact .none
    · next first segments _ =>
        rcases alike_cases (alike_findSome alike first) with ⟨none, nothing⟩ | ⟨_, _, one, another, same⟩
        · rw [none, nothing]
          exact .none
        · rw [one, another]
          exact alike_descend segments same

theorem alike_isTruthy {value other : Value} (alike : Alike value other) :
    isTruthy value = isTruthy other := by
  cases alike with
  | string empty => simp [isTruthy, empty]
  | array each => cases each <;> rfl
  | _ => rfl

/-- Two pieces in the same place: the same text of the template, or two values that are escaped. -/
inductive SamePlace : Piece → Piece → Prop
  | template (text : Text) : SamePlace (.template text) (.template text)
  | escaped (value other : Text) : SamePlace (.escaped value) (.escaped other)

mutual

/-- Whether a tree has a tag that writes a raw value. -/
def hasRaw : List Node → Bool
  | [] => false
  | node :: rest => nodeHasRaw node || hasRaw rest

def nodeHasRaw : Node → Bool
  | .text _ => false
  | .var _ escaped => !escaped
  | .sec _ _ children => hasRaw children

end

/-- Pieces of a body in the same places, whatever stack of like values it is in. -/
def SamePlaces (body : List Value → List Piece) : Prop :=
  ∀ stack others, AlikeItems stack others → List.Forall₂ SamePlace (body stack) (body others)

theorem samePlaces_varPieces (path : Text) : SamePlaces (varPieces path true) := by
  intro stack others alike
  unfold varPieces
  rcases alike_cases (alike_lookup alike path) with ⟨none, nothing⟩ | ⟨_, _, one, another, -⟩
  · rw [none, nothing]
    exact .nil
  · rw [one, another]
    exact .cons (.escaped _ _) .nil

variable {body : List Value → List Piece}

theorem samePlaces_items (same : SamePlaces body) {stack others : List Value}
    (alike : AlikeItems stack others) {items counterparts : List Value}
    (each : AlikeItems items counterparts) :
    List.Forall₂ SamePlace (items.flatMap (fun item => body (item :: stack)))
      (counterparts.flatMap (fun item => body (item :: others))) := by
  induction items generalizing counterparts with
  | nil =>
      cases each
      exact .nil
  | cons item items ih =>
      cases each with
      | cons first rest =>
          exact List.rel_append (same _ _ (.cons first alike)) (ih rest)

theorem samePlaces_sectionPieces (same : SamePlaces body) (path : Text) (inverted : Bool) :
    SamePlaces (sectionPieces path inverted body) := by
  intro stack others alike
  unfold sectionPieces
  rcases alike_cases (alike_lookup alike path) with ⟨none, nothing⟩ | ⟨value, other, one, another, like⟩
  · rw [none, nothing]
    cases inverted with
    | true => exact same _ _ alike
    | false => exact .nil
  · rw [one, another]
    have truthy := alike_isTruthy like
    cases inverted with
    | true =>
        simp only [Option.any_some, truthy, if_true]
        split_ifs
        · exact .nil
        · exact same _ _ alike
    | false =>
        simp only [Bool.false_eq_true, if_false]
        cases like with
        | array each => exact samePlaces_items same alike each
        | null => exact .nil
        | number text => exact same _ _ (.cons (.number text) alike)
        | object each => exact same _ _ (.cons (.object each) alike)
        | bool flag =>
            cases flag with
            | false => exact .nil
            | true => exact same _ _ (.cons (.bool true) alike)
        | string empty =>
            dsimp only
            rw [truthy]
            split_ifs
            · exact same _ _ (.cons (.string empty) alike)
            · exact .nil

mutual

theorem samePlaces_pieces : ∀ nodes : List Node, hasRaw nodes = false → SamePlaces (pieces nodes)
  | [], _ => fun _ _ _ => .nil
  | node :: rest, plain => by
      obtain ⟨first, others⟩ := Bool.or_eq_false_iff.mp plain
      intro stack counterparts alike
      rw [pieces, pieces]
      exact List.rel_append (samePlaces_nodePieces node first _ _ alike)
        (samePlaces_pieces rest others _ _ alike)

theorem samePlaces_nodePieces :
    ∀ node : Node, nodeHasRaw node = false → SamePlaces (nodePieces node)
  | .text text, _ => fun _ _ _ => .cons (.template text) .nil
  | .var path true, _ => samePlaces_varPieces path
  | .var path false, raw => by cases raw
  | .sec path inverted children, plain =>
      samePlaces_sectionPieces (samePlaces_pieces children plain) path inverted

end

/-- Pieces in the same places have the same markup, all of it from the template. -/
theorem markup_samePlaces {written others : List Piece} (same : List.Forall₂ SamePlace written others) :
    (textOf written).filter isMarkup = (textOf others).filter isMarkup := by
  induction same with
  | nil => rfl
  | cons first rest ih =>
      have none (value : Text) : (htmlEscape value).filter isMarkup = [] := by
        simpa [List.filter_eq_nil_iff] using markup_htmlEscape value
      change (Piece.text _ ++ textOf _).filter isMarkup = (Piece.text _ ++ textOf _).filter isMarkup
      rw [List.filter_append, List.filter_append, ih]
      cases first with
      | template text => rfl
      | escaped value other => rw [Piece.text, Piece.text, none, none]

/-- A rendering is the pieces of its template one behind the other, and what is escaped has no markup
of its own; so where nothing is raw, the strings of the model do not change the markup. -/
theorem rendering_escaped (template : Text) :
    (∀ value, (∀ char ∈ (Piece.escaped value).text, isMarkup char = false) ∧
      ∀ front back, (Piece.escaped value).text = front ++ '&' :: back →
        ∃ entity ∈ entities, entity <+: '&' :: back) ∧
      ∀ nodes, parse template = .ok nodes →
        (∀ model out, render template model = .ok out → out = textOf (pieces nodes [model])) ∧
          (hasRaw nodes = false → ∀ model other, Alike model other → ∀ out changed,
            render template model = .ok out → render template other = .ok changed →
              List.Forall₂ SamePlace (pieces nodes [model]) (pieces nodes [other]) ∧
                out.filter isMarkup = changed.filter isMarkup) := by
  refine ⟨fun value => ⟨markup_htmlEscape value, fun _ _ => ampersand_htmlEscape⟩, ?_⟩
  intro nodes parsed
  have written (model : Value) (out : Text) (rendered : render template model = .ok out) :
      out = textOf (pieces nodes [model]) := by
    rw [render_eq, parsed] at rendered
    dsimp only [Except.bind, capped] at rendered
    split_ifs at rendered
    exact (Except.ok.inj rendered).symm
  refine ⟨written, ?_⟩
  intro plain model other alike out changed rendered again
  have same := samePlaces_pieces nodes plain [model] [other] (.cons alike .nil)
  refine ⟨same, ?_⟩
  rw [written model out rendered, written other changed again]
  exact markup_samePlaces same

/-- A name with markup in it. -/
example : render "<p>\x7b\x7b name \x7d\x7d</p>"
    (.object [("name", .string "<Ada>")]) = .ok "<p>&lt;Ada&gt;</p>" := by
  decide +kernel

end Camelmailer.Template

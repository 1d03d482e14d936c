import Camelmailer.Core.Template

/-!
# The grammar of templates

A template is a row of texts and closed tags, and its sections are balanced: each is closed by a tag
with its own path, and no more than a number of them are open at a time. The parser accepts just
that. What a parser with open sections still demands of the tokens that come is said by `Closes`.

A tree is printed with a space on each side of a path. Not every tree can be printed, since a text
that ends with a brace runs into the tag behind it; and a comment leaves two texts side by side,
which are one text when they are read again.
-/

namespace Camelmailer.Template

open Utf8 Occurrences

/-! ## Vocabulary -/

inductive Token where
  | text (text : Text)
  | tag (tag : Tag)
deriving DecidableEq

/-- A tag as it is written. What is in it stands before the first closing. -/
inductive Tagged : Text → Tag → Prop
  | raw {body : Text} (fresh : Fresh rawClosing body) :
      Tagged (opening ++ '\x7b' :: (body ++ rawClosing)) (.var (Str.trim body) false)
  | plain {body : Text} (other : body.head? ≠ some '\x7b') (fresh : Fresh closing body) :
      Tagged (opening ++ (body ++ closing)) (tagOf (Str.trim body))

def textTokens (text : Text) : List Token := if text = [] then [] else [.text text]

/-- A template whose tags are closed. -/
inductive Tokenized : Text → List Token → Prop
  | last {text : Text} (untagged : ¬ opening <:+: text) : Tokenized text (textTokens text)
  | tag {front whole rest : Text} {tag : Tag} {tokens : List Token} (fresh : Fresh opening front)
      (tagged : Tagged whole tag) (others : Tokenized rest tokens) :
      Tokenized (front ++ (whole ++ rest)) (textTokens front ++ .tag tag :: tokens)

/-- Tokens whose sections are balanced, with the levels that are left for them. -/
inductive Balanced : Nat → List Token → List Node → Prop
  | nil {levels : Nat} : Balanced levels [] []
  | text {levels : Nat} {text : Text} {tokens : List Token} {nodes : List Node}
      (others : Balanced levels tokens nodes) :
      Balanced levels (.text text :: tokens) (.text text :: nodes)
  | nothing {levels : Nat} {tokens : List Token} {nodes : List Node}
      (others : Balanced levels tokens nodes) : Balanced levels (.tag .nothing :: tokens) nodes
  | var {levels : Nat} {path : Text} {escaped : Bool} {tokens : List Token} {nodes : List Node}
      (others : Balanced levels tokens nodes) :
      Balanced levels (.tag (.var path escaped) :: tokens) (.var path escaped :: nodes)
  | sec {levels : Nat} {path : Text} {inverted : Bool} {inner tokens : List Token}
      {children nodes : List Node} (inside : Balanced levels inner children)
      (others : Balanced (levels + 1) tokens nodes) :
      Balanced (levels + 1)
        (.tag (.opens path inverted) :: (inner ++ .tag (.closes path) :: tokens))
        (.sec path inverted children :: nodes)

/-! ## Tokens of a template -/

theorem opening_ne_nil : opening ≠ [] := List.cons_ne_nil _ _

theorem closing_ne_nil : closing ≠ [] := List.cons_ne_nil _ _

theorem rawClosing_ne_nil : rawClosing ≠ [] := List.cons_ne_nil _ _

theorem readTag_raw (triple : Text) : readTag ('\x7b' :: triple) =
    (cut rawClosing triple).map (fun parts => (.var (Str.trim parts.1) false, parts.2)) := rfl

theorem readTag_plain {after : Text} (other : after.head? ≠ some '\x7b') : readTag after =
    (cut closing after).map (fun parts => (tagOf (Str.trim parts.1), parts.2)) := by
  unfold readTag
  split
  · exact absurd rfl other
  · rfl

theorem readTag_eq_some {after rest : Text} {tag : Tag} :
    readTag after = some (tag, rest) ↔ ∃ whole, Tagged whole tag ∧ opening ++ after = whole ++ rest := by
  constructor
  · intro read
    by_cases raw : after.head? = some '\x7b'
    · obtain ⟨triple, rfl⟩ : ∃ triple, after = '\x7b' :: triple := by
        cases after with
        | nil => cases raw
        | cons first triple => exact ⟨triple, by rw [Option.some.inj raw]⟩
      obtain ⟨⟨body, behind⟩, found, same⟩ := Option.map_eq_some_iff.mp read
      cases same
      obtain ⟨rfl, fresh⟩ := (cut_eq_some rawClosing_ne_nil).mp found
      exact ⟨_, .raw fresh, by simp⟩
    · rw [readTag_plain raw] at read
      obtain ⟨⟨body, behind⟩, found, same⟩ := Option.map_eq_some_iff.mp read
      cases same
      obtain ⟨rfl, fresh⟩ := (cut_eq_some closing_ne_nil).mp found
      refine ⟨_, .plain ?_ fresh, by simp⟩
      intro head
      exact raw (by rw [List.head?_append, head]; rfl)
  · rintro ⟨whole, tagged, same⟩
    cases tagged with
    | raw fresh =>
        rename_i body
        obtain rfl : after = '\x7b' :: (body ++ (rawClosing ++ rest)) := by simpa [opening] using same
        rw [readTag_raw, (cut_eq_some rawClosing_ne_nil).mpr ⟨rfl, fresh⟩]
        rfl
    | plain other fresh =>
        rename_i body
        obtain rfl : after = body ++ (closing ++ rest) := by simpa [opening] using same
        have first : (body ++ (closing ++ rest)).head? ≠ some '\x7b' := by
          cases body with
          | nil => simp [closing]
          | cons char body => exact other
        rw [readTag_plain first, (cut_eq_some closing_ne_nil).mpr ⟨rfl, fresh⟩]
        rfl

/-- A token is taken in. -/
def step (parser : Parser) : Token → Except RenderError Parser
  | .text text => .ok (parser.push (.text text))
  | .tag tag => applyTag parser tag

def run (parser : Parser) : List Token → Except RenderError Parser
  | [] => .ok parser
  | token :: tokens =>
      match step parser token with
      | .error error => .error error
      | .ok parser => run parser tokens

theorem run_textTokens (parser : Parser) (text : Text) (tokens : List Token) :
    run parser (textTokens text ++ tokens) = run (parser.pushText text) tokens := by
  unfold textTokens Parser.pushText
  split_ifs
  · rfl
  · rfl

theorem run_tag (parser : Parser) (tag : Tag) (tokens : List Token) :
    run parser (.tag tag :: tokens) =
      match applyTag parser tag with
      | .error error => .error error
      | .ok parser => run parser tokens := rfl

variable {nodes : List Node}

/-- The loop has a result when the tags are closed and the tokens are taken in without error. -/
theorem loop_eq_ok {turns : Nat} {parser : Parser} {rest : Text} (enough : rest.length < turns) :
    loop turns parser rest = .ok nodes ↔
      ∃ tokens final, Tokenized rest tokens ∧ run parser tokens = .ok final ∧
        finish final = .ok nodes := by
  induction turns generalizing parser rest with
  | zero => exact absurd enough (Nat.not_lt_zero _)
  | succ turns ih =>
      unfold loop
      constructor
      · intro looped
        cases found : cut opening rest with
        | none =>
            rw [found] at looped
            refine ⟨textTokens rest, parser.pushText rest,
              .last ((cut_eq_none opening_ne_nil).mp found), ?_, looped⟩
            rw [← List.append_nil (textTokens rest), run_textTokens]
            rfl
        | some parts =>
            obtain ⟨front, after⟩ := parts
            have shorter := cut_length opening_ne_nil found
            obtain ⟨whole, fresh⟩ := (cut_eq_some opening_ne_nil).mp found
            rw [found] at looped
            dsimp only at looped
            cases read : readTag after with
            | none => simp [read] at looped
            | some parts =>
                obtain ⟨tag, behind⟩ := parts
                rw [read] at looped
                dsimp only at looped
                cases applied : applyTag (parser.pushText front) tag with
                | error error => simp [applied] at looped
                | ok next =>
                    rw [applied] at looped
                    obtain ⟨written, tagged, same⟩ := readTag_eq_some.mp read
                    have less : behind.length < turns := by
                      have length := congrArg List.length same
                      have two : opening.length ≤ written.length := by
                        cases tagged <;> simp
                      simp only [List.length_append] at length
                      have pattern : opening.length = 2 := rfl
                      omega
                    obtain ⟨tokens, final, others, ran, finished⟩ := (ih less).mp looped
                    refine ⟨textTokens front ++ .tag tag :: tokens, final, ?_, ?_, finished⟩
                    · rw [whole, same]
                      exact .tag fresh tagged others
                    · rw [run_textTokens, run_tag, applied]
                      exact ran
      · rintro ⟨tokens, final, tokenized, ran, finished⟩
        cases tokenized with
        | last untagged =>
            rw [(cut_eq_none opening_ne_nil).mpr untagged]
            have took := run_textTokens parser rest []
            rw [List.append_nil, ran] at took
            rw [← Except.ok.inj took]
            exact finished
        | tag fresh tagged others =>
            rename_i front whole behind tag more
            obtain ⟨after, rfl⟩ : ∃ after, whole = opening ++ after := by
              cases tagged with
              | raw fresh => exact ⟨_, rfl⟩
              | plain other fresh => exact ⟨_, rfl⟩
            rw [List.append_assoc opening, (cut_eq_some opening_ne_nil).mpr ⟨rfl, fresh⟩]
            dsimp only
            rw [readTag_eq_some.mpr ⟨_, tagged, (List.append_assoc _ _ _).symm⟩]
            dsimp only
            rw [run_textTokens, run_tag] at ran
            cases applied : applyTag (parser.pushText front) tag with
            | error error => simp [applied] at ran
            | ok next =>
                rw [applied] at ran
                refine (ih ?_).mpr ⟨more, final, others, ran, finished⟩
                have two : opening.length = 2 := rfl
                simp only [List.length_append] at enough
                omega

/-! ## Balanced sections -/

/-- Several nodes go to the `sink`. -/
def Parser.pushAll (parser : Parser) (nodes : List Node) : Parser :=
  match parser.stack with
  | [] => { parser with root := parser.root ++ nodes }
  | frame :: outer =>
      { parser with stack := { frame with children := frame.children ++ nodes } :: outer }

theorem pushAll_nil (parser : Parser) : parser.pushAll [] = parser := by
  obtain ⟨root, stack⟩ := parser
  cases stack <;> simp [Parser.pushAll]

theorem pushAll_push (parser : Parser) (node : Node) (nodes : List Node) :
    (parser.push node).pushAll nodes = parser.pushAll (node :: nodes) := by
  obtain ⟨root, stack⟩ := parser
  cases stack <;> simp [Parser.push, Parser.pushAll]

theorem stack_push (parser : Parser) (node : Node) :
    (parser.push node).stack.length = parser.stack.length := by
  obtain ⟨root, stack⟩ := parser
  cases stack <;> rfl

variable {tokens : List Token}

/-- Balanced tokens are taken in where there is room for their levels. -/
theorem run_balanced {levels : Nat} (balanced : Balanced levels tokens nodes) :
    ∀ parser : Parser, parser.stack.length + levels ≤ maxDepth → ∀ more,
      run parser (tokens ++ more) = run (parser.pushAll nodes) more := by
  induction balanced with
  | nil =>
      intro parser room more
      rw [pushAll_nil]
      rfl
  | text others ih | var others ih =>
      intro parser room more
      rw [← pushAll_push]
      exact ih _ (by rwa [stack_push]) more
  | nothing others ih =>
      intro parser room more
      exact ih parser room more
  | sec inside others insideHypothesis othersHypothesis =>
      rename_i levels path inverted inner tokens children nodes
      intro parser room more
      have open_ : applyTag parser (.opens path inverted) =
          .ok { parser with stack := ⟨path, inverted, []⟩ :: parser.stack } :=
        if_neg (by omega)
      rw [List.cons_append, run_tag, open_, List.append_assoc, List.cons_append]
      dsimp only
      rw [insideHypothesis _ (by simp only [List.length_cons]; omega), run_tag]
      have close : applyTag (Parser.pushAll
          { parser with stack := ⟨path, inverted, []⟩ :: parser.stack } children) (.closes path) =
          .ok (parser.push (.sec path inverted children)) :=
        if_neg (not_not_intro rfl)
      rw [close, ← pushAll_push]
      exact othersHypothesis _ (by rwa [stack_push]) more

/-- What a parser demands of the tokens that come: that they close its sections from the innermost
one, with balanced tokens before each of these and behind the last. Nodes are waiting for the
innermost section. -/
def Closes (root : List Node) : List Frame → List Node → List Token → List Node → Prop
  | [], waiting, tokens, nodes =>
      ∃ rest, Balanced maxDepth tokens rest ∧ nodes = root ++ (waiting ++ rest)
  | frame :: outer, waiting, tokens, nodes =>
      ∃ inner children rest, tokens = inner ++ .tag (.closes frame.path) :: rest ∧
        Balanced (maxDepth - (outer.length + 1)) inner children ∧
        Closes root outer [.sec frame.path frame.inverted (frame.children ++ (waiting ++ children))]
          rest nodes

theorem closes_push {parser : Parser} {node : Node}
    (closes : Closes (parser.push node).root (parser.push node).stack [] tokens nodes) :
    Closes parser.root parser.stack [node] tokens nodes := by
  obtain ⟨root, stack⟩ := parser
  cases stack with
  | nil =>
      obtain ⟨rest, balanced, rfl⟩ := closes
      exact ⟨rest, balanced, by simp [Parser.push]⟩
  | cons frame outer =>
      obtain ⟨inner, children, rest, whole, balanced, more⟩ := closes
      refine ⟨inner, children, rest, whole, balanced, ?_⟩
      simpa [Parser.push] using more

/-- A token that adds nodes to whatever is behind it. -/
theorem closes_cons {root : List Node} {stack : List Frame} {token : Token} {added : List Node}
    (extends_ : ∀ {levels inner children}, Balanced levels inner children →
      Balanced levels (token :: inner) (added ++ children))
    (closes : Closes root stack added tokens nodes) :
    Closes root stack [] (token :: tokens) nodes := by
  cases stack with
  | nil =>
      obtain ⟨rest, balanced, rfl⟩ := closes
      exact ⟨added ++ rest, extends_ balanced, rfl⟩
  | cons frame outer =>
      obtain ⟨inner, children, rest, rfl, balanced, more⟩ := closes
      exact ⟨token :: inner, added ++ children, rest, rfl, extends_ balanced, more⟩

theorem closes_opens {root : List Node} {stack : List Frame} {path : Text} {inverted : Bool}
    (room : stack.length < maxDepth)
    (closes : Closes root (⟨path, inverted, []⟩ :: stack) [] tokens nodes) :
    Closes root stack [] (.tag (.opens path inverted) :: tokens) nodes := by
  obtain ⟨inner, children, rest, rfl, inside, outside⟩ := closes
  obtain ⟨levels, left⟩ : ∃ levels, maxDepth - stack.length = levels + 1 :=
    ⟨maxDepth - (stack.length + 1), by omega⟩
  have within : maxDepth - (stack.length + 1) = levels := by omega
  rw [within] at inside
  cases stack with
  | nil =>
      obtain ⟨others, balanced, rfl⟩ := outside
      have top : maxDepth = levels + 1 := left
      rw [top] at balanced
      refine ⟨.sec path inverted children :: others, ?_, rfl⟩
      rw [top]
      exact .sec inside balanced
  | cons frame outer =>
      obtain ⟨before, siblings, behind, rfl, balanced, more⟩ := outside
      rw [List.length_cons] at left
      rw [left] at balanced
      refine ⟨.tag (.opens path inverted) :: (inner ++ .tag (.closes path) :: before),
        .sec path inverted children :: siblings, behind, by simp, ?_, more⟩
      rw [left]
      exact .sec inside balanced

theorem closes_of_run {parser final : Parser} (ran : run parser tokens = .ok final)
    (finished : finish final = .ok nodes) :
    Closes parser.root parser.stack [] tokens nodes := by
  induction tokens generalizing parser with
  | nil =>
      obtain rfl := Except.ok.inj ran
      unfold finish at finished
      split_ifs at finished with closed
      rw [closed]
      exact ⟨[], .nil, by simpa using (Except.ok.inj finished).symm⟩
  | cons token tokens ih =>
      unfold run at ran
      cases stepped : step parser token with
      | error error => simp [stepped] at ran
      | ok next =>
          rw [stepped] at ran
          have closes := ih ran
          cases token with
          | text text =>
              obtain rfl := Except.ok.inj stepped
              exact closes_cons .text (closes_push closes)
          | tag tag =>
              cases tag with
              | nothing =>
                  obtain rfl := Except.ok.inj stepped
                  exact closes_cons .nothing closes
              | var path escaped =>
                  obtain rfl := Except.ok.inj stepped
                  exact closes_cons .var (closes_push closes)
              | opens path inverted =>
                  unfold step applyTag at stepped
                  split_ifs at stepped with full
                  obtain rfl := Except.ok.inj stepped
                  exact closes_opens (Nat.lt_of_not_le full) closes
              | closes path =>
                  obtain ⟨root, stack⟩ := parser
                  cases stack with
                  | nil => cases stepped
                  | cons frame outer =>
                      unfold step applyTag at stepped
                      dsimp only at stepped
                      split_ifs at stepped with other
                      obtain rfl := Except.ok.inj stepped
                      obtain rfl := not_not.mp other
                      refine ⟨[], [], tokens, rfl, .nil, ?_⟩
                      simpa using closes_push closes

/-- The parser accepts the templates of the grammar. -/
theorem parse_eq_ok {template : Text} : parse template = .ok nodes ↔
    ∃ tokens, Tokenized template tokens ∧ Balanced maxDepth tokens nodes := by
  rw [parse, loop_eq_ok (Nat.lt_succ_self _)]
  constructor
  · rintro ⟨tokens, final, tokenized, ran, finished⟩
    obtain ⟨rest, balanced, rfl⟩ := closes_of_run ran finished
    exact ⟨tokens, tokenized, balanced⟩
  · rintro ⟨tokens, tokenized, balanced⟩
    refine ⟨tokens, Parser.pushAll ⟨[], []⟩ nodes, tokenized, ?_, rfl⟩
    have ran := run_balanced balanced ⟨[], []⟩ (Nat.le_of_eq (Nat.zero_add _)) []
    rwa [List.append_nil] at ran

end Camelmailer.Template

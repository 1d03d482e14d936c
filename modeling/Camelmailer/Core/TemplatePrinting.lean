import Camelmailer.Core.TemplateGrammar

/-!
# Printed templates

A tree is printed token by token, with a space on each side of a path. It can be read again when no
text of it runs into what is printed behind it. The trees that the parser yields are of that kind,
up to texts that stand side by side because there was a comment between them.
-/

namespace Camelmailer.Template

open Utf8 Occurrences

/-! ## Vocabulary -/

mutual

/-- The tokens of a tree. -/
def tokens : List Node → List Token
  | [] => []
  | node :: rest => nodeTokens node ++ tokens rest

def nodeTokens : Node → List Token
  | .text text => [.text text]
  | .var path escaped => [.tag (.var path escaped)]
  | .sec path inverted children =>
      .tag (.opens path inverted) :: (tokens children ++ [.tag (.closes path)])

end

mutual

/-- How many sections are open at a time. -/
def depth : List Node → Nat
  | [] => 0
  | node :: rest => max (nodeDepth node) (depth rest)

def nodeDepth : Node → Nat
  | .text _ => 0
  | .var _ _ => 0
  | .sec _ _ children => depth children + 1

end

def Tag.print : Tag → Text
  | .nothing => opening ++ closing
  | .var path true => opening ++ (' ' :: path ++ [' '] ++ closing)
  | .var path false => opening ++ '\x7b' :: (' ' :: path ++ [' '] ++ rawClosing)
  | .opens path inverted =>
      opening ++ ((if inverted then '^' else '#') :: ' ' :: path ++ [' '] ++ closing)
  | .closes path => opening ++ ('/' :: ' ' :: path ++ [' '] ++ closing)

def Token.print : Token → Text
  | .text written => written
  | .tag written => written.print

def print (nodes : List Node) : Text := (tokens nodes).flatMap Token.print

def sigils : List Char := ['!', '#', '^', '/', '&']

/-- A tag with a path that is trimmed and does not close it. The path of an escaped variable is
neither empty nor taken for another kind of tag. -/
def Tag.Writable : Tag → Prop
  | .nothing => True
  | .var path true => Str.trim path = path ∧ ¬ closing <:+: path ∧ path ≠ [] ∧
      ∀ char ∈ path.head?, char ∉ sigils
  | .var path false => Str.trim path = path ∧ ¬ rawClosing <:+: path
  | .opens path _ => Str.trim path = path ∧ ¬ closing <:+: path
  | .closes path => Str.trim path = path ∧ ¬ closing <:+: path

/-- Texts that are not empty, have no opening and stand before no text, and before a tag do not end
with a brace. -/
def Separate : List Token → Prop
  | [] => True
  | .tag tag :: rest => tag.Writable ∧ Separate rest
  | .text text :: rest => text ≠ [] ∧ ¬ opening <:+: text ∧
      (match rest with
        | [] => True
        | .text _ :: _ => False
        | .tag _ :: _ => text.getLast? ≠ some '\x7b') ∧ Separate rest

/-- A tree that can be printed. -/
structure Normal (nodes : List Node) : Prop where
  separate : Separate (tokens nodes)
  depth : depth nodes ≤ maxDepth

/-- A node before others. Two texts become one. -/
def join : Node → List Node → List Node
  | .text text, .text more :: rest => .text (text ++ more) :: rest
  | node, rest => node :: rest

mutual

/-- A tree without texts side by side. -/
def merged : List Node → List Node
  | [] => []
  | node :: rest => join (mergedNode node) (merged rest)

def mergedNode : Node → Node
  | .text text => .text text
  | .var path escaped => .var path escaped
  | .sec path inverted children => .sec path inverted (merged children)

end

/-! ## Trees and their tokens -/

mutual

theorem balanced_tokens {levels : Nat} :
    ∀ nodes : List Node, depth nodes ≤ levels → Balanced levels (tokens nodes) nodes
  | [], _ => .nil
  | node :: rest, within =>
      balanced_node node (Nat.le_trans (Nat.le_max_left _ _) within)
        (balanced_tokens rest (Nat.le_trans (Nat.le_max_right _ _) within))

theorem balanced_node {levels : Nat} {more : List Token} {nodes : List Node} :
    ∀ node : Node, nodeDepth node ≤ levels → Balanced levels more nodes →
      Balanced levels (nodeTokens node ++ more) (node :: nodes)
  | .text _, _, others => .text others
  | .var _ _, _, others => .var others
  | .sec path inverted children, within, others => by
      obtain ⟨inside, rfl⟩ : ∃ inside, levels = inside + 1 :=
        ⟨levels - 1, by have : depth children + 1 ≤ levels := within; omega⟩
      have balanced := balanced_tokens children (Nat.le_of_succ_le_succ within)
      rw [nodeTokens, List.cons_append, List.append_assoc]
      exact .sec balanced others

end

variable {nodes : List Node} {given : List Token}

/-- Only tags that say nothing are left out of the tree. -/
theorem tokens_of_balanced {levels : Nat} (balanced : Balanced levels given nodes) :
    tokens nodes = given.filter (fun token => token ≠ .tag .nothing) ∧ depth nodes ≤ levels := by
  induction balanced with
  | nil => exact ⟨rfl, Nat.zero_le _⟩
  | text others ih | var others ih =>
      obtain ⟨same, within⟩ := ih
      refine ⟨?_, by simpa [depth, nodeDepth] using within⟩
      simp [tokens, nodeTokens, same]
  | nothing others ih => simpa using ih
  | sec inside others insideHypothesis othersHypothesis =>
      obtain ⟨inner, low⟩ := insideHypothesis
      obtain ⟨same, within⟩ := othersHypothesis
      refine ⟨?_, by simpa [depth, nodeDepth] using ⟨low, within⟩⟩
      simp [tokens, nodeTokens, same, inner]

theorem depth_join (node : Node) (rest : List Node) :
    depth (join node rest) = max (nodeDepth node) (depth rest) := by
  unfold join
  split
  · simp [depth, nodeDepth]
  · rfl

mutual

theorem depth_merged : ∀ nodes : List Node, depth (merged nodes) = depth nodes
  | [] => rfl
  | node :: rest => by
      rw [merged, depth_join, depth_mergedNode node, depth_merged rest, depth]

theorem depth_mergedNode : ∀ node : Node, nodeDepth (mergedNode node) = nodeDepth node
  | .text _ => rfl
  | .var _ _ => rfl
  | .sec _ _ children => congrArg (· + 1) (depth_merged children)

end

/-! ## Printing and reading again -/

theorem fresh_opening {front : Text} :
    Fresh opening front ↔ ¬ opening <:+: front ++ ['\x7b'] := by
  have last : (front ++ opening).dropLast = front ++ ['\x7b'] := by
    rw [List.dropLast_append_of_ne_nil opening_ne_nil]
    rfl
  rw [Fresh, last]

/-- A text without an opening that does not end with a brace. -/
theorem fresh_of_last {text : Text} (absent : ¬ opening <:+: text) (last : text.getLast? ≠ some '\x7b') :
    Fresh opening text := by
  rw [fresh_opening]
  rcases List.eq_nil_or_concat' text with rfl | ⟨front, char, rfl⟩
  · decide
  · intro inside
    have other : char ≠ '\x7b' := by simpa using last
    rcases List.infix_concat_iff.mp inside with closes | earlier
    · obtain ⟨before, same⟩ := closes
      have two : before ++ ['\x7b'] ++ ['\x7b'] = front ++ [char] ++ ['\x7b'] := by
        simpa [opening] using same
      have one := List.append_cancel_right two
      exact other (List.singleton_inj.mp (List.append_inj_right' one rfl)).symm
    · exact absent earlier

/-- An opening has stood where the brace that ends a text would run into another one. -/
theorem last_of_fresh {text : Text} (fresh : Fresh opening text) : text.getLast? ≠ some '\x7b' := by
  intro last
  obtain ⟨front, rfl⟩ := List.getLast?_eq_some_iff.mp last
  refine fresh_opening.mp fresh ⟨front, [], ?_⟩
  simp [opening]

theorem tagOf_plain {path : Text} (some : path ≠ []) (plain : ∀ char ∈ path.head?, char ∉ sigils) :
    tagOf path = .var path true := by
  cases path with
  | nil => exact absurd rfl some
  | cons first rest =>
      unfold tagOf
      split <;> simp_all [sigils]

theorem trim_spaced (path : Text) : Str.trim (' ' :: (path ++ [' '])) = Str.trim path := by
  have spaces : ∀ char ∈ [' '], Str.isWhitespace char = true := by simp [Str.isWhitespace]
  exact Str.trim_append spaces spaces

/-- A path behind a character that is no white space, with white space on both sides of it. -/
theorem trim_sigil {sigil : Char} (visible : Str.isWhitespace sigil = false) {path : Text}
    (trimmed : Str.trim path = path) :
    ∃ rest, Str.trim (sigil :: ' ' :: (path ++ [' '])) = sigil :: rest ∧ Str.trim rest = path := by
  refine ⟨_, Str.trim_cons visible _, ?_⟩
  rw [Str.trim_trimEnd, trim_spaced, trimmed]

/-- What is printed for a tag is read as that tag. -/
theorem tagged_print {tag : Tag} (writable : tag.Writable) : Tagged tag.print tag := by
  have foreign : ' ' ∉ closing := by decide
  have rawForeign : ' ' ∉ rawClosing := by decide
  have padded {path : Text} (absent : ¬ closing <:+: path) : Fresh closing (' ' :: (path ++ [' '])) :=
    (fresh_foreign closing_ne_nil foreign).mpr (fresh_closed closing_ne_nil foreign absent)
  have marked (sigil : Char) {path : Text} (visible : Str.isWhitespace sigil = false)
      (apart : sigil ≠ '\x7b' ∧ sigil ∉ closing)
      (writable : Str.trim path = path ∧ ¬ closing <:+: path) :
      ∃ rest, Str.trim rest = path ∧
        Tagged (opening ++ (sigil :: ' ' :: (path ++ [' ']) ++ closing)) (tagOf (sigil :: rest)) := by
    obtain ⟨rest, outer, inner⟩ := trim_sigil visible writable.1
    have tagged : Tagged _ (tagOf (Str.trim (sigil :: ' ' :: (path ++ [' '])))) :=
      .plain (by simpa using apart.1) ((fresh_foreign closing_ne_nil apart.2).mpr (padded writable.2))
    rw [outer] at tagged
    exact ⟨rest, inner, tagged⟩
  cases tag with
  | nothing =>
      have tagged : Tagged (opening ++ ([] ++ closing)) (tagOf (Str.trim [])) :=
        .plain (by decide) (fresh_nil closing_ne_nil)
      exact tagged
  | var path escaped =>
      cases escaped with
      | true =>
          obtain ⟨trimmed, absent, some, plain⟩ := writable
          have tagged : Tagged _ (tagOf (Str.trim (' ' :: (path ++ [' '])))) :=
            .plain (by simp) (padded absent)
          rw [trim_spaced, trimmed, tagOf_plain some plain] at tagged
          exact tagged
      | false =>
          obtain ⟨trimmed, absent⟩ := writable
          have tagged : Tagged _ (.var (Str.trim (' ' :: (path ++ [' ']))) false) :=
            .raw ((fresh_foreign rawClosing_ne_nil rawForeign).mpr
              (fresh_closed rawClosing_ne_nil rawForeign absent))
          rw [trim_spaced, trimmed] at tagged
          exact tagged
  | opens path inverted =>
      cases inverted with
      | true =>
          obtain ⟨rest, inner, tagged⟩ := marked '^' (by decide) (by decide) writable
          rwa [tagOf, inner] at tagged
      | false =>
          obtain ⟨rest, inner, tagged⟩ := marked '#' (by decide) (by decide) writable
          rwa [tagOf, inner] at tagged
  | closes path =>
      obtain ⟨rest, inner, tagged⟩ := marked '/' (by decide) (by decide) writable
      rwa [tagOf, inner] at tagged

theorem tokenized_print : ∀ {given : List Token}, Separate given →
    Tokenized (given.flatMap Token.print) given
  | [], _ => .last (by decide)
  | .tag _ :: _, separate =>
      .tag (fresh_nil opening_ne_nil) (tagged_print separate.1) (tokenized_print separate.2)
  | [.text text], separate => by
      obtain ⟨some, absent, -⟩ := separate
      have last : Tokenized text (textTokens text) := .last absent
      rw [textTokens, if_neg some] at last
      simpa [Token.print] using last
  | .text text :: .tag tag :: rest, separate => by
      obtain ⟨some, absent, plain, writable, others⟩ := separate
      have tagged := Tokenized.tag (fresh_of_last absent plain) (tagged_print writable)
        (tokenized_print others)
      rw [textTokens, if_neg some] at tagged
      simpa [Token.print] using tagged

theorem parse_print (normal : Normal nodes) : parse (print nodes) = .ok nodes :=
  parse_eq_ok.mpr ⟨tokens nodes, tokenized_print normal.separate, balanced_tokens nodes normal.depth⟩

/-! ## Reading and printing -/

/-- What is read as a tag can be printed. -/
theorem tagged_writable {whole : Text} {tag : Tag} (tagged : Tagged whole tag) : tag.Writable := by
  cases tagged with
  | raw fresh =>
      exact ⟨Str.trim_trim _, fun inside =>
        fresh.absent rawClosing_ne_nil (inside.trans (Str.trim_infix _))⟩
  | @plain body other fresh =>
      have trimmed : Str.trim (Str.trim body) = Str.trim body := Str.trim_trim body
      have absent : ¬ closing <:+: Str.trim body := fun inside =>
        fresh.absent closing_ne_nil (inside.trans (Str.trim_infix _))
      have path {sigil : Char} {rest : Text} (whole : Str.trim body = sigil :: rest) :
          ¬ closing <:+: Str.trim rest := fun inside =>
        absent (whole ▸ (inside.trans (Str.trim_infix _)).trans (List.suffix_cons _ _).isInfix)
      have raw : closing <:+: rawClosing := by decide
      unfold tagOf
      split <;> rename_i whole
      · exact trivial
      · exact trivial
      · exact ⟨Str.trim_trim _, path whole⟩
      · exact ⟨Str.trim_trim _, path whole⟩
      · exact ⟨Str.trim_trim _, path whole⟩
      · exact ⟨Str.trim_trim _, fun inside => path whole (raw.trans inside)⟩
      · rename_i empty comment opens inverts closes
        refine ⟨trimmed, absent, empty, ?_⟩
        intro char first listed
        obtain ⟨rest, same⟩ := List.head?_eq_some_iff.mp first
        have one : char = '!' ∨ char = '#' ∨ char = '^' ∨ char = '/' ∨ char = '&' := by
          simpa [sigils] using listed
        rcases one with rfl | rfl | rfl | rfl | rfl
        · exact comment rest same
        · exact opens rest same
        · exact inverts rest same
        · exact closes rest same
        · exact whole rest same

/-- Tokens as they are read: a text that ends with a brace is the last one. -/
def Loose : List Token → Prop
  | [] => True
  | .tag tag :: rest => tag.Writable ∧ Loose rest
  | .text text :: rest => text ≠ [] ∧ ¬ opening <:+: text ∧
      (rest ≠ [] → text.getLast? ≠ some '\x7b') ∧ Loose rest

theorem loose_tokenized {template : Text} (tokenized : Tokenized template given) :
    Loose given := by
  induction tokenized with
  | @last text untagged =>
      unfold textTokens
      split_ifs with empty
      · exact trivial
      · exact ⟨empty, untagged, fun more => absurd rfl more, trivial⟩
  | @tag front _ _ _ _ fresh tagged others ih =>
      have behind : Loose (.tag _ :: _) := ⟨tagged_writable tagged, ih⟩
      unfold textTokens
      split_ifs with empty
      · exact behind
      · exact ⟨empty, fresh.absent opening_ne_nil, fun _ => last_of_fresh fresh, behind⟩

theorem loose_filter (keep : Token → Bool) : ∀ {given : List Token}, Loose given →
    Loose (given.filter keep)
  | [], _ => trivial
  | .tag tag :: rest, ⟨writable, others⟩ => by
      rw [List.filter_cons]
      split_ifs
      · exact ⟨writable, loose_filter keep others⟩
      · exact loose_filter keep others
  | .text text :: rest, ⟨present, absent, last, others⟩ => by
      rw [List.filter_cons]
      split_ifs
      · refine ⟨present, absent, fun more => last ?_, loose_filter keep others⟩
        rintro rfl
        exact more rfl
      · exact loose_filter keep others

/-- A token before others. Two texts become one. -/
def glue : Token → List Token → List Token
  | .text text, .text more :: rest => .text (text ++ more) :: rest
  | token, rest => token :: rest

theorem glue_append_tag (token : Token) (front : List Token) (tag : Tag) (back : List Token) :
    glue token (front ++ .tag tag :: back) = glue token front ++ .tag tag :: back := by
  rcases token with text | written
  · rcases front with _ | ⟨(more | written), front⟩ <;> rfl
  · rfl

theorem foldr_glue_tag (front : List Token) (tag : Tag) (back : List Token) :
    (front ++ .tag tag :: back).foldr glue [] =
      front.foldr glue [] ++ .tag tag :: back.foldr glue [] := by
  induction front with
  | nil => rfl
  | cons token front ih =>
      rw [List.cons_append, List.foldr_cons, ih, glue_append_tag, List.foldr_cons]

theorem tokens_merged : ∀ nodes : List Node, tokens (merged nodes) = (tokens nodes).foldr glue []
  | [] => rfl
  | .text text :: rest => by
      have others := tokens_merged rest
      rw [merged, tokens, nodeTokens, List.singleton_append, List.foldr_cons, ← others]
      rcases merged rest with _ | ⟨node, more⟩
      · rfl
      · cases node <;> rfl
  | .var path escaped :: rest => congrArg (Token.tag _ :: ·) (tokens_merged rest)
  | .sec path inverted children :: rest => by
      have inner := tokens_merged children
      have others := tokens_merged rest
      have whole : tokens (.sec path inverted children :: rest) = .tag (.opens path inverted) ::
          (tokens children ++ .tag (.closes path) :: tokens rest) := by
        simp [tokens, nodeTokens]
      rw [whole, List.foldr_cons, foldr_glue_tag, ← inner, ← others]
      simp [merged, mergedNode, join, tokens, nodeTokens, glue]

theorem foldr_glue_ne_nil (more : given.foldr glue [] ≠ []) : given ≠ [] := by
  rintro rfl
  exact more rfl

/-- No opening comes about between two texts when the first one does not end with a brace. -/
theorem not_opening_append {front back : Text} (absent : ¬ opening <:+: front)
    (last : front.getLast? ≠ some '\x7b') (other : ¬ opening <:+: back) :
    ¬ opening <:+: front ++ back := by
  rcases List.eq_nil_or_concat' front with rfl | ⟨before, char, rfl⟩
  · exact other
  · intro inside
    have plain : char ≠ '\x7b' := by simpa using last
    have foreign : char ∉ opening := by simpa [opening] using plain
    rw [List.append_assoc] at inside
    rcases infix_of_foreign foreign inside with early | late
    · exact absent (early.trans (List.prefix_append _ _).isInfix)
    · exact other late

theorem separate_glue : ∀ {given : List Token}, Loose given → Separate (given.foldr glue [])
  | [], _ => trivial
  | .tag tag :: rest, ⟨writable, others⟩ => ⟨writable, separate_glue others⟩
  | .text text :: rest, ⟨present, absent, last, others⟩ => by
      have behind := separate_glue others
      have plain := fun more => last (foldr_glue_ne_nil more)
      rw [List.foldr_cons]
      generalize rest.foldr glue [] = others at behind plain ⊢
      rcases others with _ | ⟨(more | tag), glued⟩
      · exact ⟨present, absent, trivial, trivial⟩
      · obtain ⟨some, free, next, separate⟩ := behind
        have first := plain (List.cons_ne_nil _ _)
        refine ⟨by simp [present], not_opening_append absent first free, ?_, separate⟩
        rcases glued with _ | ⟨(_ | _), _⟩
        · exact trivial
        · exact next
        · rwa [List.getLast?_append_of_ne_nil _ some]
      · exact ⟨present, absent, plain (List.cons_ne_nil _ _), behind⟩

/-- A tree of the parser is normal once its texts are merged. -/
theorem normal_merged {template : Text} (parsed : parse template = .ok nodes) :
    Normal (merged nodes) := by
  obtain ⟨given, tokenized, balanced⟩ := parse_eq_ok.mp parsed
  obtain ⟨same, within⟩ := tokens_of_balanced balanced
  refine ⟨?_, by rwa [depth_merged]⟩
  rw [tokens_merged, same]
  exact separate_glue (loose_filter _ (loose_tokenized tokenized))

theorem print_merged (nodes : List Node) : print (merged nodes) = print nodes := by
  rw [print, print, tokens_merged]
  induction tokens nodes with
  | nil => rfl
  | cons token rest ih =>
      rw [List.foldr_cons, List.flatMap_cons, ← ih]
      rcases token with text | tag
      · rcases rest.foldr glue [] with _ | ⟨(more | tag), glued⟩
        · rfl
        · exact List.append_assoc _ _ _
        · rfl
      · rfl

/-- Printing and parsing are exact. A tree in normal form comes back; a template is accepted when
its tags are closed and its sections are balanced; and its tree comes back with its texts merged. -/
theorem printed_templates_reparse :
    (∀ nodes, Normal nodes → parse (print nodes) = .ok nodes) ∧
    ∀ template nodes,
      (parse template = .ok nodes ↔
        ∃ given, Tokenized template given ∧ Balanced maxDepth given nodes) ∧
      (parse template = .ok nodes → parse (print nodes) = .ok (merged nodes)) := by
  refine ⟨fun nodes normal => parse_print normal, fun template nodes => ⟨parse_eq_ok, ?_⟩⟩
  intro parsed
  rw [← print_merged]
  exact parse_print (normal_merged parsed)

/-- No template has a text that ends with a brace before a tag, and a comment leaves two texts that
are printed as one. -/
theorem brace_before_tag_is_unprintable :
    (¬ ∃ template, parse template = .ok [.text ['\x7b'], .var ['x'] true]) ∧
    parse "a\x7b\x7b! c\x7d\x7db" = .ok [.text ['a'], .text ['b']] ∧
    parse (print [.text ['a'], .text ['b']]) = .ok [.text ['a', 'b']] := by
  refine ⟨?_, ?_, ?_⟩
  · rintro ⟨template, parsed⟩
    obtain ⟨given, tokenized, balanced⟩ := parse_eq_ok.mp parsed
    obtain ⟨same, -⟩ := tokens_of_balanced balanced
    have loose := loose_filter (fun token => token ≠ .tag .nothing) (loose_tokenized tokenized)
    rw [← same] at loose
    exact loose.2.2.1 (List.cons_ne_nil _ _) rfl
  · rfl
  · rfl

end Camelmailer.Template

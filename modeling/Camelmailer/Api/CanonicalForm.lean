import Camelmailer.Api.XmlDsig
import Mathlib.Data.List.Forall2

/-!
# What a canonical form keeps

The canonical form of an element is a written forest: its comments are gone, its runs of text
are joined, and its start tags list the namespaces that are needed and the attributes under
their written names. Two elements that are written alike therefore have the same content, and
what the readers of an element take from it can be compared level by level: its name and
namespace, its attributes, the text it starts with and its child elements.
-/

namespace Camelmailer.Xml

open Utf8 Markup

/-! ## The content of a node -/

mutual

/-- The content of a node in front of the content that follows it. -/
def Node.contentOnto (inclusive : List Text) (scope : RenderedNs) (rest : Forest) : Node → Forest
  | .text value => rest.pushText value
  | .pi target value => .instruction target value rest
  | .comment _ => rest
  | .element tag children =>
      .element tag.qname (tag.items inclusive scope)
        (contents inclusive (tag.declare inclusive scope).1 children) rest

/-- The content of a sequence of nodes. -/
def contents (inclusive : List Text) (scope : RenderedNs) : List Node → Forest
  | [] => .nil
  | node :: nodes => node.contentOnto inclusive scope (contents inclusive scope nodes)

end

/-- The content of an element: its written name, what its start tag lists, and the content
between its tags. -/
def Element.content (element : Element) (inclusive : List Text) (scope : RenderedNs) :
    Text × List (Text × Text) × Forest :=
  (element.tag.qname, element.tag.items inclusive scope,
    contents inclusive (element.tag.declare inclusive scope).1 element.children)

/-- An element without its enveloped signature. -/
def Element.unsigned (element : Element) : Element :=
  { element with
    children := element.children.eraseP (fun child => child.element?.any (·.isSignature)) }

mutual

theorem writeNode_content (inclusive : List Text) (scope : RenderedNs) (id : NodeId)
    (rest : Forest) : ∀ node : Node,
    (node.contentOnto inclusive scope rest).write =
      writeNode none inclusive scope id node ++ rest.write
  | .text value => by simp [Node.contentOnto, writeNode, escapeText]
  | .pi target value => by simp [Node.contentOnto, writeNode, Forest.write]
  | .comment value => by simp [Node.contentOnto, writeNode]
  | .element tag children => by
      simp [Node.contentOnto, writeNode, Forest.write,
        writeNodes_content inclusive (tag.declare inclusive scope).1 id 0 children]

/-- What is written of nodes is their content. -/
theorem writeNodes_content (inclusive : List Text) (scope : RenderedNs) (parent : NodeId)
    (index : Nat) : ∀ nodes : List Node,
    (contents inclusive scope nodes).write =
      writeNodes none inclusive scope parent index nodes
  | [] => rfl
  | node :: nodes => by
      rw [contents, writeNodes, writeNode_content inclusive scope (index :: parent) _ node,
        writeNodes_content inclusive scope parent (index + 1) nodes]

end

/-! ## The excluded node -/

mutual

/-- A node that lies deeper than the excluded one is written in full. -/
theorem writeNode_deeper (exclude : NodeId) (inclusive : List Text) (scope : RenderedNs)
    (id : NodeId) (deeper : exclude.length < id.length) : ∀ node : Node,
    writeNode (some exclude) inclusive scope id node = writeNode none inclusive scope id node := by
  intro node
  have other : some id ≠ some exclude := by
    rintro ⟨⟩
    exact lt_irrefl _ deeper
  cases node with
  | element tag children =>
      rw [writeNode, writeNode, if_neg other, if_neg (by simp),
        writeNodes_deeper exclude inclusive _ id 0 deeper.le children]
  | text value | comment value
  | pi target value => rw [writeNode, writeNode, if_neg other, if_neg (by simp)]

theorem writeNodes_deeper (exclude : NodeId) (inclusive : List Text) (scope : RenderedNs)
    (parent : NodeId) (index : Nat) (deeper : exclude.length ≤ parent.length) :
    ∀ nodes : List Node,
    writeNodes (some exclude) inclusive scope parent index nodes =
      writeNodes none inclusive scope parent index nodes
  | [] => rfl
  | node :: nodes => by
      rw [writeNodes, writeNodes,
        writeNode_deeper exclude inclusive scope (index :: parent) (Nat.lt_succ_of_le deeper) node,
        writeNodes_deeper exclude inclusive scope parent (index + 1) deeper nodes]

end

theorem writeNode_excluded (inclusive : List Text) (scope : RenderedNs) (id : NodeId)
    (node : Node) : writeNode (some id) inclusive scope id node = [] := by
  cases node <;> rw [writeNode, if_pos rfl]

/-- Below the root, only the child at the excluded index is left out. -/
theorem writeNode_child (index place : Nat) (inclusive : List Text) (scope : RenderedNs)
    (other : place ≠ index) (node : Node) :
    writeNode (some [index]) inclusive scope [place] node =
      writeNode none inclusive scope [place] node := by
  have apart : some [place] ≠ some [index] := by simpa using other
  cases node with
  | element tag children =>
      rw [writeNode, writeNode, if_neg apart, if_neg (by simp),
        writeNodes_deeper [index] inclusive _ [place] 0 le_rfl children]
  | text value | comment value
  | pi target value => rw [writeNode, writeNode, if_neg apart, if_neg (by simp)]

theorem writeNodes_past (index place : Nat) (inclusive : List Text) (scope : RenderedNs)
    (past : index < place) (nodes : List Node) :
    writeNodes (some [index]) inclusive scope [] place nodes =
      writeNodes none inclusive scope [] place nodes := by
  induction nodes generalizing place with
  | nil => rfl
  | cons node nodes ih =>
      rw [writeNodes, writeNodes, writeNode_child index place inclusive scope past.ne' node,
        ih (place + 1) (by omega)]

/-- The children of the root are written without the one at the excluded index. -/
theorem writeNodes_erased (place offset : Nat) (inclusive : List Text) (scope : RenderedNs)
    (nodes : List Node) :
    writeNodes (some [place + offset]) inclusive scope [] place nodes =
      (contents inclusive scope (nodes.eraseIdx offset)).write := by
  induction nodes generalizing place offset with
  | nil => rfl
  | cons node nodes ih =>
    cases offset with
    | zero =>
        rw [writeNodes, Nat.add_zero, writeNode_excluded, List.nil_append,
          writeNodes_past _ _ _ _ (Nat.lt_succ_self place), List.eraseIdx_cons_zero,
          writeNodes_content]
    | succ offset =>
        have shifted : place + (offset + 1) = place + 1 + offset := by omega
        rw [writeNodes, writeNode_child _ _ _ _ (by omega), shifted, ih,
          List.eraseIdx_cons_succ, contents, writeNode_content inclusive scope [place]]

/-- The canonical form of an element without its enveloped signature is what its content
without the signature is written as. -/
theorem canonicalize_content (element : Element) (inclusive : List Text) :
    canonicalize element (signatureId element) inclusive =
      (contents inclusive (fun _ => none)
        [.element element.unsigned.tag element.unsigned.children]).write := by
  have written : ∀ exclude, exclude ≠ some [] →
      canonicalize element exclude inclusive =
        startTag element.tag.qname (element.tag.items inclusive (fun _ => none)) ++
          (writeNodes exclude inclusive (element.tag.declare inclusive (fun _ => none)).1 [] 0
            element.children ++ endTag element.tag.qname) := by
    intro exclude other
    rw [canonicalize, writeNode, if_neg other.symm]
  simp only [contents, Node.contentOnto, Forest.write, List.append_nil, Element.unsigned,
    List.eraseP_eq_eraseIdx]
  cases found : element.children.findIdx? (fun child => child.element?.any (·.isSignature)) with
  | none =>
      rw [signatureId, found, written _ (by simp), Option.map_none, ← writeNodes_content]
  | some index =>
      have erased := writeNodes_erased 0 index inclusive
        (element.tag.declare inclusive (fun _ => none)).1 element.children
      rw [Nat.zero_add] at erased
      rw [signatureId, found, written _ (by simp), Option.map_some, erased]

/-! ## Namespaces -/

section Declarations

variable {tag : Tag} {rendered : RenderedNs}

/-- The prefix that a declaration declares. -/
def declaredKey (name : Text) : Option Text := if name = [] then none else some name

/-- What the declarations that were made so far mean. -/
structure Declared (tag : Tag) (rendered : RenderedNs) (state : RenderedNs × List (Text × Text)) :
    Prop where
  /-- A declared prefix is in force. -/
  inForce : ∀ declaration ∈ state.2, state.1 (declaredKey declaration.1) = some declaration.2
  /-- Nothing else has changed. -/
  inherited : ∀ key, (∀ declaration ∈ state.2, declaredKey declaration.1 ≠ key) →
    state.1 key = rendered key
  /-- A prefix is declared as what it means at the tag. -/
  resolved : ∀ declaration ∈ state.2,
    declaration.2 = (tag.lookupNamespaceUri (declaredKey declaration.1)).getD []
  /-- A declared prefix is a name. -/
  names : ∀ declaration ∈ state.2, declaration.1 ≠ [] → IsNcName declaration.1

theorem Tag.WellFormed.lookup_declared (wellFormed : tag.WellFormed) {nsPrefix uri : Text}
    (found : tag.lookupNamespaceUri (some nsPrefix) = some uri) :
    IsNcName nsPrefix ∧ nsPrefix ≠ "xml" ∧ nsPrefix ≠ "xmlns" ∧ uri ≠ [] := by
  obtain ⟨declared, located, rfl⟩ := Option.map_eq_some_iff.mp found
  have same : declared.1 = some nsPrefix := by simpa using List.find?_some located
  exact wellFormed.namespaces _ (List.mem_of_find?_eq_some located) _ same

/-- Considering a prefix changes nothing, or puts its meaning in force with a declaration. -/
theorem Tag.consider_cases (tag : Tag) (state : RenderedNs × List (Text × Text))
    (nsPrefix : Option Text) :
    tag.consider state nsPrefix = state ∨
      ∃ uri, uri = (tag.lookupNamespaceUri nsPrefix).getD [] ∧ (nsPrefix = none ∨ uri ≠ []) ∧
        tag.consider state nsPrefix =
          (Function.update state.1 nsPrefix (some uri), state.2 ++ [(nsPrefix.getD [], uri)]) := by
  unfold Tag.consider
  simp only
  split_ifs with reserved plain inherited absent changed
  · exact .inl rfl
  · obtain ⟨rfl, unbound⟩ := plain
    exact .inr ⟨[], unbound.symm, .inl rfl, rfl⟩
  · exact .inl rfl
  · exact .inl rfl
  · exact .inr ⟨_, rfl, .inr absent, rfl⟩
  · exact .inl rfl

theorem Declared.start : Declared tag rendered (rendered, []) :=
  ⟨by simp, fun _ _ => rfl, by simp, by simp⟩

variable {nsPrefix : Option Text}

/-- The key of the declaration of a prefix is the prefix. -/
theorem Tag.WellFormed.declaredKey_getD (wellFormed : tag.WellFormed)
    (bound : nsPrefix = none ∨ (tag.lookupNamespaceUri nsPrefix).getD [] ≠ []) :
    declaredKey (nsPrefix.getD []) = nsPrefix ∧
      (nsPrefix.getD [] ≠ [] → IsNcName (nsPrefix.getD [])) := by
  cases nsPrefix with
  | none => exact ⟨rfl, fun filled => absurd rfl filled⟩
  | some nsPrefix =>
    have filled := bound.resolve_left (by simp)
    cases found : tag.lookupNamespaceUri (some nsPrefix) with
    | none =>
      rw [found] at filled
      exact absurd rfl filled
    | some uri =>
      obtain ⟨name, -⟩ := wellFormed.lookup_declared found
      exact ⟨if_neg name.1.1, fun _ => name⟩

variable {state : RenderedNs × List (Text × Text)}

theorem Declared.consider (wellFormed : tag.WellFormed) (declared : Declared tag rendered state)
    (nsPrefix : Option Text) :
    Declared tag rendered (tag.consider state nsPrefix) := by
  obtain unchanged | ⟨uri, meaning, bound, changed⟩ := tag.consider_cases state nsPrefix
  · rw [unchanged]
    exact declared
  rw [meaning] at bound
  obtain ⟨key, name⟩ := wellFormed.declaredKey_getD bound
  rw [changed]
  constructor
  case inForce =>
    intro declaration member
    obtain earlier | added := List.mem_append.mp member
    · by_cases same : declaredKey declaration.1 = nsPrefix
      · simp only
        rw [same, Function.update_self, meaning, declared.resolved _ earlier, same]
      · simp only
        rw [Function.update_of_ne same]
        exact declared.inForce _ earlier
    · obtain rfl := List.mem_singleton.mp added
      simp only
      rw [key, Function.update_self]
  case inherited =>
    intro other apart
    have distinct : other ≠ nsPrefix := by
      rintro rfl
      exact apart _ (List.mem_append_right _ (List.mem_singleton_self _)) key
    simp only
    rw [Function.update_of_ne distinct]
    exact declared.inherited other
      (fun declaration earlier => apart declaration (List.mem_append_left _ earlier))
  case resolved =>
    intro declaration member
    obtain earlier | added := List.mem_append.mp member
    · exact declared.resolved _ earlier
    · obtain rfl := List.mem_singleton.mp added
      rw [key, meaning]
  case names =>
    intro declaration member
    obtain earlier | added := List.mem_append.mp member
    · exact declared.names _ earlier
    · obtain rfl := List.mem_singleton.mp added
      exact name

/-- What a prefix means at a tag is what is in force for it. -/
def Settled (tag : Tag) (nsPrefix : Option Text) (state : RenderedNs × List (Text × Text)) : Prop :=
  (state.1 nsPrefix).getD [] = (tag.lookupNamespaceUri nsPrefix).getD []

theorem Settled.consider (settled : Settled tag nsPrefix state) (other : Option Text) :
    Settled tag nsPrefix (tag.consider state other) := by
  obtain unchanged | ⟨uri, meaning, -, changed⟩ := tag.consider_cases state other
  · rw [unchanged]
    exact settled
  · rw [changed, Settled]
    simp only
    by_cases same : nsPrefix = other
    · rw [same, Function.update_self, meaning, Option.getD_some]
    · rw [Function.update_of_ne same]
      exact settled

/-- Considering a prefix that has a meaning settles it. -/
theorem Settled.considered (state : RenderedNs × List (Text × Text))
    (free : nsPrefix ≠ some "xml".toList ∧ nsPrefix ≠ some "xmlns".toList)
    (bound : nsPrefix = none ∨ (tag.lookupNamespaceUri nsPrefix).getD [] ≠ []) :
    Settled tag nsPrefix (tag.consider state nsPrefix) := by
  unfold Settled Tag.consider
  simp only
  rw [if_neg (not_or.mpr free)]
  split_ifs with plain inherited absent changed
  · obtain ⟨rfl, unbound⟩ := plain
    simp only
    rw [Function.update_self, unbound, Option.getD_some]
  · obtain ⟨rfl, unbound⟩ := plain
    rw [unbound, not_not.mp inherited]
  · obtain rfl := bound.resolve_right (not_not.mpr absent)
    exact absurd ⟨rfl, absent⟩ plain
  · simp only
    rw [Function.update_self, Option.getD_some]
  · rw [not_not.mp changed, Option.getD_some]

/-- What every considered prefix keeps, the declarations of a tag have. -/
theorem Tag.declare_keeps {P : RenderedNs × List (Text × Text) → Prop} (inclusive : List Text)
    (keeps : ∀ state nsPrefix, P state → P (tag.consider state nsPrefix))
    (starts : P (tag.consider (rendered, []) (qnamePrefix tag.qname))) :
    P (tag.declare inclusive rendered) := by
  have folded : ∀ (considered : List (Option Text)) (state : RenderedNs × List (Text × Text)),
      P state → P (considered.foldl tag.consider state) := by
    intro considered
    induction considered with
    | nil => exact fun _ holds => holds
    | cons nsPrefix considered ih =>
        exact fun state holds => ih _ (keeps state nsPrefix holds)
  exact folded _ _ (folded _ _ starts)

theorem Tag.WellFormed.declared (wellFormed : tag.WellFormed) (inclusive : List Text)
    (rendered : RenderedNs) : Declared tag rendered (tag.declare inclusive rendered) :=
  Tag.declare_keeps inclusive (fun _ _ declared => declared.consider wellFormed _)
    (Declared.start.consider wellFormed _)

end Declarations

/-! ## Names -/

section Names

variable {tag : Tag}

/-- A name that joins two names with a colon. -/
theorem IsNcName.joined {front back : Text} (frontName : IsNcName front) (backName : IsNcName back) :
    IsName (front ++ ':' :: back) := by
  refine ⟨by simp, ?_⟩
  intro char member
  rcases List.mem_append.mp member with inFront | inBack
  · exact frontName.1.2 char inFront
  · obtain rfl | later := List.mem_cons.mp inBack
    · decide
    · exact backName.1.2 char later

/-- A prefix in scope has a meaning. -/
theorem Tag.WellFormed.prefix_bound (wellFormed : tag.WellFormed) {nsPrefix : Text}
    (written : tag.nsPrefix = some nsPrefix) :
    IsNcName nsPrefix ∧ nsPrefix ≠ "xmlns" ∧
      (nsPrefix ≠ "xml" → (tag.lookupNamespaceUri (some nsPrefix)).getD [] ≠ []) := by
  obtain rfl | ⟨declared, member, same⟩ := wellFormed.nsPrefix _ written
  · exact ⟨by decide, by decide, fun other => absurd rfl other⟩
  · obtain ⟨name, -, free, -⟩ := wellFormed.namespaces _ member _ same
    refine ⟨name, free, fun _ => ?_⟩
    cases found : tag.lookupNamespaceUri (some nsPrefix) with
    | some uri => exact (wellFormed.lookup_declared found).2.2.2
    | none =>
        have missing := List.find?_eq_none.mp (Option.map_eq_none_iff.mp found) _ member
        simp [same] at missing

theorem Tag.WellFormed.qname_isName (wellFormed : tag.WellFormed) : IsName tag.qname := by
  unfold Tag.qname
  cases written : tag.nsPrefix with
  | none => exact wellFormed.name.1
  | some nsPrefix => exact (wellFormed.prefix_bound written).1.joined wellFormed.name

/-- The prefix that `write_node` cuts off a written name is the prefix of the name. -/
theorem Tag.WellFormed.qnamePrefix_qname (wellFormed : tag.WellFormed) :
    qnamePrefix tag.qname = tag.nsPrefix := by
  unfold Tag.qname qnamePrefix
  cases written : tag.nsPrefix with
  | none => exact if_neg wellFormed.name.2
  | some nsPrefix =>
    have plain := (wellFormed.prefix_bound written).1.2
    rw [if_pos (by simp), List.takeWhile_append_of_pos, List.takeWhile_cons_of_neg (by simp),
      List.append_nil]
    intro char member
    simp only [bne_iff_ne]
    rintro rfl
    exact plain member

/-- A written name tells the prefix and the local name apart. -/
theorem Tag.WellFormed.same_name {other : Tag} (wellFormed : tag.WellFormed)
    (otherWellFormed : other.WellFormed) (same : tag.qname = other.qname) :
    tag.nsPrefix = other.nsPrefix ∧ tag.name = other.name := by
  have prefixes : tag.nsPrefix = other.nsPrefix := by
    rw [← wellFormed.qnamePrefix_qname, same, otherWellFormed.qnamePrefix_qname]
  refine ⟨prefixes, ?_⟩
  unfold Tag.qname at same
  rw [prefixes] at same
  cases written : other.nsPrefix with
  | none =>
      rw [written] at same
      exact same
  | some nsPrefix =>
      rw [written] at same
      exact (List.cons.inj (List.append_cancel_left same)).2

/-- The namespace of an element is what is in force for its prefix inside it. -/
theorem Tag.WellFormed.namespace_inForce (wellFormed : tag.WellFormed) (inclusive : List Text)
    (rendered : RenderedNs) :
    tag.namespaceUri.getD [] =
      if tag.nsPrefix = some "xml".toList then xmlNamespace
      else ((tag.declare inclusive rendered).1 tag.nsPrefix).getD [] := by
  unfold Tag.namespaceUri
  split_ifs with reserved
  · rfl
  · have free : tag.nsPrefix ≠ some "xmlns".toList := by
      intro written
      exact (wellFormed.prefix_bound written).2.1 rfl
    have bound : tag.nsPrefix = none ∨ (tag.lookupNamespaceUri tag.nsPrefix).getD [] ≠ [] := by
      cases written : tag.nsPrefix with
      | none => exact .inl rfl
      | some nsPrefix =>
          rw [written] at reserved
          exact .inr ((wellFormed.prefix_bound written).2.2 (by simpa using reserved))
    have settled : Settled tag tag.nsPrefix (tag.declare inclusive rendered) := by
      apply Tag.declare_keeps inclusive (fun state other held => held.consider other)
      rw [wellFormed.qnamePrefix_qname]
      exact Settled.considered _ ⟨reserved, free⟩ bound
    exact settled.symm

/-- Every prefixed attribute of a tag is written with a prefix. -/
def Tag.AttributesPrefixed (tag : Tag) : Prop :=
  ∀ attr ∈ tag.attributes, ∀ uri ∈ attr.namespaceUri, (tag.lookupPrefix uri).isSome

instance (tag : Tag) : Decidable tag.AttributesPrefixed :=
  inferInstanceAs (Decidable (∀ attr ∈ tag.attributes, ∀ uri ∈ attr.namespaceUri, _))

theorem Tag.WellFormed.lookupPrefix_some (wellFormed : tag.WellFormed) {uri nsPrefix : Text}
    (found : tag.lookupPrefix uri = some nsPrefix) :
    IsNcName nsPrefix ∧ nsPrefix ≠ "xmlns" := by
  unfold Tag.lookupPrefix at found
  split at found
  case isTrue =>
    obtain rfl := Option.some.inj found
    exact ⟨by decide, by decide⟩
  case isFalse =>
    obtain ⟨declared, located, written⟩ := Option.bind_eq_some_iff.mp found
    obtain ⟨name, -, free, -⟩ :=
      wellFormed.namespaces _ (List.mem_of_find?_eq_some located) _ written
    exact ⟨name, free⟩

/-- An attribute is written under its own name, or with a prefix in front of it. -/
theorem Tag.WellFormed.attributeName_cases (wellFormed : tag.WellFormed)
    (prefixed : tag.AttributesPrefixed) {attr : Attribute} (member : attr ∈ tag.attributes) :
    (attr.namespaceUri = none ∧ tag.attributeName attr = attr.name) ∨
      ∃ nsPrefix, tag.attributeName attr = nsPrefix ++ ':' :: attr.name ∧ IsNcName nsPrefix ∧
        nsPrefix ≠ "xmlns" := by
  unfold Tag.attributeName
  cases within : attr.namespaceUri with
  | none => exact .inl ⟨rfl, rfl⟩
  | some uri =>
    right
    simp only
    split
    case isTrue reserved => exact ⟨"xml", rfl, by decide, by decide⟩
    case isFalse =>
      obtain ⟨nsPrefix, found⟩ := Option.isSome_iff_exists.mp (prefixed _ member _ within)
      rw [found]
      exact ⟨nsPrefix, rfl, wellFormed.lookupPrefix_some found⟩

end Names

/-! ## What a start tag lists -/

/-- Whether an item of a start tag declares a namespace. -/
def isDeclaration (item : Text × Text) : Bool :=
  item.1 = "xmlns" || decide ("xmlns:" <+: item.1)

theorem declarationItem_isDeclaration (declaration : Text × Text) :
    isDeclaration (declarationItem declaration) = true := by
  unfold isDeclaration declarationItem
  split
  · simp
  · simp

theorem declarationItem_injective : Function.Injective declarationItem := by
  rintro ⟨left, leftUri⟩ ⟨right, rightUri⟩ same
  obtain ⟨names, uris⟩ := Prod.mk.inj same
  simp only at uris
  simp only at names
  split_ifs at names with leftEmpty rightEmpty
  · rw [leftEmpty, rightEmpty, uris]
  · simp at names
  · simp at names
  · rw [List.append_cancel_left names, uris]

section Items

variable {tag : Tag}

/-- An attribute is never listed as a declaration. -/
theorem Tag.WellFormed.attribute_not_declaration (wellFormed : tag.WellFormed)
    (prefixed : tag.AttributesPrefixed) {attr : Attribute} (member : attr ∈ tag.attributes) :
    isDeclaration (tag.attributeName attr, attr.value) = false := by
  obtain ⟨name, unreserved, -⟩ := wellFormed.attributes _ member
  rw [isDeclaration, Bool.or_eq_false_iff]
  simp only [decide_eq_false_iff_not]
  obtain ⟨plain, written⟩ | ⟨nsPrefix, written, prefixName, free⟩ :=
    wellFormed.attributeName_cases prefixed member
  · rw [written]
    refine ⟨unreserved plain, ?_⟩
    rintro ⟨rest, whole⟩
    exact name.2 (by rw [← whole]; simp)
  · rw [written]
    constructor
    · intro whole
      have inside : ':' ∈ "xmlns".toList := by rw [← whole]; simp
      exact absurd inside (by decide)
    · rintro ⟨rest, whole⟩
      exact free ((List.append_cons_inj_of_notMem prefixName.2 name.2).mp whole.symm).1

theorem Tag.mem_attributes_sorted (tag : Tag) {attr : Attribute} :
    attr ∈ tag.attributes.insertionSort attributeLe ↔ attr ∈ tag.attributes :=
  (List.perm_insertionSort attributeLe tag.attributes).mem_iff

section

variable (wellFormed : tag.WellFormed) (prefixed : tag.AttributesPrefixed) (inclusive : List Text)
  (rendered : RenderedNs)
include wellFormed prefixed inclusive rendered

/-- The declarations that a start tag lists. -/
theorem Tag.WellFormed.listed_declarations :
    (tag.items inclusive rendered).filter isDeclaration =
      ((tag.declare inclusive rendered).2.insertionSort pairLe).map declarationItem := by
  rw [Tag.items, List.filter_append, List.filter_eq_self.mpr, List.filter_eq_nil_iff.mpr,
    List.append_nil]
  · intro item member
    obtain ⟨attr, inside, rfl⟩ := List.mem_map.mp member
    rw [wellFormed.attribute_not_declaration prefixed (tag.mem_attributes_sorted.mp inside)]
    decide
  · intro item member
    obtain ⟨declaration, -, rfl⟩ := List.mem_map.mp member
    exact declarationItem_isDeclaration declaration

/-- The names that a start tag lists are names. -/
theorem Tag.WellFormed.item_names :
    ∀ item ∈ tag.items inclusive rendered, IsName item.1 := by
  intro item member
  obtain declared | listed := List.mem_append.mp member
  · obtain ⟨declaration, inside, rfl⟩ := List.mem_map.mp declared
    have made := (List.perm_insertionSort pairLe _).mem_iff.mp inside
    unfold declarationItem
    simp only
    split
    case isTrue => decide
    case isFalse filled =>
      exact (by decide : IsNcName "xmlns").joined
        ((wellFormed.declared inclusive rendered).names _ made filled)
  · obtain ⟨attr, inside, rfl⟩ := List.mem_map.mp listed
    have member := tag.mem_attributes_sorted.mp inside
    have name := (wellFormed.attributes _ member).1
    obtain ⟨-, written⟩ | ⟨nsPrefix, written, prefixName, -⟩ :=
      wellFormed.attributeName_cases prefixed member
    · simpa only [written] using name.1
    · simpa only [written] using prefixName.joined name

/-- An attribute without a namespace is listed under its name, and nothing else is listed
under a name without a colon that declares nothing. -/
theorem Tag.WellFormed.mem_items_iff
    {name value : Text} (plain : ':' ∉ name) (undeclared : name ≠ "xmlns") :
    (name, value) ∈ tag.items inclusive rendered ↔ ⟨none, name, value⟩ ∈ tag.attributes := by
  constructor
  · intro member
    obtain declared | listed := List.mem_append.mp member
    · obtain ⟨declaration, -, same⟩ := List.mem_map.mp declared
      have written : isDeclaration (name, value) = true := by
        rw [← same]
        exact declarationItem_isDeclaration declaration
      rw [isDeclaration, Bool.or_eq_true, decide_eq_true_iff, decide_eq_true_iff] at written
      obtain whole | ⟨rest, whole⟩ := written
      · exact absurd whole undeclared
      · exact absurd (by simp only at whole; rw [← whole]; simp) plain
    · obtain ⟨attr, inside, same⟩ := List.mem_map.mp listed
      have member := tag.mem_attributes_sorted.mp inside
      obtain ⟨sameName, sameValue⟩ := Prod.mk.inj same
      obtain ⟨within, written⟩ | ⟨nsPrefix, written, -⟩ :=
        wellFormed.attributeName_cases prefixed member
      · rw [written] at sameName
        rw [← within, ← sameName, ← sameValue]
        exact member
      · rw [written] at sameName
        exact absurd (by rw [← sameName]; simp) plain
  · intro member
    refine List.mem_append_right _ (List.mem_map.mpr ⟨_, tag.mem_attributes_sorted.mpr member, ?_⟩)
    rfl

end

/-- `Node::attribute` finds the attribute without a namespace, which has one value. -/
theorem Tag.WellFormed.attr_eq_some_iff {element : Element} (wellFormed : element.tag.WellFormed)
    {name value : Text} :
    element.attr name = some value ↔ ⟨none, name, value⟩ ∈ element.tag.attributes := by
  unfold Element.attr
  constructor
  · intro found
    obtain ⟨attr, located, rfl⟩ := Option.map_eq_some_iff.mp found
    have described := List.find?_some located
    simp only [Bool.and_eq_true, decide_eq_true_eq] at described
    obtain ⟨within, rfl⟩ := described
    have member := List.mem_of_find?_eq_some located
    obtain ⟨namespaceUri, own, held⟩ := attr
    obtain rfl : namespaceUri = none := within
    exact member
  · intro member
    cases located : element.tag.attributes.find?
        (fun attr => attr.namespaceUri = none && attr.name = name) with
    | none =>
        have missing := List.find?_eq_none.mp located _ member
        simp at missing
    | some attr =>
        have described := List.find?_some located
        simp only [Bool.and_eq_true, decide_eq_true_eq] at described
        have same : attr = ⟨none, name, value⟩ :=
          List.inj_on_of_nodup_map wellFormed.distinct (List.mem_of_find?_eq_some located) member
            (by simp [described.1, described.2])
        rw [same]
        rfl

end Items

/-! ## Elements with the same content -/

/-- An element that follows the rules of names, with every prefixed attribute written with its
prefix, throughout. -/
def Element.Sound (element : Element) : Prop :=
  ∀ inner ∈ element.descendants, inner.WellFormed ∧ inner.tag.AttributesPrefixed

@[simp] theorem elements_nil : elements [] = [] := rfl

@[simp] theorem elements_element (tag : Tag) (children nodes : List Node) :
    elements (.element tag children :: nodes) = ⟨tag, children⟩ :: elements nodes := rfl

@[simp] theorem elements_text (value : Text) (nodes : List Node) :
    elements (.text value :: nodes) = elements nodes := rfl

@[simp] theorem elements_comment (value : Text) (nodes : List Node) :
    elements (.comment value :: nodes) = elements nodes := rfl

@[simp] theorem elements_pi (target : Text) (value : Option Text) (nodes : List Node) :
    elements (.pi target value :: nodes) = elements nodes := rfl

theorem mem_descendantsOf {nodes : List Node} {inner : Element} :
    inner ∈ descendantsOf nodes ↔
      ∃ element ∈ elements nodes, inner ∈ element.descendants := by
  induction nodes with
  | nil => simp [descendantsOf]
  | cons node nodes ih =>
    rw [descendantsOf, List.mem_append, ih]
    cases node with
    | element tag children => simp [Node.descendants, Element.descendants]
    | text value | comment value | pi target value => simp [Node.descendants]

theorem Element.self_mem_descendants (element : Element) : element ∈ element.descendants :=
  List.mem_cons_self

variable {element : Element}

/-- A descendant is the element itself or a descendant of one of its child elements. -/
theorem Element.mem_descendants {inner : Element} :
    inner ∈ element.descendants ↔
      inner = element ∨ ∃ child ∈ elements element.children, inner ∈ child.descendants := by
  rw [Element.descendants, List.mem_cons, mem_descendantsOf]

mutual

theorem Node.descendants_trans : ∀ (node : Node) {middle inner : Element},
    middle ∈ node.descendants → inner ∈ middle.descendants → inner ∈ node.descendants
  | .element tag children, middle, inner, outer, below => by
      rw [Node.descendants] at outer ⊢
      obtain rfl | deeper := List.mem_cons.mp outer
      · exact below
      · exact List.mem_cons_of_mem _ (descendantsOf_trans children deeper below)
  | .text value, _, _, outer, _ => by cases outer
  | .comment value, _, _, outer, _ => by cases outer
  | .pi target value, _, _, outer, _ => by cases outer

/-- A descendant of a descendant is a descendant. -/
theorem descendantsOf_trans : ∀ (nodes : List Node) {middle inner : Element},
    middle ∈ descendantsOf nodes → inner ∈ middle.descendants → inner ∈ descendantsOf nodes
  | [], _, _, outer, _ => by cases outer
  | node :: nodes, middle, inner, outer, below => by
      rw [descendantsOf] at outer ⊢
      obtain first | later := List.mem_append.mp outer
      · exact List.mem_append_left _ (Node.descendants_trans node first below)
      · exact List.mem_append_right _ (descendantsOf_trans nodes later below)

end

theorem Element.Sound.descendant {middle : Element} (sound : element.Sound)
    (member : middle ∈ element.descendants) : middle.Sound := by
  intro inner below
  obtain rfl | deeper := List.mem_cons.mp member
  · exact sound inner below
  · exact sound inner (List.mem_cons_of_mem _ (descendantsOf_trans _ deeper below))

theorem Element.Sound.child {child : Element} (sound : element.Sound)
    (member : child ∈ elements element.children) : child.Sound := by
  intro inner inside
  exact sound inner (Element.mem_descendants.mpr (.inr ⟨child, member, inside⟩))

theorem Element.Sound.wellFormed (sound : element.Sound) :
    element.tag.WellFormed := (sound _ element.self_mem_descendants).1.1

theorem Element.Sound.prefixed (sound : element.Sound) :
    element.tag.AttributesPrefixed := (sound _ element.self_mem_descendants).2

/-- The elements of the content are the contents of the elements. -/
theorem contents_elements (inclusive : List Text) (scope : RenderedNs) (nodes : List Node) :
    (contents inclusive scope nodes).elements =
      (elements nodes).map (·.content inclusive scope) := by
  induction nodes with
  | nil => rfl
  | cons node nodes ih =>
    cases node with
    | element tag children =>
        simp [contents, Node.contentOnto, Forest.elements, Element.content, ih]
    | text value => simpa [contents, Node.contentOnto] using ih
    | comment value => simpa [contents, Node.contentOnto] using ih
    | pi target value => simpa [contents, Node.contentOnto, Forest.elements] using ih

/-- The text an element starts with, comments aside: every text node before the first element
or processing instruction. -/
def leadingText : List Node → Option Text
  | .text value :: nodes =>
      if value = [] then leadingText nodes else some (value ++ (leadingText nodes).getD [])
  | .comment _ :: nodes => leadingText nodes
  | _ => none

theorem contents_leading (inclusive : List Text) (scope : RenderedNs) (nodes : List Node) :
    (contents inclusive scope nodes).leading = leadingText nodes := by
  induction nodes with
  | nil => rfl
  | cons node nodes ih =>
    cases node with
    | text value =>
        rw [contents, Node.contentOnto, Forest.leading_pushText, ih, leadingText]
    | comment value =>
        rw [contents, Node.contentOnto, ih, leadingText]
    | element tag children => rfl
    | pi target value => rfl

mutual

theorem Node.contentOnto_normal (inclusive : List Text) (scope : RenderedNs) (rest : Forest)
    (normal : rest.Normal) : ∀ node : Node, node.InstructionWellFormed →
    (∀ inner ∈ node.descendants, inner.WellFormed ∧ inner.tag.AttributesPrefixed) →
    (node.contentOnto inclusive scope rest).Normal
  | .text value, _, _ => by
      rw [Node.contentOnto]
      exact normal.pushText value
  | .pi target value, wellFormed, _ => by
      rw [Node.contentOnto]
      exact ⟨wellFormed.1, wellFormed.2, normal⟩
  | .comment value, _, _ => by
      rw [Node.contentOnto]
      exact normal
  | .element tag children, _, sound => by
      rw [Node.descendants] at sound
      obtain ⟨wellFormed, prefixed⟩ := sound _ List.mem_cons_self
      rw [Node.contentOnto]
      exact ⟨wellFormed.1.qname_isName, wellFormed.1.item_names prefixed _ _,
        contents_normal inclusive _ children wellFormed.2
          (fun inner member => sound inner (List.mem_cons_of_mem _ member)), normal⟩

/-- The content of sound nodes is what a writer keeps to. -/
theorem contents_normal (inclusive : List Text) (scope : RenderedNs) : ∀ nodes : List Node,
    (∀ node ∈ nodes, node.InstructionWellFormed) →
    (∀ inner ∈ descendantsOf nodes, inner.WellFormed ∧ inner.tag.AttributesPrefixed) →
    (contents inclusive scope nodes).Normal
  | [], _, _ => by
      rw [contents]
      exact trivial
  | node :: nodes, wellFormed, sound => by
      rw [descendantsOf] at sound
      rw [contents]
      exact Node.contentOnto_normal inclusive scope _
        (contents_normal inclusive scope nodes
          (fun other member => wellFormed other (List.mem_cons_of_mem _ member))
          (fun inner member => sound inner (List.mem_append_right _ member)))
        node (wellFormed node List.mem_cons_self)
        (fun inner member => sound inner (List.mem_append_left _ member))

end

/-! ## Readers -/

/-- A search through related lists has related results. -/
theorem rel_find {α β : Type} {Related : α → β → Prop} {left : List α} {right : List β}
    {p : α → Bool} {q : β → Bool} (related : List.Forall₂ Related left right)
    (agree : ∀ x y, Related x y → p x = q y) :
    Option.Rel Related (left.find? p) (right.find? q) := by
  induction related with
  | nil => exact .none
  | @cons x y left right both rest ih =>
    rw [List.find?_cons, List.find?_cons, agree x y both]
    cases q y with
    | true => exact .some both
    | false => exact ih

section Twins

variable (leftInclusive rightInclusive : List Text)

/-- Two sound elements with the same content under the same namespaces in force. -/
structure Twin (left right : Element) : Prop where
  content : ∃ scope, left.content leftInclusive scope = right.content rightInclusive scope
  left : left.Sound
  right : right.Sound

variable {leftInclusive rightInclusive}

section Tags

variable {left right : Tag}

/-- Tags that list the same put the same namespaces in force. -/
theorem same_scope (leftWellFormed : left.WellFormed) (rightWellFormed : right.WellFormed)
    (leftPrefixed : left.AttributesPrefixed) (rightPrefixed : right.AttributesPrefixed)
    {rendered : RenderedNs}
    (same : left.items leftInclusive rendered = right.items rightInclusive rendered) :
    (left.declare leftInclusive rendered).1 = (right.declare rightInclusive rendered).1 := by
  have listed := leftWellFormed.listed_declarations leftPrefixed leftInclusive rendered
  rw [same, rightWellFormed.listed_declarations rightPrefixed rightInclusive rendered] at listed
  have sorted := (declarationItem_injective.list_map listed).symm
  have made : ∀ declaration, declaration ∈ (left.declare leftInclusive rendered).2 ↔
      declaration ∈ (right.declare rightInclusive rendered).2 := by
    intro declaration
    rw [← (List.perm_insertionSort pairLe _).mem_iff, sorted,
      (List.perm_insertionSort pairLe _).mem_iff]
  have leftDeclared := leftWellFormed.declared leftInclusive rendered
  have rightDeclared := rightWellFormed.declared rightInclusive rendered
  funext key
  by_cases declared : ∃ declaration ∈ (left.declare leftInclusive rendered).2,
      declaredKey declaration.1 = key
  · obtain ⟨declaration, member, rfl⟩ := declared
    rw [leftDeclared.inForce _ member, rightDeclared.inForce _ ((made _).mp member)]
  · rw [leftDeclared.inherited key (fun declaration member same =>
        declared ⟨declaration, member, same⟩),
      rightDeclared.inherited key (fun declaration member same =>
        declared ⟨declaration, (made _).mpr member, same⟩)]

end Tags

variable {left right : Element}

namespace Twin

section

variable (twin : Twin leftInclusive rightInclusive left right)
include twin

theorem name :
    left.tag.name = right.tag.name := by
  obtain ⟨scope, same⟩ := twin.content
  exact (twin.left.wellFormed.same_name twin.right.wellFormed (congrArg (·.1) same)).2

/-- The contents of the children, under the namespaces that both start tags put in force. -/
theorem inner :
    ∃ scope, contents leftInclusive scope left.children =
      contents rightInclusive scope right.children := by
  obtain ⟨scope, same⟩ := twin.content
  have scopes := same_scope twin.left.wellFormed twin.right.wellFormed twin.left.prefixed
    twin.right.prefixed (congrArg (·.2.1) same)
  have inside := congrArg (·.2.2) same
  simp only [Element.content] at inside
  rw [scopes] at inside
  exact ⟨_, inside⟩

theorem namespaceUri :
    left.tag.namespaceUri.getD [] = right.tag.namespaceUri.getD [] := by
  obtain ⟨scope, same⟩ := twin.content
  have scopes := same_scope twin.left.wellFormed twin.right.wellFormed twin.left.prefixed
    twin.right.prefixed (congrArg (·.2.1) same)
  have prefixes :=
    (twin.left.wellFormed.same_name twin.right.wellFormed (congrArg (·.1) same)).1
  rw [twin.left.wellFormed.namespace_inForce leftInclusive scope,
    twin.right.wellFormed.namespace_inForce rightInclusive scope, scopes, prefixes]

theorem named {uri : Text}
    (filled : uri ≠ []) (name : Text) : left.named uri name = right.named uri name := by
  have resolved : ∀ given : Option Text, given = some uri ↔ given.getD [] = uri := by
    intro given
    cases given with
    | none => simp [filled.symm]
    | some held => simp
  simp only [Element.named, resolved, twin.namespaceUri, twin.name]

theorem attr {name : Text}
    (plain : ':' ∉ name) (undeclared : name ≠ "xmlns") :
    left.attr name = right.attr name := by
  obtain ⟨scope, same⟩ := twin.content
  have items : left.tag.items leftInclusive scope = right.tag.items rightInclusive scope :=
    congrArg (·.2.1) same
  apply Option.ext
  intro value
  rw [twin.left.wellFormed.attr_eq_some_iff, twin.right.wellFormed.attr_eq_some_iff,
    ← twin.left.wellFormed.mem_items_iff twin.left.prefixed leftInclusive scope plain undeclared,
    ← twin.right.wellFormed.mem_items_iff twin.right.prefixed rightInclusive scope plain
      undeclared, items]

theorem leadingText :
    leadingText left.children = leadingText right.children := by
  obtain ⟨scope, same⟩ := twin.inner
  rw [← contents_leading leftInclusive scope, same, contents_leading]

/-- The child elements of twins are twins. -/
theorem children :
    List.Forall₂ (Twin leftInclusive rightInclusive) (elements left.children)
      (elements right.children) := by
  obtain ⟨scope, same⟩ := twin.inner
  have contents : (elements left.children).map (·.content leftInclusive scope) =
      (elements right.children).map (·.content rightInclusive scope) := by
    rw [← contents_elements, same, contents_elements]
  rw [← List.forall₂_eq_eq_eq, List.forall₂_map_left_iff, List.forall₂_map_right_iff,
    List.forall₂_iff_zip] at contents
  rw [List.forall₂_iff_zip]
  refine ⟨contents.1, ?_⟩
  intro leftChild rightChild paired
  obtain ⟨leftMember, rightMember⟩ := List.of_mem_zip paired
  exact ⟨⟨scope, contents.2 paired⟩, twin.left.child leftMember, twin.right.child rightMember⟩

theorem findChild {uri : Text}
    (filled : uri ≠ []) (name : Text) :
    Option.Rel (Twin leftInclusive rightInclusive) (left.findChild uri name)
      (right.findChild uri name) :=
  rel_find twin.children (fun _ _ both => both.named filled name)

/-- Every descendant has a twin among the descendants. -/
theorem descendant {inner : Element}
    (inside : inner ∈ left.descendants) :
    ∃ other ∈ right.descendants, Twin leftInclusive rightInclusive inner other := by
  -- The size of the children bounds the depth of the search.
  induction sized : sizeOf left.children using Nat.strong_induction_on generalizing left right with
  | _ size ih =>
    obtain rfl | ⟨child, member, below⟩ := Element.mem_descendants.mp inside
    · exact ⟨right, right.self_mem_descendants, twin⟩
    · obtain ⟨place, bound, rfl⟩ := List.getElem_of_mem member
      have paired := List.forall₂_iff_get.mp twin.children
      have otherBound : place < (elements right.children).length := paired.1 ▸ bound
      have both := paired.2 place bound otherBound
      have smaller : sizeOf (elements left.children)[place].children < size := by
        obtain ⟨node, inChildren, found⟩ := List.mem_filterMap.mp member
        have larger := List.sizeOf_lt_of_mem inChildren
        cases node with
        | element tag children =>
          rw [← Option.some.inj found]
          simp only [Node.element.sizeOf_spec] at larger ⊢
          omega
        | text value => cases found
        | comment value => cases found
        | pi target value => cases found
      obtain ⟨other, found, twins⟩ := ih _ smaller both below rfl
      exact ⟨other, Element.mem_descendants.mpr
        (.inr ⟨_, List.getElem_mem otherBound, found⟩), twins⟩

end

end Twin

/-- What is left of an element without its signature is part of it. -/
theorem Element.unsigned_children (element : Element) :
    ∀ child ∈ elements element.unsigned.children, child ∈ elements element.children := by
  intro child member
  obtain ⟨node, inside, found⟩ := List.mem_filterMap.mp member
  exact List.mem_filterMap.mpr ⟨node, List.mem_of_mem_eraseP inside, found⟩

theorem Element.Sound.unsigned {element : Element} (sound : element.Sound) :
    element.unsigned.Sound := by
  intro inner member
  obtain rfl | ⟨child, inside, below⟩ := Element.mem_descendants.mp member
  · obtain ⟨⟨tag, instructions⟩, prefixed⟩ := sound _ element.self_mem_descendants
    exact ⟨⟨tag, fun node inside => instructions node (List.mem_of_mem_eraseP inside)⟩, prefixed⟩
  · exact sound inner
      (Element.mem_descendants.mpr (.inr ⟨child, element.unsigned_children child inside, below⟩))

/-- Sound elements with the same canonical form, their enveloped signatures left out, are twins
without these signatures. -/
theorem Twin.of_canonicalize (leftSound : left.Sound) (rightSound : right.Sound)
    (same : canonicalize left (signatureId left) leftInclusive =
      canonicalize right (signatureId right) rightInclusive) :
    Twin leftInclusive rightInclusive left.unsigned right.unsigned := by
  rw [canonicalize_content, canonicalize_content] at same
  have normal : ∀ (element : Element) (inclusive : List Text), element.Sound →
      (contents inclusive (fun _ => none) [.element element.tag element.children]).Normal := by
    intro element inclusive sound
    apply contents_normal
    · simp [Node.InstructionWellFormed]
    · intro inner member
      simp only [descendantsOf, List.append_nil] at member
      exact sound inner member
  have forests := (normal _ leftInclusive leftSound.unsigned).eq_of_write
    (normal _ rightInclusive rightSound.unsigned) same
  have elements := congrArg Forest.elements forests
  exact ⟨⟨_, (List.cons.inj elements).1⟩, leftSound.unsigned, rightSound.unsigned⟩

end Twins

end Camelmailer.Xml

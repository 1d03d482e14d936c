import Camelmailer.Core.Model
import Camelmailer.SignedSums
import Camelmailer.Text.Replacement
import Camelmailer.Worker.LinkRewriting

/-!
# Placeholders of tracked links

`apply_tracking` of `camelmailer-worker/src/worker.rs` rewrites the links of a body with numbered
placeholders, registers a token for each of them, and then replaces the placeholders one after the other
wherever they stand in the result.

The tokens are those of a registry that may know the links before; the base of the tracking URLs is any
text.
-/

namespace Camelmailer.Tracking

open Utf8 Replacement

/-! ## `Worker::apply_tracking` -/

/-- `__CM_CLICK_{index}__`. -/
def placeholder (index : Nat) : Text := "__CM_CLICK_" ++ (decimal index ++ "__")

/-- `{tracking_base_url}/track/c/{token}`. -/
def trackingUrl (base token : Text) : Text := base ++ ("/track/c/" ++ token)

section Clicks

-- `register` gives the token of a link, given the links before.
variable (casing : Casing) (base : Text) (register : List Text → Text → Text)

/-- The tokens of links, one after the other. -/
def clickTokens : List Text → List Text → List Text
  | _, [] => []
  | seen, url :: urls => register seen url :: clickTokens (seen ++ [url]) urls

/-- The links of a body as `apply_tracking` replaces them. -/
def trackLinks (body : Text) : Option Text :=
  (rewriteLinks casing (fun pendingLinks _ => placeholder pendingLinks.length) body).map (fun result =>
    (clickTokens register [] result.2).zipIdx.foldl (fun rewritten entry =>
      replace (placeholder entry.2) (trackingUrl base entry.1) rewritten) result.1)

/-- The links of a body replaced by their tracking URLs directly. -/
def trackDirectly (body : Text) : Option Text :=
  (rewriteLinks casing (fun urls url => trackingUrl base (register urls url)) body).map Prod.fst

end Clicks

/-- The text of a part that is not the value of a link. -/
def Segment.outside : Segment → Text
  | .other char => [char]
  | .value opening rawUrl => if isHttp (entityDecoded rawUrl) then opening else opening ++ rawUrl

/-- No placeholder of a token stands outside of the links, and none in the tracking URL of an earlier one. -/
def PlaceholdersApart (base : Text) (tokens : List Text) (outside : Text) : Prop :=
  (∀ index < tokens.length, ¬ placeholder index <:+: outside) ∧
    tokens.zipIdx.Pairwise (fun earlier later => ¬ placeholder later.2 <:+: trackingUrl base earlier.1)

/-! ## Placeholders -/

def IsQuote (char : Char) : Prop := char = '"' ∨ char = '\''

section Placeholders

variable {index other : Nat} {base token : Text} {char : Char}

theorem mem_placeholder (member : char ∈ placeholder index) :
    char.isDigit = true ∨ char ∈ "__CM_CLICK_".toList := by
  rcases List.mem_append.mp member with opening | rest
  · exact .inr opening
  · rcases List.mem_append.mp rest with number | closing
    · exact .inl (isDigit_decimal number)
    · exact .inr ((by decide : "__".toList ⊆ "__CM_CLICK_".toList) closing)

theorem placeholder_ne_nil (index : Nat) : placeholder index ≠ [] := List.cons_ne_nil _ _

theorem slash_placeholder (index : Nat) : '/' ∉ placeholder index :=
  fun member => absurd (mem_placeholder member) (by decide)

theorem quote_not_mem (quoted : IsQuote char) (index : Nat) : char ∉ placeholder index := by
  rcases quoted with rfl | rfl
  · exact fun member => absurd (mem_placeholder member) (by decide)
  · exact fun member => absurd (mem_placeholder member) (by decide)

theorem slash_trackingUrl (base token : Text) : '/' ∈ trackingUrl base token :=
  List.mem_append_right base List.mem_cons_self

/-- What is behind the letter that stands once in a placeholder. -/
def tail (index : Nat) : Text := "_CLICK_" ++ (decimal index ++ "__")

theorem placeholder_eq (index : Nat) : placeholder index = "__C" ++ 'M' :: tail index := rfl

theorem letter_tail (index : Nat) : 'M' ∉ tail index := by
  intro member
  rcases List.mem_append.mp member with word | rest
  · exact absurd word (by decide)
  · rcases List.mem_append.mp rest with number | closing
    · exact absurd (isDigit_decimal number) (by decide)
    · exact absurd closing (by decide)

theorem decimal_of_tail {more : Text} (same : tail index ++ more = tail other) : index = other := by
  have plain (index : Nat) : '_' ∉ decimal index :=
    fun member => absurd (isDigit_decimal member) (by decide)
  unfold tail at same
  rw [List.append_assoc, List.append_assoc, List.append_cancel_left_eq] at same
  have split : Str.splitOnce '_' (decimal other ++ "__") = some (decimal index, '_' :: more) := by
    rw [← same]
    exact Str.splitOnce_eq_some.mpr ⟨rfl, plain index⟩
  have split' : Str.splitOnce '_' (decimal other ++ "__") = some (decimal other, ['_']) :=
    Str.splitOnce_eq_some.mpr ⟨rfl, plain other⟩
  exact decimal_injective (Prod.mk.inj (Option.some.inj (split.symm.trans split'))).1

/-- No placeholder stands in another. -/
theorem placeholder_within : placeholder index <:+: placeholder other ↔ index = other := by
  constructor
  · rintro ⟨front, back, whole⟩
    have letters (index : Nat) : (placeholder index).count 'M' = 1 := by
      rw [placeholder_eq, List.count_append, List.count_cons_self, List.count_eq_zero.mpr (letter_tail index)]
      decide
    have counts := congrArg (List.count 'M') whole
    rw [List.count_append, List.count_append, letters, letters] at counts
    have absent : 'M' ∉ front := List.count_eq_zero.mp (by omega)
    rw [placeholder_eq, placeholder_eq] at whole
    have cut : Str.splitOnce 'M' ("__C".toList ++ 'M' :: tail other) = some ("__C".toList, tail other) :=
      Str.splitOnce_eq_some.mpr ⟨rfl, by decide⟩
    have cut' : Str.splitOnce 'M' ("__C".toList ++ 'M' :: tail other) =
        some (front ++ "__C".toList, tail index ++ back) := by
      refine Str.splitOnce_eq_some.mpr ⟨?_, ?_⟩
      · rw [← whole]
        simp
      · exact fun member => (List.mem_append.mp member).elim absent (by decide)
    exact decimal_of_tail (Prod.mk.inj (Option.some.inj (cut'.symm.trans cut))).2
  · rintro rfl
    exact List.infix_refl _

end Placeholders

/-! ## Links and the texts between them -/

/-- The text in front of the first link, and each link with the text behind it. -/
def strands : List Segment → Text × List (Text × Text)
  | [] => ([], [])
  | .other char :: segments => (char :: (strands segments).1, (strands segments).2)
  | .value opening rawUrl :: segments =>
      if isHttp (entityDecoded rawUrl) then
        (opening, (entityDecoded rawUrl, (strands segments).1) :: (strands segments).2)
      else (opening ++ (rawUrl ++ (strands segments).1), (strands segments).2)

/-- A link with its number, its token and the text behind it. -/
structure Entry where
  index : Nat
  token : Text
  behind : Text

/-- The links behind some others. -/
def entries (register : List Text → Text → Text) : List Text → List (Text × Text) → List Entry
  | _, [] => []
  | seen, link :: links => ⟨seen.length, register seen link.1, link.2⟩ ::
      entries register (seen ++ [link.1]) links

/-- The rule that replaces the placeholder of a link. -/
def Entry.rule (base : Text) (entry : Entry) : Text × Text :=
  (placeholder entry.index, trackingUrl base entry.token)

section Strands

variable {casing : Casing} {base text : Text} {register : List Text → Text → Text} {seen : List Text}
variable {segments : List Segment} {links : List (Text × Text)}

/-- Rendered parts are the texts between the links with what the links are replaced by. -/
theorem render_strands (makeClickUrl : List Text → Text → Text) (fill : Entry → Text)
    (fills : ∀ seen url behind, fill ⟨seen.length, register seen url, behind⟩ = makeClickUrl seen url)
    (seen : List Text) (segments : List Segment) : render makeClickUrl seen segments =
      weave (strands segments).1
        ((entries register seen (strands segments).2).map (fun entry => (fill entry, entry.behind))) := by
  induction segments generalizing seen with
  | nil => rfl
  | cons segment segments ih =>
      cases segment with
      | other char =>
          rw [render, ih]
          exact (weave_append [char] _ _).symm
      | value opening rawUrl =>
          rw [render, strands]
          split
          · rw [ih]
            simp only [entries, List.map_cons, weave, fills]
          · rw [ih, weave_append, weave_append]

/-- What is outside of the links are the texts between them. -/
theorem outside_strands (segments : List Segment) : segments.flatMap Segment.outside =
    weave (strands segments).1 ((strands segments).2.map (fun link => ([], link.2))) := by
  induction segments with
  | nil => rfl
  | cons segment segments ih =>
      rw [List.flatMap_cons, ih]
      cases segment with
      | other char => exact (weave_append [char] _ _).symm
      | value opening rawUrl =>
          rw [Segment.outside, strands]
          split
          · rfl
          · rw [weave_append, weave_append, List.append_assoc]

theorem clickTokens_eq (seen : List Text) (links : List (Text × Text)) :
    clickTokens register seen (links.map Prod.fst) = (entries register seen links).map Entry.token := by
  induction links generalizing seen with
  | nil => rfl
  | cons link links ih =>
      simp only [List.map_cons, clickTokens, entries, ih]

theorem links_strands (segments : List Segment) :
    segments.filterMap Segment.link = (strands segments).2.map Prod.fst := by
  induction segments with
  | nil => rfl
  | cons segment segments ih =>
      cases segment with
      | other char =>
          exact ih
      | value opening rawUrl =>
          rw [List.filterMap_cons, Segment.link, strands]
          split_ifs
          · simp [ih]
          · exact ih

theorem zipIdx_entries (seen : List Text) (links : List (Text × Text)) :
    ((entries register seen links).map Entry.token).zipIdx seen.length =
      (entries register seen links).map (fun entry => (entry.token, entry.index)) := by
  induction links generalizing seen with
  | nil => rfl
  | cons link links ih =>
      have next := ih (seen ++ [link.1])
      rw [List.length_append, List.length_singleton] at next
      simp only [entries, List.map_cons, List.zipIdx_cons, next]

theorem length_le_index (seen : List Text) (links : List (Text × Text)) :
    ∀ entry ∈ entries register seen links, seen.length ≤ entry.index := by
  induction links generalizing seen with
  | nil => exact fun _ member => absurd member List.not_mem_nil
  | cons link links ih =>
      refine List.forall_mem_cons.mpr ⟨Nat.le_refl _, fun entry member => ?_⟩
      have later := ih (seen ++ [link.1]) entry member
      rw [List.length_append] at later
      exact Nat.le_of_succ_le later

theorem entries_behind (seen : List Text) (links : List (Text × Text)) :
    (entries register seen links).map (fun entry => (([] : Text), entry.behind)) =
      links.map (fun link => ([], link.2)) := by
  induction links generalizing seen with
  | nil => rfl
  | cons link links ih => simp only [entries, List.map_cons, ih]

/-- The numbers of the links grow. -/
theorem entries_sorted (seen : List Text) (links : List (Text × Text)) :
    (entries register seen links).Pairwise (fun earlier later => earlier.index < later.index) := by
  induction links generalizing seen with
  | nil => exact List.Pairwise.nil
  | cons link links ih =>
      refine List.pairwise_cons.mpr ⟨fun entry member => ?_, ih _⟩
      have later := length_le_index (seen ++ [link.1]) links entry member
      rw [List.length_append] at later
      exact later

/-- The quote behind a value is read as itself. -/
theorem scan_quote {quote : Char} {rest : Text} (quoted : IsQuote quote)
    (scan : Scan (quote :: rest) segments) : ∃ more, (strands segments).1 = quote :: more := by
  cases scan with
  | value found _ =>
      obtain ⟨⟨name, blanks, more, rfl, href, -⟩, -, whole⟩ := found
      cases name with
      | nil => cases href
      | cons first name =>
          obtain rfl : quote = first := (List.cons.inj whole).1
          have letter : quote.toLower = 'h' := (List.cons.inj href).1
          rcases quoted with rfl | rfl <;> exact absurd letter (by decide)
  | other _ _ => exact ⟨_, rfl⟩

/-- A quote is at both ends of every link. -/
theorem closed_strands (scan : Scan text segments) :
    Closed IsQuote (strands segments).1 ((strands segments).2.map (fun link => ([], link.2))) := by
  have further (head more : Text) (links : List (Text × Text))
      (closed : Closed IsQuote head links) : Closed IsQuote (more ++ head) links := by
    cases links with
    | nil => exact trivial
    | cons link links =>
        obtain ⟨⟨item, quoted, closes⟩, later⟩ := closed
        refine ⟨⟨item, quoted, ?_⟩, later⟩
        rw [List.getLast?_append, closes]
        rfl
  induction scan with
  | nil => exact trivial
  | @value opening rawUrl rest text quote segments found later ih =>
      have quoted : IsQuote quote := by
        obtain ⟨name, blanks, more, -, -, -, -, quoted⟩ := found.1
        exact quoted
      rw [strands]
      split
      · obtain ⟨more, opens⟩ := scan_quote quoted later
        refine ⟨⟨quote, quoted, ?_⟩, ⟨quote, quoted, ?_⟩, ih⟩
        · obtain ⟨name, blanks, more, rfl, -⟩ := found.1
          have ended : name ++ (blanks ++ '=' :: (more ++ [quote])) =
              (name ++ (blanks ++ '=' :: more)) ++ [quote] := by simp
          rw [ended, List.getLast?_concat]
        · exact congrArg List.head? opens
      · rw [← List.append_assoc]
        exact further _ _ _ ih
  | @other char rest segments none_ later ih =>
      exact further _ [char] _ ih

end Strands

/-! ## When the placeholders are apart -/

section Apart

variable {base head : Text} {all : List Entry}

theorem marking (base : Text) (all : List Entry) : Marking '/' (all.map (Entry.rule base)) := by
  intro rule member
  obtain ⟨entry, -, rfl⟩ := List.mem_map.mp member
  exact ⟨placeholder_ne_nil _, slash_placeholder _, slash_trackingUrl _ _⟩

theorem foreign (base : Text) (all : List Entry) : Foreign IsQuote (all.map (Entry.rule base)) := by
  intro rule member
  obtain ⟨entry, -, rfl⟩ := List.mem_map.mp member
  exact ⟨placeholder_ne_nil _, fun char quoted => quote_not_mem quoted _⟩

/-- The placeholder of a link is replaced by its tracking URL, in which later ones may be replaced. -/
theorem replaceEach_placeholder {before after : List Entry} {entry : Entry}
    (earlier : ∀ other ∈ before, other.index ≠ entry.index) :
    replaceEach ((before ++ entry :: after).map (Entry.rule base)) (placeholder entry.index) =
      replaceEach (after.map (Entry.rule base)) (trackingUrl base entry.token) := by
  have absent : ∀ rule ∈ before.map (Entry.rule base), ¬ rule.1 <:+: placeholder entry.index := by
    intro rule member inside
    obtain ⟨other, listed, rfl⟩ := List.mem_map.mp member
    exact earlier other listed (placeholder_within.mp inside)
  have own : replace (entry.rule base).1 (entry.rule base).2 (placeholder entry.index) =
      trackingUrl base entry.token := replace_self (placeholder_ne_nil _)
  rw [List.map_append, replaceEach_append, replaceEach_absent (marking base before) absent, ← own]
  rfl

/-- A relation holds of an item and what is behind it. -/
theorem pairwise_iff_split {Item : Type} {related : Item → Item → Prop} {items : List Item} :
    items.Pairwise related ↔ ∀ before item after, items = before ++ item :: after →
      ∀ later ∈ after, related item later := by
  constructor
  · rintro pairs before item after rfl
    exact (List.pairwise_cons.mp (List.pairwise_append.mp pairs).2.1).1
  · intro splits
    induction items with
    | nil => exact List.Pairwise.nil
    | cons item items ih =>
        refine List.pairwise_cons.mpr ⟨splits [] item items rfl, ih ?_⟩
        intro before other after whole
        exact splits (item :: before) other after (by rw [whole]; rfl)

/-- What becomes of a placeholder has at least the slashes of its tracking URL, and no more if no later
placeholder stands in that. -/
theorem count_placeholder (base : Text)
    (sorted : all.Pairwise (fun earlier later => earlier.index < later.index))
    {before after : List Entry} {entry : Entry} (split : all = before ++ entry :: after) :
    (trackingUrl base entry.token).count '/' ≤
        (replaceEach (all.map (Entry.rule base)) (placeholder entry.index)).count '/' ∧
      ((trackingUrl base entry.token).count '/' =
        (replaceEach (all.map (Entry.rule base)) (placeholder entry.index)).count '/' ↔
        ∀ later ∈ after, ¬ placeholder later.index <:+: trackingUrl base entry.token) := by
  subst split
  have earlier : ∀ other ∈ before, other.index ≠ entry.index := fun other member =>
    Nat.ne_of_lt ((List.pairwise_append.mp sorted).2.2 other member entry List.mem_cons_self)
  rw [replaceEach_placeholder earlier]
  refine ⟨count_replaceEach (marking base after) _, ?_⟩
  rw [count_replaceEach_eq (marking base after), List.forall_mem_map]
  rfl

/-- The placeholders are replaced by the tracking URLs if and only if none is found elsewhere. -/
theorem replaceEach_iff (sorted : all.Pairwise (fun earlier later => earlier.index < later.index))
    (closed : Closed IsQuote head (all.map (fun entry => ([], entry.behind)))) :
    replaceEach (all.map (Entry.rule base))
        (weave head (all.map (fun entry => (placeholder entry.index, entry.behind)))) =
      weave head (all.map (fun entry => (trackingUrl base entry.token, entry.behind))) ↔
    (∀ entry ∈ all, ¬ placeholder entry.index <:+:
        weave head (all.map (fun entry => ([], entry.behind)))) ∧
      all.Pairwise (fun earlier later =>
        ¬ placeholder later.index <:+: trackingUrl base earlier.token) := by
  have filled : Closed IsQuote head (all.map (fun entry => (placeholder entry.index, entry.behind))) :=
    closed.congr (by simp [List.map_map])
  have slashes (text : Text) := count_replaceEach (marking base all) text
  have nowhere (text : Text) : text.count '/' = (replaceEach (all.map (Entry.rule base)) text).count '/' ↔
      ∀ entry ∈ all, ¬ placeholder entry.index <:+: text := by
    rw [count_replaceEach_eq (marking base all), List.forall_mem_map]
    rfl
  have parts (entry : Entry) : placeholder entry.index <:+:
      weave head (all.map (fun entry => ([], entry.behind))) ↔ placeholder entry.index <:+: head ∨
        ∃ part ∈ all.map Entry.behind, placeholder entry.index <:+: part := by
    have behind : Closed IsQuote head ((all.map Entry.behind).map (fun part => ([], part))) := by
      rw [List.map_map]
      exact closed
    have found := infix_weave_nil (fun char quoted => quote_not_mem quoted entry.index) behind
    rwa [List.map_map] at found
  rw [replaceEach_weave (foreign base all) filled, List.map_map]
  constructor
  · intro same
    have total := congrArg (List.count '/') same
    rw [count_weave, count_weave, List.map_map, List.map_map] at total
    simp only [Function.comp_def] at total
    have least : ∀ entry ∈ all,
        (trackingUrl base entry.token).count '/' + entry.behind.count '/' ≤
          (replaceEach (all.map (Entry.rule base)) (placeholder entry.index)).count '/' +
            (replaceEach (all.map (Entry.rule base)) entry.behind).count '/' := by
      intro entry member
      obtain ⟨before, after, split⟩ := List.append_of_mem member
      exact Nat.add_le_add (count_placeholder base sorted split).1 (slashes entry.behind)
    have front := slashes head
    have each := SignedSums.eq_of_sum_le least (by omega)
    rw [List.map_congr_left each] at total
    have inHead := (nowhere head).mp (by omega)
    constructor
    · intro entry member inside
      rcases (parts entry).mp inside with early | ⟨part, listed, late⟩
      · exact inHead entry member early
      · obtain ⟨other, among, rfl⟩ := List.mem_map.mp listed
        obtain ⟨before, after, split⟩ := List.append_of_mem among
        have own := (count_placeholder base sorted split).1
        have kept := slashes other.behind
        have sum := each other among
        exact (nowhere other.behind).mp (by omega) entry member late
    · refine pairwise_iff_split.mpr (fun before entry after split => ?_)
      have among : entry ∈ all := split ▸ List.mem_append_right before List.mem_cons_self
      obtain ⟨own, exact_⟩ := count_placeholder base sorted split
      have kept := slashes entry.behind
      have sum := each entry among
      exact exact_.mp (by omega)
  · rintro ⟨outside, later⟩
    have still (text : Text) (absent : ∀ entry ∈ all, ¬ placeholder entry.index <:+: text) :
        replaceEach (all.map (Entry.rule base)) text = text :=
      replaceEach_absent (marking base all) (List.forall_mem_map.mpr absent)
    have kept : replaceEach (all.map (Entry.rule base)) head = head :=
      still head (fun entry member inside => outside entry member ((parts entry).mpr (.inl inside)))
    rw [kept]
    refine congrArg _ (List.map_congr_left (fun entry member => ?_))
    obtain ⟨before, after, split⟩ := List.append_of_mem member
    have behind : replaceEach (all.map (Entry.rule base)) entry.behind = entry.behind :=
      still entry.behind (fun other among inside => outside other among
        ((parts other).mpr (.inr ⟨entry.behind, List.mem_map_of_mem member, inside⟩)))
    have last := pairwise_iff_split.mp later before entry after split
    have filled : replaceEach (all.map (Entry.rule base)) (placeholder entry.index) =
        trackingUrl base entry.token := by
      have earlier : ∀ other ∈ before, other.index ≠ entry.index := fun other among => by
        rw [split] at sorted
        exact Nat.ne_of_lt ((List.pairwise_append.mp sorted).2.2 other among entry List.mem_cons_self)
      rw [split, replaceEach_placeholder earlier]
      exact replaceEach_absent (marking base after) (List.forall_mem_map.mpr last)
    exact Prod.ext filled behind

/-- A body is read in one way, and its links get their own tracking URLs and nothing else changes if and
only if the placeholders are apart. -/
theorem trackLinks_iff (casing : Casing) (base : Text) (register : List Text → Text → Text) (body : Text) :
    ∃ segments, Scan body segments ∧
      trackDirectly casing base register body =
        some (render (fun urls url => trackingUrl base (register urls url)) [] segments) ∧
      (trackLinks casing base register body = trackDirectly casing base register body ↔
        PlaceholdersApart base (clickTokens register [] (segments.filterMap Segment.link))
          (segments.flatMap Segment.outside)) := by
  obtain ⟨segments, scan, -⟩ := rewriteLinks_scan casing (fun _ url => url) body
  have run (makeClickUrl : List Text → Text → Text) : rewriteLinks casing makeClickUrl body =
      some (render makeClickUrl [] segments, segments.filterMap Segment.link) := by
    obtain ⟨others, other, found⟩ := rewriteLinks_scan casing makeClickUrl body
    rwa [other.unique scan] at found
  obtain ⟨all, same⟩ : ∃ all, all = entries register [] (strands segments).2 := ⟨_, rfl⟩
  have placeholders : render (fun pendingLinks _ => placeholder pendingLinks.length) [] segments =
      weave (strands segments).1 (all.map (fun entry => (placeholder entry.index, entry.behind))) :=
    same ▸ render_strands (fun pendingLinks _ => placeholder pendingLinks.length)
      (fun entry => placeholder entry.index) (fun _ _ _ => rfl) [] segments
  have direct : render (fun urls url => trackingUrl base (register urls url)) [] segments =
      weave (strands segments).1 (all.map (fun entry => (trackingUrl base entry.token, entry.behind))) :=
    same ▸ render_strands (fun urls url => trackingUrl base (register urls url))
      (fun entry => trackingUrl base entry.token) (fun _ _ _ => rfl) [] segments
  have tokens : clickTokens register [] (segments.filterMap Segment.link) = all.map Entry.token := by
    rw [links_strands, clickTokens_eq, same]
  have numbered : (all.map Entry.token).zipIdx = all.map (fun entry => (entry.token, entry.index)) :=
    same ▸ zipIdx_entries [] (strands segments).2
  have sorted : all.Pairwise (fun earlier later => earlier.index < later.index) :=
    same ▸ entries_sorted [] (strands segments).2
  have behind : all.map (fun entry => (([] : Text), entry.behind)) =
      (strands segments).2.map (fun link => ([], link.2)) :=
    same ▸ entries_behind [] (strands segments).2
  have closed : Closed IsQuote (strands segments).1 (all.map (fun entry => ([], entry.behind))) :=
    behind ▸ closed_strands scan
  have indices : (∀ index < (all.map Entry.token).length, ¬ placeholder index <:+:
      segments.flatMap Segment.outside) ↔ ∀ entry ∈ all, ¬ placeholder entry.index <:+:
        segments.flatMap Segment.outside := by
    have numbers : all.map Entry.index = List.range' 0 all.length := by
      have second := congrArg (List.map Prod.snd) numbered
      rw [List.zipIdx_map_snd, List.map_map, List.length_map] at second
      exact second.symm
    have member (index : Nat) : index < (all.map Entry.token).length ↔ index ∈ all.map Entry.index := by
      rw [numbers]
      simp
    simp only [member, List.forall_mem_map]
  refine ⟨segments, scan, by rw [trackDirectly, run]; rfl, ?_⟩
  rw [trackLinks, trackDirectly, run, run, Option.map_some, Option.map_some, Option.some_inj, tokens, PlaceholdersApart, numbered, indices, outside_strands, ← behind, placeholders, direct, List.pairwise_map,
    List.foldl_map, ← replaceEach_iff sorted closed, replaceEach, List.foldl_map]
  rfl

end Apart

/-- Text that looks like a placeholder is replaced. -/
theorem replaced_text : trackLinks Casing.few "https://t" (fun _ _ => "x")
      "<a href=\"http://y\">__CM_CLICK_0__</a>" =
        some "<a href=\"https://t/track/c/x\">https://t/track/c/x</a>".toList ∧
    trackDirectly Casing.few "https://t" (fun _ _ => "x")
      "<a href=\"http://y\">__CM_CLICK_0__</a>" =
        some "<a href=\"https://t/track/c/x\">__CM_CLICK_0__</a>".toList := by
  constructor <;> decide +kernel

end Camelmailer.Tracking

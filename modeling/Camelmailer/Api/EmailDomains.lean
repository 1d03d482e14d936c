import Camelmailer.Api.Directory
import Camelmailer.Machine

/-!
# Whose an email domain is

Organizations claim email domains, prove that they are theirs, and give them up. Several can claim
one domain; the first that proves it has it until it gives it up.

A claim is kept under the normal form of what has been typed in, and a domain is looked up by its
own normal form. `normalize_domain` takes white space off before the leading `@`s and not after
them, so `@ acme.com` is kept as ` acme.com`, which nothing that is looked up becomes without an
`@` of its own. Where no claim is typed in like that, every spelling of a verified domain leads to
the organization that has verified it.
-/

namespace Camelmailer.Api.Directory.EmailDomains

open Utf8 Db Machine

/-- A call of the store that changes what is claimed. The store in memory can be overtaken by
another call between its check for a claim and the new one. -/
inductive Change where
  | createOrgEmailDomain (new : NewOrgEmailDomain) (overtaken : Bool)
  | markOrgEmailDomainVerified (id : Id)
  | deleteOrgEmailDomain (id : Id)
deriving DecidableEq

inductive Answer where
  | created (result : Except StoreError OrgEmailDomain)
  | marked (result : Except StoreError Unit)
  | deleted (found : Bool)
deriving DecidableEq

/-- The organization that makes a change: that of the claim. -/
def Change.organization (tables : Tables) : Change → Option Id
  | .createOrgEmailDomain new _ => some new.organizationId
  | .markOrgEmailDomainVerified id => (tables.domains.find id).map (fun row => row.organizationId)
  | .deleteOrgEmailDomain id => (tables.domains.find id).map (fun row => row.organizationId)

def deleteOrgEmailDomain (tables : Tables) (id : Id) : Bool × Tables :=
  ((tables.domains.find id).isSome, { tables with domains := tables.domains.remove id })

/-- A call that fails leaves the tables as they are. -/
def step (store : StoreKind) (tables : Tables) : Change → Option (Answer × Tables)
  | .createOrgEmailDomain new overtaken =>
      match tables.createOrgEmailDomain store new overtaken with
      | .ok (row, after) => some (.created (.ok row), after)
      | .error error => some (.created (.error error), tables)
  | .markOrgEmailDomainVerified id =>
      match tables.markOrgEmailDomainVerified store id with
      | .ok (_, after) => some (.marked (.ok ()), after)
      | .error error => some (.marked (.error error), tables)
  | .deleteOrgEmailDomain id =>
      let (found, after) := deleteOrgEmailDomain tables id
      some (.deleted found, after)

/-- `organization_for_verified_email_domain` for rows that come in some order. -/
def organizationAmong (rows : List OrgEmailDomain) (domain : Text) : Option Id :=
  (rows.find? (fun row => row.verified && row.domain = normalizeDomain domain)).map
    (fun row => row.organizationId)

/-! ## Spellings -/

/-- A text that names a domain in letters of any case, behind `@`s and between white space. -/
def Spelling (domain text : Text) : Prop :=
  ∃ before ats body after, text = before ++ (ats ++ (body ++ after)) ∧
    (∀ char ∈ before, Str.isWhitespace char = true) ∧ (∀ char ∈ ats, char = '@') ∧
    (∀ char ∈ after, Str.isWhitespace char = true) ∧ Str.eqIgnoreAsciiCase body domain = true

/-- No white space stands directly behind the leading `@`s. -/
def Tight (text : Text) : Prop :=
  ∀ char ∈ ((Str.trim text).dropWhile (fun char => char = '@')).head?,
    Str.isWhitespace char = false

instance (text : Text) : Decidable (Tight text) :=
  Option.decidableForallMem ((Str.trim text).dropWhile (fun char => char = '@')).head?

def Change.Tight : Change → Prop
  | .createOrgEmailDomain new _ => EmailDomains.Tight new.domain
  | _ => True

instance : (change : Change) → Decidable change.Tight
  | .createOrgEmailDomain new _ => inferInstanceAs (Decidable (EmailDomains.Tight new.domain))
  | .markOrgEmailDomainVerified _ => instDecidableTrue
  | .deleteOrgEmailDomain _ => instDecidableTrue

/-- What a claim that was typed in tightly is kept under. -/
structure Normal (domain : Text) : Prop where
  filled : domain ≠ []
  lower : Str.toAsciiLowercase domain = domain
  bare : domain.head? ≠ some '@'
  opens : ∀ char ∈ domain.head?, Str.isWhitespace char = false
  closes : ∀ char ∈ domain.getLast?, Str.isWhitespace char = false

section Spellings

variable {text domain : Text} {char : Char}

theorem head_lower : (Str.toAsciiLowercase text).head? = text.head?.map Char.toLower := by
  cases text <;> rfl

theorem last_lower : (Str.toAsciiLowercase text).getLast? = text.getLast?.map Char.toLower := by
  simp [Str.toAsciiLowercase]

/-- The end of a text stays when something is dropped before it. -/
theorem getLast_dropWhile {p : Char → Bool} (left : char ∈ (text.dropWhile p).getLast?) :
    char ∈ text.getLast? := by
  have split := List.takeWhile_append_dropWhile (p := p) (l := text)
  rw [← split, List.getLast?_append, Option.mem_def.mp left]
  rfl

theorem trim_closes (last : char ∈ (Str.trim text).getLast?) : Str.isWhitespace char = false := by
  obtain ⟨start, split⟩ := List.getLast?_eq_some_iff.mp last
  have filled : (Str.trim text) ≠ [] := by simp [split]
  have visible := List.rdropWhile_last_not (p := Str.isWhitespace) (Str.trimStart text) filled
  have own : (Str.trim text).getLast filled = char := by simp [split]
  rw [← own]
  exact Bool.not_eq_true _ ▸ visible

/-- The normal form of a claim that was typed in tightly. -/
theorem normal_normalizeDomain (tight : Tight text) (filled : normalizeDomain text ≠ []) :
    Normal (normalizeDomain text) := by
  have dropped : ((Str.trim text).dropWhile (fun char => char = '@')) ≠ [] := by
    intro empty
    rw [normalizeDomain, empty] at filled
    exact filled rfl
  refine ⟨filled, Str.lower_lower _, ?_, ?_, ?_⟩
  · rw [normalizeDomain, head_lower, List.head?_eq_some_head dropped]
    intro same
    have at_ := (Str.toLower_eq_at _).mp (Option.some.inj same)
    have other := List.head_dropWhile_not (fun char : Char => decide (char = '@')) dropped
    simp [at_] at other
  · intro char first
    rw [normalizeDomain, head_lower, Option.mem_def, Option.map_eq_some_iff] at first
    obtain ⟨own, first, rfl⟩ := first
    rw [Str.isWhitespace_toLower]
    exact tight own first
  · intro char last
    rw [normalizeDomain, last_lower, Option.mem_def, Option.map_eq_some_iff] at last
    obtain ⟨own, last, rfl⟩ := last
    rw [Str.isWhitespace_toLower]
    exact trim_closes (getLast_dropWhile last)

/-- Every spelling of a domain in its normal form is brought into that. -/
theorem Normal.spelled (normal : Normal domain) (spelling : Spelling domain text) :
    normalizeDomain text = domain := by
  obtain ⟨before, ats, body, after, rfl, blank_before, only, blank_after, same⟩ := spelling
  have lower : Str.toAsciiLowercase body = domain :=
    (beq_iff_eq.mp same).trans normal.lower
  have filled : body ≠ [] := by
    rintro rfl
    exact normal.filled lower.symm
  have opens : ∀ char ∈ body.head?, Str.isWhitespace char = false ∧ char ≠ '@' := by
    intro char first
    have moved : char.toLower ∈ domain.head? := by
      rw [← lower, head_lower]
      exact Option.mem_map_of_mem _ first
    refine ⟨Str.isWhitespace_toLower char ▸ normal.opens _ moved, ?_⟩
    rintro rfl
    exact normal.bare moved
  have closes : ∀ char ∈ body.getLast?, Str.isWhitespace char = false := by
    intro char last
    have moved : char.toLower ∈ domain.getLast? := by
      rw [← lower, last_lower]
      exact Option.mem_map_of_mem _ last
    exact Str.isWhitespace_toLower char ▸ normal.closes _ moved
  have kept : Str.trim (before ++ (ats ++ (body ++ after))) = ats ++ body := by
    rw [← List.append_assoc ats]
    refine Str.trim_padded blank_before blank_after ?_ ?_
    · intro char first
      rw [List.head?_append, Option.mem_def, Option.or_eq_some_iff] at first
      rcases first with first | ⟨-, first⟩
      · rw [only char (List.mem_of_mem_head? first)]
        decide
      · exact (opens char first).1
    · intro char last
      rw [List.getLast?_append, List.getLast?_eq_some_getLast filled] at last
      exact closes char (by rw [List.getLast?_eq_some_getLast filled]; exact last)
  have dropped : (ats ++ body).dropWhile (fun char => char = '@') = body := by
    rw [List.dropWhile_append_of_pos (by simpa using only)]
    cases body with
    | nil => rfl
    | cons first rest => exact List.dropWhile_cons_of_neg (by simpa using (opens first rfl).2)
  rw [normalizeDomain, kept, dropped, lower]

end Spellings

/-! ## One change -/

section Changes

variable {store : StoreKind} {before after : Tables} {change : Change} {answer : Answer}
  {row : OrgEmailDomain} {id : Id}

/-- What a change can do to the claims: nothing, a new one, a proof, or the end of one. -/
theorem step_cases (reaction : step store before change = some (answer, after)) :
    after = before ∨
    (∃ new overtaken row, ∃ fresh : domainId row = before.domains.next,
      change = .createOrgEmailDomain new overtaken ∧ row.verified = false ∧
      row.organizationId = new.organizationId ∧ row.domain = normalizeDomain new.domain ∧
      row.domain ≠ [] ∧ after.domains = before.domains.insert row fresh) ∨
    (∃ target, change = .markOrgEmailDomainVerified target.id ∧
      before.domains.find target.id = some target ∧
      (∀ row ∈ before.domains.rows, row.id ≠ target.id → row.verified = true →
        row.domain = target.domain → row.organizationId = target.organizationId) ∧
      after.domains = before.domains.replace { target with verified := true }) ∨
    ∃ id, change = .deleteOrgEmailDomain id ∧ after.domains = before.domains.remove id := by
  cases change with
  | createOrgEmailDomain new overtaken =>
      simp only [step] at reaction
      split at reaction
      · next row made created =>
          obtain ⟨-, rfl⟩ : _ ∧ made = after := by simpa using reaction
          simp only [Tables.createOrgEmailDomain] at created
          split_ifs at created with unfit taken
          obtain ⟨rfl, rfl⟩ : _ = row ∧ _ = made := by simpa using created
          exact .inr (.inl ⟨new, overtaken, _, rfl, rfl, rfl, rfl, rfl, (not_or.mp unfit).1, rfl⟩)
      · obtain ⟨-, rfl⟩ : _ ∧ before = after := by simpa using reaction
        exact .inl rfl
  | markOrgEmailDomainVerified id =>
      simp only [step] at reaction
      split at reaction
      · next nothing marked verified =>
          obtain ⟨-, rfl⟩ : _ ∧ marked = after := by simpa using reaction
          simp only [Tables.markOrgEmailDomainVerified] at verified
          split at verified
          · obtain rfl : before = marked := by simpa using verified
            exact .inl rfl
          · next target found =>
              split_ifs at verified with taken
              obtain rfl : _ = marked := by simpa using verified
              obtain ⟨-, rfl⟩ : _ ∧ target.id = id := Table.find_some found
              refine .inr (.inr (.inl ⟨target, rfl, found, ?_, rfl⟩))
              intro row member other proven same
              by_contra foreign
              refine taken (List.any_eq_true.mpr ⟨row, member, ?_⟩)
              simp [other, proven, same, foreign]
      · obtain ⟨-, rfl⟩ : _ ∧ before = after := by simpa using reaction
        exact .inl rfl
  | deleteOrgEmailDomain id =>
      obtain ⟨-, rfl⟩ := reaction
      exact .inr (.inr (.inr ⟨id, rfl, rfl⟩))

/-- A proof that fails changes nothing. -/
theorem failed_mark {error : StoreError}
    (reaction : step store before change = some (.marked (.error error), after)) :
    after = before := by
  cases change with
  | createOrgEmailDomain new overtaken =>
      simp only [step] at reaction
      split at reaction <;> simp at reaction
  | markOrgEmailDomainVerified id =>
      simp only [step] at reaction
      split at reaction
      · simp at reaction
      · obtain ⟨-, rfl⟩ : _ ∧ before = after := by simpa using reaction
        rfl
  | deleteOrgEmailDomain id => simp [step] at reaction

/-- The verified claims of one domain are of one organization. -/
def OneOwner (tables : Tables) : Prop :=
  ∀ first ∈ tables.domains.rows, ∀ second ∈ tables.domains.rows, first.verified = true →
    second.verified = true → first.domain = second.domain →
    first.organizationId = second.organizationId

theorem step_oneOwner (owned : OneOwner before)
    (reaction : step store before change = some (answer, after)) : OneOwner after := by
  intro first one second two verified proven same
  rcases step_cases reaction with rfl | ⟨new, overtaken, row, fresh, -, unproven, -, -, -, domains⟩ |
    ⟨target, -, found, others, domains⟩ | ⟨id, -, domains⟩
  · exact owned first one second two verified proven same
  · rw [domains, Table.mem_insert] at one two
    rcases one with rfl | one
    · simp [unproven] at verified
    rcases two with rfl | two
    · simp [unproven] at proven
    exact owned first one second two verified proven same
  · rw [domains] at one two
    rcases Table.mem_replace one with ⟨rfl, -⟩ | ⟨one, apart⟩ <;>
      rcases Table.mem_replace two with ⟨rfl, -⟩ | ⟨two, distinct⟩
    · rfl
    · exact (others second two distinct proven same.symm).symm
    · exact others first one apart verified same
    · exact owned first one second two verified proven same
  · rw [domains, Table.mem_remove] at one two
    exact owned first one.1 second two.1 verified proven same

/-- Every claim is kept under a normal form that its spellings are brought into. -/
def AllNormal (tables : Tables) : Prop := ∀ row ∈ tables.domains.rows, Normal row.domain

theorem step_allNormal (normal : AllNormal before) (tight : change.Tight)
    (reaction : step store before change = some (answer, after)) : AllNormal after := by
  intro row member
  rcases step_cases reaction with rfl | ⟨new, overtaken, made, fresh, rfl, -, -, kept, filled, domains⟩ |
    ⟨target, -, found, -, domains⟩ | ⟨id, -, domains⟩
  · exact normal row member
  · rw [domains, Table.mem_insert] at member
    rcases member with rfl | member
    · rw [kept] at filled ⊢
      exact normal_normalizeDomain tight filled
    · exact normal row member
  · rw [domains] at member
    rcases Table.mem_replace member with ⟨rfl, -⟩ | ⟨member, -⟩
    · exact normal target (Table.find_some found).1
    · exact normal row member
  · rw [domains, Table.mem_remove] at member
    exact normal row member.1

/-- A claim is not touched by another organization. -/
theorem step_foreign (reaction : step store before change = some (answer, after))
    (member : row ∈ before.domains.rows)
    (foreign : change.organization before ≠ some row.organizationId) :
    row ∈ after.domains.rows := by
  rcases step_cases reaction with rfl | ⟨new, overtaken, made, fresh, -, -, -, -, -, domains⟩ |
    ⟨target, rfl, found, -, domains⟩ | ⟨id, rfl, domains⟩
  · exact member
  · rw [domains, Table.mem_insert]
    exact .inr member
  · rw [domains]
    refine List.mem_map.mpr ⟨row, member, if_neg ?_⟩
    intro same
    have own := Table.unique member (Table.find_some found).1 same
    subst own
    exact foreign (by simp [Change.organization, found])
  · rw [domains, Table.mem_remove]
    refine ⟨member, ?_⟩
    rintro rfl
    have found : before.domains.find (domainId row) = some row := Table.find_of_mem member
    exact foreign (by simp [Change.organization, found])

end Changes

/-! ## Every history -/

/-- A verified domain has one owner, whom every spelling of it leads to, in whatever order the
claims are gone through; and nobody is found who has not verified the domain. -/
structure Routed (tables : Tables) : Prop where
  owned : OneOwner tables
  found : ∀ row ∈ tables.domains.rows, row.verified = true → ∀ text, Spelling row.domain text →
    ∀ rows, rows.Perm tables.domains.rows → organizationAmong rows text = some row.organizationId
  only : ∀ text rows id, rows.Perm tables.domains.rows → organizationAmong rows text = some id →
    ∃ row ∈ tables.domains.rows, row.verified = true ∧ row.organizationId = id ∧
      row.domain = normalizeDomain text

theorem organizationAmong_some {rows : List OrgEmailDomain} {text : Text} {id : Id}
    (answered : organizationAmong rows text = some id) :
    ∃ row ∈ rows, row.verified = true ∧ row.organizationId = id ∧
      row.domain = normalizeDomain text := by
  obtain ⟨row, found, rfl⟩ := Option.map_eq_some_iff.mp answered
  have matched := List.find?_some found
  rw [Bool.and_eq_true, decide_eq_true_eq] at matched
  exact ⟨row, List.mem_of_find?_eq_some found, matched.1, rfl, matched.2⟩

theorem routed_of_normal {tables : Tables} (owned : OneOwner tables) (normal : AllNormal tables) :
    Routed tables := by
  refine ⟨owned, ?_, ?_⟩
  · intro row member verified text spelling rows same
    have named := (normal row member).spelled spelling
    cases answered : organizationAmong rows text with
    | none =>
        have absent := List.find?_eq_none.mp (Option.map_eq_none_iff.mp answered) row
          (same.mem_iff.mpr member)
        simp [verified, named] at absent
    | some id =>
        obtain ⟨other, there, proven, rfl, kept⟩ := organizationAmong_some answered
        rw [owned other (same.mem_iff.mp there) row member proven verified (kept.trans named)]
  · intro text rows id same answered
    obtain ⟨row, member, rest⟩ := organizationAmong_some answered
    exact ⟨row, same.mem_iff.mp member, rest⟩

/-- In every history of claims the verified ones of a domain are of one organization, a proof that
fails changes nothing, and a verified claim is not touched by another organization. Where no claim
is typed in with white space behind its `@`s, every spelling of a verified domain leads to its
organization in every state, and what another organization does does not change that. -/
theorem verified_domain_routed {store : StoreKind} {start final : Tables} {changes : List Change}
    {events : List (Event Tables Change Answer)} (unclaimed : start.domains.rows = [])
    (ran : run (step store) start changes = some (events, final)) :
    (∀ tables, Reached events final tables → OneOwner tables) ∧
      (∀ event ∈ events,
        (∀ error, event.output = .marked (.error error) → event.after = event.before) ∧
        ∀ row ∈ event.before.domains.rows, row.verified = true →
          event.input.organization event.before ≠ some row.organizationId →
          row ∈ event.after.domains.rows) ∧
      ((∀ event ∈ events, event.input.Tight) →
        (∀ tables, Reached events final tables → Routed tables) ∧
        ∀ event ∈ events, ∀ row ∈ event.before.domains.rows, row.verified = true →
          event.input.organization event.before ≠ some row.organizationId →
          ∀ text, Spelling row.domain text →
            ∀ rows later, rows.Perm event.before.domains.rows →
              later.Perm event.after.domains.rows →
              organizationAmong later text = organizationAmong rows text) := by
  have owned : ∀ tables, Reached events final tables → OneOwner tables :=
    run_reaches (fun before change answer after held reaction _ => step_oneOwner held reaction)
      (by simp [OneOwner, unclaimed]) ran (fun _ _ => trivial : ∀ event ∈ events, True)
  refine ⟨owned, ?_, ?_⟩
  · intro event member
    have reaction := run_reaction ran member
    refine ⟨?_, fun row there _ foreign => step_foreign reaction there foreign⟩
    intro error failed
    rw [failed] at reaction
    exact failed_mark reaction
  · intro tight
    have normal : ∀ tables, Reached events final tables → AllNormal tables :=
      run_reaches (fun before change answer after held reaction (guarded : change.Tight) =>
          step_allNormal held guarded reaction)
        (by simp [AllNormal, unclaimed]) ran tight
    refine ⟨fun tables reached => routed_of_normal (owned tables reached) (normal tables reached), ?_⟩
    intro event member row there verified foreign text spelling rows later same others
    have reaction := run_reaction ran member
    have reached : Reached events final event.before := .inr ⟨event, member, rfl⟩
    have before := routed_of_normal (owned _ reached) (normal _ reached)
    have after := routed_of_normal (step_oneOwner (owned _ reached) reaction)
      (step_allNormal (normal _ reached) (tight event member) reaction)
    rw [before.found row there verified text spelling rows same,
      after.found row (step_foreign reaction there foreign) verified text spelling later
        others]

/-- Tables without a claim. -/
def unclaimed : Tables where
  users := .empty 1
  identities := []
  invitations := []
  domains := .empty 1
  connections := .empty 1
  nextInvitation := 1

/-- Two organizations claim a domain, and both want to prove that it is theirs. -/
def contested : List Change :=
  [.createOrgEmailDomain ⟨1, "Acme.com", "t1"⟩ false,
    .createOrgEmailDomain ⟨2, "@acme.com", "t2"⟩ false,
    .markOrgEmailDomainVerified 1, .markOrgEmailDomainVerified 2]

theorem contested_domain_routed : ∃ events final,
    run (step .memory) unclaimed contested = some (events, final) ∧
      ∀ text, Spelling "acme.com" text →
        final.organizationForVerifiedEmailDomain text = some 1 := by
  have ran : run (step .memory) unclaimed contested = some (_, _) := rfl
  refine ⟨_, _, ran, ?_⟩
  intro text spelling
  have routed := ((verified_domain_routed rfl ran).2.2 (by decide)).1 _ (.inl rfl)
  exact routed.found ⟨⟨1, "acme.com", "t1"⟩, 1, true⟩ (by decide) rfl text spelling _
    (.refl _)

/-- An organization claims and proves `@ acme.com`. Its claim is kept under ` acme.com`, and that
does not lead to it. -/
theorem loose_domain_lost : ∃ events final,
    run (step .memory) unclaimed [.createOrgEmailDomain ⟨1, "@ acme.com", "t1"⟩ false,
      .markOrgEmailDomainVerified 1] = some (events, final) ∧
      ∃ row ∈ final.domains.rows, row.verified = true ∧ Spelling row.domain row.domain ∧
        final.organizationForVerifiedEmailDomain row.domain = none := by
  refine ⟨_, _, rfl, ⟨⟨1, " acme.com", "t1"⟩, 1, true⟩, by decide, rfl,
    ⟨[], [], " acme.com", [], rfl, by simp, by simp, by simp, by decide⟩, by decide⟩

end Camelmailer.Api.Directory.EmailDomains

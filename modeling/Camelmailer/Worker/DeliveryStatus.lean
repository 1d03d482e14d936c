import Camelmailer.Core.HeaderFields
import Camelmailer.Core.Spf
import Camelmailer.Text.Octets
import Camelmailer.Text.Paths
import Camelmailer.Worker.MessageTables

/-!
# Delivery status notifications

A message that comes back is examined line by line: whether it is a notification, whether it says
that the delivery has failed for good, how it is to be classified, and which messages it is about.
A classification cuts every line after the length of a field name. It has no result, `none`, when a
character goes across that offset: there the worker panics.
-/

namespace Camelmailer.Worker.DeliveryStatus

open Utf8 Lines Octets

/-! ## Responses -/

/-- `reply_code_class`. A multiline reply has a dash behind its code. -/
def replyCodeClass (token : Text) : Option BounceCategory :=
  let digits := (token.splitOn '-').headD token
  if Str.byteLen digits = 3 ∧ digits.all Char.isDigit = true then
    match digits.head? with
    | some '5' => some .hard
    | some '4' => some .soft
    | _ => none
  else none

/-- A subject or a detail of an enhanced status code. -/
def numeric (part : Text) : Bool := part ≠ [] && Str.byteLen part ≤ 3 && part.all Char.isDigit

def enhancedCodeClass (token : Text) : Option BounceCategory :=
  match (token.rdropWhile (fun char => char ∈ ['.', ',', ';', ')'])).splitOn '.' with
  | [status, subject, detail] =>
      if numeric subject && numeric detail then
        if status = ['5'] then some .hard else if status = ['4'] then some .soft else none
      else none
  | _ => none

/-- `classify_response`: the first token that is a reply code or an enhanced one decides. -/
def classifyResponse (response : Text) : BounceCategory :=
  ((Spf.splitWhitespace response).findSome? (fun token =>
    (replyCodeClass token).or (enhancedCodeClass token))).getD .undetermined

/-! ## Classification -/

/-- The diagnostic fields of a notification. -/
def diagnosticFields : List Text := ["Status:", "Diagnostic-Code:"]

/-- What is behind the first of some field names that a line begins with. The line is cut after as
many bytes as the name has. -/
def valueBehind (trimmed : Text) : List Text → Option (Option Text)
  | [] => some none
  | name :: names =>
      if Str.byteLen name ≤ Str.byteLen trimmed then
        match Str.splitAtByte (Str.byteLen name) trimmed with
        | none => none
        | some (head, value) =>
            if Str.eqIgnoreAsciiCase head name then some (some value)
            else valueBehind trimmed names
      else valueBehind trimmed names

/-- The loop of `classify_dsn`. -/
def classifyLines : List Text → Option BounceCategory
  | [] => some .undetermined
  | line :: rest =>
      match valueBehind (Str.trim line) diagnosticFields with
      | none => none
      | some none => classifyLines rest
      | some (some value) =>
          if classifyResponse value ≠ .undetermined then some (classifyResponse value)
          else classifyLines rest

def classifyDsn (rawMessage : Bytes) : Option BounceCategory :=
  classifyLines (lines (fromUtf8Lossy rawMessage))

/-! ## Fields -/

/-- The name and the value of the field that a line reads as, without white space around them. -/
def field (line : Bytes) : Option (Option (Bytes × Bytes)) :=
  (partsAt 0x3A (trimAscii (stripped line))).map (fun parts =>
    parts.map (fun parts => (trimAscii parts.1, trimAscii parts.2)))

def named (name : Bytes) (expected : Text) : Bool := eqIgnoreAsciiCase name (encode expected)

/-- `content_type_is`: parameters do not count. -/
def contentTypeIs (value expected : Text) : Bool :=
  (value.splitOn ';').head?.any (fun mediaType => Str.eqIgnoreAsciiCase (Str.trim mediaType) expected)

def hasContentTypePart (expected : Text) : List Bytes → Option Bool
  | [] => some false
  | line :: rest =>
      match field line with
      | none => none
      | some none => hasContentTypePart expected rest
      | some (some (name, value)) =>
          if named name "Content-Type" && contentTypeIs (fromUtf8Lossy value) expected then
            some true
          else hasContentTypePart expected rest

/-! ## Notifications -/

/-- The value of the header field that says what a message is. -/
def contentType (platform : Platform) (rawMessage : Bytes) : Text :=
  Str.toAsciiLowercase ((headerValue platform rawMessage "content-type").getD [])

/-- `str::trim_matches` of one character. -/
def trimMatches (char : Char) (text : Text) : Text :=
  (text.dropWhile (· = char)).rdropWhile (· = char)

/-- Whether a parameter of a content type says that the report is one of delivery. -/
def declaresDeliveryStatus (contentType : Text) : Bool :=
  ((contentType.splitOn ';').drop 1).any (fun parameter =>
    (Str.stripPrefix "report-type=" (Str.trim parameter)).any (fun value =>
      Str.eqIgnoreAsciiCase (trimMatches '"' value) "delivery-status"))

/-- The fields of a delivery report that have been seen. -/
structure Shape where
  hasRecipient : Bool
  hasBounceAction : Bool
  hasBounceStatus : Bool
  hasReportingMta : Bool
deriving DecidableEq

/-- A field is seen. -/
def Shape.note (shape : Shape) (name value : Bytes) : Shape :=
  if named name "Final-Recipient" || named name "Original-Recipient" then
    { shape with hasRecipient := shape.hasRecipient || value ≠ [] }
  else if named name "Action" then
    { shape with hasBounceAction :=
        shape.hasBounceAction || named value "failed" || named value "delayed" }
  else if named name "Status" then
    { shape with hasBounceStatus := shape.hasBounceStatus ||
        ((Spf.splitWhitespace (fromUtf8Lossy value)).head?.bind enhancedCodeClass).isSome }
  else if named name "Reporting-MTA" then
    { shape with hasReportingMta := shape.hasReportingMta || value ≠ [] }
  else shape

def noteLines : Shape → List Bytes → Option Shape
  | shape, [] => some shape
  | shape, line :: rest =>
      match field line with
      | none => none
      | some none => noteLines shape rest
      | some (some (name, value)) => noteLines (shape.note name value) rest

def isDeliveryStatusNotification (platform : Platform) (rawMessage : Bytes) : Option Bool :=
  let contentType := contentType platform rawMessage
  if contentTypeIs contentType "message/delivery-status" then some true
  else
    let report :=
      if contentTypeIs contentType "multipart/report" then
        if declaresDeliveryStatus contentType then some true
        else hasContentTypePart "message/delivery-status" (rawMessage.splitOn LF)
      else some false
    match report with
    | none => none
    | some true => some true
    | some false =>
        (noteLines ⟨false, false, false, false⟩ (rawMessage.splitOn LF)).map (fun shape =>
          shape.hasRecipient && shape.hasBounceAction && shape.hasBounceStatus &&
            shape.hasReportingMta)

/-- `has_only_failed_actions`, with whether a failed action has been seen. -/
def hasOnlyFailedActions : Bool → List Bytes → Option Bool
  | sawFailedAction, [] => some sawFailedAction
  | sawFailedAction, line :: rest =>
      match field line with
      | none => none
      | some none => hasOnlyFailedActions sawFailedAction rest
      | some (some (name, value)) =>
          if named name "Action" then
            if named value "failed" then hasOnlyFailedActions true rest else some false
          else hasOnlyFailedActions sawFailedAction rest

/-- The loop of `is_failed_delivery_status_notification` over a multipart report. -/
def hasOnlyFailedParts : Bool → Bool → List Bytes → Option Bool
  | _, sawFailedAction, [] => some sawFailedAction
  | inDeliveryStatusPart, sawFailedAction, line :: rest =>
      if [0x2D, 0x2D] <+: trimAscii (stripped line) then hasOnlyFailedParts false sawFailedAction rest
      else
        match field line with
        | none => none
        | some none => hasOnlyFailedParts inDeliveryStatusPart sawFailedAction rest
        | some (some (name, value)) =>
            if named name "Content-Type" then
              hasOnlyFailedParts
                (contentTypeIs (fromUtf8Lossy value) "message/delivery-status")
                sawFailedAction rest
            else if inDeliveryStatusPart && named name "Action" then
              if named value "failed" then
                hasOnlyFailedParts inDeliveryStatusPart true rest
              else some false
            else hasOnlyFailedParts inDeliveryStatusPart sawFailedAction rest

def isFailedDeliveryStatusNotification (platform : Platform) (rawMessage : Bytes) : Option Bool :=
  match isDeliveryStatusNotification platform rawMessage with
  | none => none
  | some false => some false
  | some true =>
      let contentType := contentType platform rawMessage
      if contentTypeIs contentType "message/delivery-status" then
        hasOnlyFailedActions false (rawMessage.splitOn LF)
      else if contentTypeIs contentType "multipart/report" then
        hasOnlyFailedParts false false (rawMessage.splitOn LF)
      else hasOnlyFailedActions false (rawMessage.splitOn LF)

/-! ## Tokens -/

/-- `MESSAGE_TOKEN_HEADER`. -/
def messageTokenHeader : Text := "X-CamelMailer-MsgID"

/-- `POSTAL_MESSAGE_TOKEN_HEADER`. -/
def postalMessageTokenHeader : Text := "X-Postal-MsgID"

def isMessageTokenHeader (name : Bytes) : Bool :=
  named name messageTokenHeader || named name postalMessageTokenHeader

/-- The loop of `original_message_tokens`. -/
def collectTokens : List Text → List Bytes → Option (List Text)
  | tokens, [] => some tokens
  | tokens, line :: rest =>
      match partsAt 0x3A (stripped line) with
      | none => none
      | some none => collectTokens tokens rest
      | some (some (name, behind)) =>
          if isMessageTokenHeader name then
            let token := (trimAscii behind).takeWhile isAsciiAlphanumeric
            if token = [] ∨ 64 < token.length then collectTokens tokens rest
            else
              match Paths.fromUtf8 token with
              | none => none
              | some token => collectTokens (if token ∈ tokens then tokens else tokens ++ [token]) rest
          else collectTokens tokens rest

def originalMessageTokens (rawMessage : Bytes) : Option (List Text) :=
  collectTokens [] (rawMessage.splitOn LF)

/-! ## When a classification panics -/

/-- A line begins with a field name, in whatever case. -/
def Begins (name trimmed value : Text) : Prop :=
  ∃ head, trimmed = head ++ value ∧ Str.eqIgnoreAsciiCase head name = true

/-- A line that a classification goes by. -/
def Decides (line : Text) : Prop :=
  ∃ name ∈ diagnosticFields, ∃ value, Begins name (Str.trim line) value ∧
    classifyResponse value ≠ .undetermined

/-- No character of a line goes across the place where it is cut. A line that begins with the
first field name is not compared with the second one. -/
structure Readable (line : Text) : Prop where
  status : ¬ Straddled 7 (Str.trim line)
  diagnostic : (¬ ∃ value, Begins "Status:" (Str.trim line) value) →
    ¬ Straddled 16 (Str.trim line)

section Cuts

variable {trimmed name value : Text} {names : List Text}

theorem Begins.cut (begins : Begins name trimmed value) :
    ∃ head, Str.splitAtByte (Str.byteLen name) trimmed = some (head, value) ∧
      Str.eqIgnoreAsciiCase head name = true ∧ Str.byteLen name ≤ Str.byteLen trimmed := by
  obtain ⟨head, rfl, same⟩ := begins
  have long := byteLen_of_eqIgnoreAsciiCase same
  refine ⟨head, ?_, same, ?_⟩
  · rw [← long, Str.splitAtByte_append]
  · rw [← long, Str.byteLen_append]
    exact Nat.le_add_right _ _

theorem valueBehind_begun (begins : Begins name trimmed value) :
    valueBehind trimmed (name :: names) = some (some value) := by
  obtain ⟨head, cut, same, long⟩ := begins.cut
  rw [valueBehind, if_pos long, cut]
  exact if_pos same

theorem valueBehind_straddled (straddled : Straddled (Str.byteLen name) trimmed) :
    valueBehind trimmed (name :: names) = none := by
  have long : Str.byteLen name ≤ Str.byteLen trimmed := by
    obtain ⟨front, char, back, rfl, -, across⟩ := straddled
    rw [Str.byteLen_append, Str.byteLen_cons]
    omega
  rw [valueBehind, if_pos long, splitAtByte_eq_none.mpr (.inr straddled)]

theorem valueBehind_other (whole : ¬ Straddled (Str.byteLen name) trimmed)
    (other : ¬ ∃ value, Begins name trimmed value) :
    valueBehind trimmed (name :: names) = valueBehind trimmed names := by
  rw [valueBehind]
  split_ifs with long
  · cases cut : Str.splitAtByte (Str.byteLen name) trimmed with
    | none =>
        rcases splitAtByte_eq_none.mp cut with short | straddled
        · omega
        · exact absurd straddled whole
    | some parts =>
        obtain ⟨split, -⟩ := Str.splitAtByte_some _ _ _ _ cut
        exact if_neg (fun same => other ⟨parts.2, parts.1, split, same⟩)
  · rfl

end Cuts

theorem Begins.head {name trimmed value : Text} {first : Char} {rest : Text}
    (begins : Begins name trimmed value) (starts : name = first :: rest) :
    trimmed.head?.map Char.toLower = some first.toLower := by
  obtain ⟨head, rfl, same⟩ := begins
  have lower : head.map Char.toLower = name.map Char.toLower := eq_of_beq same
  rw [starts] at lower
  obtain ⟨char, more, rfl, small, -⟩ := List.map_eq_cons_iff.mp lower
  exact congrArg some small

theorem Begins.unique {name trimmed value other : Text} (begins : Begins name trimmed value)
    (again : Begins name trimmed other) : value = other := by
  obtain ⟨head, cut, -⟩ := begins.cut
  obtain ⟨front, same, -⟩ := again.cut
  rw [cut] at same
  exact (Prod.mk.inj (Option.some.inj same)).2

theorem not_begins_both {trimmed first second : Text} (status : Begins "Status:" trimmed first) :
    ¬ Begins "Diagnostic-Code:" trimmed second := by
  intro diagnostic
  have letter := status.head (by rfl)
  rw [diagnostic.head (by rfl)] at letter
  exact absurd letter (by decide)

/-- A line that does not begin with the first field name is compared with the second one. -/
theorem valueBehind_diagnostic {trimmed : Text} (whole : ¬ Straddled 7 trimmed)
    (other : ¬ ∃ value, Begins "Status:" trimmed value) :
    valueBehind trimmed diagnosticFields = valueBehind trimmed ["Diagnostic-Code:"] :=
  valueBehind_other whole other

/-- A readable line is cut, and its value is that of the field that it begins. -/
theorem Readable.reads {line : Text} (readable : Readable line) :
    ∃ read, valueBehind (Str.trim line) diagnosticFields = some read ∧
      ∀ value, read = some value ↔ ∃ name ∈ diagnosticFields, Begins name (Str.trim line) value := by
  by_cases status : ∃ value, Begins "Status:" (Str.trim line) value
  · obtain ⟨value, begins⟩ := status
    refine ⟨some value, valueBehind_begun begins, fun other => ⟨?_, ?_⟩⟩
    · rintro ⟨rfl⟩
      exact ⟨_, List.mem_cons_self, begins⟩
    · rintro ⟨name, member, again⟩
      rcases List.mem_pair.mp member with rfl | rfl
      · exact congrArg some (begins.unique again)
      · exact absurd again (not_begins_both begins)
  · have first := valueBehind_diagnostic readable.status status
    by_cases diagnostic : ∃ value, Begins "Diagnostic-Code:" (Str.trim line) value
    · obtain ⟨value, begins⟩ := diagnostic
      refine ⟨some value, first.trans (valueBehind_begun begins), fun other => ⟨?_, ?_⟩⟩
      · rintro ⟨rfl⟩
        exact ⟨_, List.mem_cons_of_mem _ List.mem_cons_self, begins⟩
      · rintro ⟨name, member, again⟩
        rcases List.mem_pair.mp member with rfl | rfl
        · exact absurd ⟨other, again⟩ status
        · exact congrArg some (begins.unique again)
    · have second : valueBehind (Str.trim line) ["Diagnostic-Code:"] = some none :=
        valueBehind_other (readable.diagnostic status) diagnostic
      refine ⟨none, first.trans second, fun other => ⟨?_, ?_⟩⟩
      · intro never
        cases never
      · rintro ⟨name, member, again⟩
        rcases List.mem_pair.mp member with rfl | rfl
        · exact absurd ⟨other, again⟩ status
        · exact absurd ⟨other, again⟩ diagnostic

/-- A line that is not readable is cut across a character. -/
theorem valueBehind_unreadable {line : Text} (cut : ¬ Readable line) :
    valueBehind (Str.trim line) diagnosticFields = none := by
  by_cases whole : Straddled 7 (Str.trim line)
  · exact valueBehind_straddled whole
  · have hidden : ¬ ((¬ ∃ value, Begins "Status:" (Str.trim line) value) →
        ¬ Straddled 16 (Str.trim line)) := fun diagnostic => cut ⟨whole, diagnostic⟩
    obtain ⟨other, straddled⟩ := Classical.not_imp.mp hidden
    have second : valueBehind (Str.trim line) ["Diagnostic-Code:"] = none :=
      valueBehind_straddled (not_not.mp straddled)
    exact (valueBehind_diagnostic whole other).trans second

/-- A classification has a result when every line up to the one that decides is readable. -/
theorem classifyLines_isSome {given : List Text} : (classifyLines given).isSome = true ↔
    ∀ front line back, given = front ++ line :: back → (∀ earlier ∈ front, ¬ Decides earlier) →
      Readable line := by
  induction given with
  | nil => simp [classifyLines]
  | cons first rest ih =>
      by_cases readable : Readable first
      · obtain ⟨read, behind, reads⟩ := readable.reads
        have later : (∀ front line back, first :: rest = front ++ line :: back →
            (∀ earlier ∈ front, ¬ Decides earlier) → Readable line) ↔
              (Decides first ∨ (classifyLines rest).isSome = true) := by
          rw [ih]
          constructor
          · intro all
            refine or_iff_not_imp_left.mpr (fun silent front line back split before => ?_)
            refine all (first :: front) line back (congrArg _ split) ?_
            exact List.forall_mem_cons.mpr ⟨silent, before⟩
          · intro either front line back split before
            cases front with
            | nil =>
                obtain ⟨rfl, -⟩ := List.cons.inj split
                exact readable
            | cons other front =>
                obtain ⟨rfl, rest⟩ := List.cons.inj split
                obtain ⟨silent, before⟩ := List.forall_mem_cons.mp before
                exact (either.resolve_left silent) front line back rest before
        rw [later, classifyLines, behind]
        cases read with
        | none =>
            have silent : ¬ Decides first := by
              rintro ⟨name, member, value, begins, -⟩
              cases (reads value).mpr ⟨name, member, begins⟩
            simp [silent]
        | some value =>
            dsimp only
            split_ifs with decides
            · obtain ⟨name, member, begins⟩ := (reads value).mp rfl
              exact iff_of_true rfl (.inl ⟨name, member, value, begins, decides⟩)
            · have silent : ¬ Decides first := by
                rintro ⟨name, member, other, begins, same⟩
                obtain rfl := Option.some.inj ((reads other).mpr ⟨name, member, begins⟩)
                exact decides same
              simp [silent]
      · rw [classifyLines, valueBehind_unreadable readable]
        refine iff_of_false (by simp) (fun all => readable ?_)
        exact all [] first rest rfl (fun _ => by simp)

/-! ## What never panics -/

/-- The field that a line reads as. -/
def fieldOf (line : Bytes) : Option (Bytes × Bytes) :=
  (Relaxed.cutAt 0x3A (trimAscii (stripped line))).map (fun parts =>
    (trimAscii parts.1, trimAscii parts.2))

theorem field_eq (line : Bytes) : field line = some (fieldOf line) := by
  rw [field, partsAt_eq]
  rfl

theorem hasContentTypePart_isSome (expected : Text) (given : List Bytes) :
    (hasContentTypePart expected given).isSome = true := by
  induction given with
  | nil => rfl
  | cons line rest ih =>
      rw [hasContentTypePart, field_eq]
      cases fieldOf line with
      | none => exact ih
      | some parts =>
          dsimp only
          split_ifs
          · rfl
          · exact ih

theorem noteLines_isSome (shape : Shape) (given : List Bytes) :
    (noteLines shape given).isSome = true := by
  induction given generalizing shape with
  | nil => rfl
  | cons line rest ih =>
      rw [noteLines, field_eq]
      cases fieldOf line with
      | none => exact ih shape
      | some parts => exact ih _

theorem hasOnlyFailedActions_isSome (saw : Bool) (given : List Bytes) :
    (hasOnlyFailedActions saw given).isSome = true := by
  induction given generalizing saw with
  | nil => rfl
  | cons line rest ih =>
      rw [hasOnlyFailedActions, field_eq]
      cases fieldOf line with
      | none => exact ih saw
      | some parts =>
          dsimp only
          split_ifs
          · exact ih true
          · rfl
          · exact ih saw

theorem hasOnlyFailedParts_isSome (inPart saw : Bool) (given : List Bytes) :
    (hasOnlyFailedParts inPart saw given).isSome = true := by
  induction given generalizing inPart saw with
  | nil => rfl
  | cons line rest ih =>
      rw [hasOnlyFailedParts, field_eq]
      split_ifs
      · exact ih false saw
      · cases fieldOf line with
        | none => exact ih inPart saw
        | some parts =>
            dsimp only
            split_ifs
            · exact ih _ saw
            · exact ih inPart true
            · rfl
            · exact ih inPart saw

theorem isDeliveryStatusNotification_isSome (platform : Platform) (rawMessage : Bytes) :
    (isDeliveryStatusNotification platform rawMessage).isSome = true := by
  have shape := noteLines_isSome ⟨false, false, false, false⟩ (rawMessage.splitOn LF)
  obtain ⟨declared, parts⟩ := Option.isSome_iff_exists.mp
    (hasContentTypePart_isSome "message/delivery-status" (rawMessage.splitOn LF))
  unfold isDeliveryStatusNotification
  rw [parts]
  dsimp only
  split_ifs
  · rfl
  · rfl
  · cases declared with
    | true => rfl
    | false => exact (Option.isSome_map).trans shape
  · exact (Option.isSome_map).trans shape

theorem isFailedDeliveryStatusNotification_isSome (platform : Platform) (rawMessage : Bytes) :
    (isFailedDeliveryStatusNotification platform rawMessage).isSome = true := by
  obtain ⟨notification, examined⟩ := Option.isSome_iff_exists.mp
    (isDeliveryStatusNotification_isSome platform rawMessage)
  unfold isFailedDeliveryStatusNotification
  rw [examined]
  cases notification with
  | false => rfl
  | true =>
      dsimp only
      split_ifs
      · exact hasOnlyFailedActions_isSome _ _
      · exact hasOnlyFailedParts_isSome _ _ _
      · exact hasOnlyFailedActions_isSome _ _

theorem collectTokens_isSome (tokens : List Text) (given : List Bytes) :
    (collectTokens tokens given).isSome = true := by
  induction given generalizing tokens with
  | nil => rfl
  | cons line rest ih =>
      rw [collectTokens, partsAt_eq]
      cases Relaxed.cutAt 0x3A (stripped line) with
      | none => exact ih tokens
      | some parts =>
          dsimp only
          split_ifs
          · exact ih tokens
          · rw [fromUtf8_alphanumeric (fun octet => List.mem_takeWhile_imp)]
            exact ih _
          · exact ih tokens

/-- What examines a message as a notification always has a result, apart from the classification: it
has one when no character goes across the place where a line is cut, up to the line that decides. -/
theorem classification_returns_iff (platform : Platform) (rawMessage : Bytes) :
    ((classifyDsn rawMessage).isSome = true ↔
      ∀ front line back, lines (fromUtf8Lossy rawMessage) = front ++ line :: back →
        (∀ earlier ∈ front, ¬ Decides earlier) → Readable line) ∧
    (isDeliveryStatusNotification platform rawMessage).isSome = true ∧
    (isFailedDeliveryStatusNotification platform rawMessage).isSome = true ∧
    (originalMessageTokens rawMessage).isSome = true :=
  ⟨classifyLines_isSome, isDeliveryStatusNotification_isSome platform rawMessage,
    isFailedDeliveryStatusNotification_isSome platform rawMessage, collectTokens_isSome _ _⟩

/-- The accent of this word goes across the place where the line is cut. -/
theorem accent_panics : classifyDsn (encode "Statusé") = none := by
  decide +kernel

end Camelmailer.Worker.DeliveryStatus

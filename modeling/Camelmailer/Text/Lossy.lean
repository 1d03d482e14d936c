import Camelmailer.Text.Utf8
import Mathlib.Data.List.DropRight

/-!
# What lossy decoding keeps

An ASCII octet ends whatever is pending and stands for itself, so decoding can be cut there. Every
other octet shows characters that are not ASCII. So what only looks at ASCII octets can be done
before or after decoding: taking them off at either end, counting them.
-/

namespace Camelmailer.Utf8

/-- Decoding is cut at an ASCII octet. -/
theorem decode_append_ascii (front : Bytes) (octet : UInt8) (rest : Bytes)
    (ascii : octet.toNat < 0x80) : fromUtf8Lossy (front ++ octet :: rest) =
      fromUtf8Lossy front ++ Char.ofNat octet.toNat :: fromUtf8Lossy rest := by
  have wide : (scan .start front).1.Wide := scan_wide .start front trivial
  have whole : fromUtf8Lossy front = (scan .start front).2 ++ flush (scan .start front).1 := by
    simpa [fromUtf8Lossy, decodeFrom] using decode_append .start front []
  rw [whole, fromUtf8Lossy, decode_append, decodeFrom, step_ascii _ octet wide ascii]
  simp [fromUtf8Lossy]

theorem decode_cons_ascii (octet : UInt8) (rest : Bytes) (ascii : octet.toNat < 0x80) :
    fromUtf8Lossy (octet :: rest) = Char.ofNat octet.toNat :: fromUtf8Lossy rest :=
  decode_append_ascii [] octet rest ascii

/-- What is pending shows a character that is not ASCII first. -/
theorem decode_pending {state : Decoder} (wide : state.Wide) (pending : state ≠ .start)
    (bytes : Bytes) : ∃ char more, decodeFrom state bytes = char :: more ∧ ¬ Ascii char := by
  induction bytes generalizing state with
  | nil =>
      cases state with
      | start => exact absurd rfl pending
      | owed => exact ⟨replacement, [], rfl, wide_replacement⟩
  | cons octet rest ih =>
      rw [decodeFrom]
      by_cases small : octet.toNat < 0x80
      · rw [step_ascii state octet wide small]
        cases state with
        | start => exact absurd rfl pending
        | owed => exact ⟨replacement, _, rfl, wide_replacement⟩
      · obtain ⟨next, shown, some⟩ := step_high state octet wide (by omega)
        cases emitted : (step state octet).2 with
        | nil =>
            rw [emitted] at some
            refine ih next ?_
            intro fresh
            rw [fresh] at some
            exact some rfl
        | cons char more =>
            rw [emitted] at shown
            exact ⟨char, _, rfl, shown char (List.mem_cons_self ..)⟩

/-- An octet with its high bit set shows a character that is not ASCII first. -/
theorem decode_cons_high (octet : UInt8) (rest : Bytes) (high : 0x80 ≤ octet.toNat) :
    ∃ char more, fromUtf8Lossy (octet :: rest) = char :: more ∧ ¬ Ascii char := by
  obtain ⟨next, shown, some⟩ := step_high .start octet trivial high
  rw [fromUtf8Lossy, decodeFrom]
  cases emitted : (step .start octet).2 with
  | nil =>
      rw [emitted] at some
      refine decode_pending next ?_ rest
      intro fresh
      rw [fresh] at some
      exact some rfl
  | cons char more =>
      rw [emitted] at shown
      exact ⟨char, _, rfl, shown char (List.mem_cons_self ..)⟩

/-- A test on octets and one on characters that hold for the same ASCII ones, and for no others. -/
structure Agree (octets : UInt8 → Bool) (chars : Char → Bool) : Prop where
  ascii : ∀ octet : UInt8, octet.toNat < 0x80 → chars (Char.ofNat octet.toNat) = octets octet
  high : ∀ octet : UInt8, 0x80 ≤ octet.toNat → octets octet = false
  wide : ∀ char, ¬ Ascii char → chars char = false

section Agree

variable {octets : UInt8 → Bool} {chars : Char → Bool}

theorem Agree.decode_dropWhile (agree : Agree octets chars) (bytes : Bytes) :
    fromUtf8Lossy (bytes.dropWhile octets) = (fromUtf8Lossy bytes).dropWhile chars := by
  induction bytes with
  | nil => rfl
  | cons octet rest ih =>
      by_cases small : octet.toNat < 0x80
      · rw [decode_cons_ascii octet rest small]
        by_cases dropped : octets octet = true
        · rw [List.dropWhile_cons_of_pos dropped, ih,
            List.dropWhile_cons_of_pos ((agree.ascii octet small).trans dropped)]
        · rw [List.dropWhile_cons_of_neg dropped, List.dropWhile_cons_of_neg
            (by rwa [agree.ascii octet small]), decode_cons_ascii octet rest small]
      · obtain ⟨char, more, shown, wide⟩ := decode_cons_high octet rest (by omega)
        rw [List.dropWhile_cons_of_neg (by simp [agree.high octet (by omega)]), shown,
          List.dropWhile_cons_of_neg (by simp [agree.wide char wide])]

theorem Agree.decode_rdropWhile (agree : Agree octets chars) (bytes : Bytes) :
    fromUtf8Lossy (bytes.rdropWhile octets) = (fromUtf8Lossy bytes).rdropWhile chars := by
  induction bytes using List.reverseRecOn with
  | nil => rfl
  | append_singleton bytes octet ih =>
      by_cases small : octet.toNat < 0x80
      · rw [decode_concat_ascii bytes octet small]
        by_cases dropped : octets octet = true
        · rw [List.rdropWhile_concat_pos _ _ _ dropped, ih,
            List.rdropWhile_concat_pos _ _ _ ((agree.ascii octet small).trans dropped)]
        · rw [List.rdropWhile_concat_neg _ _ _ dropped, List.rdropWhile_concat_neg _ _ _
            (by rwa [agree.ascii octet small]), decode_concat_ascii bytes octet small]
      · obtain ⟨front, last, shown, wide⟩ := decode_concat_high bytes octet (by omega)
        rw [List.rdropWhile_concat_neg _ _ _ (by simp [agree.high octet (by omega)]), shown,
          List.rdropWhile_concat_neg _ _ _ (by simp [agree.wide last wide])]

theorem Agree.or {others : UInt8 → Bool} {more : Char → Bool} (agree : Agree octets chars)
    (second : Agree others more) :
    Agree (fun octet => octets octet || others octet) (fun char => chars char || more char) := by
  constructor
  · intro octet small
    rw [agree.ascii octet small, second.ascii octet small]
  · intro octet high
    rw [agree.high octet high, second.high octet high]
    rfl
  · intro char wide
    rw [agree.wide char wide, second.wide char wide]
    rfl

end Agree

theorem ofNat_eq_iff {octet other : UInt8} (small : octet.toNat < 0x80) (ascii : other.toNat < 0x80) :
    Char.ofNat octet.toNat = Char.ofNat other.toNat ↔ octet = other := by
  constructor
  · intro equal
    have numbers := congrArg Char.toNat equal
    rw [toNat_ofNat _ (.inl (by omega)), toNat_ofNat _ (.inl (by omega))] at numbers
    exact UInt8.toNat_inj.mp numbers
  · rintro rfl
    rfl

theorem agree_octet (octet : UInt8) (small : octet.toNat < 0x80) :
    Agree (fun other => other = octet) (fun char => char = Char.ofNat octet.toNat) := by
  constructor
  · intro other ascii
    simp only [ofNat_eq_iff ascii small]
  · intro other high
    refine decide_eq_false ?_
    rintro rfl
    omega
  · intro char wide
    refine decide_eq_false ?_
    rintro rfl
    rw [Ascii, toNat_ofNat _ (.inl (by omega))] at wide
    exact wide small

/-- An ASCII character occurs as often as its octet. -/
theorem count_decode (bytes : Bytes) (octet : UInt8) (small : octet.toNat < 0x80) :
    (fromUtf8Lossy bytes).count (Char.ofNat octet.toNat) = bytes.count octet := by
  have own : Ascii (Char.ofNat octet.toNat) := by
    rwa [Ascii, toNat_ofNat _ (.inl (by omega))]
  have general (bytes : Bytes) (state : Decoder) (wide : state.Wide) :
      (decodeFrom state bytes).count (Char.ofNat octet.toNat) = bytes.count octet := by
    induction bytes generalizing state with
    | nil => exact List.count_eq_zero.mpr fun member => wide_flush state _ member own
    | cons next rest ih =>
        have later : (decodeFrom (step state next).1 rest).count (Char.ofNat octet.toNat) =
            rest.count octet := ih _ (scan_wide state [next] wide)
        rw [decodeFrom, List.count_append, later, Nat.add_comm]
        by_cases ascii : next.toNat < 0x80
        · have flushed : (flush state).count (Char.ofNat octet.toNat) = 0 :=
            List.count_eq_zero.mpr fun member => wide_flush state _ member own
          rw [step_ascii state next wide ascii, List.count_append, flushed]
          by_cases same : next = octet
          · subst same
            simp
          · simp [same, ofNat_eq_iff ascii small]
        · have shown := (step_high state next wide (by omega)).2.1
          have other : next ≠ octet := by
            rintro rfl
            exact ascii small
          rw [List.count_eq_zero.mpr fun member => shown _ member own]
          simp [other]
  exact general bytes .start trivial

theorem count_encode (text : Text) (octet : UInt8) (small : octet.toNat < 0x80) :
    (encode text).count octet = text.count (Char.ofNat octet.toNat) := by
  rw [← count_decode _ octet small, decode_encode]

theorem mem_decode {bytes : Bytes} (octet : UInt8) (small : octet.toNat < 0x80) :
    Char.ofNat octet.toNat ∈ fromUtf8Lossy bytes ↔ octet ∈ bytes := by
  rw [← List.count_pos_iff, count_decode bytes octet small, List.count_pos_iff]

/-- Octets can be cut at an ASCII octet before they are decoded. -/
theorem decode_splitOn (bytes : Bytes) {octet : UInt8} (small : octet.toNat < 0x80) :
    (fromUtf8Lossy bytes).splitOn (Char.ofNat octet.toNat) =
      (bytes.splitOn octet).map fromUtf8Lossy := by
  induction size : bytes.length using Nat.strongRecOn generalizing bytes with
  | ind size ih =>
      by_cases member : octet ∈ bytes
      · obtain ⟨front, rest, rfl, absent⟩ := List.eq_append_cons_of_mem member
        have later := ih rest.length (by simp [← size]; omega) rest rfl
        rw [decode_append_ascii front octet rest small, List.splitOn_append_cons_self_of_not_mem absent,
          List.splitOn_append_cons_self_of_not_mem (fun inside => absent ((mem_decode octet small).mp inside)),
          later, List.map_cons]
      · rw [List.splitOn_eq_singleton member,
          List.splitOn_eq_singleton (fun inside => member ((mem_decode octet small).mp inside))]
        rfl

end Camelmailer.Utf8
